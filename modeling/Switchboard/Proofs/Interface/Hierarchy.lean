import Mathlib.Data.List.Nodup
import Mathlib.Logic.Relation
import Switchboard.Interface.Analysis

namespace Switchboard

section Except

variable {ε α β : Type} {x : Except ε α} {b : β} {e : ε}

theorem bind_eq_ok {f : α → Except ε β} : (x >>= f) = .ok b ↔ ∃ a, x = .ok a ∧ f a = .ok b := by
  cases x <;> simp [bind, Except.bind]

theorem map_eq_ok {f : α → β} : x.map f = .ok b ↔ ∃ a, x = .ok a ∧ f a = b := by
  cases x <;> simp [Except.map]

theorem bind_eq_error {f : α → Except ε β} :
    (x >>= f) = .error e ↔ x = .error e ∨ ∃ a, x = .ok a ∧ f a = .error e := by
  cases x <;> simp [bind, Except.bind]

theorem map_eq_error {f : α → β} : x.map f = .error e ↔ x = .error e := by
  cases x <;> simp [Except.map]

theorem foldlM_eq_error {step : β → α → Except ε β} {xs : List α} {s : β}
    (h : xs.foldlM step s = .error e) : ∃ x ∈ xs, ∃ s', step s' x = .error e := by
  induction xs generalizing s with
  | nil => cases h
  | cons x xs ih =>
      rw [List.foldlM_cons, bind_eq_error] at h
      rcases h with h | ⟨s', -, h⟩
      · exact ⟨x, List.mem_cons_self .., s, h⟩
      · obtain ⟨y, hy, hstep⟩ := ih h
        exact ⟨y, List.mem_cons_of_mem x hy, hstep⟩

end Except

namespace Interface

def Reaches : Interface → Interface → Prop := Relation.ReflTransGen fun i p => p ∈ i.parents

/-- A name stands for one declaration among those reached. -/
def Consistent (root : Interface) : Prop :=
  ∀ i j, root.Reaches i → root.Reaches j → i.name = j.name → i = j

/-- On the way to an interface another declaration stands in the place of one that is reached. -/
def Shadowed (root i : Interface) : Prop :=
  ∃ j k, root.Reaches j ∧ j.Reaches i ∧ root.Reaches k ∧ k.name = j.name ∧ k ≠ j

structure Found (seen : List String) (queue found : List Interface) : Prop where
  fresh : ∀ i ∈ found, i.name ∉ seen
  distinct : (found.map name).Nodup
  exposable : ∀ i ∈ found, i.exposable = true
  reached : ∀ i ∈ found, ∃ q ∈ queue, q.Reaches i
  queued : ∀ q ∈ queue, q.name ∈ seen ∨ q.name ∈ found.map name
  closed : ∀ i ∈ found, ∀ p ∈ i.parents, p.name ∈ seen ∨ p.name ∈ found.map name

variable {root i j : Interface} {seen : List String} {queue found : List Interface}
  {e : DeclarationError}

theorem Found.skip (h : Found seen queue found) (hi : i.name ∈ seen) :
    Found seen (i :: queue) found where
  fresh := h.fresh
  distinct := h.distinct
  exposable := h.exposable
  reached j hj := by
    obtain ⟨q, hq, hr⟩ := h.reached j hj
    exact ⟨q, List.mem_cons_of_mem i hq, hr⟩
  queued q hq := by
    rcases List.mem_cons.1 hq with rfl | hq
    · exact Or.inl hi
    · exact h.queued q hq
  closed := h.closed

theorem Found.take (h : Found (i.name :: seen) (queue ++ i.parents) found) (hi : i.name ∉ seen)
    (he : i.exposable = true) : Found seen (i :: queue) (i :: found) := by
  have hnamed {n : String} (hn : n ∈ i.name :: seen ∨ n ∈ found.map name) :
      n ∈ seen ∨ n ∈ (i :: found).map name := by
    rcases hn with hn | hn
    · rcases List.mem_cons.1 hn with rfl | hn
      · exact Or.inr (List.mem_cons_self ..)
      · exact Or.inl hn
    · exact Or.inr (List.mem_cons_of_mem _ hn)
  refine ⟨?_, ?_, ?_, ?_, ?_, ?_⟩
  · rintro j (_ | ⟨_, hj⟩)
    · exact hi
    · exact fun hs => h.fresh j hj (List.mem_cons_of_mem _ hs)
  · refine List.nodup_cons.2 ⟨?_, h.distinct⟩
    intro hmem
    obtain ⟨j, hj, hname⟩ := List.mem_map.1 hmem
    exact h.fresh j hj (hname ▸ List.mem_cons_self ..)
  · rintro j (_ | ⟨_, hj⟩)
    · exact he
    · exact h.exposable j hj
  · rintro j (_ | ⟨_, hj⟩)
    · exact ⟨i, List.mem_cons_self .., .refl⟩
    · obtain ⟨q, hq, hr⟩ := h.reached j hj
      rcases List.mem_append.1 hq with hq | hq
      · exact ⟨q, List.mem_cons_of_mem i hq, hr⟩
      · exact ⟨i, List.mem_cons_self .., .head hq hr⟩
  · rintro q (_ | ⟨_, hq⟩)
    · exact Or.inr (List.mem_cons_self ..)
    · exact hnamed (h.queued q (List.mem_append_left _ hq))
  · rintro j (_ | ⟨_, hj⟩) p hp
    · exact hnamed (h.queued p (List.mem_append_right _ hp))
    · exact hnamed (h.closed j hj p hp)

theorem found_of_walk (h : walk seen queue = .ok found) : Found seen queue found := by
  induction seen, queue using walk.induct generalizing found with
  | case1 seen =>
      rw [walk] at h
      cases h
      exact ⟨by simp, by simp, by simp, by simp, by simp, by simp⟩
  | case2 seen i queue hi ih =>
      rw [walk, if_pos hi] at h
      exact (ih h).skip hi
  | case3 seen i queue hi he ih =>
      rw [walk, if_neg hi, if_pos he] at h
      obtain ⟨rest, hrest, rfl⟩ := map_eq_ok.1 h
      exact (ih hrest).take hi he
  | case4 seen i queue hi he =>
      rw [walk, if_neg hi, if_neg he] at h
      cases h

theorem walk_error (h : walk seen queue = .error e) :
    ∃ q ∈ queue, ∃ i, q.Reaches i ∧ i.exposable = false ∧ e = .notExposable i.name := by
  induction seen, queue using walk.induct with
  | case1 seen =>
      rw [walk] at h
      cases h
  | case2 seen i queue hi ih =>
      rw [walk, if_pos hi] at h
      obtain ⟨q, hq, hrest⟩ := ih h
      exact ⟨q, List.mem_cons_of_mem i hq, hrest⟩
  | case3 seen i queue hi he ih =>
      rw [walk, if_neg hi, if_pos he] at h
      obtain ⟨q, hq, j, hr, hj⟩ := ih (map_eq_error.1 h)
      rcases List.mem_append.1 hq with hq | hq
      · exact ⟨q, List.mem_cons_of_mem i hq, j, hr, hj⟩
      · exact ⟨i, List.mem_cons_self .., j, .head hq hr, hj⟩
  | case4 seen i queue hi he =>
      rw [walk, if_neg hi, if_neg he] at h
      cases h
      exact ⟨i, List.mem_cons_self .., i, .refl, by simpa using he, rfl⟩

theorem reaches_of_mem_hierarchy (h : root.hierarchy = .ok found) (hi : i ∈ found) :
    root.Reaches i := by
  obtain ⟨q, hq, hr⟩ := (found_of_walk h).reached i hi
  obtain rfl := List.mem_singleton.1 hq
  exact hr

theorem hierarchy_error (h : root.hierarchy = .error e) :
    ∃ i, root.Reaches i ∧ i.exposable = false ∧ e = .notExposable i.name := by
  obtain ⟨q, hq, hrest⟩ := walk_error h
  obtain rfl := List.mem_singleton.1 hq
  exact hrest

theorem mem_or_shadowed (h : root.hierarchy = .ok found) (hj : root.Reaches j)
    (hname : j.name ∈ found.map name) : j ∈ found ∨ root.Shadowed j := by
  obtain ⟨k, hk, hsame⟩ := List.mem_map.1 hname
  by_cases hkj : k = j
  · exact Or.inl (hkj ▸ hk)
  · exact Or.inr ⟨j, k, hj, .refl, reaches_of_mem_hierarchy h hk, hsame, hkj⟩

theorem found_or_shadowed (h : root.hierarchy = .ok found) (hi : root.Reaches i) :
    i ∈ found ∨ root.Shadowed i := by
  have hfound := found_of_walk h
  -- Once an interface on the way is shadowed, so is all that is reached through it.
  induction hi with
  | refl =>
      refine mem_or_shadowed h .refl ?_
      simpa using hfound.queued root (List.mem_singleton_self root)
  | @tail j p hj hp ih =>
      rcases ih with hmem | ⟨k, l, hk, hkj, hrest⟩
      · refine mem_or_shadowed h (.tail hj hp) ?_
        simpa using hfound.closed j hmem p hp
      · exact Or.inr ⟨k, l, hk, .tail hkj hp, hrest⟩

theorem Reaches.mem (h : root.Reaches i) (hroot : root ∈ found)
    (hclosed : ∀ j ∈ found, ∀ p ∈ j.parents, p ∈ found) : i ∈ found := by
  induction h with
  | refl => exact hroot
  | @tail j p hj hp ih => exact hclosed j ih p hp

theorem Consistent.of_closed (hroot : root ∈ found)
    (hclosed : ∀ j ∈ found, ∀ p ∈ j.parents, p ∈ found) (hd : (found.map name).Nodup) :
    root.Consistent := fun _ _ hi hj hname =>
  List.inj_on_of_nodup_map hd (hi.mem hroot hclosed) (hj.mem hroot hclosed) hname

theorem Consistent.not_shadowed (hc : root.Consistent) : ¬root.Shadowed i := by
  rintro ⟨j, k, hj, -, hk, hname, hne⟩
  exact hne (hc k j hk hj hname)

theorem Consistent.mem_hierarchy (hc : root.Consistent) (h : root.hierarchy = .ok found) :
    i ∈ found ↔ root.Reaches i := by
  constructor
  · exact reaches_of_mem_hierarchy h
  · intro hi
    rcases found_or_shadowed h hi with hmem | hs
    · exact hmem
    · exact absurd hs hc.not_shadowed

end Interface

end Switchboard
