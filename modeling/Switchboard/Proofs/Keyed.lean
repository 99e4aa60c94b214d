import Mathlib.Data.String.Basic
import Mathlib.Data.List.Forall2
import Mathlib.Data.List.Induction
import Mathlib.Data.List.Perm.Subperm
import Switchboard.Keyed

namespace Switchboard.Keyed

variable {α β : Type}

def Sorted (entries : List (String × α)) : Prop := entries.Pairwise fun a b => a.1 < b.1

theorem sorted_nil : Sorted ([] : List (String × α)) := List.Pairwise.nil

theorem sorted_cons {e : String × α} {entries : List (String × α)} :
    Sorted (e :: entries) ↔ (∀ a ∈ entries, e.1 < a.1) ∧ Sorted entries :=
  List.pairwise_cons

theorem mem_of_find? {name : String} {a : α} {entries : List (String × α)}
    (h : find? name entries = some a) : (name, a) ∈ entries := by
  induction entries with
  | nil => simp [find?] at h
  | cons e rest ih =>
      simp only [find?] at h
      split at h
      · next hk =>
          cases h
          subst hk
          exact List.mem_cons_self
      · exact List.mem_cons_of_mem _ (ih h)

theorem find?_eq_none {name : String} {entries : List (String × α)} :
    find? name entries = none ↔ ∀ e ∈ entries, e.1 ≠ name := by
  induction entries with
  | nil => simp [find?]
  | cons e rest ih =>
      by_cases h : e.1 = name
      · simp [find?, h]
      · simp [find?, h, ih]

theorem find?_of_mem {entries : List (String × α)} (h : Sorted entries) {name : String} {a : α}
    (hm : (name, a) ∈ entries) : find? name entries = some a := by
  induction entries with
  | nil => simp at hm
  | cons e rest ih =>
      obtain ⟨hlt, hrest⟩ := sorted_cons.1 h
      rcases List.mem_cons.1 hm with rfl | hm
      · simp [find?]
      · have hne : e.1 ≠ name := (hlt _ hm).ne
        simpa [find?, hne] using ih hrest hm

theorem mem_iff_find? {entries : List (String × α)} (h : Sorted entries) {name : String} {a : α} :
    (name, a) ∈ entries ↔ find? name entries = some a :=
  ⟨find?_of_mem h, mem_of_find?⟩

theorem find?_map (g : α → β) (name : String) (entries : List (String × α)) :
    find? name (entries.map fun e => (e.1, g e.2)) = (find? name entries).map g := by
  induction entries with
  | nil => rfl
  | cons e rest ih =>
      simp only [List.map_cons, find?]
      split
      · rfl
      · exact ih

theorem sorted_map (g : α → β) {entries : List (String × α)} :
    Sorted (entries.map fun e => (e.1, g e.2)) ↔ Sorted entries :=
  List.pairwise_map

theorem mem_insert {name : String} {a : α} {entries : List (String × α)} {e : String × α}
    (h : e ∈ insert name a entries) : e = (name, a) ∨ e ∈ entries := by
  induction entries with
  | nil => simpa [insert] using h
  | cons b rest ih =>
      simp only [insert] at h
      split at h
      · simpa using h
      · split at h
        · rcases List.mem_cons.1 h with h | h
          · exact Or.inl h
          · exact Or.inr (List.mem_cons_of_mem _ h)
        · rcases List.mem_cons.1 h with rfl | h
          · exact Or.inr List.mem_cons_self
          · exact (ih h).imp_right (List.mem_cons_of_mem _)

theorem sorted_insert {name : String} {a : α} {entries : List (String × α)} (h : Sorted entries) :
    Sorted (insert name a entries) := by
  induction entries with
  | nil => simp [insert, Sorted]
  | cons e rest ih =>
      obtain ⟨hlt, hrest⟩ := sorted_cons.1 h
      simp only [insert]
      split
      · next hn =>
          refine sorted_cons.2 ⟨?_, h⟩
          intro b hb
          rcases List.mem_cons.1 hb with rfl | hb
          · exact hn
          · exact lt_trans hn (hlt b hb)
      · next hn =>
          split
          · next hk =>
              subst hk
              exact sorted_cons.2 ⟨hlt, hrest⟩
          · next hk =>
              refine sorted_cons.2 ⟨?_, ih hrest⟩
              intro b hb
              rcases mem_insert hb with rfl | hb
              · exact lt_of_le_of_ne (not_lt.1 hn) hk
              · exact hlt b hb

theorem sorted_ofList (entries : List (String × α)) : Sorted (ofList entries) := by
  induction entries using List.reverseRecOn with
  | nil => exact sorted_nil
  | append_singleton entries e ih =>
      simp only [ofList, List.foldl_append, List.foldl_cons, List.foldl_nil]
      exact sorted_insert ih

theorem mem_ofList {entries : List (String × α)} {e : String × α} (h : e ∈ ofList entries) :
    e ∈ entries := by
  induction entries using List.reverseRecOn with
  | nil => simp [ofList] at h
  | append_singleton entries last ih =>
      simp only [ofList, List.foldl_append, List.foldl_cons, List.foldl_nil] at h
      rcases mem_insert h with rfl | h
      · simp
      · exact List.mem_append_left _ (ih h)

theorem insert_eq_map {name : String} {a : α} (b : α) {entries : List (String × α)}
    (h : Sorted entries) (hf : find? name entries = some a) :
    insert name b entries = entries.map fun e => if e.1 = name then (name, b) else e := by
  induction entries with
  | nil => cases hf
  | cons e rest ih =>
      obtain ⟨hlt, hrest⟩ := sorted_cons.1 h
      obtain ⟨k, c⟩ := e
      by_cases hk : k = name
      · subst hk
        have hsame : (rest.map fun e => if e.1 = k then (k, b) else e) = rest :=
          (List.map_congr_left fun f hf => if_neg (hlt f hf).ne').trans (List.map_id' rest)
        simp [insert, hsame]
      · have hr : find? name rest = some a := by simpa [find?, hk] using hf
        have hn : ¬ name < k := not_lt.2 (hlt _ (mem_of_find? hr)).le
        simp [insert, hk, hn, ih hrest hr]

theorem map_insert_of_find? {name : String} {a b : α} {entries : List (String × α)}
    (h : Sorted entries) (hf : find? name entries = some a) (g : String × α → β)
    (hg : g (name, b) = g (name, a)) :
    (insert name b entries).map g = entries.map g := by
  rw [insert_eq_map b h hf, List.map_map]
  refine List.map_congr_left fun e he => ?_
  by_cases hname : e.1 = name
  · have hfind : find? e.1 entries = some e.2 := find?_of_mem h he
    rw [hname, hf] at hfind
    have hold : e = (name, a) := Prod.ext hname (Option.some.inj hfind).symm
    simp [hold, hg]
  · simp [hname]

theorem insert_perm {name : String} (a : α) {entries : List (String × α)}
    (h : find? name entries = none) : (insert name a entries).Perm ((name, a) :: entries) := by
  induction entries with
  | nil => simp [insert]
  | cons e rest ih =>
      obtain ⟨k, c⟩ := e
      have hk : k ≠ name := find?_eq_none.1 h _ List.mem_cons_self
      have hr : find? name rest = none := by simpa [find?, hk] using h
      simp only [insert, hk, if_false]
      split
      · exact .refl _
      · exact ((ih hr).cons _).trans (.swap ..)

theorem insert_insert (name : String) (a b : α) (entries : List (String × α)) :
    insert name a (insert name b entries) = insert name a entries := by
  induction entries with
  | nil => simp [insert]
  | cons e rest ih =>
      obtain ⟨k, c⟩ := e
      simp only [insert]
      split
      · simp [insert]
      next hlt =>
      split
      · simp [insert]
      · next hne => simp [insert, hlt, hne, ih]

theorem find?_modify_of_ne {name other : String} (h : other ≠ name) (f : α → α)
    (entries : List (String × α)) :
    find? other (modify name f entries) = find? other entries := by
  induction entries with
  | nil => rfl
  | cons e rest ih =>
      simp only [modify]
      split
      · next hk => simp [find?, hk, Ne.symm h]
      · simp [find?, ih]

theorem modify_of_find?_none {name : String} {entries : List (String × α)}
    (h : find? name entries = none) (f : α → α) : modify name f entries = entries := by
  induction entries with
  | nil => rfl
  | cons e rest ih =>
      have hk : e.1 ≠ name := find?_eq_none.1 h e List.mem_cons_self
      have hr : find? name rest = none := by simpa [find?, hk] using h
      simp [modify, hk, ih hr]

theorem sorted_modify (name : String) (f : α → α) {entries : List (String × α)}
    (h : Sorted entries) : Sorted (modify name f entries) := by
  have hnames : (names (modify name f entries)).Pairwise (· < ·) :=
    names_modify name f entries ▸ List.pairwise_map.2 h
  exact List.pairwise_map.1 hnames

theorem erase_sublist (name : String) (entries : List (String × α)) :
    (erase name entries).Sublist entries := by
  induction entries with
  | nil => exact .slnil
  | cons e rest ih =>
      simp only [erase]
      split
      · exact List.sublist_cons_self ..
      · exact ih.cons_cons _

theorem sorted_erase (name : String) {entries : List (String × α)} (h : Sorted entries) :
    Sorted (erase name entries) :=
  h.sublist (erase_sublist name entries)

theorem find?_erase_self {name : String} {entries : List (String × α)} (h : Sorted entries) :
    find? name (erase name entries) = none := by
  induction entries with
  | nil => rfl
  | cons e rest ih =>
      obtain ⟨hlt, hrest⟩ := sorted_cons.1 h
      simp only [erase]
      split
      · next hk => exact find?_eq_none.2 fun b hb => (hk ▸ hlt b hb).ne'
      · next hk => simp [find?, hk, ih hrest]

theorem find?_erase_of_ne {name other : String} (h : other ≠ name) (entries : List (String × α)) :
    find? other (erase name entries) = find? other entries := by
  induction entries with
  | nil => rfl
  | cons e rest ih =>
      simp only [erase]
      split
      · next hk => simp [find?, hk, Ne.symm h]
      · simp [find?, ih]

theorem mem_erase {name : String} {entries : List (String × α)} (h : Sorted entries)
    {e : String × α} : e ∈ erase name entries ↔ e ∈ entries ∧ e.1 ≠ name := by
  obtain ⟨k, a⟩ := e
  rw [mem_iff_find? (sorted_erase name h), mem_iff_find? h]
  by_cases hk : k = name
  · subst hk
    simp [find?_erase_self h]
  · simp [find?_erase_of_ne hk, hk]

theorem erase_perm {name : String} {a : α} {entries : List (String × α)}
    (h : find? name entries = some a) : ((name, a) :: erase name entries).Perm entries := by
  induction entries with
  | nil => simp [find?] at h
  | cons e rest ih =>
      obtain ⟨k, c⟩ := e
      by_cases hk : k = name
      · subst hk
        have hc : c = a := by simpa [find?] using h
        simp [erase, hc]
      · have hr : find? name rest = some a := by simpa [find?, hk] using h
        simp only [erase, hk, if_false]
        exact (List.Perm.swap ..).trans ((ih hr).cons _)

theorem names_eq_of_subset {xs : List (String × α)} {ys : List (String × β)} (hx : Sorted xs)
    (hy : Sorted ys) (hlen : xs.length = ys.length) (h : xs.map (·.1) ⊆ ys.map (·.1)) :
    xs.map (·.1) = ys.map (·.1) := by
  have hxs : (xs.map (·.1)).Pairwise (· < ·) := List.pairwise_map.2 hx
  have hys : (ys.map (·.1)).Pairwise (· < ·) := List.pairwise_map.2 hy
  have hnodup : (xs.map (·.1)).Nodup := hxs.imp fun hlt => hlt.ne
  have hperm := (hnodup.subperm h).perm_of_length_le (by simp [hlen])
  exact hperm.eq_of_pairwise (fun a b _ _ hab hba => absurd hba hab.asymm) hxs hys

theorem forall₂_of_find? {R : α → β → Prop} {xs : List (String × α)} {ys : List (String × β)}
    (hx : Sorted xs) (hy : Sorted ys) (hlen : xs.length = ys.length)
    (h : ∀ e ∈ xs, ∃ b, find? e.1 ys = some b ∧ R e.2 b) :
    List.Forall₂ (fun e f => e.1 = f.1 ∧ R e.2 f.2) xs ys := by
  have hsubset : xs.map (·.1) ⊆ ys.map (·.1) := by
    intro name hname
    obtain ⟨e, he, rfl⟩ := List.mem_map.1 hname
    obtain ⟨b, hb, -⟩ := h e he
    exact List.mem_map.2 ⟨_, mem_of_find? hb, rfl⟩
  have hnames := names_eq_of_subset hx hy hlen hsubset
  clear hsubset hlen hx
  induction xs generalizing ys with
  | nil =>
      obtain rfl : ys = [] := by simpa using hnames.symm
      exact .nil
  | cons e xs ih =>
      obtain ⟨f, ys, rfl⟩ := List.exists_cons_of_ne_nil (l := ys) (by rintro rfl; simp at hnames)
      obtain ⟨hname, hnames⟩ : e.1 = f.1 ∧ xs.map (·.1) = ys.map (·.1) := by simpa using hnames
      obtain ⟨hlt, hys⟩ := sorted_cons.1 hy
      refine .cons ⟨hname, ?_⟩ (ih hys ?_ hnames)
      · obtain ⟨b, hb, hR⟩ := h e List.mem_cons_self
        obtain rfl : f.2 = b := by simpa [find?, hname] using hb
        exact hR
      · intro e' he'
        have hmem : e'.1 ∈ ys.map (·.1) := hnames ▸ List.mem_map_of_mem he'
        obtain ⟨f', hf', hname'⟩ := List.mem_map.1 hmem
        have hne : f.1 ≠ e'.1 := hname' ▸ (hlt f' hf').ne
        simpa [find?, hne] using h e' (List.mem_cons_of_mem _ he')

def last? (name : String) : List (String × α) → Option α
  | [] => none
  | (k, a) :: rest => (last? name rest).or (if k = name then some a else none)

theorem last?_concat (name : String) (entries : List (String × α)) (e : String × α) :
    last? name (entries ++ [e]) = if e.1 = name then some e.2 else last? name entries := by
  induction entries with
  | nil => simp [last?]
  | cons first rest ih =>
      simp only [List.cons_append, last?, ih]
      split <;> simp

theorem mem_of_last? {name : String} {a : α} {entries : List (String × α)}
    (h : last? name entries = some a) : (name, a) ∈ entries := by
  induction entries with
  | nil => simp [last?] at h
  | cons e rest ih =>
      rcases Option.or_eq_some_iff.1 h with h | ⟨-, h⟩
      · exact List.mem_cons_of_mem _ (ih h)
      · split at h
        · next hk =>
            cases h
            subst hk
            exact List.mem_cons_self
        · cases h

theorem last?_map (g : α → β) (name : String) (entries : List (String × α)) :
    last? name (entries.map fun e => (e.1, g e.2)) = (last? name entries).map g := by
  induction entries with
  | nil => rfl
  | cons e rest ih =>
      simp only [List.map_cons, last?, ih]
      cases last? name rest with
      | some a => rfl
      | none => split <;> rfl

theorem find?_ofList (name : String) (entries : List (String × α)) :
    find? name (ofList entries) = last? name entries := by
  induction entries using List.reverseRecOn with
  | nil => rfl
  | append_singleton entries e ih =>
      simp only [ofList, List.foldl_append, List.foldl_cons, List.foldl_nil, last?_concat]
      split
      · next hk => rw [← hk, find?_insert_self]
      · next hk => rw [find?_insert_of_ne (Ne.symm hk), ← ih, ofList]

theorem last?_of_sorted {entries : List (String × α)} (h : Sorted entries) (name : String) :
    last? name entries = find? name entries := by
  induction entries with
  | nil => rfl
  | cons e rest ih =>
      obtain ⟨hlt, hrest⟩ := sorted_cons.1 h
      simp only [last?, find?, ih hrest]
      split
      · next hk =>
          have hnone : find? name rest = none :=
            find?_eq_none.2 fun b hb => (hk ▸ hlt b hb).ne'
          rw [hnone, Option.none_or]
      · exact Option.or_none

theorem eq_of_find? {xs ys : List (String × α)} (hx : Sorted xs) (hy : Sorted ys)
    (h : ∀ name, find? name xs = find? name ys) : xs = ys := by
  have hmem (e : String × α) : e ∈ xs ↔ e ∈ ys := by
    rw [mem_iff_find? hx, mem_iff_find? hy, h]
  have hnodup {zs : List (String × α)} (hz : Sorted zs) : zs.Nodup :=
    hz.imp fun hlt heq => hlt.ne (congrArg Prod.fst heq)
  have hperm : xs.Perm ys := (List.perm_ext_iff_of_nodup (hnodup hx) (hnodup hy)).2 hmem
  exact hperm.eq_of_pairwise (fun a b _ _ hab hba => absurd hba hab.asymm) hx hy

end Switchboard.Keyed
