import Mathlib.Order.Lattice.Nat
import Switchboard.Proofs.Interface.Coverage

namespace Switchboard

namespace Interface

def unseen (done xs : List Interface) : List Interface := (xs.filter (· ∉ done)).eraseDups

variable {root i j : Interface} {done queue xs ys order : List Interface} {n : Nat}

theorem mem_unseen : i ∈ unseen done xs ↔ i ∈ xs ∧ i ∉ done := by
  simp [unseen]

theorem unseen_nil : unseen done [] = [] := rfl

theorem unseen_cons_of_mem (hi : i ∈ done) : unseen done (i :: xs) = unseen done xs := by
  simp [unseen, hi]

theorem unseen_cons_of_not_mem (hi : i ∉ done) :
    unseen done (i :: xs) = i :: unseen (i :: done) xs := by
  rw [unseen, List.filter_cons_of_pos (by simpa using hi), List.eraseDups_cons, List.filter_filter,
    unseen]
  simp [beq_eq_decide]

theorem unseen_append : unseen done (xs ++ ys) = unseen done xs ++ unseen (xs ++ done) ys := by
  have hrest : (ys.filter (· ∉ done)).removeAll (xs.filter (· ∉ done)) =
      ys.filter (· ∉ xs ++ done) := by
    rw [List.removeAll, List.filter_filter]
    refine List.filter_congr fun y _ => ?_
    by_cases hy : y ∈ done <;> simp [hy]
  rw [unseen, List.filter_append, List.eraseDups_append, hrest]
  rfl

theorem nodup_unseen : (unseen done xs).Nodup := by
  induction xs generalizing done with
  | nil => exact List.nodup_nil
  | cons x xs ih =>
      by_cases hx : x ∈ done
      · rw [unseen_cons_of_mem hx]
        exact ih
      · rw [unseen_cons_of_not_mem hx]
        refine List.nodup_cons.2 ⟨fun hmem => ?_, ih⟩
        exact (mem_unseen.1 hmem).2 (List.mem_cons_self ..)

/-- What a walk through a queue would find if all were exposable. -/
def trail (done : List Interface) : List Interface → List Interface
  | [] => []
  | i :: queue =>
      if i ∈ done then trail done queue else i :: trail (i :: done) (queue ++ i.parents)
termination_by queue => sizeOf queue
decreasing_by
  · simp only [List.cons.sizeOf_spec]
    omega
  · have h₁ := sizeOf_append queue i.parents
    have h₂ := sizeOf_parents_lt i
    simp only [List.cons.sizeOf_spec]
    omega

theorem trail_eq_unseen :
    trail done queue = unseen done (queue ++ (trail done queue).flatMap parents) := by
  induction done, queue using trail.induct with
  | case1 done => simp [trail, unseen_nil]
  | case2 done i queue hi ih =>
      rw [trail, if_pos hi, List.cons_append, unseen_cons_of_mem hi]
      exact ih
  | case3 done i queue hi ih =>
      rw [trail, if_neg hi, List.cons_append, unseen_cons_of_not_mem hi, List.flatMap_cons,
        ← List.append_assoc, ← ih]

theorem sizeOf_lt_of_mem_parents (h : i ∈ j.parents) : sizeOf i < sizeOf j :=
  (List.sizeOf_lt_of_mem h).trans (sizeOf_parents_lt j)

theorem eq_nil_of_subset_parents (h : ∀ i ∈ xs, i ∈ xs.flatMap parents) : xs = [] := by
  by_contra hne
  -- The largest entry would be a parent of another, which is larger.
  obtain ⟨i, hi, hmax⟩ := xs.toFinset.exists_max_image sizeOf (by simpa using hne)
  obtain ⟨j, hj, hij⟩ := List.mem_flatMap.1 (h i (List.mem_toFinset.1 hi))
  have hlt := sizeOf_lt_of_mem_parents hij
  exact absurd (hmax j (List.mem_toFinset.2 hj)) (by omega)

theorem eq_trail (h : xs = unseen done (queue ++ xs.flatMap parents)) : xs = trail done queue := by
  induction done, queue using trail.induct generalizing xs with
  | case1 done =>
      rw [trail]
      refine eq_nil_of_subset_parents fun i hi => ?_
      rw [h] at hi
      exact (mem_unseen.1 hi).1
  | case2 done i queue hi ih =>
      rw [List.cons_append, unseen_cons_of_mem hi] at h
      rw [trail, if_pos hi]
      exact ih h
  | case3 done i queue hi ih =>
      rw [List.cons_append, unseen_cons_of_not_mem hi] at h
      have hrest : xs.tail = unseen (i :: done) (queue ++ i.parents ++ xs.tail.flatMap parents) := by
        rw [h, List.tail_cons, List.append_assoc, ← List.flatMap_cons, ← h]
      rw [trail, if_neg hi, ← ih hrest, h, List.tail_cons]

theorem reached_of_mem_trail (h : i ∈ trail done queue) : ∃ q ∈ queue, q.Reaches i := by
  induction done, queue using trail.induct with
  | case1 done => simp [trail] at h
  | case2 done j queue hj ih =>
      rw [trail, if_pos hj] at h
      obtain ⟨q, hq, hr⟩ := ih h
      exact ⟨q, List.mem_cons_of_mem j hq, hr⟩
  | case3 done j queue hj ih =>
      rw [trail, if_neg hj] at h
      rcases List.mem_cons.1 h with rfl | h
      · exact ⟨i, List.mem_cons_self .., .refl⟩
      · obtain ⟨q, hq, hr⟩ := ih h
        rcases List.mem_append.1 hq with hq | hq
        · exact ⟨q, List.mem_cons_of_mem j hq, hr⟩
        · exact ⟨j, List.mem_cons_self .., .head hq hr⟩

def expose (i : Interface) : Except DeclarationError Interface :=
  if i.exposable then .ok i else .error (.notExposable i.name)

theorem expose_all (h : ∀ i ∈ xs, i.exposable = true) : xs.mapM expose = .ok xs := by
  induction xs with
  | nil => rfl
  | cons x xs ih =>
      have hx : x.expose = .ok x := if_pos (h x (List.mem_cons_self ..))
      rw [List.mapM_cons, hx, ih fun i hi => h i (List.mem_cons_of_mem x hi)]
      rfl

theorem expose_hidden (h : ∀ j ∈ xs, j.exposable = true) (hi : i.exposable = false) :
    (xs ++ i :: ys).mapM expose = .error (.notExposable i.name) := by
  have hfail : i.expose = .error (.notExposable i.name) := if_neg (by simp [hi])
  rw [List.mapM_append, expose_all h, List.mapM_cons, hfail]
  rfl

theorem walk_eq_trail (hc : root.Consistent) (hdone : ∀ i ∈ done, root.Reaches i)
    (hqueue : ∀ i ∈ queue, root.Reaches i) :
    walk (done.map name) queue = (trail done queue).mapM expose := by
  induction done, queue using trail.induct with
  | case1 done => rw [walk, trail]; rfl
  | case2 done i queue hi ih =>
      rw [walk, if_pos (List.mem_map_of_mem hi), trail, if_pos hi]
      exact ih hdone fun j hj => hqueue j (List.mem_cons_of_mem i hj)
  | case3 done i queue hi ih =>
      have hreach : root.Reaches i := hqueue i (List.mem_cons_self ..)
      -- With one declaration for each name, a name that was seen is an interface that was seen.
      have hname : i.name ∉ done.map name := by
        intro hmem
        obtain ⟨j, hj, hsame⟩ := List.mem_map.1 hmem
        exact hi (hc j i (hdone j hj) hreach hsame ▸ hj)
      rw [walk, if_neg hname, trail, if_neg hi, List.mapM_cons]
      by_cases he : i.exposable = true
      · have hexpose : i.expose = .ok i := if_pos he
        have hrest := ih (List.forall_mem_cons.2 ⟨hreach, hdone⟩) ?_
        · rw [if_pos he, ← List.map_cons, hrest, hexpose]
          cases (trail (i :: done) (queue ++ i.parents)).mapM expose <;> rfl
        · intro j hj
          rcases List.mem_append.1 hj with hj | hj
          · exact hqueue j (List.mem_cons_of_mem i hj)
          · exact hreach.tail hj
      · have hexpose : i.expose = .error (.notExposable i.name) := if_neg he
        rw [if_neg he, hexpose]
        rfl

def Climbs (root : Interface) : Nat → Interface → Prop
  | 0, i => i = root
  | n + 1, i => ∃ j, root.Climbs n j ∧ i ∈ j.parents

noncomputable def distance (root i : Interface) : Nat := sInf {n | root.Climbs n i}

theorem Climbs.reaches (h : root.Climbs n i) : root.Reaches i := by
  induction n generalizing i with
  | zero =>
      obtain rfl : i = root := h
      exact .refl
  | succ n ih =>
      obtain ⟨j, hj, hi⟩ := h
      exact (ih hj).tail hi

theorem Reaches.exists_climbs (h : root.Reaches i) : ∃ n, root.Climbs n i := by
  induction h with
  | refl => exact ⟨0, rfl⟩
  | @tail j i hj hi ih =>
      obtain ⟨n, hn⟩ := ih
      exact ⟨n + 1, j, hn, hi⟩

theorem Reaches.climbs_distance (h : root.Reaches i) : root.Climbs (root.distance i) i :=
  Nat.sInf_mem h.exists_climbs

theorem Climbs.distance_le (h : root.Climbs n i) : root.distance i ≤ n := Nat.sInf_le h

def discovered (root : Interface) (earlier : List Interface) (i : Interface) : List Interface :=
  unseen (root :: earlier.flatMap parents) i.parents

structure BreadthFirst (root : Interface) (order : List Interface) : Prop where
  starts : order.head? = some root
  distinct : order.Nodup
  complete : ∀ i, i ∈ order ↔ root.Reaches i
  nearest : order.Pairwise fun i j => root.distance i ≤ root.distance j
  listed : ∀ earlier i later, order = earlier ++ i :: later → root.discovered earlier i <:+: order
  mentioned : order = (root :: order.flatMap parents).eraseDups

theorem BreadthFirst.eq_trail (h : root.BreadthFirst order) : order = trail [] [root] := by
  refine Interface.eq_trail ?_
  simpa [unseen] using h.mentioned

theorem trail_mentioned (root : Interface) :
    trail [] [root] = unseen [] (root :: (trail [] [root]).flatMap parents) := trail_eq_unseen

theorem head?_trail : (trail [] [root]).head? = some root := by
  rw [trail, if_neg List.not_mem_nil]
  rfl

theorem nodup_trail : (trail [] [root]).Nodup := by
  rw [trail_mentioned]
  exact nodup_unseen

theorem mem_trail : i ∈ trail [] [root] ↔ root.Reaches i := by
  constructor
  · intro hi
    obtain ⟨q, hq, hr⟩ := reached_of_mem_trail hi
    obtain rfl := List.mem_singleton.1 hq
    exact hr
  · intro hi
    have hmem {j : Interface} (hj : j ∈ root :: (trail [] [root]).flatMap parents) :
        j ∈ trail [] [root] := by
      rw [trail_mentioned]
      exact mem_unseen.2 ⟨hj, List.not_mem_nil⟩
    refine hi.mem (hmem (List.mem_cons_self ..)) fun j hj p hp => ?_
    exact hmem (List.mem_cons_of_mem root (List.mem_flatMap.2 ⟨j, hj, hp⟩))

theorem discovered_infix {earlier later : List Interface}
    (h : trail [] [root] = earlier ++ i :: later) :
    root.discovered earlier i <:+: trail [] [root] := by
  have hsplit : root :: (trail [] [root]).flatMap parents =
      root :: earlier.flatMap parents ++ i.parents ++ later.flatMap parents := by
    simp [h]
  rw [trail_mentioned, hsplit, unseen_append, unseen_append, List.append_nil]
  exact List.infix_append ..

theorem subset_of_prefix {earlier later front : List Interface} (hd : (earlier ++ i :: later).Nodup)
    (hfront : front <+: earlier ++ i :: later) (hi : i ∈ front) : earlier ⊆ front := by
  obtain ⟨rest, hrest⟩ := hfront
  rcases List.append_eq_append_iff.1 hrest with ⟨mid, rfl, -⟩ | ⟨mid, rfl, -⟩
  · rw [List.append_assoc] at hd
    have hdisjoint := List.disjoint_of_nodup_append hd
    exact absurd (List.mem_append_right mid (List.mem_cons_self ..)) (hdisjoint hi)
  · exact List.subset_append_left ..

theorem met_prefix {earlier later : List Interface} (h : trail [] [root] = earlier ++ i :: later) :
    unseen [] (root :: (earlier ++ [i]).flatMap parents) <+: trail [] [root] := by
  have hsplit : root :: (trail [] [root]).flatMap parents =
      root :: (earlier ++ [i]).flatMap parents ++ later.flatMap parents := by
    simp [h]
  rw [trail_mentioned, hsplit, unseen_append]
  exact List.prefix_append ..

theorem nothing_before_root {earlier later : List Interface}
    (h : trail [] [root] = earlier ++ root :: later) : earlier = [] := by
  cases earlier with
  | nil => rfl
  | cons first earlier =>
      have hfirst : (trail [] [root]).head? = some first := by rw [h]; rfl
      rw [head?_trail] at hfirst
      obtain rfl := Option.some.inj hfirst
      have hd : (root :: earlier ++ root :: later).Nodup := h ▸ nodup_trail
      exact absurd (List.mem_append_right earlier (List.mem_cons_self ..)) (List.nodup_cons.1 hd).1

theorem climbs_earlier {earlier later : List Interface} (h : trail [] [root] = earlier ++ j :: later)
    (hj : root.Climbs n j) (hi : i ∈ earlier) : ∃ m ≤ n, root.Climbs m i := by
  induction n generalizing i j earlier later with
  | zero =>
      obtain rfl : j = root := hj
      rw [nothing_before_root h] at hi
      cases hi
  | succ n ih =>
      -- `j` is met at `k` at the latest, and `i`, which comes before it, too: at `k` or at an `l`
      -- before `k`, which is no further away.
      obtain ⟨k, hk, hjk⟩ := hj
      obtain ⟨before, after, hsplit⟩ := List.append_of_mem (mem_trail.2 hk.reaches)
      have hjmet : j ∈ unseen [] (root :: (before ++ [k]).flatMap parents) := by
        refine mem_unseen.2 ⟨List.mem_cons_of_mem root ?_, List.not_mem_nil⟩
        exact List.mem_flatMap.2 ⟨k, by simp, hjk⟩
      have hd : (earlier ++ j :: later).Nodup := h ▸ nodup_trail
      have himet := subset_of_prefix hd (h ▸ met_prefix hsplit) hjmet hi
      rcases List.mem_cons.1 (mem_unseen.1 himet).1 with rfl | hmet
      · exact ⟨0, Nat.zero_le _, rfl⟩
      obtain ⟨l, hl, hil⟩ := List.mem_flatMap.1 hmet
      rcases List.mem_append.1 hl with hl | hl
      · obtain ⟨m, hm, hclimbs⟩ := ih hsplit hk hl
        exact ⟨m + 1, by omega, l, hclimbs, hil⟩
      · obtain rfl := List.mem_singleton.1 hl
        exact ⟨n + 1, le_rfl, l, hk, hil⟩

theorem distance_le_of_earlier {earlier later : List Interface}
    (h : trail [] [root] = earlier ++ j :: later) (hi : i ∈ earlier) :
    root.distance i ≤ root.distance j := by
  have hj : root.Reaches j := mem_trail.1 (h ▸ List.mem_append_right _ (List.mem_cons_self ..))
  obtain ⟨m, hm, hclimbs⟩ := climbs_earlier h hj.climbs_distance hi
  exact hclimbs.distance_le.trans hm

theorem breadthFirst_trail : root.BreadthFirst (trail [] [root]) where
  starts := head?_trail
  distinct := nodup_trail
  complete _ := mem_trail
  nearest := by
    refine List.pairwise_iff_getElem.2 fun a b ha hb hab => ?_
    have hsplit : trail [] [root] =
        (trail [] [root]).take b ++ (trail [] [root])[b] :: (trail [] [root]).drop (b + 1) := by
      rw [List.getElem_cons_drop, List.take_append_drop]
    refine distance_le_of_earlier hsplit (List.mem_take_iff_getElem.2 ⟨a, ?_, rfl⟩)
    omega
  listed _ _ _ h := discovered_infix h
  mentioned := by simpa [unseen] using trail_mentioned root

theorem hierarchy_eq_trail (hc : root.Consistent) :
    root.hierarchy = (trail [] [root]).mapM expose :=
  walk_eq_trail hc (List.forall_mem_nil _) (List.forall_mem_singleton.2 .refl)

theorem hierarchy_breadth_first (hc : root.Consistent) :
    ∃ order, root.BreadthFirst order ∧ (∀ other, root.BreadthFirst other → other = order) ∧
      ((∀ i, root.Reaches i → i.exposable = true) → root.hierarchy = .ok order) ∧
      ((∃ i, root.Reaches i ∧ i.exposable = false) →
        ∃ earlier i later, order = earlier ++ i :: later ∧
          (∀ j ∈ earlier, j.exposable = true) ∧ i.exposable = false ∧
            root.hierarchy = .error (.notExposable i.name)) := by
  refine ⟨_, breadthFirst_trail, fun other h => h.eq_trail, fun hall => ?_, ?_⟩
  · rw [hierarchy_eq_trail hc]
    exact expose_all fun i hi => hall i (mem_trail.1 hi)
  · rintro ⟨i, hi, hhidden⟩
    obtain ⟨first, hfirst⟩ : ∃ j, (trail [] [root]).find? (!·.exposable) = some j := by
      rw [← Option.isSome_iff_exists, List.find?_isSome]
      exact ⟨i, mem_trail.2 hi, by simp [hhidden]⟩
    obtain ⟨hrefused, earlier, later, hsplit, hbefore⟩ := List.find?_eq_some_iff_append.1 hfirst
    have hopen : ∀ j ∈ earlier, j.exposable = true := by simpa using hbefore
    have hclosed : first.exposable = false := by simpa using hrefused
    refine ⟨earlier, first, later, hsplit, hopen, hclosed, ?_⟩
    rw [hierarchy_eq_trail hc, hsplit]
    exact expose_hidden hopen hclosed

def archive : Interface := .mk "bank::Archive" false [] []

def safe : Interface := .mk "bank::Safe" false [] []

def keys : Interface := .mk "bank::Keys" true [safe] []

def vault : Interface := .mk "bank::Vault" true [keys, archive] []

theorem vault_consistent : vault.Consistent := by
  have hclosed : ∀ i ∈ [vault, keys, archive, safe], ∀ p ∈ i.parents,
      p ∈ [vault, keys, archive, safe] := by
    simp [vault, keys, archive, safe, parents]
  exact .of_closed (by simp) hclosed (by decide)

theorem vault_reaches : vault.Reaches archive := .single (by simp [vault, parents])

theorem vault_hierarchy : vault.hierarchy = .error (.notExposable "bank::Archive") := by
  simp [hierarchy, walk, vault, keys, archive, safe, name, exposable, parents, Except.map]

theorem hierarchy_breadth_first_of_vault :
    Analyzer.diamond.BreadthFirst
        [Analyzer.diamond, Analyzer.reading, Analyzer.writing, Analyzer.auditing] ∧
      ∃ earlier later, vault.BreadthFirst (earlier ++ archive :: later) ∧ safe ∉ earlier := by
  constructor
  · obtain ⟨order, horder, -, hok, -⟩ := hierarchy_breadth_first Analyzer.diamond_consistent
    have hall : ∀ i, Analyzer.diamond.Reaches i → i.exposable = true := fun i hi =>
      (found_of_walk Analyzer.diamond_hierarchy).exposable i
        (hi.mem (List.mem_cons_self ..) Analyzer.diamond_closed)
    have hsame := (hok hall).symm.trans Analyzer.diamond_hierarchy
    exact Except.ok.inj hsame ▸ horder
  · obtain ⟨order, horder, -, -, hrefused⟩ := hierarchy_breadth_first vault_consistent
    obtain ⟨earlier, i, later, rfl, hopen, -, herror⟩ := hrefused ⟨archive, vault_reaches, rfl⟩
    have hname : i.name = "bank::Archive" := by
      simpa using herror.symm.trans vault_hierarchy
    have hi : vault.Reaches i := (horder.complete i).1 (by simp)
    obtain rfl := vault_consistent i archive hi vault_reaches hname
    exact ⟨earlier, later, horder, fun hsafe => Bool.noConfusion (hopen safe hsafe)⟩

end Interface

end Switchboard
