import Switchboard.Json.Reader
import Switchboard.Proofs.Keyed

namespace Switchboard.Json

inductive Ordered : Json → Prop
  | null : Ordered .null
  | bool (b : Bool) : Ordered (.bool b)
  | int (n : Int) : Ordered (.int n)
  | double (bits : UInt64) : Ordered (.double bits)
  | str (s : String) : Ordered (.str s)
  | arr {items : List Json} : (∀ v ∈ items, Ordered v) → Ordered (.arr items)
  | obj {entries : List (String × Json)} :
      Keyed.Sorted entries → (∀ e ∈ entries, Ordered e.2) → Ordered (.obj entries)

variable {v : Json} {vs : List Json} {es : List (String × Json)} {cs rest : List Char}

theorem ordered_object (h : ∀ e ∈ es, e.2.Ordered) : (object es).Ordered :=
  .obj (Keyed.sorted_ofList es) fun e he => h e (Keyed.mem_ofList he)

namespace Reader

theorem ordered_literal (l : Literal) : l.value.Ordered := by
  simp only [Literal.value]
  repeat' split
  all_goals first | exact .double _ | exact .int _

theorem ordered_number {negative : Bool} (h : number? negative cs = some (v, rest)) :
    v.Ordered := by
  simp only [number?, bind, Option.bind_eq_some_iff] at h
  obtain ⟨⟨ws, _⟩, -, ⟨fs, _⟩, -, ⟨es, _⟩, -, h⟩ := h
  cases h
  exact ordered_literal _

structure ReadsOrdered (fuel : Nat) : Prop where
  value : ∀ {cs v rest}, value? fuel cs = some (v, rest) → v.Ordered
  items : ∀ {cs vs rest}, items? fuel cs = some (vs, rest) → ∀ v ∈ vs, v.Ordered
  entries : ∀ {cs es rest}, entries? fuel cs = some (es, rest) → ∀ e ∈ es, e.2.Ordered

theorem ReadsOrdered.value_succ {fuel : Nat} (h : ReadsOrdered fuel)
    (hv : value? (fuel + 1) cs = some (v, rest)) : v.Ordered := by
  simp only [value?] at hv
  split at hv
  · cases hv
    exact .null
  · cases hv
    exact .bool true
  · cases hv
    exact .bool false
  · obtain ⟨⟨s, r⟩, -, hs⟩ := Option.map_eq_some_iff.1 hv
    cases hs
    exact .str _
  · split at hv
    · cases hv
      exact .arr (by simp)
    · obtain ⟨⟨vs, r⟩, hvs, hs⟩ := Option.map_eq_some_iff.1 hv
      cases hs
      exact .arr (h.items hvs)
  · split at hv
    · cases hv
      exact .obj Keyed.sorted_nil (by simp)
    · obtain ⟨⟨es, r⟩, hes, hs⟩ := Option.map_eq_some_iff.1 hv
      cases hs
      exact ordered_object (h.entries hes)
  · exact ordered_number hv
  · exact ordered_number hv

theorem ReadsOrdered.items_succ {fuel : Nat} (h : ReadsOrdered fuel)
    (hvs : items? (fuel + 1) cs = some (vs, rest)) : ∀ v ∈ vs, v.Ordered := by
  simp only [items?] at hvs
  split at hvs
  · cases hvs
  · next v r hv =>
      have hfirst : v.Ordered := h.value hv
      split at hvs
      · obtain ⟨⟨vs, r⟩, hrest, hs⟩ := Option.map_eq_some_iff.1 hvs
        cases hs
        exact List.forall_mem_cons.2 ⟨hfirst, h.items hrest⟩
      · cases hvs
        simpa using hfirst
      · cases hvs

theorem ReadsOrdered.entries_succ {fuel : Nat} (h : ReadsOrdered fuel)
    (hes : entries? (fuel + 1) cs = some (es, rest)) : ∀ e ∈ es, e.2.Ordered := by
  simp only [entries?] at hes
  split at hes
  · split at hes
    · cases hes
    · split at hes
      · split at hes
        · cases hes
        · next v _ hv =>
            have hfirst : v.Ordered := h.value hv
            split at hes
            · obtain ⟨⟨es, r⟩, hrest, hs⟩ := Option.map_eq_some_iff.1 hes
              cases hs
              exact List.forall_mem_cons.2 ⟨hfirst, h.entries hrest⟩
            · cases hes
              simpa using hfirst
            · cases hes
      · cases hes
  · cases hes

theorem readsOrdered (fuel : Nat) : ReadsOrdered fuel := by
  induction fuel with
  | zero => exact ⟨by simp [value?], by simp [items?], by simp [entries?]⟩
  | succ fuel ih => exact ⟨ih.value_succ, ih.items_succ, ih.entries_succ⟩

end Reader

theorem ordered_parse {s : String} (h : parse? s = some v) : v.Ordered := by
  simp only [parse?] at h
  split at h
  · next hv =>
      split at h
      · cases h
        exact (Reader.readsOrdered _).value hv
      · cases h
  · cases h

end Switchboard.Json
