import Switchboard.Interface.Declaration

namespace Switchboard

namespace Interface

variable {s cs rest other : List Char} {c : Char} {found : Option (List Char)}

def IsLast (s cs : List Char) : Option (List Char) → Prop
  | some rest => s ++ rest <:+ cs ∧ ∀ other, s ++ other <:+ cs → rest <:+ other
  | none => ∀ other, ¬s ++ other <:+ cs

theorem IsLast.nil : IsLast (c :: s) [] none := by
  intro other h
  simpa using List.suffix_nil.1 h

theorem IsLast.skip (h : IsLast s cs found) (hc : ∀ other, s ++ other ≠ c :: cs) :
    IsLast s (c :: cs) found := by
  have htail {other : List Char} (ho : s ++ other <:+ c :: cs) : s ++ other <:+ cs :=
    (List.suffix_cons_iff.1 ho).resolve_left (hc other)
  cases found with
  | none => exact fun other ho => h other (htail ho)
  | some rest =>
      obtain ⟨hrest, hlast⟩ := h
      exact ⟨hrest.trans (List.suffix_cons c cs), fun other ho => hlast other (htail ho)⟩

theorem IsLast.here (h : IsLast s cs found) (hs : s ++ rest = c :: cs) :
    IsLast s (c :: cs) (some (found.getD rest)) := by
  have hother {other : List Char} (ho : s ++ other <:+ c :: cs) :
      other = rest ∨ s ++ other <:+ cs := by
    rcases List.suffix_cons_iff.1 ho with heq | hcs
    · exact Or.inl (List.append_cancel_left (heq.trans hs.symm))
    · exact Or.inr hcs
  cases found with
  | none =>
      refine ⟨hs ▸ List.suffix_rfl, fun other ho => ?_⟩
      rcases hother ho with rfl | hcs
      · exact List.suffix_rfl
      · exact absurd hcs (h other)
  | some later =>
      obtain ⟨hlater, hlast⟩ := h
      refine ⟨hlater.trans (List.suffix_cons c cs), fun other ho => ?_⟩
      change later <:+ other
      rcases hother ho with rfl | hcs
      · -- A later occurrence in the same text leaves less of it.
        have hlength := congrArg List.length hs
        have hle := hlater.length_le
        simp only [List.length_append, List.length_cons] at hlength hle
        refine List.suffix_of_suffix_length_le ((List.suffix_append s later).trans ?_)
          (List.suffix_append s other) (by omega)
        exact hs ▸ hlater.trans (List.suffix_cons c cs)
      · exact hlast other hcs

theorem afterColons_last (cs : List Char) : IsLast [':', ':'] cs (afterColons cs) := by
  induction cs using afterColons.induct with
  | case1 rest ih =>
      rw [afterColons]
      exact ih.here rfl
  | case2 c rest hc ih =>
      rw [afterColons]
      · refine ih.skip fun other heq => ?_
        obtain ⟨rfl, rfl⟩ := List.cons.inj heq
        exact hc _ rfl rfl
      · exact hc
  | case3 => exact .nil

theorem afterPoint_last (cs : List Char) : IsLast ['.'] cs (afterPoint cs) := by
  induction cs using afterPoint.induct with
  | case1 rest ih =>
      rw [afterPoint]
      exact ih.here rfl
  | case2 c rest hc ih =>
      rw [afterPoint]
      · refine ih.skip fun other heq => ?_
        exact hc (List.cons.inj heq).1.symm
      · exact hc
  | case3 => exact .nil

def separators : List (List Char) := [[':', ':'], ['.']]

structure AfterLast (cs rest : List Char) : Prop where
  follows : ∃ s ∈ separators, s ++ rest <:+ cs
  last : ∀ s ∈ separators, ∀ other, s ++ other <:+ cs → rest <:+ other

theorem occurs_iff : s <:+: cs ↔ ∃ rest, s ++ rest <:+ cs := by
  constructor
  · rintro ⟨before, rest, h⟩
    exact ⟨rest, before, by rw [← h, List.append_assoc]⟩
  · rintro ⟨rest, before, h⟩
    exact ⟨before, rest, by rw [← h, List.append_assoc]⟩

theorem suffix_of_cut {tail : List Char} (htail : tail <:+ cs) (h : [c] ++ other <:+ cs) :
    [c] ++ other <:+ tail ∨ tail <:+ other := by
  rcases List.suffix_or_suffix_of_suffix h htail with hin | hout
  · exact Or.inl hin
  · rcases List.suffix_cons_iff.1 hout with rfl | hother
    · exact Or.inl List.suffix_rfl
    · exact Or.inr hother

theorem forall_mem_separators {p : List Char → Prop} :
    (∀ s ∈ separators, p s) ↔ p [':', ':'] ∧ p ['.'] := by
  simp [separators]

theorem IsLast.afterLast {tail : List Char} (h : IsLast [':', ':'] cs (some tail)) :
    AfterLast cs ((afterPoint tail).getD tail) := by
  obtain ⟨hfollows, hlast⟩ := h
  have htail : tail <:+ cs := (List.suffix_append _ tail).trans hfollows
  have hpoint := afterPoint_last tail
  cases hp : afterPoint tail with
  | none =>
      rw [hp] at hpoint
      refine ⟨⟨[':', ':'], by simp [separators], hfollows⟩, forall_mem_separators.2 ⟨hlast, ?_⟩⟩
      intro other ho
      exact (suffix_of_cut htail ho).resolve_left (hpoint other)
  | some rest =>
      rw [hp] at hpoint
      obtain ⟨hrest, hlater⟩ := hpoint
      have hshort : rest <:+ tail := (List.suffix_append _ rest).trans hrest
      refine ⟨⟨['.'], by simp [separators], hrest.trans htail⟩, forall_mem_separators.2 ⟨?_, ?_⟩⟩
      · exact fun other ho => hshort.trans (hlast other ho)
      · intro other ho
        rcases suffix_of_cut htail ho with hin | hout
        · exact hlater other hin
        · exact hshort.trans hout

theorem lastSegment_after (cs : List Char) :
    AfterLast cs (lastSegment cs) ∨ lastSegment cs = cs ∧ ∀ s ∈ separators, ¬s <:+: cs := by
  have hcolons := afterColons_last cs
  rw [lastSegment]
  cases hc : afterColons cs with
  | some tail =>
      rw [hc] at hcolons
      exact Or.inl hcolons.afterLast
  | none =>
      rw [hc] at hcolons
      have hpoint := afterPoint_last cs
      simp only [Option.getD_none]
      cases hp : afterPoint cs with
      | none =>
          rw [hp] at hpoint
          refine Or.inr ⟨rfl, forall_mem_separators.2 ⟨?_, ?_⟩⟩
          · exact fun h => (occurs_iff.1 h).elim hcolons
          · exact fun h => (occurs_iff.1 h).elim hpoint
      | some rest =>
          rw [hp] at hpoint
          refine Or.inl ⟨⟨['.'], by simp [separators], hpoint.1⟩, forall_mem_separators.2 ⟨?_, ?_⟩⟩
          · exact fun other ho => absurd ho (hcolons other)
          · exact hpoint.2

theorem AfterLast.not_occurs (h : AfterLast cs rest) (hs : s ∈ separators) : ¬s <:+: rest := by
  intro hin
  obtain ⟨other, hother⟩ := occurs_iff.1 hin
  obtain ⟨t, -, hfollows⟩ := h.follows
  have hcs := hother.trans ((List.suffix_append t rest).trans hfollows)
  -- What follows a separator within the rest is shorter than the rest.
  have hle := (h.last s hs other hcs).length_le
  have hlt := hother.length_le
  have hne : s ≠ [] := by
    rintro rfl
    simp [separators] at hs
  have hpos := List.length_pos_iff.2 hne
  simp only [List.length_append] at hlt
  omega

theorem toList_simpleName (i : Interface) : i.simpleName.toList = lastSegment i.name.toList :=
  String.toList_ofList

theorem simpleName_after_last_separator (i : Interface) :
    (AfterLast i.name.toList i.simpleName.toList ∨
      i.simpleName = i.name ∧ ∀ s ∈ separators, ¬s <:+: i.name.toList) ∧
      (∃ front, i.name = front ++ i.simpleName ∧
        (front = "" ∨ ∃ s ∈ separators, s <:+ front.toList)) ∧
      ∀ s ∈ separators, ¬s <:+: i.simpleName.toList := by
  have hspec := lastSegment_after i.name.toList
  rw [← toList_simpleName, String.toList_inj] at hspec
  refine ⟨hspec, ?_, ?_⟩
  · rcases hspec with ⟨⟨s, hs, before, hbefore⟩, -⟩ | ⟨hwhole, -⟩
    · refine ⟨String.ofList (before ++ s), ?_, Or.inr ⟨s, hs, ?_⟩⟩
      · rw [← String.toList_inj, String.toList_append, String.toList_ofList, List.append_assoc,
          hbefore]
      · rw [String.toList_ofList]
        exact List.suffix_append ..
    · exact ⟨"", by simp [hwhole], Or.inl rfl⟩
  · intro s hs
    rcases hspec with hafter | ⟨hwhole, hnone⟩
    · exact hafter.not_occurs hs
    · rw [hwhole]
      exact hnone s hs

example : (mk "bank:::ledger.::Accounts" true [] []).simpleName = "Accounts" := by decide

example : (mk "bank::a.:b" true [] []).simpleName = ":b" := by decide

end Interface

end Switchboard
