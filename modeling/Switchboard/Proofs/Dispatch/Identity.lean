import Mathlib.Data.List.DropRight
import Switchboard.Proofs.Dispatch.Resolution
import Switchboard.Proofs.Json.Canonical

namespace Switchboard

theorem rtakeWhile_append_cons {c : Char} {front rest : List Char} (h : c ∉ rest) :
    (front ++ c :: rest).rtakeWhile (· ≠ c) = rest := by
  have hrest : ∀ d ∈ rest.reverse, decide (d ≠ c) = true := by
    intro d hd
    exact decide_eq_true fun heq => h (heq ▸ List.mem_reverse.1 hd)
  rw [List.rtakeWhile, List.reverse_append, List.reverse_cons, List.append_assoc,
    List.takeWhile_append_of_pos hrest]
  simp

theorem Json.asString?_eq_some {v : Json} {t : String} : v.asString? = some t ↔ v = .str t := by
  cases v <;> simp [Json.asString?]

namespace Interface

def Declares (root : Interface) (name : String) (arity : Nat) : Prop :=
  ∃ i m, root.Reaches i ∧ m ∈ i.methods ∧ m.name = name ∧ m.params.length = arity

end Interface

namespace Proxy

variable {p q : Proxy} {name : String} {arity : Nat}

theorem display_toList (p : Proxy) : p.display.toList =
    ("ServiceProxy[" ++ p.interface.name ++ "@" ++ p.slice).toList ++
      '#' :: (p.id.repr.toList ++ [']']) := by
  have hparts : p.display =
      ("ServiceProxy[" ++ p.interface.name ++ "@" ++ p.slice) ++ "#" ++ p.id.repr ++ "]" := rfl
  rw [hparts, String.toList_append, String.toList_append, String.toList_append]
  simp [List.append_assoc]

theorem no_sign_after_id (n : Nat) : '#' ∉ n.repr.toList ++ [']'] := by
  intro hmem
  rcases List.mem_append.1 hmem with hdigit | hlast
  · exact absurd (Json.isDigit_repr n _ hdigit) (by decide)
  · exact absurd hlast (by decide)

theorem id_eq_of_display (h : p.display = q.display) : p.id = q.id := by
  have hlists := congrArg String.toList h
  rw [display_toList, display_toList] at hlists
  have htails := congrArg (List.rtakeWhile (· ≠ '#')) hlists
  rw [rtakeWhile_append_cons (no_sign_after_id p.id),
    rtakeWhile_append_cons (no_sign_after_id q.id)] at htails
  have hfence : Json.Fenced [']'] := Json.fenced_cons (by decide)
  exact (Json.repr_append_inj hfence hfence htails).1

def Analyzed (p : Proxy) : Prop := ∃ a : Analyzer, a.analyze p.interface = .ok p.table

theorem Analyzed.overloads_eq_nil (h : p.Analyzed) (hd : ¬p.interface.Declares name arity) :
    p.table.overloads name arity = [] := by
  obtain ⟨a, ha⟩ := h
  obtain ⟨-, found, hfound, declared, ht, htable⟩ := Analyzer.analyze_eq_ok.1 ha
  refine List.eq_nil_iff_forall_not_mem.2 fun r hr => hd ?_
  obtain ⟨hmem, hname, harity⟩ := RouteTable.mem_overloads.1 hr
  rw [htable] at hmem
  obtain ⟨i, hi, m, hm, hadmits⟩ := ht.admitted hmem
  rw [hadmits.signature] at hname harity
  refine ⟨i, m, Interface.reaches_of_mem_hierarchy hfound hi, hm, hname, ?_⟩
  simpa [Signature.arity, Method.signature, Method.paramTypes] using harity

theorem Analyzed.to_string (h : p.Analyzed) (hd : ¬p.interface.Declares "to_string" 0) :
    p.lookup "to_string" [] = .answer (.str p.display) :=
  lookup_of_none (h.overloads_eq_nil hd)

theorem Analyzed.equals (h : p.Analyzed) (hd : ¬p.interface.Declares "equals" 1) (v : Json) :
    ∃ b, p.lookup "equals" [v] = .answer (.bool b) ∧ (b = true ↔ v = .str p.display) :=
  ⟨decide (v.asString? = some p.display), lookup_of_none (h.overloads_eq_nil hd),
    decide_eq_true_iff.trans Json.asString?_eq_some⟩

end Proxy

end Switchboard
