import Mathlib.Data.List.Basic
import Switchboard.Cluster.Server

namespace Switchboard

/-- Something was given and has not been taken since. -/
def Stands {α : Type} (gives takes : α → Prop) (xs : List α) : Prop :=
  ∃ before x later, xs = before ++ x :: later ∧ gives x ∧ ∀ y ∈ later, ¬ takes y

section Stands

variable {α : Type} {gives takes : α → Prop} {xs : List α} {x : α}

theorem not_stands_nil : ¬ Stands gives takes [] := by
  rintro ⟨before, x, later, h, -⟩
  simp at h

theorem stands_concat :
    Stands gives takes (xs ++ [x]) ↔ gives x ∨ Stands gives takes xs ∧ ¬ takes x := by
  constructor
  · rintro ⟨before, y, later, h, hy, hlater⟩
    rcases List.eq_nil_or_concat later with rfl | ⟨later, z, rfl⟩
    · obtain ⟨-, hlast⟩ := List.append_inj' h rfl
      exact Or.inl (List.singleton_inj.1 hlast ▸ hy)
    · rw [List.concat_eq_append, ← List.cons_append, ← List.append_assoc] at h
      obtain ⟨rfl, hlast⟩ := List.append_inj' h rfl
      obtain rfl := List.singleton_inj.1 hlast
      refine Or.inr ⟨⟨before, y, later, rfl, hy, fun w hw => hlater w ?_⟩, hlater x ?_⟩
      · simp [hw]
      · simp
  · rintro (hx | ⟨⟨before, y, later, rfl, hy, hlater⟩, hx⟩)
    · exact ⟨xs, x, [], rfl, hx, by simp⟩
    · refine ⟨before, y, later ++ [x], by simp, hy, fun w hw => ?_⟩
      rcases List.mem_append.1 hw with hw | hw
      · exact hlater w hw
      · exact List.mem_singleton.1 hw ▸ hx

end Stands

namespace Hook

def concerns (p : PartitionId) : Hook → Bool
  | added q | removed q => q = p
  | start | stop => false

def isChange : Hook → Bool
  | added _ | removed _ => true
  | start | stop => false

end Hook

variable {log : List HookRun} {r : HookRun} {p q : PartitionId} {ps ps' qs : List PartitionId}

def changes (p : PartitionId) (log : List HookRun) : List Hook :=
  (log.map HookRun.hook).filter (Hook.concerns p)

def Alternates (p : PartitionId) (log : List HookRun) : Prop :=
  ∀ (n : Nat) (h : Hook), (changes p log)[n]? = some h →
    h = if n % 2 = 0 then .added p else .removed p

def Holds (log : List HookRun) (p : PartitionId) : Prop :=
  Stands (·.hook = .added p) (fun r => r.hook = .removed p ∨ r.hook = .stop) log

theorem not_holds_nil : ¬ Holds [] p := not_stands_nil

theorem holds_concat : Holds (log ++ [r]) p ↔
    r.hook = .added p ∨ Holds log p ∧ r.hook ≠ .removed p ∧ r.hook ≠ .stop := by
  rw [Holds, stands_concat, not_or]
  rfl

theorem changes_append (p : PartitionId) (log more : List HookRun) :
    changes p (log ++ more) = changes p log ++ changes p more := by
  simp [changes]

theorem changes_of_not_concerns (h : r.hook.concerns p = false) : changes p [r] = [] := by
  simp [changes, h]

theorem changes_of_concerns (h : r.hook.concerns p = true) : changes p [r] = [r.hook] := by
  simp [changes, h]

theorem Alternates.keep (h : Alternates p log) (hr : r.hook.concerns p = false) :
    Alternates p (log ++ [r]) := by
  unfold Alternates
  rw [changes_append, changes_of_not_concerns hr, List.append_nil]
  exact h

theorem Alternates.concat (h : Alternates p log) (hr : r.hook.concerns p = true)
    (hturn : r.hook = if (changes p log).length % 2 = 0 then .added p else .removed p) :
    Alternates p (log ++ [r]) := by
  intro n x hn
  rw [changes_append, changes_of_concerns hr, List.getElem?_append] at hn
  split at hn
  · exact h n x hn
  · rw [List.getElem?_singleton] at hn
    split at hn
    · next hlt hzero =>
        have hlast : n = (changes p log).length := by omega
        cases hn
        rw [hturn, hlast]
    · cases hn

structure Tells (log : List HookRun) (ps : List PartitionId) : Prop where
  alternates : ∀ p, Alternates p log
  parity : ∀ p, p ∈ ps ↔ (changes p log).length % 2 = 1
  holds : ∀ p, p ∈ ps ↔ Holds log p

theorem tells_start (status : ServerStatus) : Tells [⟨.start, status⟩] [] where
  alternates p n h hn := by simp [changes, Hook.concerns] at hn
  parity p := by simp [changes, Hook.concerns]
  holds p := by
    rw [← List.nil_append [_], holds_concat]
    simp [not_holds_nil]

theorem Tells.of_mem_iff (h : Tells log ps) (hps : ∀ q, q ∈ ps' ↔ q ∈ ps) : Tells log ps' where
  alternates := h.alternates
  parity q := (hps q).trans (h.parity q)
  holds q := (hps q).trans (h.holds q)

theorem Tells.turn (h : Tells log ps) (hr : r.hook = if p ∈ ps then .removed p else .added p)
    (hps : ∀ q, q ∈ ps' ↔ if q = p then p ∉ ps else q ∈ ps) : Tells (log ++ [r]) ps' := by
  have hconcerns (q : PartitionId) : r.hook.concerns q = decide (p = q) := by
    rw [hr]
    split <;> rfl
  have hother {q : PartitionId} (hq : q ≠ p) : changes q (log ++ [r]) = changes q log := by
    rw [changes_append, changes_of_not_concerns (by simp [hconcerns, Ne.symm hq]), List.append_nil]
  have hlength : (changes p (log ++ [r])).length = (changes p log).length + 1 := by
    rw [changes_append, changes_of_concerns (by simp [hconcerns]), List.length_append]
    rfl
  refine ⟨fun q => ?_, fun q => ?_, fun q => ?_⟩
  · by_cases hq : q = p
    · subst hq
      refine (h.alternates q).concat (by simp [hconcerns]) (hr.trans ?_)
      by_cases hmem : q ∈ ps
      · have hodd := (h.parity q).1 hmem
        rw [if_pos hmem, if_neg (by omega)]
      · have hodd := mt (h.parity q).2 hmem
        rw [if_neg hmem, if_pos (by omega)]
    · exact (h.alternates q).keep (by simp [hconcerns, Ne.symm hq])
  · rw [hps]
    by_cases hq : q = p
    · subst hq
      rw [if_pos rfl, hlength, h.parity q]
      omega
    · rw [if_neg hq, hother hq, h.parity q]
  · rw [hps, holds_concat, hr, ← h.holds q]
    by_cases hq : q = p
    · subst hq
      by_cases hmem : q ∈ ps <;> simp [hmem]
    · by_cases hmem : p ∈ ps <;> simp [hmem, hq, Ne.symm hq]

theorem Tells.gain (h : Tells log ps) (hp : p ∉ ps) (hr : r.hook = .added p)
    (hps : ∀ q, q ∈ ps' ↔ q = p ∨ q ∈ ps) : Tells (log ++ [r]) ps' := by
  refine h.turn (p := p) (by rw [if_neg hp, hr]) fun q => ?_
  rw [hps]
  by_cases hq : q = p <;> simp [hq, hp]

theorem Tells.lose (h : Tells log ps) (hp : p ∈ ps) (hr : r.hook = .removed p)
    (hps : ∀ q, q ∈ ps' ↔ q ∈ ps ∧ q ≠ p) : Tells (log ++ [r]) ps' := by
  refine h.turn (p := p) (by rw [if_pos hp, hr]) fun q => ?_
  rw [hps]
  by_cases hq : q = p <;> simp [hq, hp]

theorem Tells.gain_all (h : Tells log ps) (hd : (ps ++ qs).Nodup) (status : ServerStatus) :
    Tells (log ++ qs.map fun p => ⟨.added p, status⟩) (ps ++ qs) := by
  induction qs generalizing log ps with
  | nil => simpa using h
  | cons p qs ih =>
      have hp : p ∉ ps := by
        intro hmem
        have hdisjoint := (List.nodup_append.1 hd).2.2
        exact hdisjoint p hmem p List.mem_cons_self rfl
      have hfirst : Tells (log ++ [⟨.added p, status⟩]) (ps ++ [p]) :=
        h.gain hp rfl (by simp [or_comm])
      simpa using ih hfirst (by simpa using hd)

end Switchboard
