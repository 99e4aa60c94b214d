import Mathlib.Data.List.Basic
import Switchboard.Cluster.Basic

namespace Switchboard.Cluster

abbrev Table := List (Option MemberId)

def Rewrites : Table → List Move → Table → Prop
  | t, [], t' => t = t'
  | t, m :: ms, t' =>
      t[m.partition]? = some m.source ∧ Rewrites (t.set m.partition (some m.destination)) ms t'

theorem Rewrites.length_eq {t t' : Table} {ms : List Move} (h : Rewrites t ms t') :
    t'.length = t.length := by
  induction ms generalizing t with
  | nil => exact congrArg List.length (Eq.symm h)
  | cons m ms ih =>
      have := ih h.2
      simpa using this

theorem Rewrites.mem {t t' : Table} {ms : List Move} (h : Rewrites t ms t') {id : MemberId}
    (hm : some id ∈ t') : some id ∈ t ∨ ∃ m ∈ ms, m.destination = id := by
  induction ms generalizing t with
  | nil =>
      cases h
      exact Or.inl hm
  | cons m ms ih =>
      rcases ih h.2 with hm | ⟨n, hn, hd⟩
      · rcases List.mem_or_eq_of_mem_set hm with hm | hd
        · exact Or.inl hm
        · exact Or.inr ⟨m, List.mem_cons_self, (Option.some.inj hd).symm⟩
      · exact Or.inr ⟨n, List.mem_cons_of_mem _ hn, hd⟩

inductive Shifts : PartitionId → Table → List Move → Table → Prop
  | nil (p : PartitionId) : Shifts p [] [] []
  | stay {p : PartitionId} {t t' : Table} {ms : List Move} (o : Option MemberId) :
      Shifts (p + 1) t ms t' → Shifts p (o :: t) ms (o :: t')
  | move {p : PartitionId} {t t' : Table} {ms : List Move} {o : Option MemberId} {id : MemberId} :
      o ≠ some id → Shifts (p + 1) t ms t' →
      Shifts p (o :: t) (⟨p, o, id⟩ :: ms) (some id :: t')

theorem Shifts.rewrites {p : PartitionId} {t t' : Table} {ms : List Move} (h : Shifts p t ms t')
    (pre : Table) (hp : pre.length = p) : Rewrites (pre ++ t) ms (pre ++ t') := by
  induction h generalizing pre with
  | nil p => rfl
  | stay o _ ih => simpa using ih (pre ++ [o]) (by simp [hp])
  | @move p t t' ms o id ho _ ih =>
      subst hp
      refine ⟨by simp, ?_⟩
      simpa using ih (pre ++ [some id]) (by simp)

theorem Shifts.eq_nil {p : PartitionId} {t : Table} {ms : List Move} (h : Shifts p t ms t) :
    ms = [] := by
  induction t generalizing p ms with
  | nil =>
      cases h
      rfl
  | cons o t ih =>
      cases h with
      | stay _ h => exact ih h
      | move ho _ => exact absurd rfl ho

theorem deal_shifts (ids : List MemberId) (dealt p : Nat) (t : Table) :
    Shifts p t (deal ids dealt p t).2 (deal ids dealt p t).1 := by
  induction t generalizing dealt p with
  | nil => exact .nil p
  | cons o rest ih =>
      cases o with
      | some id => exact .stay (some id) (ih dealt (p + 1))
      | none =>
          simp only [deal]
          split
          · exact .stay none (ih dealt (p + 1))
          · exact .move (by simp) (ih (dealt + 1) (p + 1))

theorem deal_rewrites (ids : List MemberId) (t : Table) :
    Rewrites t (deal ids 0 0 t).2 (deal ids 0 0 t).1 :=
  (deal_shifts ids 0 0 t).rewrites [] rfl

theorem deal_destination {ids : List MemberId} {dealt p : Nat} {t : Table} {m : Move}
    (h : m ∈ (deal ids dealt p t).2) : m.destination ∈ ids := by
  induction t generalizing dealt p with
  | nil => simp [deal] at h
  | cons o rest ih =>
      cases o with
      | some id => exact ih h
      | none =>
          simp only [deal] at h
          split at h
          · exact ih h
          · next id hid =>
              rcases List.mem_cons.1 h with rfl | h
              · exact List.mem_of_getElem? hid
              · exact ih h

def correction (ids : List MemberId) (e : Option MemberId × PartitionId) : Option Move :=
  match turn ids e.2 with
  | some id => if e.1 = some id then none else some ⟨e.2, e.1, id⟩
  | none => none

theorem rebalancing_eq (ids : List MemberId) (t : Table) :
    rebalancing ids t = t.zipIdx.filterMap (correction ids) := rfl

theorem correction_shifts (ids : List MemberId) (p : PartitionId) (t : Table) :
    Shifts p t ((t.zipIdx p).filterMap (correction ids))
      (t.mapIdx fun q o => (turn ids (p + q)).or o) := by
  induction t generalizing p with
  | nil => exact .nil p
  | cons o rest ih =>
      have hidx : (fun q o => (turn ids (p + (q + 1))).or o) =
          fun q (o : Option MemberId) => (turn ids (p + 1 + q)).or o := by
        funext q o
        rw [Nat.add_right_comm, Nat.add_assoc]
      rw [List.mapIdx_cons, List.zipIdx_cons, hidx, Nat.add_zero]
      cases hid : turn ids p with
      | none =>
          rw [List.filterMap_cons_none (by simp [correction, hid])]
          exact .stay o (ih (p + 1))
      | some id =>
          by_cases ho : o = some id
          · rw [List.filterMap_cons_none (by simp [correction, hid, ho]), ho]
            exact .stay (some id) (ih (p + 1))
          · rw [List.filterMap_cons_some (b := ⟨p, o, id⟩) (by simp [correction, hid, ho])]
            exact .move ho (ih (p + 1))

theorem rebalancing_shifts (ids : List MemberId) (t : Table) :
    Shifts 0 t (rebalancing ids t) (t.mapIdx fun p o => (turn ids p).or o) := by
  simpa [rebalancing_eq] using correction_shifts ids 0 t

theorem rebalancing_rewrites (ids : List MemberId) (t : Table) :
    Rewrites t (rebalancing ids t) (t.mapIdx fun p o => (turn ids p).or o) :=
  (rebalancing_shifts ids t).rewrites [] rfl

theorem rebalancing_destination {ids : List MemberId} {t : Table} {m : Move}
    (h : m ∈ rebalancing ids t) : m.destination ∈ ids := by
  rw [rebalancing_eq] at h
  obtain ⟨⟨o, p⟩, -, hm⟩ := List.mem_filterMap.1 h
  simp only [correction] at hm
  split at hm
  · next id hid =>
      split at hm
      · simp at hm
      · cases hm
        exact List.mem_of_getElem? hid
  · simp at hm

end Switchboard.Cluster
