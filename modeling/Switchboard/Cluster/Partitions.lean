import Switchboard.PartitionKey

namespace Switchboard.Partitions

def add (p : PartitionId) : List PartitionId → List PartitionId
  | [] => [p]
  | q :: rest => if p < q then p :: q :: rest else if p = q then q :: rest else q :: add p rest

def remove (p : PartitionId) (ps : List PartitionId) : List PartitionId := ps.filter (· ≠ p)

theorem mem_add {p q : PartitionId} {ps : List PartitionId} :
    q ∈ add p ps ↔ q = p ∨ q ∈ ps := by
  induction ps with
  | nil => simp [add]
  | cons r rest ih =>
      simp only [add]
      split
      · simp
      · split
        · next h => subst h; simp
        · simp only [List.mem_cons, ih]
          exact or_left_comm

theorem mem_remove {p q : PartitionId} {ps : List PartitionId} :
    q ∈ remove p ps ↔ q ∈ ps ∧ q ≠ p := by
  simp [remove]

theorem pairwise_add {p : PartitionId} {ps : List PartitionId} (h : ps.Pairwise (· < ·)) :
    (add p ps).Pairwise (· < ·) := by
  induction ps with
  | nil => simp [add]
  | cons r rest ih =>
      have hr := List.pairwise_cons.1 h
      simp only [add]
      split
      · next hp =>
          refine List.pairwise_cons.2 ⟨fun q hq => ?_, h⟩
          cases List.mem_cons.1 hq with
          | inl hq => exact hq ▸ hp
          | inr hq => exact Nat.lt_trans hp (hr.1 q hq)
      · split
        · exact h
        · next hp hne =>
            refine List.pairwise_cons.2 ⟨fun q hq => ?_, ih hr.2⟩
            cases mem_add.1 hq with
            | inl hq =>
                subst hq
                exact Nat.lt_of_le_of_ne (Nat.le_of_not_lt hp) (Ne.symm hne)
            | inr hq => exact hr.1 q hq

theorem pairwise_remove {p : PartitionId} {ps : List PartitionId} (h : ps.Pairwise (· < ·)) :
    (remove p ps).Pairwise (· < ·) :=
  h.filter _

end Switchboard.Partitions
