import Switchboard.Proofs.Cluster.Holders

namespace Switchboard.Cluster

/-- What is told of a partition when it goes from one owner to another: first the old one learns of
it, then the new one, and nobody if the owner stays. -/
inductive Handover (R : Roster) (p : PartitionId) :
    Option MemberId → Option MemberId → List (Nat × HookRun) → Prop
  | stay (o : Option MemberId) : Handover R p o o []
  | gain {id : MemberId} {n : Nat} {m : Member} : (id, n, m) ∈ R →
      Handover R p none (some id) [(n, ⟨.added p, .running⟩)]
  | pass {id id' : MemberId} {n n' : Nat} {m m' : Member} : id ≠ id' → (id, n, m) ∈ R →
      (id', n', m') ∈ R →
      Handover R p (some id) (some id')
        [(n, ⟨.removed p, .running⟩), (n', ⟨.added p, .running⟩)]

/-- A log that tells of one table becoming another, one partition after the other from number `p`
on. -/
inductive Told (R : Roster) : PartitionId → Table → Table → List (Nat × HookRun) → Prop
  | nil (p : PartitionId) : Told R p [] [] []
  | cons {p : PartitionId} {o o' : Option MemberId} {t t' : Table}
      {first rest : List (Nat × HookRun)} : Handover R p o o' first → Told R (p + 1) t t' rest →
      Told R p (o :: t) (o' :: t') (first ++ rest)

variable {c : Cluster} {t t' : Table} {ms : List Move} {id : MemberId} {p : PartitionId}

theorem Standing.tell {m : Move} (h : Standing t c) (hm : t[m.partition]? = some m.source)
    (hd : m.destination ∈ c.dataIds) (hne : m.source ≠ some m.destination) :
    ∃ log, (c.announce m).history = c.history ++ log ∧
      Handover c.roster m.partition m.source (some m.destination) log := by
  obtain ⟨p, source, id'⟩ := m
  simp only at hm hd hne
  obtain ⟨seat', hs'⟩ := find?_of_mem_dataIds h.sorted hd
  have hgain : (seat'.server.addPartition p).2 = [⟨.added p, .running⟩] :=
    (h.agrees id' seat' hs').runs_add (by simpa [hm] using hne)
  cases source with
  | none =>
      refine ⟨_, ?_, .gain (mem_roster_of_find? hs')⟩
      change (c.onMember id' (·.addPartition p)).history = _
      rw [history_onMember hs', hgain]
      rfl
  | some id =>
      have hids : id ≠ id' := by simpa using hne
      obtain ⟨seat, hs⟩ := find?_of_mem_dataIds h.sorted (h.eligible id (List.mem_of_getElem? hm))
      have hlose := (h.agrees id seat hs).runs_remove hm
      have hstill : Keyed.find? id' (c.onMember id (·.removePartition p)).seats = some seat' := by
        rw [find?_onMember_of_ne hids.symm, hs']
      refine ⟨_, ?_, .pass hids (mem_roster_of_find? hs) (mem_roster_of_find? hs')⟩
      change ((c.onMember id (·.removePartition p)).onMember id' (·.addPartition p)).history = _
      rw [history_onMember hstill, history_onMember hs, hlose, hgain, List.append_assoc]
      rfl

theorem Standing.tell_all (hs : Shifts p t ms t') (pre : Table) (hp : pre.length = p)
    (h : Standing (pre ++ t) c) (hd : ∀ m ∈ ms, m.destination ∈ c.dataIds) :
    ∃ log, (c.announceAll ms).history = c.history ++ log ∧ Told c.roster p t t' log := by
  -- `pre` is the part of the table that has been gone through.
  induction hs generalizing pre c with
  | nil p => exact ⟨[], by simp [announceAll], .nil p⟩
  | @stay p t t' ms o _ ih =>
      obtain ⟨log, hlog, htold⟩ := ih (pre ++ [o]) (by simp [hp]) (by simpa using h) hd
      exact ⟨log, hlog, .cons (.stay o) htold⟩
  | @move p t t' ms o id ho _ ih =>
      have hm : (pre ++ o :: t)[p]? = some o := by simp [← hp]
      have hid : id ∈ c.dataIds := hd ⟨p, o, id⟩ List.mem_cons_self
      obtain ⟨first, hfirst, hover⟩ := h.tell (m := ⟨p, o, id⟩) hm hid ho
      have hnext := h.announce (m := ⟨p, o, id⟩) hm hid
      have htable : (pre ++ o :: t).set p (some id) = (pre ++ [some id]) ++ t := by simp [← hp]
      obtain ⟨log, hlog, htold⟩ := ih (pre ++ [some id]) (by simp [hp]) (htable ▸ hnext)
        fun m hm => by
          rw [dataIds_announce h.sorted]
          exact hd m (List.mem_cons_of_mem _ hm)
      rw [roster_announce h.sorted] at htold
      refine ⟨first ++ log, ?_, .cons hover htold⟩
      change ((c.announce ⟨p, o, id⟩).announceAll ms).history = _
      rw [hlog, hfirst, List.append_assoc]

theorem Coherent.told (h : Coherent c) (hs : Shifts 0 c.owners ms t')
    (hd : ∀ m ∈ ms, m.destination ∈ c.dataIds) :
    ∃ log, ({ c with owners := t' }.announceAll ms).history = c.history ++ log ∧
      Told c.roster 0 c.owners t' log :=
  Standing.tell_all (c := { c with owners := t' }) hs [] rfl
    ⟨h.sorted, h.agrees, h.eligible⟩ hd

end Switchboard.Cluster
