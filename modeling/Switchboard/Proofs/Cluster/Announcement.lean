import Switchboard.Proofs.Cluster.Table
import Switchboard.Proofs.Keyed

namespace Switchboard

def Seat.badge (s : Seat) : Nat × Member := (s.number, s.server.member)

namespace Cluster

variable {c : Cluster} {t : Table} {id : MemberId} {p : PartitionId}

def roster (c : Cluster) : List (MemberId × Nat × Member) :=
  c.seats.map fun e => (e.1, e.2.badge)

theorem dataIds_eq (c : Cluster) :
    c.dataIds = (c.roster.filter fun e => !e.2.2.lite).map (·.1) := by
  simp [dataIds, roster, List.filter_map, Function.comp_def, Seat.badge]

theorem dataIds_of_roster {c' : Cluster} (h : c'.roster = c.roster) : c'.dataIds = c.dataIds := by
  rw [dataIds_eq, h, ← dataIds_eq]

theorem members_eq (c : Cluster) : c.members = c.roster.map (·.2.2) := by
  simp [members, roster, Keyed.values, Function.comp_def, Seat.badge]

theorem members_of_roster {c' : Cluster} (h : c'.roster = c.roster) : c'.members = c.members := by
  rw [members_eq, h, ← members_eq]

theorem onMember_frame (c : Cluster) (id : MemberId) (f : Server → Server × List HookRun) :
    ∃ seats history, c.onMember id f = { c with seats := seats, history := history } := by
  unfold onMember
  split
  · exact ⟨c.seats, c.history, rfl⟩
  · exact ⟨_, _, rfl⟩

theorem announce_frame (c : Cluster) (m : Move) :
    ∃ seats history, c.announce m = { c with seats := seats, history := history } := by
  unfold announce
  cases m.source with
  | none => exact onMember_frame c _ _
  | some id =>
      obtain ⟨seats, history, h⟩ := onMember_frame c id (·.removePartition m.partition)
      obtain ⟨seats', history', h'⟩ :=
        onMember_frame (c.onMember id (·.removePartition m.partition)) m.destination
          (·.addPartition m.partition)
      refine ⟨seats', history', ?_⟩
      simp only
      rw [h', h]

theorem announceAll_frame (c : Cluster) (ms : List Move) :
    ∃ seats history, c.announceAll ms = { c with seats := seats, history := history } := by
  induction ms generalizing c with
  | nil => exact ⟨c.seats, c.history, rfl⟩
  | cons m ms ih =>
      obtain ⟨seats, history, h⟩ := announce_frame c m
      obtain ⟨seats', history', h'⟩ := ih (c.announce m)
      refine ⟨seats', history', ?_⟩
      change (c.announce m).announceAll ms = _
      rw [h', h]

@[simp] theorem config_announceAll (c : Cluster) (ms : List Move) :
    (c.announceAll ms).config = c.config := by
  obtain ⟨seats, history, h⟩ := announceAll_frame c ms
  rw [h]

@[simp] theorem running_announceAll (c : Cluster) (ms : List Move) :
    (c.announceAll ms).running = c.running := by
  obtain ⟨seats, history, h⟩ := announceAll_frame c ms
  rw [h]

@[simp] theorem departed_announceAll (c : Cluster) (ms : List Move) :
    (c.announceAll ms).departed = c.departed := by
  obtain ⟨seats, history, h⟩ := announceAll_frame c ms
  rw [h]

@[simp] theorem owners_announceAll (c : Cluster) (ms : List Move) :
    (c.announceAll ms).owners = c.owners := by
  obtain ⟨seats, history, h⟩ := announceAll_frame c ms
  rw [h]

@[simp] theorem joined_announceAll (c : Cluster) (ms : List Move) :
    (c.announceAll ms).joined = c.joined := by
  obtain ⟨seats, history, h⟩ := announceAll_frame c ms
  rw [h]

@[simp] theorem tasks_announceAll (c : Cluster) (ms : List Move) :
    (c.announceAll ms).tasks = c.tasks := by
  obtain ⟨seats, history, h⟩ := announceAll_frame c ms
  rw [h]

theorem find?_onMember_self (f : Server → Server × List HookRun) :
    Keyed.find? id (c.onMember id f).seats =
      (Keyed.find? id c.seats).map fun seat => { seat with server := (f seat.server).1 } := by
  unfold onMember
  cases h : Keyed.find? id c.seats with
  | none => exact h
  | some seat => exact Keyed.find?_insert_self ..

theorem find?_onMember_of_ne {other : MemberId} (h : other ≠ id)
    (f : Server → Server × List HookRun) :
    Keyed.find? other (c.onMember id f).seats = Keyed.find? other c.seats := by
  unfold onMember
  cases Keyed.find? id c.seats with
  | none => rfl
  | some seat => exact Keyed.find?_insert_of_ne h ..

theorem sorted_onMember (h : Keyed.Sorted c.seats) (id : MemberId)
    (f : Server → Server × List HookRun) : Keyed.Sorted (c.onMember id f).seats := by
  unfold onMember
  split
  · exact h
  · exact Keyed.sorted_insert h

theorem roster_onMember (h : Keyed.Sorted c.seats) (id : MemberId)
    {f : Server → Server × List HookRun} (hf : ∀ s, (f s).1.member = s.member) :
    (c.onMember id f).roster = c.roster := by
  unfold onMember
  split
  · rfl
  · next seat hs =>
      exact Keyed.map_insert_of_find? h hs (fun e => (e.1, e.2.badge)) (by simp [Seat.badge, hf])

theorem dataIds_onMember (h : Keyed.Sorted c.seats) (id : MemberId)
    {f : Server → Server × List HookRun} (hf : ∀ s, (f s).1.member = s.member) :
    (c.onMember id f).dataIds = c.dataIds :=
  dataIds_of_roster (roster_onMember h id hf)

theorem sorted_announce (h : Keyed.Sorted c.seats) (m : Move) :
    Keyed.Sorted (c.announce m).seats := by
  unfold announce
  cases m.source with
  | none => exact sorted_onMember h ..
  | some id => exact sorted_onMember (sorted_onMember h ..) ..

theorem roster_announce (h : Keyed.Sorted c.seats) (m : Move) :
    (c.announce m).roster = c.roster := by
  unfold announce
  cases m.source with
  | none => exact roster_onMember h _ fun _ => rfl
  | some id =>
      simp only
      rw [roster_onMember (sorted_onMember h ..) _ fun _ => rfl, roster_onMember h _ fun _ => rfl]

theorem sorted_announceAll (h : Keyed.Sorted c.seats) (ms : List Move) :
    Keyed.Sorted (c.announceAll ms).seats := by
  induction ms generalizing c with
  | nil => exact h
  | cons m ms ih => exact ih (sorted_announce h m)

theorem roster_announceAll (h : Keyed.Sorted c.seats) (ms : List Move) :
    (c.announceAll ms).roster = c.roster := by
  induction ms generalizing c with
  | nil => rfl
  | cons m ms ih => exact (ih (sorted_announce h m)).trans (roster_announce h m)

structure Serves (t : Table) (id : MemberId) (s : Server) : Prop where
  member : s.member.id = id
  running : s.status = .running
  ordered : s.partitions.Pairwise (· < ·)
  owned : ∀ p, p ∈ s.partitions ↔ t[p]? = some (some id)

def Agrees (t : Table) (seats : List (MemberId × Seat)) : Prop :=
  ∀ id seat, Keyed.find? id seats = some seat → Serves t id seat.server

theorem Serves.of_other {s : Server} (h : Serves t id s) {o : Option MemberId}
    (hp : t[p]? ≠ some (some id)) (ho : o ≠ some id) : Serves (t.set p o) id s where
  member := h.member
  running := h.running
  ordered := h.ordered
  owned q := by
    rw [h.owned, List.getElem?_set]
    split
    · next hq =>
        subst hq
        split <;> simp [hp, ho]
    · rfl

theorem Serves.remove {s : Server} (h : Serves t id s) (p : PartitionId) :
    Serves (t.set p none) id (s.removePartition p).1 where
  member := h.member
  running := h.running
  ordered := Partitions.pairwise_remove h.ordered
  owned q := by
    change q ∈ Partitions.remove p s.partitions ↔ _
    rw [Partitions.mem_remove, h.owned, List.getElem?_set]
    split
    · next hq =>
        subst hq
        split <;> simp
    · next hq => simp [Ne.symm hq]

theorem Serves.add {s : Server} (h : Serves t id s) (hp : p < t.length) :
    Serves (t.set p (some id)) id (s.addPartition p).1 where
  member := h.member
  running := h.running
  ordered := Partitions.pairwise_add h.ordered
  owned q := by
    change q ∈ Partitions.add p s.partitions ↔ _
    rw [Partitions.mem_add, h.owned, List.getElem?_set]
    split
    · next hq =>
        subst hq
        simp [hp]
    · next hq => simp [Ne.symm hq]

theorem Serves.runs_remove {s : Server} (h : Serves t id s) (hp : t[p]? = some (some id)) :
    (s.removePartition p).2 = [⟨.removed p, .running⟩] := by
  simp [Server.removePartition, Server.notice, Server.owns, Server.isRunning, h.running,
    (h.owned p).2 hp]

theorem Serves.runs_add {s : Server} (h : Serves t id s) (hp : t[p]? ≠ some (some id)) :
    (s.addPartition p).2 = [⟨.added p, .running⟩] := by
  have hfree : p ∉ s.partitions := mt (h.owned p).1 hp
  simp [Server.addPartition, Server.notice, Server.owns, Server.isRunning, h.running, hfree]

theorem agrees_removePartition (h : Agrees t c.seats) (hp : t[p]? = some (some id)) :
    Agrees (t.set p none) (c.onMember id (·.removePartition p)).seats := by
  intro other seat hs
  by_cases ho : other = id
  · subst ho
    rw [find?_onMember_self] at hs
    obtain ⟨old, hold, rfl⟩ := Option.map_eq_some_iff.1 hs
    exact (h _ _ hold).remove p
  · rw [find?_onMember_of_ne ho] at hs
    refine (h _ _ hs).of_other ?_ (by simp)
    rw [hp]
    simpa using Ne.symm ho

theorem agrees_addPartition (h : Agrees t c.seats) (hp : t[p]? = some none) :
    Agrees (t.set p (some id)) (c.onMember id (·.addPartition p)).seats := by
  intro other seat hs
  by_cases ho : other = id
  · subst ho
    rw [find?_onMember_self] at hs
    obtain ⟨old, hold, rfl⟩ := Option.map_eq_some_iff.1 hs
    exact (h _ _ hold).add (List.getElem?_eq_some_iff.1 hp).1
  · rw [find?_onMember_of_ne ho] at hs
    refine (h _ _ hs).of_other ?_ ?_
    · simp [hp]
    · simpa using Ne.symm ho

/-- A move is told in two parts, to the old owner and to the new one. What both keep, with the
partition free in between, the move keeps. -/
theorem announce_keeps {P : Table → Cluster → Prop} {m : Move}
    (hremove : ∀ {t c id}, P t c → t[m.partition]? = some (some id) →
      P (t.set m.partition none) (c.onMember id (·.removePartition m.partition)))
    (hadd : ∀ {t c}, P t c → t[m.partition]? = some none →
      P (t.set m.partition (some m.destination))
        (c.onMember m.destination (·.addPartition m.partition)))
    (h : P t c) (hm : t[m.partition]? = some m.source) :
    P (t.set m.partition (some m.destination)) (c.announce m) := by
  unfold announce
  cases hs : m.source with
  | none => exact hadd h (hs ▸ hm)
  | some id =>
      have hp := hs ▸ hm
      have hlt : m.partition < t.length := (List.getElem?_eq_some_iff.1 hp).1
      rw [← List.set_set]
      exact hadd (hremove h hp) (List.getElem?_set_self hlt)

theorem agrees_announce {m : Move} (h : Agrees t c.seats) (hm : t[m.partition]? = some m.source) :
    Agrees (t.set m.partition (some m.destination)) (c.announce m).seats :=
  announce_keeps (P := fun t c => Agrees t c.seats) agrees_removePartition agrees_addPartition h hm

theorem agrees_announceAll {t' : Table} {ms : List Move} (h : Agrees t c.seats)
    (hw : Rewrites t ms t') : Agrees t' (c.announceAll ms).seats := by
  induction ms generalizing c t with
  | nil =>
      cases hw
      exact h
  | cons m ms ih => exact ih (agrees_announce h hw.1) hw.2

end Cluster

end Switchboard
