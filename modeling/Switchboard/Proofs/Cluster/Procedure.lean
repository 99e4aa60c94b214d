import Switchboard.Proofs.Cluster.Closing

namespace Switchboard.Cluster

/-- Runs on a cluster, which stays as it is at the point of an error. -/
abbrev Procedure := EStateM ClusterError Cluster Unit

def telling (m : Move) : Procedure := do
  match m.source with
  | some id => modify (·.onMember id (·.removePartition m.partition))
  | none => pure ()
  modify (·.onMember m.destination (·.addPartition m.partition))

def adding (m : Member) (services : List (String × Service)) : Procedure := do
  let c ← get
  if !c.running then throw .clusterShutDown
  if Keyed.contains m.id c.seats then throw (.duplicateMember m.id)
  let server := Server.new c.config.slice m services
  set { c with seats := Keyed.insert m.id ⟨c.joined, server⟩ c.seats, joined := c.joined + 1 }
  match server.start with
  | .error e => throw e
  | .ok (started, runs) =>
      modify fun listed =>
        { listed with seats := Keyed.insert m.id ⟨c.joined, started⟩ listed.seats }.record c.joined
          runs

def dealing : Procedure := do
  let c ← get
  let (owners, moves) := deal c.dataIds 0 0 c.owners
  set { c with owners := owners }
  moves.forM telling

def removing (id : MemberId) : Procedure := do
  let c ← get
  match Keyed.find? id c.seats with
  | none => throw (.unknownMember id)
  | some seat =>
      set { c with
        seats := Keyed.erase id c.seats
        owners := c.owners.map fun o => if o = some id then none else o }
      modify (·.retire (id, seat))
      dealing

def moving (p : PartitionId) (id : MemberId) : Procedure := do
  let c ← get
  match Keyed.find? id c.seats with
  | none => throw (.unknownMember id)
  | some seat =>
      if seat.server.member.lite then throw (.liteMember id)
      match c.owners[p]? with
      | none => throw (.partitionOutOfRange p c.config.partitionCount)
      | some o =>
          set { c with owners := c.owners.set p (some id) }
          if o ≠ some id then telling ⟨p, o, id⟩

def redealing : Procedure := do
  let c ← get
  set { c with owners := c.owners.mapIdx fun p o => (turn c.dataIds p).or o }
  (rebalancing c.dataIds c.owners).forM telling

def closing : Procedure := do
  let c ← get
  if c.running then
    set { c with running := false, seats := [], owners := c.owners.map fun _ => none }
    c.seats.forM fun e => modify (·.retire e)

def procedure : Operation → Procedure
  | .add m services => adding m services
  | .remove id => removing id
  | .move p id => moving p id
  | .rebalance => redealing
  | .shutdown => closing

variable {c d : Cluster} {o : Operation} {e : ClusterError} {id : MemberId}

theorem get_bind (next : Cluster → Procedure) (c : Cluster) : (get >>= next) c = next c c := rfl

theorem forM_eq_foldl {α : Type} {step : α → Procedure} {f : Cluster → α → Cluster}
    (h : ∀ x c, step x c = .ok () (f c x)) (xs : List α) (c : Cluster) :
    xs.forM step c = .ok () (xs.foldl f c) := by
  induction xs generalizing c with
  | nil => rfl
  | cons x xs ih =>
      change (step x >>= fun _ => xs.forM step) c = _
      simp only [bind, EStateM.bind, h, ih, List.foldl_cons]

theorem telling_eq (m : Move) (c : Cluster) : telling m c = .ok () (c.announce m) := by
  unfold telling announce
  cases m.source <;> rfl

theorem forM_telling (moves : List Move) (c : Cluster) :
    moves.forM telling c = .ok () (c.announceAll moves) := forM_eq_foldl telling_eq moves c

theorem dealing_eq (c : Cluster) : dealing c = .ok () c.assignUnowned :=
  forM_telling (deal c.dataIds 0 0 c.owners).2 { c with owners := (deal c.dataIds 0 0 c.owners).1 }

def outcome (c : Cluster) : Except ClusterError Cluster → EStateM.Result ClusterError Cluster Unit
  | .ok d => .ok () d
  | .error e => .error e c

theorem adding_eq (m : Member) (services : List (String × Service)) (c : Cluster) :
    adding m services c = c.outcome (c.addMember m services) := by
  simp only [adding, addMember, get_bind]
  split
  · rfl
  split
  · rfl
  -- A server that has just been made can be started, and takes its own place on the list.
  let started : Server := { Server.new c.config.slice m services with status := .running }
  have hseats := Keyed.insert_insert m.id (⟨c.joined, started⟩ : Seat)
    ⟨c.joined, .new c.config.slice m services⟩ c.seats
  exact congrArg (fun seats => EStateM.Result.ok () ({ c with
    seats := seats
    joined := c.joined + 1 }.record c.joined [⟨.start, .unstarted⟩])) hseats

theorem removing_eq (id : MemberId) (c : Cluster) :
    removing id c = c.outcome ((c.removeMember id).map (·.2)) := by
  simp only [removing, removeMember, get_bind]
  cases Keyed.find? id c.seats with
  | none => rfl
  | some seat => exact dealing_eq _

theorem moving_eq (p : PartitionId) (id : MemberId) (c : Cluster) :
    moving p id c = c.outcome (c.movePartition p id) := by
  simp only [moving, movePartition, get_bind]
  cases Keyed.find? id c.seats with
  | none => rfl
  | some seat =>
      simp only
      split
      · rfl
      cases c.owners[p]? with
      | none => rfl
      | some o =>
          by_cases ho : o = some id
          · simp only [ho, if_true, ne_eq, not_true_eq_false, if_false]
            rfl
          · simp only [ho, if_false, ne_eq, not_false_eq_true, if_true]
            exact telling_eq ..

theorem closing_eq (c : Cluster) : closing c = .ok () c.shutdown := by
  simp only [closing, shutdown, get_bind]
  split
  · exact forM_eq_foldl (fun _ _ => rfl) c.seats _
  · rfl

theorem procedure_eq (o : Operation) (c : Cluster) : procedure o c = c.outcome (c.attempt o) := by
  cases o with
  | add m services => exact adding_eq m services c
  | remove id => exact removing_eq id c
  | move p id => exact moving_eq p id c
  | rebalance => exact forM_telling ..
  | shutdown => exact closing_eq c

def enact (c : Cluster) (o : Operation) : Cluster :=
  match procedure o c with
  | .ok _ d => d
  | .error _ d => d

theorem enact_eq (c : Cluster) (o : Operation) : c.enact o = c.perform o := by
  rw [enact, procedure_eq, perform]
  cases c.attempt o <;> rfl

inductive Refuses (c : Cluster) : Operation → ClusterError → Prop
  | down (m : Member) (services : List (String × Service)) :
      c.running = false → Refuses c (.add m services) .clusterShutDown
  | duplicate (m : Member) (services : List (String × Service)) :
      c.running = true → Keyed.contains m.id c.seats = true →
      Refuses c (.add m services) (.duplicateMember m.id)
  | unknown (id : MemberId) :
      Keyed.find? id c.seats = none → Refuses c (.remove id) (.unknownMember id)
  | stranger (p : PartitionId) (id : MemberId) :
      Keyed.find? id c.seats = none → Refuses c (.move p id) (.unknownMember id)
  | lite (p : PartitionId) {id : MemberId} {seat : Seat} :
      Keyed.find? id c.seats = some seat → seat.server.member.lite = true →
      Refuses c (.move p id) (.liteMember id)
  | beyond {p : PartitionId} {id : MemberId} {seat : Seat} :
      Keyed.find? id c.seats = some seat → seat.server.member.lite = false →
      c.owners.length ≤ p →
      Refuses c (.move p id) (.partitionOutOfRange p c.config.partitionCount)

theorem attempt_eq_error : c.attempt o = .error e ↔ c.Refuses o e := by
  constructor
  · intro h
    cases o with
    | add m services =>
        simp only [attempt, addMember] at h
        split at h
        · next hrun =>
            cases h
            exact .down m services (by simpa using hrun)
        next hrun =>
        split at h
        · next hm =>
            cases h
            exact .duplicate m services (by simpa using hrun) hm
        · cases h
    | remove id =>
        simp only [attempt, removeMember] at h
        split at h
        · next hs =>
            cases h
            exact .unknown id hs
        · cases h
    | move p id =>
        simp only [attempt, movePartition] at h
        split at h
        · next hs =>
            cases h
            exact .stranger p id hs
        next seat hs =>
        split at h
        · next hl =>
            cases h
            exact .lite p hs hl
        next hl =>
        split at h
        · next ho =>
            cases h
            exact .beyond hs (by simpa using hl) (List.getElem?_eq_none_iff.1 ho)
        · cases h
    | rebalance => cases h
    | shutdown => cases h
  · intro h
    cases h with
    | down m services hrun => simp [attempt, addMember, hrun]
    | duplicate m services hrun hm => simp [attempt, addMember, hrun, hm]
    | unknown id hs => simp [attempt, removeMember, hs, Except.map]
    | stranger p id hs => simp [attempt, movePartition, hs]
    | lite p hs hl => simp [attempt, movePartition, hs, hl]
    | beyond hs hl hp => simp [attempt, movePartition, hs, hl, List.getElem?_eq_none hp]

theorem procedure_error : procedure o c = .error e d ↔ c.Refuses o e ∧ d = c := by
  rw [procedure_eq, ← attempt_eq_error]
  cases c.attempt o with
  | ok c' => simp [outcome]
  | error x => simp [outcome, eq_comm]

end Switchboard.Cluster
