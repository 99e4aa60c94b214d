import Switchboard.Cluster.Server

namespace Switchboard

/-- A server with the number under which it joined, which tells it from later ones of its id. -/
structure Seat where
  number : Nat
  server : Server

inductive Stage where
  | queued
  | refused (e : CallFailure)
  | working (wake : Nat) (rest : Work)
  | finished (r : CallResult)
  | aborted

structure Task where
  number : Nat
  seat : Nat
  call : Call
  partition : Option PartitionId
  stage : Stage

structure Cluster where
  config : ClusterConfig
  running : Bool
  seats : List (MemberId × Seat)
  departed : List Seat
  owners : List (Option MemberId)
  joined : Nat
  tasks : List Task
  history : List (Nat × HookRun)

namespace Cluster

def new (config : ClusterConfig) : Cluster where
  config := config
  running := true
  seats := []
  departed := []
  owners := List.replicate config.partitionCount none
  joined := 0
  tasks := []
  history := []

def create (config : ClusterConfig) : Except ClusterError Cluster :=
  match config.invalid? with
  | some reason => .error (.invalidConfig reason)
  | none => .ok (new config)

def members (c : Cluster) : List Member := (Keyed.values c.seats).map (·.server.member)

def alive (c : Cluster) : List Member :=
  ((Keyed.values c.seats).filter (·.server.isRunning)).map (·.server.member)

def dataIds (c : Cluster) : List MemberId :=
  (c.seats.filter (!·.2.server.member.lite)).map (·.1)

def ownerId? (c : Cluster) (p : PartitionId) : Option MemberId := (c.owners[p]?).join

def owner? (c : Cluster) (p : PartitionId) : Option Member :=
  ((c.ownerId? p).bind (Keyed.find? · c.seats)).map (·.server.member)

def partitionFor (c : Cluster) (k : PartitionKey) : PartitionId :=
  k.partition c.config.partitionCount

def executed (c : Cluster) : Nat := c.tasks.length

def hooksOf (c : Cluster) (number : Nat) : List HookRun :=
  (c.history.filter (·.1 = number)).map (·.2)

def record (c : Cluster) (number : Nat) (runs : List HookRun) : Cluster :=
  { c with history := c.history ++ runs.map fun r => (number, r) }

def onMember (c : Cluster) (id : MemberId) (f : Server → Server × List HookRun) : Cluster :=
  match Keyed.find? id c.seats with
  | none => c
  | some seat =>
      let (s, runs) := f seat.server
      { c with seats := Keyed.insert id { seat with server := s } c.seats }.record seat.number runs

def addMember (c : Cluster) (m : Member) (services : List (String × Service)) :
    Except ClusterError Cluster :=
  if !c.running then .error .clusterShutDown
  else if Keyed.contains m.id c.seats then .error (.duplicateMember m.id)
  else
    match (Server.new c.config.slice m services).start with
    | .error e => .error e
    | .ok (s, runs) =>
        .ok <| { c with
          seats := Keyed.insert m.id ⟨c.joined, s⟩ c.seats
          joined := c.joined + 1 }.record c.joined runs

structure Move where
  partition : PartitionId
  source : Option MemberId
  destination : MemberId

/-- The old owner is told before the new one. -/
def announce (c : Cluster) (m : Move) : Cluster :=
  let c := match m.source with
    | some id => c.onMember id (·.removePartition m.partition)
    | none => c
  c.onMember m.destination (·.addPartition m.partition)

def announceAll (c : Cluster) (moves : List Move) : Cluster := moves.foldl announce c

def deal (ids : List MemberId) (dealt p : Nat) :
    List (Option MemberId) → List (Option MemberId) × List Move
  | [] => ([], [])
  | some id :: rest =>
      let (owners, moves) := deal ids dealt (p + 1) rest
      (some id :: owners, moves)
  | none :: rest =>
      match ids[dealt % ids.length]? with
      | none =>
          let (owners, moves) := deal ids dealt (p + 1) rest
          (none :: owners, moves)
      | some id =>
          let (owners, moves) := deal ids (dealt + 1) (p + 1) rest
          (some id :: owners, ⟨p, none, id⟩ :: moves)

def assignUnowned (c : Cluster) : Cluster :=
  let (owners, moves) := deal c.dataIds 0 0 c.owners
  { c with owners := owners }.announceAll moves

def removeMember (c : Cluster) (id : MemberId) : Except ClusterError (Member × Cluster) :=
  match Keyed.find? id c.seats with
  | none => .error (.unknownMember id)
  | some seat =>
      let (s, runs) := seat.server.shutdown
      let left := { c with
        seats := Keyed.erase id c.seats
        departed := { seat with server := s } :: c.departed
        owners := c.owners.map fun o => if o = some id then none else o }
      .ok (seat.server.member, (left.record seat.number runs).assignUnowned)

def turn (ids : List MemberId) (p : PartitionId) : Option MemberId := ids[p % ids.length]?

def rebalancing (ids : List MemberId) (owners : List (Option MemberId)) : List Move :=
  owners.zipIdx.filterMap fun (o, p) =>
    match turn ids p with
    | some id => if o = some id then none else some ⟨p, o, id⟩
    | none => none

def rebalance (c : Cluster) : Cluster :=
  let ids := c.dataIds
  { c with owners := c.owners.mapIdx fun p o => (turn ids p).or o }.announceAll
    (rebalancing ids c.owners)

def movePartition (c : Cluster) (p : PartitionId) (id : MemberId) : Except ClusterError Cluster :=
  match Keyed.find? id c.seats with
  | none => .error (.unknownMember id)
  | some seat =>
      if seat.server.member.lite then .error (.liteMember id)
      else
        match c.owners[p]? with
        | none => .error (.partitionOutOfRange p c.config.partitionCount)
        | some o =>
            let moved := { c with owners := c.owners.set p (some id) }
            .ok (if o = some id then moved else moved.announce ⟨p, o, id⟩)

def retire (c : Cluster) (e : MemberId × Seat) : Cluster :=
  let (s, runs) := e.2.server.shutdown
  { c with departed := { e.2 with server := s } :: c.departed }.record e.2.number runs

def shutdown (c : Cluster) : Cluster :=
  if c.running then
    c.seats.foldl retire
      { c with running := false, seats := [], owners := c.owners.map fun _ => none }
  else c

end Cluster

end Switchboard
