import Switchboard.Cluster.Basic

namespace Switchboard

namespace Stage

def result? (number : Nat) : Stage → Option CallResult
  | queued | working _ _ => none
  | refused e => some (.error e)
  | finished r => some r
  | aborted =>
      some (.error (.remote (.of "ExecutionAborted" ("task " ++ toString number ++ " was cancelled"))))

def abort : Stage → Stage
  | queued | working _ _ => aborted
  | s => s

def isReady (now : Nat) : Stage → Bool
  | queued => true
  | working wake _ => wake ≤ now
  | _ => false

def wake? : Stage → Option Nat
  | working wake _ => some wake
  | _ => none

end Stage

namespace Cluster

def server? (c : Cluster) (number : Nat) : Option Server :=
  ((Keyed.values c.seats ++ c.departed).find? (·.number = number)).map Seat.server

def Seat.update (number : Nat) (s : Server) (seat : Seat) : Seat :=
  if seat.number = number then { seat with server := s } else seat

def updateServer (c : Cluster) (number : Nat) (s : Server) : Cluster :=
  { c with
    seats := c.seats.map fun (id, seat) => (id, Seat.update number s seat)
    departed := c.departed.map (Seat.update number s) }

def latest? (c : Cluster) (id : MemberId) : Option Seat :=
  match Keyed.find? id c.seats with
  | some seat => some seat
  | none => c.departed.find? (·.server.member.id = id)

def startServer (c : Cluster) (seat : Seat) : Except ClusterError Cluster := do
  let (s, runs) ← seat.server.start
  return (c.updateServer seat.number s).record seat.number runs

def shutdownServer (c : Cluster) (seat : Seat) : Cluster :=
  let (s, runs) := seat.server.shutdown
  (c.updateServer seat.number s).record seat.number runs

def route (c : Cluster) (call : Call) (target : Option Member) :
    Except RemoteError (MemberId × Option PartitionId) :=
  if !c.running then
    .error (.of "ClusterShutDown" (call.qualified ++ " submitted after cluster shutdown"))
  else
    match target, call.key with
    | some m, _ => .ok (m.id, none)
    | none, none =>
        .error (.of "MissingRoute"
          (call.qualified ++ " has neither a target member nor a partition key"))
    | none, some k =>
        let p := c.partitionFor k
        match c.ownerId? p with
        | some id => .ok (id, some p)
        | none =>
            .error (.of "PartitionUnassigned" ("partition " ++ toString p ++ " has no owner"))

inductive Receipt where
  | settled (r : CallResult)
  | task (number : Nat)

def submit (c : Cluster) (call : Call) (target : Option Member) : Receipt × Cluster :=
  match c.route call target with
  | .error e => (.settled (.error (.remote e)), c)
  | .ok (id, p) =>
      match Keyed.find? id c.seats with
      | none => (.settled (.error (.memberLeft id)), c)
      | some seat =>
          if seat.server.slice ≠ call.slice then
            (.settled (.error (.remote (.of "SliceNotFound"
              ("No slice '" ++ call.slice ++ "' on member " ++ id)))), c)
          else
            let t : Task := ⟨c.tasks.length, seat.number, call, p, .queued⟩
            (.task t.number, { c with tasks := c.tasks ++ [t] })

def setStage (c : Cluster) (number : Nat) (s : Stage) : Cluster :=
  { c with tasks := c.tasks.modify number fun t => { t with stage := s } }

def work (c : Cluster) (now : Nat) (t : Task) (s : Server) (w : Work) : Cluster :=
  let (s', pause) := s.advance t.call.service w
  let stage := match pause with
    | .ended r => Stage.finished (s.report t.number r)
    | .asleep ms rest => Stage.working (now + ms) rest
  (c.updateServer t.seat s').setStage t.number stage

def runTask (c : Cluster) (now : Nat) (t : Task) : Cluster :=
  match c.server? t.seat, t.stage with
  | some s, .queued =>
      match s.accept t.partition t.call.service with
      | .error e => c.setStage t.number (.refused e)
      | .ok svc => c.work now t s (svc.respond t.call.method t.call.argTypes t.call.args)
  | some s, .working wake rest => if wake ≤ now then c.work now t s rest else c
  | _, _ => c

def runTaskAt (now : Nat) (c : Cluster) (number : Nat) : Cluster :=
  match c.tasks[number]? with
  | some t => c.runTask now t
  | none => c

def runReady (c : Cluster) (now : Nat) : Cluster :=
  (List.range c.tasks.length).foldl (runTaskAt now) c

def abort (c : Cluster) (number : Nat) : Cluster :=
  { c with tasks := c.tasks.modify number fun t => { t with stage := t.stage.abort } }

def taskResult? (c : Cluster) (number : Nat) : Option CallResult :=
  (c.tasks[number]?).bind fun t => t.stage.result? number

def hasReady (c : Cluster) (now : Nat) : Bool := c.tasks.any (·.stage.isReady now)

def wakes (c : Cluster) : List Nat := c.tasks.filterMap (·.stage.wake?)

end Cluster

end Switchboard
