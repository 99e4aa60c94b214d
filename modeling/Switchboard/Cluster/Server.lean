import Switchboard.Cluster.Config
import Switchboard.Cluster.Partitions
import Switchboard.Cluster.Service
import Switchboard.Text.Quoted

namespace Switchboard

inductive ClusterError where
  | alreadyShutdown (slice : String)
  | alreadyTerminated (slice : String)
  | clusterShutDown
  | duplicateMember (id : MemberId)
  | unknownMember (id : MemberId)
  | liteMember (id : MemberId)
  | partitionOutOfRange (partition : PartitionId) (count : Nat)
  | invalidConfig (reason : ClusterConfig.Invalid)
  deriving DecidableEq, Repr

def ClusterError.message : ClusterError → String
  | alreadyShutdown s => "Can't start slice server '" ++ s ++ "', it is already shut down"
  | alreadyTerminated s => "Can't start slice server '" ++ s ++ "', it is already terminated"
  | clusterShutDown => "Cluster is shut down"
  | duplicateMember id => "Member " ++ id ++ " is already part of the cluster"
  | unknownMember id => "Member " ++ id ++ " is not part of the cluster"
  | liteMember id => "Member " ++ id ++ " is a lite member and can't own partitions"
  | partitionOutOfRange p count =>
      "Partition " ++ toString p ++ " is out of range (partition count " ++ toString count ++ ")"
  | invalidConfig reason => "Invalid host configuration: " ++ reason.message

inductive ServerStatus where
  | unstarted
  | running
  | terminating
  | terminated
  deriving DecidableEq, Repr

def ServerStatus.name : ServerStatus → String
  | unstarted => "Unstarted"
  | running => "Running"
  | terminating => "Terminating"
  | terminated => "Terminated"

inductive Hook where
  | start
  | stop
  | added (partition : PartitionId)
  | removed (partition : PartitionId)
  deriving DecidableEq, Repr

def Hook.display : Hook → String
  | start => "start"
  | stop => "stop"
  | added p => "+" ++ toString p
  | removed p => "-" ++ toString p

structure HookRun where
  hook : Hook
  status : ServerStatus
  deriving DecidableEq, Repr

structure Server where
  slice : String
  member : Member
  status : ServerStatus
  partitions : List PartitionId
  services : List (String × Service)

namespace Server

def new (slice : String) (member : Member) (services : List (String × Service)) : Server :=
  ⟨slice, member, .unstarted, [], Keyed.ofList services⟩

def isRunning (s : Server) : Bool := s.status = .running

def isShutdown (s : Server) : Bool := s.status = .terminating || s.status = .terminated

def isTerminated (s : Server) : Bool := s.status = .terminated

def owns (s : Server) (p : PartitionId) : Bool := s.partitions.contains p

def serviceNames (s : Server) : List String := Keyed.names s.services

def start (s : Server) : Except ClusterError (Server × List HookRun) :=
  match s.status with
  | .unstarted =>
      .ok ({ s with status := .running },
        ⟨.start, .unstarted⟩ :: s.partitions.map fun p => ⟨.added p, .running⟩)
  | .running => .ok (s, [])
  | .terminating => .error (.alreadyShutdown s.slice)
  | .terminated => .error (.alreadyTerminated s.slice)

/-- A server that never started ends without a hook. The partitions stay. -/
def shutdown (s : Server) : Server × List HookRun :=
  match s.status with
  | .unstarted => ({ s with status := .terminated }, [])
  | .running => ({ s with status := .terminated }, [⟨.stop, .terminating⟩])
  | .terminating | .terminated => (s, [])

def notice (s : Server) (changed : Bool) (h : Hook) : List HookRun :=
  if changed && s.isRunning then [⟨h, s.status⟩] else []

def addPartition (s : Server) (p : PartitionId) : Server × List HookRun :=
  ({ s with partitions := Partitions.add p s.partitions }, s.notice (!s.owns p) (.added p))

def removePartition (s : Server) (p : PartitionId) : Server × List HookRun :=
  ({ s with partitions := Partitions.remove p s.partitions }, s.notice (s.owns p) (.removed p))

def frame (s : Server) : Frame :=
  .named ("SliceServer[" ++ s.slice ++ "@" ++ s.member.id ++ "]::execute")

def serviceNotFound (s : Server) (service : String) : RemoteError :=
  (RemoteError.of "ServiceNotFound"
    ("No service '" ++ service ++ "' in slice '" ++ s.slice ++ "' on " ++ s.member.display)).addFrame
    s.frame

def accept (s : Server) (partition : Option PartitionId) (service : String) :
    Except CallFailure Service :=
  if !s.isRunning then .error (.memberLeft s.member.id)
  else
    match partition.filter (!s.owns ·) with
    | some p => .error (.partitionMoved p s.member.id)
    | none =>
        match Keyed.find? service s.services with
        | some svc => .ok svc
        | none => .error (.remote (s.serviceNotFound service))

def panicError (number : Nat) (text : String) : RemoteError :=
  .of "ExecutionAborted"
    ("task " ++ toString number ++ " panicked with message " ++ Quoted.encode text)

def report (s : Server) (number : Nat) : Except Fault Json → CallResult
  | .ok v => .ok v
  | .error (.failed e) => .error (.remote (e.addFrame s.frame))
  | .error (.panicked text) => .error (.remote (panicError number text))

def memory (s : Server) (service : String) : Memory :=
  ((Keyed.find? service s.services).map Service.memory).getD []

def advance (s : Server) (service : String) (w : Work) : Server × Pause :=
  let (pause, m) := w.run (s.memory service)
  ({ s with services := Keyed.modify service (fun svc => { svc with memory := m }) s.services },
    pause)

def execute (s : Server) (call : Call) (partition : Option PartitionId) : CallResult × Server :=
  match s.accept partition call.service with
  | .error e => (.error e, s)
  | .ok svc =>
      let (r, m) := (svc.respond call.method call.argTypes call.args).finish
        (s.memory call.service)
      let services :=
        Keyed.modify call.service (fun svc => { svc with memory := m }) s.services
      (s.report 0 r, { s with services := services })

def debug (s : Server) : String :=
  "SliceServer \x7b slice: " ++ Quoted.encode s.slice ++ ", member: MemberId("
    ++ Quoted.encode s.member.id ++ "), status: " ++ s.status.name ++ " \x7d"

end Server

end Switchboard
