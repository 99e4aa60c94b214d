import Switchboard.Dispatch.Proxy
import Switchboard.Dispatch.Traffic

namespace Switchboard

inductive Argument where
  | value (v : Json)
  | textOf (proxy : String)
  | hashOf (proxy : String)

inductive DirectTarget where
  | key (spec : KeySpec)
  | policy (name : String)

structure DirectCall where
  slice : String
  service : String
  signature : Signature
  target : DirectTarget
  timeout : Duration
  interrupt : Bool
  retry : RetryPolicy

inductive Callee where
  | byName (proxy method : String)
  | bySignature (proxy : String) (s : Signature)
  | direct (c : DirectCall)

structure CallRequest where
  callee : Callee
  args : List Argument

inductive Step where
  | register (m : Member)
  | unregister (id : MemberId)
  | updateStatus (id : MemberId) (s : MemberStatus)
  | get (id : MemberId)
  | registry (id : MemberId)
  | policies (name : String)
  | registerPolicy (name : String) (p : Except PolicyError RoutingPolicy)
  | buildPolicy (name binding : String)
  | next (policy : String) (times : Nat) (call : Call)
  | samePolicy (a b : String)
  | provider (binding : String) (config : ClientConfig) (types : Option TypeRegistry)
  | getProxy (provider : String) (i : Interface) (binding : String)
  | sameProxy (a b : String)
  | call (r : CallRequest) (first : List Step) (later : List (Nat × List Step))
  | parallel (calls : List (CallRequest × List Step)) (later : List (Nat × Nat × List Step))
  | submit (binding : String) (call : Call) (target : Option Member)
  | await (pending : String) (ms : Nat)
  | cancel (pending : String)
  | sleep (ms : Nat)
  | addMember (m : Member) (plans : List (String × ServicePlan))
  | removeMember (id : MemberId)
  | rebalance
  | move (p : PartitionId) (id : MemberId)
  | ownerOf (p : PartitionId)
  | ownerOfKey (k : Option PartitionKey)
  | cluster
  | server (id : MemberId)
  | serverStart (id : MemberId)
  | serverShutdown (id : MemberId)
  | shutdown

abbrev Beside := List (Nat × List Step)

namespace Beside

def first (b : Beside) : List Step := (b.takeWhile (·.1 = 0)).flatMap (·.2)

def later (b : Beside) : Beside := b.dropWhile (·.1 = 0)

def delayed (reached : Nat) : Beside → Beside
  | [] => []
  | (time, steps) :: rest => (max reached time, steps) :: delayed (max reached time) rest

def merge (bs : List Beside) : List (Nat × Nat × List Step) :=
  let groups := bs.zipIdx.flatMap fun (b, place) =>
    (delayed 0 b.later).map fun (time, steps) => (time, place, steps)
  groups.mergeSort fun a b => a.1 ≤ b.1

end Beside

def Step.callBeside (r : CallRequest) (b : Beside) : Step := .call r b.first b.later

def Step.parallelBeside (calls : List (CallRequest × Beside)) : Step :=
  .parallel (calls.map fun (r, b) => (r, b.first)) (Beside.merge (calls.map (·.2)))

end Switchboard
