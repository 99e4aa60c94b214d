import Switchboard.Session.Step

namespace Switchboard

namespace RemoteError

/-- Task numbers differ from run to run, so a report leaves them out. -/
def withoutTaskNumber (e : RemoteError) : RemoteError :=
  match e.message.toList with
  | 't' :: 'a' :: 's' :: 'k' :: ' ' :: rest =>
      if e.kind = "ExecutionAborted" then
        e.withMessage ("task" ++ String.ofList (rest.dropWhile Char.isDigit))
      else e
  | _ => e

end RemoteError

def CallResult.reported : CallResult → CallResult
  | .error (.remote e) => .error (.remote e.withoutTaskNumber)
  | r => r

inductive Reply where
  | value (v : Json)
  | ownText (p : Proxy) (ordinal : Nat)
  | ownHash (ordinal : Nat)
  | failure (e : DispatchError)

structure Ledger where
  submissions : List Submission
  interrupted : Nat
  consulted : Nat

structure ProxyComparison where
  sameInstance : Bool
  sameHash : Bool
  sameText : Bool

inductive Answer where
  | nothing
  | done
  | flag (b : Bool)
  | info (i : Option MemberInfo)
  | registry (r : Registry) (id : MemberId)
  | policies (r : PolicyRegistry) (name : String)
  | policy (r : Except PolicyError RoutingPolicy)
  | picks (ms : List (Except PolicyError Member))
  | provider (r : Except DeclarationError String)
  | proxy (r : Except DeclarationError (Nat × Proxy)) (cached : Nat)
  | sameProxy (c : ProxyComparison)
  | call (r : Reply) (elapsed : Nat) (beside : List Answer) (ledger : Ledger)
  | parallel (calls : List (Reply × Nat × List Answer)) (ledger : Ledger)
  | submitted (cancellable : Bool)
  | pending
  | result (r : CallResult)
  | joined (s : Server)
  | refused (e : ClusterError)
  | clusterFailure (e : ClusterError)
  | left (m : Member)
  | owner (m : Option Member)
  | keyOwner (p : PartitionId) (m : Option Member)
  | cluster (c : Cluster)
  | server (listed : Bool) (seat : Option (Server × List HookRun))

end Switchboard
