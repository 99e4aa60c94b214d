import Switchboard.Call.Trace
import Switchboard.Member
import Switchboard.PartitionKey

namespace Switchboard

structure Call where
  slice : String
  service : String
  method : String
  argTypes : List String
  args : List Json
  key : Option PartitionKey

def Call.qualified (c : Call) : String := c.service ++ "." ++ c.method

inductive CallFailure where
  | partitionMoved (partition : PartitionId) (member : MemberId)
  | memberLeft (member : MemberId)
  | remote (e : RemoteError)

namespace CallFailure

def message : CallFailure → String
  | partitionMoved p m =>
      "partition " ++ toString p ++ " is no longer owned by member " ++ m
  | memberLeft m => "member " ++ m ++ " left the cluster"
  | remote e => e.display

/-- A stale route: the call never reached its handler and may be routed again. -/
def isStale : CallFailure → Bool
  | partitionMoved _ _ | memberLeft _ => true
  | remote _ => false

def sources : CallFailure → List String
  | remote e => e.causes.map RemoteError.display
  | _ => []

end CallFailure

abbrev CallResult := Except CallFailure Json

end Switchboard
