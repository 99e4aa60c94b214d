import Switchboard.Keyed
import Switchboard.Policy.Basic
import Switchboard.Text.Quoted

namespace Switchboard

structure PolicyRegistry where
  entries : List (String × Except PolicyError RoutingPolicy) := []

namespace PolicyRegistry

def empty : PolicyRegistry := {}

def register (r : PolicyRegistry) (name : String) (p : Except PolicyError RoutingPolicy) :
    PolicyRegistry :=
  ⟨Keyed.insert name p r.entries⟩

def builtinWith (draw : Cursor → Nat) : PolicyRegistry :=
  (empty.register RoutingPolicy.roundRobin.name (.ok .roundRobin)).register
    (RoutingPolicy.drawn draw).name (.ok (.drawn draw))

def builtin : PolicyRegistry := builtinWith RoutingPolicy.scattered

def contains (r : PolicyRegistry) (name : String) : Bool := Keyed.contains name r.entries

def names (r : PolicyRegistry) : List String := Keyed.names r.entries

def build (r : PolicyRegistry) (name : String) : Except PolicyError RoutingPolicy :=
  (Keyed.find? name r.entries).getD (.error (.unknown name))

def debug (r : PolicyRegistry) : String :=
  "PolicyRegistry \x7b policies: " ++ Quoted.list r.names ++ " \x7d"

end PolicyRegistry

def RoutingPolicy.debug (p : RoutingPolicy) : String := "RoutingPolicy(" ++ p.name ++ ")"

end Switchboard
