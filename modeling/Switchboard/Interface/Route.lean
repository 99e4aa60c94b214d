import Switchboard.Interface.Declaration
import Switchboard.Interface.Key
import Switchboard.Policy.Registry

namespace Switchboard

inductive Target where
  | partitioned (key : KeySpec)
  | balanced (policy : RoutingPolicy)

structure Route where
  signature : Signature
  target : Target
  timeout : Duration
  interrupt : Bool

structure RouteTable where
  interface : String
  service : String
  routes : List Route

namespace RouteTable

def size (t : RouteTable) : Nat := t.routes.length

def isEmpty (t : RouteTable) : Bool := t.routes.isEmpty

def route? (t : RouteTable) (s : Signature) : Option Route :=
  t.routes.find? (·.signature = s)

def sort (routes : List Route) : List Route :=
  routes.mergeSort fun a b => a.signature.le b.signature

def find (t : RouteTable) (name : String) (arity : Nat) : List Route :=
  sort (t.routes.filter fun r => r.signature.name = name && r.signature.arity = arity)

def sorted (t : RouteTable) : List Route := sort t.routes

def signatureTexts (t : RouteTable) : List String := t.sorted.map fun r => r.signature.display

theorem mem_find {t : RouteTable} {name : String} {arity : Nat} {r : Route} :
    r ∈ t.find name arity ↔
      r ∈ t.routes ∧ r.signature.name = name ∧ r.signature.arity = arity := by
  simp [find, sort]

end RouteTable

end Switchboard
