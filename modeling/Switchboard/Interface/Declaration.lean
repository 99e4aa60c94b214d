import Switchboard.Duration
import Switchboard.Interface.Signature

namespace Switchboard

inductive KeyMark where
  | whole
  | property (name : String)
  deriving DecidableEq, Repr

/-- An empty name means the argument itself. -/
def KeyMark.ofProperty (name : String) : KeyMark := if name.isEmpty then .whole else .property name

structure Param where
  name : String
  type : String
  key : Option KeyMark
  deriving DecidableEq, Repr

structure CallOptions where
  timeout : Option Duration
  interrupt : Bool
  deriving DecidableEq, Repr

inductive Routing where
  | partitioned (options : CallOptions)
  | balanced (policy : String) (options : CallOptions)
  deriving DecidableEq, Repr

structure Method where
  name : String
  params : List Param
  routing : List Routing
  deriving DecidableEq, Repr

namespace Method

def paramTypes (m : Method) : List String := m.params.map Param.type

def signature (m : Method) : Signature := ⟨m.name, m.paramTypes⟩

end Method

inductive Interface where
  | mk (name : String) (exposable : Bool) (parents : List Interface) (methods : List Method)

namespace Interface

def name : Interface → String
  | mk name _ _ _ => name

def exposable : Interface → Bool
  | mk _ exposable _ _ => exposable

def parents : Interface → List Interface
  | mk _ _ parents _ => parents

def methods : Interface → List Method
  | mk _ _ _ methods => methods

mutual

def same : Interface → Interface → Bool
  | mk n e ps ms, mk n' e' ps' ms' =>
      decide (n = n') && decide (e = e') && sameList ps ps' && decide (ms = ms')

def sameList : List Interface → List Interface → Bool
  | [], [] => true
  | i :: is, j :: js => same i j && sameList is js
  | _, _ => false

end

mutual

theorem same_iff : ∀ (i j : Interface), same i j = true ↔ i = j
  | mk n e ps ms, mk n' e' ps' ms' => by
      simp [same, sameList_iff ps ps', and_assoc]

theorem sameList_iff : ∀ (is js : List Interface), sameList is js = true ↔ is = js
  | [], [] => by simp [sameList]
  | [], _ :: _ => by simp [sameList]
  | _ :: _, [] => by simp [sameList]
  | i :: is, j :: js => by simp [sameList, same_iff i j, sameList_iff is js]

end

instance : DecidableEq Interface := fun i j => decidable_of_iff _ (same_iff i j)

def afterColons : List Char → Option (List Char)
  | ':' :: ':' :: rest => some ((afterColons (':' :: rest)).getD rest)
  | _ :: rest => afterColons rest
  | [] => none

def afterPoint : List Char → Option (List Char)
  | '.' :: rest => some ((afterPoint rest).getD rest)
  | _ :: rest => afterPoint rest
  | [] => none

def lastSegment (cs : List Char) : List Char :=
  let tail := (afterColons cs).getD cs
  (afterPoint tail).getD tail

def simpleName (i : Interface) : String := String.ofList (lastSegment i.name.toList)

end Interface

end Switchboard
