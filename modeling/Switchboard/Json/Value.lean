import Switchboard.Keyed

namespace Switchboard

/-- A JSON value. A double is held by its bits, so that values can be told apart exactly. -/
inductive Json where
  | null
  | bool (b : Bool)
  | int (n : Int)
  | double (bits : UInt64)
  | str (s : String)
  | arr (items : List Json)
  | obj (entries : List (String × Json))
  deriving Inhabited

namespace Json

def object (entries : List (String × Json)) : Json := .obj (Keyed.ofList entries)

def isNull : Json → Bool
  | .null => true
  | _ => false

def asString? : Json → Option String
  | .str s => some s
  | _ => none

def asInt? : Json → Option Int
  | .int n => some n
  | _ => none

def asBool? : Json → Option Bool
  | .bool b => some b
  | _ => none

def asArray? : Json → Option (List Json)
  | .arr items => some items
  | _ => none

def asObject? : Json → Option (List (String × Json))
  | .obj entries => some entries
  | _ => none

def field? (name : String) : Json → Option Json
  | .obj entries => Keyed.find? name entries
  | _ => none

end Json

end Switchboard
