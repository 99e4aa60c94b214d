import Switchboard.Keyed
import Switchboard.Json.Text
import Switchboard.Text.Quoted

namespace Switchboard

abbrev Access := Json → Except String Json

inductive Returns where
  | value
  | void
  deriving DecidableEq, Repr

def Returns.name : Returns → String
  | value => "Value"
  | void => "Void"

structure Accessor where
  name : String
  returns : Returns
  call : Access

structure ArgumentType where
  name : String
  accessors : List Accessor
  fields : List String
  selfKey : Option (Json → Json)

namespace ArgumentType

def accessor? (t : ArgumentType) (name : String) : Option Accessor :=
  t.accessors.find? (·.name = name)

def hasField (t : ArgumentType) (name : String) : Bool := t.fields.contains name

end ArgumentType

structure TypeRegistry where
  entries : List (String × ArgumentType) := []

namespace TypeRegistry

def register (r : TypeRegistry) (t : ArgumentType) : TypeRegistry :=
  ⟨Keyed.insert t.name t r.entries⟩

def ofList (types : List ArgumentType) : TypeRegistry := types.foldl register {}

def get? (r : TypeRegistry) (name : String) : Option ArgumentType := Keyed.find? name r.entries

end TypeRegistry

inductive Extractor where
  | fail (reason : String)
  | const (v : Json)
  | path (keys : List String)

namespace Extractor

def follow (v : Json) : List String → Json
  | [] => v
  | k :: rest =>
      match v.field? k with
      | some w => follow w rest
      | none => .null

def run : Extractor → Access
  | fail reason, _ => .error reason
  | const v, _ => .ok v
  | path keys, v => .ok (follow v keys)

def report (e : Extractor) (v : Json) : Json :=
  match e.run v with
  | .ok w => w
  | .error _ => .null

end Extractor

def Accessor.debug (a : Accessor) : String :=
  "MethodAccessorDecl \x7b name: " ++ Quoted.encode a.name ++ ", returns: " ++ a.returns.name
    ++ " \x7d"

def debugBool (b : Bool) : String := if b then "true" else "false"

def ArgumentType.debug (t : ArgumentType) : String :=
  "TypeDescriptor \x7b name: " ++ Quoted.encode t.name ++ ", methods: ["
    ++ ", ".intercalate (t.accessors.map Accessor.debug) ++ "], fields: " ++ Quoted.list t.fields
    ++ ", self_describing_key: " ++ debugBool t.selfKey.isSome ++ " \x7d"

end Switchboard
