import Switchboard.Interface.ArgumentType
import Switchboard.PartitionKey

namespace Switchboard

inductive KeyAccess where
  | method (name : String) (call : Access)
  | field (name : String)

def KeyAccess.name : KeyAccess → String
  | method name _ => name
  | field name => name

structure KeySpec where
  index : Nat
  access : Option KeyAccess
  typeName : String
  selfKey : Option Access

def KeyAccess.debug : KeyAccess → String
  | method name _ => "Method(" ++ Quoted.encode name ++ ")"
  | field name => "Field(" ++ Quoted.encode name ++ ")"

def KeySpec.debug (s : KeySpec) : String :=
  "PartitionKeySpec \x7b index: " ++ toString s.index ++ ", accessor: "
    ++ (match s.access with
      | none => "None"
      | some a => "Some(" ++ a.debug ++ ")")
    ++ ", type_name: " ++ Quoted.encode s.typeName ++ ", self_describing: "
    ++ debugBool s.selfKey.isSome ++ " \x7d"

inductive CallerError where
  | nullKeyArgument (method : String) (index : Nat)
  | nullSelfKey (method typeName : String)
  | nullAccess (method access : String)
  | accessFailed (method access reason : String)
  | argumentCount (method : String) (expected actual : Nat)
  deriving DecidableEq, Repr

def CallerError.message : CallerError → String
  | nullKeyArgument m i =>
      "The partition key argument " ++ toString i ++ " of partitioned method '" ++ m
        ++ "' can't be null"
  | nullSelfKey m t =>
      "The partition key argument of type '" ++ t ++ "' of partitioned method '" ++ m
        ++ "' reported a null key"
  | nullAccess m a =>
      "Property '" ++ a ++ "' of the partition key argument of method '" ++ m ++ "' returned null"
  | accessFailed m a reason =>
      "Property '" ++ a ++ "' of the partition key argument of method '" ++ m
        ++ "' failed to be invoked: " ++ reason
  | argumentCount m expected actual =>
      "Method '" ++ m ++ "' expects " ++ toString expected ++ " arguments, got " ++ toString actual

inductive Consulted where
  | access
  | selfKey
  deriving DecidableEq, Repr

namespace KeySpec

def keyOr (e : CallerError) (v : Json) : Except CallerError PartitionKey :=
  match PartitionKey.ofValue? v with
  | some k => .ok k
  | none => .error e

def byMethod (method name : String) (call : Access) (arg : Json) :
    Except CallerError PartitionKey :=
  match call arg with
  | .ok v => keyOr (.nullAccess method name) v
  | .error reason => .error (.accessFailed method name reason)

def byField (method name : String) : Json → Except CallerError PartitionKey
  | .obj entries => keyOr (.nullAccess method name) ((Keyed.find? name entries).getD .null)
  | arg => .error (.accessFailed method name ("argument is not an object: " ++ arg.text))

def bySelf (method typeName : String) (key : Access) (arg : Json) :
    Except CallerError PartitionKey :=
  match key arg with
  | .ok v => keyOr (.nullSelfKey method typeName) v
  | .error reason => .error (.accessFailed method (typeName ++ "::partition_key") reason)

def resolve (s : KeySpec) (method : String) (args : List Json) :
    Except CallerError PartitionKey × List Consulted :=
  match args[s.index]? with
  | none | some .null => (.error (.nullKeyArgument method s.index), [])
  | some arg =>
      match s.access, s.selfKey with
      | some (.method name call), _ => (byMethod method name call arg, [.access])
      | some (.field name), _ => (byField method name arg, [])
      | none, some key => (bySelf method s.typeName key arg, [.selfKey])
      | none, none => (keyOr (.nullKeyArgument method s.index) arg, [])

end KeySpec

end Switchboard
