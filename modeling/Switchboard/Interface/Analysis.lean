import Switchboard.Interface.Route
import Switchboard.Text.Uppercase

namespace Switchboard

inductive DeclarationError where
  | emptyInterfaceName
  | emptyMethodName (interface : String)
  | notExposable (interface : String)
  | missingRouting (method : String)
  | conflictingRouting (method : String) (count : Nat)
  | noParameters (method : String)
  | missingKey (method : String)
  | multipleKeys (method : String) (count : Nat)
  | unresolvedProperty (method : String) (index : Nat) (typeName property : String)
  | voidAccessor (method : String) (index : Nat) (typeName accessor : String)
  | policy (method name : String) (source : PolicyError)
  | ambiguousMethod (method first second : String)
  | conflictingDeclaration (interface : String)
  | invalidConfiguration (reason : String)
  deriving DecidableEq, Repr

namespace DeclarationError

def keyArgument (index : Nat) (typeName method : String) : String :=
  "partition key argument " ++ toString index ++ " (type '" ++ typeName ++ "') of method '"
    ++ method ++ "'"

def message : DeclarationError → String
  | emptyInterfaceName => "Service interface name must not be empty"
  | emptyMethodName i => "Interface '" ++ i ++ "' declares a method with an empty name"
  | notExposable i =>
      "Interface '" ++ i ++ "' is not marked remotely exposable and can't be proxied"
  | missingRouting m =>
      "Method '" ++ m ++ "' is missing a routing annotation (Partitioned or LoadBalanced)"
  | conflictingRouting m n =>
      "Method '" ++ m ++ "' has " ++ toString n
        ++ " routing annotations, exactly one is allowed"
  | noParameters m =>
      "Partitioned method '" ++ m ++ "' should have at least 1 parameter to use as partition key"
  | missingKey m => "Partitioned method '" ++ m ++ "' has no parameter marked as partition key"
  | multipleKeys m n =>
      "Partitioned method '" ++ m ++ "' has " ++ toString n
        ++ " parameters marked as partition key, exactly one is allowed"
  | unresolvedProperty m index t property =>
      "Property '" ++ property ++ "' of " ++ keyArgument index t m
        ++ " doesn't point to an existing method or field"
  | voidAccessor m index t accessor =>
      "Property method '" ++ accessor ++ "' of " ++ keyArgument index t m ++ " can't return void"
  | policy m name source =>
      "Failed to instantiate routing policy '" ++ name ++ "' for method '" ++ m ++ "': "
        ++ source.message
  | ambiguousMethod m first second =>
      "Method '" ++ m ++ "' is declared by both '" ++ first ++ "' and '" ++ second ++ "'"
  | conflictingDeclaration i =>
      "Interface '" ++ i ++ "' is already proxied with a different declaration"
  | invalidConfiguration reason => "Invalid client configuration: " ++ reason

def sources : DeclarationError → List String
  | policy _ _ source => [source.message]
  | _ => []

end DeclarationError

namespace Interface

theorem sizeOf_parents_lt (i : Interface) : sizeOf i.parents < sizeOf i := by
  cases i
  simp only [parents, mk.sizeOf_spec]
  omega

theorem sizeOf_append (is js : List Interface) :
    sizeOf (is ++ js) + 1 = sizeOf is + sizeOf js := by
  induction is with
  | nil => simp only [List.nil_append, List.nil.sizeOf_spec]; omega
  | cons i is ih => simp only [List.cons_append, List.cons.sizeOf_spec]; omega

/-- Breadth first through a queue of interfaces; a name already seen is passed over. -/
def walk (seen : List String) : List Interface → Except DeclarationError (List Interface)
  | [] => .ok []
  | i :: queue =>
      if i.name ∈ seen then walk seen queue
      else if i.exposable then (walk (i.name :: seen) (queue ++ i.parents)).map (i :: ·)
      else .error (.notExposable i.name)
termination_by queue => sizeOf queue
decreasing_by
  · simp only [List.cons.sizeOf_spec]
    omega
  · have h₁ := sizeOf_append queue i.parents
    have h₂ := sizeOf_parents_lt i
    simp only [List.cons.sizeOf_spec]
    omega

def hierarchy (i : Interface) : Except DeclarationError (List Interface) := walk [] [i]

end Interface

def propertyCandidates (property : String) : List String :=
  let capitalized := Uppercase.capitalize property
  [property, "get" ++ capitalized, "is" ++ capitalized]

def ArgumentType.probe (t : ArgumentType) (method : String) (index : Nat) (typeName : String)
    (property : String) : Except DeclarationError KeyAccess :=
  match (propertyCandidates property).findSome? t.accessor? with
  | some a =>
      match a.returns with
      | .void => .error (.voidAccessor method index typeName a.name)
      | .value => .ok (.method a.name a.call)
  | none =>
      if t.hasField property then .ok (.field property)
      else .error (.unresolvedProperty method index typeName property)

structure Analyzer where
  types : TypeRegistry
  policies : PolicyRegistry
  defaultTimeout : Duration

namespace Analyzer

def keyAccess (a : Analyzer) (method : String) (index : Nat) (p : Param) :
    KeyMark → Except DeclarationError (Option KeyAccess)
  | .whole => .ok none
  | .property name =>
      match a.types.get? p.type with
      | some t => (t.probe method index p.type name).map some
      | none => .error (.unresolvedProperty method index p.type name)

def marked (params : List Param) : List (Nat × Param × KeyMark) :=
  params.zipIdx.filterMap fun (p, i) => p.key.map fun k => (i, p, k)

def keySpec (a : Analyzer) (method : String) (params : List Param) :
    Except DeclarationError KeySpec :=
  match params with
  | [] => .error (.noParameters method)
  | _ =>
      match marked params with
      | [(index, p, mark)] => do
          let access ← a.keyAccess method index p mark
          let selfKey := (a.types.get? p.type).bind ArgumentType.selfKey
          return ⟨index, access, p.type, selfKey.map fun f v => .ok (f v)⟩
      | [] => .error (.missingKey method)
      | many => .error (.multipleKeys method many.length)

def target (a : Analyzer) (method : String) (params : List Param) :
    Routing → Except DeclarationError (Target × CallOptions)
  | .balanced name options =>
      match a.policies.build name with
      | .ok p => .ok (.balanced p, options)
      | .error e => .error (.policy method name e)
  | .partitioned options => (a.keySpec method params).map fun k => (.partitioned k, options)

def route (a : Analyzer) (method : String) (m : Method) : Except DeclarationError Route :=
  match m.routing with
  | [routing] => do
      let (target, options) ← a.target method m.params routing
      return ⟨m.signature, target, options.timeout.getD a.defaultTimeout, options.interrupt⟩
  | [] => .error (.missingRouting method)
  | many => .error (.conflictingRouting method many.length)

structure Declared where
  owner : String
  route : Route

def declare (a : Analyzer) (i : Interface) (done : List Declared) (m : Method) :
    Except DeclarationError (List Declared) :=
  if m.name.isEmpty then .error (.emptyMethodName i.name)
  else
    match done.find? (·.route.signature = m.signature) with
    | some d => .error (.ambiguousMethod m.signature.display d.owner i.name)
    | none => do
        let r ← a.route (i.simpleName ++ "." ++ m.signature.display) m
        return done ++ [⟨i.name, r⟩]

def declareAll (a : Analyzer) (done : List Declared) (i : Interface) :
    Except DeclarationError (List Declared) :=
  i.methods.foldlM (a.declare i) done

def analyze (a : Analyzer) (i : Interface) : Except DeclarationError RouteTable :=
  if i.name.isEmpty then .error .emptyInterfaceName
  else do
    let interfaces ← i.hierarchy
    let declared ← interfaces.foldlM a.declareAll []
    return ⟨i.name, i.simpleName, declared.map Declared.route⟩

end Analyzer

end Switchboard
