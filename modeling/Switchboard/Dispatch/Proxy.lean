import Switchboard.Dispatch.Flight
import Switchboard.Interface.Analysis

namespace Switchboard

/-- Gives an id its hash. Nothing is known of it but that an id has only one. -/
abbrev Hasher := Nat → UInt64

def Hasher.scatter : Hasher := fun id => RoutingPolicy.scatter (UInt64.ofNat id)

structure Proxy where
  id : Nat
  interface : Interface
  table : RouteTable
  slice : String
  retry : RetryPolicy
  hasher : Hasher

namespace Proxy

def displayAs (p : Proxy) (shown : String) : String :=
  "ServiceProxy[" ++ p.interface.name ++ "@" ++ p.slice ++ "#" ++ shown ++ "]"

def display (p : Proxy) : String := p.displayAs (toString p.id)

def debugAs (p : Proxy) (shown : String) : String :=
  "ServiceProxy \x7b id: " ++ shown ++ ", interface: " ++ Quoted.encode p.interface.name
    ++ ", slice: " ++ Quoted.encode p.slice ++ ", routes: " ++ toString p.table.size ++ " \x7d"

def hashCode (p : Proxy) : UInt64 := p.hasher p.id

def ownAnswer? (p : Proxy) (method : String) (args : List Json) : Option Json :=
  match method, args with
  | "to_string", [] => some (.str p.display)
  | "hash_code", [] => some (.int p.hashCode.toNat)
  | "equals", [v] => some (.bool (v.asString? = some p.display))
  | _, _ => none

inductive Lookup where
  | route (r : Route)
  | answer (v : Json)
  | failure (e : DispatchError)

def lookup (p : Proxy) (method : String) (args : List Json) : Lookup :=
  match p.table.find method args.length with
  | [r] => .route r
  | [] =>
      match p.ownAnswer? method args with
      | some v => .answer v
      | none => .failure (.unknownMethod p.table.service method args.length)
  | _ => .failure (.ambiguousMethod p.table.service method args.length)

def lookupSignature (p : Proxy) (s : Signature) : Lookup :=
  match p.table.route? s with
  | some r => .route r
  | none => .failure (.unknownMethod p.table.service s.display s.arity)

def invocation (p : Proxy) (r : Route) (args : List Json) (site : CallSite) : Invocation where
  slice := p.slice
  service := p.table.service
  route := r
  policy := .ofRoute p.id r.signature
  args := args
  retry := p.retry
  site := site

end Proxy

structure Provider where
  config : ClientConfig
  types : TypeRegistry
  policies : PolicyRegistry
  hasher : Hasher
  proxies : List (String × Proxy) := []

namespace Provider

def create (config : ClientConfig) (types : TypeRegistry) (policies : PolicyRegistry)
    (hasher : Hasher) : Except DeclarationError Provider :=
  match config.invalid? with
  | some reason => .error (.invalidConfiguration reason.message)
  | none => .ok { config := config, types := types, policies := policies, hasher := hasher }

def analyzer (p : Provider) : Analyzer := ⟨p.types, p.policies, p.config.defaultTimeout⟩

def cached (p : Provider) : Nat := p.proxies.length

/-- The proxy of an interface, new under the id `fresh` if its name is new. A name that stands for
another declaration is refused, but only after the new one has been analyzed. -/
def getProxy (p : Provider) (fresh : Nat) (i : Interface) :
    Except DeclarationError Proxy × Provider :=
  match Keyed.find? i.name p.proxies with
  | some known =>
      if known.interface = i then (.ok known, p)
      else
        match p.analyzer.analyze i with
        | .error e => (.error e, p)
        | .ok _ => (.error (.conflictingDeclaration i.name), p)
  | none =>
      match p.analyzer.analyze i with
      | .error e => (.error e, p)
      | .ok table =>
          let proxy : Proxy := ⟨fresh, i, table, p.config.slice, p.config.retry, p.hasher⟩
          (.ok proxy, { p with proxies := Keyed.insert i.name proxy p.proxies })

end Provider

end Switchboard
