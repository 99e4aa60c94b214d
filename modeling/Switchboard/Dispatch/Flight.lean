import Switchboard.Dispatch.Config
import Switchboard.Dispatch.World

namespace Switchboard

inductive DispatchError where
  | caller (e : CallerError)
  | remote (e : RemoteError)
  | timeout (method : String) (limit : Duration)
  | noTarget (method : String) (source : PolicyError)
  | retriesExhausted (method : String) (attempts : Nat)
  | unknownMethod (service method : String) (arity : Nat)
  | ambiguousMethod (service method : String) (arity : Nat)

namespace DispatchError

def message : DispatchError → String
  | caller e => e.message
  | remote e => e.display
  | timeout m limit =>
      "Method '" ++ m ++ "' failed to complete in " ++ toString limit.millis ++ " ms"
  | noTarget m source => "No target member for method '" ++ m ++ "': " ++ source.message
  | retriesExhausted m n =>
      "Method '" ++ m ++ "' still hit a stale route after " ++ toString n ++ " attempts"
  | unknownMethod s m n =>
      "Service '" ++ s ++ "' has no method '" ++ m ++ "' taking " ++ toString n ++ " arguments"
  | ambiguousMethod s m n =>
      "Service '" ++ s ++ "' has several methods '" ++ m ++ "' taking " ++ toString n
        ++ " arguments; call by signature"

def sources : DispatchError → List String
  | remote e => e.causes.map RemoteError.display
  | noTarget _ source => [source.message]
  | _ => []

def isTimeout : DispatchError → Bool
  | timeout _ _ => true
  | _ => false

def asRemote? : DispatchError → Option RemoteError
  | remote e => some e
  | _ => none

end DispatchError

structure CallSite where
  file : String
  line : Nat

def CallSite.frames (s : CallSite) (qualified : String) : List Frame :=
  [.named (qualified ++ " [proxy]"), ⟨"caller", some s.file, some s.line⟩]

structure Invocation where
  slice : String
  service : String
  route : Route
  policy : PolicyInstance
  args : List Json
  retry : RetryPolicy
  site : CallSite

namespace Invocation

def qualified (i : Invocation) : String := i.service ++ "." ++ i.route.signature.name

def call (i : Invocation) : Call where
  slice := i.slice
  service := i.service
  method := i.route.signature.name
  argTypes := i.route.signature.paramTypes
  args := i.args
  key := none

def prepare (i : Invocation) (w : World) :
    Except DispatchError (Call × Option Member) × World :=
  match i.route.target with
  | .partitioned spec =>
      let (key, ran) := spec.resolve i.qualified i.args
      let w := { w with consulted := w.consulted + ran.length }
      match key with
      | .ok k => (.ok ({ i.call with key := some k }, none), w)
      | .error e => (.error (.caller e), w)
  | .balanced p =>
      let (choice, cursor) := p.choose w.alive i.call (w.cursors.get i.policy)
      let w := { w with cursors := w.cursors.set i.policy cursor }
      match choice with
      | .ok m => (.ok (i.call, some m), w)
      | .error e => (.error (.noTarget i.qualified e), w)

end Invocation

inductive Phase where
  | preparing (attempt : Nat)
  | waiting (attempt : Nat) (p : Pending) (deadline : Nat)
  | resting (attempt : Nat) (wake : Nat)
  | settled (r : Except DispatchError Json) (tick : Nat)

structure Flight where
  invocation : Invocation
  phase : Phase

namespace Flight

def launch (i : Invocation) (now : Nat) : Flight :=
  if i.args.length = i.route.signature.arity then ⟨i, .preparing 1⟩
  else
    ⟨i, .settled (.error (.caller (.argumentCount i.qualified i.route.signature.arity
      i.args.length))) now⟩

def attempt (i : Invocation) (n : Nat) (w : World) : Phase × World :=
  match i.prepare w with
  | (.error e, w) => (.settled (.error e) w.now, w)
  | (.ok (call, target), w) =>
      let (p, w) := w.submit call target
      (.waiting n p (w.now + i.route.timeout.ticks), w)

def conclude (i : Invocation) (n now : Nat) : CallResult → Phase
  | .ok v => .settled (.ok v) now
  | .error (.remote e) => .settled (.error (.remote (e.stitch (i.site.frames i.qualified)))) now
  | .error _ =>
      if i.retry.allowsAnother n then .resting n (now + i.retry.backoff.ticks)
      else .settled (.error (.retriesExhausted i.qualified n)) now

def expire (i : Invocation) (p : Pending) (w : World) : Phase × World :=
  let w := if i.route.interrupt then (w.interrupt p).2 else w
  (.settled (.error (.timeout i.qualified i.route.timeout)) w.now, w)

/-- One step at the present tick, or none if the call has to wait. A result wins over a timeout. -/
def step (i : Invocation) (w : World) : Phase → Option (Phase × World)
  | .preparing n => some (attempt i n w)
  | .waiting n p deadline =>
      match w.result? p with
      | some r => some (conclude i n w.now r, w)
      | none => if deadline ≤ w.now then some (expire i p w) else none
  | .resting n wake => if wake ≤ w.now then some (.preparing (n + 1), w) else none
  | .settled _ _ => none

def follow (now : Nat) : Phase → Phase
  | .waiting n p deadline => .waiting n (p.follow now) deadline
  | ph => ph

def drive (fuel : Nat) (w : World) (f : Flight) : Flight × World :=
  let phase := follow w.now f.phase
  match fuel with
  | 0 => ({ f with phase := phase }, w)
  | fuel + 1 =>
      match step f.invocation w phase with
      | none => ({ f with phase := phase }, w)
      | some (phase, w) => drive fuel w { f with phase := phase }

def isSettled (f : Flight) : Bool :=
  match f.phase with
  | .settled _ _ => true
  | _ => false

def result? (f : Flight) : Option (Except DispatchError Json × Nat) :=
  match f.phase with
  | .settled r tick => some (r, tick)
  | _ => none

def events (f : Flight) : List Nat :=
  match f.phase with
  | .waiting _ p deadline => deadline :: p.due?.toList
  | .resting _ wake => [wake]
  | _ => []

end Flight

end Switchboard
