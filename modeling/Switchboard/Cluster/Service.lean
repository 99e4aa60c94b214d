import Switchboard.Call.Descriptor
import Switchboard.Keyed

namespace Switchboard

abbrev Memory := List (String × Int)

inductive Fault where
  | failed (e : RemoteError)
  | panicked (text : String)

inductive Work where
  | done (result : Except Fault Json)
  | sleep (ms : Nat) (next : Work)
  | access (update : Memory → Memory) (next : Memory → Work)

inductive Pause where
  | ended (result : Except Fault Json)
  | asleep (ms : Nat) (next : Work)

/-- Runs until the end or the next sleep; a sleep of no length is none. -/
def Work.run : Work → Memory → Pause × Memory
  | done result, m => (.ended result, m)
  | sleep ms next, m => if ms = 0 then next.run m else (.asleep ms next, m)
  | access update next, m => (next m).run (update m)

def Work.finish : Work → Memory → Except Fault Json × Memory
  | done result, m => (result, m)
  | sleep _ next, m => next.finish m
  | access update next, m => (next m).finish (update m)

structure Service where
  respond : String → List String → List Json → Work
  memory : Memory := []

inductive Echo where
  | args
  | types
  | method
  | member
  deriving DecidableEq, Repr

inductive Behavior where
  | value (v : Json)
  | echo (what : Echo)
  | add
  | fail (e : RemoteError)
  | panic (text : String)
  | sleep (ms : Nat) (next : Behavior)

namespace Behavior

def asLong? : Json → Option Int
  | .int n => if -Int.pow 2 63 ≤ n && n < Int.pow 2 63 then some n else none
  | _ => none

def total (name : String) (amount : Int) (m : Memory) : Int :=
  Int.bmod ((Keyed.find? name m).getD 0 + amount) (Nat.pow 2 64)

def addWork (args : List Json) : Work :=
  let name := ((args[0]?).getD Json.null).text
  let amount := ((args[1]?).bind asLong?).getD 0
  .access (fun m => Keyed.insert name (total name amount m) m)
    fun m => .done (.ok (.int (total name amount m)))

def echoed (host : MemberId) (method : String) (types : List String) (args : List Json) :
    Echo → Json
  | .args => .arr args
  | .types => .arr (types.map .str)
  | .method => .str method
  | .member => .str host

def work (host : MemberId) (method : String) (types : List String) (args : List Json) :
    Behavior → Work
  | value v => .done (.ok v)
  | echo what => .done (.ok (echoed host method types args what))
  | add => addWork args
  | fail e => .done (.error (.failed e))
  | panic text => .done (.error (.panicked text))
  | sleep ms next => .sleep ms (work host method types args next)

end Behavior

structure ServicePlan where
  untyped : Bool
  methods : List (String × Behavior)

def ServicePlan.service (p : ServicePlan) (host : MemberId) : Service where
  respond method types args :=
    match p.methods.lookup method with
    | some b => b.work host method (if p.untyped then [] else types) args
    | none => .done (.error (.failed (.of "NoSuchMethod" method)))

end Switchboard
