import Switchboard.Cluster.Execution

namespace Switchboard

inductive Course where
  | result (r : CallResult)
  | never
  | delay (ms : Nat) (next : Course)

namespace Course

/-- Follows a course up to tick `now`. A delay runs from the tick at which it is first reached; when
it is over is given by `due`. -/
def follow (now : Nat) : Option Nat → Course → Option Nat × Course
  | due, delay ms next =>
      let reached := due.getD (now + ms)
      if reached ≤ now then follow now none next else (some reached, delay ms next)
  | _, c => (none, c)

def length : Course → Nat
  | delay _ next => next.length + 1
  | _ => 1

end Course

structure ScriptedCall where
  course : Course
  cancellable : Bool

inductive Hold where
  | course (due : Option Nat) (c : Course)
  | task (number : Nat)

inductive Interrupt where
  | count
  | abort (task : Nat)
  deriving DecidableEq, Repr

structure Pending where
  hold : Hold
  interrupt : Option Interrupt

namespace Pending

def settled (r : CallResult) : Pending := ⟨.course none (.result r), none⟩

def ofScript (s : ScriptedCall) : Pending :=
  ⟨.course none s.course, if s.cancellable then some .count else none⟩

def ofTask (number : Nat) : Pending := ⟨.task number, some (.abort number)⟩

def isCancellable (p : Pending) : Bool := p.interrupt.isSome

def disarm (p : Pending) : Pending := { p with interrupt := none }

def follow (p : Pending) (now : Nat) : Pending :=
  match p.hold with
  | .course due c =>
      let (due, c) := c.follow now due
      { p with hold := .course due c }
  | .task _ => p

def due? (p : Pending) : Option Nat :=
  match p.hold with
  | .course due _ => due
  | .task _ => none

def debug (p : Pending) : String :=
  "PendingCall \x7b cancellable: " ++ (if p.isCancellable then "true" else "false") ++ " \x7d"

end Pending

end Switchboard
