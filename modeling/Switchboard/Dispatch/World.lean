import Switchboard.Dispatch.Pending
import Switchboard.Interface.Route
import Switchboard.Registry

namespace Switchboard

inductive Substrate where
  | scripted (registry : Registry) (script : List ScriptedCall)
  | cluster (c : Cluster)

def Substrate.alive : Substrate → List Member
  | scripted r _ => r.alive
  | cluster c => c.alive

inductive PolicyInstance where
  | ofRoute (proxy : Nat) (signature : Signature)
  | standalone (number : Nat)
  deriving DecidableEq, Repr

abbrev Cursors := List (PolicyInstance × Cursor)

namespace Cursors

def get (i : PolicyInstance) (cs : Cursors) : Cursor := (cs.lookup i).getD 0

def set (i : PolicyInstance) (c : Cursor) (cs : Cursors) : Cursors :=
  (i, c) :: cs.filter (·.1 ≠ i)

theorem get_set_self (i : PolicyInstance) (c : Cursor) (cs : Cursors) : get i (set i c cs) = c := by
  simp [get, set]

theorem lookup_filter_ne {i j : PolicyInstance} (h : j ≠ i) (cs : Cursors) :
    (cs.filter (·.1 ≠ i)).lookup j = cs.lookup j := by
  induction cs with
  | nil => rfl
  | cons e rest ih =>
      obtain ⟨k, c⟩ := e
      by_cases hk : k = i
      · have : (j == i) = false := by simpa using h
        simpa [hk, List.lookup_cons, this] using ih
      · by_cases hj : j = k
        · simp [hk, hj]
        · have : (j == k) = false := by simpa using hj
          simpa [hk, List.lookup_cons, this] using ih

theorem get_set_of_ne {i j : PolicyInstance} (h : j ≠ i) (c : Cursor) (cs : Cursors) :
    get j (set i c cs) = get j cs := by
  have : (j == i) = false := by simpa using h
  simp only [get, set, List.lookup_cons, this, lookup_filter_ne h]

end Cursors

structure Submission where
  call : Call
  target : Option Member

structure World where
  now : Nat
  substrate : Substrate
  cursors : Cursors
  consulted : Nat
  interrupted : Nat
  submissions : List Submission

namespace World

def start (s : Substrate) : World := ⟨0, s, [], 0, 0, []⟩

def alive (w : World) : List Member := w.substrate.alive

def cluster? (w : World) : Option Cluster :=
  match w.substrate with
  | .cluster c => some c
  | .scripted _ _ => none

def registry? (w : World) : Option Registry :=
  match w.substrate with
  | .scripted r _ => some r
  | .cluster _ => none

def mapCluster (f : Cluster → Cluster) (w : World) : World :=
  match w.substrate with
  | .cluster c => { w with substrate := .cluster (f c) }
  | .scripted _ _ => w

def mapRegistry (f : Registry → Registry) (w : World) : World :=
  match w.substrate with
  | .scripted r script => { w with substrate := .scripted (f r) script }
  | .cluster _ => w

/-- Hands a call over. A script that is used up answers null. -/
def place (s : Substrate) (call : Call) (target : Option Member) : Pending × Substrate :=
  match s with
  | .scripted r [] => (.settled (.ok .null), .scripted r [])
  | .scripted r (next :: rest) => (.ofScript next, .scripted r rest)
  | .cluster c =>
      match c.submit call target with
      | (.settled r, c) => (.settled r, .cluster c)
      | (.task n, c) => (.ofTask n, .cluster c)

def submit (w : World) (call : Call) (target : Option Member) : Pending × World :=
  let (p, s) := place w.substrate call target
  (p, { w with substrate := s, submissions := w.submissions ++ [⟨call, target⟩] })

def result? (w : World) (p : Pending) : Option CallResult :=
  match p.hold with
  | .course _ (.result r) => some r
  | .course _ _ => none
  | .task n => w.cluster?.bind (·.taskResult? n)

def runHook (w : World) : Interrupt → World
  | .count => { w with interrupted := w.interrupted + 1 }
  | .abort n => w.mapCluster (·.abort n)

def interrupt (w : World) (p : Pending) : Bool × World :=
  match p.interrupt with
  | some h => (true, w.runHook h)
  | none => (false, w)

def runReady (w : World) : World := w.mapCluster (·.runReady w.now)

def hasReady (w : World) : Bool := (w.cluster?.map (·.hasReady w.now)).getD false

def wakes (w : World) : List Nat := (w.cluster?.map Cluster.wakes).getD []

def script (w : World) : List ScriptedCall :=
  match w.substrate with
  | .scripted _ s => s
  | .cluster _ => []

end World

end Switchboard
