import Switchboard.Dispatch.Flight

/-!
Calls and executions side by side on one clock. At each tick the executions that are ready run in the
order of submission, then the calls go on in the order of their start, until nothing is left to do;
then the clock jumps to the next tick at which something happens.
-/

namespace Switchboard

structure Traffic where
  world : World
  flights : List Flight

namespace Traffic

/-- The steps of one call at one tick: an attempt takes three, and only calls of a script can come to
their result while they are driven. -/
def driveFuel (w : World) : Nat := 3 * (w.script.length + 2)

def driveAll (w : World) : List Flight → List Flight × World
  | [] => ([], w)
  | f :: rest =>
      let (f, w) := f.drive (driveFuel w) w
      let (rest, w) := driveAll w rest
      (f :: rest, w)

def launch (t : Traffic) (i : Invocation) : Nat × Traffic :=
  let (f, w) := (Flight.launch i t.world.now).drive (driveFuel t.world) t.world
  (t.flights.length, ⟨w, t.flights ++ [f]⟩)

def round (t : Traffic) : Traffic :=
  let (flights, w) := driveAll t.world.runReady t.flights
  ⟨w, flights⟩

def settleWithin : Nat → Traffic → Traffic
  | 0, t => t
  | fuel + 1, t =>
      let t := t.round
      if t.world.hasReady then settleWithin fuel t else t

def total (ns : List Nat) : Nat := ns.foldr (· + ·) 0

def settleFuel (t : Traffic) : Nat :=
  total (t.flights.map fun f => f.invocation.retry.maxAttempts.getD 2) + 2

def settle (t : Traffic) : Traffic := t.settleWithin t.settleFuel

def setNow (t : Traffic) (now : Nat) : Traffic := { t with world := { t.world with now := now } }

def nextAfter (now : Nat) (ticks : List Nat) : Option Nat := (ticks.filter (now < ·)).min?

def events (t : Traffic) : List Nat := t.world.wakes ++ t.flights.flatMap Flight.events

def next? (t : Traffic) : Option Nat := nextAfter t.world.now t.events

def advanceWithin : Nat → Nat → Traffic → Traffic
  | 0, target, t => t.setNow target
  | fuel + 1, target, t =>
      let t := t.settle
      match t.next? with
      | some tick =>
          if tick ≤ target then advanceWithin fuel target (t.setNow tick) else t.setNow target
      | none => t.setNow target

def advanceTo (t : Traffic) (target : Nat) : Traffic :=
  if target ≤ t.world.now then t else advanceWithin (target - t.world.now + 1) target t

def settled (t : Traffic) (places : List Nat) : Bool :=
  places.all fun n => ((t.flights[n]?).map Flight.isSettled).getD true

def finishWithin (places : List Nat) : Nat → Traffic → Traffic
  | 0, t => t
  | fuel + 1, t =>
      if t.settled places then t
      else
        let t := t.settle
        if t.settled places then t
        else
          match t.next? with
          | some tick => finishWithin places fuel (t.setNow tick)
          | none => t

/-- More ticks than the calls of a script can need, and as many as a cluster is given. -/
def patience (t : Traffic) : Nat :=
  1000000 + total (t.world.script.map fun s => s.course.length + 2)

def finish (t : Traffic) (places : List Nat) : Traffic := finishWithin places t.patience t

def awaitWithin : Nat → Nat → Pending → Traffic → Option CallResult × Pending × Traffic
  | 0, _, p, t => (none, p, t)
  | fuel + 1, limit, p, t =>
      let t := t.settle
      let p := p.follow t.world.now
      match t.world.result? p with
      | some r => (some r, p, t)
      | none =>
          if limit ≤ t.world.now then (none, p, t)
          else
            let tick := (nextAfter t.world.now (p.due?.toList ++ t.events)).getD limit
            awaitWithin fuel limit p (t.setNow (min tick limit))

def await (t : Traffic) (p : Pending) (ms : Nat) : Option CallResult × Pending × Traffic :=
  awaitWithin (ms + 1) (t.world.now + ms) p t

end Traffic

end Switchboard
