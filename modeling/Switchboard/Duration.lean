namespace Switchboard

structure Duration where
  micros : Nat
  deriving DecidableEq, Repr, Inhabited

namespace Duration

def ofMillis (n : Nat) : Duration := ⟨1000 * n⟩

def ofMicros (n : Nat) : Duration := ⟨n⟩

def millis (d : Duration) : Nat := d.micros / 1000

/-- The ticks of a millisecond that a timer waits: a part of one counts as one. -/
def ticks (d : Duration) : Nat := (d.micros + 999) / 1000

def isZero (d : Duration) : Bool := d.micros = 0

end Duration

end Switchboard
