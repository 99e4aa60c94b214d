namespace Switchboard.Decimal

/-- A finite double without its sign; `atPower` holds where the gap below is half the gap above. -/
structure Dyadic where
  significand : Nat
  exponent : Int
  atPower : Bool
  deriving DecidableEq, Repr

def isNegative (bits : UInt64) : Bool := bits.toNat / Nat.pow 2 63 = 1

def Dyadic.ofBits (bits : UInt64) : Dyadic :=
  let fraction : Nat := bits.toNat % Nat.pow 2 52
  let biased : Nat := bits.toNat / Nat.pow 2 52 % Nat.pow 2 11
  if biased = 0 then ⟨fraction, -1074, false⟩
  else ⟨fraction + Nat.pow 2 52, (biased : Int) - 1075, fraction = 0 && biased > 1⟩

structure Scientific where
  digits : Nat
  scale : Int
  deriving DecidableEq, Repr

structure Interval where
  low : Nat
  value : Nat
  high : Nat
  unit : Nat
  closed : Bool

def Dyadic.interval (d : Dyadic) : Interval :=
  let quarter := d.exponent - 2
  let up := Nat.pow 2 quarter.toNat
  { low := (4 * d.significand - if d.atPower then 1 else 2) * up
    value := 4 * d.significand * up
    high := (4 * d.significand + 2) * up
    unit := Nat.pow 2 (-quarter).toNat
    closed := d.significand % 2 = 0 }

def Interval.holds (i : Interval) (s : Scientific) : Bool :=
  let up := Nat.pow 10 (-s.scale).toNat
  let here := s.digits * i.unit * Nat.pow 10 s.scale.toNat
  if i.closed then i.low * up ≤ here && here ≤ i.high * up
  else i.low * up < here && here < i.high * up

def Interval.neighbours (i : Interval) (scale : Int) : List Scientific :=
  let value := i.value * Nat.pow 10 (-scale).toNat
  let unit := i.unit * Nat.pow 10 scale.toNat
  let below := value / unit
  let rest := value % unit
  if 2 * rest < unit || (2 * rest = unit && below % 2 = 0) then
    [⟨below, scale⟩, ⟨below + 1, scale⟩]
  else [⟨below + 1, scale⟩, ⟨below, scale⟩]

def length (n : Nat) : Nat := (Nat.toDigits 10 n).length

def leading (value unit : Nat) : Int :=
  let guess : Int := length value - length unit
  if value * Nat.pow 10 (-guess).toNat < unit * Nat.pow 10 guess.toNat then guess - 1 else guess

def Interval.search (i : Interval) (lead : Int) : Nat → Nat → Scientific
  | 0, count => ((i.neighbours (lead - count)).head?).getD ⟨0, 0⟩
  | more + 1, count =>
      match (i.neighbours (lead - count)).find? i.holds with
      | some s => s
      | none => i.search lead more (count + 1)

def Scientific.trim (s : Scientific) : Nat → Scientific
  | 0 => s
  | fuel + 1 =>
      if s.digits % 10 = 0 && s.digits ≠ 0 then Scientific.trim ⟨s.digits / 10, s.scale + 1⟩ fuel
      else s

def Dyadic.shortest (d : Dyadic) : Scientific :=
  if d.significand = 0 then ⟨0, 0⟩
  else
    let i := d.interval
    let s := i.search (leading i.value i.unit) 16 0
    s.trim (length s.digits)

structure Style where
  least : Int
  greatest : Int

def zeros (n : Nat) : String := "".pushn '0' n

def Style.render (f : Style) (s : Scientific) : String :=
  let text := Nat.repr s.digits
  let count : Nat := text.length
  let lead : Int := s.scale + count - 1
  if s.digits = 0 then "0.0"
  else if f.least ≤ lead && lead ≤ f.greatest then
    if lead < 0 then "0." ++ zeros (-lead - 1).toNat ++ text
    else if s.scale ≥ 0 then text ++ zeros s.scale.toNat ++ ".0"
    else (text.take (lead.toNat + 1)).toString ++ "." ++ (text.drop (lead.toNat + 1)).toString
  else
    let tail := (text.drop 1).toString
    (text.take 1).toString ++ (if tail.isEmpty then "" else "." ++ tail) ++ "e"
      ++ (if lead < 0 then "-" else "+") ++ Nat.repr lead.natAbs

def Style.text (f : Style) (bits : UInt64) : String :=
  (if isNegative bits then "-" else "") ++ f.render (Dyadic.ofBits bits).shortest

end Switchboard.Decimal
