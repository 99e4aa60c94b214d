import Switchboard.Json.Value

namespace Switchboard.Json

namespace Reader

def isBlank (c : Char) : Bool := c = ' ' || c = '\t' || c = '\n' || c = '\r'

def skipBlanks (cs : List Char) : List Char := cs.dropWhile isBlank

def digitsValue (ds : List Char) : Nat := ds.foldl (fun n c => 10 * n + (c.toNat - 48)) 0

structure Literal where
  negative : Bool
  whole : List Char
  fraction : Option (List Char)
  exponent : Option (Bool × List Char)

def Literal.bits (l : Literal) : UInt64 :=
  let fraction := l.fraction.getD []
  let (down, power) := l.exponent.getD (false, [])
  let scale : Int := (if down then -1 else 1) * digitsValue power - fraction.length
  let size := Float.ofScientific (digitsValue (l.whole ++ fraction)) (scale < 0) scale.natAbs
  if l.negative then size.toBits ||| 0x8000000000000000 else size.toBits

def Literal.value (l : Literal) : Json :=
  let size := digitsValue l.whole
  match l.fraction, l.exponent with
  | none, none =>
      if l.negative then
        if size = 0 || Nat.pow 2 63 < size then .double l.bits else .int (-size)
      else if size < Nat.pow 2 64 then .int size
      else .double l.bits
  | _, _ => .double l.bits

def takeDigits (cs : List Char) : List Char × List Char :=
  (cs.takeWhile Char.isDigit, cs.dropWhile Char.isDigit)

def whole? (cs : List Char) : Option (List Char × List Char) :=
  match takeDigits cs with
  | ([], _) => none
  | ('0' :: _ :: _, _) => none
  | read => some read

def fraction? : List Char → Option (Option (List Char) × List Char)
  | '.' :: cs =>
      match takeDigits cs with
      | ([], _) => none
      | (ds, rest) => some (some ds, rest)
  | cs => some (none, cs)

def exponentDigits? (down : Bool) (cs : List Char) :
    Option (Option (Bool × List Char) × List Char) :=
  match takeDigits cs with
  | ([], _) => none
  | (ds, rest) => some (some (down, ds), rest)

def exponent? : List Char → Option (Option (Bool × List Char) × List Char)
  | c :: cs =>
      if c = 'e' || c = 'E' then
        match cs with
        | '-' :: rest => exponentDigits? true rest
        | '+' :: rest => exponentDigits? false rest
        | rest => exponentDigits? false rest
      else some (none, c :: cs)
  | [] => some (none, [])

def number? (negative : Bool) (cs : List Char) : Option (Json × List Char) := do
  let (ws, cs) ← whole? cs
  let (fs, cs) ← fraction? cs
  let (es, cs) ← exponent? cs
  return (Literal.value ⟨negative, ws, fs, es⟩, cs)

def hexValue? (c : Char) : Option Nat :=
  if c.isDigit then some (c.toNat - 48)
  else if 'a' ≤ c && c ≤ 'f' then some (c.toNat - 87)
  else if 'A' ≤ c && c ≤ 'F' then some (c.toNat - 55)
  else none

def hex4? (a b c d : Char) : Option Nat := do
  let a ← hexValue? a
  let b ← hexValue? b
  let c ← hexValue? c
  let d ← hexValue? d
  return ((a * 16 + b) * 16 + c) * 16 + d

def simpleEscape? : Char → Option Char
  | '"' => some '"'
  | '\\' => some '\\'
  | '/' => some '/'
  | 'b' => some (Char.ofNat 8)
  | 'f' => some (Char.ofNat 12)
  | 'n' => some '\n'
  | 'r' => some '\r'
  | 't' => some '\t'
  | _ => none

def isHigh (u : Nat) : Bool := 0xD800 ≤ u && u < 0xDC00

def isLow (u : Nat) : Bool := 0xDC00 ≤ u && u < 0xE000

def string? (high : Option Nat) : List Char → Option (List Char × List Char)
  | [] => none
  | '\\' :: 'u' :: a :: b :: c :: d :: rest =>
      match hex4? a b c d, high with
      | none, _ => none
      | some u, some h =>
          if isLow u then
            (string? none rest).map fun (s, r) =>
              (Char.ofNat (0x10000 + (h - 0xD800) * 0x400 + (u - 0xDC00)) :: s, r)
          else none
      | some u, none =>
          if isHigh u then string? (some u) rest
          else if isLow u then none
          else (string? none rest).map fun (s, r) => (Char.ofNat u :: s, r)
  | '\\' :: c :: rest =>
      match simpleEscape? c, high with
      | some e, none => (string? none rest).map fun (s, r) => (e :: s, r)
      | _, _ => none
  | c :: rest =>
      if high.isSome then none
      else if c = '"' then some ([], rest)
      else if c.toNat < 32 then none
      else (string? none rest).map fun (s, r) => (c :: s, r)

mutual

/-- `fuel` bounds the number of values and separators that are still to be read. -/
def value? : Nat → List Char → Option (Json × List Char)
  | 0, _ => none
  | fuel + 1, cs =>
      match skipBlanks cs with
      | 'n' :: 'u' :: 'l' :: 'l' :: rest => some (.null, rest)
      | 't' :: 'r' :: 'u' :: 'e' :: rest => some (.bool true, rest)
      | 'f' :: 'a' :: 'l' :: 's' :: 'e' :: rest => some (.bool false, rest)
      | '"' :: rest => (string? none rest).map fun (s, r) => (.str (String.ofList s), r)
      | '[' :: rest =>
          match skipBlanks rest with
          | ']' :: r => some (.arr [], r)
          | r => (items? fuel r).map fun (vs, r) => (.arr vs, r)
      | '\x7b' :: rest =>
          match skipBlanks rest with
          | '\x7d' :: r => some (.obj [], r)
          | r => (entries? fuel r).map fun (es, r) => (Json.object es, r)
      | '-' :: rest => number? true rest
      | rest => number? false rest

def items? : Nat → List Char → Option (List Json × List Char)
  | 0, _ => none
  | fuel + 1, cs =>
      match value? fuel cs with
      | none => none
      | some (v, rest) =>
          match skipBlanks rest with
          | ',' :: r => (items? fuel r).map fun (vs, r) => (v :: vs, r)
          | ']' :: r => some ([v], r)
          | _ => none

def entries? : Nat → List Char → Option (List (String × Json) × List Char)
  | 0, _ => none
  | fuel + 1, cs =>
      match skipBlanks cs with
      | '"' :: rest =>
          match string? none rest with
          | none => none
          | some (name, rest) =>
              match skipBlanks rest with
              | ':' :: rest =>
                  match value? fuel rest with
                  | none => none
                  | some (v, rest) =>
                      match skipBlanks rest with
                      | ',' :: r =>
                          (entries? fuel r).map fun (es, r) => ((String.ofList name, v) :: es, r)
                      | '\x7d' :: r => some ([(String.ofList name, v)], r)
                      | _ => none
              | _ => none
      | _ => none

end

end Reader

def parse? (s : String) : Option Json :=
  match Reader.value? (s.length + 1) s.toList with
  | some (v, rest) => if Reader.skipBlanks rest = [] then some v else none
  | none => none

end Switchboard.Json
