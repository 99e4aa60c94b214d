namespace Switchboard

abbrev Settings := List (String × Option String)

namespace Settings

def text? (s : Settings) (name : String) : Option String := (s.lookup name).join

def digitsValue? : List Char → Option Nat
  | [] => none
  | ds => if ds.all Char.isDigit then some (ds.foldl (fun n c => 10 * n + (c.toNat - 48)) 0)
      else none

def number? (bits : Nat) (text : String) : Option Nat :=
  let digits := match text.toList with
    | '+' :: rest => rest
    | cs => cs
  (digitsValue? digits).filter (· < Nat.pow 2 bits)

def numberAt? (s : Settings) (bits : Nat) (name : String) : Option Nat :=
  (s.text? name).bind (number? bits)

end Settings

end Switchboard
