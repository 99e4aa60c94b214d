import Switchboard.Decimal.Shortest
import Switchboard.Json.Value
import Switchboard.Text.Hex

namespace Switchboard.Json

def escape (c : Char) : List Char :=
  match c with
  | '"' => ['\\', '"']
  | '\\' => ['\\', '\\']
  | '\n' => ['\\', 'n']
  | '\r' => ['\\', 'r']
  | '\t' => ['\\', 't']
  | c =>
      if c.toNat = 8 then ['\\', 'b']
      else if c.toNat = 12 then ['\\', 'f']
      else if c.toNat < 32 then
        ['\\', 'u', '0', '0', Hex.digit (c.toNat / 16), Hex.digit (c.toNat % 16)]
      else [c]

def quote (s : String) : String :=
  "\"" ++ String.ofList (s.toList.flatMap escape) ++ "\""

/-- Doubles are positional from `0.00001` up to below `1e+16`. -/
def numberFormat : Decimal.Style := ⟨-5, 15⟩

mutual

def text : Json → String
  | .null => "null"
  | .bool b => if b then "true" else "false"
  | .int n => toString n
  | .double bits => numberFormat.text bits
  | .str s => quote s
  | .arr items => "[" ++ ",".intercalate (textItems items) ++ "]"
  | .obj entries => "\x7b" ++ ",".intercalate (textEntries entries) ++ "\x7d"

def textItems : List Json → List String
  | [] => []
  | v :: rest => v.text :: textItems rest

def textEntries : List (String × Json) → List String
  | [] => []
  | (name, v) :: rest => (quote name ++ ":" ++ v.text) :: textEntries rest

end

end Switchboard.Json
