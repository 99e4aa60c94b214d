namespace Switchboard.Hex

def digit (n : Nat) : Char := if n < 10 then Char.ofNat (48 + n) else Char.ofNat (87 + n)

def byte (b : UInt8) : List Char := [digit (b.toNat / 16), digit (b.toNat % 16)]

def encode (bytes : List UInt8) : String := String.ofList (bytes.flatMap byte)

def digitsOf (fuel n : Nat) (tail : List Char) : List Char :=
  match fuel with
  | 0 => tail
  | fuel + 1 =>
      if n < 16 then digit n :: tail else digitsOf fuel (n / 16) (digit (n % 16) :: tail)

def ofNat (n : Nat) : List Char := digitsOf (n + 1) n []

end Switchboard.Hex
