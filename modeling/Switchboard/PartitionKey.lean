import Switchboard.Hash.Sha256
import Switchboard.Json.Text

namespace Switchboard

abbrev PartitionId := Nat

structure PartitionKey where
  value : Json

namespace PartitionKey

def ofValue? (v : Json) : Option PartitionKey := if v.isNull then none else some ⟨v⟩

def preimage (k : PartitionKey) : List UInt8 := ("PARTITION:" ++ k.value.text).toUTF8.toList

def digest (k : PartitionKey) : Vector UInt8 32 := Sha256.hash k.preimage

def digestText (k : PartitionKey) : String := Hex.encode k.digest.toList

def head (k : PartitionKey) : List UInt8 := k.digest.toList.take 8

def fingerprint (k : PartitionKey) : String := Hex.encode k.head

def numberBE (bytes : List UInt8) : Nat := bytes.foldl (fun n b => 256 * n + b.toNat) 0

/-- The partition among `count`; a count of zero is taken as one. -/
def partition (k : PartitionKey) (count : Nat) : PartitionId := numberBE k.head % max count 1

def display (k : PartitionKey) : String :=
  match k.value with
  | .str s => s
  | v => v.text

theorem partition_lt (k : PartitionKey) (count : Nat) : k.partition count < max count 1 :=
  Nat.mod_lt _ (by omega)

end PartitionKey

end Switchboard
