import Mathlib.Data.UInt
import Mathlib.Tactic.NormNum
import Mathlib.Tactic.Positivity
import Switchboard.PartitionKey

namespace Switchboard

namespace Hex

def lowerDigits : List Char :=
  ['0', '1', '2', '3', '4', '5', '6', '7', '8', '9', 'a', 'b', 'c', 'd', 'e', 'f']

def value (text : String) : Nat := text.toList.foldl (fun n c => 16 * n + lowerDigits.idxOf c) 0

theorem digit_mem : ∀ n < 16, digit n ∈ lowerDigits := by decide

theorem idxOf_digit : ∀ n < 16, lowerDigits.idxOf (digit n) = n := by decide

theorem byte_halves (b : UInt8) : b.toNat / 16 < 16 ∧ b.toNat % 16 < 16 := by
  have hb := b.toNat_lt
  omega

theorem length_encode (bytes : List UInt8) : (encode bytes).length = 2 * bytes.length := by
  rw [encode, String.length_ofList]
  induction bytes with
  | nil => rfl
  | cons b bytes ih =>
      rw [List.flatMap_cons, List.length_append, ih, List.length_cons]
      simp only [byte, List.length_cons, List.length_nil]
      omega

theorem mem_encode {bytes : List UInt8} {c : Char} (h : c ∈ (encode bytes).toList) :
    c ∈ lowerDigits := by
  rw [encode, String.toList_ofList] at h
  obtain ⟨b, -, hc⟩ := List.mem_flatMap.1 h
  obtain ⟨hhigh, hlow⟩ := byte_halves b
  simp only [byte, List.mem_cons, List.not_mem_nil, or_false] at hc
  rcases hc with rfl | rfl
  · exact digit_mem _ hhigh
  · exact digit_mem _ hlow

theorem value_encode (bytes : List UInt8) : value (encode bytes) = PartitionKey.numberBE bytes := by
  have hfold (n : Nat) : (bytes.flatMap byte).foldl (fun n c => 16 * n + lowerDigits.idxOf c) n =
      bytes.foldl (fun n b => 256 * n + b.toNat) n := by
    induction bytes generalizing n with
    | nil => rfl
    | cons b bytes ih =>
        obtain ⟨hhigh, hlow⟩ := byte_halves b
        have hpair : 16 * (16 * n + b.toNat / 16) + b.toNat % 16 = 256 * n + b.toNat := by omega
        rw [List.flatMap_cons, List.foldl_append, ih]
        simp only [byte, List.foldl_cons, List.foldl_nil, idxOf_digit _ hhigh, idxOf_digit _ hlow,
          hpair]
  rw [value, encode, String.toList_ofList, hfold, PartitionKey.numberBE]

end Hex

abbrev Digest := Vector UInt8 32

namespace Digest

def head (d : Digest) : List UInt8 := d.toList.take 8

def fingerprint (d : Digest) : String := Hex.encode d.head

def push (w : UInt64) (b : UInt8) : UInt64 := w <<< 8 ||| b.toUInt64

def wordBE (bytes : List UInt8) : UInt64 := bytes.foldl push 0

/-- The partition as it is found in words: a word of 64 bits is reduced, then narrowed to 32. -/
def partition (d : Digest) (count : UInt32) : UInt32 :=
  (wordBE d.head % (max count 1).toUInt64).toUInt32

theorem length_head (d : Digest) : d.head.length = 8 := by
  simp [head]

theorem toNat_push {w : UInt64} (b : UInt8) (h : 256 * (w.toNat + 1) ≤ 2 ^ 64) :
    (push w b).toNat = 256 * w.toNat + b.toNat := by
  have hfit : 2 ^ 8 * w.toNat < 2 ^ 64 := by omega
  have hshift : (w <<< 8).toNat = 2 ^ 8 * w.toNat := by
    rw [UInt64.toNat_shiftLeft, Nat.shiftLeft_eq, Nat.mul_comm]
    exact Nat.mod_eq_of_lt hfit
  rw [push, UInt64.toNat_or, UInt8.toNat_toUInt64, hshift,
    ← Nat.two_pow_add_eq_or_of_lt b.toNat_lt]

theorem toNat_pushAll {bytes : List UInt8} {w : UInt64}
    (h : 256 ^ bytes.length * (w.toNat + 1) ≤ 2 ^ 64) :
    (bytes.foldl push w).toNat = bytes.foldl (fun n b => 256 * n + b.toNat) w.toNat := by
  induction bytes generalizing w with
  | nil => rfl
  | cons b bytes ih =>
      have hb := b.toNat_lt
      rw [List.length_cons, pow_succ, mul_assoc] at h
      -- There is room for this byte, since there is room for it and those that follow.
      have hroom : 256 * (w.toNat + 1) ≤ 2 ^ 64 :=
        (Nat.le_mul_of_pos_left _ (by positivity)).trans h
      have hpush := toNat_push b hroom
      have hrest : 256 ^ bytes.length * ((push w b).toNat + 1) ≤ 2 ^ 64 := by
        refine (Nat.mul_le_mul_left _ ?_).trans h
        omega
      rw [List.foldl_cons, List.foldl_cons, ih hrest, hpush]

theorem toNat_wordBE {bytes : List UInt8} (h : bytes.length ≤ 8) :
    (wordBE bytes).toNat = PartitionKey.numberBE bytes := by
  refine toNat_pushAll ?_
  calc 256 ^ bytes.length * (0 + 1) = 256 ^ bytes.length := by rw [zero_add, mul_one]
    _ ≤ 256 ^ 8 := Nat.pow_le_pow_right (by omega) h
    _ = 2 ^ 64 := by norm_num

theorem toNat_partition (d : Digest) (count : UInt32) :
    (d.partition count).toNat = PartitionKey.numberBE d.head % max count.toNat 1 := by
  have hmax : (max count 1).toNat = max count.toNat 1 := UInt32.toNat_max count 1
  have hcount := count.toNat_lt
  have hlt : PartitionKey.numberBE d.head % max count.toNat 1 < 2 ^ 32 :=
    (Nat.mod_lt _ (by omega)).trans (by omega)
  rw [partition, UInt64.toNat_toUInt32, UInt64.toNat_mod, UInt32.toNat_toUInt64, hmax,
    toNat_wordBE d.length_head.le, Nat.mod_eq_of_lt hlt]

theorem read_fingerprint (d : Digest) (count : UInt32) :
    (d.partition count).toNat = Hex.value d.fingerprint % max count.toNat 1 := by
  rw [toNat_partition, fingerprint, Hex.value_encode]

theorem partition_eq (k : PartitionKey) (count : UInt32) :
    (Digest.partition k.digest count).toNat = k.partition count.toNat :=
  toNat_partition k.digest count

end Digest

structure ReadOff (fingerprint : PartitionKey → String) (partition : PartitionKey → UInt32 → Nat) :
    Prop where
  length : ∀ k, (fingerprint k).length = 16
  digits : ∀ k, ∀ c ∈ (fingerprint k).toList, c ∈ Hex.lowerDigits
  read : ∀ k count, partition k count = Hex.value (fingerprint k) % max count.toNat 1
  bounded : ∀ k count, partition k count < max count.toNat 1
  together : ∀ k l, fingerprint k = fingerprint l → ∀ count, partition k count = partition l count

theorem readOff_of_digest (digest : PartitionKey → Digest) :
    ReadOff (fun k => (digest k).fingerprint) fun k count => ((digest k).partition count).toNat where
  length k := by rw [Digest.fingerprint, Hex.length_encode, Digest.length_head]
  digits k c hc := Hex.mem_encode hc
  read k count := Digest.read_fingerprint (digest k) count
  bounded k count := by
    rw [Digest.read_fingerprint]
    exact Nat.mod_lt _ (by omega)
  together k l h count := by
    simp only [Digest.read_fingerprint, h]

theorem partition_read_off (hash : List UInt8 → Digest) :
    ReadOff PartitionKey.fingerprint (fun k count => k.partition count.toNat) ∧
      ReadOff (fun k => (hash k.preimage).fingerprint)
        (fun k count => ((hash k.preimage).partition count).toNat) ∧
      ∀ (k : PartitionKey) (count : UInt32),
        (Digest.partition (Sha256.hash k.preimage) count).toNat = k.partition count.toNat := by
  refine ⟨?_, readOff_of_digest _, Digest.partition_eq⟩
  have h : ReadOff PartitionKey.fingerprint fun k count =>
      (Digest.partition k.digest count).toNat := readOff_of_digest PartitionKey.digest
  simpa only [Digest.partition_eq] using h

end Switchboard
