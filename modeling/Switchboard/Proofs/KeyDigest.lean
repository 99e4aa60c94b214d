import Switchboard.PartitionKey
import Switchboard.Proofs.Json.Equality

namespace Switchboard

namespace Bytes

theorem toList_loop (bytes : ByteArray) (i : Nat) (done : List UInt8) :
    ByteArray.toList.loop bytes i done = done.reverse ++ bytes.data.toList.drop i := by
  induction i, done using ByteArray.toList.loop.induct bytes with
  | case1 i done hi ih =>
      have hlt : i < bytes.data.toList.length := by simpa using hi
      rw [ByteArray.toList.loop, if_pos hi, ih, List.drop_eq_getElem_cons hlt]
      simp [ByteArray.get!, hi]
  | case2 i done hi =>
      rw [ByteArray.toList.loop, if_neg hi, List.drop_eq_nil_of_le (by simpa using hi)]
      simp

theorem toList_inj {a b : ByteArray} : a.toList = b.toList ↔ a = b := by
  simp only [ByteArray.toList, toList_loop]
  constructor
  · intro h
    exact ByteArray.ext (Array.toList_inj.1 (by simpa using h))
  · rintro rfl
    rfl

end Bytes

namespace PartitionKey

def Ordered (k : PartitionKey) : Prop := k.value.Ordered

def equal (a b : PartitionKey) : Bool := a.value.equal b.value

structure Alike (a b : PartitionKey) : Prop where
  digest : a.digest = b.digest
  fingerprint : a.fingerprint = b.fingerprint
  partition : ∀ count, a.partition count = b.partition count

variable {a b : PartitionKey}

theorem alike_of_preimage (h : a.preimage = b.preimage) : Alike a b := by
  have hdigest : a.digest = b.digest := by rw [digest, digest, h]
  have hhead : a.head = b.head := by rw [head, head, hdigest]
  exact ⟨hdigest, by rw [fingerprint, fingerprint, hhead],
    fun count => by rw [partition, partition, hhead]⟩

theorem preimage_eq_iff : a.preimage = b.preimage ↔ a.value.text = b.value.text := by
  simp only [preimage, String.toUTF8, Bytes.toList_inj, String.toByteArray_inj]
  rw [← String.toList_inj, String.toList_append, String.toList_append, List.append_cancel_left_eq,
    String.toList_inj]

theorem preimage_iff_of_equal (ha : a.Ordered) (hb : b.Ordered) (h : a.equal b = true) :
    a.preimage = b.preimage ↔ a.value.zeroSigns = b.value.zeroSigns := by
  have hparting := (Json.parting_of_equal ha hb h).2 [] []
  rw [preimage_eq_iff, ← String.toList_inj]
  simpa using hparting

theorem alike_of_equal (ha : a.Ordered) (hb : b.Ordered) (h : a.equal b = true) :
    (a.value.zeroSigns = b.value.zeroSigns → Alike a b) ∧
      (a.preimage = b.preimage ↔ a.value.zeroSigns = b.value.zeroSigns) := by
  have hbytes := preimage_iff_of_equal ha hb h
  exact ⟨fun hsigns => alike_of_preimage (hbytes.2 hsigns), hbytes⟩

def limited (bits : UInt64) : PartitionKey :=
  ⟨.object [("tenant", .str "acme"), ("limits", .arr [.double bits, .int 7])]⟩

def limitedLast (bits : UInt64) : PartitionKey :=
  ⟨.object [("limits", .arr [.double bits, .int 7]), ("tenant", .str "acme")]⟩

theorem alike_of_equal_limits :
    Alike (limited 0) (limitedLast 0) ∧ (limited 0).equal (limited 0x8000000000000000) = true ∧
      (limited 0).preimage ≠ (limited 0x8000000000000000).preimage := by
  have hlimits (bits : UInt64) : (Json.arr [.double bits, .int 7]).Ordered :=
    .arr (by simp [Json.Ordered.double, Json.Ordered.int])
  have hordered (bits : UInt64) : (limited bits).Ordered :=
    Json.ordered_object (by simp [hlimits, Json.Ordered.str])
  have hlast : (limitedLast 0).Ordered := Json.ordered_object (by simp [hlimits, Json.Ordered.str])
  have hflipped : (limited 0).equal (limited 0x8000000000000000) = true := by decide
  refine ⟨(alike_of_equal (hordered 0) hlast (by decide)).1 (by decide), hflipped, fun h => ?_⟩
  have hsigns := (alike_of_equal (hordered 0) (hordered _) hflipped).2.1 h
  exact absurd hsigns (by decide)

theorem zeros_routed_apart : ¬∀ a b : PartitionKey, a.Ordered → b.Ordered → a.equal b = true →
    Alike a b := by
  intro h
  have hequal : (⟨.double 0⟩ : PartitionKey).equal ⟨.double 0x8000000000000000⟩ = true := by decide
  have halike := h _ _ (.double 0) (.double 0x8000000000000000) hequal
  exact absurd (halike.partition 271) (by decide +kernel)

end PartitionKey

end Switchboard
