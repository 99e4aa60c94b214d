import Switchboard.Proofs.Json.Meaning
import Switchboard.Proofs.KeyDigest

namespace Switchboard

def Sha256.Collision (p q : List UInt8) : Prop := p ≠ q ∧ hash p = hash q

namespace PartitionKey

def build (v : Json) : PartitionKey := ⟨v.built⟩

variable {v w : Json}

theorem preimage_build (hv : v.built.Exact) (hw : w.built.Exact) :
    (build v).preimage = (build w).preimage ↔ v.meaning = w.meaning := by
  rw [preimage_eq_iff, build, build, Json.text_inj hv hw, Json.built_eq_iff]

theorem equal_build (hv : v.built.Exact) (hw : w.built.Exact) :
    (build v).equal (build w) = true ↔ v.meaning = w.meaning := by
  constructor
  · intro h
    apply (preimage_build hv hw).1
    apply (preimage_iff_of_equal (Json.ordered_built v) (Json.ordered_built w) h).2
    change v.built.zeroSigns = w.built.zeroSigns
    rw [Json.zeroSigns_of_exact hv, Json.zeroSigns_of_exact hw]
  · intro h
    change v.built.equal w.built = true
    rw [Json.built_eq_iff.2 h]
    exact Json.equal_self (Json.ordered_built w) hw

/-- Keys without doubles have the same bytes exactly if they say the same, which is when they are
equal; so other keys share a digest only by a collision of the hash. -/
theorem canonical_preimage (hv : v.built.Exact) (hw : w.built.Exact) :
    ((build v).preimage = (build w).preimage ↔ v.meaning = w.meaning) ∧
      ((build v).equal (build w) = true ↔ v.meaning = w.meaning) ∧
      ((build v).digest = (build w).digest ↔ v.meaning = w.meaning ∨
        Sha256.Collision (build v).preimage (build w).preimage) := by
  have hbytes := preimage_build hv hw
  refine ⟨hbytes, equal_build hv hw, ?_⟩
  constructor
  · intro hdigest
    by_cases hsame : (build v).preimage = (build w).preimage
    · exact Or.inl (hbytes.1 hsame)
    · exact Or.inr ⟨hsame, hdigest⟩
  · rintro (hmeaning | ⟨-, hdigest⟩)
    · exact (alike_of_preimage (hbytes.2 hmeaning)).digest
    · exact hdigest

def order (amount : Json) : Json :=
  .obj [("amount", .int 1), ("tags", .arr [.str "a\"b\n", .null]), ("amount", amount)]

def orderAgain (amount : Json) : Json :=
  .obj [("tags", .arr [.str "a\"b\n", .null]), ("amount", amount)]

theorem canonical_preimage_of_order :
    ((order (.int (-7))).built.Exact ∧ (orderAgain (.int (-7))).built.Exact ∧
      (build (order (.int (-7)))).preimage = (build (orderAgain (.int (-7)))).preimage) ∧
      (orderAgain (.str "-7")).built.Exact ∧
        (build (order (.int (-7)))).preimage ≠ (build (orderAgain (.str "-7"))).preimage := by
  have htags : (Json.arr [.str "a\"b\n", .null]).Exact :=
    .arr (by simp [Json.Exact.str, Json.Exact.null])
  have hfirst : (order (.int (-7))).built.Exact :=
    Json.exact_built (.obj (by simp [htags, Json.Exact.int]))
  have hagain {amount : Json} (h : amount.Exact) : (orderAgain amount).built.Exact :=
    Json.exact_built (.obj (by simp [htags, h]))
  have hmeaning : (order (.int (-7))).meaning = (orderAgain (.int (-7))).meaning := by
    simp only [order, orderAgain, Json.meaning, Json.meaningEntries]
    congr 1
    funext name
    by_cases hname : "amount" = name <;> simp [hname]
  refine ⟨⟨hfirst, hagain (.int _), ?_⟩, hagain (.str _), ?_⟩
  · exact (canonical_preimage hfirst (hagain (.int _))).1.2 hmeaning
  · intro hbytes
    have hsame := (canonical_preimage hfirst (hagain (.str _))).1.1 hbytes
    have hamount := congrFun (Json.Meaning.obj.inj hsame) "amount"
    simp [Json.meaningEntries, Json.meaning] at hamount

end PartitionKey

end Switchboard
