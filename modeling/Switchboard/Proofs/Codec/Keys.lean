import Switchboard.Proofs.Codec.Forms

namespace Switchboard.Codec

inductive Obtained (v : Json) : PartitionKey → Prop
  | made {k : PartitionKey} : PartitionKey.ofValue? v = some k → Obtained v k
  | read {k : PartitionKey} : key? v = some k → Obtained v k

variable {v : Json} {k : PartitionKey}

theorem ofValue?_eq_some : PartitionKey.ofValue? v = some k ↔ k.value = v ∧ v ≠ .null := by
  obtain ⟨value⟩ := k
  cases v <;> simp [PartitionKey.ofValue?, Json.isNull, eq_comm]

theorem Obtained.value_eq (h : Obtained v k) : k.value = v := by
  cases h with
  | made h => exact (ofValue?_eq_some.1 h).1
  | read h => exact ((exact_key k v).1 h).symm

theorem Obtained.valid_iff (h : Obtained v k) : k.Valid ↔ v ≠ .null := by
  rw [PartitionKey.Valid, h.value_eq]

theorem call?_encodeCall (c : Call) :
    (c.Valid → call? (encodeCall c) = some c) ∧
      (¬ c.Valid → call? (encodeCall c) = some { c with key := none }) := by
  refine ⟨fun h => (exact_call c _).2 (written_call h), fun h => ?_⟩
  have hkeyless : ({ c with key := none } : Call).Valid := by simp [Call.Valid]
  have hsame : encodeCall c = encodeCall { c with key := none } := by
    have hnull : encodeOption encodeKey c.key = .null := by
      cases hk : c.key with
      | none => rfl
      | some k =>
          have hvalue : k.value = .null := by simpa [Call.Valid, PartitionKey.Valid, hk] using h
          exact hvalue
    simp only [encodeCall]
    rw [hnull]
    rfl
  rw [hsame]
  exact (exact_call _ _).2 (written_call hkeyless)

theorem valid_of_call? {c : Call} (h : call? v = some c) : c.Valid := by
  intro k hk
  have hform : CallForm c v := (exact_call c v).1 h
  obtain ⟨o, hkey⟩ := hform.field (f := ("partition_key", Optional (c.key.map KeyForm))) (by simp)
  rw [hk] at hkey
  cases hkey with
  | given hnull hF => exact fun hvalue => hnull (hF.trans hvalue)

/-- Only a null that is read by itself comes to a null key; one that is made, or read as part of a
call, is never null. A call keeps its key exactly if it is not null. -/
theorem null_key_lost (h : Obtained v k) :
    (k.value = .null ↔ v = .null ∧ PartitionKey.ofValue? v = none) ∧
      (∀ w c, call? w = some c → c.Valid) ∧
      ∀ c : Call, c.key = some k →
        (v ≠ .null → call? (encodeCall c) = some c) ∧
          (v = .null → call? (encodeCall c) = some { c with key := none }) := by
  have hvalid := h.valid_iff
  refine ⟨?_, fun _ _ hc => valid_of_call? hc, fun c hk => ⟨fun hv => ?_, fun hv => ?_⟩⟩
  · rw [h.value_eq]
    refine ⟨fun hv => ⟨hv, ?_⟩, And.left⟩
    rw [hv]
    rfl
  · refine (call?_encodeCall c).1 fun k' hk' => ?_
    rw [hk] at hk'
    cases hk'
    exact hvalid.2 hv
  · refine (call?_encodeCall c).2 fun hc => ?_
    exact hvalid.1 (hc k hk) hv

def order (k : PartitionKey) : Call := ⟨"s", "Orders", "place", ["Order"], [.int 1], some k⟩

theorem null_key_lost_of_orders :
    call? (encodeCall (order ⟨.str "o-1"⟩)) = some (order ⟨.str "o-1"⟩) ∧
      call? (encodeCall (order ⟨.null⟩)) = some { order ⟨.null⟩ with key := none } := by
  have hmade : Obtained (.str "o-1") ⟨.str "o-1"⟩ := .made rfl
  have hread : Obtained .null ⟨.null⟩ := .read rfl
  exact ⟨((null_key_lost hmade).2.2 _ rfl).1 (by simp), ((null_key_lost hread).2.2 _ rfl).2 rfl⟩

theorem null_read_as_key :
    ¬ (∀ v k, Obtained v k → k.value ≠ .null) ∧
      ¬ ∀ v k, Obtained v k → ∀ c : Call, c.key = some k →
        ∃ d, call? (encodeCall c) = some d ∧ d.key = some k := by
  have hread : Obtained .null ⟨.null⟩ := .read rfl
  have hlost : call? (encodeCall (order ⟨.null⟩)) = some { order ⟨.null⟩ with key := none } :=
    (call?_encodeCall _).2 (by simp [Call.Valid, PartitionKey.Valid, order])
  refine ⟨fun h => h _ _ hread rfl, fun h => ?_⟩
  obtain ⟨d, hd, hkey⟩ := h _ _ hread (order ⟨.null⟩) rfl
  rw [hlost] at hd
  cases hd
  cases hkey

end Switchboard.Codec
