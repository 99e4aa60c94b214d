import Mathlib.Data.List.Forall2
import Switchboard.Json.Text
import Switchboard.Proofs.Json.Ordered

namespace Switchboard.Json

def isZero (bits : UInt64) : Bool := bits.toNat % Nat.pow 2 63 = 0

def isNaN (bits : UInt64) : Bool := 2047 * Nat.pow 2 52 < bits.toNat % Nat.pow 2 63

def equalDoubles (a b : UInt64) : Bool := !isNaN a && (a = b || isZero a && isZero b)

mutual

def equal : Json → Json → Bool
  | .null, .null => true
  | .bool a, .bool b => a = b
  | .int m, .int n => m = n
  | .double a, .double b => equalDoubles a b
  | .str s, .str t => s = t
  | .arr vs, .arr ws => equalItems vs ws
  | .obj es, .obj fs => es.length = fs.length && equalEntries es fs
  | _, _ => false

def equalItems : List Json → List Json → Bool
  | [], [] => true
  | v :: vs, w :: ws => v.equal w && equalItems vs ws
  | _, _ => false

def equalEntries : List (String × Json) → List (String × Json) → Bool
  | [], _ => true
  | (name, v) :: es, fs =>
      (match Keyed.find? name fs with
        | some w => v.equal w
        | none => false) && equalEntries es fs

end

mutual

def zeroSigns : Json → List Bool
  | .double bits => if isZero bits then [Decimal.isNegative bits] else []
  | .arr items => zeroSignsItems items
  | .obj entries => zeroSignsEntries entries
  | _ => []

def zeroSignsItems : List Json → List Bool
  | [] => []
  | v :: vs => v.zeroSigns ++ zeroSignsItems vs

def zeroSignsEntries : List (String × Json) → List Bool
  | [] => []
  | (_, v) :: es => v.zeroSigns ++ zeroSignsEntries es

end

variable {v w : Json} {vs ws : List Json} {es fs : List (String × Json)}

theorem equalItems_iff :
    equalItems vs ws = true ↔ List.Forall₂ (fun v w => v.equal w = true) vs ws := by
  induction vs generalizing ws with
  | nil => cases ws <;> simp [equalItems]
  | cons v vs ih => cases ws <;> simp [equalItems, ih]

theorem equalEntries_iff : equalEntries es fs = true ↔
    ∀ e ∈ es, ∃ w, Keyed.find? e.1 fs = some w ∧ e.2.equal w = true := by
  induction es with
  | nil => simp [equalEntries]
  | cons e es ih =>
      obtain ⟨name, v⟩ := e
      cases hw : Keyed.find? name fs <;> simp [equalEntries, hw, ih]

theorem zeroSignsItems_eq : zeroSignsItems vs = vs.flatMap zeroSigns := by
  induction vs with
  | nil => rfl
  | cons v vs ih => simp [zeroSignsItems, ih]

theorem zeroSignsEntries_eq : zeroSignsEntries es = es.flatMap fun e => e.2.zeroSigns := by
  induction es with
  | nil => rfl
  | cons e es ih => simp [zeroSignsEntries, ih]

theorem textItems_eq : textItems vs = vs.map text := by
  induction vs with
  | nil => rfl
  | cons v vs ih => simp [textItems, ih]

theorem textEntries_eq : textEntries es = es.map fun e => quote e.1 ++ ":" ++ e.2.text := by
  induction es with
  | nil => rfl
  | cons e es ih => simp [textEntries, ih]

/-- Two texts with the signs of their zeros. Whatever follows them, they go on alike exactly if the
signs agree. -/
def Parting (p q : List Char) (m n : List Bool) : Prop :=
  m.length = n.length ∧ ∀ s t, p ++ s = q ++ t ↔ m = n ∧ s = t

namespace Parting

variable {p q p' q' : List Char} {m n m' n' : List Bool}

theorem refl (p : List Char) (m : List Bool) : Parting p p m m := by
  simp [Parting]

theorem append (h : Parting p q m n) (h' : Parting p' q' m' n') :
    Parting (p ++ p') (q ++ q') (m ++ m') (n ++ n') := by
  refine ⟨by simp [h.1, h'.1], fun s t => ?_⟩
  have hsigns : m ++ m' = n ++ n' ↔ m = n ∧ m' = n' :=
    ⟨fun hs => List.append_inj hs h.1, fun hs => hs.1 ▸ hs.2 ▸ rfl⟩
  rw [List.append_assoc, List.append_assoc, h.2, h'.2, hsigns, and_assoc]

theorem around (first last : List Char) (h : Parting p q m n) :
    Parting (first ++ p ++ last) (first ++ q ++ last) m n := by
  simpa using ((refl first []).append h).append (refl last [])

theorem join {α : Type} {f : α → List Char} {g : α → List Bool} {xs ys : List α}
    (h : List.Forall₂ (fun x y => Parting (f x) (f y) (g x) (g y)) xs ys) :
    Parting ([','].intercalate (xs.map f)) ([','].intercalate (ys.map f)) (xs.flatMap g)
      (ys.flatMap g) := by
  induction h with
  | nil => exact refl [] []
  | @cons x y xs ys hxy hrest ih =>
      -- A comma follows only where both lists go on.
      cases hrest with
      | nil => simpa using hxy
      | cons hnext hrest =>
          have hcomma := (hxy.append (refl [','] [])).append ih
          simpa [List.intercalate_cons_cons] using hcomma

end Parting

theorem ofBits_of_isZero {bits : UInt64} (h : isZero bits = true) :
    Decimal.Dyadic.ofBits bits = ⟨0, -1074, false⟩ := by
  simp only [isZero, decide_eq_true_iff, Nat.pow_eq, Nat.reducePow] at h
  have hfraction : bits.toNat % 4503599627370496 = 0 := by omega
  have hbiased : bits.toNat / 4503599627370496 % 2048 = 0 := by omega
  simp [Decimal.Dyadic.ofBits, hfraction, hbiased]

theorem text_of_isZero {bits : UInt64} (h : isZero bits = true) :
    (Json.double bits).text.toList =
      if Decimal.isNegative bits then ['-', '0', '.', '0'] else ['0', '.', '0'] := by
  have hrender : numberFormat.render ⟨0, 0⟩ = "0.0" := rfl
  simp only [text, Decimal.Style.text, ofBits_of_isZero h, Decimal.Dyadic.shortest, if_pos, hrender]
  split <;> rfl

theorem parting_of_equalDoubles {a b : UInt64} (h : equalDoubles a b = true) :
    Parting (Json.double a).text.toList (Json.double b).text.toList (Json.double a).zeroSigns
      (Json.double b).zeroSigns := by
  simp only [equalDoubles, Bool.and_eq_true, Bool.or_eq_true, decide_eq_true_iff] at h
  rcases h.2 with rfl | ⟨ha, hb⟩
  · exact .refl _ _
  · rw [text_of_isZero ha, text_of_isZero hb]
    simp only [zeroSigns, ha, hb, if_pos]
    cases Decimal.isNegative a <;> cases Decimal.isNegative b <;> simp [Parting]

theorem Parting.field {name : String}
    (h : Parting v.text.toList w.text.toList v.zeroSigns w.zeroSigns) :
    Parting (quote name ++ ":" ++ v.text).toList (quote name ++ ":" ++ w.text).toList v.zeroSigns
      w.zeroSigns := by
  simpa only [String.toList_append, List.append_nil] using
    h.around ((quote name).toList ++ ":".toList) []

theorem parting_of_equal (hv : v.Ordered) (hw : w.Ordered) (h : v.equal w = true) :
    Parting v.text.toList w.text.toList v.zeroSigns w.zeroSigns := by
  induction hv generalizing w with
  | arr _ ih =>
      cases hw with
      | arr hws =>
          simp only [equal, equalItems_iff] at h
          simp only [text, String.toList_append, String.toList_intercalate, textItems_eq,
            List.map_map, zeroSigns, zeroSignsItems_eq]
          refine .around _ _ (.join (List.forall₂_iff_zip.2 ⟨h.length_eq, ?_⟩))
          intro v w hmem
          obtain ⟨hv, hw⟩ := List.of_mem_zip hmem
          exact ih v hv (hws w hw) (List.forall₂_zip h hmem)
      | _ => simp [equal] at h
  | obj hes _ ih =>
      cases hw with
      | obj hfs hws =>
          simp only [equal, Bool.and_eq_true, decide_eq_true_iff, equalEntries_iff] at h
          have halike := Keyed.forall₂_of_find? (R := fun v w => v.equal w = true) hes hfs h.1 h.2
          simp only [text, String.toList_append, String.toList_intercalate, textEntries_eq,
            List.map_map, zeroSigns, zeroSignsEntries_eq]
          refine .around _ _ (.join (List.forall₂_iff_zip.2 ⟨halike.length_eq, ?_⟩))
          rintro ⟨name, v⟩ ⟨_, w⟩ hmem
          obtain ⟨hv, hw⟩ := List.of_mem_zip hmem
          obtain ⟨rfl, hvw⟩ := List.forall₂_zip halike hmem
          exact (ih _ hv (hws _ hw) hvw).field
      | _ => simp [equal] at h
  | double a =>
      cases hw with
      | double b => exact parting_of_equalDoubles (by simpa [equal] using h)
      | _ => simp [equal] at h
  | _ =>
      cases hw <;> simp_all [equal, Parting.refl]

end Switchboard.Json
