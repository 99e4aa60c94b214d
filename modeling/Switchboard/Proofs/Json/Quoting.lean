import Mathlib.Tactic.IntervalCases
import Switchboard.Json.Reader
import Switchboard.Json.Text

namespace Switchboard.Json

variable {c : Char} {cs ds rest rest' : List Char} {s t : String}

namespace Reader

theorem hexValue?_digit {n : Nat} (h : n < 16) : hexValue? (Hex.digit n) = some n := by
  interval_cases n <;> decide

theorem string?_raw (hquote : c ≠ '"') (hslash : c ≠ '\\') (hcontrol : 32 ≤ c.toNat) :
    string? none (c :: rest) = (string? none rest).map fun (s, r) => (c :: s, r) := by
  rw [string?.eq_def]
  split <;> simp_all

theorem string?_control (hcontrol : c.toNat < 32) :
    string? none ('\\' :: 'u' :: '0' :: '0' ::
        Hex.digit (c.toNat / 16) :: Hex.digit (c.toNat % 16) :: rest) =
      (string? none rest).map fun (s, r) => (c :: s, r) := by
  have hhigh := hexValue?_digit (n := c.toNat / 16) (by omega)
  have hlow := hexValue?_digit (n := c.toNat % 16) (by omega)
  have hzero : hexValue? '0' = some 0 := by decide
  have hhex : hex4? '0' '0' (Hex.digit (c.toNat / 16)) (Hex.digit (c.toNat % 16)) =
      some c.toNat := by
    simp only [hex4?, hhigh, hlow, hzero, Option.pure_def, Option.bind_eq_bind, Option.bind_some,
      Option.some.injEq]
    omega
  have hplain : isHigh c.toNat = false ∧ isLow c.toNat = false := by
    simp only [isHigh, isLow, Bool.and_eq_false_iff, decide_eq_false_iff_not]
    omega
  rw [string?.eq_def]
  simp only [hhex, hplain, Bool.false_eq_true, if_false, Char.ofNat_toNat]

theorem string?_escape (c : Char) (rest : List Char) :
    string? none (escape c ++ rest) = (string? none rest).map fun (s, r) => (c :: s, r) := by
  unfold escape
  split
  iterate 5 rfl
  next hquote hslash _ _ _ =>
    split
    · next hcode =>
        obtain rfl : c = Char.ofNat 8 := by rw [← hcode, Char.ofNat_toNat]
        rfl
    split
    · next hcode =>
        obtain rfl : c = Char.ofNat 12 := by rw [← hcode, Char.ofNat_toNat]
        rfl
    split
    · next hcontrol => exact string?_control hcontrol
    · next hcontrol => exact string?_raw hquote hslash (Nat.not_lt.1 hcontrol)

theorem string?_flatMap_escape (cs rest : List Char) :
    string? none (cs.flatMap escape ++ '"' :: rest) = some (cs, rest) := by
  induction cs with
  | nil => rfl
  | cons c cs ih =>
      rw [List.flatMap_cons, List.append_assoc, string?_escape, ih]
      rfl

end Reader

theorem toList_quote (s : String) :
    (quote s).toList = '"' :: (s.toList.flatMap escape ++ ['"']) := by
  simp [quote]

theorem quote_append_inj (h : (quote s).toList ++ rest = (quote t).toList ++ rest') :
    s = t ∧ rest = rest' := by
  have hbody (u : String) (r : List Char) :
      (quote u).toList ++ r = '"' :: (u.toList.flatMap escape ++ '"' :: r) := by
    simp [toList_quote]
  rw [hbody, hbody, List.cons_inj_right] at h
  have hread := congrArg (Reader.string? none) h
  rw [Reader.string?_flatMap_escape, Reader.string?_flatMap_escape] at hread
  simpa [String.toList_inj] using hread

end Switchboard.Json
