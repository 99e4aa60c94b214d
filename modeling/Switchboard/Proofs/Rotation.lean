import Mathlib.Data.Int.CardIntervalMod
import Mathlib.Data.List.Rotate

namespace Switchboard

variable {α : Type} {xs : List α} {x : α} {c i j k : Nat}

def around (xs : List α) : Nat → Nat → List α
  | _, 0 => []
  | c, k + 1 => (xs[c % xs.length]?).toList ++ around xs (c + 1) k

theorem getElem?_mod_eq_some_iff (hxs : xs.Nodup) (hi : xs[i]? = some x) :
    xs[j % xs.length]? = some x ↔ j ≡ i [MOD xs.length] := by
  have hlt : i < xs.length := (List.getElem?_eq_some_iff.1 hi).1
  have hmod : j % xs.length < xs.length := Nat.mod_lt _ (Nat.zero_lt_of_lt hlt)
  rw [← hi, List.getElem?_inj hmod hxs, Nat.ModEq, Nat.mod_eq_of_lt hlt]

theorem exists_getElem?_mod (h : xs ≠ []) (c : Nat) : ∃ x ∈ xs, xs[c % xs.length]? = some x := by
  have hlt : c % xs.length < xs.length := Nat.mod_lt _ (List.length_pos_iff.2 h)
  exact ⟨_, List.getElem_mem hlt, List.getElem?_eq_getElem hlt⟩

theorem around_succ (h : xs ≠ []) (c k : Nat) :
    ∃ x, xs[c % xs.length]? = some x ∧ around xs c (k + 1) = x :: around xs (c + 1) k := by
  obtain ⟨x, -, hx⟩ := exists_getElem?_mod h c
  exact ⟨x, hx, by rw [around, hx]; rfl⟩

theorem getElem?_around (h : xs ≠ []) (hj : j < k) :
    (around xs c k)[j]? = xs[(c + j) % xs.length]? := by
  induction k generalizing c j with
  | zero => omega
  | succ k ih =>
      obtain ⟨x, hx, hsucc⟩ := around_succ h c k
      rw [hsucc]
      cases j with
      | zero => exact hx.symm
      | succ j => rw [List.getElem?_cons_succ, ih (by omega), Nat.add_assoc, Nat.add_comm 1]

theorem length_around (h : xs ≠ []) (c k : Nat) : (around xs c k).length = k := by
  induction k generalizing c with
  | zero => rfl
  | succ k ih =>
      obtain ⟨x, -, hsucc⟩ := around_succ h c k
      rw [hsucc, List.length_cons, ih]

theorem round_around (hj : j + xs.length ≤ k) :
    ((around xs c k).drop j).take xs.length = xs.rotate (c + j) := by
  cases hxs : xs with
  | nil => rfl
  | cons x rest =>
      have hne : xs ≠ [] := by simp [hxs]
      rw [← hxs]
      refine List.ext_getElem? fun i => ?_
      by_cases hi : i < xs.length
      · rw [List.getElem?_take_of_lt hi, List.getElem?_drop, getElem?_around hne (by omega),
          List.getElem?_rotate hi, Nat.add_comm i, Nat.add_assoc]
      · rw [List.getElem?_eq_none (by simp; omega), List.getElem?_eq_none (by simp; omega)]

variable [DecidableEq α]

theorem count_getElem?_mod (hxs : xs.Nodup) (hi : xs[i]? = some x) (c k : Nat) :
    Nat.count (fun j => xs[(c + j) % xs.length]? = some x) k = k / xs.length +
      if (i + (xs.length - c % xs.length)) % xs.length < k % xs.length then 1 else 0 := by
  have hpos : 0 < xs.length := Nat.zero_lt_of_lt (List.getElem?_eq_some_iff.1 hi).1
  -- The place `c` itself is taken away again by what is missing to its round.
  have hround : c + (xs.length - c % xs.length) ≡ 0 [MOD xs.length] := by
    have hlt := Nat.mod_lt c hpos
    have hsum : c + (xs.length - c % xs.length) = xs.length * (c / xs.length + 1) := by
      have hdiv := Nat.div_add_mod c xs.length
      rw [Nat.mul_succ]
      omega
    rw [hsum]
    exact (Nat.modEq_zero_iff_dvd).2 (Nat.dvd_mul_right ..)
  have hshift (j : Nat) : xs[(c + j) % xs.length]? = some x ↔
      j ≡ i + (xs.length - c % xs.length) [MOD xs.length] := by
    have hback : c + j + (xs.length - c % xs.length) ≡ j [MOD xs.length] := by
      have hsum := hround.add_right j
      rwa [Nat.zero_add, Nat.add_right_comm] at hsum
    rw [getElem?_mod_eq_some_iff hxs hi]
    constructor
    · exact fun h => hback.symm.trans (h.add_right _)
    · exact fun h => Nat.ModEq.add_right_cancel' _ (hback.trans h)
  simp only [hshift]
  exact Nat.count_modEq_card k hpos _

theorem count_around_eq (c k : Nat) (x : α) :
    (around xs c k).count x = Nat.count (fun j => xs[(c + j) % xs.length]? = some x) k := by
  induction k generalizing c with
  | zero => rfl
  | succ k ih =>
      have hfirst : (xs[c % xs.length]?).toList.count x =
          if xs[(c + 0) % xs.length]? = some x then 1 else 0 := by
        cases xs[c % xs.length]? <;> simp [List.count_singleton]
      rw [around, List.count_append, ih, hfirst, Nat.count_succ', Nat.add_comm]
      simp only [Nat.add_assoc, Nat.add_comm 1]

theorem count_around (hxs : xs.Nodup) (hx : x ∈ xs) (c k : Nat) :
    (around xs c k).count x = k / xs.length ∨
      (around xs c k).count x = (k + xs.length - 1) / xs.length := by
  obtain ⟨i, hi⟩ := List.mem_iff_getElem?.1 hx
  have hpos : 0 < xs.length := Nat.zero_lt_of_lt (List.getElem?_eq_some_iff.1 hi).1
  rw [count_around_eq, count_getElem?_mod hxs hi]
  split
  · next hlt =>
      refine Or.inr ?_
      have hdiv := Nat.div_add_mod k xs.length
      have hmod := Nat.mod_lt k hpos
      symm
      rw [Nat.div_eq_iff hpos, Nat.mul_comm, Nat.mul_succ]
      omega
  · exact Or.inl rfl

end Switchboard
