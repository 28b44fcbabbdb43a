import Mathlib.Algebra.Ring.Nat
import Mathlib.Data.Char
import Mathlib.Data.List.Lex

/-!
# Zero-padded numerals

Decimal numerals filled with zeros to a width. As long as the width suffices, they sort as texts in
the order of the numbers.
-/

namespace Kaeyris.Lib.Decimals

/-- `%0{width}d` of a natural number. A number too long for the width is not cut. -/
def zeroPadded (width n : Nat) : List Char := List.leftpad width '0' (Nat.toDigits 10 n)

def lastDigits : Nat → Nat → List Char
  | 0, _ => []
  | width + 1, n => lastDigits width (n / 10) ++ [Nat.digitChar (n % 10)]

@[simp] theorem length_lastDigits (width n : Nat) : (lastDigits width n).length = width := by
  induction width generalizing n with
  | zero => rfl
  | succ width ih => simp [lastDigits, ih]

theorem leftpad_append_singleton (width : Nat) (fill last : Char) (front : List Char) :
    List.leftpad (width + 1) fill (front ++ [last]) = List.leftpad width fill front ++ [last] := by
  simp [List.leftpad]

theorem lastDigits_zero (width : Nat) : lastDigits width 0 = List.replicate width '0' := by
  induction width with
  | zero => rfl
  | succ width ih =>
      rw [lastDigits, Nat.zero_div, ih, List.replicate_succ']
      rfl

theorem zeroPadded_eq {width n : Nat} (fits : n < 10 ^ (width + 1)) :
    zeroPadded (width + 1) n = lastDigits (width + 1) n := by
  induction width generalizing n with
  | zero =>
      have small : n < 10 := by simpa using fits
      simp [zeroPadded, lastDigits, Nat.toDigits_of_lt_base small, Nat.mod_eq_of_lt small,
        List.leftpad]
  | succ width ih =>
      rcases Nat.lt_or_ge n 10 with small | large
      · rw [lastDigits, Nat.div_eq_of_lt small, lastDigits_zero, Nat.mod_eq_of_lt small, zeroPadded,
          Nat.toDigits_of_lt_base small]
        simp [List.leftpad]
      · have shorter : n / 10 < 10 ^ (width + 1) := by
          rw [Nat.div_lt_iff_lt_mul (by omega), ← Nat.pow_succ]
          exact fits
        rw [lastDigits, ← ih shorter, zeroPadded, Nat.toDigits_of_base_le (by omega) large,
          leftpad_append_singleton, zeroPadded]

theorem digitChar_lt {a b : Nat} (less : a < b) (digit : b < 10) :
    Nat.digitChar a < Nat.digitChar b := by
  have first := Nat.toNat_digitChar_of_lt_ten (Nat.lt_trans less digit)
  have second := Nat.toNat_digitChar_of_lt_ten digit
  show (Nat.digitChar a).toNat < (Nat.digitChar b).toNat
  omega

theorem append_lt_append {s t : List Char} (less : s < t) (same : s.length = t.length)
    (u v : List Char) : s ++ u < t ++ v := by
  induction s generalizing t with
  | nil =>
      have empty := List.length_eq_zero_iff.mp same.symm
      rw [empty] at less
      exact absurd less (List.lt_irrefl _)
  | cons a s ih =>
      cases t with
      | nil => cases same
      | cons b t =>
          rw [List.cons_append, List.cons_append, List.cons_lt_cons_iff]
          rcases List.cons_lt_cons_iff.mp less with first | ⟨equal, rest⟩
          · exact .inl first
          · exact .inr ⟨equal, ih rest (Nat.succ.inj same)⟩

theorem lastDigits_lt {width a b : Nat} (less : a < b) (fits : b < 10 ^ width) :
    lastDigits width a < lastDigits width b := by
  induction width generalizing a b with
  | zero =>
      have : b < 1 := by simpa using fits
      omega
  | succ width ih =>
      have shorter : b / 10 < 10 ^ width := by
        rw [Nat.div_lt_iff_lt_mul (by omega), ← Nat.pow_succ]
        exact fits
      have tens : a / 10 ≤ b / 10 := Nat.div_le_div_right (Nat.le_of_lt less)
      rcases Nat.lt_or_eq_of_le tens with front | equal
      · exact append_lt_append (ih front shorter) (by simp) _ _
      · rw [lastDigits, lastDigits, equal]
        apply List.append_left_lt
        rw [List.cons_lt_cons_iff]
        exact .inl (digitChar_lt (by omega) (by omega))

theorem zeroPadded_lt {width a b : Nat} (less : a < b) (fits : b < 10 ^ (width + 1)) :
    zeroPadded (width + 1) a < zeroPadded (width + 1) b := by
  rw [zeroPadded_eq (Nat.lt_trans less fits), zeroPadded_eq fits]
  exact lastDigits_lt less fits

theorem length_zeroPadded {width n : Nat} (fits : n < 10 ^ (width + 1)) :
    (zeroPadded (width + 1) n).length = width + 1 := by
  rw [zeroPadded_eq fits, length_lastDigits]

end Kaeyris.Lib.Decimals
