import Kaeyris.Text

/-!
# Python numerals

`int` of a `str`: whitespace around it, a sign, and decimal digits of any script with single
underscores between them.
-/

namespace Kaeyris.Numerals

/-- The zeros of the decimal digits of Unicode 15.0; nine digits follow each of them. -/
def decimalZeros : List Nat :=
  [0x30, 0x660, 0x6f0, 0x7c0, 0x966, 0x9e6, 0xa66, 0xae6, 0xb66, 0xbe6, 0xc66, 0xce6, 0xd66, 0xde6,
    0xe50, 0xed0, 0xf20, 0x1040, 0x1090, 0x17e0, 0x1810, 0x1946, 0x19d0, 0x1a80, 0x1a90, 0x1b50,
    0x1bb0, 0x1c40, 0x1c50, 0xa620, 0xa8d0, 0xa900, 0xa9d0, 0xa9f0, 0xaa50, 0xabf0, 0xff10, 0x104a0,
    0x10d30, 0x11066, 0x110f0, 0x11136, 0x111d0, 0x112f0, 0x11450, 0x114d0, 0x11650, 0x116c0,
    0x11730, 0x118e0, 0x11950, 0x11c50, 0x11d50, 0x11da0, 0x11f50, 0x16a60, 0x16ac0, 0x16b50,
    0x1d7ce, 0x1d7d8, 0x1d7e2, 0x1d7ec, 0x1d7f6, 0x1e140, 0x1e2f0, 0x1e4f0, 0x1e950, 0x1fbf0]

def digitValue (c : Char) : Option Nat :=
  (decimalZeros.find? fun first => first ≤ c.toNat && c.toNat < first + 10).map (c.toNat - ·)

/-- The four separators that `str.isspace` counts are no whitespace for `int`. -/
def isNumeralSpace (c : Char) : Bool :=
  Text.isSpace c && !(28 ≤ c.toNat && c.toNat ≤ 31)

/-- `sys.int_info.default_max_str_digits`. -/
def maxStrDigits : Nat := 4300

def value (digits : List Nat) : Nat := digits.foldl (fun n digit => 10 * n + digit) 0

/-- Runs of digits between single underscores. -/
def isMagnitude (s : Text) : Bool :=
  (s.splitOn '_').all fun group => group ≠ [] && group.all fun c => (digitValue c).isSome

def magnitude (s : Text) : Option Nat :=
  let digits := s.filterMap digitValue
  if isMagnitude s && digits.length ≤ maxStrDigits then some (value digits) else none

/-- `none` where `int` raises `ValueError`. -/
def int (s : Text) : Option Int :=
  match (s.dropWhile isNumeralSpace).rdropWhile isNumeralSpace with
  | '-' :: rest => (magnitude rest).map fun n => -(n : Int)
  | '+' :: rest => (magnitude rest).map Int.ofNat
  | rest => (magnitude rest).map Int.ofNat

def Decimal (s : Text) : Prop := s ≠ [] ∧ ∀ c ∈ s, c.isDigit = true

def decimal (s : Text) : Nat := s.foldl (fun n c => 10 * n + (c.toNat - '0'.toNat)) 0

theorem isDigit_bounds {c : Char} (digit : c.isDigit = true) : 48 ≤ c.toNat ∧ c.toNat ≤ 57 := by
  simp only [Char.isDigit, Bool.and_eq_true, decide_eq_true_eq, ge_iff_le, UInt32.le_iff_toNat_le]
    at digit
  exact digit

theorem digitValue_isDigit {c : Char} (digit : c.isDigit = true) :
    digitValue c = some (c.toNat - '0'.toNat) := by
  obtain ⟨low, high⟩ := isDigit_bounds digit
  have first : (decide (0x30 ≤ c.toNat) && decide (c.toNat < 0x30 + 10)) = true := by
    simp only [Bool.and_eq_true, decide_eq_true_eq]
    omega
  have found : decimalZeros.find? (fun first => first ≤ c.toNat && c.toNat < first + 10) =
      some 0x30 := List.find?_cons_of_pos first
  rw [digitValue, found]
  rfl

theorem isNumeralSpace_isDigit {c : Char} (digit : c.isDigit = true) : isNumeralSpace c = false := by
  obtain ⟨low, high⟩ := isDigit_bounds digit
  unfold isNumeralSpace Text.isSpace
  grind

theorem filterMap_digits {s : Text} (digits : ∀ c ∈ s, c.isDigit = true) :
    s.filterMap digitValue = s.map fun c => c.toNat - '0'.toNat := by
  rw [List.filterMap_congr fun c member => digitValue_isDigit (digits c member)]
  exact congrFun List.filterMap_eq_map s

theorem value_digits (s : Text) : value (s.map fun c => c.toNat - '0'.toNat) = decimal s := by
  rw [value, decimal, List.foldl_map]

theorem isMagnitude_decimal {s : Text} (digits : Decimal s) : isMagnitude s = true := by
  have whole : '_' ∉ s := fun member => by
    have := digits.2 _ member
    revert this
    decide
  have each : (s.all fun c => (digitValue c).isSome) = true := by
    rw [List.all_eq_true]
    intro c member
    rw [digitValue_isDigit (digits.2 c member)]
    rfl
  rw [isMagnitude, List.splitOn_eq_singleton whole, List.all_cons, each]
  simp [digits.1]

theorem int_decimal {s : Text} (digits : Decimal s) :
    int s = if s.length ≤ maxStrDigits then some (decimal s : Int) else none := by
  have untouched : (s.dropWhile isNumeralSpace).rdropWhile isNumeralSpace = s := by
    have front : s.dropWhile isNumeralSpace = s := by
      cases s with
      | nil => rfl
      | cons c rest =>
          exact List.dropWhile_cons_of_neg <| by
            simp [isNumeralSpace_isDigit (digits.2 c List.mem_cons_self)]
    rw [front, List.rdropWhile_eq_self_iff]
    intro some_
    simp [isNumeralSpace_isDigit (digits.2 _ (List.getLast_mem some_))]
  have read : magnitude s = if s.length ≤ maxStrDigits then some (decimal s) else none := by
    simp only [magnitude, isMagnitude_decimal digits, Bool.true_and, decide_eq_true_eq,
      filterMap_digits digits.2, List.length_map, value_digits]
  have unsigned : int s = (magnitude s).map Int.ofNat := by
    rw [int, untouched]
    cases s with
    | nil => rfl
    | cons c rest =>
        have digit := digits.2 c List.mem_cons_self
        split
        · rename_i same
          cases same
          cases digit
        · rename_i same
          cases same
          cases digit
        · rfl
  rw [unsigned, read]
  split
  · rfl
  · rfl

end Kaeyris.Numerals
