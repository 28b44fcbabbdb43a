import Mathlib.Data.List.DropRight

/-!
# Python text

A `str` is the list of its code points. `isSpace` is `str.isspace` on one character, which is also
what `\s` matches in a `str` pattern.
-/

namespace Kaeyris

abbrev Text := List Char

namespace Text

def isSpace (c : Char) : Bool :=
  let n := c.toNat
  (9 ≤ n && n ≤ 13) || (28 ≤ n && n ≤ 32) || n == 0x85 || n == 0xa0 || n == 0x1680 ||
    (0x2000 ≤ n && n ≤ 0x200a) || n == 0x2028 || n == 0x2029 || n == 0x202f || n == 0x205f ||
    n == 0x3000

def lstrip (s : Text) : Text := s.dropWhile isSpace

def rstrip (s : Text) : Text := s.rdropWhile isSpace

def strip (s : Text) : Text := rstrip (lstrip s)

def Blank (s : Text) : Prop := ∀ c ∈ s, isSpace c

instance (s : Text) : Decidable s.Blank := List.decidableBAll (fun c => isSpace c = true) s

def join (separator : Text) (parts : List Text) : Text := separator.intercalate parts

/-- What `repr` escapes: control and format characters, blanks but for the space, private use. -/
def unprintable : List (Nat × Nat) :=
  [(0, 0x1f), (0x7f, 0xa0), (0xad, 0xad), (0x600, 0x605), (0x61c, 0x61c), (0x6dd, 0x6dd),
    (0x70f, 0x70f), (0x890, 0x891), (0x8e2, 0x8e2), (0x1680, 0x1680), (0x180e, 0x180e),
    (0x2000, 0x200f), (0x2028, 0x202f), (0x205f, 0x2064), (0x2066, 0x206f), (0x3000, 0x3000),
    (0xe000, 0xf8ff), (0xfeff, 0xfeff), (0xfff9, 0xfffb), (0x110bd, 0x110bd), (0x110cd, 0x110cd),
    (0x13430, 0x1343f), (0x1bca0, 0x1bca3), (0x1d173, 0x1d17a), (0xe0001, 0xe0001),
    (0xe0020, 0xe007f), (0xf0000, 0xffffd), (0x100000, 0x10fffd)]

/-- Code points that no character is assigned to count as printable. -/
def isPrintable (c : Char) : Bool :=
  !unprintable.any fun range => range.1 ≤ c.toNat && c.toNat ≤ range.2

def escapeHex (c : Char) : Text :=
  let digits := Nat.toDigits 16 c.toNat
  if c.toNat < 0x100 then '\\' :: 'x' :: digits.leftpad 2 '0'
  else if c.toNat < 0x10000 then '\\' :: 'u' :: digits.leftpad 4 '0'
  else '\\' :: 'U' :: digits.leftpad 8 '0'

def reprChar (quote c : Char) : Text :=
  if c = quote || c = '\\' then ['\\', c]
  else if c = '\t' then ['\\', 't']
  else if c = '\n' then ['\\', 'n']
  else if c = '\r' then ['\\', 'r']
  else if isPrintable c then [c]
  else escapeHex c

/-- `repr` of a `str`: double quotes only where single ones would have to be escaped. -/
def repr (s : Text) : Text :=
  let single := Char.ofNat 0x27
  let quote := if s.contains single && !s.contains '"' then '"' else single
  quote :: s.flatMap (reprChar quote) ++ [quote]

example : repr "L\x27\u00e9t\u00e9 \\\n".toList = "\"L\x27\u00e9t\u00e9 \\\\\\n\"".toList := by
  decide

theorem rstrip_eq_nil {s : Text} : rstrip s = [] ↔ s.Blank := by
  simp [rstrip, Blank, List.rdropWhile_eq_nil_iff]

theorem blank_append {s t : Text} : Blank (s ++ t) ↔ s.Blank ∧ t.Blank := by
  simp only [Blank, List.mem_append]
  exact ⟨fun h => ⟨fun c m => h c (.inl m), fun c m => h c (.inr m)⟩,
    fun h c m => m.elim (h.1 c) (h.2 c)⟩

theorem blank_lstrip {s : Text} : (lstrip s).Blank ↔ s.Blank := by
  have parts := List.takeWhile_append_dropWhile (p := isSpace) (l := s)
  have front : Blank (s.takeWhile isSpace) := fun c m => List.mem_takeWhile_imp m
  constructor
  · intro rest
    rw [← parts]
    exact blank_append.mpr ⟨front, rest⟩
  · exact fun all c m => all c ((List.dropWhile_suffix _).mem m)

theorem strip_eq_nil {s : Text} : strip s = [] ↔ s.Blank := by
  rw [strip, rstrip_eq_nil, blank_lstrip]

theorem blank_rstrip {s : Text} : (rstrip s).Blank ↔ s.Blank := by
  have reversed : (rstrip s).Blank ↔ (lstrip s.reverse).Blank := by
    simp [rstrip, lstrip, List.rdropWhile, Blank]
  rw [reversed, blank_lstrip]
  simp [Blank]

theorem blank_strip {s : Text} : (strip s).Blank ↔ s.Blank := by
  rw [strip, blank_rstrip, blank_lstrip]

def Trimmed (s : Text) : Prop := (∀ c ∈ s.head?, ¬isSpace c) ∧ ∀ c ∈ s.getLast?, ¬isSpace c

theorem lstrip_head (s : Text) : ∀ c ∈ (lstrip s).head?, ¬isSpace c := by
  intro c first
  have kept := List.head?_dropWhile_not isSpace s
  rw [← lstrip, Option.mem_def.mp first] at kept
  simpa using kept

theorem rstrip_last (s : Text) : ∀ c ∈ (rstrip s).getLast?, ¬isSpace c := by
  intro c last
  rw [rstrip, List.rdropWhile, List.getLast?_reverse] at last
  exact lstrip_head s.reverse c last

theorem lstrip_of_head {s : Text} (clean : ∀ c ∈ s.head?, ¬isSpace c) : lstrip s = s := by
  cases s with
  | nil => rfl
  | cons c s => exact List.dropWhile_cons_of_neg (clean c rfl)

theorem rstrip_of_last {s : Text} (clean : ∀ c ∈ s.getLast?, ¬isSpace c) : rstrip s = s := by
  have reversed : lstrip s.reverse = s.reverse := by
    apply lstrip_of_head
    simpa using clean
  rw [rstrip, List.rdropWhile, ← lstrip, reversed, List.reverse_reverse]

theorem rstrip_parts (s : Text) : ∃ blank, Blank blank ∧ s = rstrip s ++ blank := by
  refine ⟨s.rtakeWhile isSpace, ?_, ?_⟩
  · intro c member
    exact List.mem_rtakeWhile_imp member
  · exact List.rdropWhile_append_rtakeWhile.symm

theorem lstrip_parts (s : Text) : ∃ blank, Blank blank ∧ s = blank ++ lstrip s := by
  refine ⟨s.takeWhile isSpace, ?_, ?_⟩
  · intro c member
    exact List.mem_takeWhile_imp member
  · exact List.takeWhile_append_dropWhile.symm

theorem rstrip_head {s : Text} (clean : ∀ c ∈ s.head?, ¬isSpace c) :
    ∀ c ∈ (rstrip s).head?, ¬isSpace c := by
  intro c first
  obtain ⟨blank, -, parts⟩ := rstrip_parts s
  apply clean
  rw [parts]
  cases shape : rstrip s with
  | nil => simp [shape] at first
  | cons d rest => simpa [shape] using first

theorem strip_trimmed (s : Text) : (strip s).Trimmed :=
  ⟨rstrip_head (lstrip_head s), rstrip_last _⟩

theorem strip_of_trimmed {s : Text} (trimmed : s.Trimmed) : strip s = s := by
  rw [strip, lstrip_of_head trimmed.1, rstrip_of_last trimmed.2]

theorem strip_strip (s : Text) : strip (strip s) = strip s :=
  strip_of_trimmed (strip_trimmed s)

theorem strip_length_le (s : Text) : (strip s).length ≤ s.length :=
  (List.rdropWhile_prefix (p := isSpace) (lstrip s)).length_le.trans
    (List.dropWhile_suffix isSpace).length_le

/-! ## Words -/

def words (s : Text) : List Text := (s.splitOnP isSpace).filter (· ≠ [])

theorem words_append_cons (s t : Text) {c : Char} (space : isSpace c) :
    words (s ++ c :: t) = words s ++ words t := by
  rw [words, List.splitOnP_append_cons s t space, List.filter_append]
  rfl

theorem words_blank_append {blank : Text} (spaces : blank.Blank) (s : Text) :
    words (blank ++ s) = words s := by
  induction blank with
  | nil => rfl
  | cons c blank ih =>
      have first := words_append_cons [] (blank ++ s) (spaces c (by simp))
      rw [ih fun d member => spaces d (List.mem_cons_of_mem _ member)] at first
      exact first

theorem words_append_blank (s : Text) {blank : Text} (spaces : blank.Blank) :
    words (s ++ blank) = words s := by
  cases blank with
  | nil => rw [List.append_nil]
  | cons c blank =>
      have rest := words_blank_append (fun d member => spaces d (List.mem_cons_of_mem _ member)) []
      rw [List.append_nil] at rest
      rw [words_append_cons s blank (spaces c (by simp)), rest]
      exact List.append_nil _

@[simp] theorem words_rstrip (s : Text) : words (rstrip s) = words s := by
  obtain ⟨blank, spaces, parts⟩ := rstrip_parts s
  nth_rewrite 2 [parts]
  exact (words_append_blank _ spaces).symm

@[simp] theorem words_lstrip (s : Text) : words (lstrip s) = words s := by
  obtain ⟨blank, spaces, parts⟩ := lstrip_parts s
  nth_rewrite 2 [parts]
  exact (words_blank_append spaces _).symm

@[simp] theorem words_strip (s : Text) : words (strip s) = words s := by
  rw [strip, words_rstrip, words_lstrip]

end Text

end Kaeyris
