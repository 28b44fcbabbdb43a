import Kaeyris.Lib.Json.RoundTrip
import Mathlib.Data.List.TakeWhile

/-!
# Compact texts

What `dumps` writes with `ensure_ascii=False` and `separators=(",", ":")`. No control character is
in it, and `loads` reads it back.
-/

namespace Kaeyris.Lib.Json

/-! ## Integers -/

def intText : Int → List Char
  | .ofNat n => Nat.toDigits 10 n
  | .negSucc n => '-' :: Nat.toDigits 10 (n + 1)

theorem toDigits_isDigit (n : Nat) : ∀ c ∈ Nat.toDigits 10 n, c.isDigit :=
  fun _ member => Nat.isDigit_of_mem_toDigits (by decide) (by decide) member

theorem digitChar_ne_zero : ∀ n < 10, 0 < n → n.digitChar ≠ '0' := by decide

theorem toDigits_head {n : Nat} (positive : 0 < n) :
    ∃ first rest, Nat.toDigits 10 n = first :: rest ∧ first ≠ '0' := by
  induction n using Nat.strongRecOn with
  | ind n ih =>
      rcases Nat.lt_or_ge n 10 with small | large
      · exact ⟨_, _, Nat.toDigits_of_lt_base small, digitChar_ne_zero n small positive⟩
      · obtain ⟨first, rest, front, other⟩ := ih (n / 10) (by omega) (by omega)
        rw [Nat.toDigits_of_base_le (by decide) large, front]
        exact ⟨first, _, rfl, other⟩

theorem magnitude_toDigits (n : Nat) : magnitude (Nat.toDigits 10 n) := by
  rcases Nat.eq_zero_or_pos n with rfl | positive
  · rfl
  · obtain ⟨first, rest, shape, other⟩ := toDigits_head positive
    have all := toDigits_isDigit n
    rw [shape, List.forall_mem_cons] at all
    have none : rest.dropWhile Char.isDigit = [] := List.dropWhile_eq_nil_iff.mpr all.2
    rw [shape, magnitude, none, all.1]
    · rfl
    · exact other

theorem isAtomChar_of_isDigit {c : Char} (digit : c.isDigit) : isAtomChar c := by
  simp [isAtomChar, Char.isAlphanum, digit]

theorem toDigits_isAtomChar (n : Nat) : (Nat.toDigits 10 n).all isAtomChar :=
  List.all_eq_true.mpr fun _ member => isAtomChar_of_isDigit (toDigits_isDigit n _ member)

theorem isNumber_intText (n : Int) : isNumber (intText n) := by
  cases n with
  | ofNat n =>
      have unsigned : ∀ rest, Nat.toDigits 10 n ≠ '-' :: rest := by
        intro rest shape
        have digit := toDigits_isDigit n '-' (by simp [shape])
        simp at digit
      simp [intText, isNumber, toDigits_isAtomChar, magnitude_toDigits]
  | negSucc n =>
      have sign : isAtomChar '-' := by decide
      simp only [intText, isNumber, List.all_cons, sign, toDigits_isAtomChar, magnitude_toDigits,
        Bool.or_true, Bool.and_self]

def ofInt (n : Int) : Value := number ⟨intText n, isNumber_intText n⟩

/-! ## Writing -/

def escapeRawChar (c : Char) : List Char :=
  match shortEscape c with
  | some letter => ['\\', letter]
  | none => if c.toNat < 0x20 then escapeUnit c.toNat else [c]

def quoteRaw (s : List Char) : List Char := '"' :: s.flatMap escapeRawChar ++ ['"']

mutual

def compact : Value → List Char
  | null => "null".toList
  | bool true => "true".toList
  | bool false => "false".toList
  | number literal => literal.text
  | string s => quoteRaw s
  | list items => '[' :: compactItems items ++ [']']
  | object fields => '{' :: compactFields fields ++ ['}']

def compactItems : List Value → List Char
  | [] => []
  | [item] => compact item
  | item :: next :: rest => compact item ++ ',' :: compactItems (next :: rest)

def compactFields : List (List Char × Value) → List Char
  | [] => []
  | [(name, item)] => quoteRaw name ++ ':' :: compact item
  | (name, item) :: next :: rest =>
      quoteRaw name ++ ':' :: compact item ++ ',' :: compactFields (next :: rest)

end

/-! ## Reading -/

theorem run_rawChar (read : List Nat) {c : Char} (printable : ¬c.toNat < 0x20)
    (notQuote : c ≠ '"') (notBackslash : c ≠ '\\') :
    (Mode.inString read).step c = (.inString (read ++ [c.toNat]), []) := by
  simp only [Mode.step, if_neg notQuote, if_neg notBackslash, if_neg printable]

theorem run_escapeRawChar (read : List Nat) (c : Char) :
    run (.inString read) (escapeRawChar c) = (.inString (read ++ [c.toNat]), []) := by
  unfold escapeRawChar
  split
  · rename_i letter short
    exact run_shortEscape read short
  · rename_i long
    split
    · exact run_escapeUnit read (by omega)
    · rename_i printable
      have notQuote : c ≠ '"' := by rintro rfl; cases long
      have notBackslash : c ≠ '\\' := by rintro rfl; cases long
      rw [run_cons (run_rawChar read printable notQuote notBackslash)]
      rfl

theorem run_escapeRaw (read : List Nat) (s : List Char) :
    run (.inString read) (s.flatMap escapeRawChar) = (.inString (read ++ codePoints s), []) := by
  induction s generalizing read with
  | nil => simp [run, codePoints]
  | cons c s ih =>
      rw [List.flatMap_cons, run_append (run_escapeRawChar read c), emit_nil, ih]
      simp [codePoints]

theorem joinUnits_raw (s : List Char) : joinUnits (codePoints s) = codePoints s := by
  induction s with
  | nil => rfl
  | cons c s ih =>
      have valid : c.toNat.isValidChar := c.valid
      simp only [Nat.isValidChar] at valid
      cases s with
      | nil => rfl
      | cons d s =>
          change joinUnits (c.toNat :: d.toNat :: codePoints s) = _
          rw [joinUnits, if_neg (by omega)]
          exact congrArg _ ih

theorem run_quoteRaw (s : List Char) :
    run (.between []) (quoteRaw s) = (.between [], [.string (codePoints s)]) := by
  have body := run_escapeRaw [] s
  rw [quoteRaw, List.cons_append, run_cons step_open, run_append body, run_cons (step_close _),
    List.nil_append, joinUnits_raw]
  rfl

theorem run_nameRaw (name rest : List Char) :
    run (.between []) (quoteRaw name ++ ':' :: rest) =
      emit [.string (codePoints name), .colon] (run (.between []) rest) := by
  rw [run_append (run_quoteRaw name)]
  rfl

mutual

theorem reads_compact : ∀ v : Value, Reads (compact v) (tokens (v.map codePoints))
  | null => reads_dumps null
  | bool true => reads_dumps (bool true)
  | bool false => reads_dumps (bool false)
  | number literal => reads_dumps (number literal)
  | string s => .of_run (run_quoteRaw s)
  | list items => by
      apply Reads.of_run
      rw [compact, List.cons_append, run_punctuation .beginList rfl, run_compactItems items, map,
        tokens]
      simp [run]
  | object fields => by
      apply Reads.of_run
      rw [compact, List.cons_append, run_punctuation .beginObject rfl, run_compactFields fields, map,
        tokens]
      simp [run]

theorem run_compactItems : ∀ (items : List Value) (rest : List Char),
    run (.between []) (compactItems items ++ ']' :: rest) =
      emit (tokensOfItems (mapItems codePoints items) ++ [.endList]) (run (.between []) rest)
  | [], rest => rfl
  | [item], rest => by
      rw [compactItems, mapItems, mapItems, tokensOfItems, (reads_compact item).then (by decide),
        run_punctuation .endList rfl, emit_emit]
  | item :: next :: later, rest => by
      rw [compactItems, mapItems, mapItems, tokensOfItems, ← mapItems, List.append_assoc,
        List.cons_append, (reads_compact item).then (by decide), run_punctuation .comma rfl,
        run_compactItems (next :: later) rest, emit_emit, emit_emit]
      simp

theorem run_compactFields : ∀ (fields : List (List Char × Value)) (rest : List Char),
    run (.between []) (compactFields fields ++ '}' :: rest) =
      emit (tokensOfFields (mapFields codePoints fields) ++ [.endObject]) (run (.between []) rest)
  | [], rest => rfl
  | [(name, item)], rest => by
      rw [compactFields, mapFields, mapFields, tokensOfFields, List.append_assoc, List.cons_append,
        run_nameRaw, (reads_compact item).then (by decide), run_punctuation .endObject rfl,
        emit_emit, emit_emit]
      rfl
  | (name, item) :: next :: later, rest => by
      obtain ⟨_, _⟩ := next
      rw [compactFields, mapFields, mapFields, tokensOfFields, ← mapFields]
      simp only [List.append_assoc, List.cons_append]
      rw [run_nameRaw, (reads_compact item).then (by decide), run_punctuation .comma rfl,
        run_compactFields (_ :: later) rest, emit_emit, emit_emit, emit_emit]
      simp

end

mutual

theorem map_id {σ : Type} : ∀ v : Json σ, v.map id = v
  | null => rfl
  | bool _ => rfl
  | number _ => rfl
  | string _ => rfl
  | list items => by rw [map, mapItems_id items]
  | object fields => by rw [map, mapFields_id fields]

theorem mapItems_id {σ : Type} : ∀ items : List (Json σ), mapItems id items = items
  | [] => rfl
  | item :: rest => by rw [mapItems, map_id item, mapItems_id rest]

theorem mapFields_id {σ : Type} : ∀ fields : List (σ × Json σ), mapFields id fields = fields
  | [] => rfl
  | (name, item) :: rest => by rw [mapFields, map_id item, mapFields_id rest, id]

end

mutual

theorem fits_strict : ∀ (depth : Nat) (v : Value), Fits strict depth v
  | _, null => trivial
  | _, bool _ => trivial
  | _, number _ => rfl
  | _, string _ => trivial
  | depth, list items => ⟨rfl, fitItems_strict (depth + 1) items⟩
  | depth, object fields => ⟨rfl, fitFields_strict (depth + 1) fields⟩

theorem fitItems_strict : ∀ (depth : Nat) (items : List Value), FitItems strict depth items
  | _, [] => trivial
  | depth, item :: rest => ⟨fits_strict depth item, fitItems_strict depth rest⟩

theorem fitFields_strict : ∀ (depth : Nat) (fields : List (List Char × Value)),
    FitFields strict depth fields
  | _, [] => trivial
  | depth, (_, item) :: rest => ⟨fits_strict depth item, fitFields_strict depth rest⟩

end

theorem loads_compact (v : Value) : loads (compact v) = some v := by
  have whole := feed_tokens (d := strict) (f := id) chars?_codePoints v [] (fits_strict 0 v)
  rw [loads, load, scan_of_reads (reads_compact v), whole, map_id]
  rfl

/-! ## No control characters -/

def Printable (s : List Char) : Prop := ∀ c ∈ s, 0x20 ≤ c.toNat

@[simp] theorem printable_nil : Printable [] := by simp [Printable]

@[simp] theorem printable_cons {c : Char} {s : List Char} :
    Printable (c :: s) ↔ 0x20 ≤ c.toNat ∧ Printable s := by
  simp [Printable]

@[simp] theorem printable_append {s t : List Char} :
    Printable (s ++ t) ↔ Printable s ∧ Printable t := by
  simp [Printable, or_imp, forall_and]

theorem printable_hexDigit : ∀ n < 16, 0x20 ≤ (hexDigit n).toNat := by decide

theorem printable_escapeUnit (n : Nat) : Printable (escapeUnit n) := by
  have digit (k : Nat) : 0x20 ≤ (hexDigit (k % 16)).toNat :=
    printable_hexDigit _ (Nat.mod_lt _ (by decide))
  simp [escapeUnit, digit]

theorem printable_shortEscape {c letter : Char} (short : shortEscape c = some letter) :
    Printable ['\\', letter] := by
  unfold shortEscape at short
  split at short <;> cases short <;> simp

theorem printable_quoteRaw (s : List Char) : Printable (quoteRaw s) := by
  have body : Printable (s.flatMap escapeRawChar) := by
    induction s with
    | nil => simp
    | cons c s ih =>
        rw [List.flatMap_cons, printable_append]
        refine ⟨?_, ih⟩
        unfold escapeRawChar
        split
        · rename_i short
          exact printable_shortEscape short
        · split
          · exact printable_escapeUnit _
          · simpa using ‹¬c.toNat < 0x20›
  simp [quoteRaw, body]

theorem isAtomChar_control : ∀ n < 0x20, isAtomChar (Char.ofNat n) = false := by decide

theorem printable_atom {s : List Char} (chars : s.all isAtomChar) : Printable s := by
  intro c member
  by_contra control
  have other := isAtomChar_control c.toNat (by omega)
  rw [Char.ofNat_toNat, List.all_eq_true.mp chars c member] at other
  cases other

mutual

theorem printable_compact : ∀ v : Value, Printable (compact v)
  | null => printable_atom rfl
  | bool true => printable_atom rfl
  | bool false => printable_atom rfl
  | number literal => printable_atom literal.chars
  | string s => printable_quoteRaw s
  | list items => by
      have inner := printable_compactItems items
      simp [compact, inner]
  | object fields => by
      have inner := printable_compactFields fields
      simp [compact, inner]

theorem printable_compactItems : ∀ items : List Value, Printable (compactItems items)
  | [] => printable_nil
  | [item] => printable_compact item
  | item :: next :: rest => by
      have first := printable_compact item
      have later := printable_compactItems (next :: rest)
      simp [compactItems, first, later]

theorem printable_compactFields : ∀ fields : List (List Char × Value),
    Printable (compactFields fields)
  | [] => printable_nil
  | [(name, item)] => by
      have value := printable_compact item
      simp [compactFields, printable_quoteRaw, value]
  | (name, item) :: next :: rest => by
      have value := printable_compact item
      have later := printable_compactFields (next :: rest)
      simp [compactFields, printable_quoteRaw, value, later]

end

end Kaeyris.Lib.Json
