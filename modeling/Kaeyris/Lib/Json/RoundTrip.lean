import Kaeyris.Lib.Json

/-!
# Reading back what was written

The scanner is followed mode by mode through a written value, the parser through its tokens.
-/

namespace Kaeyris.Lib.Json

variable {σ : Type}

/-! ## Runs of the scanner -/

def emit (tokens : List Token) (last : Mode × List Token) : Mode × List Token :=
  (last.1, tokens ++ last.2)

@[simp] theorem emit_nil (last : Mode × List Token) : emit [] last = last := rfl

@[simp] theorem emit_mk (tokens later : List Token) (mode : Mode) :
    emit tokens (mode, later) = (mode, tokens ++ later) := rfl

@[simp] theorem emit_emit (first second : List Token) (last : Mode × List Token) :
    emit first (emit second last) = emit (first ++ second) last := by
  simp [emit]

theorem run_cons {mode next : Mode} {c : Char} {tokens : List Token}
    (step : mode.step c = (next, tokens)) (rest : List Char) :
    run mode (c :: rest) = emit tokens (run next rest) := by
  rw [run, step]
  rfl

theorem run_append {mode next : Mode} {s : List Char} {tokens : List Token}
    (front : run mode s = (next, tokens)) (rest : List Char) :
    run mode (s ++ rest) = emit tokens (run next rest) := by
  induction s generalizing mode tokens with
  | nil =>
      obtain ⟨rfl, rfl⟩ := Prod.mk.inj front
      rfl
  | cons c s ih =>
      have step : mode.step c = ((mode.step c).1, (mode.step c).2) := rfl
      rw [run] at front
      obtain ⟨reached, rfl⟩ := Prod.mk.inj front
      rw [List.cons_append, run_cons step, ih (Prod.ext reached rfl), emit_emit]

theorem scanFrom_append {mode next : Mode} {s : List Char} {first : List Token}
    (front : run mode s = (next, first)) (rest : List Char) :
    scanFrom mode (s ++ rest) = first ++ scanFrom next rest := by
  simp [scanFrom, run_append front, emit]

theorem scanFrom_cons {mode next : Mode} {c : Char} {first : List Token}
    (step : mode.step c = (next, first)) (rest : List Char) :
    scanFrom mode (c :: rest) = first ++ scanFrom next rest := by
  simp [scanFrom, run_cons step, emit]

/-! ## Strings -/

theorem hexValue_hexDigit : ∀ n < 16, hexValue (hexDigit n) = some n := by decide

theorem run_escapeUnit (read : List Nat) {n : Nat} (small : n < 0x10000) :
    run (.inString read) (escapeUnit n) = (.inString (read ++ [n]), []) := by
  have digit (k : Nat) : hexValue (hexDigit (n / k % 16)) = some (n / k % 16) :=
    hexValue_hexDigit _ (Nat.mod_lt _ (by decide))
  have last : hexValue (hexDigit (n % 16)) = some (n % 16) :=
    hexValue_hexDigit _ (Nat.mod_lt _ (by decide))
  have total : 16 * (16 * (16 * (16 * 0 + n / 0x1000 % 16) + n / 0x100 % 16) + n / 0x10 % 16) +
      n % 16 = n := by omega
  have opened : (Mode.inString read).step '\\' = (.escaped read, []) := rfl
  have marked : (Mode.escaped read).step 'u' = (.hex read 3 0, []) := rfl
  have more (left k value : Nat) :
      (Mode.hex read (left + 1) value).step (hexDigit (n / k % 16)) =
        (.hex read left (16 * value + n / k % 16), []) := by
    simp only [Mode.step, digit]
  have closed (value : Nat) : (Mode.hex read 0 value).step (hexDigit (n % 16)) =
      (.inString (read ++ [16 * value + n % 16]), []) := by
    simp only [Mode.step, last]
  rw [escapeUnit, run_cons opened, run_cons marked, run_cons (more 2 _ _), run_cons (more 1 _ _),
    run_cons (more 0 _ _), run_cons (closed _), total]
  rfl

theorem units_small (c : Char) : ∀ n ∈ units c, n < 0x10000 := by
  have bound : c.toNat.isValidChar := c.valid
  simp only [Nat.isValidChar] at bound
  by_cases basic : c.toNat < 0x10000
  · rw [units, if_pos basic]
    simpa only [List.mem_singleton, forall_eq] using basic
  · rw [units, if_neg basic]
    simp only [List.mem_cons, List.not_mem_nil, or_false, forall_eq_or_imp, forall_eq]
    omega

theorem units_plain {c : Char} (plain : isPlain c) : units c = [c.toNat] := by
  simp only [isPlain, Bool.and_eq_true, decide_eq_true_eq] at plain
  rw [units, if_pos (by omega)]

theorem run_flatMap_escapeUnit (read found : List Nat) (small : ∀ n ∈ found, n < 0x10000) :
    run (.inString read) (found.flatMap escapeUnit) = (.inString (read ++ found), []) := by
  induction found generalizing read with
  | nil => simp [run]
  | cons n found ih =>
      rw [List.flatMap_cons, run_append (run_escapeUnit read (small n (by simp))), emit_nil,
        ih _ fun m member => small m (List.mem_cons_of_mem _ member)]
      simp

theorem escapeChar_cases (c : Char) :
    (escapeChar c = [c] ∧ isPlain c ∧ c ≠ '"' ∧ c ≠ '\\') ∨
      ∃ rest, escapeChar c = '\\' :: rest := by
  unfold escapeChar
  split
  · exact .inr ⟨_, rfl⟩
  · rename_i long
    split
    · refine .inl ⟨rfl, ‹_›, ?_, ?_⟩ <;> rintro rfl <;> cases long
    · unfold units
      dsimp only
      split <;> exact .inr ⟨_, rfl⟩

theorem run_shortEscape (read : List Nat) {c letter : Char} (short : shortEscape c = some letter) :
    run (.inString read) ['\\', letter] = (.inString (read ++ [c.toNat]), []) := by
  unfold shortEscape at short
  split at short <;> cases short <;> rfl

theorem units_short {c letter : Char} (short : shortEscape c = some letter) :
    units c = [c.toNat] := by
  unfold shortEscape at short
  split at short <;> cases short <;> rfl

theorem run_plain (read : List Nat) {c : Char} (plain : isPlain c) (notQuote : c ≠ '"')
    (notBackslash : c ≠ '\\') :
    (Mode.inString read).step c = (.inString (read ++ [c.toNat]), []) := by
  simp only [isPlain, Bool.and_eq_true, decide_eq_true_eq] at plain
  simp only [Mode.step, if_neg notQuote, if_neg notBackslash, if_neg (not_lt.mpr plain.1)]

theorem run_escapeChar (read : List Nat) (c : Char) :
    run (.inString read) (escapeChar c) = (.inString (read ++ units c), []) := by
  unfold escapeChar
  split
  · rename_i letter short
    rw [units_short short, run_shortEscape read short]
  · rename_i long
    split
    · rename_i plain
      have notQuote : c ≠ '"' := by rintro rfl; cases long
      have notBackslash : c ≠ '\\' := by rintro rfl; cases long
      rw [run_cons (run_plain read plain notQuote notBackslash), units_plain plain]
      rfl
    · exact run_flatMap_escapeUnit read _ (units_small c)

theorem run_escape (read : List Nat) (s : List Char) :
    run (.inString read) (escape s) = (.inString (read ++ s.flatMap units), []) := by
  induction s generalizing read with
  | nil => simp [escape, run]
  | cons c s ih =>
      change run _ (escapeChar c ++ escape s) = _
      rw [run_append (run_escapeChar read c), emit_nil, ih]
      simp

theorem char?_toNat (c : Char) : char? c.toNat = some c := by
  have valid : c.toNat.isValidChar := c.valid
  rw [char?, if_pos valid, Char.ofNat_toNat]

theorem chars?_codePoints (s : List Char) : chars? (codePoints s) = some s := by
  induction s with
  | nil => rfl
  | cons c s ih =>
      rw [chars?, codePoints] at ih
      rw [chars?, codePoints, List.map_cons, List.mapM_cons, char?_toNat, ih]
      rfl

theorem toNat_ofNat {n : Nat} (valid : n.isValidChar) : (Char.ofNat n).toNat = n := by
  rw [Char.ofNat, dif_pos valid]
  rfl

theorem codePoints_injective : Function.Injective codePoints := by
  intro s t same
  have read := congrArg chars? same
  rw [chars?_codePoints, chars?_codePoints] at read
  exact Option.some.inj read

theorem exists_codePoints {s : CodePoints} (valid : ∀ n ∈ s, n.isValidChar) :
    ∃ t, s = codePoints t := by
  induction s with
  | nil => exact ⟨[], rfl⟩
  | cons n s ih =>
      obtain ⟨t, rfl⟩ := ih fun m member => valid m (List.mem_cons_of_mem _ member)
      refine ⟨Char.ofNat n :: t, ?_⟩
      exact congrArg (· :: _) (toNat_ofNat (valid n (by simp))).symm

theorem codePoints_valid (s : List Char) : ∀ n ∈ codePoints s, n.isValidChar := by
  intro n member
  obtain ⟨c, -, rfl⟩ := List.mem_map.mp member
  exact c.valid

theorem chars?_eq_some {s : CodePoints} {t : List Char} : chars? s = some t ↔ s = codePoints t := by
  constructor
  · intro read
    induction s generalizing t with
    | nil =>
        cases read
        rfl
    | cons n s ih =>
        rw [chars?, List.mapM_cons] at read
        obtain ⟨c, first, read⟩ := Option.bind_eq_some_iff.mp read
        obtain ⟨later, rest, same⟩ := Option.bind_eq_some_iff.mp read
        cases same
        unfold char? at first
        split at first
        · cases first
          rw [ih rest]
          exact congrArg (· :: _) (toNat_ofNat ‹_›).symm
        · cases first
  · rintro rfl
    exact chars?_codePoints t

theorem joinUnits_units (s : List Char) : joinUnits (s.flatMap units) = codePoints s := by
  induction s with
  | nil => rfl
  | cons c s ih =>
      have bound : c.toNat.isValidChar := c.valid
      simp only [Nat.isValidChar] at bound
      change _ = c.toNat :: codePoints s
      rw [List.flatMap_cons, ← ih]
      by_cases basic : c.toNat < 0x10000
      · -- A character of the basic plane is no high surrogate, so it joins with nothing.
        rw [units, if_pos basic, List.singleton_append]
        cases s.flatMap units with
        | nil => rfl
        | cons low rest =>
            rw [joinUnits, if_neg]
            omega
      · have same : 0x10000 + (0xd800 + (c.toNat - 0x10000) / 0x400 - 0xd800) * 0x400 +
            (0xdc00 + (c.toNat - 0x10000) % 0x400 - 0xdc00) = c.toNat := by omega
        rw [units, if_neg basic, List.cons_append, List.singleton_append, joinUnits,
          if_pos (by omega), same]

theorem step_open : (Mode.between []).step '"' = (.inString [], []) := rfl

theorem step_close (read : List Nat) :
    (Mode.inString read).step '"' = (.between [], [.string (joinUnits read)]) := rfl

theorem run_quote (s : List Char) :
    run (.between []) (quote s) = (.between [], [.string (codePoints s)]) := by
  have body := run_escape [] s
  rw [quote, List.cons_append, run_cons step_open, run_append body, run_cons (step_close _),
    List.nil_append, joinUnits_units]
  rfl

/-! ## Values -/

mutual

def tokens : Json CodePoints → List Token
  | null => [.atom "null".toList]
  | bool true => [.atom "true".toList]
  | bool false => [.atom "false".toList]
  | number literal => [.atom literal.text]
  | string s => [.string s]
  | list items => .beginList :: tokensOfItems items ++ [.endList]
  | object fields => .beginObject :: tokensOfFields fields ++ [.endObject]

def tokensOfItems : List (Json CodePoints) → List Token
  | [] => []
  | [item] => tokens item
  | item :: next :: rest => tokens item ++ .comma :: tokensOfItems (next :: rest)

def tokensOfFields : List (CodePoints × Json CodePoints) → List Token
  | [] => []
  | [(name, item)] => .string name :: .colon :: tokens item
  | (name, item) :: next :: rest =>
      .string name :: .colon :: tokens item ++ .comma :: tokensOfFields (next :: rest)

end

/-- The scanner reads these tokens, the last one perhaps when the text after it begins. -/
def Reads (s : List Char) (found : List Token) : Prop :=
  ∃ atom early, run (.between []) s = (.between atom, early) ∧ early ++ flush atom = found

theorem run_atom {atom s : List Char} (chars : ∀ c ∈ s, isAtomChar c) :
    run (.between atom) s = (.between (atom ++ s), []) := by
  induction s generalizing atom with
  | nil => simp [run]
  | cons c s ih =>
      have step : (Mode.between atom).step c = (.between (atom ++ [c]), []) := by
        simp only [Mode.step, if_pos (chars c (by simp))]
      rw [run_cons step, emit_nil, ih fun d member => chars d (List.mem_cons_of_mem _ member)]
      simp

theorem Reads.of_atom {s : List Char} (chars : ∀ c ∈ s, isAtomChar c) (content : s ≠ []) :
    Reads s [.atom s] := by
  refine ⟨s, [], run_atom chars, ?_⟩
  cases s with
  | nil => exact (content rfl).elim
  | cons c s => rfl

theorem NumberLiteral.chars (literal : NumberLiteral) : literal.text.all isAtomChar := by
  have valid := literal.valid
  unfold isNumber at valid
  exact (Bool.and_eq_true _ _ ▸ valid).1

theorem NumberLiteral.reads (literal : NumberLiteral) : Reads literal.text [.atom literal.text] := by
  refine .of_atom (List.all_eq_true.mp literal.chars) fun empty => ?_
  have valid := literal.valid
  rw [empty] at valid
  cases valid

theorem atomValue_number (literal : NumberLiteral) :
    atomValue literal.text = some (number literal : Json σ) := by
  obtain ⟨text, valid⟩ := literal
  have other {name : List Char} (invalid : isNumber name = false) : text ≠ name := by
    rintro rfl
    rw [valid] at invalid
    cases invalid
  rw [atomValue, if_neg (other (by decide)), if_neg (other (by decide)), if_neg (other (by decide)),
    dif_pos valid]

theorem step_delimiter {c : Char} (delimiter : isAtomChar c = false) (atom : List Char) :
    (Mode.between atom).step c = emit (flush atom) ((Mode.between []).step c) := by
  simp only [Mode.step, delimiter, Bool.false_eq_true, if_false, flush]
  split_ifs <;> simp

theorem Reads.then {s rest : List Char} {found : List Token} {c : Char} (reads : Reads s found)
    (delimiter : isAtomChar c = false) :
    run (.between []) (s ++ c :: rest) = emit found (run (.between []) (c :: rest)) := by
  obtain ⟨atom, early, front, rfl⟩ := reads
  have step : (Mode.between []).step c =
      (((Mode.between []).step c).1, ((Mode.between []).step c).2) := rfl
  rw [run_append front, run_cons (step_delimiter delimiter atom), run_cons step]
  simp [emit]

theorem run_punctuation {c : Char} (token : Token)
    (step : (Mode.between []).step c = (.between [], [token])) (rest : List Char) :
    run (.between []) (c :: rest) = emit [token] (run (.between []) rest) :=
  run_cons step rest

theorem run_blank {c : Char} (blank : isBlank c) (rest : List Char) :
    run (.between []) (c :: rest) = run (.between []) rest := by
  simp only [isBlank, Bool.or_eq_true, beq_iff_eq] at blank
  rcases blank with ((rfl | rfl) | rfl) | rfl <;> rfl

theorem run_comma (rest : List Char) :
    run (.between []) (',' :: ' ' :: rest) = emit [.comma] (run (.between []) rest) := rfl

theorem run_name (name rest : List Char) :
    run (.between []) (quote name ++ ':' :: ' ' :: rest) =
      emit [.string (codePoints name), .colon] (run (.between []) rest) := by
  rw [run_append (run_quote name)]
  rfl

theorem Reads.of_run {s : List Char} {found : List Token}
    (reached : run (.between []) s = (.between [], found)) : Reads s found :=
  ⟨[], found, reached, List.append_nil _⟩

mutual

theorem reads_dumps : ∀ v : Value, Reads (dumps v) (tokens (v.map codePoints))
  | null => .of_atom (List.all_eq_true.mp rfl) (by decide)
  | bool true => .of_atom (List.all_eq_true.mp rfl) (by decide)
  | bool false => .of_atom (List.all_eq_true.mp rfl) (by decide)
  | number literal => literal.reads
  | string s => .of_run (run_quote s)
  | list items => by
      apply Reads.of_run
      rw [dumps, List.cons_append, run_punctuation .beginList rfl, run_items items, map, tokens]
      simp [run]
  | object fields => by
      apply Reads.of_run
      rw [dumps, List.cons_append, run_punctuation .beginObject rfl, run_fields fields, map, tokens]
      simp [run]

theorem run_items : ∀ (items : List Value) (rest : List Char),
    run (.between []) (dumpsItems items ++ ']' :: rest) =
      emit (tokensOfItems (mapItems codePoints items) ++ [.endList]) (run (.between []) rest)
  | [], rest => rfl
  | [item], rest => by
      rw [dumpsItems, mapItems, mapItems, tokensOfItems, (reads_dumps item).then (by decide),
        run_punctuation .endList rfl, emit_emit]
  | item :: next :: later, rest => by
      rw [dumpsItems, mapItems, mapItems, tokensOfItems, ← mapItems, List.append_assoc,
        List.append_assoc, List.cons_append, (reads_dumps item).then (by decide), List.cons_append,
        List.nil_append, run_comma, run_items (next :: later) rest, emit_emit, emit_emit]
      simp

theorem run_fields : ∀ (fields : List (List Char × Value)) (rest : List Char),
    run (.between []) (dumpsFields fields ++ '}' :: rest) =
      emit (tokensOfFields (mapFields codePoints fields) ++ [.endObject]) (run (.between []) rest)
  | [], rest => rfl
  | [(name, item)], rest => by
      rw [dumpsFields, mapFields, mapFields, tokensOfFields, List.append_assoc, List.append_assoc,
        List.cons_append, List.cons_append, List.nil_append, run_name,
        (reads_dumps item).then (by decide), run_punctuation .endObject rfl, emit_emit, emit_emit]
      rfl
  | (name, item) :: next :: later, rest => by
      obtain ⟨_, _⟩ := next
      rw [dumpsFields, mapFields, mapFields, tokensOfFields, ← mapFields]
      simp only [List.append_assoc, List.cons_append, List.nil_append]
      rw [run_name, (reads_dumps item).then (by decide), run_comma,
        run_fields (_ :: later) rest, emit_emit, emit_emit, emit_emit]
      simp

end

/-! ## The parser -/

theorem exceeds_zero (limit : Option Nat) : exceeds limit 0 = false := by
  cases limit <;> simp [exceeds]

section Parser
variable {d : Dialect σ}

theorem feed_cons {parse next : Parse σ} {token : Token}
    (step : Parse.step d parse token = .ok next) (rest : List Token) :
    Parse.feed d parse (token :: rest) = Parse.feed d next rest := by
  rw [Parse.feed, List.foldlM_cons, step]
  rfl

theorem feed_stop {parse : Parse σ} {token : Token} {e : LoadError}
    (step : Parse.step d parse token = .error e) (rest : List Token) :
    Parse.feed d parse (token :: rest) = .error e := by
  rw [Parse.feed, List.foldlM_cons, step]
  rfl

theorem feed_append (parse : Parse σ) (first rest : List Token) :
    Parse.feed d parse (first ++ rest) =
      (Parse.feed d parse first).bind fun next => Parse.feed d next rest :=
  List.foldlM_append

mutual

/-- The value stays within the limits where so many lists and objects are open around it. -/
def Fits (d : Dialect σ) : Nat → Value → Prop
  | _, number literal => exceeds d.digits (integerDigits literal.text) = false
  | depth, list items => exceeds d.depth (depth + 1) = false ∧ FitItems d (depth + 1) items
  | depth, object fields => exceeds d.depth (depth + 1) = false ∧ FitFields d (depth + 1) fields
  | _, _ => True

def FitItems (d : Dialect σ) : Nat → List Value → Prop
  | _, [] => True
  | depth, item :: rest => Fits d depth item ∧ FitItems d depth rest

def FitFields (d : Dialect σ) : Nat → List (List Char × Value) → Prop
  | _, [] => True
  | depth, (_, item) :: rest => Fits d depth item ∧ FitFields d depth rest

end

theorem tokens_head (v : Json CodePoints) : ∃ first rest, tokens v = first :: rest ∧
    first ≠ .endList := by
  cases v with
  | bool b => cases b <;> exact ⟨_, _, rfl, by simp⟩
  | _ => exact ⟨_, _, rfl, by simp⟩

theorem begin_atom {atom : List Char} {v : Json σ}
    (short : exceeds d.digits (integerDigits atom) = false) (meaning : atomValue atom = some v)
    (stack : List (Frame σ)) : Parse.begin d stack (.atom atom) = .ok (.after v stack) := by
  rw [Parse.begin, short, meaning]
  rfl

theorem feed_atom {atom : List Char} {v : Json σ}
    (short : exceeds d.digits (integerDigits atom) = false) (meaning : atomValue atom = some v)
    (stack : List (Frame σ)) :
    Parse.feed d (.value stack) [.atom atom] = .ok (.after v stack) := by
  have step : Parse.step d (.value stack) (.atom atom) = .ok (.after v stack) :=
    begin_atom short meaning stack
  rw [feed_cons step]
  rfl

section
variable {stack : List (Frame σ)} (shallow : exceeds d.depth (stack.length + 1) = false)
include shallow

theorem step_beginList : Parse.step d (.value stack) .beginList = .ok (.listStart stack) := by
  rw [Parse.step, Parse.begin, Parse.open?, shallow]
  rfl

theorem step_beginObject :
    Parse.step d (.value stack) .beginObject = .ok (.objectStart stack) := by
  rw [Parse.step, Parse.begin, Parse.open?, shallow]
  rfl

end

theorem feed_listStart {stack : List (Frame σ)} {first : Token} (other : first ≠ .endList)
    (rest : List Token) :
    Parse.feed d (.listStart stack) (first :: rest) =
      Parse.feed d (.value (.list [] :: stack)) (first :: rest) := by
  have same : Parse.step d (.listStart stack) first =
      Parse.step d (.value (.list [] :: stack)) first := by
    cases first <;> first | rfl | exact (other rfl).elim
  rw [Parse.feed, Parse.feed, List.foldlM_cons, List.foldlM_cons, same]

variable {f : List Char → σ}

theorem step_name (text : ∀ s, d.text (codePoints s) = some (f s)) (name : List Char)
    (fields : List (σ × Json σ)) (stack : List (Frame σ)) :
    Parse.step d (.name fields stack) (.string (codePoints name)) =
      .ok (.colon fields (f name) stack) := by
  rw [Parse.step, Parse.member, text]

theorem step_firstName (text : ∀ s, d.text (codePoints s) = some (f s)) (name : List Char)
    (stack : List (Frame σ)) :
    Parse.step d (.objectStart stack) (.string (codePoints name)) =
      .ok (.colon [] (f name) stack) :=
  step_name text name [] stack

mutual

theorem feed_tokens (text : ∀ s, d.text (codePoints s) = some (f s)) :
    ∀ (v : Value) (stack : List (Frame σ)), Fits d stack.length v →
      Parse.feed d (.value stack) (tokens (v.map codePoints)) = .ok (.after (v.map f) stack)
  | null, stack, _ => feed_atom (exceeds_zero _) rfl stack
  | bool true, stack, _ => feed_atom (exceeds_zero _) rfl stack
  | bool false, stack, _ => feed_atom (exceeds_zero _) rfl stack
  | number literal, stack, fits => feed_atom fits (atomValue_number literal) stack
  | string s, stack, _ => by
      have step : Parse.step d (.value stack) (.string (codePoints s)) =
          .ok (.after (.string (f s)) stack) := by
        rw [Parse.step, Parse.begin, text]
      rw [map, tokens, feed_cons step]
      rfl
  | list [], stack, fits => by
      rw [map, mapItems, tokens, List.cons_append, feed_cons (step_beginList fits.1)]
      rfl
  | list (item :: later), stack, fits => by
      have inner := feed_items text (item :: later) (List.cons_ne_nil _ _) [] stack fits.2
      obtain ⟨first, rest, begins, other⟩ := tokens_head (item.map codePoints)
      obtain ⟨_, content⟩ : ∃ rest, tokensOfItems (mapItems codePoints (item :: later)) =
          first :: rest := by
        cases later with
        | nil => exact ⟨rest, begins⟩
        | cons => exact ⟨_, by rw [mapItems, mapItems, tokensOfItems, begins, List.cons_append]⟩
      rw [content] at inner
      rw [map, tokens, List.cons_append, feed_cons (step_beginList fits.1), content, List.cons_append,
        feed_listStart other, ← List.cons_append, inner]
      rfl
  | object [], stack, fits => by
      rw [map, mapFields, tokens, List.cons_append, feed_cons (step_beginObject fits.1)]
      rfl
  | object ((name, item) :: later), stack, fits => by
      have inner := feed_fields text ((name, item) :: later) (List.cons_ne_nil _ _) [] stack fits.2
      obtain ⟨rest, content⟩ : ∃ rest,
          tokensOfFields (mapFields codePoints ((name, item) :: later)) =
            .string (codePoints name) :: rest := by
        cases later <;> exact ⟨_, rfl⟩
      rw [content, List.cons_append, feed_cons (step_name text name [] stack)] at inner
      rw [map, tokens, List.cons_append, feed_cons (step_beginObject fits.1), content, List.cons_append,
        feed_cons (step_firstName text name stack), inner]
      rfl

theorem feed_items (text : ∀ s, d.text (codePoints s) = some (f s)) :
    ∀ (items : List Value), items ≠ [] → ∀ (read : List (Json σ)) (stack : List (Frame σ)),
      FitItems d (stack.length + 1) items →
        Parse.feed d (.value (.list read :: stack))
            (tokensOfItems (mapItems codePoints items) ++ [.endList]) =
          .ok (.after (.list (read ++ mapItems f items)) stack)
  | [], content, _, _, _ => (content rfl).elim
  | [item], _, read, stack, fits => by
      rw [mapItems, mapItems, tokensOfItems, feed_append,
        feed_tokens text item (.list read :: stack) fits.1]
      rfl
  | item :: next :: later, _, read, stack, fits => by
      rw [mapItems, mapItems, tokensOfItems, ← mapItems, List.append_assoc, feed_append,
        feed_tokens text item (.list read :: stack) fits.1]
      change Parse.feed d (.value (.list (read ++ [item.map f]) :: stack)) (_ ++ _) = _
      rw [feed_items text (next :: later) (List.cons_ne_nil _ _) _ stack fits.2]
      simp [mapItems]

theorem feed_fields (text : ∀ s, d.text (codePoints s) = some (f s)) :
    ∀ (fields : List (List Char × Value)), fields ≠ [] →
      ∀ (read : List (σ × Json σ)) (stack : List (Frame σ)),
        FitFields d (stack.length + 1) fields →
          Parse.feed d (.name read stack)
              (tokensOfFields (mapFields codePoints fields) ++ [.endObject]) =
            .ok (.after (.object (read ++ mapFields f fields)) stack)
  | [], content, _, _, _ => (content rfl).elim
  | [(name, item)], _, read, stack, fits => by
      rw [mapFields, mapFields, tokensOfFields, List.cons_append, List.cons_append,
        feed_cons (step_name text name read stack)]
      change Parse.feed d (.value (.object read (f name) :: stack)) _ = _
      rw [feed_append, feed_tokens text item (.object read (f name) :: stack) fits.1]
      rfl
  | (name, item) :: next :: later, _, read, stack, fits => by
      obtain ⟨_, _⟩ := next
      rw [mapFields, mapFields, tokensOfFields, ← mapFields, List.append_assoc, List.cons_append,
        List.cons_append, feed_cons (step_name text name read stack)]
      change Parse.feed d (.value (.object read (f name) :: stack)) _ = _
      rw [feed_append, feed_tokens text item (.object read (f name) :: stack) fits.1]
      change Parse.feed d (.name (read ++ [(f name, item.map f)]) stack) (_ ++ _) = _
      rw [feed_fields text (_ :: later) (List.cons_ne_nil _ _) _ stack fits.2]
      simp [mapFields]

end

/-! ## Whole texts -/

theorem run_blanks {blanks : List Char} (blank : ∀ c ∈ blanks, isBlank c) (rest : List Char) :
    run (.between []) (blanks ++ rest) = run (.between []) rest := by
  induction blanks with
  | nil => rfl
  | cons c blanks ih =>
      rw [List.cons_append, run_blank (blank c (by simp)),
        ih fun d member => blank d (List.mem_cons_of_mem _ member)]

theorem isAtomChar_of_blank {c : Char} (blank : isBlank c) : isAtomChar c = false := by
  simp only [isBlank, Bool.or_eq_true, beq_iff_eq] at blank
  rcases blank with ((rfl | rfl) | rfl) | rfl <;> decide

theorem Reads.surround {s before after : List Char} {found : List Token} (reads : Reads s found)
    (front : ∀ c ∈ before, isBlank c) (back : ∀ c ∈ after, isBlank c) :
    Reads (before ++ s ++ after) found := by
  cases after with
  | nil =>
      obtain ⟨atom, early, reached, whole⟩ := reads
      exact ⟨atom, early, by rw [List.append_nil, run_blanks front, reached], whole⟩
  | cons c after =>
      apply Reads.of_run
      rw [List.append_assoc, run_blanks front,
        reads.then (isAtomChar_of_blank (back c (by simp))),
        ← List.append_nil (c :: after), run_blanks back]
      simp [run]

theorem scan_of_reads {s : List Char} {found : List Token} (reads : Reads s found) :
    scan s = found := by
  obtain ⟨atom, early, reached, rfl⟩ := reads
  rw [scan, scanFrom, reached]
  rfl

theorem load_dumps (text : ∀ s, d.text (codePoints s) = some (f s)) {v : Value} (fits : Fits d 0 v)
    {before after : List Char} (front : ∀ c ∈ before, isBlank c) (back : ∀ c ∈ after, isBlank c) :
    load d (before ++ dumps v ++ after) = .ok (v.map f) := by
  rw [load, scan_of_reads ((reads_dumps v).surround front back), feed_tokens text v [] fits]
  rfl

end Parser

end Kaeyris.Lib.Json
