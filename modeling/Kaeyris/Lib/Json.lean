import Mathlib.Data.List.Infix
import Mathlib.Tactic.Common

/-!
# JSON

Values, the texts `dumps` writes for them, and `load`: a scanner that turns a text into tokens, one
character at a time, and a parser that takes the tokens one by one. Both go from left to right, so the
first thing that is wrong with a text is what reading it ends with.
-/

namespace Kaeyris.Lib

/-! ## Values -/

namespace Json

/-- A string as its code points, among which a surrogate without its partner may be. -/
abbrev CodePoints := List Nat

def codePoints (s : List Char) : CodePoints := s.map Char.toNat

def char? (n : Nat) : Option Char := if n.isValidChar then some (Char.ofNat n) else none

def chars? (s : CodePoints) : Option (List Char) := s.mapM char?

def isAtomChar (c : Char) : Bool := c.isAlphanum || c == '+' || c == '-' || c == '.'

def digits (s : List Char) : Bool := s ≠ [] && s.all Char.isDigit

def exponent : List Char → Bool
  | [] => true
  | mark :: sign :: rest =>
      (mark == 'e' || mark == 'E') &&
        (digits (sign :: rest) || ((sign == '+' || sign == '-') && digits rest))
  | _ => false

def fraction : List Char → Bool
  | '.' :: rest =>
      digits (rest.takeWhile Char.isDigit) && exponent (rest.dropWhile Char.isDigit)
  | rest => exponent rest

def magnitude : List Char → Bool
  | '0' :: rest => fraction rest
  | first :: rest => first.isDigit && fraction (rest.dropWhile Char.isDigit)
  | [] => false

/-- The number grammar, with the three names that Python's module reads as numbers. -/
def isNumber (s : List Char) : Bool :=
  s.all isAtomChar &&
    (s == "NaN".toList || s == "Infinity".toList || s == "-Infinity".toList ||
      match s with
      | '-' :: rest => magnitude rest
      | rest => magnitude rest)

structure NumberLiteral where
  text : List Char
  valid : isNumber text = true

end Json

/-- A number is kept as it is written, an object with its names in the order of the text. -/
inductive Json (σ : Type)
  | null
  | bool (value : Bool)
  | number (literal : Json.NumberLiteral)
  | string (value : σ)
  | list (items : List (Json σ))
  | object (fields : List (σ × Json σ))

namespace Json

variable {σ τ : Type}

abbrev Value := Json (List Char)

mutual

def map (f : σ → τ) : Json σ → Json τ
  | null => null
  | bool value => bool value
  | number literal => number literal
  | string s => string (f s)
  | list items => list (mapItems f items)
  | object fields => object (mapFields f fields)

def mapItems (f : σ → τ) : List (Json σ) → List (Json τ)
  | [] => []
  | item :: rest => map f item :: mapItems f rest

def mapFields (f : σ → τ) : List (σ × Json σ) → List (τ × Json τ)
  | [] => []
  | (name, item) :: rest => (f name, map f item) :: mapFields f rest

end

theorem mapFields_eq (f : σ → τ) (fields : List (σ × Json σ)) :
    mapFields f fields = fields.map fun entry => (f entry.1, entry.2.map f) := by
  induction fields with
  | nil => rfl
  | cons entry fields ih => rw [mapFields, ih, List.map_cons]

theorem mapItems_eq (f : σ → τ) (items : List (Json σ)) : mapItems f items = items.map (map f) := by
  induction items with
  | nil => rfl
  | cons item items ih => rw [mapItems, ih, List.map_cons]

section Field
variable [DecidableEq σ]

/-- `dict.get`: of two equal names the later one counts. -/
def field (fields : List (σ × Json σ)) (name : σ) : Option (Json σ) :=
  (fields.reverse.find? fun entry => entry.1 = name).map Prod.snd

theorem field_of_nodup {fields : List (σ × Json σ)}
    (distinct : (fields.map Prod.fst).Nodup) (name : σ) :
    field fields name = (fields.find? fun entry => entry.1 = name).map Prod.snd := by
  induction fields with
  | nil => rfl
  | cons entry fields ih =>
      obtain ⟨others, distinct⟩ := List.nodup_cons.mp distinct
      have later := ih distinct
      rw [field] at later ⊢
      rw [List.reverse_cons, List.find?_append, List.find?_cons]
      by_cases same : entry.1 = name
      · have absent : (fields.reverse.find? fun entry => entry.1 = name) = none := by
          rw [List.find?_eq_none]
          intro other member equal
          rw [decide_eq_true_eq] at equal
          exact others (List.mem_map.mpr ⟨other, List.mem_reverse.mp member, equal.trans same.symm⟩)
        simp [absent, same]
      · simp [same, later]

theorem field_mapFields [DecidableEq τ] {f : σ → τ} (injective : Function.Injective f)
    (fields : List (σ × Json σ)) (name : σ) :
    field (mapFields f fields) (f name) = (field fields name).map (map f) := by
  rw [field, field, mapFields_eq, ← List.map_reverse, List.find?_map, Option.map_map, Option.map_map]
  congr 1
  congr 1
  funext entry
  simp [injective.eq_iff]

end Field

/-! ## Writing -/

def hexDigit (n : Nat) : Char := if n < 10 then Char.ofNat (48 + n) else Char.ofNat (87 + n)

def units (c : Char) : List Nat :=
  let n := c.toNat
  if n < 0x10000 then [n]
  else [0xd800 + (n - 0x10000) / 0x400, 0xdc00 + (n - 0x10000) % 0x400]

def escapeUnit (n : Nat) : List Char :=
  ['\\', 'u', hexDigit (n / 0x1000 % 16), hexDigit (n / 0x100 % 16), hexDigit (n / 0x10 % 16),
    hexDigit (n % 16)]

def shortEscape : Char → Option Char
  | '"' => some '"'
  | '\\' => some '\\'
  | '\n' => some 'n'
  | '\r' => some 'r'
  | '\t' => some 't'
  | '\x0c' => some 'f'
  | '\x08' => some 'b'
  | _ => none

def isPlain (c : Char) : Bool := 0x20 ≤ c.toNat && c.toNat ≤ 0x7e

/-- One character in a string, with `ensure_ascii`. -/
def escapeChar (c : Char) : List Char :=
  match shortEscape c with
  | some letter => ['\\', letter]
  | none => if isPlain c then [c] else (units c).flatMap escapeUnit

def escape (s : List Char) : List Char := s.flatMap escapeChar

def quote (s : List Char) : List Char := '"' :: escape s ++ ['"']

mutual

def dumps : Value → List Char
  | null => "null".toList
  | bool true => "true".toList
  | bool false => "false".toList
  | number literal => literal.text
  | string s => quote s
  | list items => '[' :: dumpsItems items ++ [']']
  | object fields => '{' :: dumpsFields fields ++ ['}']

def dumpsItems : List Value → List Char
  | [] => []
  | [item] => dumps item
  | item :: next :: rest => dumps item ++ [',', ' '] ++ dumpsItems (next :: rest)

def dumpsFields : List (List Char × Value) → List Char
  | [] => []
  | [(name, item)] => quote name ++ [':', ' '] ++ dumps item
  | (name, item) :: next :: rest =>
      quote name ++ [':', ' '] ++ dumps item ++ [',', ' '] ++ dumpsFields (next :: rest)

end

/-! ## Scanning -/

/-- An atom is a number, a literal name, or what takes the place of one. -/
inductive Token
  | beginList
  | endList
  | beginObject
  | endObject
  | colon
  | comma
  | string (value : CodePoints)
  | atom (text : List Char)
  | bad

def hexValue (c : Char) : Option Nat :=
  let n := c.toNat
  if 48 ≤ n ∧ n ≤ 57 then some (n - 48)
  else if 97 ≤ n ∧ n ≤ 102 then some (n - 87)
  else if 65 ≤ n ∧ n ≤ 70 then some (n - 55)
  else none

def unescape : Char → Option Char
  | '"' => some '"'
  | '\\' => some '\\'
  | '/' => some '/'
  | 'n' => some '\n'
  | 'r' => some '\r'
  | 't' => some '\t'
  | 'f' => some '\x0c'
  | 'b' => some '\x08'
  | _ => none

/-- The code points of a string, with the escaped surrogate pairs joined. -/
def joinUnits : List Nat → CodePoints
  | high :: low :: rest =>
      if 0xd800 ≤ high ∧ high < 0xdc00 ∧ 0xdc00 ≤ low ∧ low < 0xe000 then
        (0x10000 + (high - 0xd800) * 0x400 + (low - 0xdc00)) :: joinUnits rest
      else high :: joinUnits (low :: rest)
  | [last] => [last]
  | [] => []

def flush : List Char → List Token
  | [] => []
  | atom => [.atom atom]

/-- Where the scanner is. In an escape `\u`, `left` digits follow the next one. -/
inductive Mode
  | between (atom : List Char)
  | inString (read : List Nat)
  | escaped (read : List Nat)
  | hex (read : List Nat) (left value : Nat)

def punctuation : Char → Token
  | '[' => .beginList
  | ']' => .endList
  | '{' => .beginObject
  | '}' => .endObject
  | ':' => .colon
  | ',' => .comma
  | _ => .bad

def isBlank (c : Char) : Bool := c == ' ' || c == '\t' || c == '\n' || c == '\r'

def Mode.step : Mode → Char → Mode × List Token
  | .between atom, c =>
      if isAtomChar c then (.between (atom ++ [c]), [])
      else if c = '"' then (.inString [], flush atom)
      else if isBlank c then (.between [], flush atom)
      else (.between [], flush atom ++ [punctuation c])
  | .inString read, c =>
      if c = '"' then (.between [], [.string (joinUnits read)])
      else if c = '\\' then (.escaped read, [])
      -- Control characters are not allowed in strings.
      else if c.toNat < 0x20 then (.between [], [.bad])
      else (.inString (read ++ [c.toNat]), [])
  | .escaped read, c =>
      if c = 'u' then (.hex read 3 0, [])
      else
        match unescape c with
        | some meant => (.inString (read ++ [meant.toNat]), [])
        | none => (.between [], [.bad])
  | .hex read left value, c =>
      match hexValue c, left with
      | none, _ => (.between [], [.bad])
      | some digit, 0 => (.inString (read ++ [16 * value + digit]), [])
      | some digit, left + 1 => (.hex read left (16 * value + digit), [])

/-- A text may end after an atom, but not inside of a string. -/
def Mode.finish : Mode → List Token
  | .between atom => flush atom
  | _ => [.bad]

def run : Mode → List Char → Mode × List Token
  | mode, [] => (mode, [])
  | mode, c :: rest =>
      let last := run (mode.step c).1 rest
      (last.1, (mode.step c).2 ++ last.2)

def scanFrom (mode : Mode) (s : List Char) : List Token :=
  let last := run mode s
  last.2 ++ last.1.finish

def scan (s : List Char) : List Token := scanFrom (.between []) s

/-! ## Parsing -/

/-- What readers of JSON differ in: their strings, the most digits of an integer, and how many lists
and objects may be open at a time. -/
structure Dialect (σ : Type) where
  text : CodePoints → Option σ
  digits : Option Nat
  depth : Option Nat

/-- `JSONDecodeError`, the `ValueError` of an integer with too many digits, and `RecursionError`. -/
inductive LoadError
  | decode
  | value
  | recursion
  deriving DecidableEq

def exceeds : Option Nat → Nat → Bool
  | some limit, n => limit < n
  | none, _ => false

def atomValue (atom : List Char) : Option (Json σ) :=
  if atom = "null".toList then some null
  else if atom = "true".toList then some (bool true)
  else if atom = "false".toList then some (bool false)
  else if valid : isNumber atom = true then some (number ⟨atom, valid⟩)
  else none

def startsReal : List Char → Bool
  | '.' :: c :: _ => c.isDigit
  | mark :: c :: rest =>
      (mark == 'e' || mark == 'E') &&
        (c.isDigit || ((c == '+' || c == '-') && rest.head?.any Char.isDigit))
  | _ => false

/-- The length of the integer that an atom begins with, whatever comes after it. -/
def integerDigits (atom : List Char) : Nat :=
  let unsigned := match atom with
    | '-' :: rest => rest
    | rest => rest
  let digits := match unsigned.takeWhile Char.isDigit with
    | '0' :: _ => ['0']
    | digits => digits
  if startsReal (unsigned.drop digits.length) then 0 else digits.length

/-- An open list, or an open object with the name of the value that comes next. -/
inductive Frame (σ : Type)
  | list (items : List (Json σ))
  | object (fields : List (σ × Json σ)) (name : σ)

/-- What may come next: a value, or also the end of what was just opened, a name, a colon, or what
follows a value. -/
inductive Parse (σ : Type)
  | value (stack : List (Frame σ))
  | listStart (stack : List (Frame σ))
  | objectStart (stack : List (Frame σ))
  | name (fields : List (σ × Json σ)) (stack : List (Frame σ))
  | colon (fields : List (σ × Json σ)) (name : σ) (stack : List (Frame σ))
  | after (found : Json σ) (stack : List (Frame σ))

namespace Parse

variable (d : Dialect σ)

def open? (stack : List (Frame σ)) (next : Parse σ) : Except LoadError (Parse σ) :=
  if exceeds d.depth (stack.length + 1) then .error .recursion else .ok next

def begin (stack : List (Frame σ)) : Token → Except LoadError (Parse σ)
  | .beginList => open? d stack (.listStart stack)
  | .beginObject => open? d stack (.objectStart stack)
  | .string s =>
      match d.text s with
      | some s => .ok (.after (.string s) stack)
      | none => .error .decode
  | .atom text =>
      if exceeds d.digits (integerDigits text) then .error .value
      else
        match atomValue text with
        | some v => .ok (.after v stack)
        | none => .error .decode
  | _ => .error .decode

def member (fields : List (σ × Json σ)) (stack : List (Frame σ)) :
    Token → Except LoadError (Parse σ)
  | .string s =>
      match d.text s with
      | some s => .ok (.colon fields s stack)
      | none => .error .decode
  | _ => .error .decode

def step : Parse σ → Token → Except LoadError (Parse σ)
  | .value stack, token => begin d stack token
  | .listStart stack, .endList => .ok (.after (.list []) stack)
  | .listStart stack, token => begin d (.list [] :: stack) token
  | .objectStart stack, .endObject => .ok (.after (.object []) stack)
  | .objectStart stack, token => member d [] stack token
  | .name fields stack, token => member d fields stack token
  | .colon fields key stack, .colon => .ok (.value (.object fields key :: stack))
  | .after v (.list items :: stack), .comma => .ok (.value (.list (items ++ [v]) :: stack))
  | .after v (.list items :: stack), .endList => .ok (.after (.list (items ++ [v])) stack)
  | .after v (.object fields key :: stack), .comma => .ok (.name (fields ++ [(key, v)]) stack)
  | .after v (.object fields key :: stack), .endObject =>
      .ok (.after (.object (fields ++ [(key, v)])) stack)
  | _, _ => .error .decode

def feed (parse : Parse σ) (tokens : List Token) : Except LoadError (Parse σ) :=
  tokens.foldlM (step d) parse

def result : Parse σ → Except LoadError (Json σ)
  | .after v [] => .ok v
  | _ => .error .decode

end Parse

def load (d : Dialect σ) (s : List Char) : Except LoadError (Json σ) :=
  (Parse.feed d (.value []) (scan s)).bind Parse.result

/-- A reader without limits, whose strings are made of characters. -/
def strict : Dialect (List Char) := ⟨chars?, none, none⟩

def loads (s : List Char) : Option Value := (load strict s).toOption

end Json

end Kaeyris.Lib
