import Kaeyris.ElementCards
import Kaeyris.Lib.Json.Fragments
import Kaeyris.Proof.GeneratedElements

/-!
# Recovering a card from a reply

A card as `json.dumps` writes it, among text without braces and backticks or in a fence. The last
strategy always finds the card; the two before it are followed through the scanner.
-/

namespace Kaeyris.Proof
open Lib Lib.Json ElementCards

/-! ## Cards -/

structure Item where
  fields : List (Text × Text)
  complete : (fields.map Prod.fst).Perm ["name".toList, "description".toList]

/-- An object with the four buckets, in any order. -/
structure Card where
  buckets : List (Text × List Item)
  complete : (buckets.map Prod.fst).Perm elementKeys

def Item.get (item : Item) (key : String) : Text :=
  ((item.fields.find? fun field => field.1 = key.toList).map Prod.snd).getD []

def Item.members (item : Item) : List (Text × Json.Value) :=
  item.fields.map fun field => (field.1, .string field.2)

def Item.toJson (item : Item) : Json.Value := .object item.members

def Card.get (card : Card) (key : String) : List Item :=
  ((card.buckets.find? fun bucket => bucket.1 = key.toList).map Prod.snd).getD []

def Card.members (card : Card) : List (Text × Json.Value) :=
  card.buckets.map fun bucket => (bucket.1, .list (bucket.2.map Item.toJson))

def Card.toJson (card : Card) : Json.Value := .object card.members

def Card.bucket (card : Card) (key : String) : List (Text × Text) :=
  (card.get key).filterMap fun item =>
    if Text.strip (item.get "name") = [] then none
    else some (Text.strip (item.get "name"), Text.strip (item.get "description"))

def Card.normalised (card : Card) : Buckets :=
  let bucket (key : String) := (card.bucket key).map (Prod.map codePoints codePoints)
  ⟨bucket "npcs", bucket "locations", bucket "items", bucket "clues"⟩

/-! ## Fences -/

theorem splitFence_some {s before after : Text} (found : splitFence s = some (before, after)) :
    s = before ++ '`' :: '`' :: '`' :: after := by
  induction s using splitFence.induct generalizing before after with
  | case1 rest =>
      cases found
      rfl
  | case2 c rest other ih =>
      rw [splitFence] at found
      · obtain ⟨⟨front, back⟩, later, same⟩ := Option.map_eq_some_iff.mp found
        cases same
        rw [List.cons_append, ← ih later]
      · exact other
  | case3 => cases found

theorem splitFence_cons {c : Char} (other : c ≠ '`') (s : Text) :
    splitFence (c :: s) = (splitFence s).map fun parts => (c :: parts.1, parts.2) := by
  rw [splitFence]
  exact fun rest same _ => other same

theorem splitFence_prefix {before : Text} (clean : '`' ∉ before) (s : Text) :
    splitFence (before ++ s) =
      (splitFence s).map fun parts => (before ++ parts.1, parts.2) := by
  induction before with
  | nil => simp
  | cons c before ih =>
      rw [List.mem_cons, not_or] at clean
      rw [List.cons_append, splitFence_cons (Ne.symm clean.1), ih clean.2, Option.map_map]
      rfl

theorem splitFence_append {s rest : Text} {c : Char} (other : c ≠ '`') :
    splitFence (s ++ c :: rest) =
      match splitFence s with
      | some (before, after) => some (before, after ++ c :: rest)
      | none => (splitFence rest).map fun parts => (s ++ c :: parts.1, parts.2) := by
  induction s using splitFence.induct with
  | case1 later => rfl
  | case2 d later noFence ih =>
      have whole : splitFence (d :: later) =
          (splitFence later).map fun parts => (d :: parts.1, parts.2) := by
        rw [splitFence]
        exact noFence
      rw [whole, List.cons_append, splitFence, ih]
      · cases splitFence later with
        | none => cases splitFence rest <;> rfl
        | some parts => rfl
      · -- Three backticks would have to reach past the separating character.
        intro others backtick same
        rcases later with _ | ⟨a, _ | ⟨b, later⟩⟩
        · exact other (List.cons.inj same).1
        · exact other (List.cons.inj (List.cons.inj same).2).1
        · simp only [List.cons_append, List.cons.injEq] at same
          obtain ⟨rfl, rfl, -⟩ := same
          exact noFence later backtick rfl
  | case3 => exact splitFence_cons other rest

/-! ## Inside a written string -/

theorem escape_uncons {s rest after : Text} {c : Char} (notQuote : c ≠ '"')
    (notBackslash : c ≠ '\\') (same : escape s ++ '"' :: after = c :: rest) :
    ∃ s', s = c :: s' ∧ rest = escape s' ++ '"' :: after := by
  cases s with
  | nil => exact (notQuote (List.cons.inj same).1.symm).elim
  | cons d s =>
      change escapeChar d ++ escape s ++ '"' :: after = c :: rest at same
      rcases escapeChar_cases d with ⟨plain, -⟩ | ⟨more, written⟩
      · rw [plain, List.append_assoc, List.singleton_append] at same
        obtain ⟨rfl, rfl⟩ := List.cons.inj same
        exact ⟨s, rfl, rfl⟩
      · rw [written, List.cons_append, List.cons_append] at same
        exact (notBackslash (List.cons.inj same).1.symm).elim

theorem dropPrefix_escape (s after : Text) :
    ∃ s', dropPrefix "json".toList (escape s ++ '"' :: after) = escape s' ++ '"' :: after := by
  unfold dropPrefix
  split
  · rename_i front
    obtain ⟨rest, whole⟩ := List.isPrefixOf_iff_prefix.mp front
    obtain ⟨s₁, -, same⟩ := escape_uncons (by decide) (by decide) whole.symm
    obtain ⟨s₂, -, same⟩ := escape_uncons (by decide) (by decide) same.symm
    obtain ⟨s₃, -, same⟩ := escape_uncons (by decide) (by decide) same.symm
    obtain ⟨s₄, -, same⟩ := escape_uncons (by decide) (by decide) same.symm
    exact ⟨s₄, by rw [← whole, List.drop_left, ← same]; rfl⟩
  · exact ⟨s, rfl⟩

theorem lstrip_escape (s after : Text) :
    ∃ s', Text.lstrip (escape s ++ '"' :: after) = escape s' ++ '"' :: after := by
  induction s with
  | nil => exact ⟨[], List.dropWhile_cons_of_neg (by decide)⟩
  | cons c s ih =>
      obtain ⟨s', rest⟩ := ih
      change ∃ s', Text.lstrip (escapeChar c ++ escape s ++ '"' :: after) = _
      rcases escapeChar_cases c with ⟨plain, -⟩ | ⟨more, written⟩
      · by_cases blank : Text.isSpace c
        · refine ⟨s', ?_⟩
          rw [plain, List.append_assoc, List.singleton_append, Text.lstrip,
            List.dropWhile_cons_of_pos blank]
          exact rest
        · refine ⟨c :: s, ?_⟩
          rw [plain, List.append_assoc, List.singleton_append, Text.lstrip,
            List.dropWhile_cons_of_neg blank]
          change _ = escapeChar c ++ escape s ++ _
          rw [plain]
          rfl
      · refine ⟨c :: s, ?_⟩
        rw [written, List.append_assoc, List.cons_append, Text.lstrip,
          List.dropWhile_cons_of_neg (by decide)]
        change _ = escapeChar c ++ escape s ++ _
        rw [written]
        simp

theorem rstrip_append {before after : Text} {c : Char} (content : ¬Text.isSpace c) :
    Text.rstrip (before ++ c :: after) = before ++ c :: Text.rstrip after := by
  induction after using List.reverseRecOn with
  | nil => exact List.rdropWhile_concat_neg _ _ _ content
  | append_singleton after d ih =>
      have shape : before ++ c :: (after ++ [d]) = (before ++ c :: after) ++ [d] := by simp
      unfold Text.rstrip at ih ⊢
      rw [shape]
      by_cases blank : Text.isSpace d
      · rw [List.rdropWhile_concat_pos _ _ _ blank, List.rdropWhile_concat_pos _ _ _ blank, ih]
      · rw [List.rdropWhile_concat_neg _ _ _ blank, List.rdropWhile_concat_neg _ _ _ blank, shape]

/-! ## The shape of a written card -/

def Structural (c : Char) : Prop := c ∈ ['{', '}', '[', ']', ',', ':', ' ']

instance (c : Char) : Decidable (Structural c) :=
  inferInstanceAs (Decidable (c ∈ ['{', '}', '[', ']', ',', ':', ' ']))

def IsName (name : Text) : Prop := name ∈ elementKeys ++ ["name".toList, "description".toList]

/-- The text from some point between two strings on. Right after the string of a value, the next
string is the name of a member. -/
inductive Follows : Bool → Text → Prop
  | stop {afterValue : Bool} {rest : Text} (clean : '`' ∉ rest) : Follows afterValue rest
  | name {afterValue : Bool} {sep name rest : Text} (structural : ∀ c ∈ sep, Structural c)
      (named : IsName name) (later : Follows false rest) :
      Follows afterValue (sep ++ '"' :: name ++ '"' :: rest)
  | value {sep s rest : Text} (structural : ∀ c ∈ sep, Structural c) (later : Follows true rest) :
      Follows false (sep ++ '"' :: escape s ++ '"' :: rest)

theorem Structural.clean {c : Char} (structural : Structural c) : c ≠ '`' := by
  rintro rfl
  exact absurd structural (by decide)

theorem structural_clean {sep : Text} (structural : ∀ c ∈ sep, Structural c) : '`' ∉ sep :=
  fun member => (structural _ member).clean rfl

theorem IsName.letters {name : Text} (named : IsName name) :
    (∀ c ∈ name, isAtomChar c) ∧ '`' ∉ name ∧
      (name ≠ [] ∧ (atomValue name : Option Document) = none) ∧ escape name = name := by
  simp only [IsName, elementKeys, List.cons_append, List.nil_append, List.mem_cons,
    List.not_mem_nil, or_false] at named
  rcases named with rfl | rfl | rfl | rfl | rfl | rfl <;>
    exact ⟨List.all_eq_true.mp rfl, by decide, ⟨by decide, rfl⟩, by decide⟩

theorem Follows.weaken {rest : Text} {afterValue : Bool} (follows : Follows true rest) :
    Follows afterValue rest := by
  cases follows with
  | stop clean => exact .stop clean
  | name structural named later => exact .name structural named later

theorem Follows.cons {c : Char} {rest : Text} {afterValue : Bool} (structural : Structural c)
    (follows : Follows afterValue rest) : Follows afterValue (c :: rest) := by
  have more {sep : Text} (others : ∀ d ∈ sep, Structural d) : ∀ d ∈ c :: sep, Structural d := by
    rintro d (- | ⟨-, member⟩)
    · exact structural
    · exact others d member
  cases follows with
  | stop clean =>
      refine .stop fun member => ?_
      rcases List.mem_cons.mp member with same | later
      · exact structural.clean same.symm
      · exact clean later
  | name others named later => exact .name (more others) named later
  | value others later => exact .value (more others) later

theorem Follows.members {fields : List (Text × Text)} {rest : Text} {afterValue : Bool}
    (named : ∀ field ∈ fields, IsName field.1) (later : Follows true rest) :
    Follows afterValue
      (dumpsFields (fields.map fun field => (field.1, Json.string field.2)) ++ rest) := by
  have member {name value rest : Text} {afterValue : Bool} (isName : IsName name)
      (later : Follows true rest) :
      Follows afterValue (quote name ++ [':', ' '] ++ quote value ++ rest) := by
    have value : Follows false ([':', ' '] ++ '"' :: escape value ++ '"' :: rest) :=
      .value (by simp [Structural]) later
    have whole : Follows afterValue ([] ++ '"' :: name ++ '"' :: _) :=
      .name (by simp) isName value
    simpa [quote, isName.letters.2.2.2] using whole
  induction fields generalizing afterValue with
  | nil => exact later.weaken
  | cons field fields ih =>
      obtain ⟨name, value⟩ := field
      have isName := named (name, value) (by simp)
      cases fields with
      | nil =>
          simp only [List.map_cons, List.map_nil, dumpsFields, dumps]
          exact member isName later
      | cons next fields =>
          have tail := @ih true fun field among => named field (List.mem_cons_of_mem _ among)
          have comma := (tail.cons (c := ' ') (by decide)).cons (c := ',') (by decide)
          have whole : Follows afterValue (quote name ++ [':', ' '] ++ quote value ++ _) :=
            member isName comma
          simpa [dumpsFields, dumps] using whole

theorem Item.named (item : Item) : ∀ field ∈ item.fields, IsName field.1 := by
  intro field member
  have listed := item.complete.mem_iff.mp (List.mem_map.mpr ⟨field, member, rfl⟩)
  exact List.mem_append.mpr (.inr listed)

theorem Card.named (card : Card) : ∀ bucket ∈ card.buckets, IsName bucket.1 := by
  intro bucket member
  have listed := card.complete.mem_iff.mp (List.mem_map.mpr ⟨bucket, member, rfl⟩)
  exact List.mem_append.mpr (.inl listed)

theorem Follows.item (item : Item) {rest : Text} {afterValue : Bool} (later : Follows true rest) :
    Follows afterValue (dumps item.toJson ++ rest) := by
  have members := @Follows.members _ _ afterValue item.named (later.cons (c := '}') (by decide))
  have whole := members.cons (c := '{') (by decide)
  simpa [Item.toJson, Item.members, dumps] using whole

theorem Follows.items (items : List Item) {rest : Text} {afterValue : Bool}
    (later : Follows true rest) :
    Follows afterValue (dumpsItems (items.map Item.toJson) ++ rest) := by
  induction items generalizing afterValue with
  | nil => exact later.weaken
  | cons item items ih =>
      cases items with
      | nil => simpa [dumpsItems] using Follows.item item later
      | cons next items =>
          have comma := ((@ih true).cons (c := ' ') (by decide)).cons (c := ',') (by decide)
          have whole : Follows afterValue (dumps item.toJson ++ _) := .item item comma
          simpa [dumpsItems] using whole

theorem Follows.buckets {buckets : List (Text × List Item)} {rest : Text} {afterValue : Bool}
    (named : ∀ bucket ∈ buckets, IsName bucket.1) (later : Follows true rest) :
    Follows afterValue (dumpsFields (buckets.map fun bucket =>
      (bucket.1, Json.list (bucket.2.map Item.toJson))) ++ rest) := by
  have member {name rest : Text} {items : List Item} {afterValue : Bool} (isName : IsName name)
      (later : Follows true rest) : Follows afterValue
        (quote name ++ [':', ' '] ++ dumps (.list (items.map Item.toJson)) ++ rest) := by
    have items := @Follows.items items _ false (later.cons (c := ']') (by decide))
    have inside := items.cons (c := '[') (by decide)
    have value := (inside.cons (c := ' ') (by decide)).cons (c := ':') (by decide)
    have whole : Follows afterValue ([] ++ '"' :: name ++ '"' :: _) :=
      .name (by simp) isName value
    simpa [quote, isName.letters.2.2.2, dumps] using whole
  induction buckets generalizing afterValue with
  | nil => exact later.weaken
  | cons bucket buckets ih =>
      obtain ⟨name, items⟩ := bucket
      have isName := named (name, items) (by simp)
      cases buckets with
      | nil =>
          simp only [List.map_cons, List.map_nil, dumpsFields]
          exact member isName later
      | cons next buckets =>
          have tail := @ih true fun bucket among => named bucket (List.mem_cons_of_mem _ among)
          have comma := (tail.cons (c := ' ') (by decide)).cons (c := ',') (by decide)
          have whole : Follows afterValue (quote name ++ [':', ' '] ++
              dumps (.list (items.map Item.toJson)) ++ _) := member isName comma
          simpa [dumpsFields] using whole

theorem Follows.card (card : Card) {rest : Text} (clean : '`' ∉ rest) :
    Follows false (dumps card.toJson ++ rest) := by
  have last : Follows true ('}' :: rest) := (Follows.stop clean).cons (by decide)
  have buckets := @Follows.buckets _ _ false card.named last
  have whole := buckets.cons (c := '{') (by decide)
  simpa [Card.toJson, Card.members, dumps] using whole

/-! ## Backticks in a written card -/

theorem split_after {front rest before after : Text} (clean : '`' ∉ front)
    (same : front ++ rest = before ++ '`' :: after) :
    ∃ inner, before = front ++ inner ∧ rest = inner ++ '`' :: after := by
  rcases List.append_eq_append_iff.mp same with ⟨inner, rfl, rest⟩ | ⟨inner, rfl, rest⟩
  · exact ⟨inner, rfl, rest⟩
  · cases inner with
    | nil => exact ⟨[], by simp, by simpa using rest.symm⟩
    | cons c inner =>
        obtain ⟨rfl, -⟩ := List.cons.inj rest
        exact (clean (by simp)).elim

theorem cons_split {c d : Char} {rest more after : Text} (other : c ≠ d)
    (same : c :: rest = more ++ d :: after) :
    ∃ later, more = c :: later ∧ rest = later ++ d :: after := by
  cases more with
  | nil => exact (other (List.cons.inj same).1).elim
  | cons e more =>
      obtain ⟨rfl, tail⟩ := List.cons.inj same
      exact ⟨more, rfl, tail⟩

theorem escapeUnit_clean (n : Nat) : '`' ∉ escapeUnit n := by
  have digit (k : Nat) : '`' ≠ hexDigit (k % 16) := by
    intro same
    have read := hexValue_hexDigit (k % 16) (Nat.mod_lt _ (by decide))
    rw [← same] at read
    cases read
  simp [escapeUnit, digit]

theorem escapeChar_clean {c : Char} (other : c ≠ '`') : '`' ∉ escapeChar c := by
  unfold escapeChar
  split
  · rename_i letter short
    unfold shortEscape at short
    split at short <;> cases short <;> decide
  · split
    · simpa using Ne.symm other
    · rw [List.mem_flatMap]
      rintro ⟨n, -, member⟩
      exact escapeUnit_clean n member

theorem escape_split {s before after : Text} (same : escape s = before ++ '`' :: after) :
    ∃ s₁ s₂, before = escape s₁ ∧ after = escape s₂ := by
  induction s generalizing before with
  | nil =>
      have := congrArg List.length same
      simp [escape] at this
  | cons c s ih =>
      change escapeChar c ++ escape s = _ at same
      by_cases backtick : c = '`'
      · subst backtick
        cases before with
        | nil => exact ⟨[], s, rfl, (List.cons.inj same).2.symm⟩
        | cons d before =>
            obtain ⟨rfl, tail⟩ := List.cons.inj same
            obtain ⟨s₁, s₂, rfl, rfl⟩ := ih tail
            exact ⟨'`' :: s₁, s₂, rfl, rfl⟩
      · obtain ⟨inner, rfl, tail⟩ := split_after (escapeChar_clean backtick) same
        obtain ⟨s₁, s₂, rfl, rfl⟩ := ih tail
        exact ⟨c :: s₁, s₂, rfl, rfl⟩

theorem structural_kind {c : Char} (structural : Structural c) :
    (∃ token, (Mode.between []).step c = (.between [], [token])) ∨ isBlank c = true := by
  simp only [Structural, List.mem_cons, List.not_mem_nil, or_false] at structural
  rcases structural with rfl | rfl | rfl | rfl | rfl | rfl | rfl
  all_goals first | exact .inl ⟨_, rfl⟩ | exact .inr rfl

theorem run_structural {sep : Text} (structural : ∀ c ∈ sep, Structural c) :
    ∃ found, run (.between []) sep = (.between [], found) := by
  induction sep with
  | nil => exact ⟨[], rfl⟩
  | cons c sep ih =>
      obtain ⟨found, later⟩ := ih fun d member => structural d (List.mem_cons_of_mem _ member)
      rcases structural_kind (structural c (by simp)) with ⟨token, meaning⟩ | blank
      · refine ⟨token :: found, ?_⟩
        rw [run_punctuation token meaning, later]
        rfl
      · exact ⟨found, (run_blank blank sep).trans later⟩

theorem run_string {sep s front : Text} {found : List Token}
    (structural : ∀ c ∈ sep, Structural c)
    (later : run (.between []) front = (.between [], found)) :
    ∃ found, run (.between []) (sep ++ quote s ++ front) = (.between [], found) := by
  obtain ⟨early, separated⟩ := run_structural structural
  refine ⟨early ++ ([.string (codePoints s)] ++ found), ?_⟩
  rw [List.append_assoc, run_append separated, run_append (run_quote s), later]
  rfl

theorem Follows.split {rest before after : Text} {afterValue : Bool}
    (follows : Follows afterValue rest) (same : rest = before ++ '`' :: after) :
    ∃ front s₁ s₂ later found, before = front ++ '"' :: escape s₁ ∧
      after = escape s₂ ++ '"' :: later ∧ Follows true later ∧
      run (.between []) front = (.between [], found) := by
  induction follows generalizing before with
  | stop clean => exact (clean (by simp [same])).elim
  | @name _ sep name rest structural named later ih =>
      obtain ⟨-, letters, -, unescaped⟩ := named.letters
      have clean : '`' ∉ sep ++ quote name := by
        simp [quote, unescaped, structural_clean structural, letters]
      have shape : sep ++ '"' :: name ++ '"' :: rest = (sep ++ quote name) ++ rest := by
        simp [quote, unescaped]
      rw [shape] at same
      obtain ⟨inner, rfl, tail⟩ := split_after clean same
      obtain ⟨front, s₁, s₂, later, found, rfl, rfl, follows, reached⟩ := ih tail
      obtain ⟨found, reached⟩ := run_string (s := name) structural reached
      exact ⟨sep ++ quote name ++ front, s₁, s₂, later, found, by simp, rfl, follows, reached⟩
  | @value sep s rest structural later ih =>
      have clean : '`' ∉ sep ++ ['"'] := by simp [structural_clean structural]
      have shape : sep ++ '"' :: escape s ++ '"' :: rest =
          (sep ++ ['"']) ++ (escape s ++ '"' :: rest) := by simp
      rw [shape] at same
      obtain ⟨inner, rfl, tail⟩ := split_after clean same
      rcases List.append_eq_append_iff.mp tail with ⟨more, rfl, next⟩ | ⟨more, inside, next⟩
      · -- The backtick comes after this string.
        obtain ⟨more, rfl, remaining⟩ := cons_split (by decide) next
        obtain ⟨front, s₁, s₂, later, found, rfl, rfl, follows, reached⟩ := ih remaining
        obtain ⟨found, reached⟩ := run_string (s := s) structural reached
        exact ⟨sep ++ quote s ++ front, s₁, s₂, later, found, by simp [quote], rfl, follows, reached⟩
      · obtain ⟨more, rfl, rfl⟩ := cons_split (by decide) next
        obtain ⟨s₁, s₂, rfl, rfl⟩ := escape_split inside
        obtain ⟨found, reached⟩ := run_structural structural
        exact ⟨sep, s₁, s₂, rest, found, by simp, rfl, later, reached⟩

/-! ## The strategies on a written card -/

variable {py : Python}

theorem Item.field (item : Item) (key : String) :
    getPoints py (mapFields codePoints item.members) key =
      codePoints (Text.strip (item.get key)) := by
  have distinct : (item.members.map Prod.fst).Nodup := by
    have names : item.members.map Prod.fst = item.fields.map Prod.fst := by simp [Item.members]
    rw [names, item.complete.nodup_iff]
    decide
  rw [← stripPoints_codePoints, getPoints, field_mapFields codePoints_injective,
    field_of_nodup distinct, Item.members, List.find?_map, Option.map_map, Option.map_map, Item.get]
  change stripPoints (py.points (((item.fields.find? fun field => field.1 = key.toList).map _).getD
    _)) = _
  cases item.fields.find? fun field => field.1 = key.toList <;> rfl

theorem normalise_items (items : List Item) :
    normaliseElementList py (some ((Json.list (items.map Item.toJson)).map codePoints)) =
      (items.filterMap fun item =>
        if Text.strip (item.get "name") = [] then none
        else some (Text.strip (item.get "name"), Text.strip (item.get "description"))).map
          (Prod.map codePoints codePoints) := by
  rw [Json.map, mapItems_eq, normaliseElementList, List.map_map, List.filterMap_map,
    List.map_filterMap]
  refine List.filterMap_congr fun item _ => ?_
  change normaliseEntry py (.object (mapFields codePoints item.members)) = _
  have blank : codePoints (Text.strip (item.get "name")) = [] ↔ Text.strip (item.get "name") = [] :=
    List.map_eq_nil_iff
  simp only [normaliseEntry, item.field, blank]
  split <;> rfl

theorem Card.field (card : Card) (key : String) :
    normaliseElementList py (Json.field (mapFields codePoints card.members) (codePoints key.toList)) =
      (card.bucket key).map (Prod.map codePoints codePoints) := by
  have distinct : (card.members.map Prod.fst).Nodup := by
    have names : card.members.map Prod.fst = card.buckets.map Prod.fst := by simp [Card.members]
    rw [names, card.complete.nodup_iff]
    decide
  rw [field_mapFields codePoints_injective, field_of_nodup distinct, Card.members, List.find?_map,
    Option.map_map, Option.map_map, Card.bucket, Card.get]
  change normaliseElementList py
    ((card.buckets.find? fun bucket => bucket.1 = key.toList).map _) = _
  cases card.buckets.find? fun bucket => bucket.1 = key.toList with
  | none => rfl
  | some bucket => exact normalise_items bucket.2

theorem normalise_card (card : Card) :
    normalise py (card.toJson.map codePoints) = card.normalised := by
  simp only [normalise, Card.toJson, Json.map, fieldsOf, card.field]
  rfl

def noBuckets : Buckets := ⟨[], [], [], []⟩

theorem normalise_memberless {v : Document} (empty : ∀ fields, v = .object fields → fields = []) :
    normalise py v = noBuckets := by
  have none : fieldsOf v = [] := by
    cases v with
    | object fields => exact empty fields rfl
    | _ => rfl
  rw [normalise, none]
  rfl

/-- Free of what the strategies look for. -/
def Unmarked (s : Text) : Prop := '{' ∉ s ∧ '}' ∉ s ∧ '`' ∉ s

theorem dumps_card (card : Card) : ∃ inside, dumps card.toJson = '{' :: inside ++ ['}'] := by
  rw [Card.toJson, dumps]
  exact ⟨_, rfl⟩

theorem outermostBraces_card (card : Card) {before after : Text} (opening : '{' ∉ before)
    (closing : '}' ∉ after) :
    outermostBraces (before ++ dumps card.toJson ++ after) = some (dumps card.toJson) := by
  obtain ⟨inside, shape⟩ := dumps_card card
  rw [shape]
  have back : ('{' :: inside ++ ['}'] ++ after).rdropWhile (· ≠ '}') = '{' :: inside ++ ['}'] := by
    induction after using List.reverseRecOn with
    | nil => rw [List.append_nil, List.rdropWhile_concat_neg _ _ _ (by simp)]
    | append_singleton after c ih =>
        rw [List.mem_append, not_or, List.mem_singleton] at closing
        rw [← List.append_assoc, List.rdropWhile_concat_pos _ _ _ (by simpa using Ne.symm closing.2)]
        exact ih closing.1
  have front : (before ++ ('{' :: inside ++ ['}']) ++ after).dropWhile (· ≠ '{') =
      '{' :: inside ++ ['}'] ++ after := by
    rw [List.append_assoc, List.dropWhile_append_of_pos]
    · exact List.dropWhile_cons_of_neg (by simp)
    · intro c member
      exact decide_eq_true fun same => opening (same ▸ member)
  rw [outermostBraces, front, back]
  rfl

theorem fencedJson_some {raw block : Text} (found : fencedJson raw = some block) :
    ∃ before opened inside after, splitFence raw = some (before, opened) ∧
      splitFence (Text.lstrip (dropPrefix "json".toList opened)) = some (inside, after) ∧
      block = Text.rstrip inside := by
  obtain ⟨⟨before, opened⟩, first, found⟩ := Option.bind_eq_some_iff.mp found
  obtain ⟨⟨inside, after⟩, second, same⟩ := Option.bind_eq_some_iff.mp found
  exact ⟨before, opened, inside, after, first, second, (Option.some.inj same).symm⟩

theorem rstrip_initial (s : Text) : Text.rstrip s <+: s := List.rdropWhile_prefix _ s

theorem lossless : (dialect py).text = some := rfl

/-- A fence that opens in a card closes in the same string or after it. Neither makes an object
with members. -/
theorem fencedJson_card (card : Card) {before after block : Text} (front : '`' ∉ before)
    (back : '`' ∉ after)
    (found : fencedJson (before ++ dumps card.toJson ++ after) = some block)
    {fields : List (CodePoints × Document)} (read : load (dialect py) block = .ok (.object fields)) :
    fields = [] := by
  obtain ⟨outer, opened, inside, rest, first, second, rfl⟩ := fencedJson_some found
  have whole := splitFence_some first
  rw [List.append_assoc] at whole
  obtain ⟨inner, rfl, tail⟩ := split_after front whole
  obtain ⟨_, _, s₂, later, _, _, escaped, follows, -⟩ := (Follows.card card back).split tail
  obtain ⟨s₃, -, escaped⟩ := escape_uncons (by decide) (by decide) escaped.symm
  obtain ⟨s₄, -, rfl⟩ := escape_uncons (by decide) (by decide) escaped.symm
  obtain ⟨s₅, dropped⟩ := dropPrefix_escape s₄ later
  obtain ⟨s₆, stripped⟩ := lstrip_escape s₅ later
  rw [dropped, stripped, splitFence_append (by decide)] at second
  cases within : splitFence (escape s₆) with
  | some parts =>
      rw [within] at second
      cases second
      have cut : Text.rstrip parts.1 <+: escape s₆ := by
        rw [splitFence_some within]
        exact (rstrip_initial parts.1).trans (List.prefix_append _ _)
      exact load_part lossless cut read
  | none =>
      rw [within] at second
      obtain ⟨⟨beyond, left⟩, further, same⟩ := Option.map_eq_some_iff.mp second
      cases same
      have backtick := splitFence_some further
      cases follows with
      | stop clean => exact (clean (by simp [backtick])).elim
      | @name _ sep name last structural named _ =>
          obtain ⟨letters, clean, meaningless, -⟩ := named.letters
          have shape : sep ++ '"' :: name ++ '"' :: last = (sep ++ '"' :: name ++ ['"']) ++ last := by
            simp
          rw [shape] at backtick
          obtain ⟨more, rfl, -⟩ := split_after
            (by simp [structural_clean structural, clean]) backtick
          have plain : ∀ c ∈ sep, isPlain c ∧ c ≠ '"' ∧ c ≠ '\\' := by
            intro c member
            have kind := structural c member
            simp only [Structural, List.mem_cons, List.not_mem_nil, or_false] at kind
            rcases kind with rfl | rfl | rfl | rfl | rfl | rfl | rfl <;> decide
          have across := load_across (d := dialect py) (s := s₆) (Text.rstrip more) plain letters
            meaningless.1 meaningless.2
          have kept : Text.rstrip (escape s₆ ++ '"' :: (sep ++ '"' :: name ++ ['"'] ++ more)) =
              escape s₆ ++ '"' :: sep ++ '"' :: name ++ '"' :: Text.rstrip more := by
            have shape : escape s₆ ++ '"' :: (sep ++ '"' :: name ++ ['"'] ++ more) =
                (escape s₆ ++ '"' :: sep ++ '"' :: name) ++ '"' :: more := by simp
            rw [shape, rstrip_append (by decide)]
          rw [kept] at read
          exact (across _ read).elim

/-! ## The two forms of a reply -/

def openingFence : Text := "```json\n".toList

def closingFence : Text := "\n```".toList

def fenced (s : Text) : Text := openingFence ++ s ++ closingFence

theorem fenced_append (s rest : Text) :
    fenced s ++ rest =
      '`' :: '`' :: '`' :: ("json\n".toList ++ (s ++ '\n' :: '`' :: '`' :: '`' :: rest)) := by
  have opening : openingFence = '`' :: '`' :: '`' :: "json\n".toList := rfl
  have closing : closingFence = ['\n', '`', '`', '`'] := rfl
  rw [fenced, opening, closing, List.append_assoc, List.append_assoc]
  rfl

/-- The line of an opening fence ends in a newline, which no string may contain. -/
theorem scanFrom_fence (mode : Mode) (rest : Text) :
    ∃ more, scanFrom mode (openingFence ++ rest) = mode.delimited ++ .bad :: more := by
  cases mode with
  | between atom =>
      have step : (Mode.between atom).step '`' = (.between [], flush atom ++ [.bad]) := rfl
      change ∃ more, scanFrom (.between atom) ('`' :: _) = _
      rw [scanFrom_cons step, List.append_assoc]
      exact ⟨_, rfl⟩
  | inString read =>
      obtain ⟨more, reached⟩ := run_plains (s := "```json".toList) read (by simp [isPlain])
      have broken : (Mode.inString more).step '\n' = (.between [], [.bad]) := rfl
      have shape : openingFence ++ rest = "```json".toList ++ '\n' :: rest := rfl
      rw [shape, scanFrom_append reached, scanFrom_cons broken]
      exact ⟨_, rfl⟩
  | escaped read => exact ⟨_, rfl⟩
  | hex read left value => exact ⟨_, rfl⟩

theorem tryParseJson_none {payload : Text} (failed : load (dialect py) payload = .error .decode) :
    tryParseJson py payload = .ok none := by
  rw [tryParseJson, failed]

theorem tryParseJson_some {payload : Text} {v : Document}
    (read : tryParseJson py payload = .ok (some v)) : load (dialect py) payload = .ok v := by
  unfold tryParseJson at read
  split at read
  · cases read
  · cases read
  · rename_i parsed
    cases read
    exact parsed
  · cases read

theorem fits_card (py : Python) (card : Card) : Json.Fits (dialect py) 0 card.toJson := by
  have shallow {depth : Nat} (small : depth ≤ 3) : exceeds (dialect py).depth depth = false := by
    simpa [exceeds, dialect] using small.trans py.roomy
  have members (fields : List (Text × Text)) : FitFields (dialect py) 3
      (fields.map fun field => (field.1, Json.string field.2)) := by
    induction fields with
    | nil => trivial
    | cons field fields ih => exact ⟨trivial, ih⟩
  have items (found : List Item) : FitItems (dialect py) 2 (found.map Item.toJson) := by
    induction found with
    | nil => trivial
    | cons item found ih => exact ⟨⟨shallow (by decide), members item.fields⟩, ih⟩
  refine ⟨shallow (by decide), ?_⟩
  unfold Card.members
  induction card.buckets with
  | nil => trivial
  | cons bucket buckets ih => exact ⟨⟨shallow (by decide), items bucket.2⟩, ih⟩

theorem tryParseJson_around (card : Card) {before after : Text} (front : ∀ c ∈ before, isBlank c)
    (back : ∀ c ∈ after, isBlank c) :
    tryParseJson py (before ++ dumps card.toJson ++ after) =
      .ok (some (card.toJson.map codePoints)) := by
  have text (s : Text) : (dialect py).text (codePoints s) = some (codePoints s) := rfl
  rw [tryParseJson, load_dumps text (fits_card py card) front back]
  rfl

theorem tryParseJson_card (card : Card) :
    tryParseJson py (dumps card.toJson) = .ok (some (card.toJson.map codePoints)) := by
  have alone : tryParseJson py ([] ++ dumps card.toJson ++ []) =
      .ok (some (card.toJson.map codePoints)) :=
    tryParseJson_around card (by simp) (by simp)
  rwa [List.nil_append, List.append_nil] at alone

theorem fencedJson_fenced (card : Card) {before : Text} (clean : '`' ∉ before) (after : Text) :
    fencedJson (before ++ fenced (dumps card.toJson) ++ after) =
      some (match splitFence (dumps card.toJson) with
        | some parts => Text.rstrip parts.1
        | none => dumps card.toJson) := by
  obtain ⟨body, written⟩ := dumps_card card
  have trimmed : Text.rstrip (dumps card.toJson ++ ['\n']) = dumps card.toJson := by
    rw [written, List.append_assoc, List.singleton_append, rstrip_append (by decide)]
    rfl
  generalize dumps card.toJson = text at written trimmed
  -- The text after the opening fence.
  generalize same : text ++ '\n' :: '`' :: '`' :: '`' :: after = rest
  have opened : splitFence (before ++ fenced text ++ after) =
      some (before, "json\n".toList ++ rest) := by
    rw [List.append_assoc, fenced_append, splitFence_prefix clean, splitFence, Option.map_some,
      List.append_nil, same]
  have stripped : Text.lstrip (dropPrefix "json".toList ("json\n".toList ++ rest)) = rest := by
    have dropped : dropPrefix "json".toList ("json\n".toList ++ rest) = '\n' :: rest := rfl
    rw [dropped, Text.lstrip, List.dropWhile_cons_of_pos (by decide), ← same, written]
    exact List.dropWhile_cons_of_neg (by decide)
  have found : fencedJson (before ++ fenced text ++ after) =
      (splitFence rest).map fun parts => Text.rstrip parts.1 := by
    rw [fencedJson, opened, Option.bind_eq_bind, Option.bind_some]
    dsimp only
    rw [stripped]
    cases splitFence rest <;> rfl
  rw [found, ← same, splitFence_append (by decide)]
  cases splitFence text with
  | some parts => rfl
  | none => exact congrArg some trimmed

theorem tryParseJson_cut (card : Card) {before after : Text}
    (fence : dumps card.toJson = before ++ '`' :: after) :
    tryParseJson py (Text.rstrip before) = .ok none := by
  have follows : Follows false (dumps card.toJson ++ []) := .card card (by simp)
  rw [List.append_nil] at follows
  obtain ⟨front, s₁, s₂, later, found, rfl, rfl, -, reached⟩ := follows.split fence
  have text (s : Text) : (dialect py).text (codePoints s) = some (codePoints s) := rfl
  have whole := feed_tokens text card.toJson [] (fits_card py card)
  have scanned : tokens (card.toJson.map codePoints) =
      found ++ scan ('"' :: escape s₁ ++ '`' :: (escape s₂ ++ '"' :: later)) := by
    rw [← scan_of_reads (reads_dumps card.toJson), fence, List.append_assoc, scan,
      scanFrom_append reached]
    rfl
  rw [scanned, feed_append] at whole
  cases fed : Parse.feed (dialect py) (.value []) found with
  | error e =>
      rw [fed] at whole
      cases whole
  | ok parse =>
      rw [rstrip_append (by decide)]
      exact tryParseJson_none (load_cut reached fed (rstrip_initial _))

theorem recovered_error {raw : Text} {e : LoadError} (failed : tryParseJson py raw = .error e) :
    recovered py raw = .error e := by
  rw [recovered, firstParsed, failed]
  rfl

theorem recovered_direct {raw : Text} {v : Document} (read : tryParseJson py raw = .ok (some v)) :
    recovered py raw = .ok v := by
  rw [recovered, firstParsed, read]
  rfl

theorem recovered_fence {raw block : Text} (unread : tryParseJson py raw = .ok none)
    (found : fencedJson raw = some block) :
    recovered py raw = firstParsed py (block :: (outermostBraces raw).toList) := by
  rw [recovered, firstParsed, unread, found]
  rfl

theorem firstParsed_card (card : Card) :
    firstParsed py [dumps card.toJson] = .ok (card.toJson.map codePoints) := by
  rw [firstParsed, tryParseJson_card]
  rfl

/-- In a fence the card is found unless reading fails before it: a fence in it would cut a string. -/
theorem recovered_fenced (card : Card) {before after : Text} (front : Unmarked before)
    (back : Unmarked after)
    (proper : ∀ e, load (dialect py) (before ++ dumps card.toJson ++ after) = .error e →
      e = .decode) :
    recovered py (before ++ fenced (dumps card.toJson) ++ after) =
      .ok (card.toJson.map codePoints) := by
  obtain ⟨opening, -, ticks⟩ := front
  have whole : before ++ fenced (dumps card.toJson) ++ after =
      (before ++ openingFence) ++ dumps card.toJson ++ (closingFence ++ after) := by
    simp only [fenced, List.append_assoc]
  have direct : tryParseJson py (before ++ fenced (dumps card.toJson) ++ after) = .ok none := by
    have shape : before ++ fenced (dumps card.toJson) ++ after =
        before ++ (openingFence ++ (dumps card.toJson ++ closingFence ++ after)) := by
      simp only [fenced, List.append_assoc]
    obtain ⟨e, failed, early⟩ := @load_stuck _ (dialect py) _
      (fun mode => scanFrom_fence mode (dumps card.toJson ++ closingFence ++ after)) before
    rw [shape]
    rcases early with rfl | early
    · exact tryParseJson_none failed
    · -- The text before the fence is read in the same way before the card.
      obtain ⟨inside, written⟩ := dumps_card card
      have plain := early '{' (inside ++ ['}'] ++ after) (by decide)
      have same : before ++ dumps card.toJson ++ after = before ++ '{' :: (inside ++ ['}'] ++ after) :=
        by rw [written]; simp
      rw [← same] at plain
      obtain rfl := proper e plain
      exact tryParseJson_none failed
  have braces : outermostBraces (before ++ fenced (dumps card.toJson) ++ after) =
      some (dumps card.toJson) := by
    rw [whole]
    refine outermostBraces_card card ?_ ?_
    · rw [List.mem_append, not_or]
      exact ⟨opening, by decide⟩
    · rw [List.mem_append, not_or]
      exact ⟨by decide, back.2.1⟩
  rw [recovered_fence direct (fencedJson_fenced card ticks after), braces]
  cases inside : splitFence (dumps card.toJson) with
  | none =>
      dsimp only
      rw [firstParsed, tryParseJson_card]
      rfl
  | some parts =>
      dsimp only
      rw [firstParsed, tryParseJson_cut card (splitFence_some inside)]
      exact firstParsed_card card

theorem load_plain (card : Card) {before after : Text} (front : Unmarked before) {v : Document}
    (read : load (dialect py) (before ++ dumps card.toJson ++ after) = .ok v)
    (mixed : ¬∀ c ∈ before ++ after, isBlank c) : normalise py v = noBuckets := by
  rcases load_around lossless (fits_card py card) front.1 read with ⟨blank, blanks⟩ | flat
  · refine (mixed fun c member => ?_).elim
    rcases List.mem_append.mp member with early | late
    · exact blank c early
    · exact blanks c late
  · exact normalise_memberless fun fields same => (flat fields same).elim

/-- Reading ends in nothing that is not caught: no integer is too long and nothing is too deep, as far
as the texts are read. -/
def Caught (py : Python) (raw : Text) : Prop :=
  (∃ found, tryParseJson py raw = .ok found) ∧
    ∀ block, tryParseJson py raw = .ok none → fencedJson raw = some block →
      ∃ found, tryParseJson py block = .ok found

def Survives (py : Python) (card : Card) (before after : Text) : Prop :=
  Caught py (before ++ dumps card.toJson ++ after) ∧
    (card.normalised = noBuckets ∨ (∀ c ∈ before ++ after, isBlank c) ∨
      (tryParseJson py (before ++ dumps card.toJson ++ after) = .ok none ∧
        ∀ block, fencedJson (before ++ dumps card.toJson ++ after) = some block →
          tryParseJson py block = .ok none))

theorem parse_unread (card : Card) {raw : Text}
    (braces : outermostBraces raw = some (dumps card.toJson)) (unread : tryParseJson py raw = .ok none)
    (blocks : ∀ block, fencedJson raw = some block → tryParseJson py block = .ok none) :
    parseElementsResponse py raw = .ok card.normalised := by
  have last : recovered py raw = firstParsed py [dumps card.toJson] := by
    cases fence : fencedJson raw with
    | none =>
        rw [recovered, firstParsed, unread, fence, braces]
        rfl
    | some block =>
        rw [recovered_fence unread fence, braces, firstParsed, blocks block fence]
        rfl
  rw [parseElementsResponse, last, firstParsed_card]
  exact congrArg Except.ok (normalise_card card)

/-- Where reading ends in a document, it is that of the whole text or of the fence. -/
theorem parse_read {raw : Text} (caught : Caught py raw)
    (read : ¬(tryParseJson py raw = .ok none ∧
      ∀ block, fencedJson raw = some block → tryParseJson py block = .ok none)) :
    ∃ v, parseElementsResponse py raw = .ok (normalise py v) ∧
      (tryParseJson py raw = .ok (some v) ∨
        ∃ block, fencedJson raw = some block ∧ tryParseJson py block = .ok (some v)) := by
  obtain ⟨⟨found, direct⟩, blocks⟩ := caught
  cases found with
  | some v =>
      refine ⟨v, ?_, .inl direct⟩
      rw [parseElementsResponse, recovered_direct direct]
      rfl
  | none =>
      obtain ⟨block, fence, readable⟩ :
          ∃ block, fencedJson raw = some block ∧ tryParseJson py block ≠ .ok none := by
        by_contra missing
        refine read ⟨direct, fun block fence => ?_⟩
        by_contra readable
        exact missing ⟨block, fence, readable⟩
      obtain ⟨found, second⟩ := blocks block direct fence
      cases found with
      | none => exact (readable second).elim
      | some v =>
          refine ⟨v, ?_, .inr ⟨block, fence, second⟩⟩
          rw [parseElementsResponse, recovered_fence direct fence, firstParsed, second]
          rfl

theorem parse_uncaught {raw : Text} (uncaught : ¬Caught py raw) :
    ∃ e, parseElementsResponse py raw = .error e := by
  cases direct : tryParseJson py raw with
  | error e =>
      refine ⟨e, ?_⟩
      rw [parseElementsResponse, recovered_error direct]
      rfl
  | ok found =>
      have raises : ¬∀ block, tryParseJson py raw = .ok none → fencedJson raw = some block →
          ∃ found, tryParseJson py block = .ok found := fun all => uncaught ⟨⟨found, direct⟩, all⟩
      simp only [not_forall] at raises
      obtain ⟨block, unread, fence, fails⟩ := raises
      cases second : tryParseJson py block with
      | ok found => exact (fails ⟨found, second⟩).elim
      | error e =>
          refine ⟨e, ?_⟩
          rw [parseElementsResponse, recovered_fence unread fence, firstParsed, second]
          rfl

/-- What is read in the place of the card has no members. -/
theorem read_memberless (card : Card) {before after : Text} (front : Unmarked before)
    (back : Unmarked after) (mixed : ¬∀ c ∈ before ++ after, isBlank c) {v : Document}
    (found : tryParseJson py (before ++ dumps card.toJson ++ after) = .ok (some v) ∨
      ∃ block, fencedJson (before ++ dumps card.toJson ++ after) = some block ∧
        tryParseJson py block = .ok (some v)) : normalise py v = noBuckets := by
  rcases found with direct | ⟨block, fence, second⟩
  · exact load_plain card front (tryParseJson_some direct) mixed
  · exact normalise_memberless fun fields same =>
      fencedJson_card card front.2.2 back.2.2 fence (same ▸ tryParseJson_some second)

theorem parse_plain_iff (card : Card) {before after : Text} (front : Unmarked before)
    (back : Unmarked after) :
    parseElementsResponse py (before ++ dumps card.toJson ++ after) = .ok card.normalised ↔
      Survives py card before after := by
  by_cases blank : ∀ c ∈ before ++ after, isBlank c
  · have whole : tryParseJson py (before ++ dumps card.toJson ++ after) =
        .ok (some (card.toJson.map codePoints)) :=
      tryParseJson_around card (fun c member => blank c (List.mem_append_left _ member))
        fun c member => blank c (List.mem_append_right _ member)
    refine iff_of_true ?_ ⟨⟨⟨_, whole⟩, fun block unread => ?_⟩, .inr (.inl blank)⟩
    · rw [parseElementsResponse, recovered_direct whole]
      exact congrArg Except.ok (normalise_card card)
    · rw [whole] at unread
      cases unread
  by_cases caught : Caught py (before ++ dumps card.toJson ++ after)
  · by_cases unread : tryParseJson py (before ++ dumps card.toJson ++ after) = .ok none ∧
        ∀ block, fencedJson (before ++ dumps card.toJson ++ after) = some block →
          tryParseJson py block = .ok none
    · have braces := outermostBraces_card card front.1 back.2.1
      exact iff_of_true (parse_unread card braces unread.1 unread.2)
        ⟨caught, .inr (.inr unread)⟩
    · obtain ⟨v, parses, found⟩ := parse_read caught unread
      rw [parses, read_memberless card front back blank found]
      constructor
      · exact fun same => ⟨caught, .inl (Except.ok.inj same).symm⟩
      · rintro ⟨-, same | blanks | nothing⟩
        · rw [same]
        · exact (blank blanks).elim
        · exact (unread nothing).elim
  · obtain ⟨e, fails⟩ := parse_uncaught caught
    rw [fails]
    refine iff_of_false ?_ fun survives => caught survives.1
    intro impossible
    cases impossible

theorem Caught.proper {raw : Text} (caught : Caught py raw) {e : LoadError}
    (failed : load (dialect py) raw = .error e) : e = .decode := by
  obtain ⟨⟨found, read⟩, -⟩ := caught
  rw [tryParseJson, failed] at read
  cases e with
  | decode => rfl
  | _ => cases read

/-- Among other text the card may be missed; in a fence it never is, as far as texts are read at
all. -/
theorem parseElementsResponse_iff (py : Python) (card : Card) {before after : Text}
    (front : Unmarked before) (back : Unmarked after) :
    (parseElementsResponse py (before ++ dumps card.toJson ++ after) = .ok card.normalised ∧
      parseElementsResponse py (before ++ fenced (dumps card.toJson) ++ after) =
        .ok card.normalised) ↔ Survives py card before after := by
  rw [parse_plain_iff card front back]
  refine and_iff_left_of_imp fun survives => ?_
  rw [parseElementsResponse,
    recovered_fenced card front back fun e failed => survives.1.proper failed]
  exact congrArg Except.ok (normalise_card card)

def sampleCard : Card where
  buckets := [("npcs".toList, [⟨[("name".toList, "Gandalf".toList),
    ("description".toList, "Un magicien.".toList)], .refl _⟩]), ("locations".toList, []),
    ("items".toList, []), ("clues".toList, [])]
  complete := .refl _

theorem parseElementsResponse_iff_preamble :
    parseElementsResponse samplePython
        ("Voici : ".toList ++ dumps sampleCard.toJson ++ " Fin.".toList) =
          .ok sampleCard.normalised ∧
      parseElementsResponse samplePython
        ("Voici : ".toList ++ fenced (dumps sampleCard.toJson) ++ " Fin.".toList) =
          .ok sampleCard.normalised := by
  have unread : tryParseJson samplePython
      ("Voici : ".toList ++ dumps sampleCard.toJson ++ " Fin.".toList) = .ok none := rfl
  have noFence : fencedJson ("Voici : ".toList ++ dumps sampleCard.toJson ++ " Fin.".toList) =
      none := by decide +kernel
  refine (parseElementsResponse_iff samplePython sampleCard ⟨by decide, by decide, by decide⟩
    ⟨by decide, by decide, by decide⟩).mpr ⟨⟨⟨_, unread⟩, ?_⟩, .inr (.inr ⟨unread, ?_⟩)⟩
  · intro block _ found
    rw [noFence] at found
    cases found
  · intro block found
    rw [noFence] at found
    cases found

/-- The card in a list is JSON, but no object. -/
theorem parseElementsResponse_list :
    ¬∀ (py : Python) (card : Card) (before after : Text), Unmarked before → Unmarked after →
      parseElementsResponse py (before ++ dumps card.toJson ++ after) = .ok card.normalised := by
  intro always
  have found := always samplePython sampleCard ['['] [']'] ⟨by decide, by decide, by decide⟩
    ⟨by decide, by decide, by decide⟩
  have nothing : parseElementsResponse samplePython (['['] ++ dumps sampleCard.toJson ++ [']']) =
      .ok noBuckets := rfl
  have lost : noBuckets = sampleCard.normalised := Except.ok.inj (nothing.symm.trans found)
  have kept : sampleCard.normalised.npcs ≠ [] := by decide
  exact kept (congrArg Buckets.npcs lost).symm

end Kaeyris.Proof
