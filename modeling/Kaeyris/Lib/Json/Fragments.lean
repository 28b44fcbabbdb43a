import Kaeyris.Lib.Json.RoundTrip

/-!
# Texts around and inside of written values

What a reader makes of a text before a value, of a text that stops inside a string, and of the
inside of a string read as if it were outside. Here a parsed value says which tokens were read.
-/

namespace Kaeyris.Lib.Json

/-! ## The tokens of what is parsed -/

def memberTokens (field : CodePoints × Json CodePoints) : List Token :=
  .string field.1 :: .colon :: tokens field.2

def Frame.tokens : Frame CodePoints → List Token
  | .list items => .beginList :: items.flatMap fun item => item.tokens ++ [.comma]
  | .object fields name =>
      .beginObject :: (fields.flatMap fun field => memberTokens field ++ [.comma]) ++
        [.string name, .colon]

def openTokens : List (Frame CodePoints) → List Token
  | [] => []
  | frame :: stack => openTokens stack ++ frame.tokens

/-- What has been read in a state of the parser. -/
def Parse.tokens : Parse CodePoints → List Token
  | .value stack => openTokens stack
  | .listStart stack => openTokens stack ++ [.beginList]
  | .objectStart stack => openTokens stack ++ [.beginObject]
  | .name fields stack =>
      openTokens stack ++ .beginObject :: fields.flatMap fun field => memberTokens field ++ [.comma]
  | .colon fields key stack =>
      openTokens stack ++
        (.beginObject :: (fields.flatMap fun field => memberTokens field ++ [.comma]) ++
          [.string key])
  | .after v stack => openTokens stack ++ v.tokens

theorem tokens_items (items : List (Json CodePoints)) (last : Json CodePoints) :
    tokensOfItems (items ++ [last]) =
      (items.flatMap fun item => item.tokens ++ [.comma]) ++ last.tokens := by
  induction items with
  | nil => rfl
  | cons item items ih =>
      rw [List.flatMap_cons, List.append_assoc, ← ih]
      cases items <;> simp [tokensOfItems]

theorem tokens_fields (fields : List (CodePoints × Json CodePoints))
    (last : CodePoints × Json CodePoints) :
    tokensOfFields (fields ++ [last]) =
      (fields.flatMap fun field => memberTokens field ++ [.comma]) ++ memberTokens last := by
  induction fields with
  | nil => rfl
  | cons field fields ih =>
      rw [List.flatMap_cons, List.append_assoc, ← ih]
      cases fields <;> simp [tokensOfFields, memberTokens]

theorem tokens_atomValue {atom : List Char} {v : Json CodePoints} (meaning : atomValue atom = some v) :
    v.tokens = [.atom atom] := by
  unfold atomValue at meaning
  split at meaning
  · subst atom
    cases meaning
    rfl
  split at meaning
  · subst atom
    cases meaning
    rfl
  split at meaning
  · subst atom
    cases meaning
    rfl
  split at meaning
  · cases meaning
    rfl
  · cases meaning

section
variable {d : Dialect CodePoints} (lossless : d.text = some)
include lossless

theorem tokens_begin {stack : List (Frame CodePoints)} {token : Token} {next : Parse CodePoints}
    (begun : Parse.begin d stack token = .ok next) : next.tokens = openTokens stack ++ [token] := by
  have opened {begun : Parse CodePoints} (done : Parse.open? d stack begun = .ok next) :
      next = begun := by
    unfold Parse.open? at done
    split at done <;> cases done
    rfl
  cases token with
  | beginList =>
      rw [opened begun]
      rfl
  | beginObject =>
      rw [opened begun]
      rfl
  | string s =>
      rw [Parse.begin, lossless] at begun
      cases begun
      rfl
  | atom text =>
      unfold Parse.begin at begun
      dsimp only at begun
      split at begun
      · cases begun
      split at begun
      · rename_i v meaning
        cases begun
        rw [Parse.tokens, tokens_atomValue meaning]
      · cases begun
  | _ => cases begun

theorem tokens_member {fields : List (CodePoints × Json CodePoints)}
    {stack : List (Frame CodePoints)} {token : Token} {next : Parse CodePoints}
    (named : Parse.member d fields stack token = .ok next) :
    next.tokens = (Parse.name fields stack).tokens ++ [token] := by
  cases token with
  | string s =>
      rw [Parse.member, lossless] at named
      cases named
      simp [Parse.tokens]
  | _ => cases named

theorem tokens_step {parse next : Parse CodePoints} {token : Token}
    (step : Parse.step d parse token = .ok next) : next.tokens = parse.tokens ++ [token] := by
  unfold Parse.step at step
  split at step
  · exact tokens_begin lossless step
  · cases step
    simp [Parse.tokens, tokens, tokensOfItems]
  · rw [tokens_begin lossless step]
    rfl
  · cases step
    simp [Parse.tokens, tokens, tokensOfFields]
  · rw [tokens_member lossless step]
    rfl
  · exact tokens_member lossless step
  · cases step
    simp [Parse.tokens, openTokens, Frame.tokens]
  · cases step
    simp [Parse.tokens, openTokens, Frame.tokens]
  · cases step
    simp [Parse.tokens, openTokens, Frame.tokens, tokens, tokens_items]
  · cases step
    simp [Parse.tokens, openTokens, Frame.tokens, memberTokens]
  · cases step
    simp [Parse.tokens, openTokens, Frame.tokens, tokens, tokens_fields, memberTokens]
  · cases step

theorem tokens_feed {parse next : Parse CodePoints} {found : List Token}
    (fed : Parse.feed d parse found = .ok next) : next.tokens = parse.tokens ++ found := by
  induction found generalizing parse with
  | nil =>
      cases fed
      simp
  | cons token found ih =>
      cases step : Parse.step d parse token with
      | error e =>
          rw [feed_stop step] at fed
          cases fed
      | ok between =>
          rw [feed_cons step] at fed
          rw [ih fed, tokens_step lossless step, List.append_assoc, List.singleton_append]

theorem scan_of_load {s : List Char} {v : Json CodePoints} (read : load d s = .ok v) :
    scan s = v.tokens := by
  unfold load at read
  cases fed : Parse.feed d (.value []) (scan s) with
  | error e =>
      rw [fed] at read
      cases read
  | ok last =>
      rw [fed] at read
      have whole := tokens_feed lossless fed
      change last.result = .ok v at read
      unfold Parse.result at read
      split at read
      · cases read
        exact whole.symm
      · cases read

end

/-! ## The first token -/

theorem step_between {atom : List Char} {c : Char} {next : Mode} {found : List Token}
    (step : (Mode.between atom).step c = (next, found)) :
    (isAtomChar c ∧ next = .between (atom ++ [c]) ∧ found = []) ∨
      (c = '"' ∧ next = .inString [] ∧ found = flush atom) ∨
      (isBlank c ∧ next = .between [] ∧ found = flush atom) ∨
      (next = .between [] ∧ found = flush atom ++ [punctuation c]) := by
  by_cases letter : isAtomChar c
  · simp only [Mode.step, if_pos letter, Prod.mk.injEq] at step
    exact .inl ⟨letter, step.1.symm, step.2.symm⟩
  by_cases quotes : c = '"'
  · simp only [Mode.step, if_neg letter, if_pos quotes, Prod.mk.injEq] at step
    exact .inr (.inl ⟨quotes, step.1.symm, step.2.symm⟩)
  by_cases blank : isBlank c
  · simp only [Mode.step, if_neg letter, if_neg quotes, if_pos blank, Prod.mk.injEq] at step
    exact .inr (.inr (.inl ⟨blank, step.1.symm, step.2.symm⟩))
  · simp only [Mode.step, if_neg letter, if_neg quotes, if_neg blank, Prod.mk.injEq] at step
    exact .inr (.inr (.inr ⟨step.1.symm, step.2.symm⟩))

def Mode.Inside : Mode → Prop
  | .between _ => False
  | _ => True

theorem step_inside {mode next : Mode} {c : Char} {found : List Token}
    (step : mode.step c = (next, found)) (inside : mode.Inside) :
    (next.Inside ∧ found = []) ∨ (next = .between [] ∧ ∃ s, found = [.string s]) ∨
      (next = .between [] ∧ found = [.bad]) := by
  cases mode with
  | between atom => exact inside.elim
  | inString read =>
      simp only [Mode.step] at step
      split at step
      · cases step
        exact .inr (.inl ⟨rfl, _, rfl⟩)
      split at step
      · cases step
        exact .inl ⟨trivial, rfl⟩
      split at step <;> cases step
      · exact .inr (.inr ⟨rfl, rfl⟩)
      · exact .inl ⟨trivial, rfl⟩
  | escaped read =>
      simp only [Mode.step] at step
      split at step
      · cases step
        exact .inl ⟨trivial, rfl⟩
      split at step <;> cases step
      · exact .inl ⟨trivial, rfl⟩
      · exact .inr (.inr ⟨rfl, rfl⟩)
  | hex read left value =>
      simp only [Mode.step] at step
      split at step <;> cases step
      · exact .inr (.inr ⟨rfl, rfl⟩)
      · exact .inl ⟨trivial, rfl⟩
      · exact .inl ⟨trivial, rfl⟩

theorem punctuation_brace {c : Char} (brace : c ≠ '{') : punctuation c ≠ .beginObject := by
  unfold punctuation
  split <;> first | exact (brace rfl).elim | simp

def Mode.Pending (mode : Mode) : Prop := mode.Inside ∨ ∃ atom, atom ≠ [] ∧ mode = .between atom

theorem Mode.inside_inString (read : List Nat) : (Mode.inString read).Inside := trivial

theorem flush_atom {atom : List Char} (content : atom ≠ []) : flush atom = [.atom atom] := by
  cases atom with
  | nil => exact (content rfl).elim
  | cons c atom => rfl

theorem first_of_pending {mode : Mode} (pending : mode.Pending) (s : List Char) :
    ∃ first rest, scanFrom mode s = first :: rest ∧ first ≠ .beginObject := by
  induction s generalizing mode with
  | nil =>
      rcases pending with inside | ⟨atom, content, rfl⟩
      · cases mode <;> first | exact inside.elim | exact ⟨.bad, [], rfl, by simp⟩
      · exact ⟨.atom atom, [], flush_atom content, by simp⟩
  | cons c s ih =>
      obtain ⟨next, early, step⟩ : ∃ next early, mode.step c = (next, early) := ⟨_, _, rfl⟩
      rw [scanFrom_cons step]
      rcases pending with inside | ⟨atom, content, rfl⟩
      · rcases step_inside step inside with ⟨still, rfl⟩ | ⟨-, read, rfl⟩ | ⟨-, rfl⟩
        · exact ih (.inl still)
        · exact ⟨.string read, _, rfl, by simp⟩
        · exact ⟨.bad, _, rfl, by simp⟩
      · rcases step_between step with ⟨-, rfl, rfl⟩ | ⟨-, -, rfl⟩ | ⟨-, -, rfl⟩ | ⟨-, rfl⟩
        · exact ih (.inr ⟨_, by simp, rfl⟩)
        all_goals
          rw [flush_atom content]
          exact ⟨.atom atom, _, rfl, by simp⟩

theorem first_of_prefix {before : List Char} (braces : '{' ∉ before) (after : List Char) :
    (∀ c ∈ before, isBlank c) ∨
      ∃ first rest, scan (before ++ after) = first :: rest ∧ first ≠ .beginObject := by
  unfold scan
  induction before with
  | nil => exact .inl (by simp)
  | cons c before ih =>
      rw [List.mem_cons, not_or] at braces
      obtain ⟨next, early, step⟩ : ∃ next early, (Mode.between []).step c = (next, early) :=
        ⟨_, _, rfl⟩
      rw [List.cons_append, scanFrom_cons step]
      rcases step_between step with ⟨-, rfl, rfl⟩ | ⟨-, rfl, rfl⟩ | ⟨blank, rfl, rfl⟩ | ⟨rfl, rfl⟩
      · exact .inr (first_of_pending (.inr ⟨_, by simp, rfl⟩) _)
      · exact .inr (first_of_pending (.inl (Mode.inside_inString [])) _)
      · rcases ih braces.2 with blanks | begins
        · refine .inl ?_
          rintro d (- | ⟨-, member⟩)
          · exact blank
          · exact blanks d member
        · exact .inr begins
      · exact .inr ⟨punctuation c, _, rfl, punctuation_brace (Ne.symm braces.1)⟩

theorem run_object (fields : List (List Char × Value)) :
    run (.between []) (dumps (object fields)) =
      (.between [], tokens ((object fields).map codePoints)) := by
  rw [dumps, List.cons_append, run_punctuation .beginObject rfl, run_fields fields, map, tokens]
  simp [run]

theorem blanks_of_scan {s : List Char} (scanned : scan s = []) : ∀ c ∈ s, isBlank c := by
  unfold scan at scanned
  induction s with
  | nil => simp
  | cons c s ih =>
      obtain ⟨next, early, step⟩ : ∃ next early, (Mode.between []).step c = (next, early) :=
        ⟨_, _, rfl⟩
      rw [scanFrom_cons step] at scanned
      obtain ⟨none, tail⟩ := List.append_eq_nil_iff.mp scanned
      rcases step_between step with ⟨-, rfl, -⟩ | ⟨-, rfl, -⟩ | ⟨blank, rfl, -⟩ | ⟨-, rfl⟩
      · have content : [] ++ [c] ≠ [] := List.cons_ne_nil _ _
        obtain ⟨first, rest, some, -⟩ := first_of_pending (.inr ⟨_, content, rfl⟩) s
        cases tail.symm.trans some
      · obtain ⟨first, rest, some, -⟩ := first_of_pending (.inl (Mode.inside_inString [])) s
        cases tail.symm.trans some
      · rintro d (- | ⟨-, member⟩)
        · exact blank
        · exact ih tail d member
      · simp at none

section
variable {d : Dialect CodePoints} (lossless : d.text = some)
include lossless

/-- A written object among other text is read as itself, or the text before it counts. -/
theorem load_around {before after : List Char} {fields : List (List Char × Value)}
    (fits : Fits d 0 (object fields)) {v : Json CodePoints} (braces : '{' ∉ before)
    (read : load d (before ++ dumps (object fields) ++ after) = .ok v) :
    ((∀ c ∈ before, isBlank c) ∧ ∀ c ∈ after, isBlank c) ∨ ∀ others, v ≠ object others := by
  have scanned := scan_of_load lossless read
  rw [List.append_assoc] at scanned
  rcases first_of_prefix braces (dumps (object fields) ++ after) with blank | ⟨_, _, begins, other⟩
  · refine .inl ⟨blank, ?_⟩
    have silent : run (.between []) before = (.between [], []) := by
      rw [← List.append_nil before, run_blanks blank]
      rfl
    have text (s : List Char) : d.text (codePoints s) = some (codePoints s) := by rw [lossless]
    have whole : scan (before ++ (dumps (object fields) ++ after)) =
        tokens ((object fields).map codePoints) ++ scan after := by
      rw [scan, scanFrom_append silent, scanFrom_append (run_object fields)]
      rfl
    rw [List.append_assoc, load, whole, feed_append, feed_tokens text _ [] fits] at read
    -- Nothing may come after a whole value.
    cases later : scan after with
    | nil => exact blanks_of_scan later
    | cons token rest =>
        rw [later] at read
        cases read
  · refine .inr ?_
    rintro others rfl
    rw [scanned] at begins
    exact other (List.cons.inj begins).1.symm

end

/-! ## Inside a string -/

theorem inside_of_silent {mode last : Mode} {s : List Char} (inside : mode.Inside)
    (reached : run mode s = (last, [])) : last.Inside := by
  induction s generalizing mode with
  | nil =>
      cases reached
      exact inside
  | cons c s ih =>
      obtain ⟨next, early, step⟩ : ∃ next early, mode.step c = (next, early) := ⟨_, _, rfl⟩
      rw [run_cons step] at reached
      obtain ⟨tail, whole⟩ := Prod.mk.inj reached
      obtain ⟨rfl, later⟩ := List.append_eq_nil_iff.mp whole
      rcases step_inside step inside with ⟨still, -⟩ | ⟨-, _, impossible⟩ | ⟨-, impossible⟩
      · exact ih still (Prod.ext tail later)
      · cases impossible
      · cases impossible

theorem step_bad {σ : Type} (d : Dialect σ) (parse : Parse σ) :
    Parse.step d parse .bad = .error .decode := by
  cases parse with
  | after v stack =>
      cases stack with
      | nil => rfl
      | cons frame stack => cases frame <;> rfl
  | _ => rfl

theorem feed_bad {σ : Type} {d : Dialect σ} (parse : Parse σ) (rest : List Token) :
    Parse.feed d parse (.bad :: rest) = .error .decode :=
  feed_stop (step_bad d parse) rest

theorem load_cut {σ : Type} {d : Dialect σ} {before part : List Char} {s : List Char}
    {found : List Token} {parse : Parse σ} (front : run (.between []) before = (.between [], found))
    (fed : Parse.feed d (.value []) found = .ok parse) (cut : part <+: escape s) :
    load d (before ++ '"' :: part) = .error .decode := by
  obtain ⟨rest, whole⟩ := cut
  have body := run_escape [] s
  have stops : scanFrom (.inString []) part = [.bad] := by
    obtain ⟨mode, early, reached⟩ : ∃ mode early, run (.inString []) part = (mode, early) :=
      ⟨_, _, rfl⟩
    rw [← whole, run_append reached] at body
    obtain ⟨rfl, -⟩ := List.append_eq_nil_iff.mp (congrArg Prod.snd body)
    have inside := inside_of_silent (Mode.inside_inString []) reached
    rw [scanFrom, reached]
    cases mode <;> first | exact inside.elim | rfl
  have scanned : scan (before ++ '"' :: part) = found ++ [.bad] := by
    rw [scan, scanFrom_append front, scanFrom_cons step_open, stops]
    rfl
  rw [load, scanned, feed_append, fed]
  change (Parse.feed d parse [.bad]).bind _ = _
  rw [feed_bad]
  rfl

/-- The inside of a string, read as if it were outside, has no strings: its quotes come after
backslashes, where such a reading stops. -/
theorem run_outside {part s : List Char} (cut : part <+: escape s) {atom : List Char} {last : Mode}
    {found : List Token} (reached : run (.between atom) part = (last, found)) :
    .bad ∈ found ∨ (∃ atom, last = .between atom) ∧ ∀ read, .string read ∉ found := by
  induction s generalizing part atom found with
  | nil =>
      obtain rfl : part = [] := List.prefix_nil.mp cut
      cases reached
      exact .inr ⟨⟨_, rfl⟩, by simp⟩
  | cons c s ih =>
      cases part with
      | nil =>
          cases reached
          exact .inr ⟨⟨_, rfl⟩, by simp⟩
      | cons d part =>
          change d :: part <+: escapeChar c ++ escape s at cut
          obtain ⟨next, early, step⟩ : ∃ next early, (Mode.between atom).step d = (next, early) :=
            ⟨_, _, rfl⟩
          rw [run_cons step] at reached
          obtain ⟨tail, rfl⟩ := Prod.mk.inj reached
          have unquoted : ∀ read, Token.string read ∉ flush atom := by
            cases atom <;> simp [flush]
          rcases escapeChar_cases c with ⟨plain, -, notQuote, -⟩ | ⟨rest, written⟩
          · rw [plain, List.singleton_append, List.cons_prefix_cons] at cut
            obtain ⟨rfl, cut⟩ := cut
            rcases step_between step with ⟨-, rfl, rfl⟩ | ⟨quote, -⟩ | ⟨-, rfl, rfl⟩ | ⟨rfl, rfl⟩
            · exact ih cut (Prod.ext tail rfl)
            · exact (notQuote quote).elim
            · rcases ih cut (Prod.ext tail rfl) with bad | ⟨mode, strings⟩
              · exact .inl (List.mem_append_right _ bad)
              · refine .inr ⟨mode, fun read member => ?_⟩
                rcases List.mem_append.mp member with early | late
                · exact unquoted read early
                · exact strings read late
            · rcases ih cut (Prod.ext tail rfl) with bad | ⟨mode, strings⟩
              · exact .inl (List.mem_append_right _ bad)
              · refine .inr ⟨mode, fun read member => ?_⟩
                rcases List.mem_append.mp member with early | late
                · rcases List.mem_append.mp early with before | own
                  · exact unquoted read before
                  · have mark := List.mem_singleton.mp own
                    unfold punctuation at mark
                    split at mark <;> cases mark
                · exact strings read late
          · rw [written, List.cons_append, List.cons_prefix_cons] at cut
            obtain ⟨rfl, -⟩ := cut
            refine .inl (List.mem_append_left _ ?_)
            cases step
            simp [punctuation]

section
variable {σ : Type} {d : Dialect σ}

theorem feed_refuses {token : Token} (refused : ∀ parse next, Parse.step d parse token ≠ .ok next)
    {found : List Token} (member : token ∈ found) (parse last : Parse σ) :
    Parse.feed d parse found ≠ .ok last := by
  induction found generalizing parse with
  | nil => cases member
  | cons first found ih =>
      cases step : Parse.step d parse first with
      | error e => simp [feed_stop step]
      | ok next =>
          rw [feed_cons step]
          rcases List.mem_cons.mp member with rfl | later
          · exact (refused parse next step).elim
          · exact ih later next

theorem load_refuses {token : Token} (refused : ∀ parse next, Parse.step d parse token ≠ .ok next)
    {s : List Char} (member : token ∈ scan s) (v : Json σ) : load d s ≠ .ok v := by
  intro read
  unfold load at read
  cases fed : Parse.feed d (.value []) (scan s) with
  | error e =>
      rw [fed] at read
      cases read
  | ok last => exact feed_refuses refused member _ _ fed

theorem bad_refused (parse next : Parse σ) : Parse.step d parse .bad ≠ .ok next := by
  rw [step_bad]
  simp

theorem atom_refused {atom : List Char} (meaningless : (atomValue atom : Option (Json σ)) = none)
    (parse next : Parse σ) : Parse.step d parse (.atom atom) ≠ .ok next := by
  have begun (stack : List (Frame σ)) : Parse.begin d stack (.atom atom) ≠ .ok next := by
    rw [Parse.begin, meaningless]
    split <;> simp
  cases parse with
  | value stack => exact begun stack
  | listStart stack => exact begun _
  | after v stack =>
      cases stack with
      | nil => simp [Parse.step]
      | cons frame stack => cases frame <;> simp [Parse.step]
  | _ => simp [Parse.step, Parse.member]

end

theorem string_notMem_flush (atom : List Char) (read : CodePoints) :
    Token.string read ∉ flush atom := by
  cases atom <;> simp [flush]

/-- A part of the inside of a string can be an object only without members. -/
theorem load_part {d : Dialect CodePoints} (lossless : d.text = some) {part s : List Char}
    (cut : part <+: escape s) {fields : List (CodePoints × Json CodePoints)}
    (read : load d part = .ok (object fields)) : fields = [] := by
  have scanned := scan_of_load lossless read
  obtain ⟨last, found, reached⟩ : ∃ last found, run (.between []) part = (last, found) :=
    ⟨_, _, rfl⟩
  have whole : scan part = found ++ last.finish := by rw [scan, scanFrom, reached]
  rcases run_outside cut reached with bad | ⟨⟨atom, rfl⟩, strings⟩
  · exact (load_refuses bad_refused (whole ▸ List.mem_append_left _ bad) _ read).elim
  · cases fields with
    | nil => rfl
    | cons field fields =>
        have member : Token.string field.1 ∈ scan part := by
          rw [scanned, tokens]
          cases fields <;> simp [tokensOfFields]
        rw [whole] at member
        rcases List.mem_append.mp member with inside | last
        · exact (strings _ inside).elim
        · exact (string_notMem_flush atom _ last).elim

theorem run_plains (read : List Nat) {s : List Char}
    (plain : ∀ c ∈ s, isPlain c ∧ c ≠ '"' ∧ c ≠ '\\') :
    ∃ more, run (.inString read) s = (.inString more, []) := by
  induction s generalizing read with
  | nil => exact ⟨read, rfl⟩
  | cons c s ih =>
      obtain ⟨visible, notQuote, notBackslash⟩ := plain c (by simp)
      rw [run_cons (run_plain read visible notQuote notBackslash), emit_nil]
      exact ih _ fun d member => plain d (List.mem_cons_of_mem _ member)

/-- The inside of a string read on past its end: the two quotes after it enclose what separates it
from the next name, and that name is no JSON. -/
theorem load_across {σ : Type} {d : Dialect σ} {s sep name : List Char} (more : List Char)
    (plain : ∀ c ∈ sep, isPlain c ∧ c ≠ '"' ∧ c ≠ '\\') (letters : ∀ c ∈ name, isAtomChar c)
    (content : name ≠ []) (meaningless : (atomValue name : Option (Json σ)) = none) (v : Json σ) :
    load d (escape s ++ '"' :: sep ++ '"' :: name ++ '"' :: more) ≠ .ok v := by
  obtain ⟨last, found, reached⟩ : ∃ last found, run (.between []) (escape s) = (last, found) :=
    ⟨_, _, rfl⟩
  have shape : escape s ++ '"' :: sep ++ '"' :: name ++ '"' :: more =
      escape s ++ '"' :: (sep ++ '"' :: (name ++ '"' :: more)) := by simp
  have scanned : scan (escape s ++ '"' :: sep ++ '"' :: name ++ '"' :: more) =
      found ++ scanFrom last ('"' :: (sep ++ '"' :: (name ++ '"' :: more))) := by
    rw [shape, scan, scanFrom_append reached]
  rcases run_outside List.prefix_rfl reached with bad | ⟨⟨atom, rfl⟩, -⟩
  · exact load_refuses bad_refused (scanned ▸ List.mem_append_left _ bad) v
  · have opened : (Mode.between atom).step '"' = (.inString [], flush atom) := rfl
    have reopened : (Mode.between name).step '"' = (.inString [], [.atom name]) := by
      rw [← flush_atom content]
      rfl
    obtain ⟨read, separated⟩ := run_plains [] plain
    have named : run (.between []) name = (.between name, []) := run_atom letters
    refine load_refuses (atom_refused meaningless) ?_ v
    rw [scanned, scanFrom_cons opened, scanFrom_append separated, scanFrom_cons (step_close read),
      scanFrom_append named, scanFrom_cons reopened]
    simp

/-- What is read of a text as soon as no atom goes on after it. -/
def Mode.delimited : Mode → List Token
  | .between atom => flush atom
  | _ => []

theorem scanFrom_delimiter {c : Char} (delimiter : isAtomChar c = false) (mode : Mode)
    (rest : List Char) : ∃ more, scanFrom mode (c :: rest) = mode.delimited ++ more := by
  cases mode with
  | between atom =>
      have step := step_delimiter delimiter atom
      rw [emit] at step
      rw [scanFrom_cons step, List.append_assoc]
      exact ⟨_, rfl⟩
  | _ => exact ⟨_, rfl⟩

/-- Where nothing can follow, reading fails, and for a reason in what stands before unless it is for
what follows. -/
theorem load_stuck {σ : Type} {d : Dialect σ} {rest : List Char}
    (stuck : ∀ mode, ∃ more, scanFrom mode rest = mode.delimited ++ .bad :: more)
    (before : List Char) : ∃ e, load d (before ++ rest) = .error e ∧
      (e = .decode ∨ ∀ c later, isAtomChar c = false → load d (before ++ c :: later) = .error e) := by
  obtain ⟨mode, early, reached⟩ : ∃ mode early, run (.between []) before = (mode, early) :=
    ⟨_, _, rfl⟩
  obtain ⟨more, stops⟩ := stuck mode
  have scanned (others : List Char) : scan (before ++ others) = early ++ scanFrom mode others := by
    rw [scan, scanFrom_append reached]
  cases fed : Parse.feed d (.value []) (early ++ mode.delimited) with
  | error e =>
      have failed (others : List Token) :
          Parse.feed d (.value []) (early ++ (mode.delimited ++ others)) = .error e := by
        rw [← List.append_assoc, feed_append, fed]
        rfl
      refine ⟨e, ?_, .inr fun c later delimiter => ?_⟩
      · rw [load, scanned, stops, failed]
        rfl
      · obtain ⟨others, goes⟩ := scanFrom_delimiter delimiter mode later
        rw [load, scanned, goes, failed]
        rfl
  | ok parse =>
      refine ⟨.decode, ?_, .inl rfl⟩
      rw [load, scanned, stops, ← List.append_assoc, feed_append, fed]
      change (Parse.feed d parse (.bad :: more)).bind _ = _
      rw [feed_bad]
      rfl

end Kaeyris.Lib.Json
