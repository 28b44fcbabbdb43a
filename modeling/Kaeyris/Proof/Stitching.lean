import Mathlib.Tactic.Linarith
import Mathlib.Tactic.Ring
import Kaeyris.Proof.ExitState
import Kaeyris.AudioChunks

/-!
# The transcription of a recording in pieces

The loop over the pieces stops at the first one that the adapter refuses. If it refuses none, the
segments are those of the pieces, in order and shifted.
-/

namespace Kaeyris.Stitching
open Lib Jobs Process Proof AudioChunks

def shifted (offset : ℚ) (segment : TranscriptionSegment) : TranscriptionSegment :=
  { segment with
    startSeconds := segment.startSeconds + offset
    endSeconds := segment.endSeconds + offset }

def concatenation (duration : Int) (first : Nat) (results : List TranscriptionResult) :
    List TranscriptionSegment :=
  (results.zipIdx first).flatMap fun piece =>
    piece.1.segments.map (shifted ((piece.2 * duration : Int) : ℚ))

def replies (r : Reaction effects) (adapter : TranscriptionChoice) (languageHint : Option Text)
    (first : Nat) (names : List Text) : List (Except Exn TranscriptionResult) :=
  (names.zipIdx first).map fun piece =>
    r.answer (.transcribe adapter piece.2 (.piece piece.1) languageHint)

def entries (duration : Int) (first : Nat) (names : List Text) : List (ℚ × Text) :=
  (names.zipIdx first).map fun piece => (((piece.2 * duration : Int) : ℚ), piece.1)

theorem indexed_eq (duration : Int) (names : List Text) :
    indexed duration names = entries duration 0 names :=
  List.mapIdx_eq_zipIdx_map

def SortedByStart (segments : List TranscriptionSegment) : Prop :=
  segments.Pairwise fun a b => a.startSeconds ≤ b.startSeconds

def Within (duration : Int) (segments : List TranscriptionSegment) : Prop :=
  ∀ segment ∈ segments, 0 ≤ segment.startSeconds ∧ segment.startSeconds ≤ duration

def submitted (events : List (Event effects)) : List AudioFile :=
  events.filterMap fun
    | .called (.transcribe _ _ file _) => some file
    | _ => none

/-! ## Segments -/

theorem shifted_keeps (offset : ℚ) (segment : TranscriptionSegment) :
    (shifted offset segment).speakerLabel = segment.speakerLabel ∧
      (shifted offset segment).text = segment.text ∧
      (shifted offset segment).endSeconds - (shifted offset segment).startSeconds =
        segment.endSeconds - segment.startSeconds :=
  ⟨rfl, rfl, add_sub_add_right_eq_sub _ _ _⟩

theorem segments_stitch (stitched piece : TranscriptionResult) (offset : ℚ) :
    (stitched.stitch offset piece).segments =
      stitched.segments ++ piece.segments.map (shifted offset) := rfl

theorem concatenation_cons (duration : Int) (first : Nat) (piece : TranscriptionResult)
    (rest : List TranscriptionResult) :
    concatenation duration first (piece :: rest) =
      piece.segments.map (shifted ((first * duration : Int) : ℚ)) ++
        concatenation duration (first + 1) rest := by
  simp [concatenation, List.zipIdx_cons]

theorem start_concatenation {duration : Int} (positive : 0 < duration) {first : Nat}
    {results : List TranscriptionResult} (within : ∀ piece ∈ results, Within duration piece.segments) :
    ∀ segment ∈ concatenation duration first results, (first : ℚ) * duration ≤ segment.startSeconds := by
  induction results generalizing first with
  | nil =>
      intro segment member
      cases member
  | cons piece rest ih =>
      intro segment member
      rw [concatenation_cons, List.mem_append] at member
      have forward : (0 : ℚ) ≤ duration := by exact_mod_cast positive.le
      rcases member with here | later
      · obtain ⟨original, present, rfl⟩ := List.mem_map.mp here
        have bound := (within piece List.mem_cons_self original present).1
        simp only [shifted, Int.cast_mul, Int.cast_natCast]
        linarith
      · have bound := ih (fun other member => within other (List.mem_cons_of_mem _ member)) segment later
        push_cast at bound
        linarith

theorem concatenation_sorted {duration : Int} (positive : 0 < duration) {first : Nat}
    {results : List TranscriptionResult} (within : ∀ piece ∈ results, Within duration piece.segments)
    (sorted : ∀ piece ∈ results, SortedByStart piece.segments) :
    SortedByStart (concatenation duration first results) := by
  induction results generalizing first with
  | nil => exact List.Pairwise.nil
  | cons piece rest ih =>
      have within' : ∀ other ∈ rest, Within duration other.segments :=
        fun other member => within other (List.mem_cons_of_mem _ member)
      rw [concatenation_cons, SortedByStart, List.pairwise_append]
      refine ⟨?_, ih within' fun other member => sorted other (List.mem_cons_of_mem _ member), ?_⟩
      · rw [List.pairwise_map]
        exact (sorted piece List.mem_cons_self).imp fun less => add_le_add_left less _
      · intro a here b later
        obtain ⟨original, present, rfl⟩ := List.mem_map.mp here
        have upper := (within piece List.mem_cons_self original present).2
        have lower := start_concatenation positive within' b later
        simp only [shifted, Int.cast_mul, Int.cast_natCast]
        push_cast at lower
        linarith

/-! ## The loop -/

section Loop
variable (env : Environment) (reports : Bool) {r : Reaction effects} {adapter : TranscriptionChoice}
variable {languageHint : Option Text} {duration : Int}

theorem replies_cons (first : Nat) (name : Text) (rest : List Text) :
    replies r adapter languageHint first (name :: rest) =
      r.answer (.transcribe adapter first (.piece name) languageHint) ::
        replies r adapter languageHint (first + 1) rest := by
  simp [replies, List.zipIdx_cons]

theorem entries_cons (first : Nat) (name : Text) (rest : List Text) :
    entries duration first (name :: rest) =
      (((first * duration : Int) : ℚ), name) :: entries duration (first + 1) rest := by
  simp [entries, List.zipIdx_cons]

theorem pieceResults_ok {results : List TranscriptionResult} {names : List Text} {first : Nat}
    (answered : replies r adapter languageHint first names = results.map .ok)
    (stitched : TranscriptionResult) :
    ∃ result, pieceResults r adapter languageHint first stitched (entries duration first names) =
        .ok result ∧
      result.segments = stitched.segments ++ concatenation duration first results := by
  induction names generalizing first results stitched with
  | nil =>
      have none : results = [] := List.map_eq_nil_iff.mp answered.symm
      exact ⟨stitched, rfl, by simp [none, concatenation]⟩
  | cons name rest ih =>
      cases results with
      | nil => cases answered
      | cons piece results =>
          rw [replies_cons, List.map_cons, List.cons.injEq] at answered
          obtain ⟨result, returned, segments⟩ :=
            ih answered.2 (stitched.stitch ((first * duration : Int) : ℚ) piece)
          refine ⟨result, ?_, ?_⟩
          · rw [entries_cons, pieceResults, answered.1]
            exact returned
          · rw [segments, segments_stitch, concatenation_cons, List.append_assoc]

theorem pieceResults_error {before : List TranscriptionResult} {e : Exn}
    {after : List (Except Exn TranscriptionResult)} {names : List Text} {first : Nat}
    (answered : replies r adapter languageHint first names = before.map .ok ++ .error e :: after)
    (stitched : TranscriptionResult) :
    pieceResults r adapter languageHint first stitched (entries duration first names) =
      .error e := by
  induction names generalizing first before stitched with
  | nil => simp [replies] at answered
  | cons name rest ih =>
      rw [replies_cons] at answered
      rw [entries_cons, pieceResults]
      cases before with
      | nil =>
          rw [List.map_nil, List.nil_append, List.cons.injEq] at answered
          rw [answered.1]
      | cons piece before =>
          rw [List.map_cons, List.cons_append, List.cons.injEq] at answered
          rw [answered.1]
          exact ih answered.2 _

theorem submitted_append (events events' : List (Event effects)) :
    submitted (events ++ events') = submitted events ++ submitted events' :=
  List.filterMap_append

theorem submitted_onChunk (done total : Nat) (db : Database) :
    submitted ((onChunk env reports done total).run r db).events = [] := by
  unfold onChunk report
  by_cases none : total = 0
  · rw [if_pos none]
    rfl
  · rw [if_neg none]
    cases reports with
    | true => rfl
    | false => rfl

theorem submitted_ask (query : Call) (db : Database) :
    submitted ((Jobs.ask query).run r db).events = submitted [.called query] := by
  rw [run_ask]

theorem submitted_ok {total first : Nat} {stitched piece : TranscriptionResult} {offset : ℚ}
    {name : Text} {rest : List (ℚ × Text)}
    (answered : r.answer (.transcribe adapter first (.piece name) languageHint) = .ok piece)
    (db : Database) :
    submitted ((transcribePieces env reports adapter languageHint total first stitched
        ((offset, name) :: rest)).run r db).events =
      .piece name :: submitted ((transcribePieces env reports adapter languageHint total (first + 1)
        (stitched.stitch offset piece) rest).run r db).events := by
  have asked : ((Jobs.ask (.transcribe adapter first (.piece name) languageHint)).run r db).result =
      .ok piece := by
    rw [run_ask, answered]
  have noted := result_onChunk env reports (first + 1) total r db
  rw [transcribePieces, bind_eq, events_bind_ok asked, Silent.ask, bind_eq, events_bind_ok noted,
    silent_onChunk, submitted_append, submitted_append, submitted_ask, submitted_onChunk]
  rfl

theorem submitted_error {total first : Nat} {stitched : TranscriptionResult} {offset : ℚ}
    {name : Text} {rest : List (ℚ × Text)} {e : Exn}
    (answered : r.answer (.transcribe adapter first (.piece name) languageHint) = .error e)
    (db : Database) :
    submitted ((transcribePieces env reports adapter languageHint total first stitched
      ((offset, name) :: rest)).run r db).events = [.piece name] := by
  have asked : ((Jobs.ask (.transcribe adapter first (.piece name) languageHint)).run r db).result =
      .error e := by
    rw [run_ask, answered]
  rw [transcribePieces, bind_eq, events_bind_error asked, submitted_ask]
  rfl

theorem submitted_all {results : List TranscriptionResult} {names : List Text} {first : Nat}
    (answered : replies r adapter languageHint first names = results.map .ok) (total : Nat)
    (stitched : TranscriptionResult) (db : Database) :
    submitted ((transcribePieces env reports adapter languageHint total first stitched
      (entries duration first names)).run r db).events = names.map .piece := by
  induction names generalizing first results stitched with
  | nil => rfl
  | cons name rest ih =>
      cases results with
      | nil => cases answered
      | cons piece results =>
          rw [replies_cons, List.map_cons, List.cons.injEq] at answered
          rw [entries_cons, submitted_ok env reports answered.1, ih answered.2, List.map_cons]

theorem submitted_some {before : List TranscriptionResult} {e : Exn}
    {after : List (Except Exn TranscriptionResult)} {names : List Text} {first : Nat}
    (answered : replies r adapter languageHint first names = before.map .ok ++ .error e :: after)
    (total : Nat) (stitched : TranscriptionResult) (db : Database) :
    submitted ((transcribePieces env reports adapter languageHint total first stitched
      (entries duration first names)).run r db).events =
        (names.take (before.length + 1)).map .piece := by
  induction names generalizing first before stitched with
  | nil => simp [replies] at answered
  | cons name rest ih =>
      rw [replies_cons] at answered
      rw [entries_cons, List.take_succ_cons, List.map_cons]
      cases before with
      | nil =>
          rw [List.map_nil, List.nil_append, List.cons.injEq] at answered
          rw [submitted_error env reports answered.1]
          simp
      | cons piece before =>
          rw [List.map_cons, List.cons_append, List.cons.injEq] at answered
          rw [submitted_ok env reports answered.1, ih answered.2]
          rfl

end Loop

/-! ## The whole of it -/

/-- What the transcription of a recording owes the pieces it was cut into. The recording of a single
piece is what the adapter would get if nothing were cut. -/
structure Stitches (r : Reaction effects) (adapter : TranscriptionChoice)
    (languageHint : Option Text) (duration : Int) (names : List Text)
    (outcome : Outcome effects TranscriptionResult) : Prop where
  joined : ∀ results : List TranscriptionResult,
    replies r adapter languageHint 0 names = results.map .ok →
    ∃ result, outcome.result = .ok result ∧ submitted outcome.events = names.map .piece ∧
      result.segments = concatenation duration 0 results
  kept : ∀ (offset : ℚ) (segment : TranscriptionSegment),
    (shifted offset segment).speakerLabel = segment.speakerLabel ∧
      (shifted offset segment).text = segment.text ∧
      (shifted offset segment).endSeconds - (shifted offset segment).startSeconds =
        segment.endSeconds - segment.startSeconds
  sorted : ∀ results : List TranscriptionResult,
    replies r adapter languageHint 0 names = results.map .ok →
    (∀ piece ∈ results, SortedByStart piece.segments ∧ Within duration piece.segments) →
    ∀ result, outcome.result = .ok result → SortedByStart result.segments
  single : ∀ name path, names = [name] →
    r.answer (.transcribe adapter 0 (.stored path) languageHint) =
      r.answer (.transcribe adapter 0 (.piece name) languageHint) →
    ∀ env reports duration' db, duration' ≤ 0 →
      outcome.result.map TranscriptionResult.segments =
        ((transcribeWithOptionalChunking env reports adapter path languageHint duration').run r
          db).result.map TranscriptionResult.segments
  stopped : ∀ (before : List TranscriptionResult) (e : Exn)
    (after : List (Except Exn TranscriptionResult)),
    replies r adapter languageHint 0 names = before.map .ok ++ .error e :: after →
    outcome.result = .error e ∧
      submitted outcome.events = (names.take (before.length + 1)).map .piece

section Whole
variable (env : Environment) (reports : Bool) {r : Reaction effects} {adapter : TranscriptionChoice}
variable {languageHint : Option Text} {duration : Int} {path : AudioPath} {names : List Text}

theorem run_in_pieces (adapter : TranscriptionChoice) (languageHint : Option Text)
    (positive : 0 < duration)
    (cut : r.answer (.chunkedAudio path duration) = .ok (indexed duration names)) (db : Database) :
    let whole := (transcribeWithOptionalChunking env reports adapter path languageHint duration).run
      r db
    whole.result =
        pieceResults r adapter languageHint 0 ⟨[], [], [], []⟩ (entries duration 0 names) ∧
      submitted whole.events =
        submitted ((transcribePieces env reports adapter languageHint (entries duration 0 names).length
          0 ⟨[], [], [], []⟩ (entries duration 0 names)).run r db).events := by
  have asked : ((Jobs.ask (.chunkedAudio path duration)).run r db).result =
      .ok (entries duration 0 names) := by
    rw [run_ask, cut, indexed_eq]
  unfold transcribeWithOptionalChunking
  rw [if_neg (by omega)]
  constructor
  · rw [bind_eq, (run_bind_ok asked _).1, Silent.ask]
    exact result_transcribePieces _ _ _ _ _ _ _ _ _ _
  · rw [bind_eq, events_bind_ok asked, Silent.ask, submitted_append, submitted_ask]
    rfl

theorem concatenation_single (piece : TranscriptionResult) :
    concatenation duration 0 [piece] = piece.segments := by
  have unmoved : shifted 0 = id := by
    funext segment
    simp [shifted]
  simp [concatenation, unmoved]

theorem run_single_shot {duration' : Int} (whole : duration' ≤ 0) (db : Database) :
    ((transcribeWithOptionalChunking env reports adapter path languageHint duration').run r
      db).result = r.answer (.transcribe adapter 0 (.stored path) languageHint) := by
  rw [transcribeWithOptionalChunking, if_pos whole, run_ask]

/-- Segments are joined in order and shifted by the offsets of their pieces, they stay sorted, one
piece counts as the whole, and the first refusal ends it. -/
theorem pieces_stitched (positive : 0 < duration)
    (cut : r.answer (.chunkedAudio path duration) = .ok (indexed duration names)) (db : Database) :
    Stitches r adapter languageHint duration names
      ((transcribeWithOptionalChunking env reports adapter path languageHint duration).run r db) := by
  obtain ⟨result, events⟩ := run_in_pieces env reports adapter languageHint positive cut db
  constructor
  case joined =>
    intro results answered
    obtain ⟨whole, returned, segments⟩ := pieceResults_ok answered ⟨[], [], [], []⟩
    exact ⟨whole, result.trans returned, events.trans (submitted_all env reports answered _ _ db),
      segments⟩
  case kept => exact shifted_keeps
  case sorted =>
    intro results answered each whole returned
    obtain ⟨whole', returned', segments⟩ := pieceResults_ok answered ⟨[], [], [], []⟩
    have same : whole = whole' := Except.ok.inj (returned.symm.trans (result.trans returned'))
    rw [same, segments]
    exact concatenation_sorted positive (fun piece member => (each piece member).2)
      fun piece member => (each piece member).1
  case single =>
    intro name stored one same env' reports' duration' db' whole
    rw [run_single_shot env' reports' whole, same, result, one]
    cases answer : r.answer (.transcribe adapter 0 (.piece name) languageHint) with
    | error e =>
        have refused : replies r adapter languageHint 0 [name] =
            ([] : List TranscriptionResult).map .ok ++ .error e :: [] := by
          rw [replies_cons, answer]
          rfl
        rw [pieceResults_error refused]
    | ok piece =>
        have answered : replies r adapter languageHint 0 [name] = [piece].map .ok := by
          rw [replies_cons, answer]
          rfl
        obtain ⟨joined, returned, segments⟩ := pieceResults_ok answered ⟨[], [], [], []⟩
        rw [returned]
        exact congrArg Except.ok (segments.trans (concatenation_single piece))
  case stopped =>
    intro before e after answered
    exact ⟨result.trans (pieceResults_error answered _),
      events.trans (submitted_some env reports answered _ _ db)⟩

end Whole

def halves : Reaction effects :=
  { obliging with
    answer
      | .chunkedAudio _ _ => .ok (indexed 30 [chunkName 0, chunkName 1])
      | .transcribe _ _ _ _ => .ok ⟨[⟨[], 0, 1, ['a']⟩], [], [], []⟩
      | query => obliging.answer query }

theorem pieces_stitched_halves :
    Stitches halves .operator none 30 [chunkName 0, chunkName 1]
      ((transcribeWithOptionalChunking sampleEnvironment true .operator (.raw 1) none 30).run halves
        .empty) :=
  pieces_stitched sampleEnvironment true (by decide) rfl .empty

end Kaeyris.Stitching
