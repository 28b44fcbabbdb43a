import Kaeyris.Lib.Runs
import Kaeyris.SpeakerTurns

/-!
# Speaker turns

The loop works on fresh copies, which are the results of merging neighbours. So the groups are the
maximal runs of segments that continue each other.
-/

namespace Kaeyris.SpeakerTurns
open Lib

section
variable {ν τ : Type} [Sub τ] [LT τ] [DecidableLT τ] (float : ν → Option τ) (maxGapSeconds : τ)

/-! ## The loop -/

abbrev turns (segments : List (SpeakerSegment ν)) : List (SpeakerSegment ν) :=
  coalesce (sameTurn float maxGapSeconds) extend segments

abbrev turnsFrom (last : SpeakerSegment ν) (segments : List (SpeakerSegment ν)) :
    List (SpeakerSegment ν) :=
  coalesceFrom (sameTurn float maxGapSeconds) extend last segments

theorem copy_some {heap : Heap ν} {address : Nat} {dict : SpeakerSegment ν}
    (stored : heap[address]? = some dict) :
    copy heap address = some (heap ++ [dict], heap.length) := by
  simp [copy, stored]

-- Behind what was in memory before stand the copies, and `out` is the addresses of these.
theorem groupStep_copies (heap done : Heap ν) (last : SpeakerSegment ν) {address : Nat}
    {seg : SpeakerSegment ν} (stored : heap[address]? = some seg) :
    groupStep float maxGapSeconds
        (heap ++ (done ++ [last]), List.range' heap.length (done.length + 1)) address =
      if sameTurn float maxGapSeconds last seg then
        some (heap ++ (done ++ [extend last seg]), List.range' heap.length (done.length + 1))
      else
        some (heap ++ (done ++ [last] ++ [seg]),
          List.range' heap.length ((done ++ [last]).length + 1)) := by
  have bound : address < heap.length := (List.getElem?_eq_some_iff.mp stored).1
  have source : (heap ++ (done ++ [last]))[address]? = some seg := by
    rw [List.getElem?_append_left bound, stored]
  have latest : (List.range' heap.length (done.length + 1)).getLast? =
      some (heap.length + done.length) := by
    simp [List.range'_concat]
  have target : (heap ++ (done ++ [last]))[heap.length + done.length]? = some last := by
    simp
  have updated : (heap ++ (done ++ [last])).set (heap.length + done.length) (extend last seg) =
      heap ++ (done ++ [extend last seg]) := by
    simp
  have longer : List.range' heap.length (done.length + 1) ++ [heap.length + (done.length + 1)] =
      List.range' heap.length (done.length + 1 + 1) := by
    simp [List.range'_concat]
  simp only [groupStep, latest, target, source, copy_some source, updated, Option.bind_eq_bind,
    Option.bind_some, Option.pure_def]
  split
  · rfl
  · simpa using longer

theorem foldlM_groupStep (heap : Heap ν) (addresses : List Nat) (segments done : Heap ν)
    (last : SpeakerSegment ν)
    (stored : List.Forall₂ (fun address seg => heap[address]? = some seg) addresses segments) :
    addresses.foldlM (groupStep float maxGapSeconds)
        (heap ++ (done ++ [last]), List.range' heap.length (done.length + 1)) =
      some (heap ++ (done ++ turnsFrom float maxGapSeconds last segments),
        List.range' heap.length
          (done.length + (turnsFrom float maxGapSeconds last segments).length)) := by
  induction stored generalizing done last with
  | nil => simp [coalesceFrom]
  | cons here _ ih =>
      rw [List.foldlM_cons, groupStep_copies float maxGapSeconds heap done last here]
      split
      · rename_i close
        rw [turnsFrom, coalesceFrom_near close]
        exact ih done _
      · rename_i far
        rw [turnsFrom, coalesceFrom_far far]
        refine (ih (done ++ [last]) _).trans ?_
        simp [turnsFrom, Nat.add_assoc, Nat.add_comm 1]

/-- The copies are appended to the memory, in order; nothing else in it changes. -/
theorem groupConsecutive_eq (heap : Heap ν) {addresses : List Nat}
    {segments : List (SpeakerSegment ν)}
    (stored : List.Forall₂ (fun address seg => heap[address]? = some seg) addresses segments) :
    groupConsecutiveSpeakerSegments float maxGapSeconds heap addresses =
      some (heap ++ turns float maxGapSeconds segments,
        List.range' heap.length (turns float maxGapSeconds segments).length) := by
  cases stored with
  | nil => simp [groupConsecutiveSpeakerSegments, coalesce]
  | @cons _ seg _ later first rest =>
      have whole := foldlM_groupStep float maxGapSeconds heap _ later [] seg rest
      simp only [groupConsecutiveSpeakerSegments, copy_some first, Option.bind_eq_bind,
        Option.bind_some]
      simpa [turns, coalesce] using whole

theorem load_copies (heap copies : Heap ν) :
    load (heap ++ copies) (List.range' heap.length copies.length) = copies := by
  induction copies generalizing heap with
  | nil => rfl
  | cons first copies ih =>
      have rest := ih (heap ++ [first])
      rw [load] at rest ⊢
      simpa [List.range'_succ] using rest

theorem stored_range (segments : Heap ν) :
    List.Forall₂ (fun address seg => segments[address]? = some seg)
      (List.range segments.length) segments := by
  rw [List.forall₂_iff_get]
  simp

theorem grouped_eq (segments : List (SpeakerSegment ν)) :
    grouped float maxGapSeconds segments = turns float maxGapSeconds segments := by
  rw [grouped, groupConsecutive_eq float maxGapSeconds segments (stored_range segments)]
  exact load_copies segments _

/-! ## Runs -/

theorem sameTurn_keepsRight :
    KeepsRight (sameTurn (ν := ν) float maxGapSeconds) extend := by
  intro a b c same
  have label : b.speakerLabel = a.speakerLabel := by
    simp only [sameTurn, Bool.and_eq_true, decide_eq_true_eq] at same
    exact same.1
  rw [sameTurn, sameTurn, label]
  rfl

theorem sameTurn_keepsLeft : KeepsLeft (sameTurn (ν := ν) float maxGapSeconds) extend := by
  intro a b c _
  rfl

/-- The maximal runs of segments in which each one continues the one before it. -/
def runs (segments : List (SpeakerSegment ν)) : List (List (SpeakerSegment ν)) :=
  segments.splitBy (sameTurn float maxGapSeconds)

structure Turn (run : List (SpeakerSegment ν)) (group : SpeakerSegment ν) : Prop where
  nonempty : run ≠ []
  speaker : ∀ seg ∈ run, seg.speakerLabel = group.speakerLabel
  starts : run.head?.map SpeakerSegment.startSeconds = some group.startSeconds
  ends : run.getLast?.map SpeakerSegment.endSeconds = some group.endSeconds
  words : Text.words group.text = run.flatMap fun seg => Text.words seg.text

theorem words_extend (last seg : SpeakerSegment ν) :
    Text.words (extend last seg).text = Text.words last.text ++ Text.words seg.text := by
  have split := Text.words_append_cons (Text.rstrip last.text) (Text.lstrip seg.text)
    (show Text.isSpace ' ' by decide)
  simpa [extend] using split

theorem Turn.of_merged {run : List (SpeakerSegment ν)} {group : SpeakerSegment ν}
    (merged : Merged (sameTurn float maxGapSeconds) extend run group) : Turn run group := by
  induction merged with
  | single seg => constructor <;> simp
  | @snoc run last next _ same ih =>
      have label : next.speakerLabel = last.speakerLabel := by
        simp only [sameTurn, Bool.and_eq_true, decide_eq_true_eq] at same
        exact same.1
      constructor
      · simp
      · simpa [or_imp, forall_and, extend, label] using ih.speaker
      · obtain ⟨first, rest, rfl⟩ := List.exists_cons_of_ne_nil ih.nonempty
        simpa [extend] using ih.starts
      · simp [extend]
      · simp [words_extend, ih.words]

theorem turns_runs (segments : List (SpeakerSegment ν)) :
    List.Forall₂ Turn (runs float maxGapSeconds segments)
      (turns float maxGapSeconds segments) :=
  (splitBy_coalesce (sameTurn_keepsRight float maxGapSeconds) segments).imp
    fun _ _ merged => .of_merged float maxGapSeconds merged

/-! ## The transcript -/

def labelledWords (segments : List (SpeakerSegment ν)) : List (Text × Text) :=
  segments.flatMap fun seg => (Text.words seg.text).map fun word => (seg.speakerLabel, word)

theorem labelledWords_append (segments later : List (SpeakerSegment ν)) :
    labelledWords (segments ++ later) = labelledWords segments ++ labelledWords later := by
  simp [labelledWords]

theorem labelledWords_turn {run : List (SpeakerSegment ν)} {group : SpeakerSegment ν}
    (turn : Turn run group) : labelledWords run = labelledWords [group] := by
  have labels : labelledWords run = run.flatMap fun seg =>
      (Text.words seg.text).map fun word => (group.speakerLabel, word) := by
    apply List.flatMap_congr
    intro seg member
    rw [turn.speaker seg member]
  rw [labels]
  simp [labelledWords, turn.words, List.map_flatMap]

theorem labelledWords_groups {runs : List (List (SpeakerSegment ν))}
    {groups : List (SpeakerSegment ν)} (account : List.Forall₂ Turn runs groups) :
    labelledWords groups = labelledWords runs.flatten := by
  induction account with
  | nil => rfl
  | @cons run group runs groups turn _ ih =>
      have first := labelledWords_append [group] groups
      rw [List.flatten_cons, labelledWords_append, labelledWords_turn turn, ← ih]
      exact first

theorem stored_get (heap : Heap ν) (stored : List (Fin heap.length)) :
    List.Forall₂ (fun address seg => heap[address]? = some seg) (stored.map Fin.val)
      (stored.map heap.get) := by
  induction stored with
  | nil => exact .nil
  | cons address stored ih => exact .cons (by simp) ih

theorem transcript_preserved (heap : Heap ν) (stored : List (Fin heap.length)) :
    ∃ memory out,
      groupConsecutiveSpeakerSegments float maxGapSeconds heap (stored.map Fin.val) =
          some (memory, out) ∧
        (heap <+: memory ∧ ∀ address ∈ out, heap.length ≤ address ∧ address < memory.length) ∧
        (∃ runs, runs.flatten = stored.map heap.get ∧
          List.Forall₂ Turn runs (load memory out)) ∧
        labelledWords (load memory out) = labelledWords (stored.map heap.get) ∧
        ((load memory out).IsChain fun last seg => ¬sameTurn float maxGapSeconds last seg) ∧
        grouped float maxGapSeconds (load memory out) = load memory out := by
  have result := groupConsecutive_eq float maxGapSeconds heap (stored_get heap stored)
  have account := turns_runs float maxGapSeconds (stored.map heap.get)
  have whole : (runs float maxGapSeconds (stored.map heap.get)).flatten = stored.map heap.get :=
    List.flatten_splitBy _ _
  refine ⟨_, _, result, ?_⟩
  rw [load_copies]
  refine ⟨⟨List.prefix_append _ _, ?_⟩, ⟨_, whole, account⟩, ?_, ?_, ?_⟩
  · intro address member
    simpa [List.mem_range'_1] using member
  · rw [labelledWords_groups account, whole]
  · exact coalesce_apart (sameTurn_keepsLeft float maxGapSeconds) _
  · rw [grouped_eq]
    exact coalesce_coalesce (sameTurn_keepsLeft float maxGapSeconds) _

end

/-! ## The spans -/

section
variable {τ : Type} [LinearOrder τ]

def Spans (run : List (SpeakerSegment τ)) (group : SpeakerSegment τ) : Prop :=
  ∀ seg ∈ run, group.startSeconds ≤ seg.startSeconds ∧ seg.endSeconds ≤ group.endSeconds

def LastEndsLatest (run : List (SpeakerSegment τ)) : Prop :=
  ∀ last ∈ run.getLast?, ∀ seg ∈ run, seg.endSeconds ≤ last.endSeconds

theorem Turn.spans_iff {run : List (SpeakerSegment τ)} {group : SpeakerSegment τ}
    (turn : Turn run group) (sorted : run.Pairwise fun a b => a.startSeconds ≤ b.startSeconds) :
    Spans run group ↔ LastEndsLatest run := by
  have starts : ∀ seg ∈ run, group.startSeconds ≤ seg.startSeconds := by
    obtain ⟨first, rest, rfl⟩ := List.exists_cons_of_ne_nil turn.nonempty
    have same : first.startSeconds = group.startSeconds := by simpa using turn.starts
    have later := (List.pairwise_cons.mp sorted).1
    rw [← same]
    simpa using later
  have ends : ∀ last ∈ run.getLast?, last.endSeconds = group.endSeconds := by
    intro last isLast
    have found := turn.ends
    rw [isLast] at found
    exact Option.some.inj found
  constructor
  · intro spans last isLast seg member
    rw [ends last isLast]
    exact (spans seg member).2
  · intro latest seg member
    have isLast := List.getLast?_eq_some_getLast turn.nonempty
    rw [← ends _ isLast]
    exact ⟨starts seg member, latest _ isLast seg member⟩

theorem spans_of_turns {runs : List (List (SpeakerSegment τ))} {groups : List (SpeakerSegment τ)}
    (account : List.Forall₂ Turn runs groups)
    (sorted : ∀ run ∈ runs, run.Pairwise fun a b => a.startSeconds ≤ b.startSeconds) :
    List.Forall₂ Spans runs groups ↔ ∀ run ∈ runs, LastEndsLatest run := by
  induction account with
  | nil => simp
  | cons turn _ ih =>
      have rest := ih fun run member => sorted run (List.mem_cons_of_mem _ member)
      rw [List.forall₂_cons, rest, turn.spans_iff (sorted _ (by simp)), List.forall_mem_cons]

variable [Sub τ] (maxGapSeconds : τ)

/-- The span of every group contains those of the segments merged into it. -/
def Covers (segments : List (SpeakerSegment τ)) : Prop :=
  List.Forall₂ Spans (runs some maxGapSeconds segments) (grouped some maxGapSeconds segments)

theorem spans_cover_iff {segments : List (SpeakerSegment τ)}
    (sorted : segments.Pairwise fun a b => a.startSeconds ≤ b.startSeconds) :
    Covers maxGapSeconds segments ↔
      ∀ run ∈ runs some maxGapSeconds segments, LastEndsLatest run := by
  have account := turns_runs some maxGapSeconds segments
  rw [Covers, grouped_eq]
  refine spans_of_turns account ?_
  intro run member
  have within : run.Sublist segments := by
    have whole : (runs some maxGapSeconds segments).flatten = segments := List.flatten_splitBy _ _
    rw [← whole]
    exact List.sublist_flatten_of_mem member
  exact sorted.sublist within

end

def talking (start stop : ℚ) : SpeakerSegment ℚ := ⟨['A'], start, stop, ['x']⟩

theorem nested_not_covered :
    ∃ segments : List (SpeakerSegment ℚ),
      (segments.Pairwise fun a b => a.startSeconds ≤ b.startSeconds) ∧
        (∀ seg ∈ segments, seg.startSeconds ≤ seg.endSeconds) ∧
        ¬Covers Markdown.mergeGapSeconds segments := by
  refine ⟨[talking 0 10, talking 2 3], by simp [talking], by norm_num [talking], ?_⟩
  have run : runs some Markdown.mergeGapSeconds [talking 0 10, talking 2 3] =
      [[talking 0 10, talking 2 3]] := by
    decide +kernel
  have group : grouped some Markdown.mergeGapSeconds [talking 0 10, talking 2 3] =
      [⟨['A'], 0, 3, ['x', ' ', 'x']⟩] := by
    decide +kernel
  rw [Covers, run, group]
  norm_num [Spans, talking]

theorem overlapping_covered :
    Covers Markdown.mergeGapSeconds [talking 0 10, talking 2 12] := by
  have run : runs some Markdown.mergeGapSeconds [talking 0 10, talking 2 12] =
      [[talking 0 10, talking 2 12]] := by
    decide +kernel
  refine (spans_cover_iff Markdown.mergeGapSeconds (by simp [talking])).mpr ?_
  rw [run]
  norm_num [LastEndsLatest, talking]

end Kaeyris.SpeakerTurns
