import Kaeyris.TextChunker
import Mathlib.Data.List.Infix

/-!
# What chunking keeps

The loop keeps its remaining text trimmed. One cut takes a non-empty head off it and leaves a
non-empty remainder, so the chunks and the blanks between them make up the stripped text.
-/

namespace Kaeyris.TextChunker
open Text

theorem rfind_some {pattern window : Text} {i : Nat} (found : rfind pattern window = some i) :
    pattern <+: window.drop i := by
  have hit := List.find?_some found
  exact List.isPrefixOf_iff_prefix.mp hit

theorem rfind_none {pattern window : Text} (missing : rfind pattern window = none) :
    ¬pattern <:+: window := by
  rintro ⟨before, after, rfl⟩
  have within : before.length < (before ++ pattern ++ after).length + 1 := by
    simp only [List.length_append]
    omega
  have miss := List.find?_eq_none.mp missing before.length
    (List.mem_reverse.mpr (List.mem_range.mpr within))
  simp [List.append_assoc] at miss

theorem rfind_ends {pattern window : Text} {i : Nat} (found : rfind pattern window = some i)
    (content : pattern ≠ []) :
    i + pattern.length ≤ window.length ∧ pattern <:+ window.take (i + pattern.length) := by
  have inside := rfind_some found
  have fits := inside.length_le
  have nonempty := List.length_pos_iff.mpr content
  rw [List.length_drop] at fits
  refine ⟨by omega, window.take i, ?_⟩
  rw [List.take_add, List.prefix_iff_eq_take.mp inside]
  simp

theorem lastSentenceEnd_some {i n : Nat} {s : Text} (found : lastSentenceEnd i s = some n) :
    ∃ before mark space after, isSentenceMark mark ∧ isSpace space ∧
      s = before ++ mark :: space :: after ∧ n = i + before.length + 2 := by
  induction i, s using lastSentenceEnd.induct with
  | case1 i a b rest hit ih =>
      simp only [lastSentenceEnd, hit, if_true] at found
      rw [Bool.and_eq_true] at hit
      cases later : lastSentenceEnd (i + 2) rest with
      | none =>
          simp only [later, Option.none_or, Option.some.injEq] at found
          exact ⟨[], a, b, rest, hit.1, hit.2, rfl, found.symm⟩
      | some m =>
          simp only [later, Option.some_or, Option.some.injEq] at found
          obtain ⟨before, mark, space, after, isMark, blank, rfl, place⟩ := ih (found ▸ later)
          exact ⟨a :: b :: before, mark, space, after, isMark, blank, rfl,
            by simp only [List.length_cons]; omega⟩
  | case2 i a b rest miss ih =>
      simp only [lastSentenceEnd, miss, Bool.false_eq_true, if_false] at found
      obtain ⟨before, mark, space, after, isMark, blank, shape, place⟩ := ih found
      exact ⟨a :: before, mark, space, after, isMark, blank, by rw [shape]; rfl,
        by simp only [List.length_cons]; omega⟩
  | case3 i s short => simp [lastSentenceEnd] at found

theorem lastSentenceEnd_none {i : Nat} {s : Text} (missing : lastSentenceEnd i s = none)
    {mark space : Char} (isMark : isSentenceMark mark) (blank : isSpace space) :
    ¬[mark, space] <:+: s := by
  induction i, s using lastSentenceEnd.induct with
  | case1 i a b rest hit ih =>
      simp only [lastSentenceEnd, hit, if_true] at missing
      cases later : lastSentenceEnd (i + 2) rest <;> simp [later] at missing
  | case2 i a b rest miss ih =>
      simp only [lastSentenceEnd, miss, Bool.false_eq_true, if_false] at missing
      rw [List.infix_cons_iff]
      rintro (front | inside)
      · simp only [List.cons_prefix_cons] at front
        obtain ⟨rfl, rfl, -⟩ := front
        simp [isMark, blank] at miss
      · exact ih missing inside
  | case3 s i short =>
      intro inside
      have size := inside.length_le
      rcases s with _ | ⟨a, _ | ⟨b, rest⟩⟩
      · simp at size
      · simp at size
      · exact short a b rest rfl

/-- The boundaries of the docstring, best first. -/
inductive Boundary where
  | paragraph
  | sentence
  | whitespace
  deriving DecidableEq

namespace Boundary

def rank : Boundary → Nat
  | .paragraph => 1
  | .sentence => 2
  | .whitespace => 3

def Mark : Boundary → Text → Prop
  | .paragraph, s => s = ['\n', '\n']
  | .sentence, s => ∃ mark space, isSentenceMark mark ∧ isSpace space ∧ s = [mark, space]
  | .whitespace, s => ∃ space, isSpace space ∧ s = [space]

def In (kind : Boundary) (window : Text) : Prop := ∃ s, kind.Mark s ∧ s <:+: window

def Ends (kind : Boundary) (head : Text) : Prop := ∃ s, kind.Mark s ∧ s <:+ head

theorem Ends.in_window {kind : Boundary} {window : Text} {cut : Nat}
    (ends : kind.Ends (window.take cut)) : kind.In window := by
  obtain ⟨s, mark, suffix⟩ := ends
  exact ⟨s, mark, suffix.isInfix.trans (List.take_prefix cut window).isInfix⟩

end Boundary

/-- A window without leading whitespace has no match of a blank pattern at position 0. -/
theorem rfind_inner {window rest : Text} {c : Char} {i : Nat}
    (clean : ∀ c ∈ window.head?, ¬isSpace c) (blank : isSpace c)
    (found : rfind (c :: rest) window = some i) : 1 ≤ i := by
  by_contra zero
  obtain rfl : i = 0 := by omega
  obtain ⟨after, shape⟩ := rfind_some found
  exact clean c (by rw [← List.drop_zero (l := window), ← shape]; rfl) blank

theorem whitespaceCut_cases {window : Text} (clean : ∀ c ∈ window.head?, ¬isSpace c) :
    let cut := whitespaceCut window window.length
    cut ≤ window.length ∧
      ([' '] <:+ window.take cut ∨ ¬[' '] <:+: window ∧ cut = window.length) := by
  unfold whitespaceCut
  split
  · rename_i space found
    rw [if_pos (rfind_inner clean (by decide) found)]
    have ends := rfind_ends found (by simp)
    exact ⟨ends.1, .inl ends.2⟩
  · rename_i missing
    exact ⟨le_rfl, .inr ⟨rfind_none missing, rfl⟩⟩

theorem sentenceCut_cases {window : Text} (clean : ∀ c ∈ window.head?, ¬isSpace c) :
    let cut := sentenceCut window window.length
    cut ≤ window.length ∧
      (Boundary.sentence.Ends (window.take cut) ∨
        ¬Boundary.sentence.In window ∧
          ([' '] <:+ window.take cut ∨ ¬[' '] <:+: window ∧ cut = window.length)) := by
  unfold sentenceCut
  split
  · rename_i last found
    obtain ⟨before, mark, space, after, isMark, blank, shape, place⟩ := lastSentenceEnd_some found
    have ending : window = (before ++ [mark, space]) ++ after := by rw [shape]; simp
    have place : last = (before ++ [mark, space]).length := by rw [place]; simp
    simp only [ending, place, List.take_left]
    refine ⟨by simp, .inl ⟨[mark, space], ⟨mark, space, isMark, blank, rfl⟩, before, rfl⟩⟩
  · rename_i missing
    obtain ⟨fits, outcome⟩ := whitespaceCut_cases clean
    refine ⟨fits, .inr ⟨?_, outcome⟩⟩
    rintro ⟨_, ⟨mark, space, isMark, blank, rfl⟩, inside⟩
    exact lastSentenceEnd_none missing isMark blank inside

theorem findCutPoint_cases {text : Text} {maxChars : Nat} (clean : ∀ c ∈ text.head?, ¬isSpace c)
    (long : maxChars < text.length) :
    let window := text.take maxChars
    let cut := findCutPoint text maxChars
    cut ≤ maxChars ∧
      (Boundary.paragraph.Ends (window.take cut) ∨
        ¬Boundary.paragraph.In window ∧
          (Boundary.sentence.Ends (window.take cut) ∨
            ¬Boundary.sentence.In window ∧
              ([' '] <:+ window.take cut ∨ ¬[' '] <:+: window ∧ cut = maxChars))) := by
  have size : (text.take maxChars).length = maxChars := by simp; omega
  have clean : ∀ c ∈ (text.take maxChars).head?, ¬isSpace c := by
    intro c first
    obtain ⟨after, shape⟩ := List.take_prefix maxChars text
    apply clean
    rw [← shape, List.head?_append, Option.mem_def.mp first]
    rfl
  unfold findCutPoint
  dsimp only
  generalize text.take maxChars = window at size clean
  subst size
  split
  · rename_i para found
    have ends := rfind_ends found (by simp)
    have inner : 1 ≤ _ := rfind_inner clean (by decide) found
    rw [if_pos inner]
    exact ⟨ends.1, .inl ⟨_, rfl, ends.2⟩⟩
  · rename_i missing
    obtain ⟨fits, outcome⟩ := sentenceCut_cases clean
    refine ⟨fits, .inr ⟨?_, outcome⟩⟩
    rintro ⟨_, rfl, inside⟩
    exact rfind_none missing inside

theorem cut_parts {remaining : Text} {maxChars : Nat} (positive : 0 < maxChars)
    (trimmed : remaining.Trimmed) (long : maxChars < remaining.length) :
    let cut := findCutPoint remaining maxChars
    let head := strip (remaining.take cut)
    let rest := lstrip (remaining.drop cut)
    head ≠ [] ∧ head.length ≤ maxChars ∧ rest ≠ [] ∧ rest.Trimmed ∧
      ∃ separator, Blank separator ∧ remaining = head ++ separator ++ rest := by
  intro cut head rest
  have fits : cut ≤ maxChars := (findCutPoint_cases trimmed.1 long).1
  have progress : 0 < cut := findCutPoint_pos remaining positive
  have parts := List.take_append_drop cut remaining
  have first : ∀ c ∈ (remaining.take cut).head?, ¬isSpace c := by
    intro c first
    apply trimmed.1
    rw [← parts, List.head?_append, Option.mem_def.mp first]
    rfl
  have tail : (remaining.drop cut).getLast? = remaining.getLast? := by
    rw [List.getLast?_drop, if_neg (by omega)]
  obtain ⟨front, frontBlank, frontParts⟩ := rstrip_parts (remaining.take cut)
  obtain ⟨back, backBlank, backParts⟩ := lstrip_parts (remaining.drop cut)
  have headShape : head = rstrip (remaining.take cut) := by
    change rstrip (lstrip _) = _
    rw [lstrip_of_head first]
  have full : ¬Blank (remaining.drop cut) := by
    intro blank
    have nonempty : remaining.drop cut ≠ [] := by simp; omega
    have last := List.getLast?_eq_some_getLast nonempty
    exact trimmed.2 _ (tail ▸ last) (blank _ (List.getLast_mem nonempty))
  have restFull : rest ≠ [] := by
    intro empty
    rw [← blank_lstrip] at full
    change ¬Blank rest at full
    exact full (by simp [empty, Blank])
  refine ⟨?_, ?_, restFull, ⟨lstrip_head _, ?_⟩, front ++ back,
    blank_append.mpr ⟨frontBlank, backBlank⟩, ?_⟩
  · intro empty
    have blank := strip_eq_nil.mp empty
    have nonempty : remaining.take cut ≠ [] := by
      rw [Ne, List.take_eq_nil_iff, not_or]
      exact ⟨by omega, List.ne_nil_of_length_pos (by omega)⟩
    exact first _ (List.head?_eq_some_head nonempty) (blank _ (List.head_mem nonempty))
  · have size := strip_length_le (remaining.take cut)
    rw [List.length_take] at size
    exact size.trans ((min_le_left _ _).trans fits)
  · intro c last
    apply trimmed.2
    rw [← tail, backParts, List.getLast?_append, Option.mem_def.mp last]
    rfl
  · calc remaining = remaining.take cut ++ remaining.drop cut := parts.symm
      _ = (head ++ front) ++ (back ++ rest) := by rw [headShape, ← frontParts, ← backParts]
      _ = head ++ (front ++ back) ++ rest := by simp

/-- The pieces joined back, each with the separator that follows it. -/
def weave : List Text → List Text → Text
  | chunk :: chunks, separator :: separators => chunk ++ separator ++ weave chunks separators
  | [chunk], [] => chunk
  | _, _ => []

theorem chunkLoop_pieces {maxChars : Nat} {positive : 0 < maxChars} {remaining : Text}
    (trimmed : remaining.Trimmed) :
    ∀ chunk ∈ chunkLoop maxChars positive remaining,
      chunk ≠ [] ∧ chunk.Trimmed ∧ chunk.length ≤ maxChars := by
  induction remaining using chunkLoop.induct maxChars positive with
  | case1 => simp [chunkLoop]
  | case2 remaining nonempty short =>
      rw [chunkLoop, if_neg nonempty, if_pos short, strip_of_trimmed trimmed]
      simpa using ⟨nonempty, trimmed, short⟩
  | case3 remaining nonempty long head blank ih =>
      exact ((cut_parts positive trimmed (by omega)).1 blank).elim
  | case4 remaining nonempty long head full ih =>
      obtain ⟨-, size, -, restTrimmed, -⟩ := cut_parts positive trimmed (by omega)
      rw [chunkLoop, if_neg nonempty, if_neg long, if_neg full]
      rintro chunk (- | ⟨-, later⟩)
      · exact ⟨full, strip_trimmed _, size⟩
      · exact ih restTrimmed chunk later

theorem chunkLoop_weave {maxChars : Nat} {positive : 0 < maxChars} {remaining : Text}
    (trimmed : remaining.Trimmed) :
    ∃ separators, separators.length = (chunkLoop maxChars positive remaining).length - 1 ∧
      (∀ separator ∈ separators, Blank separator) ∧
      remaining = weave (chunkLoop maxChars positive remaining) separators := by
  induction remaining using chunkLoop.induct maxChars positive with
  | case1 => exact ⟨[], by simp [chunkLoop], by simp, by simp [chunkLoop, weave]⟩
  | case2 remaining nonempty short =>
      rw [chunkLoop, if_neg nonempty, if_pos short, strip_of_trimmed trimmed]
      exact ⟨[], rfl, by simp, rfl⟩
  | case3 remaining nonempty long head blank ih =>
      exact ((cut_parts positive trimmed (by omega)).1 blank).elim
  | case4 remaining nonempty long head full ih =>
      obtain ⟨-, -, restFull, restTrimmed, separator, separates, parts⟩ :=
        cut_parts positive trimmed (by omega)
      obtain ⟨separators, count, blanks, shape⟩ := ih restTrimmed
      have later := chunkLoop_ne_nil maxChars positive _ (fun blank => restFull (by
        rw [← strip_eq_nil, strip_of_trimmed restTrimmed] at blank
        exact blank))
      rw [chunkLoop, if_neg nonempty, if_neg long, if_neg full]
      refine ⟨separator :: separators, ?_, ?_, ?_⟩
      · have := List.length_pos_iff.mpr later
        simp only [List.length_cons]
        omega
      · simpa using ⟨separates, blanks⟩
      · rw [weave, ← shape]
        exact parts

/-- Chunking loses, repeats and reorders nothing but whitespace between the chunks, and a chunk
is a chunk of itself. -/
theorem chunkText_lossless (text : Text) (maxChars : Nat) (positive : 0 < maxChars) :
    (∀ chunk ∈ chunkText text maxChars positive,
      chunk ≠ [] ∧ chunk.Trimmed ∧ chunk.length ≤ maxChars) ∧
    (∃ separators, separators.length = (chunkText text maxChars positive).length - 1 ∧
      (∀ separator ∈ separators, Blank separator) ∧
      strip text = weave (chunkText text maxChars positive) separators) ∧
    (chunkText text maxChars positive = [] ↔ text.Blank) ∧
    ∀ chunk ∈ chunkText text maxChars positive, chunkText chunk maxChars positive = [chunk] := by
  have pieces : ∀ chunk ∈ chunkText text maxChars positive, _ :=
    chunkLoop_pieces (strip_trimmed text)
  refine ⟨pieces, chunkLoop_weave (strip_trimmed text), chunkText_eq_nil, ?_⟩
  intro chunk member
  obtain ⟨nonempty, trimmed, short⟩ := pieces chunk member
  rw [chunkText, strip_of_trimmed trimmed, chunkLoop, if_neg nonempty, if_pos short,
    strip_of_trimmed trimmed]

theorem chunkText_lossless_sentences :
    0 < 6 ∧ ∃ separators, separators.length =
        (chunkText " One. Two\n three ".toList 6 (by decide)).length - 1 ∧
      (∀ separator ∈ separators, Blank separator) ∧
      strip " One. Two\n three ".toList =
        weave (chunkText " One. Two\n three ".toList 6 (by decide)) separators :=
  ⟨by decide, (chunkText_lossless _ 6 (by decide)).2.1⟩

/-- The texts `remaining` holds when the loop of `chunk_text` starts an iteration. -/
inductive Remaining (maxChars : Nat) (text : Text) : Text → Prop where
  | start : Remaining maxChars text (strip text)
  | cut {remaining : Text} (previous : Remaining maxChars text remaining)
      (long : maxChars < remaining.length) :
      Remaining maxChars text (lstrip (remaining.drop (findCutPoint remaining maxChars)))

theorem Remaining.trimmed {text remaining : Text} {maxChars : Nat} (positive : 0 < maxChars)
    (reached : Remaining maxChars text remaining) : remaining.Trimmed := by
  induction reached with
  | start => exact strip_trimmed text
  | cut previous long ih => exact (cut_parts positive ih long).2.2.2.1

def SplitsWord (remaining : Text) (cut : Nat) : Prop :=
  ∃ before after, (remaining.take cut).getLast? = some before ∧
    (remaining.drop cut).head? = some after ∧ ¬isSpace before ∧ ¬isSpace after

namespace Boundary

def Best (kind : Boundary) (window : Text) : Prop :=
  kind.In window ∧ ∀ better : Boundary, better.rank < kind.rank → ¬better.In window

/-- Position `cut` is at a boundary of this kind; whitespace may be on either side of it. -/
def At (kind : Boundary) (remaining : Text) (cut : Nat) : Prop :=
  kind.Ends (remaining.take cut) ∨
    kind = whitespace ∧ ∃ c ∈ (remaining.drop cut).head?, isSpace c

end Boundary

/-- No word is split while the window has whitespace, and a cut that splits no word is at a
boundary of the best kind in the window. -/
def CutsWell (maxChars : Nat) (remaining : Text) : Prop :=
  (SplitsWord remaining (findCutPoint remaining maxChars) →
    ∀ c ∈ remaining.take maxChars, ¬isSpace c) ∧
  (¬SplitsWord remaining (findCutPoint remaining maxChars) →
    ∀ kind : Boundary, kind.Best (remaining.take maxChars) →
      kind.At remaining (findCutPoint remaining maxChars))

/-- The window has a boundary that the search sees, or no whitespace at all, or its end is no
place inside a word. -/
def SeenWhitespace (maxChars : Nat) (remaining : Text) : Prop :=
  Boundary.paragraph.In (remaining.take maxChars) ∨
    Boundary.sentence.In (remaining.take maxChars) ∨ ' ' ∈ remaining.take maxChars ∨
    (∀ c ∈ remaining.take maxChars, ¬isSpace c) ∨ ¬SplitsWord remaining maxChars

theorem Boundary.Mark.blank_last {kind : Boundary} {s : Text} (mark : kind.Mark s) :
    ∃ c ∈ s.getLast?, isSpace c := by
  cases kind with
  | paragraph => exact ⟨'\n', by rw [mark]; rfl, by decide⟩
  | sentence =>
      obtain ⟨_, space, -, blank, rfl⟩ := mark
      exact ⟨space, rfl, blank⟩
  | whitespace =>
      obtain ⟨space, blank, rfl⟩ := mark
      exact ⟨space, rfl, blank⟩

theorem Boundary.In.blank {kind : Boundary} {window : Text} (inside : kind.In window) :
    ∃ c ∈ window, isSpace c := by
  obtain ⟨s, mark, infixed⟩ := inside
  obtain ⟨c, last, blank⟩ := mark.blank_last
  exact ⟨c, infixed.mem (List.mem_of_getLast? last), blank⟩

theorem Boundary.Ends.not_splitsWord {kind : Boundary} {remaining : Text} {cut : Nat}
    (ends : kind.Ends (remaining.take cut)) : ¬SplitsWord remaining cut := by
  rintro ⟨before, after, last, -, content, -⟩
  obtain ⟨s, mark, front, shape⟩ := ends
  obtain ⟨c, final, blank⟩ := mark.blank_last
  rw [← shape, List.getLast?_append, Option.mem_def.mp final] at last
  obtain rfl : c = before := by simpa using last
  exact content blank

theorem CutsWell.of_ends {remaining : Text} {maxChars : Nat} {kind : Boundary}
    (fits : findCutPoint remaining maxChars ≤ maxChars)
    (ends : kind.Ends (remaining.take (findCutPoint remaining maxChars)))
    (best : ∀ better : Boundary, better.rank < kind.rank → ¬better.In (remaining.take maxChars)) :
    CutsWell maxChars remaining := by
  refine ⟨fun splits => (ends.not_splitsWord splits).elim, fun _ other bestOther => ?_⟩
  have inside : kind.In (remaining.take maxChars) := by
    rw [← min_eq_left fits, ← List.take_take] at ends
    exact ends.in_window
  have least : ¬kind.rank < other.rank := fun lower => bestOther.2 kind lower inside
  have most : ¬other.rank < kind.rank := fun lower => best other lower bestOther.1
  have same : other = kind := by
    cases other <;> cases kind <;> simp_all [Boundary.rank]
  exact .inl (same ▸ ends)

theorem blank_beside {remaining : Text} {cut : Nat} (positive : 0 < cut)
    (inside : cut < remaining.length) (whole : ¬SplitsWord remaining cut) :
    Boundary.whitespace.At remaining cut := by
  have front : remaining.take cut ≠ [] := by
    rw [Ne, List.take_eq_nil_iff, not_or]
    exact ⟨by omega, List.ne_nil_of_length_pos (by omega)⟩
  have back : remaining.drop cut ≠ [] := by simpa using inside
  by_cases before : isSpace ((remaining.take cut).getLast front)
  · refine .inl ⟨[_], ⟨_, before, rfl⟩, (remaining.take cut).dropLast, ?_⟩
    exact List.dropLast_append_getLast front
  · refine .inr ⟨rfl, _, List.head?_eq_some_head back, ?_⟩
    by_contra after
    exact whole ⟨_, _, List.getLast?_eq_some_getLast front, List.head?_eq_some_head back,
      before, after⟩

theorem cutsWell_iff {remaining : Text} {maxChars : Nat} (positive : 0 < maxChars)
    (trimmed : remaining.Trimmed) (long : maxChars < remaining.length) :
    CutsWell maxChars remaining ↔ SeenWhitespace maxChars remaining := by
  obtain ⟨fits, outcome⟩ := findCutPoint_cases trimmed.1 long
  rw [List.take_take, min_eq_left fits] at outcome
  rcases outcome with paragraph | ⟨noParagraph, sentence | ⟨noSentence, space | hard⟩⟩
  · have well := CutsWell.of_ends fits paragraph (fun better lower => by
      cases better <;> simp [Boundary.rank] at lower)
    rw [← min_eq_left fits, ← List.take_take] at paragraph
    exact iff_of_true well (.inl paragraph.in_window)
  · have well := CutsWell.of_ends fits sentence (fun better lower => by
      cases better <;> simp_all [Boundary.rank])
    rw [← min_eq_left fits, ← List.take_take] at sentence
    exact iff_of_true well (.inr (.inl sentence.in_window))
  · have ends : Boundary.whitespace.Ends (remaining.take (findCutPoint remaining maxChars)) :=
      ⟨_, ⟨' ', by decide, rfl⟩, space⟩
    have well := CutsWell.of_ends fits ends (fun better lower => by
      cases better <;> simp_all [Boundary.rank])
    rw [← min_eq_left fits, ← List.take_take] at space
    have seen := (List.take_prefix _ _).mem (space.mem (List.mem_singleton_self ' '))
    exact iff_of_true well (.inr (.inr (.inl seen)))
  · obtain ⟨noSpace, cut⟩ := hard
    have unseen : ' ' ∉ remaining.take maxChars := by
      rwa [List.singleton_infix_iff] at noSpace
    constructor
    · intro well
      by_cases splits : SplitsWord remaining maxChars
      · exact .inr (.inr (.inr (.inl (well.1 (by rwa [cut])))))
      · exact .inr (.inr (.inr (.inr splits)))
    · rintro (paragraph | sentence | space | blankless | whole)
      · exact (noParagraph paragraph).elim
      · exact (noSentence sentence).elim
      · exact (unseen space).elim
      · refine ⟨fun _ => blankless, fun _ kind best => ?_⟩
        obtain ⟨c, member, blank⟩ := best.1.blank
        exact (blankless c member blank).elim
      · rw [CutsWell, cut]
        refine ⟨fun splits => (whole splits).elim, fun _ kind best => ?_⟩
        cases kind with
        | paragraph => exact (noParagraph best.1).elim
        | sentence => exact (noSentence best.1).elim
        | whitespace => exact blank_beside positive long whole

/-- The chunker never splits a word needlessly exactly when every window it searches shows its
whitespace: a plain space, or the newlines or the sentence end of a better boundary. -/
theorem chunkText_cutsWell_iff (text : Text) (maxChars : Nat) (positive : 0 < maxChars) :
    (∀ remaining, Remaining maxChars text remaining → maxChars < remaining.length →
      CutsWell maxChars remaining) ↔
    ∀ remaining, Remaining maxChars text remaining → maxChars < remaining.length →
      SeenWhitespace maxChars remaining :=
  forall_congr' fun _ => forall_congr' fun reached => forall_congr' fun long =>
    cutsWell_iff positive (reached.trimmed positive) long

theorem Remaining.mem {text remaining : Text} {maxChars : Nat}
    (reached : Remaining maxChars text remaining) : ∀ c ∈ remaining, c ∈ text := by
  have kept (s : Text) : ∀ c ∈ strip s, c ∈ s := fun c member =>
    (List.dropWhile_suffix _).mem ((List.rdropWhile_prefix (p := isSpace) _).mem member)
  induction reached with
  | start => exact kept text
  | cut previous long ih =>
      intro c member
      exact ih c (List.mem_of_mem_drop ((List.dropWhile_suffix _).mem member))

theorem Remaining.seen_of_spaces {text remaining : Text} {maxChars : Nat}
    (plain : ∀ c ∈ text, isSpace c → c = ' ') (reached : Remaining maxChars text remaining) :
    SeenWhitespace maxChars remaining := by
  by_cases space : ' ' ∈ remaining.take maxChars
  · exact .inr (.inr (.inl space))
  · refine .inr (.inr (.inr (.inl ?_)))
    intro c member blank
    have isPlain := plain c (reached.mem c (List.mem_of_mem_take member)) blank
    exact space (isPlain ▸ member)

theorem chunkText_cutsWell_iff_sentence :
    0 < 12 ∧ ((∀ remaining, Remaining 12 "Oui. Bonjour a tous".toList remaining →
      12 < remaining.length → CutsWell 12 remaining) ↔
    ∀ remaining, Remaining 12 "Oui. Bonjour a tous".toList remaining →
      12 < remaining.length → SeenWhitespace 12 remaining) :=
  ⟨by decide, chunkText_cutsWell_iff _ 12 (by decide)⟩

/-- The only whitespace of the window is a newline, and the cut goes through the second word. -/
theorem chunkText_splits_after_newline :
    ¬∀ remaining, Remaining 6 "Oui\nbonjour".toList remaining → 6 < remaining.length →
      CutsWell 6 remaining := by
  intro well
  have cut : findCutPoint (strip "Oui\nbonjour".toList) 6 = 6 := by decide
  have splits : SplitsWord (strip "Oui\nbonjour".toList) 6 :=
    ⟨'o', 'n', by decide, by decide, by decide, by decide⟩
  have blankless := (well _ .start (by decide)).1 (by rwa [cut])
  exact blankless '\n' (by decide) (by decide)

end Kaeyris.TextChunker
