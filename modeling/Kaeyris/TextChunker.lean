import Kaeyris.Text

/-!
# The text chunker

`text_chunker.py`: a text is cut into pieces of at most `max_chars` characters, at the rightmost
boundary of the best kind found in the window.
-/

namespace Kaeyris.TextChunker

/-- `window.rfind(pattern)`; `none` stands for `-1`. -/
def rfind (pattern : Text) (window : Text) : Option Nat :=
  (List.range (window.length + 1)).reverse.find? fun i => pattern.isPrefixOf (window.drop i)

def isSentenceMark (c : Char) : Bool := c == '.' || c == '!' || c == '?' || c.toNat == 0x2026

/-- The end of the last match of `_SENTENCE_END_RE.finditer`, scanning from position `i`. -/
def lastSentenceEnd (i : Nat) : Text → Option Nat
  | a :: b :: rest =>
      if isSentenceMark a && Text.isSpace b then
        (lastSentenceEnd (i + 2) rest).or (some (i + 2))
      else lastSentenceEnd (i + 1) (b :: rest)
  | _ => none

/-- Boundaries 3 and 4: a space, or a hard cut. -/
def whitespaceCut (window : Text) (maxChars : Nat) : Nat :=
  match rfind [' '] window with
  | some space => if 1 ≤ space then space + 1 else maxChars
  | none => maxChars

def sentenceCut (window : Text) (maxChars : Nat) : Nat :=
  match lastSentenceEnd 0 window with
  | some last => last
  | none => whitespaceCut window maxChars

def findCutPoint (text : Text) (maxChars : Nat) : Nat :=
  let window := text.take maxChars
  match rfind ['\n', '\n'] window with
  | some para => if 1 ≤ para then para + 2 else sentenceCut window maxChars
  | none => sentenceCut window maxChars

theorem lastSentenceEnd_pos {i n : Nat} {s : Text} (found : lastSentenceEnd i s = some n) :
    0 < n := by
  induction i, s using lastSentenceEnd.induct with
  | case1 i a b rest hit ih =>
      simp only [lastSentenceEnd, hit, if_true] at found
      cases later : lastSentenceEnd (i + 2) rest with
      | none =>
          simp only [later, Option.none_or, Option.some.injEq] at found
          omega
      | some m =>
          simp only [later, Option.some_or, Option.some.injEq] at found
          exact ih (found ▸ later)
  | case2 i a b rest miss ih =>
      simp only [lastSentenceEnd, miss, Bool.false_eq_true, if_false] at found
      exact ih found
  | case3 i s short => simp [lastSentenceEnd] at found

theorem whitespaceCut_pos (window : Text) {maxChars : Nat} (positive : 0 < maxChars) :
    0 < whitespaceCut window maxChars := by
  unfold whitespaceCut
  split
  · split
    · exact Nat.succ_pos _
    · exact positive
  · exact positive

theorem sentenceCut_pos (window : Text) {maxChars : Nat} (positive : 0 < maxChars) :
    0 < sentenceCut window maxChars := by
  unfold sentenceCut
  split
  · exact lastSentenceEnd_pos ‹_›
  · exact whitespaceCut_pos window positive

theorem findCutPoint_pos (text : Text) {maxChars : Nat} (positive : 0 < maxChars) :
    0 < findCutPoint text maxChars := by
  unfold findCutPoint
  dsimp only
  split
  · split
    · exact Nat.succ_pos _
    · exact sentenceCut_pos _ positive
  · exact sentenceCut_pos _ positive

def chunkLoop (maxChars : Nat) (positive : 0 < maxChars) (remaining : Text) : List Text :=
  if remaining = [] then []
  else if remaining.length ≤ maxChars then [Text.strip remaining]
  else
    let head := Text.strip (remaining.take (findCutPoint remaining maxChars))
    let rest := chunkLoop maxChars positive
      (Text.lstrip (remaining.drop (findCutPoint remaining maxChars)))
    if head = [] then rest else head :: rest
termination_by remaining.length
decreasing_by
  rename_i long
  have shorter := (List.dropWhile_suffix (l := remaining.drop (findCutPoint remaining maxChars))
    Text.isSpace).length_le
  have progress := findCutPoint_pos remaining positive
  rw [List.length_drop] at shorter
  unfold Text.lstrip
  omega

/-- `max_chars <= 0` raises in the source; here the bound carries its positivity. -/
def chunkText (text : Text) (maxChars : Nat) (positive : 0 < maxChars) : List Text :=
  chunkLoop maxChars positive (Text.strip text)

theorem chunkLoop_ne_nil (maxChars : Nat) (positive : 0 < maxChars) (remaining : Text)
    (content : ¬remaining.Blank) : chunkLoop maxChars positive remaining ≠ [] := by
  induction remaining using chunkLoop.induct maxChars positive with
  | case1 => exact (content (by simp [Text.Blank])).elim
  | case2 remaining nonempty short =>
      rw [chunkLoop, if_neg nonempty, if_pos short]
      exact List.cons_ne_nil _ _
  | case3 remaining nonempty long head blank ih =>
      -- A blank head leaves all of the content to the rest.
      rw [chunkLoop, if_neg nonempty, if_neg long, if_pos blank]
      apply ih
      rw [Text.blank_lstrip]
      intro tail
      rw [← List.take_append_drop (findCutPoint remaining maxChars) remaining] at content
      exact content (Text.blank_append.mpr ⟨Text.strip_eq_nil.mp blank, tail⟩)
  | case4 remaining nonempty long head full ih =>
      rw [chunkLoop, if_neg nonempty, if_neg long, if_neg full]
      exact List.cons_ne_nil _ _

theorem chunkText_eq_nil {text : Text} {maxChars : Nat} {positive : 0 < maxChars} :
    chunkText text maxChars positive = [] ↔ text.Blank := by
  constructor
  · intro none
    by_contra content
    exact chunkLoop_ne_nil maxChars positive (Text.strip text)
      (fun blank => content (Text.blank_strip.mp blank)) none
  · intro blank
    rw [chunkText, Text.strip_eq_nil.mpr blank, chunkLoop, if_pos rfl]

end Kaeyris.TextChunker
