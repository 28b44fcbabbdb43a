import Kaeyris.JobProjection

/-!
# The reason a failed job shows

RQ keeps a traceback. What a client is shown of it is its last line that says something.
-/

namespace Kaeyris.Proof
open Lib Text JobProjection

def Unbroken (s : Text) : Prop := ∀ c ∈ s, isLineBoundary c = false

instance (s : Text) : Decidable (Unbroken s) :=
  List.decidableBAll (fun c => isLineBoundary c = false) s

inductive Splits : Text → List Text → Prop
  | nil : Splits [] []
  | last {line : Text} (unbroken : Unbroken line) (content : line ≠ []) : Splits line [line]
  | cons {line separator rest : Text} {lines : List Text} (unbroken : Unbroken line)
      (separates : separator ≠ []) (boundary : ∀ c ∈ separator, isLineBoundary c = true)
      (later : Splits rest lines) :
      Splits (line ++ separator ++ rest) (line :: lines)

theorem blank_boundary {c : Char} (boundary : isLineBoundary c = true) : isSpace c = true := by
  simp only [isLineBoundary, isSpace, Bool.or_eq_true, Bool.and_eq_true, decide_eq_true_eq,
    beq_iff_eq] at boundary ⊢
  omega

theorem splits_splitLinesFrom {line s : Text} (unbroken : Unbroken line) :
    Splits (line ++ s) (splitLinesFrom line s) := by
  have ends (line separator rest : Text) (unbroken : Unbroken line) (separates : separator ≠ [])
      (boundary : ∀ c ∈ separator, isLineBoundary c = true)
      (later : Splits rest (splitLinesFrom [] rest)) :
      Splits (line ++ (separator ++ rest)) (line :: splitLinesFrom [] rest) := by
    rw [← List.append_assoc]
    exact .cons unbroken separates boundary later
  induction line, s using splitLinesFrom.induct with
  | case1 => exact .nil
  | case2 line content =>
      rw [splitLinesFrom, if_neg content, List.append_nil]
      exact .last unbroken content
  | case3 line rest ih =>
      rw [splitLinesFrom]
      refine ends line ['\r', '\n'] rest unbroken (List.cons_ne_nil _ _) ?_ (ih fun _ member => by cases member)
      intro c member
      rcases List.mem_cons.mp member with rfl | last
      · rfl
      · rw [List.mem_singleton.mp last]
        rfl
  | case4 line c rest other boundary ih =>
      rw [splitLinesFrom, if_pos boundary]
      · refine ends line [c] rest unbroken (List.cons_ne_nil _ _) ?_ (ih fun _ member => by cases member)
        simpa using boundary
      · exact other
  | case5 line c rest other inside ih =>
      rw [splitLinesFrom, if_neg inside]
      · have longer : Unbroken (line ++ [c]) := by
          intro d member
          rcases List.mem_append.mp member with before | last
          · exact unbroken d before
          · rw [List.mem_singleton.mp last]
            exact Bool.eq_false_iff.mpr inside
        have split := ih longer
        rwa [List.append_assoc] at split
      · exact other

theorem splits_splitLines (s : Text) : Splits s (splitLines s) :=
  splits_splitLinesFrom (List.forall_mem_nil _)

/-- The last line with anything on it, without the white space around it: `raw` reaches from the
boundary before it to the one after it. -/
def LastLine (s line : Text) : Prop :=
  ∃ before raw after, s = before ++ raw ++ after ∧ (∀ c ∈ before.getLast?, isLineBoundary c) ∧
    (∀ c ∈ after.head?, isLineBoundary c) ∧ Unbroken raw ∧ ¬raw.Blank ∧ after.Blank ∧
      line = strip raw

def lastOf (lines : List Text) : Option Text := (lines.reverse.map strip).find? (· ≠ [])

theorem lastOf_cons (line : Text) (lines : List Text) :
    lastOf (line :: lines) =
      (lastOf lines).or (if line.Blank then none else some (strip line)) := by
  unfold lastOf
  rw [List.reverse_cons, List.map_append, List.find?_append, List.map_singleton,
    List.find?_singleton]
  simp only [ne_eq, decide_not, strip_eq_nil]
  split <;> simp_all

theorem Splits.last_spec {s : Text} {lines : List Text} (splits : Splits s lines) :
    (∀ line, lastOf lines = some line → LastLine s line) ∧ (lastOf lines = none → s.Blank) := by
  induction splits with
  | nil =>
      constructor
      · intro line found
        cases found
      · intro _ c member
        cases member
  | @last line unbroken content =>
      rw [lastOf_cons]
      split
      · rename_i blank
        refine ⟨fun _ found => ?_, fun _ => blank⟩
        cases found
      · rename_i shown
        constructor
        · intro found same
          cases same
          exact ⟨[], line, [], by simp, by simp, by simp, unbroken, shown, List.forall_mem_nil _,
            rfl⟩
        · intro none
          cases none
  | @cons line separator rest lines unbroken separates boundary later ih =>
      have blank : separator.Blank := fun c member => blank_boundary (boundary c member)
      rw [lastOf_cons]
      cases found : lastOf lines with
      | some last =>
          refine ⟨fun _ same => ?_, Option.some_ne_none last |>.elim⟩
          cases same
          obtain ⟨before, raw, after, split, opened, facts⟩ := ih.1 last found
          refine ⟨line ++ separator ++ before, raw, after, ?_, fun c final => ?_, facts⟩
          · rw [split]
            simp only [List.append_assoc]
          · rw [List.getLast?_append] at final
            cases ending : before.getLast? with
            | some d =>
                rw [ending] at final
                cases final
                exact opened c ending
            | none =>
                rw [ending, Option.none_or, List.getLast?_append] at final
                obtain ⟨d, present⟩ :=
                  Option.isSome_iff_exists.mp (List.getLast?_isSome.mpr separates)
                rw [present] at final
                cases final
                exact boundary c (List.mem_of_getLast? present)
      | none =>
          have silent := ih.2 found
          rw [Option.none_or]
          split
          · rename_i empty
            refine ⟨fun _ same => Option.some_ne_none _ same.symm |>.elim, fun _ => ?_⟩
            exact blank_append.mpr ⟨blank_append.mpr ⟨empty, blank⟩, silent⟩
          · rename_i shown
            refine ⟨fun _ same => ?_, Option.some_ne_none _ |>.elim⟩
            cases same
            refine ⟨[], line, separator ++ rest, by simp, by simp, fun c first => ?_, unbroken,
              shown, blank_append.mpr ⟨blank, silent⟩, rfl⟩
            obtain ⟨d, tail, rfl⟩ := List.exists_cons_of_ne_nil separates
            cases first
            exact boundary c List.mem_cons_self

def recorded (record : RqRecord) : Text :=
  ((record.excString.filter (· ≠ [])).or record.excInfo).getD []

theorem LastLine.shape {s line : Text} (last : LastLine s line) :
    line ≠ [] ∧ Unbroken line ∧ ∀ c ∈ line.head?, ¬isSpace c := by
  obtain ⟨-, raw, -, -, -, -, unbroken, shown, -, rfl⟩ := last
  refine ⟨fun empty => shown (strip_eq_nil.mp empty), fun c member => unbroken c ?_,
    (strip_trimmed raw).1⟩
  exact (List.dropWhile_suffix _).mem ((List.rdropWhile_prefix _ _).mem member)

/-- A job that RQ calls failed always has a reason to show, and no other has one. The reason is a
single line of at most 500 characters that begins with something: the last line of what RQ recorded
that says anything, or a fixed sentence where nothing was. -/
theorem failureReason_shown (record : RqRecord) :
    (failureReasonFromJob record = none ↔ record.isFailed = false) ∧
      ∀ reason, failureReasonFromJob record = some reason →
        (reason ≠ [] ∧ reason.length ≤ 500 ∧ Unbroken reason ∧ ∀ c ∈ reason.head?, ¬isSpace c) ∧
        ((∃ line, LastLine (recorded record) line ∧ reason = line.take 500) ∨
          (recorded record).Blank ∧ reason = unrecordedError) := by
  unfold failureReasonFromJob
  cases failed : record.isFailed with
  | false => simp
  | true =>
      simp only [if_true]
      refine ⟨by simp, fun reason shown => ?_⟩
      obtain rfl := Option.some.inj shown
      have line : ((record.excString.filter (· ≠ [])).or record.excInfo).bind lastMeaningfulLine =
          lastOf (splitLines (recorded record)) := by
        unfold recorded
        cases (record.excString.filter (· ≠ [])).or record.excInfo <;> rfl
      obtain ⟨some_, none_⟩ := (splits_splitLines (recorded record)).last_spec
      rw [line]
      cases found : lastOf (splitLines (recorded record)) with
      | none =>
          refine ⟨?_, .inr ⟨none_ found, rfl⟩⟩
          change unrecordedError ≠ [] ∧ unrecordedError.length ≤ 500 ∧ Unbroken unrecordedError ∧
            ∀ c ∈ unrecordedError.head?, ¬isSpace c
          refine ⟨by decide, by decide, by decide, fun c first => ?_⟩
          obtain rfl := Option.some.inj first
          decide
      | some line =>
          have last := some_ line found
          obtain ⟨content, unbroken, head⟩ := last.shape
          refine ⟨⟨?_, ?_, ?_, ?_⟩, .inl ⟨line, last, rfl⟩⟩
          · simp [failureReasonChars, content]
          · exact List.length_take_le _ _
          · exact fun c member => unbroken c (List.mem_of_mem_take member)
          · intro c first
            rw [Option.map_some, Option.getD_some, List.head?_take, if_neg (by decide)] at first
            exact head c first

end Kaeyris.Proof
