import Mathlib.Data.List.Basic

/-!
# Runs of a labelled machine

A machine is a step function on states; a run is a list of labels. `Along` states a condition on
every step of a run, `Visits` a property of every state of it, and `Visits.of_invariant` is the
induction that connects them.
-/

namespace Kaeyris.Lib

section Runs
variable {State Label : Type} (step : State → Label → State)

def final (s : State) (run : List Label) : State := run.foldl step s

/-- Every step of the run meets the condition in the state it is taken from. -/
def Along (ok : State → Label → Prop) : State → List Label → Prop
  | _, [] => True
  | s, label :: rest => ok s label ∧ Along ok (step s label) rest

/-- Every state of the run, the first and the last included, has the property. -/
def Visits (P : State → Prop) : State → List Label → Prop
  | s, [] => P s
  | s, label :: rest => P s ∧ Visits P (step s label) rest

instance Visits.decidable (P : State → Prop) [DecidablePred P] :
    (s : State) → (run : List Label) → Decidable (Visits step P s run)
  | s, [] => inferInstanceAs (Decidable (P s))
  | s, label :: rest =>
      @instDecidableAnd _ _ (inferInstanceAs (Decidable (P s)))
        (Visits.decidable P (step s label) rest)

instance Along.decidable (ok : State → Label → Prop) [∀ s label, Decidable (ok s label)] :
    (s : State) → (run : List Label) → Decidable (Along step ok s run)
  | _, [] => .isTrue trivial
  | s, label :: rest =>
      @instDecidableAnd _ _ (inferInstanceAs (Decidable (ok s label)))
        (Along.decidable ok (step s label) rest)

variable {step}

theorem final_append (s : State) (before after : List Label) :
    final step s (before ++ after) = final step (final step s before) after := List.foldl_append

theorem Along.weaken {ok ok' : State → Label → Prop} {s : State} {run : List Label}
    (along : Along step ok s run) (implies : ∀ s label, ok s label → ok' s label) :
    Along step ok' s run := by
  induction run generalizing s with
  | nil => trivial
  | cons label rest ih => exact ⟨implies _ _ along.1, ih along.2⟩

theorem along_congr {ok ok' : State → Label → Prop} (same : ∀ s label, ok s label ↔ ok' s label)
    {s : State} {run : List Label} : Along step ok s run ↔ Along step ok' s run := by
  constructor
  · intro along
    exact along.weaken fun s label => (same s label).mp
  · intro along
    exact along.weaken fun s label => (same s label).mpr

theorem Along.of_forall {ok : State → Label → Prop} (holds : ∀ s label, ok s label) (s : State)
    (run : List Label) : Along step ok s run := by
  induction run generalizing s with
  | nil => trivial
  | cons label rest ih => exact ⟨holds s label, ih _⟩

theorem Along.at_split {ok : State → Label → Prop} {s : State} {before after : List Label}
    {label : Label} (along : Along step ok s (before ++ label :: after)) :
    ok (final step s before) label := by
  induction before generalizing s with
  | nil => exact along.1
  | cons first rest ih => exact ih along.2

theorem Visits.weaken {P Q : State → Prop} {s : State} {run : List Label}
    (visits : Visits step P s run) (implies : ∀ s, P s → Q s) : Visits step Q s run := by
  induction run generalizing s with
  | nil => exact implies _ visits
  | cons label rest ih => exact ⟨implies _ visits.1, ih visits.2⟩

theorem Visits.head {P : State → Prop} {s : State} {run : List Label}
    (visits : Visits step P s run) : P s := by
  cases run with
  | nil => exact visits
  | cons label rest => exact visits.1

theorem Visits.final {P : State → Prop} {s : State} {run : List Label}
    (visits : Visits step P s run) : P (final step s run) := by
  induction run generalizing s with
  | nil => exact visits
  | cons label rest ih => exact ih visits.2

theorem Visits.next {P : State → Prop} {s : State} {run : List Label}
    (visits : Visits step P s run) : Along step (fun s label => P (step s label)) s run := by
  induction run generalizing s with
  | nil => trivial
  | cons label rest ih => exact ⟨visits.2.head, ih visits.2⟩

theorem Visits.split {P : State → Prop} {s : State} {before after : List Label}
    (visits : Visits step P s (before ++ after)) :
    Visits step P s before ∧ Visits step P (Lib.final step s before) after := by
  induction before generalizing s with
  | nil => exact ⟨visits.head, visits⟩
  | cons label rest ih => exact ⟨⟨visits.1, (ih visits.2).1⟩, (ih visits.2).2⟩

/-- An invariant kept by the steps that meet a condition holds along every such run. -/
theorem Visits.of_invariant {inv : State → Prop} {ok : State → Label → Prop}
    (kept : ∀ s label, inv s → ok s label → inv (step s label)) {s : State} {run : List Label}
    (start : inv s) (along : Along step ok s run) : Visits step inv s run := by
  induction run generalizing s with
  | nil => exact start
  | cons label rest ih => exact ⟨start, ih (kept s label start along.1) along.2⟩

theorem Visits.of_step {inv : State → Prop}
    (kept : ∀ s label, inv s → inv (step s label)) {s : State} {run : List Label}
    (start : inv s) : Visits step inv s run := by
  induction run generalizing s with
  | nil => exact start
  | cons label rest ih => exact ⟨start, ih (kept s label start)⟩

theorem Along.of_invariant {inv : State → Prop} {ok does : State → Label → Prop}
    (kept : ∀ s label, inv s → ok s label → inv (step s label))
    (implies : ∀ s label, inv s → ok s label → does s label) {s : State} {run : List Label}
    (start : inv s) (along : Along step ok s run) : Along step does s run := by
  induction run generalizing s with
  | nil => trivial
  | cons label rest ih =>
      exact ⟨implies s label start along.1, ih (kept s label start along.1) along.2⟩

theorem Along.within {ok : State → Label → Prop} {allowed : Label → Prop} {s : State}
    {run : List Label} (along : Along step ok s run) (within : ∀ label ∈ run, allowed label) :
    Along step (fun s label => ok s label ∧ allowed label) s run := by
  induction run generalizing s with
  | nil => trivial
  | cons label rest ih =>
      exact ⟨⟨along.1, within label List.mem_cons_self⟩,
        ih along.2 fun later member => within later (List.mem_cons_of_mem label member)⟩

/-- When the steps outside a condition break the property, the condition is exact. -/
theorem visits_iff_along (inv : State → Prop) (allowed : Label → Prop) {P : State → Prop}
    {ok : State → Label → Prop} (holds : ∀ s, inv s → P s)
    (kept : ∀ s label, allowed label → inv s → ok s label → inv (step s label))
    (breaks : ∀ s label, inv s → ¬ok s label → ¬P (step s label))
    {s : State} {run : List Label} (within : ∀ label ∈ run, allowed label) (start : inv s) :
    Visits step P s run ↔ Along step ok s run := by
  induction run generalizing s with
  | nil => exact ⟨fun _ => trivial, fun _ => holds s start⟩
  | cons label rest ih =>
      have first := within label List.mem_cons_self
      have later : ∀ other ∈ rest, allowed other :=
        fun other member => within other (List.mem_cons_of_mem label member)
      constructor
      · rintro ⟨-, visits⟩
        have taken : ok s label := by
          by_contra bad
          exact breaks s label start bad visits.head
        exact ⟨taken, (ih later (kept s label first start taken)).mp visits⟩
      · rintro ⟨taken, along⟩
        exact ⟨holds s start, (ih later (kept s label first start taken)).mpr along⟩

/-- A condition that is exact for one step is exact for a run. -/
theorem visits_and_along_iff {P : State → Prop} {does ok : State → Label → Prop}
    (exact_ : ∀ s label, P s → ((P (step s label) ∧ does s label) ↔ ok s label))
    {s : State} {run : List Label} (start : P s) :
    (Visits step P s run ∧ Along step does s run) ↔ Along step ok s run := by
  induction run generalizing s with
  | nil => exact ⟨fun _ => trivial, fun _ => ⟨start, trivial⟩⟩
  | cons label rest ih =>
      constructor
      · rintro ⟨⟨-, visits⟩, done, along⟩
        exact ⟨(exact_ s label start).mp ⟨visits.head, done⟩, (ih visits.head).mp ⟨visits, along⟩⟩
      · rintro ⟨taken, along⟩
        obtain ⟨kept, done⟩ := (exact_ s label start).mpr taken
        obtain ⟨visits, others⟩ := (ih kept).mpr along
        exact ⟨⟨start, visits⟩, done, others⟩

end Runs

end Kaeyris.Lib
