import Mathlib.Data.List.Basic
import Kaeyris.Lib.Transition

/-!
# Noninterference

A machine answers some of its events, and an observer sees the events of its own and the answers to
them. `Unwinding` is the condition on one step under which the events of others change nothing of
what the observer sees, and `Unwinding.observed_eq` the induction that it supports.
-/

namespace Kaeyris.Lib

section Noninterference
variable {State Event Answer : Type} (step : State → Event → State)
  (answer : State → Event → Option Answer) (own : Event → Bool)

/-- The answers to the observer's own events, in order. -/
def observed : State → List Event → List Answer
  | _, [] => []
  | s, event :: rest =>
      (if own event then (answer s event).toList else []) ++ observed (step s event) rest

/-- `R` relates the states of two runs that the observer cannot tell apart. The events of others
are taken on one side only; `ok` is what the run with them promises. -/
structure Unwinding (ok : State → Event → Prop) (R : State → State → Prop) : Prop where
  output : ∀ s t event, R s t → ok s event → own event = true → answer s event = answer t event
  together : ∀ s t event, R s t → ok s event → own event = true → R (step s event) (step t event)
  aside : ∀ s t event, R s t → ok s event → own event = false → R (step s event) t

variable {step answer own}

theorem observed_append (s : State) (before after : List Event) :
    observed step answer own s (before ++ after) =
      observed step answer own s before ++ observed step answer own (final step s before) after := by
  induction before generalizing s with
  | nil => rfl
  | cons event rest ih =>
      rw [List.cons_append, observed, observed, ih, List.append_assoc]
      rfl

theorem observed_foreign {s : State} {run : List Event}
    (foreign : ∀ event ∈ run, own event = false) : observed step answer own s run = [] := by
  induction run generalizing s with
  | nil => rfl
  | cons event rest ih =>
      rw [observed, foreign event List.mem_cons_self,
        ih fun other member => foreign other (List.mem_cons_of_mem event member)]
      rfl

theorem Unwinding.observed_purge {ok : State → Event → Prop} {R : State → State → Prop}
    (unwinding : Unwinding step answer own ok R) {s t : State} {run : List Event} (related : R s t)
    (along : Along step ok s run) :
    observed step answer own s run = observed step answer own t (run.filter own) := by
  induction run generalizing s t with
  | nil => rfl
  | cons event rest ih =>
      obtain ⟨first, later⟩ := along
      cases mine : own event with
      | true =>
          have rest_eq := ih (unwinding.together s t event related first mine) later
          rw [List.filter_cons_of_pos mine, observed, observed, rest_eq,
            unwinding.output s t event related first mine]
      | false =>
          have rest_eq := ih (unwinding.aside s t event related first mine) later
          rw [List.filter_cons_of_neg (by simp [mine]), observed, rest_eq, mine]
          rfl

theorem Unwinding.observed_eq {ok : State → Event → Prop} {R : State → State → Prop}
    (unwinding : Unwinding step answer own ok R) {s : State} {run run' : List Event}
    (related : R s s) (along : Along step ok s run) (along' : Along step ok s run')
    (agree : run.filter own = run'.filter own) :
    observed step answer own s run = observed step answer own s run' := by
  rw [unwinding.observed_purge related along, unwinding.observed_purge related along', agree]

end Noninterference

end Kaeyris.Lib
