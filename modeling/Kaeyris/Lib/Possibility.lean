import Kaeyris.Lib.Transition

/-!
# Where a machine can be led

`Leads` says that some run, each step of which meets a condition, ends with a property. Such runs
are put together from their parts.
-/

namespace Kaeyris.Lib

section Leads
variable {State Label : Type} (step : State → Label → State) (ok : State → Label → Prop)

def Leads (s : State) (P : State → Prop) : Prop := ∃ run, Along step ok s run ∧ P (final step s run)

variable {step ok} {s : State} {P Q : State → Prop}

theorem Leads.here (holds : P s) : Leads step ok s P := ⟨[], trivial, holds⟩

theorem Leads.next {label : Label} (allowed : ok s label) (rest : Leads step ok (step s label) P) :
    Leads step ok s P := by
  obtain ⟨run, along, reached⟩ := rest
  exact ⟨label :: run, ⟨allowed, along⟩, reached⟩

theorem Leads.trans (first : Leads step ok s P) (rest : ∀ t, P t → Leads step ok t Q) :
    Leads step ok s Q := by
  obtain ⟨run, along, reached⟩ := first
  induction run generalizing s with
  | nil => exact rest s reached
  | cons label later ih => exact .next along.1 (ih along.2 reached)

end Leads

end Kaeyris.Lib
