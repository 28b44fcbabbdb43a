import Kaeyris.Lib.Process
import Kaeyris.Lib.Transition

/-!
# Programs that see a part of the state

`Blind` says that a program does the same in all states that a relation does not tell apart. A
machine hosts such a program among others: as long as the others leave the state related to what it
was, the program behaves as if it ran alone (`Host.as_alone`).
-/

namespace Kaeyris.Lib
namespace Process
variable {E : Effects} {α β : Type}

/-- In related states the program does the same, and leaves related states. -/
def Blind (same : E.State → E.State → Prop) : Process E α → Prop
  | .done _ => True
  | .raise _ => True
  | .transact _ commit next =>
      (∀ s t, same s t → same (commit s) (commit t) ∧ next (.ok s) = next (.ok t)) ∧
        (∀ s, same s s → (next (.ok s)).Blind same) ∧ ∀ e, (next (.error e)).Blind same
  | .call _ next => ∀ a, (next a).Blind same

/-- Bodies that return the same and leave related states, or raise the same. -/
inductive Alike (same : E.State → E.State → Prop) :
    Except E.Error (α × E.State) → Except E.Error (α × E.State) → Prop
  | ok (a : α) {s t : E.State} (related : same s t) : Alike same (.ok (a, s)) (.ok (a, t))
  | error (e : E.Error) : Alike same (.error e) (.error e)

section Blind
variable {same : E.State → E.State → Prop}

theorem Blind.bind {p : Process E α} {f : α → Process E β} (first : p.Blind same)
    (rest : ∀ a, (f a).Blind same) : (p.bind f).Blind same := by
  induction p with
  | done a => exact rest a
  | raise e => trivial
  | transact label commit next ih =>
      obtain ⟨together, later, failed⟩ := first
      refine ⟨fun s t related => ⟨(together s t related).1, ?_⟩, fun s valid => ih _ (later s valid),
        fun e => ih _ (failed e)⟩
      exact congrArg (fun q => q.bind f) (together s t related).2
  | call query next ih => exact fun a => ih a (first a)

theorem Blind.rescue {p : Process E α} {h : E.Error → Process E α} (first : p.Blind same)
    (rest : ∀ e, (h e).Blind same) : (p.rescue h).Blind same := by
  induction p with
  | done a => trivial
  | raise e => exact rest e
  | transact label commit next ih =>
      obtain ⟨together, later, failed⟩ := first
      refine ⟨fun s t related => ⟨(together s t related).1, ?_⟩, fun s valid => ih _ (later s valid),
        fun e => ih _ (failed e)⟩
      exact congrArg (fun q => q.rescue h) (together s t related).2
  | call query next ih => exact fun a => ih a (first a)

theorem Blind.ofExcept (x : Except E.Error α) : (Process.ofExcept x : Process E α).Blind same := by
  cases x <;> trivial

theorem Blind.ask (query : E.Call) : (Process.ask query).Blind same := fun a => .ofExcept a

theorem Blind.tell (query : E.Call) : (Process.tell query).Blind same := fun _ => trivial

theorem Blind.of_calls {p : Process E α}
    (calls : p.Guarantees (fun _ => True) fun _ _ _ => False) : p.Blind same := by
  induction p with
  | done a => trivial
  | raise e => trivial
  | transact label commit next ih =>
      exact ⟨fun s _ _ => (calls.1 s trivial).1.elim, fun s _ => (calls.1 s trivial).1.elim,
        fun e => ih _ (calls.2 e)⟩
  | call query next ih => exact fun a => ih a (calls a)

theorem Blind.reading_bind {label : E.Tx} {body : E.State → Except E.Error α}
    {f : α → Process E β} (unseen : ∀ s t, same s t → body s = body t)
    (rest : ∀ s a, same s s → body s = .ok a → (f a).Blind same) :
    ((Process.reading label body).bind f).Blind same := by
  refine ⟨fun s t related => ⟨related, ?_⟩, fun s valid => ?_, fun _ => trivial⟩
  · change (Process.ofExcept (body s)).bind f = (Process.ofExcept (body t)).bind f
    rw [unseen s t related]
  · change ((Process.ofExcept (body s)).bind f).Blind same
    cases read : body s with
    | error e => trivial
    | ok a => exact rest s a valid read

theorem Blind.reading {label : E.Tx} {body : E.State → Except E.Error α}
    (unseen : ∀ s t, same s t → body s = body t) : (Process.reading label body).Blind same := by
  refine ⟨fun s t related => ⟨related, ?_⟩, fun s _ => .ofExcept _, fun _ => trivial⟩
  exact congrArg Process.ofExcept (unseen s t related)

theorem Blind.atomically {label : E.Tx} {body : E.State → Except E.Error (α × E.State)}
    (kept : ∀ s t, same s t → Alike same (body s) (body t)) :
    (Process.atomically label body).Blind same := by
  refine ⟨fun s t related => ?_, fun s _ => .ofExcept _, fun _ => trivial⟩
  have alike := kept s t related
  dsimp only
  generalize body s = x at alike
  generalize body t = y at alike
  cases alike with
  | ok a changed => exact ⟨changed, rfl⟩
  | error e => exact ⟨related, rfl⟩

end Blind

/-! ## Alone -/

def event (r : Reaction E) : Process E α → Option (Event E)
  | .done _ => none
  | .raise _ => none
  | .transact label _ _ =>
      some (if (r.fails label).isNone then .committed label else .aborted label)
  | .call query _ => some (.called query)

end Process

structure Stage (E : Effects) (α : Type) where
  program : Process E α
  state : E.State
  events : List (Event E)

namespace Process
variable {E : Effects} {α β : Type}

/-- Some steps of a program alone, each with a reaction of its own. -/
def alone : List (Reaction E) → Process E α → E.State → Stage E α
  | [], p, s => ⟨p, s, []⟩
  | r :: rest, p, s =>
      let later := alone rest (p.step r s).1 (p.step r s).2
      { later with events := (p.event r).toList ++ later.events }

theorem Blind.step {same : E.State → E.State → Prop} (symm : ∀ s t, same s t → same t s)
    (trans : ∀ s t u, same s t → same t u → same s u) {p : Process E α} (blind : p.Blind same)
    (r : Reaction E) {s t : E.State} (related : same s t) :
    (p.step r s).1 = (p.step r t).1 ∧ same (p.step r s).2 (p.step r t).2 ∧
      (p.step r s).1.Blind same := by
  cases p with
  | done a => exact ⟨rfl, related, trivial⟩
  | raise e => exact ⟨rfl, related, trivial⟩
  | transact label commit next =>
      obtain ⟨together, later, failed⟩ := blind
      simp only [Process.step]
      cases r.fails label with
      | none =>
          obtain ⟨committed, continues⟩ := together s t related
          exact ⟨continues, committed, later s (trans s t s related (symm s t related))⟩
      | some e => exact ⟨rfl, related, failed e⟩
  | call query next => exact ⟨rfl, related, blind _⟩

end Process

/-! ## Among others -/

/-- A machine in which a program runs. Some labels are its steps, with the reactions they meet. -/
structure Host (E : Effects) (α Machine Label : Type) where
  step : Machine → Label → Machine
  state : Machine → E.State
  program : Machine → Option (Process E α)
  reaction : Label → Option (Reaction E)
  advances : ∀ m label r p, reaction label = some r → program m = some p →
    program (step m label) = some (p.step r (state m)).1 ∧
      state (step m label) = (p.step r (state m)).2

namespace Host
variable {E : Effects} {α Machine Label : Type} (host : Host E α Machine Label)

def events : Machine → List Label → List (Event E)
  | _, [] => []
  | m, label :: rest =>
      ((host.reaction label).bind fun r => (host.program m).bind (Process.event r)).toList ++
        events (host.step m label) rest

/-- A step of the program, or one that it cannot tell. -/
def Apart (same : E.State → E.State → Prop) (m : Machine) (label : Label) : Prop :=
  host.reaction label = none → same (host.state m) (host.state m) →
    host.program (host.step m label) = host.program m ∧
      same (host.state m) (host.state (host.step m label))

/-- Among steps that it cannot tell, a program does what it does alone in any state that is
related to the first. -/
theorem as_alone {same : E.State → E.State → Prop} (symm : ∀ s t, same s t → same t s)
    (trans : ∀ s t u, same s t → same t u → same s u) {p : Process E α} {m : Machine}
    {s : E.State} {run : List Label} (blind : p.Blind same) (hosted : host.program m = some p)
    (related : same (host.state m) s) (apart : Along host.step (host.Apart same) m run) :
    let stage := Process.alone (run.filterMap host.reaction) p s
    host.program (final host.step m run) = some stage.program ∧
      same (host.state (final host.step m run)) stage.state ∧
      host.events m run = stage.events := by
  induction run generalizing p m s with
  | nil => exact ⟨hosted, related, rfl⟩
  | cons label rest ih =>
      cases own : host.reaction label with
      | none =>
          obtain ⟨kept, unseen⟩ := apart.1 own (trans _ _ _ related (symm _ _ related))
          have related' := trans _ _ _ (symm _ _ unseen) related
          obtain ⟨program, state, heard⟩ := ih blind (kept.trans hosted) related' apart.2
          rw [List.filterMap_cons_none own]
          refine ⟨program, state, ?_⟩
          rw [events, own, heard]
          rfl
      | some r =>
          obtain ⟨moved, changed⟩ := host.advances m label r p own hosted
          obtain ⟨continues, together, later⟩ := blind.step symm trans r related
          rw [continues] at moved later
          rw [← changed] at together
          obtain ⟨program, state, heard⟩ := ih later moved together apart.2
          rw [List.filterMap_cons_some own]
          refine ⟨program, state, ?_⟩
          rw [events, own, hosted, heard]
          rfl

end Host

end Kaeyris.Lib
