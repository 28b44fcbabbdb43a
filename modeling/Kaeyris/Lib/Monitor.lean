import Kaeyris.Lib.Process

/-!
# Monitors

A trace is what one program does among others, as far as it has come: a transaction meets any state
and may be rolled back, a call gets any answer. A monitor reads a trace and may reject it. What a
program does is checked against a monitor by rules for its combinators.
-/

namespace Kaeyris.Lib

inductive Happening (E : Effects)
  | committed (label : E.Tx) (before after : E.State)
  | aborted (label : E.Tx)
  | called (query : E.Call)

def Happening.event {E : Effects} : Happening E → Event E
  | .committed label _ _ => .committed label
  | .aborted label => .aborted label
  | .called query => .called query

namespace Process
variable {E : Effects} {α β M : Type}

/-- The program may end or be stopped anywhere. -/
inductive Traces : Process E α → List (Happening E) → Prop
  | stop (p : Process E α) : Traces p []
  | commit {label : E.Tx} {change : E.State → E.State}
      {next : Except E.Error E.State → Process E α} {rest : List (Happening E)} (s : E.State) :
      Traces (next (.ok s)) rest →
      Traces (.transact label change next) (.committed label s (change s) :: rest)
  | abort {label : E.Tx} {change : E.State → E.State}
      {next : Except E.Error E.State → Process E α} {rest : List (Happening E)} (e : E.Error) :
      Traces (next (.error e)) rest → Traces (.transact label change next) (.aborted label :: rest)
  | answer {query : E.Call} {next : Except E.Error (E.Answer query) → Process E α}
      {rest : List (Happening E)} (a : Except E.Error (E.Answer query)) :
      Traces (next a) rest → Traces (.call query next) (.called query :: rest)

/-- The state of a monitor after a trace; `none` when it rejects. -/
def watch (advance : M → Happening E → Option M) (m : M) (trace : List (Happening E)) : Option M :=
  trace.foldlM advance m

theorem watch_cons (advance : M → Happening E → Option M) (m : M) (h : Happening E)
    (after : List (Happening E)) :
    watch advance m (h :: after) = (advance m h).bind fun m' => watch advance m' after := by
  rw [watch, List.foldlM_cons]
  rfl

/-- From a state of the monitor every trace of the program is accepted, and the program leaves it in
a state that its ending allows. -/
def Conforms (advance : M → Happening E → Option M) (returns : M → α → Prop)
    (raises : M → E.Error → Prop) (m : M) : Process E α → Prop
  | .done a => returns m a
  | .raise e => raises m e
  | .transact label change next =>
      (∀ s, ∃ m', advance m (.committed label s (change s)) = some m' ∧
        Conforms advance returns raises m' (next (.ok s))) ∧
      ∃ m', advance m (.aborted label) = some m' ∧
        ∀ e, Conforms advance returns raises m' (next (.error e))
  | .call query next =>
      ∃ m', advance m (.called query) = some m' ∧
        ∀ a, Conforms advance returns raises m' (next a)

section Conforms
variable {advance : M → Happening E → Option M} {returns : M → α → Prop}
variable {raises : M → E.Error → Prop} {m : M}

theorem Conforms.accepts {p : Process E α} (conforms : p.Conforms advance returns raises m)
    {trace : List (Happening E)} (traces : p.Traces trace) :
    ∃ m', watch advance m trace = some m' := by
  induction traces generalizing m with
  | stop p => exact ⟨m, rfl⟩
  | commit s _ ih =>
      obtain ⟨m₁, moved, rest⟩ := conforms.1 s
      obtain ⟨m', watched⟩ := ih rest
      exact ⟨m', by rw [watch_cons, moved]; exact watched⟩
  | abort e _ ih =>
      obtain ⟨m₁, moved, rest⟩ := conforms.2
      obtain ⟨m', watched⟩ := ih (rest e)
      exact ⟨m', by rw [watch_cons, moved]; exact watched⟩
  | answer a _ ih =>
      obtain ⟨m₁, moved, rest⟩ := conforms
      obtain ⟨m', watched⟩ := ih (rest a)
      exact ⟨m', by rw [watch_cons, moved]; exact watched⟩

theorem Conforms.ofExcept {x : Except E.Error α} (ok : ∀ a, x = .ok a → returns m a)
    (error : ∀ e, x = .error e → raises m e) :
    (Process.ofExcept x).Conforms advance returns raises m := by
  cases x with
  | ok a => exact ok a rfl
  | error e => exact error e rfl

/-- A transformation that goes on after every effect and changes only the ends of programs. -/
theorem Conforms.graft (F : Process E α → Process E β) {returns' : M → β → Prop}
    {raises' : M → E.Error → Prop}
    (transact : ∀ label change next,
      F (.transact label change next) = .transact label change fun outcome => F (next outcome))
    (call : ∀ query next, F (.call query next) = .call query fun a => F (next a))
    (ok : ∀ m' a, returns m' a → (F (.done a)).Conforms advance returns' raises' m')
    (error : ∀ m' e, raises m' e → (F (.raise e)).Conforms advance returns' raises' m')
    {p : Process E α} (first : p.Conforms advance returns raises m) :
    (F p).Conforms advance returns' raises' m := by
  induction p generalizing m with
  | done a => exact ok m a first
  | raise e => exact error m e first
  | transact label change next ih =>
      rw [transact]
      refine ⟨fun s => ?_, ?_⟩
      · obtain ⟨m', moved, after⟩ := first.1 s
        exact ⟨m', moved, ih _ after⟩
      · obtain ⟨m', moved, after⟩ := first.2
        exact ⟨m', moved, fun e => ih _ (after e)⟩
  | call query next ih =>
      rw [call]
      obtain ⟨m', moved, after⟩ := first
      exact ⟨m', moved, fun a => ih _ (after a)⟩

theorem Conforms.bind {p : Process E α} {f : α → Process E β} {returns' : M → β → Prop}
    (first : p.Conforms advance returns raises m)
    (rest : ∀ m' a, returns m' a → (f a).Conforms advance returns' raises m') :
    (p.bind f).Conforms advance returns' raises m := by
  apply Conforms.graft (fun p => p.bind f) _ _ rest _ first
  · exact fun _ _ _ => rfl
  · exact fun _ _ => rfl
  · exact fun _ _ raised => raised

theorem Conforms.rescue {p : Process E α} {handler : E.Error → Process E α}
    {raises' : M → E.Error → Prop} (first : p.Conforms advance returns raises m)
    (rest : ∀ m' e, raises m' e → (handler e).Conforms advance returns raises' m') :
    (p.rescue handler).Conforms advance returns raises' m := by
  apply Conforms.graft (fun p => p.rescue handler) _ _ _ rest first
  · exact fun _ _ _ => rfl
  · exact fun _ _ => rfl
  · exact fun _ _ returned => returned

theorem Conforms.weaken {p : Process E α} {returns' : M → α → Prop} {raises' : M → E.Error → Prop}
    (first : p.Conforms advance returns raises m) (ok : ∀ m' a, returns m' a → returns' m' a)
    (error : ∀ m' e, raises m' e → raises' m' e) : p.Conforms advance returns' raises' m := by
  apply Conforms.graft id _ _ ok error first
  · exact fun _ _ _ => rfl
  · exact fun _ _ => rfl

theorem Conforms.ask {query : E.Call} {m' : M} (moved : advance m (.called query) = some m')
    {returns : M → E.Answer query → Prop} (ok : ∀ a, returns m' a) (error : ∀ e, raises m' e) :
    (Process.ask query).Conforms advance returns raises m :=
  ⟨m', moved, fun _ => .ofExcept (fun a _ => ok a) fun e _ => error e⟩

theorem Conforms.tell {query : E.Call} {m' : M} (moved : advance m (.called query) = some m')
    {returns : M → Unit → Prop} (ok : returns m' ()) :
    (Process.tell query).Conforms advance returns raises m :=
  ⟨m', moved, fun _ => ok⟩

theorem Conforms.reading {label : E.Tx} {body : E.State → Except E.Error α}
    (committed : ∀ s, advance m (.committed label s s) = some m)
    (aborted : advance m (.aborted label) = some m) (ok : ∀ a, returns m a)
    (error : ∀ e, raises m e) :
    (Process.reading label body).Conforms advance returns raises m :=
  ⟨fun s => ⟨m, committed s, .ofExcept (fun a _ => ok a) fun e _ => error e⟩, m, aborted, error⟩

theorem Conforms.atomically {label : E.Tx} {body : E.State → Except E.Error (α × E.State)}
    (commits : ∀ s a t, body s = .ok (a, t) →
      ∃ m', advance m (.committed label s t) = some m' ∧ returns m' a)
    (fails : ∀ s e, body s = .error e →
      ∃ m', advance m (.committed label s s) = some m' ∧ raises m' e)
    (aborts : ∃ m', advance m (.aborted label) = some m' ∧ ∀ e, raises m' e) :
    (Process.atomically label body).Conforms advance returns raises m := by
  refine ⟨fun s => ?_, aborts⟩
  dsimp only
  cases outcome : body s with
  | ok pair =>
      obtain ⟨m', moved, after⟩ := commits s pair.1 pair.2 outcome
      exact ⟨m', moved, after⟩
  | error e =>
      obtain ⟨m', moved, after⟩ := fails s e outcome
      exact ⟨m', moved, after⟩

end Conforms

end Process

end Kaeyris.Lib
