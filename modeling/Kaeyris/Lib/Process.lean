import Mathlib.Control.Monad.Basic

/-!
# Programs over a shared state

A process alternates transactions on a shared state with calls to the outside. A transaction is one
indivisible step: it commits a change and continues from the state it found, or it is rolled back
with an error. Between two steps other parties may change the state.

The same program is run in two ways: alone (`run`), and one step at a time among others (`step`).
`Guarantees` bounds what the transactions of a program may do; it is kept by every step.
-/

namespace Kaeyris.Lib

structure Effects where
  State : Type
  Error : Type
  Tx : Type
  Call : Type
  Answer : Call → Type

inductive Process (E : Effects) (α : Type) : Type
  | done (result : α)
  | raise (error : E.Error)
  | transact (label : E.Tx) (commit : E.State → E.State)
      (next : Except E.Error E.State → Process E α)
  | call (query : E.Call) (next : Except E.Error (E.Answer query) → Process E α)

/-- What the surroundings do: which transactions fail, and what each call answers. -/
structure Reaction (E : Effects) where
  fails : E.Tx → Option E.Error
  answer : (query : E.Call) → Except E.Error (E.Answer query)

inductive Event (E : Effects)
  | committed (label : E.Tx)
  | aborted (label : E.Tx)
  | called (query : E.Call)

structure Outcome (E : Effects) (α : Type) where
  result : Except E.Error α
  state : E.State
  events : List (Event E)

namespace Process
variable {E : Effects} {α β γ : Type}

/-! ## Combinators -/

def bind (p : Process E α) (f : α → Process E β) : Process E β :=
  match p with
  | .done a => f a
  | .raise e => .raise e
  | .transact label commit next => .transact label commit fun r => (next r).bind f
  | .call query next => .call query fun r => (next r).bind f

def rescue (p : Process E α) (handler : E.Error → Process E α) : Process E α :=
  match p with
  | .done a => .done a
  | .raise e => handler e
  | .transact label commit next => .transact label commit fun r => (next r).rescue handler
  | .call query next => .call query fun r => (next r).rescue handler

instance : Monad (Process E) where
  pure := .done
  bind := bind

instance : MonadExceptOf E.Error (Process E) where
  throw := .raise
  tryCatch := rescue

def ofExcept : Except E.Error α → Process E α
  | .ok a => .done a
  | .error e => .raise e

/-- A transaction whose body may itself raise, in which case nothing is committed. -/
def atomically (label : E.Tx) (body : E.State → Except E.Error (α × E.State)) : Process E α :=
  .transact label
    (fun s => match body s with
      | .ok (_, s') => s'
      | .error _ => s)
    fun
      | .ok s => ofExcept ((body s).map Prod.fst)
      | .error e => .raise e

def reading (label : E.Tx) (body : E.State → Except E.Error α) : Process E α :=
  .transact label id fun
    | .ok s => ofExcept (body s)
    | .error e => .raise e

def ask (query : E.Call) : Process E (E.Answer query) := .call query ofExcept

def tell (query : E.Call) : Process E Unit := .call query fun _ => .done ()

@[simp] theorem pure_eq (a : α) : (pure a : Process E α) = .done a := rfl

@[simp] theorem throw_eq (e : E.Error) : (throw e : Process E α) = .raise e := rfl

@[simp] theorem tryCatch_eq (p : Process E α) (h : E.Error → Process E α) :
    tryCatch p h = p.rescue h := rfl

theorem bind_eq (p : Process E α) (f : α → Process E β) : p >>= f = p.bind f := rfl

@[simp] theorem done_bind (a : α) (f : α → Process E β) : (Process.done a).bind f = f a := rfl

@[simp] theorem raise_bind (e : E.Error) (f : α → Process E β) :
    (Process.raise e).bind f = .raise e := rfl

theorem bind_done (p : Process E α) : p.bind .done = p := by
  induction p with
  | done a => rfl
  | raise e => rfl
  | transact label commit next ih => simp only [bind, ih]
  | call query next ih => simp only [bind, ih]

theorem bind_assoc (p : Process E α) (f : α → Process E β) (g : β → Process E γ) :
    (p.bind f).bind g = p.bind fun a => (f a).bind g := by
  induction p with
  | done a => rfl
  | raise e => rfl
  | transact label commit next ih => simp only [bind, ih]
  | call query next ih => simp only [bind, ih]

instance : LawfulMonad (Process E) := LawfulMonad.mk' (Process E)
  (fun p => bind_done p) (fun _ _ => rfl) bind_assoc

/-! ## Running a program alone -/

def run (r : Reaction E) : Process E α → E.State → Outcome E α
  | .done a, s => ⟨.ok a, s, []⟩
  | .raise e, s => ⟨.error e, s, []⟩
  | .transact label commit next, s =>
      match r.fails label with
      | none =>
          let rest := (next (.ok s)).run r (commit s)
          { rest with events := .committed label :: rest.events }
      | some e =>
          let rest := (next (.error e)).run r s
          { rest with events := .aborted label :: rest.events }
  | .call query next, s =>
      let rest := (next (r.answer query)).run r s
      { rest with events := .called query :: rest.events }

end Process

namespace Outcome
variable {E : Effects} {α β : Type}

def andThen (o : Outcome E α) (f : α → E.State → Outcome E β) : Outcome E β :=
  match o.result with
  | .ok a => { f a o.state with events := o.events ++ (f a o.state).events }
  | .error e => ⟨.error e, o.state, o.events⟩

def orElse (o : Outcome E α) (f : E.Error → E.State → Outcome E α) : Outcome E α :=
  match o.result with
  | .ok a => ⟨.ok a, o.state, o.events⟩
  | .error e => { f e o.state with events := o.events ++ (f e o.state).events }

@[simp] theorem andThen_ok (a : α) (s : E.State) (events : List (Event E))
    (f : α → E.State → Outcome E β) :
    andThen ⟨.ok a, s, events⟩ f = { f a s with events := events ++ (f a s).events } := rfl

@[simp] theorem andThen_error (e : E.Error) (s : E.State) (events : List (Event E))
    (f : α → E.State → Outcome E β) :
    andThen ⟨.error e, s, events⟩ f = ⟨.error e, s, events⟩ := rfl

@[simp] theorem orElse_ok (a : α) (s : E.State) (events : List (Event E))
    (f : E.Error → E.State → Outcome E α) :
    orElse ⟨.ok a, s, events⟩ f = ⟨.ok a, s, events⟩ := rfl

@[simp] theorem orElse_error (e : E.Error) (s : E.State) (events : List (Event E))
    (f : E.Error → E.State → Outcome E α) :
    orElse ⟨.error e, s, events⟩ f = { f e s with events := events ++ (f e s).events } := rfl

theorem andThen_cons (event : Event E) (o : Outcome E α) (f : α → E.State → Outcome E β) :
    andThen { o with events := event :: o.events } f =
      { o.andThen f with events := event :: (o.andThen f).events } := by
  obtain ⟨result, state, events⟩ := o
  cases result <;> rfl

theorem orElse_cons (event : Event E) (o : Outcome E α) (f : E.Error → E.State → Outcome E α) :
    orElse { o with events := event :: o.events } f =
      { o.orElse f with events := event :: (o.orElse f).events } := by
  obtain ⟨result, state, events⟩ := o
  cases result <;> rfl

end Outcome

namespace Process
variable {E : Effects} {α β : Type}

theorem run_bind (r : Reaction E) (p : Process E α) (f : α → Process E β) (s : E.State) :
    (p.bind f).run r s = (p.run r s).andThen fun a t => (f a).run r t := by
  induction p generalizing s with
  | done a => simp [run]
  | raise e => simp [run]
  | transact label commit next ih =>
      simp only [bind, run]
      split <;> rw [ih, Outcome.andThen_cons]
  | call query next ih =>
      simp only [bind, run]
      rw [ih, Outcome.andThen_cons]

theorem run_rescue (r : Reaction E) (p : Process E α) (h : E.Error → Process E α) (s : E.State) :
    (p.rescue h).run r s = (p.run r s).orElse fun e t => (h e).run r t := by
  induction p generalizing s with
  | done a => simp [rescue, run]
  | raise e => simp [rescue, run]
  | transact label commit next ih =>
      simp only [rescue, run]
      split <;> rw [ih, Outcome.orElse_cons]
  | call query next ih =>
      simp only [rescue, run]
      rw [ih, Outcome.orElse_cons]

@[simp] theorem run_done (r : Reaction E) (a : α) (s : E.State) :
    (Process.done a).run r s = ⟨.ok a, s, []⟩ := rfl

@[simp] theorem run_raise (r : Reaction E) (e : E.Error) (s : E.State) :
    (Process.raise e : Process E α).run r s = ⟨.error e, s, []⟩ := rfl

theorem run_ofExcept (r : Reaction E) (x : Except E.Error α) (s : E.State) :
    (ofExcept x : Process E α).run r s = ⟨x, s, []⟩ := by
  cases x <;> rfl

theorem run_reading (r : Reaction E) (label : E.Tx) (body : E.State → Except E.Error α)
    (s : E.State) :
    (reading label body : Process E α).run r s =
      match r.fails label with
      | none => ⟨body s, s, [.committed label]⟩
      | some e => ⟨.error e, s, [.aborted label]⟩ := by
  simp only [reading, run]
  cases r.fails label <;> simp [run_ofExcept]

theorem run_ask (r : Reaction E) (query : E.Call) (s : E.State) :
    (ask query).run r s = ⟨r.answer query, s, [.called query]⟩ := by
  simp [ask, run, run_ofExcept]

theorem run_tell (r : Reaction E) (query : E.Call) (s : E.State) :
    (tell query).run r s = ⟨.ok (), s, [.called query]⟩ := rfl

theorem run_atomically (r : Reaction E) (label : E.Tx)
    (body : E.State → Except E.Error (α × E.State)) (s : E.State) :
    (atomically label body : Process E α).run r s =
      match r.fails label, body s with
      | none, .ok (a, t) => ⟨.ok a, t, [.committed label]⟩
      | none, .error e => ⟨.error e, s, [.committed label]⟩
      | some e, _ => ⟨.error e, s, [.aborted label]⟩ := by
  simp only [atomically, run]
  cases r.fails label with
  | some e => rfl
  | none =>
      cases body s with
      | error e => rfl
      | ok pair => rfl

theorem run_bind_ok {r : Reaction E} {p : Process E α} {s : E.State} {a : α}
    (returned : (p.run r s).result = .ok a) (f : α → Process E β) :
    ((p.bind f).run r s).result = ((f a).run r (p.run r s).state).result ∧
      ((p.bind f).run r s).state = ((f a).run r (p.run r s).state).state := by
  rw [run_bind, Outcome.andThen, returned]
  exact ⟨rfl, rfl⟩

theorem run_bind_error {r : Reaction E} {p : Process E α} {s : E.State} {e : E.Error}
    (raised : (p.run r s).result = .error e) (f : α → Process E β) :
    ((p.bind f).run r s).result = .error e ∧ ((p.bind f).run r s).state = (p.run r s).state := by
  rw [run_bind, Outcome.andThen, raised]
  exact ⟨rfl, rfl⟩

theorem run_bind_returned {r : Reaction E} {p : Process E α} {f : α → Process E β} {s : E.State}
    {b : β} (returned : ((p.bind f).run r s).result = .ok b) :
    ∃ a, (p.run r s).result = .ok a ∧ ((f a).run r (p.run r s).state).result = .ok b ∧
      ((p.bind f).run r s).state = ((f a).run r (p.run r s).state).state := by
  cases first : (p.run r s).result with
  | error e =>
      rw [(run_bind_error first f).1] at returned
      cases returned
  | ok a =>
      obtain ⟨result, state⟩ := run_bind_ok first f
      exact ⟨a, rfl, result ▸ returned, state⟩

theorem events_bind_ok {r : Reaction E} {p : Process E α} {s : E.State} {a : α}
    (returned : (p.run r s).result = .ok a) (f : α → Process E β) :
    ((p.bind f).run r s).events =
      (p.run r s).events ++ ((f a).run r (p.run r s).state).events := by
  rw [run_bind, Outcome.andThen, returned]

theorem events_bind_error {r : Reaction E} {p : Process E α} {s : E.State} {e : E.Error}
    (raised : (p.run r s).result = .error e) (f : α → Process E β) :
    ((p.bind f).run r s).events = (p.run r s).events := by
  rw [run_bind, Outcome.andThen, raised]

def Silent (p : Process E α) : Prop := ∀ r s, (p.run r s).state = s

section Silent

theorem Silent.done (a : α) : (Process.done a : Process E α).Silent := fun _ _ => rfl

theorem Silent.raise (e : E.Error) : (Process.raise e : Process E α).Silent := fun _ _ => rfl

theorem Silent.ofExcept (x : Except E.Error α) : (Process.ofExcept x : Process E α).Silent :=
  fun r s => by rw [run_ofExcept]

theorem Silent.ask (query : E.Call) : (Process.ask query : Process E _).Silent :=
  fun r s => by rw [run_ask]

theorem Silent.tell (query : E.Call) : (Process.tell query : Process E Unit).Silent :=
  fun _ _ => rfl

theorem Silent.reading (label : E.Tx) (body : E.State → Except E.Error α) :
    (Process.reading label body : Process E α).Silent := by
  intro r s
  rw [run_reading]
  cases r.fails label <;> rfl

theorem Silent.bind {p : Process E α} {f : α → Process E β} (first : p.Silent)
    (rest : ∀ a, (f a).Silent) : (p.bind f).Silent := by
  intro r s
  cases outcome : (p.run r s).result with
  | ok a => rw [(run_bind_ok outcome f).2, first r s, rest a r s]
  | error e => rw [(run_bind_error outcome f).2, first r s]

theorem Silent.rescue {p : Process E α} {h : E.Error → Process E α} (first : p.Silent)
    (rest : ∀ e, (h e).Silent) : (p.rescue h).Silent := by
  intro r s
  rw [run_rescue, Outcome.orElse]
  cases (p.run r s).result with
  | ok a => exact first r s
  | error e =>
      have unchanged := rest e r (p.run r s).state
      exact unchanged.trans (first r s)

end Silent

def AllOrNothing (p : Process E α) : Prop :=
  ∀ r s e, (p.run r s).result = .error e → (p.run r s).state = s

section AllOrNothing

theorem AllOrNothing.atomically (label : E.Tx) (body : E.State → Except E.Error (α × E.State)) :
    (Process.atomically label body : Process E α).AllOrNothing := by
  intro r s e raised
  rw [run_atomically] at raised ⊢
  split at raised
  · cases raised
  · rfl
  · rfl

theorem AllOrNothing.bind {p : Process E α} {f : α → Process E β} (first : p.Silent)
    (rest : ∀ a, (f a).AllOrNothing) : (p.bind f).AllOrNothing := by
  intro r s e raised
  cases outcome : (p.run r s).result with
  | error e' => rw [(run_bind_error outcome f).2, first r s]
  | ok a =>
      rw [(run_bind_ok outcome f).1, first r s] at raised
      rw [(run_bind_ok outcome f).2, first r s]
      exact rest a r s e raised

end AllOrNothing

def Emits (P : Event E → Prop) (p : Process E α) : Prop := ∀ r s, ∀ e ∈ (p.run r s).events, P e

section Emits
variable {P : Event E → Prop}

theorem Emits.done (a : α) : (Process.done a : Process E α).Emits P := by
  intro r s e member
  cases member

theorem Emits.raise (e : E.Error) : (Process.raise e : Process E α).Emits P := by
  intro r s event member
  cases member

theorem Emits.ofExcept (x : Except E.Error α) : (Process.ofExcept x : Process E α).Emits P := by
  cases x with
  | ok a => exact Emits.done a
  | error e => exact Emits.raise e

theorem Emits.ask {query : E.Call} (called : P (.called query)) : (Process.ask query).Emits P := by
  intro r s e member
  rw [run_ask] at member
  rw [List.mem_singleton.mp member]
  exact called

theorem Emits.tell {query : E.Call} (called : P (.called query)) :
    (Process.tell query).Emits P := by
  intro r s e member
  rw [run_tell] at member
  rw [List.mem_singleton.mp member]
  exact called

theorem Emits.reading {label : E.Tx} (committed : P (.committed label))
    (aborted : P (.aborted label)) (body : E.State → Except E.Error α) :
    (Process.reading label body).Emits P := by
  intro r s e member
  rw [run_reading] at member
  cases failed : r.fails label with
  | none =>
      rw [failed] at member
      rw [List.mem_singleton.mp member]
      exact committed
  | some _ =>
      rw [failed] at member
      rw [List.mem_singleton.mp member]
      exact aborted

theorem Emits.atomically {label : E.Tx} (committed : P (.committed label))
    (aborted : P (.aborted label)) (body : E.State → Except E.Error (α × E.State)) :
    (Process.atomically label body).Emits P := by
  intro r s e member
  rw [run_atomically] at member
  split at member
  · rw [List.mem_singleton.mp member]
    exact committed
  · rw [List.mem_singleton.mp member]
    exact committed
  · rw [List.mem_singleton.mp member]
    exact aborted

theorem Emits.bind {p : Process E α} {f : α → Process E β} (first : p.Emits P)
    (rest : ∀ a, (f a).Emits P) : (p.bind f).Emits P := by
  intro r s e member
  rw [run_bind, Outcome.andThen] at member
  cases outcome : (p.run r s).result with
  | error _ =>
      rw [outcome] at member
      exact first r s e member
  | ok a =>
      rw [outcome] at member
      rcases List.mem_append.mp member with early | late
      · exact first r s e early
      · exact rest a r _ e late

theorem Emits.rescue {p : Process E α} {h : E.Error → Process E α} (first : p.Emits P)
    (rest : ∀ e, (h e).Emits P) : (p.rescue h).Emits P := by
  intro r s e member
  rw [run_rescue, Outcome.orElse] at member
  cases outcome : (p.run r s).result with
  | ok _ =>
      rw [outcome] at member
      exact first r s e member
  | error failure =>
      rw [outcome] at member
      rcases List.mem_append.mp member with early | late
      · exact first r s e early
      · exact rest failure r _ e late

end Emits

def Succeeds (r : Reaction E) (p : Process E α) : Prop := ∀ s, ∃ a, (p.run r s).result = .ok a

section Succeeds
variable {r : Reaction E}

theorem Succeeds.done (a : α) : (Process.done a : Process E α).Succeeds r := fun _ => ⟨a, rfl⟩

theorem Succeeds.ask {query : E.Call} {a : E.Answer query} (answered : r.answer query = .ok a) :
    (Process.ask query).Succeeds r :=
  fun s => ⟨a, by rw [run_ask, answered]⟩

theorem Succeeds.atomically {label : E.Tx} {f : E.State → α × E.State}
    (commits : r.fails label = none) :
    (Process.atomically label fun s => .ok (f s)).Succeeds r :=
  fun s => ⟨(f s).1, by rw [run_atomically, commits]⟩

theorem Succeeds.bind {p : Process E α} {f : α → Process E β} (first : p.Succeeds r)
    (rest : ∀ a, (f a).Succeeds r) : (p.bind f).Succeeds r := by
  intro s
  obtain ⟨a, returned⟩ := first s
  rw [(run_bind_ok returned f).1]
  exact rest a _

theorem Succeeds.rescue {p : Process E α} (first : p.Succeeds r)
    (handler : E.Error → Process E α) : (p.rescue handler).Succeeds r := by
  intro s
  obtain ⟨a, returned⟩ := first s
  refine ⟨a, ?_⟩
  rw [run_rescue, Outcome.orElse, returned]

end Succeeds

/-! ## One step among others -/

/-- One step of the program on the state it finds. A finished program does not move. -/
def step (r : Reaction E) : Process E α → E.State → Process E α × E.State
  | .done a, s => (.done a, s)
  | .raise e, s => (.raise e, s)
  | .transact label commit next, s =>
      match r.fails label with
      | none => (next (.ok s), commit s)
      | some e => (next (.error e), s)
  | .call query next, s => (next (r.answer query), s)

def commits (r : Reaction E) : Process E α → Option E.Tx
  | .transact label _ _ => if (r.fails label).isNone then some label else none
  | _ => none

def finished : Process E α → Bool
  | .done _ => true
  | .raise _ => true
  | _ => false

theorem step_of_finished {p : Process E α} (ended : p.finished = true) (r : Reaction E)
    (s : E.State) : p.step r s = (p, s) ∧ p.commits r = none := by
  cases p with
  | done a => exact ⟨rfl, rfl⟩
  | raise e => exact ⟨rfl, rfl⟩
  | transact label commit next => cases ended
  | call query next => cases ended

def Returns (post : α → Prop) : Process E α → Prop
  | .done a => post a
  | .raise _ => True
  | .transact _ _ next => ∀ r, (next r).Returns post
  | .call _ next => ∀ a, (next a).Returns post

section Returns
variable {post : α → Prop} {post' : β → Prop}

theorem Returns.weaken {other : α → Prop} {p : Process E α} (returns : p.Returns post)
    (implies : ∀ a, post a → other a) : p.Returns other := by
  induction p with
  | done a => exact implies a returns
  | raise e => trivial
  | transact label commit next ih => exact fun r => ih r (returns r)
  | call query next ih => exact fun a => ih a (returns a)

theorem Returns.bind {p : Process E α} {f : α → Process E β} (first : p.Returns post)
    (rest : ∀ a, post a → (f a).Returns post') : (p.bind f).Returns post' := by
  induction p with
  | done a => exact rest a first
  | raise e => trivial
  | transact label commit next ih => exact fun r => ih r (first r)
  | call query next ih => exact fun a => ih a (first a)

theorem Returns.trivial (p : Process E α) : p.Returns fun _ => True := by
  induction p with
  | done a => exact True.intro
  | raise e => exact True.intro
  | transact label commit next ih => exact fun r => ih r
  | call query next ih => exact fun a => ih a

end Returns

/-- Every transaction, run in a state allowed by `rely`, makes a change its label allows. -/
def Guarantees (rely : E.State → Prop) (guarantee : E.Tx → E.State → E.State → Prop) :
    Process E α → Prop
  | .done _ => True
  | .raise _ => True
  | .transact label commit next =>
      (∀ s, rely s → guarantee label s (commit s) ∧ (next (.ok s)).Guarantees rely guarantee) ∧
        ∀ e, (next (.error e)).Guarantees rely guarantee
  | .call _ next => ∀ a, (next a).Guarantees rely guarantee

section Guarantees
variable {rely : E.State → Prop} {guarantee : E.Tx → E.State → E.State → Prop}

theorem Guarantees.bind {p : Process E α} {f : α → Process E β}
    (first : p.Guarantees rely guarantee) (rest : ∀ a, (f a).Guarantees rely guarantee) :
    (p.bind f).Guarantees rely guarantee := by
  induction p with
  | done a => exact rest a
  | raise e => trivial
  | transact label commit next ih =>
      exact ⟨fun s allowed => ⟨(first.1 s allowed).1, ih _ (first.1 s allowed).2⟩,
        fun e => ih _ (first.2 e)⟩
  | call query next ih => exact fun a => ih a (first a)

theorem Guarantees.rescue {p : Process E α} {h : E.Error → Process E α}
    (first : p.Guarantees rely guarantee) (rest : ∀ e, (h e).Guarantees rely guarantee) :
    (p.rescue h).Guarantees rely guarantee := by
  induction p with
  | done a => trivial
  | raise e => exact rest e
  | transact label commit next ih =>
      exact ⟨fun s allowed => ⟨(first.1 s allowed).1, ih _ (first.1 s allowed).2⟩,
        fun e => ih _ (first.2 e)⟩
  | call query next ih => exact fun a => ih a (first a)

theorem Guarantees.bind_of_returns {p : Process E α} {f : α → Process E β} {post : α → Prop}
    (first : p.Guarantees rely guarantee) (returns : p.Returns post)
    (rest : ∀ a, post a → (f a).Guarantees rely guarantee) :
    (p.bind f).Guarantees rely guarantee := by
  induction p with
  | done a => exact rest a returns
  | raise e => trivial
  | transact label commit next ih =>
      exact ⟨fun s allowed => ⟨(first.1 s allowed).1, ih _ (first.1 s allowed).2 (returns _)⟩,
        fun e => ih _ (first.2 e) (returns _)⟩
  | call query next ih => exact fun a => ih a (first a) (returns a)

theorem Guarantees.ofExcept (x : Except E.Error α) :
    (Process.ofExcept x : Process E α).Guarantees rely guarantee := by
  cases x <;> trivial

theorem Guarantees.ask (query : E.Call) : (Process.ask query).Guarantees rely guarantee :=
  fun a => .ofExcept a

theorem Guarantees.tell (query : E.Call) : (Process.tell query).Guarantees rely guarantee :=
  fun _ => trivial

theorem Guarantees.reading {label : E.Tx} (same : ∀ s, rely s → guarantee label s s)
    (body : E.State → Except E.Error α) : (Process.reading label body).Guarantees rely guarantee :=
  ⟨fun s allowed => ⟨same s allowed, .ofExcept _⟩, fun _ => trivial⟩

theorem Guarantees.reading_bind {label : E.Tx} (same : ∀ s, rely s → guarantee label s s)
    {body : E.State → Except E.Error α} {f : α → Process E β}
    (rest : ∀ s a, rely s → body s = .ok a → (f a).Guarantees rely guarantee) :
    ((Process.reading label body).bind f).Guarantees rely guarantee := by
  refine ⟨fun s allowed => ⟨same s allowed, ?_⟩, fun _ => trivial⟩
  change ((Process.ofExcept (body s)).bind f).Guarantees rely guarantee
  cases read : body s with
  | error e => trivial
  | ok a => exact rest s a allowed read

theorem Guarantees.atomically {label : E.Tx} {body : E.State → Except E.Error (α × E.State)}
    (same : ∀ s e, rely s → body s = .error e → guarantee label s s)
    (change : ∀ s a t, rely s → body s = .ok (a, t) → guarantee label s t) :
    (Process.atomically label body).Guarantees rely guarantee := by
  refine ⟨fun s allowed => ⟨?_, .ofExcept _⟩, fun _ => trivial⟩
  cases outcome : body s with
  | error e => simpa [outcome] using same s e allowed outcome
  | ok pair => simpa [outcome] using change s pair.1 pair.2 allowed outcome

theorem Guarantees.atomically_bind {label : E.Tx} {body : E.State → Except E.Error (α × E.State)}
    {f : α → Process E β} (same : ∀ s e, rely s → body s = .error e → guarantee label s s)
    (change : ∀ s a t, rely s → body s = .ok (a, t) →
      guarantee label s t ∧ (f a).Guarantees rely guarantee) :
    ((Process.atomically label body).bind f).Guarantees rely guarantee := by
  refine ⟨fun s allowed => ?_, fun _ => trivial⟩
  change guarantee label s _ ∧
    ((Process.ofExcept ((body s).map Prod.fst)).bind f).Guarantees rely guarantee
  cases outcome : body s with
  | error e =>
      have kept := same s e allowed outcome
      exact ⟨by simpa [outcome] using kept, trivial⟩
  | ok pair =>
      obtain ⟨changed, rest⟩ := change s pair.1 pair.2 allowed outcome
      exact ⟨by simpa [outcome] using changed, rest⟩

theorem Guarantees.weaken {rely' : E.State → Prop}
    {guarantee' : E.Tx → E.State → E.State → Prop} {p : Process E α}
    (first : p.Guarantees rely guarantee) (relies : ∀ s, rely' s → rely s)
    (implies : ∀ label s t, guarantee label s t → guarantee' label s t) :
    p.Guarantees rely' guarantee' := by
  induction p with
  | done a => trivial
  | raise e => trivial
  | transact label commit next ih =>
      refine ⟨fun s allowed => ?_, fun e => ih _ (first.2 e)⟩
      obtain ⟨change, rest⟩ := first.1 s (relies s allowed)
      exact ⟨implies _ _ _ change, ih _ rest⟩
  | call query next ih => exact fun a => ih a (first a)

theorem Guarantees.step {p : Process E α} (first : p.Guarantees rely guarantee) (r : Reaction E)
    (s : E.State) (allowed : rely s) :
    (p.step r s).1.Guarantees rely guarantee ∧
      ((∃ label, p.commits r = some label ∧ guarantee label s (p.step r s).2) ∨
        p.commits r = none ∧ (p.step r s).2 = s) := by
  cases p with
  | done a => exact ⟨trivial, .inr ⟨rfl, rfl⟩⟩
  | raise e => exact ⟨trivial, .inr ⟨rfl, rfl⟩⟩
  | transact label commit next =>
      simp only [Process.step, commits]
      cases r.fails label with
      | none =>
          obtain ⟨change, rest⟩ := first.1 s allowed
          exact ⟨rest, .inl ⟨label, rfl, change⟩⟩
      | some e => exact ⟨first.2 e, .inr ⟨rfl, rfl⟩⟩
  | call query next => exact ⟨first _, .inr ⟨rfl, rfl⟩⟩

end Guarantees

/-- Before the transaction labelled `mark` commits, only quiet ones do, and they change nothing; what
remains of the program then satisfies `after`, relative to the state it read. -/
def QuietUntil (quiet : E.Tx → Prop) (mark : E.Tx) (after : E.State → Process E α → Prop) :
    Process E α → Prop
  | .done _ => True
  | .raise _ => True
  | .transact label commit next =>
      (quiet label ∧ ∀ s, commit s = s) ∧
      (∀ s, (label ≠ mark → (next (.ok s)).QuietUntil quiet mark after) ∧
        (label = mark → after s (next (.ok s)))) ∧
      ∀ e, (next (.error e)).QuietUntil quiet mark after
  | .call _ next => ∀ a, (next a).QuietUntil quiet mark after

section QuietUntil
variable {quiet : E.Tx → Prop} {mark : E.Tx} {after : E.State → Process E α → Prop}

theorem QuietUntil.ofExcept (x : Except E.Error α) :
    (Process.ofExcept x : Process E α).QuietUntil quiet mark after := by
  cases x <;> trivial

theorem QuietUntil.reading_mark (calm : quiet mark) (body : E.State → Except E.Error α)
    {f : α → Process E β} {after : E.State → Process E β → Prop}
    (continues : ∀ s, after s ((Process.ofExcept (body s)).bind f)) :
    ((Process.reading mark body).bind f).QuietUntil quiet mark after :=
  ⟨⟨calm, fun _ => rfl⟩, fun s => ⟨fun other => (other rfl).elim, fun _ => continues s⟩,
    fun _ => trivial⟩

theorem QuietUntil.reading_other {label : E.Tx} (calm : quiet label) (other : label ≠ mark)
    (body : E.State → Except E.Error α) :
    (Process.reading label body).QuietUntil quiet mark after :=
  ⟨⟨calm, fun _ => rfl⟩, fun _ => ⟨fun _ => .ofExcept _, fun same => (other same).elim⟩,
    fun _ => trivial⟩

theorem QuietUntil.bind {p : Process E α} {f : α → Process E β}
    {after' : E.State → Process E β → Prop} (first : p.QuietUntil quiet mark after)
    (continues : ∀ s q, after s q → after' s (q.bind f))
    (rest : ∀ a, (f a).QuietUntil quiet mark after') :
    (p.bind f).QuietUntil quiet mark after' := by
  induction p with
  | done a => exact rest a
  | raise e => trivial
  | transact label commit next ih =>
      refine ⟨first.1, fun s => ⟨fun other => ?_, fun same => ?_⟩, fun e => ih _ (first.2.2 e)⟩
      · exact ih _ ((first.2.1 s).1 other)
      · exact continues _ _ ((first.2.1 s).2 same)
  | call query next ih => exact fun a => ih a (first a)

theorem QuietUntil.step {p : Process E α} (before : p.QuietUntil quiet mark after)
    (r : Reaction E) (s : E.State) :
    (p.step r s).2 = s ∧ (∀ label, p.commits r = some label → quiet label) ∧
      (p.commits r ≠ some mark → (p.step r s).1.QuietUntil quiet mark after) ∧
      (p.commits r = some mark → after s (p.step r s).1) := by
  cases p with
  | done a =>
      exact ⟨rfl, fun _ marked => (by cases marked), fun _ => trivial,
        fun marked => by cases marked⟩
  | raise e =>
      exact ⟨rfl, fun _ marked => (by cases marked), fun _ => trivial,
        fun marked => by cases marked⟩
  | transact label commit next =>
      simp only [Process.step, commits]
      cases r.fails label with
      | none =>
          refine ⟨before.1.2 s, fun committed same => ?_, fun other => ?_, fun same => ?_⟩
          · obtain rfl : label = committed := by simpa using same
            exact before.1.1
          · exact (before.2.1 s).1 (by simpa using other)
          · exact (before.2.1 s).2 (by simpa using same)
      | some e =>
          exact ⟨rfl, fun _ marked => (by simp at marked), fun _ => before.2.2 e,
            fun marked => by simp at marked⟩
  | call query next =>
      exact ⟨rfl, fun _ marked => (by cases marked), fun _ => before _,
        fun marked => by cases marked⟩

end QuietUntil

end Process

end Kaeyris.Lib
