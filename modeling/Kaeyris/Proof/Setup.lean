import Kaeyris.Proof.Administrators

/-!
# First-run setup

The lock covers the check and the insertion, but the insertion is only seen by others once the
request commits. Setup happens once if no request checks between the two.
-/

namespace Kaeyris.Proof
open Lib Users Setup

def Critical : Users.Phase → Prop
  | .locked | .checked | .inserted _ => True
  | _ => False

def Passed : Users.Phase → Prop
  | .checked | .inserted _ | .released _ => True
  | _ => False

/-- The insertion is done and others do not see it. -/
def Unseen : Users.Phase → Prop
  | .inserted _ | .released _ => True
  | _ => False

instance : DecidablePred Unseen := fun phase => by
  cases phase <;> first | exact isTrue trivial | exact isFalse id

def Refused : Users.Phase → Prop
  | .refused _ => True
  | _ => False

def Ended : Users.Phase → Prop
  | .committed | .refused _ | .failed => True
  | _ => False

def setupPhase (s : Setup) (request : Nat) : Option Users.Phase :=
  (s.requests.get? request).map SetupRequest.phase

/-- One request commits a user at most, and then every other one that ends is refused. -/
def SetupOnce (s : Setup) : Prop :=
  ∀ i j ended, setupPhase s i = some .committed → setupPhase s j = some ended → Ended ended → j ≠ i →
    Refused ended

/-- No request checks while another has inserted its user without having committed it. -/
def ChecksSeen (s : Setup) : Setup.Label → Prop
  | .check _ => ∀ r ∈ s.requests.rows, ¬Unseen r.phase
  | _ => True

structure Exclusive (s : Setup) : Prop where
  held : ∀ i phase, setupPhase s i = some phase → Critical phase → s.lock = some i
  empty : ∀ i phase, setupPhase s i = some phase → Passed phase → s.db.users.rows = []
  alone : ∀ i j phase other, setupPhase s i = some phase → setupPhase s j = some other →
    Passed phase → Passed other → i = j
  insertable : ∀ i phase new, setupPhase s i = some phase →
    phase = .inserted new ∨ phase = .released new → (new.insert s.db).isSome
  closed : ∀ i, setupPhase s i = some .committed → s.db.users.rows ≠ []
  first : ∀ i j, setupPhase s i = some .committed → setupPhase s j = some .committed → i = j
  sound : ∀ i, setupPhase s i ≠ some .failed

section Steps
variable {env : Hashing} {s : Setup} {i : Nat} {old : Users.Phase}

theorem setupOnce_of_exclusive (ok : Exclusive s) : SetupOnce s := by
  intro i j ended committed found end_ apart
  cases ended with
  | committed => exact absurd (ok.first j i found committed) apart
  | failed => exact absurd found (ok.sound j)
  | refused error => trivial
  | waiting | locked | checked | inserted new | released new => cases end_

theorem exclusive_initial (db : Accounts) : Exclusive (.initial db) := by
  constructor <;> simp [setupPhase, Setup.initial]

theorem setupPhase_move (found : setupPhase s i = some old) (phase : Users.Phase) (j : Nat) :
    setupPhase (s.move i phase) j = if j = i then some phase else setupPhase s j := by
  obtain ⟨r, stored, -⟩ := Option.map_eq_some_iff.mp found
  unfold setupPhase Setup.move
  rw [Table.get?_update_key s.requests i (fun r => { r with phase := phase }) (fun _ => rfl) j]
  by_cases same : j = i
  · subst same
    simp [stored]
  · simp [same]

theorem exclusive_outside (ok : Exclusive s) {t : Setup} {phase : Users.Phase}
    (moved : ∀ j, setupPhase t j = if j = i then some phase else setupPhase s j) (db : t.db = s.db)
    (held : ∀ j other, setupPhase t j = some other → Critical other → t.lock = some j)
    (before : ¬Passed phase) (committed : phase ≠ .committed) (failed : phase ≠ .failed) :
    Exclusive t where
  held := held
  empty := by
    intro j other found passed
    rw [moved] at found
    rw [db]
    grind [ok.empty j other]
  alone := by
    intro j k phase' other found found' passed passed'
    rw [moved] at found found'
    grind [ok.alone j k phase' other]
  insertable := by
    intro j other new found inserted
    rw [moved] at found
    rw [db]
    refine ok.insertable j other new ?_ inserted
    grind [Passed]
  closed := by
    intro j found
    rw [moved] at found
    rw [db]
    grind [ok.closed j]
  first := by
    intro j k found found'
    rw [moved] at found found'
    grind [ok.first j k]
  sound := by
    intro j found
    rw [moved] at found
    grind [ok.sound j]

/-- Once the request that holds the lock has left, none is between the lock and its release. -/
theorem outside_of_move (ok : Exclusive s) (found : setupPhase s i = some old)
    (critical : Critical old) {phase : Users.Phase} (out : ¬Critical phase) {j : Nat}
    {other : Users.Phase} (moved : setupPhase (s.move i phase) j = some other) :
    ¬Critical other := by
  intro inside
  rw [setupPhase_move found] at moved
  by_cases same : j = i
  · rw [if_pos same] at moved
    cases moved
    exact out inside
  · rw [if_neg same] at moved
    have lock := ok.held j other moved inside
    rw [ok.held i old found critical, Option.some_inj] at lock
    exact same lock.symm

theorem exclusive_acquire (ok : Exclusive s) (found : setupPhase s i = some .waiting)
    (free : s.lock = none) : Exclusive { s.move i .locked with lock := some i } := by
  refine exclusive_outside ok (setupPhase_move found .locked) rfl ?_ id (by simp) (by simp)
  intro j other phase critical
  have moved : setupPhase (s.move i .locked) j = some other := phase
  rw [setupPhase_move found] at moved
  grind [ok.held j other]

theorem exclusive_refuse (ok : Exclusive s) (found : setupPhase s i = some old)
    (critical : Critical old) (error : UserError) : Exclusive (s.refuse i error) := by
  refine exclusive_outside ok (setupPhase_move found (.refused error)) rfl ?_ id (by simp) (by simp)
  exact fun j other moved inside => (outside_of_move ok found critical id moved inside).elim

theorem exclusive_inside (ok : Exclusive s) {t : Setup} {phase : Users.Phase}
    (moved : ∀ j, setupPhase t j = if j = i then some phase else setupPhase s j)
    (db : t.db = s.db)
    (held : ∀ j other, setupPhase t j = some other → Critical other → t.lock = some j)
    (passed : Passed phase) (none : s.db.users.rows = [])
    (others : ∀ j other, setupPhase s j = some other → Passed other → j = i)
    (insertable : ∀ new, phase = .inserted new ∨ phase = .released new →
      (new.insert s.db).isSome) : Exclusive t where
  held := held
  empty := fun _ _ _ _ => by rw [db, none]
  alone := by
    intro j k phase' other found found' passed passed'
    rw [moved] at found found'
    grind [others j phase', others k other]
  insertable := by
    intro j other new found inserted
    rw [moved] at found
    rw [db]
    by_cases same : j = i
    · rw [if_pos same, Option.some_inj] at found
      subst found
      exact insertable new inserted
    · rw [if_neg same] at found
      exact ok.insertable j other new found inserted
  closed := by
    intro j found
    rw [moved] at found
    grind [ok.closed j, Passed]
  first := by
    intro j k found found'
    rw [moved] at found found'
    grind [ok.closed j, ok.closed k, Passed]
  sound := by
    intro j found
    rw [moved] at found
    grind [ok.sound j, Passed]

theorem exclusive_check (ok : Exclusive s) (found : setupPhase s i = some .locked)
    (seen : ∀ r ∈ s.requests.rows, ¬Unseen r.phase)
    (required : setupRequired s.db = true) : Exclusive (s.move i .checked) := by
  have holder := ok.held i .locked found trivial
  have none : s.db.users.rows = [] := List.isEmpty_iff.mp required
  have others : ∀ j other, setupPhase s j = some other → Passed other → j = i := by
    intro j other stored passed
    cases other with
    | checked =>
        have lock := ok.held j .checked stored trivial
        rw [holder, Option.some_inj] at lock
        exact lock.symm
    | inserted new | released new =>
        obtain ⟨r, present, same⟩ := Option.map_eq_some_iff.mp stored
        exact absurd (same ▸ trivial) (seen r (Table.mem_of_get? present))
    | waiting | locked | committed | refused error | failed => cases passed
  refine exclusive_inside ok (setupPhase_move found .checked) rfl ?_ trivial none others (by simp)
  intro j other phase inside
  rw [setupPhase_move found] at phase
  grind [ok.held j other, Setup.move]

theorem exclusive_inserted (ok : Exclusive s) (found : setupPhase s i = some .checked)
    {new : NewUser} (inserted : (new.insert s.db).isSome) :
    Exclusive (s.move i (.inserted new)) := by
  refine exclusive_inside ok (setupPhase_move found (.inserted new)) rfl ?_ trivial
    (ok.empty i _ found trivial) (fun j other stored passed =>
      ok.alone j i other _ stored found passed trivial) ?_
  · intro j other phase inside
    rw [setupPhase_move found] at phase
    have holder := ok.held i .checked found trivial
    grind [ok.held j other, Setup.move]
  · rintro other (same | same)
    · cases same
      exact inserted
    · cases same

theorem exclusive_release (ok : Exclusive s) {new : NewUser}
    (found : setupPhase s i = some (.inserted new)) :
    Exclusive { s.move i (.released new) with lock := none } := by
  refine exclusive_inside ok (setupPhase_move found (.released new)) rfl ?_ trivial
    (ok.empty i _ found trivial) (fun j other stored passed =>
      ok.alone j i other _ stored found passed trivial) ?_
  · exact fun j other moved inside => (outside_of_move ok found trivial id moved inside).elim
  · rintro other (same | same)
    · cases same
    · cases same
      exact ok.insertable i _ new found (.inl rfl)

theorem insert_nonempty {new : NewUser} {db db' : Accounts} (inserted : new.insert db = some db') :
    db'.users.rows ≠ [] := by
  unfold NewUser.insert at inserted
  simp only [Option.bind_eq_bind, Option.bind_eq_some_iff, Option.some_inj] at inserted
  obtain ⟨apiKeys, -, users, added, rfl⟩ := inserted
  simp [Indexed.insertAll?_eq_some.mp added]

/-- The request that commits was alone past the check, so no user was there before. -/
theorem exclusive_commit (ok : Exclusive s) {new : NewUser}
    (found : setupPhase s i = some (.released new)) {db : Accounts}
    (inserted : new.insert s.db = some db) :
    Exclusive { s.move i .committed with db := db } := by
  have moved (j : Nat) : setupPhase { s.move i .committed with db := db } j =
      if j = i then some .committed else setupPhase s j := setupPhase_move found .committed j
  have none := ok.empty i _ found trivial
  have closed : ∀ j, setupPhase s j ≠ some .committed := fun j stored => ok.closed j stored none
  have others : ∀ j other, setupPhase s j = some other → Passed other → j = i :=
    fun j other stored passed => ok.alone j i other _ stored found passed trivial
  constructor
  · intro j phase stored critical
    rw [moved] at stored
    by_cases same : j = i
    · rw [if_pos same] at stored
      cases stored
      cases critical
    · rw [if_neg same] at stored
      exact ok.held j phase stored critical
  · intro j phase stored passed
    rw [moved] at stored
    grind [others j phase, Passed]
  · intro j k phase other stored stored' passed passed'
    rw [moved] at stored stored'
    grind [others j phase, others k other, Passed]
  · intro j phase other stored either
    rw [moved] at stored
    have passed : Passed phase := by rcases either with rfl | rfl <;> trivial
    grind [others j phase, Passed]
  · exact fun _ _ => insert_nonempty inserted
  · intro j k stored stored'
    rw [moved] at stored stored'
    grind
  · intro j stored
    rw [moved] at stored
    grind [ok.sound j]

theorem exclusive_insert (ok : Exclusive s) {r : SetupRequest} (found : s.requests.get? i = some r)
    (checked : r.phase = .checked) (drawn : Drawn) : Exclusive (s.insert env r drawn) := by
  have place : r.id = i := Table.key_of_get? found
  have phase : setupPhase s r.id = some .checked := by
    rw [place, setupPhase, found, Option.map_some, checked]
  unfold Setup.insert
  split
  · rename_i error _
    exact exclusive_refuse ok phase trivial error
  · rename_i new _
    split
    · exact exclusive_refuse ok phase trivial .integrityError
    · rename_i db inserted
      exact exclusive_inserted ok phase (by simp [inserted])

theorem exclusive_arrive (ok : Exclusive s) (username password : Text) :
    Exclusive (s.step env (.arrive i username password)) := by
  cases inserted : s.requests.insert? ⟨i, username, password, .waiting⟩ with
  | none => simpa only [Setup.step, inserted] using ok
  | some requests =>
      have moved (j : Nat) : setupPhase { s with requests := requests } j =
          if j = i then some .waiting else setupPhase s j := by
        unfold setupPhase
        rw [Table.get?_insert? inserted j]
        by_cases same : j = i
        · simp [same]
        · simp [same, Ne.symm same]
      simp only [Setup.step, inserted]
      refine exclusive_outside ok moved rfl ?_ id (by simp) (by simp)
      intro j other phase critical
      rw [moved] at phase
      by_cases same : j = i
      · rw [if_pos same] at phase
        cases phase
        cases critical
      · rw [if_neg same] at phase
        exact ok.held j other phase critical

theorem exclusive_step (ok : Exclusive s) (label : Setup.Label) (seen : ChecksSeen s label) :
    Exclusive (s.step env label) := by
  cases label with
  | arrive request username password => exact exclusive_arrive ok username password
  | acquire request =>
      simp only [Setup.step]
      split
      · rename_i id username password found free
        exact exclusive_acquire ok (by rw [setupPhase, found, Option.map_some]) free
      · exact ok
  | check request =>
      simp only [Setup.step]
      split
      · rename_i id username password found
        have phase : setupPhase s request = some .locked := by
          rw [setupPhase, found, Option.map_some]
        split
        · rename_i required
          exact exclusive_check ok phase seen required
        · exact exclusive_refuse ok phase trivial .setupClosed
      · exact ok
  | insert request drawn =>
      simp only [Setup.step]
      split
      · rename_i id username password found
        exact exclusive_insert ok found rfl drawn
      · exact ok
  | release request =>
      simp only [Setup.step]
      split
      · rename_i id username password new found
        exact exclusive_release ok (by rw [setupPhase, found, Option.map_some])
      · exact ok
  | commit request =>
      simp only [Setup.step]
      split
      · rename_i id username password new found
        have phase : setupPhase s request = some (.released new) := by
          rw [setupPhase, found, Option.map_some]
        have possible := ok.insertable request _ new phase (.inr rfl)
        split
        · rename_i failed
          simp [failed] at possible
        · rename_i db inserted
          exact exclusive_commit ok phase inserted
      · exact ok

end Steps

theorem setup_once (env : Hashing) (db : Accounts) (run : List Setup.Label)
    (seen : Along (Setup.step env) ChecksSeen (.initial db) run) :
    Visits (Setup.step env) SetupOnce (.initial db) run := by
  have along : Visits (Setup.step env) Exclusive (.initial db) run :=
    Visits.of_invariant (fun _ label ok seen => exclusive_step ok label seen)
      (exclusive_initial db) seen
  exact along.weaken fun _ ok => setupOnce_of_exclusive ok

def noAccounts : Accounts := ⟨.empty, .empty, .empty⟩

theorem setup_once_in_turn :
    Visits (Setup.step plainHashing) SetupOnce (.initial noAccounts)
      [.arrive 0 "ada".toList "pw".toList, .arrive 1 "bea".toList "pw".toList, .acquire 0, .check 0,
        .insert 0 ⟨1, 2, 0⟩, .release 0, .commit 0, .acquire 1, .check 1] :=
  setup_once plainHashing noAccounts _ (by
    refine ⟨trivial, trivial, trivial, ?_, trivial, trivial, trivial, trivial, ?_, trivial⟩
    · show ∀ r ∈ _, ¬Unseen (SetupRequest.phase r)
      decide
    · show ∀ r ∈ _, ¬Unseen (SetupRequest.phase r)
      decide)

/-- The second request checks while the first has left the lock and not yet committed. -/
theorem setup_twice :
    ¬Visits (Setup.step plainHashing) SetupOnce (.initial noAccounts)
      [.arrive 0 "ada".toList "pw".toList, .arrive 1 "bea".toList "pw".toList, .acquire 0, .check 0,
        .insert 0 ⟨1, 2, 0⟩, .release 0, .acquire 1, .check 1, .insert 1 ⟨3, 4, 0⟩, .release 1,
        .commit 0, .commit 1] := by
  intro visits
  have last := visits.final 0 1 .committed rfl rfl trivial (by decide)
  exact last

end Kaeyris.Proof
