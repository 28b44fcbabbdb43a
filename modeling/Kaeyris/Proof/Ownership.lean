import Kaeyris.Proof.GmIsolation
import Kaeyris.Proof.Locality
import Kaeyris.Proof.Runnable

/-!
# Only its game master changes a session

The rows of a session change by requests of the key that owns it and by jobs that were enqueued for
it, and by nothing else, in whatever order the others' requests and jobs come.
-/

namespace Kaeyris.Proof
open Lib Jobs Process Platform Router

def Database.rowsOf (db : Database) (session : Uuid) : Others where
  sessions := db.sessions.rows.filter fun row => row.id = session
  audioSources := db.audioSources.rows.filter fun row => row.sessionId = session
  transcriptions := db.transcriptions.rows.filter fun row => row.sessionId = session
  mappings := db.mappings.rows.filter fun row => row.sessionId = session
  artifacts := db.artifacts.rows.filter fun row => row.sessionId = session
  jobs := db.jobs.rows.filter fun row => row.sessionId = session
  chunks := db.chunks.rows.filter fun row => row.sessionId = session
  players := db.players.rows.filter fun row => row.sessionId = session

/-- A step taken for a session: its creation, a request of its owner about it, a step of a job it
has. -/
def OnBehalf (session : Uuid) (s : Platform) : Platform.Label → Prop
  | .system (.request auth target _) | .patchSession auth target _ | .deleteSession auth target =>
      target = session ∧ OwnsSession s.system.db auth session
  | .system (.advance job _) => ∃ a, s.system.attempts.get? job = some a ∧ a.session = session
  | .createSession _ target _ => target = session ∧ ¬Registered s session
  | _ => False

/-- The rows of a session change only by a step taken for it. -/
def RowsKept (env : Environment) (session : Uuid) (s : Platform) (label : Platform.Label) : Prop :=
  ¬OnBehalf session s label →
    Database.rowsOf (Platform.step env s label).system.db session =
      Database.rowsOf s.system.db session

theorem filter_owner_apart {ρ : Type} {rows : List ρ} (owner : ρ → Uuid) {session target : Uuid}
    (apart : session ≠ target) :
    (rows.filter fun row => owner row ≠ target).filter (fun row => owner row = session) =
      rows.filter fun row => owner row = session := by
  rw [List.filter_filter]
  apply List.filter_congr
  intro row _
  by_cases own : owner row = session
  · simp [own, apart]
  · simp [own]

theorem rowsOf_others (db : Database) {session target : Uuid} (apart : session ≠ target) :
    Database.rowsOf db session =
      { sessions := (db.others target).sessions.filter fun row => row.id = session
        audioSources := (db.others target).audioSources.filter fun row => row.sessionId = session
        transcriptions :=
          (db.others target).transcriptions.filter fun row => row.sessionId = session
        mappings := (db.others target).mappings.filter fun row => row.sessionId = session
        artifacts := (db.others target).artifacts.filter fun row => row.sessionId = session
        jobs := (db.others target).jobs.filter fun row => row.sessionId = session
        chunks := (db.others target).chunks.filter fun row => row.sessionId = session
        players := (db.others target).players.filter fun row => row.sessionId = session } := by
  unfold Database.rowsOf Database.others
  dsimp only
  rw [filter_owner_apart _ apart, filter_owner_apart _ apart, filter_owner_apart _ apart,
    filter_owner_apart _ apart, filter_owner_apart _ apart, filter_owner_apart _ apart,
    filter_owner_apart _ apart, filter_owner_apart _ apart]

theorem Local.rowsOf {session target : Uuid} {db db' : Database} (step : Local target db db')
    (apart : session ≠ target) : Database.rowsOf db' session = Database.rowsOf db session := by
  rw [rowsOf_others db' apart, rowsOf_others db apart, step.others]

theorem handle_owned {env : Environment} {db : Database} {rq : Rq} {auth : AuthenticatedKey}
    {session : Uuid} {request : Request} {accepted : Accepted}
    (handled : request.handle env db rq auth session = .ok accepted) :
    OwnsSession db auth session := by
  have opened {α : Type} {next : Session → Except AppError α} {a : α}
      (done : (requireSession db session auth >>= next) = .ok a) : OwnsSession db auth session := by
    obtain ⟨row, found, -⟩ := except_bind_ok done
    exact (requireSession_owns found).1
  cases request with
  | _ =>
      obtain ⟨_, done, -⟩ := except_map_ok handled
      exact opened done

/-! ## The invariant -/

/-- Every job is with its session, and what a worker still has to run writes for its session
only. -/
structure Attributed (owner : Uuid → Uuid) (s : Platform) : Prop where
  founded : Founded s
  jobs : JobsOwned s.system.db
  running : ∀ job a, s.system.attempts.get? job = some a →
    a.program.Guarantees (Draws owner) (fun _ => Confined a.session)

theorem attributed_initial (owner : Uuid → Uuid) : Attributed owner .initial where
  founded := founded_initial
  jobs := jobsOwned_empty
  running := fun _ _ found => by cases found

section Steps
variable {owner : Uuid → Uuid} {s : Platform}

theorem JobsOwned.congr {db db' : Database} (owned : JobsOwned db)
    (sessions : db'.sessions = db.sessions) (jobs : db'.jobs = db.jobs) : JobsOwned db' := by
  unfold JobsOwned
  rw [sessions, jobs]
  exact owned

theorem Attributed.withDb (kept : Attributed owner s) {s' : Platform} (founded : Founded s')
    (jobs : JobsOwned s'.system.db)
    (attempts : ∀ job a, s'.system.attempts.get? job = some a →
      s.system.attempts.get? job = some a) : Attributed owner s' :=
  ⟨founded, jobs, fun job a found => kept.running job a (attempts job a found)⟩

theorem step_bookkeeping (env : Environment) (kept : Attributed owner s) {label : Kaeyris.Label}
    (kind : bookkeeping label = true) :
    Attributed owner (Platform.step env s (.system label)) ∧
      ∀ session, RowsKept env session s (.system label) := by
  have keeps : Bookkeeping env s.system (s.system.step env label) :=
    bookkeeping_step kept.founded.sound.linked kind
  refine ⟨⟨founded_step env kept.founded (.system label), ?_, fun job a found => ?_⟩,
    fun session _ => ?_⟩
  · rw [Platform.step, keeps.db]
    exact kept.jobs
  · rcases keeps.attempts job a found with before | ⟨row, -, rfl⟩
    · exact kept.running job a before
    · exact jobProgram_confined env
  · rw [Platform.step, keeps.db]

theorem step_ownRequest (env : Environment) (kept : Attributed owner s) (auth : AuthenticatedKey)
    (target : Uuid) (request : Request) :
    Attributed owner (Platform.step env s (.system (.request auth target request))) ∧
      ∀ session, RowsKept env session s (.system (.request auth target request)) := by
  have founded := founded_step env kept.founded (.system (.request auth target request))
  unfold RowsKept
  rw [Platform.step, System.step] at *
  cases handled : request.handle env s.system.db s.system.rq auth target with
  | error e =>
      rw [request_error handled] at *
      exact ⟨kept, fun _ _ => rfl⟩
  | ok accepted =>
      rw [request_ok handled] at *
      obtain ⟨step, jobs⟩ := handle_confined handled kept.jobs
      refine ⟨kept.withDb founded jobs fun _ _ found => found, fun session apart => ?_⟩
      apply step.rowsOf
      rintro rfl
      exact apart ⟨rfl, handle_owned handled⟩

theorem advance_local (kept : Attributed owner s) (drawn : Draws owner s.system.db) {job : JobId}
    {a : Attempt} (running : s.system.attempts.get? job = some a) (reaction : Reaction effects) :
    (Local a.session s.system.db (a.program.step reaction s.system.db).2 ∧
      JobsOwned (a.program.step reaction s.system.db).2) ∧
    (a.program.step reaction s.system.db).1.Guarantees (Draws owner)
      (fun _ => Confined a.session) := by
  obtain ⟨rest, step⟩ := (kept.running job a running).step reaction s.system.db drawn
  refine ⟨?_, rest⟩
  rcases step with ⟨_, -, within⟩ | ⟨-, same⟩
  · exact within kept.jobs
  · rw [same]
    exact ⟨.refl _ _, kept.jobs⟩

theorem step_advance (env : Environment) (kept : Attributed owner s)
    (drawn : Draws owner s.system.db)
    (job : JobId) (reaction : Reaction effects) :
    Attributed owner (Platform.step env s (.system (.advance job reaction))) ∧
      ∀ session, RowsKept env session s (.system (.advance job reaction)) := by
  have founded := founded_step env kept.founded (.system (.advance job reaction))
  unfold RowsKept
  rw [Platform.step, System.step] at *
  cases running : s.system.attempts.get? job with
  | none =>
      rw [advance_none running] at *
      exact ⟨kept, fun _ _ => rfl⟩
  | some a =>
      rw [advance_eq running] at *
      obtain ⟨⟨step, jobs⟩, rest⟩ := advance_local kept drawn running reaction
      refine ⟨⟨founded, jobs, fun other b found => ?_⟩, fun session apart => ?_⟩
      · dsimp only at found
        rw [Table.get?_put] at found
        split at found
        · cases found
          exact rest
        · exact kept.running other b found
      · apply step.rowsOf
        rintro rfl
        exact apart ⟨a, running, rfl⟩

theorem rowsKept_commit {env : Environment} {label : Platform.Label} (kept : Attributed owner s)
    {result : Except AppError Database} (commits : Platform.step env s label = s.commit result)
    (within : ∀ db, result = .ok db → JobsOwned db ∧ ∀ session, ¬OnBehalf session s label →
      Database.rowsOf db session = Database.rowsOf s.system.db session) :
    Attributed owner (Platform.step env s label) ∧ ∀ session, RowsKept env session s label := by
  have founded := founded_step env kept.founded label
  unfold RowsKept
  rw [commits] at *
  cases result with
  | error e => exact ⟨kept, fun _ _ => rfl⟩
  | ok db =>
      obtain ⟨jobs, rows⟩ := within db rfl
      exact ⟨kept.withDb founded jobs fun _ _ found => found, rows⟩

theorem step_createSession (env : Environment) (kept : Attributed owner s) (auth : AuthenticatedKey)
    (target : Uuid) (payload : SessionCreate) :
    Attributed owner (Platform.step env s (.createSession auth target payload)) ∧
      ∀ session, RowsKept env session s (.createSession auth target payload) := by
  have founded := founded_step env kept.founded (.createSession auth target payload)
  unfold RowsKept
  simp only [Platform.step, Platform.createSession] at *
  cases drawn : s.created.insert? (payload.row target auth.id) with
  | none =>
      simp only
      exact ⟨kept, fun _ _ => trivial⟩
  | some created =>
      simp only [drawn] at founded ⊢
      cases done : Router.createSession target payload s.system.db auth with
      | error e =>
          simp only
          exact ⟨kept, fun _ _ => trivial⟩
      | ok db =>
          simp only [done] at founded ⊢
          obtain ⟨step, jobs⟩ := confined_create done kept.jobs
          refine ⟨kept.withDb founded jobs fun _ _ found => found, fun session apart => ?_⟩
          apply step.rowsOf
          rintro rfl
          refine apart ⟨rfl, ?_⟩
          rintro ⟨first, registered⟩
          have free : s.created.get? session = none := (Table.insert?_eq_some.mp drawn).1
          rw [free] at registered
          cases registered

theorem step_deleteSession (env : Environment) (kept : Attributed owner s) (auth : AuthenticatedKey)
    (target : Uuid) :
    Attributed owner (Platform.step env s (.deleteSession auth target)) ∧
      ∀ session, RowsKept env session s (.deleteSession auth target) := by
  have founded := founded_step env kept.founded (.deleteSession auth target)
  unfold RowsKept
  simp only [Platform.step, Platform.deleteSession] at *
  cases done : Router.deleteSession s.system.db s.system.rq auth target with
  | error e =>
      simp only
      exact ⟨kept, fun _ _ => trivial⟩
  | ok result =>
      obtain ⟨db, rq, stopped⟩ := result
      simp only [done] at founded ⊢
      obtain ⟨row, stored, own, rfl, -⟩ := deleteSession_ok done
      obtain ⟨step, jobs⟩ := confined_delete s.system.db target kept.jobs
      refine ⟨kept.withDb founded jobs fun _ _ found => found, fun session apart => ?_⟩
      apply step.rowsOf
      rintro rfl
      exact apart ⟨rfl, row, stored, own⟩

theorem step_stop (env : Environment) (kept : Attributed owner s) (job : JobId) :
    Attributed owner (Platform.step env s (.stop job)) ∧
      ∀ session, RowsKept env session s (.stop job) := by
  have founded := founded_step env kept.founded (.stop job)
  unfold RowsKept
  simp only [Platform.step, Platform.stop] at *
  split at founded
  · rename_i stops
    rw [if_pos stops]
    exact ⟨kept.withDb founded kept.jobs fun _ _ found => (mem_deleteAttempt found).1,
      fun _ _ => rfl⟩
  · rename_i idle
    rw [if_neg idle]
    exact ⟨kept, fun _ _ => rfl⟩

theorem step_within (env : Environment) (kept : Attributed owner s)
    (drawn : Draws owner s.system.db)
    (label : Platform.Label) :
    Attributed owner (Platform.step env s label) ∧ ∀ session, RowsKept env session s label := by
  cases label with
  | system label =>
      cases label with
      | request auth target request => exact step_ownRequest env kept auth target request
      | advance job reaction => exact step_advance env kept drawn job reaction
      | start job | settle job | die job | reap job | due job | expire job =>
          exact step_bookkeeping env kept rfl
  | createSession auth target payload => exact step_createSession env kept auth target payload
  | patchSession auth target payload =>
      refine rowsKept_commit kept rfl fun db done => ?_
      obtain ⟨owned, changed⟩ := patchSession_ok done
      obtain ⟨step, jobs⟩ := confined_patch changed kept.jobs
      refine ⟨jobs, fun session apart => step.rowsOf ?_⟩
      rintro rfl
      exact apart ⟨rfl, owned⟩
  | deleteSession auth target => exact step_deleteSession env kept auth target
  | createPj auth pj payload campaign =>
      refine rowsKept_commit kept rfl fun db done => ?_
      obtain ⟨_, _, -, rfl⟩ := createPj_ok done
      exact ⟨kept.jobs.congr rfl rfl, fun _ _ => rfl⟩
  | updatePj auth pj payload =>
      refine rowsKept_commit kept rfl fun db done => ?_
      obtain ⟨_, _, _, -, -, -, rfl⟩ := updatePj_ok done
      exact ⟨kept.jobs.congr rfl rfl, fun _ _ => rfl⟩
  | accounts accounts =>
      have founded := founded_step env kept.founded (.accounts accounts)
      exact ⟨kept.withDb founded (kept.jobs.congr rfl rfl) fun _ _ found => found, fun _ _ => rfl⟩
  | stop job => exact step_stop env kept job

def onSessions : Platform.Label → Bool
  | .createPj _ _ _ _ | .updatePj _ _ _ | .accounts _ => false
  | _ => true

theorem step_shared (env : Environment) (kept : Attributed owner s)
    (drawn : Draws owner s.system.db) {label : Platform.Label} (own : onSessions label = true) :
    Database.accounts (Platform.step env s label).system.db = Database.accounts s.system.db ∧
      (Platform.step env s label).system.db.pjs = s.system.db.pjs := by
  have shared {session : Uuid} {db db' : Database} (step : Local session db db') :
      Database.accounts db' = Database.accounts db ∧ db'.pjs = db.pjs := ⟨step.accounts, step.pjs⟩
  cases label with
  | system label =>
      rw [Platform.step]
      cases label with
      | request auth target request =>
          rw [System.step]
          cases handled : request.handle env s.system.db s.system.rq auth target with
          | error e =>
              rw [request_error handled]
              exact ⟨rfl, rfl⟩
          | ok accepted =>
              rw [request_ok handled]
              exact shared (handle_confined handled kept.jobs).1
      | advance job reaction =>
          rw [System.step]
          cases running : s.system.attempts.get? job with
          | none =>
              rw [advance_none running]
              exact ⟨rfl, rfl⟩
          | some a =>
              rw [advance_eq running]
              exact shared (advance_local kept drawn running reaction).1.1
      | start job | settle job | die job | reap job | due job | expire job =>
          rw [(bookkeeping_step kept.founded.sound.linked rfl).db]
          exact ⟨rfl, rfl⟩
  | createSession auth target payload =>
      simp only [Platform.step, Platform.createSession]
      split
      · exact ⟨rfl, rfl⟩
      · split
        · rename_i done
          exact shared (confined_create done kept.jobs).1
        · exact ⟨rfl, rfl⟩
  | patchSession auth target payload =>
      simp only [Platform.step]
      cases done : Router.patchSession payload s.system.db auth target with
      | error e => exact ⟨rfl, rfl⟩
      | ok db => exact shared (confined_patch (patchSession_ok done).2 kept.jobs).1
  | deleteSession auth target =>
      simp only [Platform.step, Platform.deleteSession]
      split
      · rename_i done
        obtain ⟨_, -, -, rfl, -⟩ := deleteSession_ok done
        exact shared (confined_delete s.system.db target kept.jobs).1
      · exact ⟨rfl, rfl⟩
  | stop job =>
      simp only [Platform.step, Platform.stop]
      split <;> exact ⟨rfl, rfl⟩
  | createPj auth pj payload campaign | updatePj auth pj payload | accounts accounts => cases own

end Steps

/-! ## Runs -/

/-- Chunk identifiers are never drawn for two sessions. -/
abbrev ChunksDrawn (owner : Uuid → Uuid) (s : Platform) : Prop := Draws owner s.system.db

theorem attributed_run (env : Environment) {owner : Uuid → Uuid} {s : Platform}
    (kept : Attributed owner s)
    {run : List Platform.Label} (drawn : Visits (Platform.step env) (ChunksDrawn owner) s run) :
    Visits (Platform.step env) (Attributed owner) s run ∧
      ∀ session, Along (Platform.step env) (RowsKept env session) s run := by
  induction run generalizing s with
  | nil => exact ⟨kept, fun _ => trivial⟩
  | cons label rest ih =>
      obtain ⟨kept', rows⟩ := step_within env kept drawn.1 label
      obtain ⟨visits, along⟩ := ih kept' drawn.2
      exact ⟨⟨kept, visits⟩, fun session => ⟨rows session, along session⟩⟩

/-- In every run a session's rows change only by steps taken for the session. -/
theorem rows_kept (env : Environment) {owner : Uuid → Uuid} {run : List Platform.Label}
    (drawn : Visits (Platform.step env) (ChunksDrawn owner) .initial run) (session : Uuid) :
    Along (Platform.step env) (RowsKept env session) .initial run :=
  (attributed_run env (attributed_initial owner) drawn).2 session

theorem drawn_summarised : Visits (Platform.step sampleEnvironment) (ChunksDrawn fun _ => 1)
    .initial (summarisedRun ['x'] ++ [.deleteSession ⟨9, .apiKey, none⟩ 1]) := by
  have drawn : Visits (Platform.step sampleEnvironment)
      (fun s => ∀ row ∈ s.system.db.chunks.rows, 1 = row.sessionId) .initial
      (summarisedRun ['x'] ++ [.deleteSession ⟨9, .apiKey, none⟩ 1]) := by decide +kernel
  exact drawn

theorem rows_kept_summarised :
    Along (Platform.step sampleEnvironment) (RowsKept sampleEnvironment 1) .initial
      (summarisedRun ['x'] ++ [.deleteSession ⟨9, .apiKey, none⟩ 1]) :=
  rows_kept sampleEnvironment drawn_summarised 1

end Kaeyris.Proof
