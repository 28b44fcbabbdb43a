import Kaeyris.Proof.Bystanders
import Kaeyris.Proof.Seclusion

/-!
# Jobs among others

The machine as the host of one of its jobs. From the moment a worker takes it, a job that nobody
interferes with makes the calls and leaves the rows that it would make and leave alone.
-/

namespace Kaeyris.Proof
open Lib Jobs Process Platform Router

def reactionOf (job : JobId) : Platform.Label → Option (Reaction effects)
  | .system (.advance other reaction) => if other = job then some reaction else none
  | _ => none

theorem reactionOf_eq_some {job : JobId} {label : Platform.Label} {reaction : Reaction effects}
    (own : reactionOf job label = some reaction) : label = .system (.advance job reaction) := by
  unfold reactionOf at own
  split at own
  · rename_i other found
    split at own
    · rename_i same
      rw [same, Option.some.inj own]
    · cases own
  · cases own

def hosting (env : Environment) (job : JobId) : Host effects Unit Platform Platform.Label where
  step := Platform.step env
  state := fun s => s.system.db
  program := fun s => (s.system.attempts.get? job).map Attempt.program
  reaction := reactionOf job
  advances := by
    intro s label reaction p own hosted
    obtain ⟨a, running, rfl⟩ := Option.map_eq_some_iff.mp hosted
    rw [reactionOf_eq_some own]
    simp only [Platform.step, System.step]
    rw [attempts_advance running, if_pos rfl, advance_eq running]
    exact ⟨rfl, rfl⟩

/-! ## Steps of others -/

/-- The job that a step takes from a worker or gives to one. -/
def assigns : Platform.Label → Option JobId
  | .system (.start job) | .system (.settle job) | .system (.die job) | .stop job => some job
  | _ => none

/-- A step that leaves alone the settings of the session's owner and the characters taking part. -/
def Unread (session : Uuid) (s : Platform) : Platform.Label → Prop
  | .createPj _ pj _ _ | .updatePj _ pj _ => takesPart s.system.db session pj = false
  | .accounts accounts =>
      resolveSessionOwnerId (withAccounts s.system.db accounts) session =
          resolveSessionOwnerId s.system.db session ∧
        ∀ user ∈ resolveSessionOwnerId s.system.db session,
          accounts.modelSettings.get? user = s.system.db.modelSettings.get? user
  | _ => True

/-- A step of the job, or one that is not taken for its session and leaves the job running. -/
def Spares (job : JobId) (session : Uuid) (s : Platform) (label : Platform.Label) : Prop :=
  reactionOf job label = none →
    ¬OnBehalf session s label ∧ assigns label ≠ some job ∧ Unread session s label

section Steps
variable {env : Environment} {owner : Uuid → Uuid} {s : Platform} {job : JobId} {session : Uuid}
  {label : Platform.Label}

theorem attempt_spared (other : reactionOf job label = none) (spares : assigns label ≠ some job) :
    (Platform.step env s label).system.attempts.get? job = s.system.attempts.get? job := by
  have deleted {moved : JobId} (apart : some moved ≠ some job) :
      (s.system.attempts.delete fun a => a.job = moved).get? job = s.system.attempts.get? job := by
    have kept := Table.get?_delete_key s.system.attempts (fun a => a.job = moved)
      (fun key => key = moved) (fun _ => rfl) job
    refine kept.trans (if_neg fun same => apart ?_)
    rw [of_decide_eq_true same]
  have commit (result : Except AppError Database) :
      (s.commit result).system.attempts = s.system.attempts := by
    cases result <;> rfl
  cases label with
  | system label =>
      rw [Platform.step]
      cases label with
      | request auth target request =>
          rw [System.step]
          cases handled : request.handle env s.system.db s.system.rq auth target with
          | error e => rw [request_error handled]
          | ok accepted => rw [request_ok handled]
      | advance moved reaction =>
          have apart : moved ≠ job := by
            rintro rfl
            simp [reactionOf] at other
          rw [System.step]
          cases running : s.system.attempts.get? moved with
          | none => rw [advance_none running]
          | some a =>
              dsimp only
              rw [attempts_advance running, if_neg apart]
      | start moved =>
          simp only [System.step, System.start]
          split
          · split
            · rw [Table.get?_put, if_neg fun same => spares (congrArg some same)]
            · rfl
          · rfl
      | settle moved =>
          simp only [System.step, System.settle]
          split
          · rfl
          · split
            · exact deleted spares
            · exact deleted spares
            · rfl
      | die moved => exact deleted spares
      | reap moved =>
          simp only [System.step, System.reap]
          split <;> rfl
      | due moved =>
          simp only [System.step, System.due]
          split <;> rfl
      | expire moved =>
          simp only [System.step, System.expire]
          split <;> rfl
  | createSession auth target payload =>
      simp only [Platform.step, Platform.createSession]
      split
      · rfl
      · split <;> rfl
  | deleteSession auth target =>
      simp only [Platform.step, Platform.deleteSession]
      split <;> rfl
  | patchSession auth target payload | createPj auth pj payload campaign
  | updatePj auth pj payload =>
      simp only [Platform.step]
      rw [commit]
  | accounts accounts => rfl
  | stop moved =>
      simp only [Platform.step, Platform.stop]
      split
      · exact deleted spares
      · rfl

theorem AlikeTo.of_kept {db after : Database} (kind : JobKind)
    (rows : Database.rowsOf after session = Database.rowsOf db session)
    (accounts : Database.accounts after = Database.accounts db) (pjs : after.pjs = db.pjs) :
    AlikeTo kind (resolveSessionOwnerId db session) session db after where
  rows := by
    rw [rows]
    exact .refl kind _
  owner := by
    refine ⟨rfl, resolveSessionOwnerId_congr (congrArg (Option.map fixedColumns) ?_) accounts⟩
    exact Table.part_get? (congrArg Others.sessions rows) fun _ named => by simp [named]
  settings := fun id _ => by
    have kept := congrArg Accounts.modelSettings accounts
    change after.modelSettings = db.modelSettings at kept
    unfold ModelSettingsRepository.getForUser
    rw [kept]
  characters := by
    unfold charactersOf takesPart
    rw [rows, pjs]

theorem AlikeTo.of_characters {db : Database} {pjs : Indexed Uuid (Uuid × Text) Pj Pj.id Pj.campaignName}
    (kept : (pjs.rows.filter fun pj => takesPart db session pj.id) =
      db.pjs.rows.filter fun pj => takesPart db session pj.id) (kind : JobKind) :
    AlikeTo kind (resolveSessionOwnerId db session) session db { db with pjs := pjs } where
  rows := .refl kind _
  owner := ⟨rfl, rfl⟩
  settings := fun _ _ => rfl
  characters := kept.symm

theorem alikeTo_step (kind : JobKind) (kept : Attributed owner s) (drawn : ChunksDrawn owner s)
    (behalf : ¬OnBehalf session s label) (unread : Unread session s label) :
    AlikeTo kind (resolveSessionOwnerId s.system.db session) session s.system.db
      (Platform.step env s label).system.db := by
  have shared (own : onSessions label = true) :
      AlikeTo kind (resolveSessionOwnerId s.system.db session) session s.system.db
        (Platform.step env s label).system.db := by
    obtain ⟨accounts, pjs⟩ := step_shared env kept drawn own
    exact .of_kept kind ((step_within env kept drawn label).2 session behalf) accounts pjs
  cases label with
  | createPj auth pj payload campaign =>
      simp only [Platform.step]
      cases done : Router.createPj pj payload campaign s.system.db auth with
      | error e => exact .refl kind session s.system.db
      | ok db =>
          obtain ⟨row, pjs, inserted, rfl⟩ := createPj_ok done
          apply AlikeTo.of_characters
          rw [Indexed.insertAll?_eq_some.mp inserted, List.filter_append]
          simp [show takesPart s.system.db session pj = false from unread]
  | updatePj auth pj payload =>
      simp only [Platform.step]
      cases done : Router.updatePj pj payload s.system.db auth with
      | error e => exact .refl kind session s.system.db
      | ok db =>
          obtain ⟨row, name, pjs, -, -, updated, rfl⟩ := updatePj_ok done
          apply AlikeTo.of_characters
          rw [Indexed.toTable_update? updated]
          have away (row : Pj) (named : decide (row.id = pj) = true) :
              takesPart s.system.db session row.id = false := by
            rw [of_decide_eq_true named]
            exact unread
          exact Table.filter_update _ _ away away
  | accounts accounts =>
      exact
        { rows := .refl kind _
          owner := ⟨rfl, unread.1⟩
          settings := fun id named => (unread.2 id named).symm
          characters := rfl }
  | system _ | createSession _ _ _ | patchSession _ _ _ | deleteSession _ _ | stop _ =>
      exact shared rfl

theorem apart_run (kind : JobKind) (user : Option Uuid) {run : List Platform.Label}
    (kept : Attributed owner s) (drawn : Visits (Platform.step env) (ChunksDrawn owner) s run)
    (spares : Along (Platform.step env) (Spares job session) s run) :
    Along (hosting env job).step ((hosting env job).Apart (AlikeTo kind user session)) s run := by
  induction run generalizing s with
  | nil => trivial
  | cons label rest ih =>
      refine ⟨fun other valid => ?_, ih (step_within env kept drawn.1 label).1 drawn.2 spares.2⟩
      obtain ⟨behalf, stays, unread⟩ := spares.1 other
      constructor
      · exact congrArg (Option.map Attempt.program) (attempt_spared other stays)
      · have unseen : AlikeTo kind (resolveSessionOwnerId s.system.db session) session s.system.db
            (Platform.step env s label).system.db :=
          alikeTo_step kind kept drawn.1 behalf unread
        have same : resolveSessionOwnerId s.system.db session = user := valid.owner.1
        rw [same] at unseen
        exact unseen

end Steps

/-- In every run, a job that is spared from its start on makes the calls and leaves the rows that it
makes and leaves alone, and so in any database that differs in nothing the job sees. -/
theorem job_as_alone (env : Environment) {owner : Uuid → Uuid} {before after : List Platform.Label}
    {job : JobId} {row : RqJob} {user : Option Uuid} {db : Database}
    (drawn : Visits (Platform.step env) (ChunksDrawn owner) .initial
      (before ++ .system (.start job) :: after))
    (queued : (final (Platform.step env) .initial before).system.rq.get? job = some row)
    (waits : row.status = .queued)
    (alike : AlikeTo row.func user row.sessionId
      (final (Platform.step env) .initial before).system.db db)
    (spares : Along (Platform.step env) (Spares job row.sessionId)
      (final (Platform.step env) .initial (before ++ [.system (.start job)])) after) :
    let started := final (Platform.step env) .initial (before ++ [.system (.start job)])
    let reached := final (Platform.step env) .initial (before ++ .system (.start job) :: after)
    let stage := alone (after.filterMap (reactionOf job)) (jobProgram env row.func row.sessionId) db
    (∃ a, reached.system.attempts.get? job = some a ∧ a.program = stage.program) ∧
      Matches row.func (Database.rowsOf reached.system.db row.sessionId)
        (Database.rowsOf stage.state row.sessionId) ∧
      (hosting env job).events started after = stage.events := by
  intro started reached stage
  have split : before ++ .system (.start job) :: after =
      (before ++ [.system (.start job)]) ++ after := by simp
  rw [split] at drawn
  obtain ⟨drawn₁, drawn₂⟩ := drawn.split
  have kept := (attributed_run env (attributed_initial owner) drawn₁).1.final
  have begun : started.system =
      (final (Platform.step env) .initial before).system.start env job := by
    change (final (Platform.step env) .initial (before ++ [.system (.start job)])).system = _
    rw [final_append]
    rfl
  unfold System.start at begun
  rw [queued] at begun
  simp only [waits, if_true] at begun
  have hosted : (hosting env job).program started =
      some (jobProgram env row.func row.sessionId) := by
    change (started.system.attempts.get? job).map Attempt.program = _
    rw [begun]
    dsimp only
    rw [Table.get?_put, if_pos rfl]
    rfl
  have related : AlikeTo row.func user row.sessionId started.system.db db := by
    rw [begun]
    exact alike
  have reached_eq : reached = final (Platform.step env) started after := by
    change final (Platform.step env) .initial (before ++ .system (.start job) :: after) = _
    rw [split, final_append]
  have apart := apart_run row.func user kept drawn₂ spares
  have symm (db db' : Database) (same : AlikeTo row.func user row.sessionId db db') :
      AlikeTo row.func user row.sessionId db' db := same.symm
  have trans (db db' db'' : Database) (same : AlikeTo row.func user row.sessionId db db')
      (same' : AlikeTo row.func user row.sessionId db' db'') :
      AlikeTo row.func user row.sessionId db db'' := same.trans same'
  obtain ⟨program, state, heard⟩ := (hosting env job).as_alone symm trans
    (blind_jobProgram env row.func) hosted related apart
  rw [reached_eq]
  exact ⟨Option.map_eq_some_iff.mp program, state.rows, heard⟩

instance (db : Database) (auth : AuthenticatedKey) (session : Uuid) :
    Decidable (OwnsSession db auth session) :=
  decidable_of_iff ((db.sessions.get? session).any (fun row => row.gmKeyId = auth.id) = true)
    (by simp [OwnsSession, Option.any_eq_true])

instance (s : Platform) (session : Uuid) : Decidable (Registered s session) :=
  decidable_of_iff ((s.created.get? session).isSome = true)
    (by simp [Registered, Option.isSome_iff_exists])

instance (session : Uuid) (s : Platform) (job : JobId) :
    Decidable (∃ a, s.system.attempts.get? job = some a ∧ a.session = session) :=
  decidable_of_iff ((s.system.attempts.get? job).any (fun a => a.session = session) = true)
    (by simp [Option.any_eq_true])

instance (session : Uuid) (s : Platform) :
    (label : Platform.Label) → Decidable (OnBehalf session s label)
  | .system (.request auth target _) | .patchSession auth target _ | .deleteSession auth target =>
      inferInstanceAs (Decidable (target = session ∧ OwnsSession s.system.db auth session))
  | .system (.advance job _) =>
      inferInstanceAs (Decidable (∃ a, s.system.attempts.get? job = some a ∧ a.session = session))
  | .createSession _ target _ =>
      inferInstanceAs (Decidable (target = session ∧ ¬Registered s session))
  | .system (.start _) | .system (.settle _) | .system (.die _) | .system (.reap _)
  | .system (.due _) | .system (.expire _) | .createPj _ _ _ _ | .updatePj _ _ _ | .accounts _
  | .stop _ => inferInstanceAs (Decidable False)

instance (session : Uuid) (s : Platform) :
    (label : Platform.Label) → Decidable (Unread session s label)
  | .createPj _ pj _ _ | .updatePj _ pj _ =>
      inferInstanceAs (Decidable (takesPart s.system.db session pj = false))
  | .accounts accounts =>
      inferInstanceAs (Decidable (_ ∧ ∀ user ∈ resolveSessionOwnerId s.system.db session,
        accounts.modelSettings.get? user = s.system.db.modelSettings.get? user))
  | .system _ | .createSession _ _ _ | .patchSession _ _ _ | .deleteSession _ _ | .stop _ =>
      inferInstanceAs (Decidable True)

instance (job : JobId) (session : Uuid) (s : Platform) (label : Platform.Label) :
    Decidable (Spares job session s label) :=
  inferInstanceAs (Decidable (reactionOf job label = none →
    ¬OnBehalf session s label ∧ assigns label ≠ some job ∧ Unread session s label))

deriving instance DecidableEq for Others

def uploaded : List Platform.Label :=
  [.createSession gameMaster 1 ⟨1, some .nonDiarised, none, unset_bounded⟩,
    .system (.request gameMaster 1 (.postAudio smallUpload none))]

def neighbourUpload : List Platform.Label :=
  [.createSession ⟨9, .apiKey, none⟩ 2 ⟨1, some .nonDiarised, none, unset_bounded⟩,
    .system (.request ⟨9, .apiKey, none⟩ 2 (.postAudio smallUpload none))]

def steps (job n : Nat) (reply : Text) : List Platform.Label :=
  List.replicate n (.system (.advance job (replying reply)))

/-- Another key tries to delete the session, and its own transcription begins and ends between the
steps of the first. -/
def interleaved : List Platform.Label :=
  steps 1 3 ['x'] ++ .deleteSession ⟨9, .apiKey, none⟩ 1 :: .system (.start 2) ::
    steps 2 4 ['y'] ++ steps 1 5 ['x'] ++ steps 2 16 ['y'] ++ .system (.settle 2) ::
      steps 1 12 ['x']

theorem drawn_interleaved : Visits (Platform.step sampleEnvironment)
    (ChunksDrawn fun chunk => if chunk = 1 then 2 else 1) .initial
    ((uploaded ++ neighbourUpload) ++ .system (.start 1) :: interleaved) := by
  have drawn : Visits (Platform.step sampleEnvironment)
      (fun s => ∀ row ∈ s.system.db.chunks.rows, (if row.id = 1 then 2 else 1) = row.sessionId)
      .initial ((uploaded ++ neighbourUpload) ++ .system (.start 1) :: interleaved) := by
    decide +kernel
  exact drawn

theorem alike_uploaded : AlikeTo .transcription none 1
    (final (Platform.step sampleEnvironment) .initial (uploaded ++ neighbourUpload)).system.db
    (final (Platform.step sampleEnvironment) .initial uploaded).system.db where
  rows := ⟨by decide +kernel, by decide +kernel, fun other => (other rfl).elim⟩
  owner := by decide +kernel
  settings := fun _ named => by cases named
  characters := by decide +kernel

theorem job_as_alone_interleaved :
    let db := (final (Platform.step sampleEnvironment) .initial uploaded).system.db
    let started := final (Platform.step sampleEnvironment) .initial
      ((uploaded ++ neighbourUpload) ++ [.system (.start 1)])
    let reached := final (Platform.step sampleEnvironment) .initial
      ((uploaded ++ neighbourUpload) ++ .system (.start 1) :: interleaved)
    let stage := alone (interleaved.filterMap (reactionOf 1))
      (jobProgram sampleEnvironment .transcription 1) db
    (∃ a, reached.system.attempts.get? 1 = some a ∧ a.program = stage.program) ∧
      Matches .transcription (Database.rowsOf reached.system.db 1)
        (Database.rowsOf stage.state 1) ∧
      (hosting sampleEnvironment 1).events started interleaved = stage.events := by
  have queued : (final (Platform.step sampleEnvironment) .initial
      (uploaded ++ neighbourUpload)).system.rq.get? 1 = some ⟨1, .transcription, 1, .queued, 3⟩ := by
    decide +kernel
  have spares : Along (Platform.step sampleEnvironment) (Spares 1 1)
      (final (Platform.step sampleEnvironment) .initial
        ((uploaded ++ neighbourUpload) ++ [.system (.start 1)])) interleaved := by decide +kernel
  exact @job_as_alone sampleEnvironment (fun chunk => if chunk = 1 then 2 else 1)
    (uploaded ++ neighbourUpload) interleaved 1 ⟨1, .transcription, 1, .queued, 3⟩ none
    (final (Platform.step sampleEnvironment) .initial uploaded).system.db drawn_interleaved queued
    rfl alike_uploaded spares

end Kaeyris.Proof
