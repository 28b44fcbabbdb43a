import Kaeyris.Lib.Possibility
import Kaeyris.Proof.Bystanders
import Kaeyris.Proof.Redelivery
import Kaeyris.Proof.Reset
import Kaeyris.Proof.Runnable
import Kaeyris.Proof.Seclusion
import Kaeyris.Proof.Wedged

/-!
# A transcript can still be had

From every reachable state in which a session's audio is not lost, its game master and the workers
of its jobs can bring it to a transcript, whatever the provider answers: by uploading audio, by
recovering a transcription that hangs, by restarting one that failed. The exceptions are a session in
`audio_uploaded` that RQ has given up, and one whose audio file is no longer on the disk. What the
workers find there is a parameter: the runs of `Platform` do not keep the files.
-/

namespace Kaeyris.Proof
open Lib Jobs Process Platform Router

/-- A transcription of the session that RQ hands to a worker, or can be brought to hand to one. -/
def Pending (rq : Rq) (session : Uuid) : Prop :=
  ∃ job row, rq.get? job = some row ∧ row.func = .transcription ∧ row.sessionId = session ∧
    (row.status = .queued ∨ row.status = .scheduled ∨
      row.status = .started ∧ 0 < row.retriesLeft)

/-- Audio can be uploaded, or is there and can be transcribed. -/
def Recoverable (s : Platform) (session : Uuid) : Prop :=
  (view s.system.db session).audio = none ∨
    (view s.system.db session).audio = some none ∧
      ((view s.system.db session).state ≠ some .audioUploaded ∨ Pending s.system.rq session)

/-- A worker that looks for the session's file finds it: the one that its audio row names, or the one
that an upload writes. -/
def OnDisk (finds : AudioPath → Bool) (session : Uuid) (db : Database) : Prop :=
  finds (((db.audioSources.get? session).map AudioSource.path).getD (.raw session)) = true

instance (finds : AudioPath → Bool) (session : Uuid) (db : Database) :
    Decidable (OnDisk finds session db) := inferInstanceAs (Decidable (_ = true))

def Request.transcribes : Request → Bool
  | .postAudio _ _ | .recoverStuckTranscription | .restartTranscription => true
  | _ => false

structure Audible (finds : AudioPath → Bool) (session : Uuid) (db : Database) : Prop where
  unpurged : (view db session).audio = some none
  onDisk : OnDisk finds session db

theorem Audible.congr {finds : AudioPath → Bool} {session : Uuid} {db after : Database}
    (audible : Audible finds session db) (same : after.audioSources = db.audioSources) :
    Audible finds session after := by
  obtain ⟨unpurged, onDisk⟩ := audible
  unfold view at unpurged
  unfold OnDisk at onDisk
  refine ⟨?_, ?_⟩
  · unfold view
    rw [same]
    exact unpurged
  · unfold OnDisk
    rw [same]
    exact onDisk

def Undeferred (rq : Rq) : Prop := ∀ row ∈ rq.rows, row.status ≠ .deferred

section Undeferred
variable {rq : Rq}

theorem Undeferred.move (kept : Undeferred rq) (job : JobId) (status : RqJob → RqStatus)
    (retries : RqJob → Nat) (moved : ∀ row, status row ≠ .deferred) :
    Undeferred (rq.update (fun row => row.id = job)
      (fun row => { row with status := status row, retriesLeft := retries row }) fun _ => rfl) := by
  intro row' member
  obtain ⟨row, before, rfl⟩ := List.mem_map.mp member
  split
  · exact moved row
  · exact kept row before

theorem Undeferred.fail (kept : Undeferred rq) (job : JobId) : Undeferred (rq.fail job) := by
  apply kept.move job (fun row => if 0 < row.retriesLeft then .scheduled else .failed)
    (fun row => row.retriesLeft - 1)
  intro row
  split
  · exact RqStatus.noConfusion
  · exact RqStatus.noConfusion

theorem Undeferred.forget (kept : Undeferred rq) (job : JobId) : Undeferred (rq.forget job) :=
  fun row member => kept row (List.mem_of_mem_filter member)

theorem Undeferred.abort (kept : Undeferred rq) (row : Session) :
    Undeferred (Logic.abortActiveSessionJob rq row).1 := by
  rcases abortActiveSessionJob_cases rq row with same | ⟨canceled, -, -, same⟩
  · rw [same]
    exact kept
  · rw [same]
    exact kept.move canceled.id (fun _ => .canceled) RqJob.retriesLeft
      fun _ => RqStatus.noConfusion

theorem undeferred_bookkeeping {env : Environment} {s : System} (kept : Undeferred s.rq)
    {label : Label} (kind : bookkeeping label = true) : Undeferred (s.step env label).rq := by
  have moves (job : JobId) (status : RqStatus) (other : status ≠ .deferred) :
      Undeferred (s.rq.update (fun row => row.id = job) fun row => { row with status := status }) :=
    kept.move job (fun _ => status) RqJob.retriesLeft fun _ => other
  cases label with
  | request auth session request => cases kind
  | advance job reaction => cases kind
  | start job =>
      rw [System.step, System.start]
      split
      · split
        · exact moves job .started (by decide)
        · exact kept
      · exact kept
  | settle job =>
      rw [System.step, System.settle]
      split
      · exact kept
      · split
        · exact moves job .finished (by decide)
        · exact kept.fail job
        · exact kept
  | die job => exact kept
  | reap job =>
      rw [System.step, System.reap]
      split
      · exact kept.fail job
      · exact kept
  | due job =>
      rw [System.step, System.due]
      split
      · exact moves job .queued (by decide)
      · exact kept
  | expire job =>
      rw [System.step, System.expire]
      split
      case h_5 => exact kept.forget job
      all_goals exact kept

theorem undeferred_step (env : Environment) {s : Platform} (kept : Undeferred s.system.rq)
    (label : Platform.Label) : Undeferred (Platform.step env s label).system.rq := by
  have unmoved (result : Except AppError Database) : Undeferred (s.commit result).system.rq := by
    cases result with
    | error e => exact kept
    | ok db => exact kept
  cases label with
  | system label =>
      rw [Platform.step]
      cases label with
      | request auth session request =>
          refine request_keeps (P := fun t => Undeferred t.rq) kept fun accepted handled => ?_
          obtain ⟨-, enqueues⟩ := handle_ok handled
          rw [request_ok handled]
          intro row member
          rcases enqueues_get? enqueues (Table.get?_self member) with ⟨before, -⟩ | ⟨_, -, -, new⟩
          · exact kept row (Table.mem_of_get? before)
          · rw [new]
            exact RqStatus.noConfusion
      | advance job reaction =>
          refine @advance_keeps (fun t => Undeferred t.rq) env s.system kept job reaction
            fun a running => ?_
          rw [advance_eq running]
          exact kept
      | start job | settle job | die job | reap job | due job | expire job =>
          exact undeferred_bookkeeping kept rfl
  | createSession auth session payload =>
      simp only [Platform.step, Platform.createSession]
      split
      · exact kept
      · split
        · exact kept
        · exact kept
  | deleteSession auth session =>
      simp only [Platform.step, Platform.deleteSession]
      split
      · rename_i done
        obtain ⟨row, -, -, -, aborted⟩ := deleteSession_ok done
        have rq := congrArg Prod.fst aborted
        dsimp only at rq ⊢
        rw [rq]
        exact kept.abort row
      · exact kept
  | patchSession auth session payload => exact unmoved _
  | createPj auth pj payload campaign => exact unmoved _
  | updatePj auth pj payload => exact unmoved _
  | accounts accounts => exact kept
  | stop job =>
      simp only [Platform.step, Platform.stop]
      split
      · exact kept.move job (fun _ => .stopped) RqJob.retriesLeft fun _ => RqStatus.noConfusion
      · exact kept

end Undeferred

/-! ## What stays on the way -/

/-- The columns that never change, and what belongs to no session. -/
structure Standing (session : Uuid) (db after : Database) : Prop where
  columns : (after.sessions.get? session).map fixedColumns =
    (db.sessions.get? session).map fixedColumns
  accounts : Database.accounts after = Database.accounts db

theorem Standing.refl (session : Uuid) (db : Database) : Standing session db db := ⟨rfl, rfl⟩

theorem Standing.trans {session : Uuid} {db after later : Database}
    (first : Standing session db after) (second : Standing session after later) :
    Standing session db later :=
  ⟨second.columns.trans first.columns, second.accounts.trans first.accounts⟩

section Standing
variable {session : Uuid} {db after : Database} (standing : Standing session db after)
include standing

theorem Standing.modelSettings :
    sessionModelSettings after session = sessionModelSettings db session := by
  have settings := congrArg Accounts.modelSettings standing.accounts
  change after.modelSettings = db.modelSettings at settings
  unfold sessionModelSettings
  rw [resolveSessionOwnerId_congr standing.columns standing.accounts]
  cases resolveSessionOwnerId db session with
  | none => rfl
  | some user =>
      rw [Option.bind_some, Option.bind_some, ModelSettingsRepository.getForUser,
        ModelSettingsRepository.getForUser, settings]

theorem Standing.requireSession {auth : AuthenticatedKey} {row : Session}
    (allowed : requireSession db session auth = .ok row) :
    ∃ row', Router.requireSession after session auth = .ok row' ∧
      row'.transcriptionMode = row.transcriptionMode := by
  have members := congrArg Accounts.campaignMembers standing.accounts
  change after.campaignMembers = db.campaignMembers at members
  have same := standing.columns
  rw [requireSession_ok allowed] at same
  obtain ⟨row', found, columns⟩ := Option.map_eq_some_iff.mp same
  simp only [fixedColumns, Prod.mk.injEq] at columns
  obtain ⟨key, campaign, mode⟩ := columns
  refine ⟨row', ?_, mode⟩
  have before : SessionRepository.getForGm db session auth.id none = some row :=
    requireSession_getForGm allowed
  have own : SessionRepository.getForGm after session auth.id none = some row' := by
    unfold SessionRepository.getForGm
    rw [found]
    exact Option.filter_eq_some_iff.mpr ⟨rfl, by simp [key, requireSession_owned allowed]⟩
  have resolved : resolveSessionForGm after session auth true =
      (resolveSessionForGm db session auth true).map fun _ => row' := by
    unfold resolveSessionForGm CampaignRepository.getMembership
    rw [before, own, members]
    dsimp only
    rw [campaign]
    split
    · split
      · rfl
      · split <;> rfl
    · rfl
  unfold Router.requireSession at allowed ⊢
  rw [resolved]
  split at allowed
  · rename_i same
    rw [same]
    rfl
  · cases allowed

end Standing

structure Steady (s : Platform) : Prop where
  founded : Founded s
  coherent : Coherent s
  undeferred : Undeferred s.system.rq

theorem Steady.step {s : Platform} (steady : Steady s) (env : Environment) (label : Platform.Label) :
    Steady (Platform.step env s label) where
  founded := founded_step env steady.founded label
  coherent := coherent_step steady.founded steady.coherent label
  undeferred := undeferred_step env steady.undeferred label

/-- The game master may act on the session, and its model settings give an adapter. -/
structure Ready (env : Environment) (auth : AuthenticatedKey) (session : Uuid)
    (mode : TranscriptionMode) (s : Platform) : Prop where
  steady : Steady s
  admitted : ∃ row, requireSession s.system.db session auth = .ok row ∧
    row.transcriptionMode = mode
  adapts : ∃ choice, transcriptionChoiceForUser env.settings
    (sessionModelSettings s.system.db session) = .ok choice

section Ways
variable {env : Environment} {finds : AudioPath → Bool} {auth : AuthenticatedKey} {session : Uuid}
  {mode : TranscriptionMode} {s : Platform}

theorem Ready.step (ready : Ready env auth session mode s) {label : Platform.Label}
    (standing : Standing session s.system.db (Platform.step env s label).system.db) :
    Ready env auth session mode (Platform.step env s label) where
  steady := ready.steady.step env label
  admitted := by
    obtain ⟨row, allowed, same⟩ := ready.admitted
    obtain ⟨row', allowed', kept⟩ := standing.requireSession allowed
    exact ⟨row', allowed', kept.trans same⟩
  adapts := by
    rw [standing.modelSettings]
    exact ready.adapts

/-! ## RQ and the workers -/

/-- A job of the session as RQ has it, in a state that differs from another one in the queue only. -/
structure Queues (env : Environment) (auth : AuthenticatedKey) (session : Uuid)
    (mode : TranscriptionMode) (db : Database) (row : RqJob) (s : Platform) : Prop where
  ready : Ready env auth session mode s
  db : s.system.db = db
  found : s.system.rq.get? row.id = some row
  own : row.sessionId = session

variable {db : Database} {row row' : RqJob}

theorem Ready.bookkeeping (ready : Ready env auth session mode s) {label : Label}
    (kind : bookkeeping label = true) :
    Ready env auth session mode (Platform.step env s (.system label)) ∧
      (Platform.step env s (.system label)).system.db = s.system.db := by
  have keeps : Bookkeeping env s.system (s.system.step env label) :=
    bookkeeping_step ready.steady.founded.sound.linked kind
  have same : (Platform.step env s (.system label)).system.db = s.system.db := keeps.db
  refine ⟨ready.step ?_, same⟩
  rw [same]
  exact .refl session _

theorem Queues.next (here : Queues env auth session mode db row s) (label : Label)
    (kind : bookkeeping label = true) (same : row'.sessionId = row.sessionId)
    (found : (s.system.step env label).rq.get? row'.id = some row') :
    Queues env auth session mode db row' (Platform.step env s (.system label)) := by
  obtain ⟨ready, kept⟩ := here.ready.bookkeeping kind
  exact ⟨ready, kept.trans here.db, found, same.trans here.own⟩

theorem Queues.idle (here : Queues env auth session mode db row s)
    (free : s.system.attempts.get? row.id = none) :
    s.system.idleStatus row.id = some row.status := by
  unfold System.idleStatus
  rw [free, here.found]
  rfl

theorem Ready.stored (ready : Ready env auth session mode s) :
    ∃ row, s.system.db.sessions.get? session = some row ∧ row.transcriptionMode = mode := by
  obtain ⟨row, allowed, same⟩ := ready.admitted
  exact ⟨row, requireSession_ok allowed, same⟩

end Ways

end Kaeyris.Proof
