import Kaeyris.Proof.Deleted
import Kaeyris.Proof.Recoverable

/-!
# Sessions that are lost for good

A session that is not `Recoverable` gets no transcript any more: its audio was purged, or RQ gave it
up in `audio_uploaded`. Its audio row refuses every upload, its state or its audio every
restart, and a job that is left fails before it writes.
-/

namespace Kaeyris.Proof
open Lib Jobs Process Platform Router

/-- No worker is in the middle of a transcription of the session. -/
def AtRest (s : Platform) (session : Uuid) : Prop :=
  ∀ job a, s.system.attempts.get? job = some a → a.kind = .transcription → a.session = session →
    a.program.finished = true

/-- No upload and no restart is accepted, and no worker is about to store a transcript. -/
structure Lost (env : Environment) (session : Uuid) (s : Platform) : Prop where
  uploads : ∀ auth upload duration, ∃ e, Request.handle env s.system.db s.system.rq auth session
    (.postAudio upload duration) = .error e
  restarts : ∀ auth, ∃ e, Request.handle env s.system.db s.system.rq auth session
    .restartTranscription = .error e
  stores : ∀ job a reaction, s.system.attempts.get? job = some a → a.kind = .transcription →
    a.session = session → a.program.commits reaction ≠ some .persist

/-! ## Sessions without hope -/

inductive Hopeless (rq : Rq) (session : Uuid) (v : View) : Prop
  | gone (state : v.state = none) (audio : v.audio = none)
  | purged (purgedAt : Timestamp) (audio : v.audio = some (some purgedAt))
  | abandoned (state : v.state = some .audioUploaded) (audio : v.audio = some none)
      (served : ¬Pending rq session)

/-- The attempt has ended, or has yet to find that there is nothing to transcribe. -/
def Spent (env : Environment) (v : View) (a : Attempt) : Prop :=
  a.program.finished = true ∨ a.program = jobProgram env .transcription a.session ∧
    v.audio ≠ some none

structure Doomed (env : Environment) (session : Uuid) (s : Platform) : Prop where
  registered : Registered s session
  hopeless : Hopeless s.system.rq session (view s.system.db session)
  held : ∀ job a, s.system.attempts.get? job = some a → a.kind = .transcription →
    a.session = session → Spent env (view s.system.db session) a

theorem beginTranscription_refuses {session : Uuid} {db : Database}
    (unheard : (view db session).audio ≠ some none) :
    ∃ e, beginTranscription session db = .error e := by
  cases begins : beginTranscription session db with
  | error e => exact ⟨e, rfl⟩
  | ok pair =>
      obtain ⟨row, audio, -, found, unpurged, -⟩ := beginTranscription_ok begins
      have heard : (view db session).audio = some audio.purgedAt := congrArg (Option.map _) found
      rw [unpurged] at heard
      exact (unheard heard).elim

theorem Spent.step {env : Environment} {db : Database} {a : Attempt}
    (spent : Spent env (view db a.session) a) (reaction : Reaction effects) :
    (a.program.step reaction db).2 = db ∧ (a.program.step reaction db).1.finished = true ∧
      a.program.commits reaction ≠ some .persist := by
  rcases spent with ended | ⟨untouched, unheard⟩
  · obtain ⟨same, commits⟩ := step_of_finished ended reaction db
    rw [same, commits]
    exact ⟨rfl, ended, by simp⟩
  · obtain ⟨e, refuses⟩ := beginTranscription_refuses unheard
    rw [untouched]
    change ((transcribeSession env a.session true).step reaction db).2 = db ∧
      ((transcribeSession env a.session true).step reaction db).1.finished = true ∧
        (transcribeSession env a.session true).commits reaction ≠ some .persist
    rw [transcribeSession_eq]
    simp only [Process.atomically, Process.bind, Process.step, Process.commits, refuses]
    cases reaction.fails .begin with
    | none => exact ⟨rfl, rfl, by simp⟩
    | some failure => exact ⟨rfl, rfl, by simp⟩

/-! ## RQ takes nothing up again -/

section Pending
variable {rq : Rq} {session : Uuid}

theorem pending_move {moved : RqJob} (found : rq.get? moved.id = some moved) (status : RqJob → RqStatus)
    (retries : RqJob → Nat)
    (back : status moved = .queued ∨ status moved = .scheduled ∨
        status moved = .started ∧ 0 < retries moved →
      moved.status = .queued ∨ moved.status = .scheduled ∨
        moved.status = .started ∧ 0 < moved.retriesLeft)
    (pending : Pending (rq.update (fun row => row.id = moved.id)
      (fun row => { row with status := status row, retriesLeft := retries row }) fun _ => rfl)
        session) : Pending rq session := by
  obtain ⟨job, row', present, func, own, waits⟩ := pending
  rw [Table.get?_update_key] at present
  split at present
  · rename_i same
    rw [same, found] at present
    cases present
    exact ⟨moved.id, moved, found, func, own, back waits⟩
  · exact ⟨job, row', present, func, own, waits⟩

theorem pending_forget {job : JobId} (pending : Pending (rq.forget job) session) :
    Pending rq session := by
  obtain ⟨other, row, present, facts⟩ := pending
  by_cases same : other = job
  · have gone := (Table.get?_delete_key rq (fun row => row.id = job) (fun key => key = job)
      (fun _ => rfl) other).trans (if_pos (by simpa using same))
    cases present.symm.trans gone
  · exact ⟨other, row, (get?_forget_elsewhere rq job other same) ▸ present, facts⟩

theorem pending_fail {moved : RqJob} (found : rq.get? moved.id = some moved)
    (started : moved.status = .started) (pending : Pending (rq.fail moved.id) session) :
    Pending rq session := by
  refine pending_move found (fun row => if 0 < row.retriesLeft then .scheduled else .failed)
    (fun row => row.retriesLeft - 1) (fun waits => .inr (.inr ⟨started, ?_⟩)) pending
  by_contra none
  simp [none] at waits

theorem pending_bookkeeping {env : Environment} {s : System} (linked : Linked s) {label : Label}
    (kind : bookkeeping label = true) (pending : Pending (s.step env label).rq session) :
    Pending s.rq session := by
  cases label with
  | request auth session request => cases kind
  | advance job reaction => cases kind
  | start job =>
      rw [System.step, System.start] at pending
      split at pending
      · rename_i row found
        obtain rfl : row.id = job := Table.key_of_get? found
        split at pending
        · rename_i queued
          exact pending_move found (fun _ => .started) RqJob.retriesLeft (fun _ => .inl queued)
            pending
        · exact pending
      · exact pending
  | settle job =>
      rw [System.step, System.settle] at pending
      split at pending
      · exact pending
      · rename_i a running
        obtain ⟨row, found, started, -⟩ := linked job a running
        obtain rfl : row.id = job := Table.key_of_get? found
        split at pending
        · exact pending_move found (fun _ => .finished) RqJob.retriesLeft (fun waits => by simp at waits)
            pending
        · exact pending_fail found started pending
        · exact pending
  | die job => exact pending
  | reap job =>
      rw [System.step, System.reap] at pending
      split at pending
      · rename_i idle
        obtain ⟨-, row, found, started⟩ := idleStatus_some idle
        obtain rfl : row.id = job := Table.key_of_get? found
        exact pending_fail found started pending
      · exact pending
  | due job =>
      rw [System.step, System.due] at pending
      split at pending
      · rename_i idle
        obtain ⟨-, row, found, scheduled⟩ := idleStatus_some idle
        obtain rfl : row.id = job := Table.key_of_get? found
        exact pending_move found (fun _ => .queued) RqJob.retriesLeft
          (fun _ => .inr (.inl scheduled)) pending
      · exact pending
  | expire job =>
      rw [System.step, System.expire] at pending
      split at pending
      case h_5 => exact pending_forget pending
      all_goals exact pending

end Pending

/-! ## Steps -/

section Steps
variable {env : Environment} {s s' : Platform} {session : Uuid}

theorem Hopeless.keeps {rq rq' : Rq} {v v' : View} (hopeless : Hopeless rq session v)
    (state : v'.state = v.state) (audio : v'.audio = v.audio)
    (pending : Pending rq' session → Pending rq session) : Hopeless rq' session v' := by
  cases hopeless with
  | gone absent free => exact .gone (state.trans absent) (audio.trans free)
  | purged purgedAt dropped => exact .purged purgedAt (audio.trans dropped)
  | abandoned uploaded unpurged served =>
      exact .abandoned (state.trans uploaded) (audio.trans unpurged) fun again => served (pending again)

theorem Doomed.keeps (doomed : Doomed env session s) (registered : Registered s' session)
    (state : (view s'.system.db session).state = (view s.system.db session).state)
    (audio : (view s'.system.db session).audio = (view s.system.db session).audio)
    (pending : Pending s'.system.rq session → Pending s.system.rq session)
    (held : ∀ job a, s'.system.attempts.get? job = some a → a.kind = .transcription →
      a.session = session → Spent env (view s.system.db session) a) : Doomed env session s' where
  registered := registered
  hopeless := doomed.hopeless.keeps state audio pending
  held := fun job a running kind own => by
    unfold Spent
    rw [audio]
    exact held job a running kind own

theorem attempts_bookkeeping {s : System} {label : Kaeyris.Label} (kind : bookkeeping label = true)
    {job : JobId} {a : Attempt} (running : (s.step env label).attempts.get? job = some a) :
    s.attempts.get? job = some a ∨ ∃ row, s.rq.get? job = some row ∧ row.status = .queued ∧
      a = ⟨job, row.func, row.sessionId, jobProgram env row.func row.sessionId, none, none⟩ := by
  cases label with
  | request auth session request => cases kind
  | advance job reaction => cases kind
  | start taken =>
      rw [System.step, System.start] at running
      split at running
      · rename_i row found
        split at running
        · rename_i queued
          rw [Table.get?_put] at running
          split at running
          · rename_i same
            cases running
            obtain rfl : taken = job := same
            exact .inr ⟨row, found, queued, rfl⟩
          · exact .inl running
        · exact .inl running
      · exact .inl running
  | settle ended =>
      rw [System.step, System.settle] at running
      split at running
      · exact .inl running
      · split at running
        · exact .inl (mem_deleteAttempt running).1
        · exact .inl (mem_deleteAttempt running).1
        · exact .inl running
  | die lost => exact .inl (mem_deleteAttempt running).1
  | reap ended =>
      rw [System.step, System.reap] at running
      split at running
      · exact .inl running
      · exact .inl running
  | due waited =>
      rw [System.step, System.due] at running
      split at running
      · exact .inl running
      · exact .inl running
  | expire lost =>
      rw [System.step, System.expire] at running
      split at running
      all_goals exact .inl running

theorem doomed_bookkeeping (founded : Founded s) (doomed : Doomed env session s)
    {label : Kaeyris.Label} (kept : bookkeeping label = true) :
    Doomed env session (Platform.step env s (.system label)) := by
  have keeps : Bookkeeping env s.system (s.system.step env label) :=
    bookkeeping_step founded.sound.linked kept
  have db : (Platform.step env s (.system label)).system.db = s.system.db := keeps.db
  refine doomed.keeps doomed.registered (by rw [db]) (by rw [db])
    (pending_bookkeeping founded.sound.linked kept) fun job a running kind own => ?_
  rcases attempts_bookkeeping kept running with before | ⟨row, found, queued, rfl⟩
  · exact doomed.held job a before kind own
  · refine .inr ⟨congrArg (fun func => jobProgram env func row.sessionId) kind, fun unpurged => ?_⟩
    have waits : Pending s.system.rq session := ⟨job, row, found, kind, own, .inl queued⟩
    cases doomed.hopeless with
    | gone absent free => cases free.symm.trans unpurged
    | purged purgedAt dropped => cases dropped.symm.trans unpurged
    | abandoned uploaded _ served => exact served waits

theorem doomed_advance (founded : Founded s) (doomed : Doomed env session s) (job : JobId)
    (reaction : Reaction effects) :
    Doomed env session (Platform.step env s (.system (.advance job reaction))) := by
  refine @advance_keeps (fun t => Doomed env session { s with system := t }) env s.system doomed job
    reaction fun a running => ?_
  have rq : (s.system.advance job reaction).rq = s.system.rq := by rw [advance_eq running]
  have frame := founded.sound.advance_frame running reaction (within_trivial s.system.db) session
  have audio : (view (s.system.advance job reaction).db session).audio =
      (view s.system.db session).audio := by rw [frame]
  have spent (own : a.kind = .transcription ∧ a.session = session) :
      Spent env (view s.system.db a.session) a := by
    rw [own.2]
    exact doomed.held job a running own.1 own.2
  have state : (view (s.system.advance job reaction).db session).state =
      (view s.system.db session).state := by
    by_cases own : a.kind = .transcription ∧ a.session = session
    · have same : (s.system.advance job reaction).db = s.system.db := by
        rw [advance_eq running]
        exact ((spent own).step reaction).1
      rw [same]
    · rcases founded.sound.commits running reaction (within_trivial s.system.db) with
        ⟨tx, -, change⟩ | ⟨-, same⟩
      · rcases jobGuarantee_state change session with same | ⟨kind, target, -⟩
        · exact same
        · exact (own ⟨kind, target.symm⟩).elim
      · rw [same]
  refine doomed.keeps doomed.registered state audio (by rw [rq]; exact id)
    fun other b present kind own => ?_
  dsimp only at present
  rw [attempts_advance running reaction other] at present
  split at present
  · cases present
    exact .inl ((spent ⟨kind, own⟩).step reaction).2.1
  · exact doomed.held other b present kind own

theorem hopeless_accepted {rq : Rq} {job : Option JobId} {v v' : View} {request : Request}
    (hopeless : Hopeless rq session v) (present : v.state ≠ none)
    (changes : request.changes rq session job v v') :
    request.enqueues ≠ some .transcription ∧
      (v'.state = v.state ∧ v'.audio = v.audio ∨ ∃ purgedAt, v'.audio = some (some purgedAt)) := by
  have heard : v.audio ≠ none := by
    cases hopeless with
    | gone absent free => exact (present absent).elim
    | purged purgedAt dropped => rw [dropped]; exact Option.some_ne_none _
    | abandoned uploaded unpurged served => rw [unpurged]; exact Option.some_ne_none _
  cases request with
  | postAudio upload duration => exact (heard changes.1).elim
  | deleteAudio now =>
      obtain ⟨-, rfl⟩ := changes
      obtain ⟨purgedAt, same⟩ := Option.ne_none_iff_exists'.mp heard
      exact ⟨by simp [Request.enqueues], .inr ⟨purgedAt.getD now, by simp [View.purged, same]⟩⟩
  | recoverStuckTranscription =>
      obtain ⟨transcribing, -, rfl⟩ := changes
      refine ⟨by simp [Request.enqueues], .inr ?_⟩
      cases hopeless with
      | gone absent free => exact (heard free).elim
      | purged purgedAt dropped => exact ⟨purgedAt, dropped⟩
      | abandoned uploaded _ _ => cases uploaded.symm.trans transcribing
  | restartTranscription =>
      obtain ⟨settled, unpurged, -⟩ := changes
      cases hopeless with
      | gone absent free => exact (heard free).elim
      | purged purgedAt dropped => cases dropped.symm.trans unpurged
      | abandoned uploaded _ _ =>
          rw [uploaded] at settled
          cases settled
  | _ => exact ⟨by simp [Request.enqueues], .inl (changes_still changes rfl)⟩

theorem doomed_request (doomed : Doomed env session s)
    (auth : AuthenticatedKey) (target : Uuid) (request : Request) :
    Doomed env session (Platform.step env s (.system (.request auth target request))) := by
  refine request_keeps (P := fun t => Doomed env session { s with system := t }) doomed
    fun accepted handled => ?_
  obtain ⟨⟨others, changes⟩, enqueues⟩ := handle_ok handled
  rw [request_ok handled]
  by_cases own : target = session
  · subst own
    obtain ⟨-, row, stored, -⟩ := handle_adds handled
    have present : (view s.system.db target).state ≠ none := by
      rw [(view_row stored).1]
      exact Option.some_ne_none row.state
    obtain ⟨other, effect⟩ := hopeless_accepted doomed.hopeless present changes
    have pending (again : Pending accepted.rq target) : Pending s.system.rq target := by
      obtain ⟨job, row', found, func, facts⟩ := again
      rcases enqueues_get? enqueues found with ⟨before, -⟩ | ⟨kind, enqueued, -, rfl⟩
      · exact ⟨job, row', before, func, facts⟩
      · exact (other (enqueued.trans (congrArg some func))).elim
    rcases effect with ⟨state, audio⟩ | ⟨purgedAt, dropped⟩
    · exact doomed.keeps doomed.registered state audio pending doomed.held
    · refine ⟨doomed.registered, .purged purgedAt dropped, fun job a running kind own => ?_⟩
      rcases doomed.held job a running kind own with ended | ⟨untouched, -⟩
      · exact .inl ended
      · refine .inr ⟨untouched, ?_⟩
        rw [dropped]
        intro impossible
        cases impossible
  · have same : view accepted.db session = view s.system.db session := others session (Ne.symm own)
    refine doomed.keeps doomed.registered (congrArg View.state same) (congrArg View.audio same)
      (fun again => ?_) doomed.held
    obtain ⟨job, row', found, func, owner, waits⟩ := again
    rcases enqueues_get? enqueues found with ⟨before, -⟩ | ⟨kind, -, -, rfl⟩
    · exact ⟨job, row', before, func, owner, waits⟩
    · exact (own owner).elim

theorem doomed_commit (doomed : Doomed env session s) {result : Except AppError Database}
    (keeps : ∀ db, result = .ok db →
      (view db session).state = (view s.system.db session).state ∧
        (view db session).audio = (view s.system.db session).audio) :
    Doomed env session (s.commit result) := by
  cases result with
  | error e => exact doomed
  | ok db =>
      obtain ⟨state, audio⟩ := keeps db rfl
      exact doomed.keeps doomed.registered state audio id doomed.held

theorem doomed_createSession (doomed : Doomed env session s) (auth : AuthenticatedKey)
    (target : Uuid) (payload : SessionCreate) :
    Doomed env session (Platform.step env s (.createSession auth target payload)) := by
  by_cases own : target = session
  · rw [own, absent_created doomed.registered]
    exact doomed
  · obtain ⟨first, recorded⟩ := doomed.registered
    have registered : Registered (Platform.step env s (.createSession auth target payload)) session :=
      ⟨first, recorded_step _ recorded⟩
    simp only [Platform.step, Platform.createSession] at registered ⊢
    split
    · exact doomed
    · rename_i created drawn
      split
      · rename_i db done
        simp only [drawn, done] at registered
        obtain ⟨sessions, added, rfl⟩ := createSession_ok done
        have cell : sessions.get? session = s.system.db.sessions.get? session :=
          (Table.get?_insert? added session).trans (if_neg own)
        refine doomed.keeps registered ?_ rfl id doomed.held
        unfold view
        dsimp only
        rw [cell]
      · exact doomed

theorem doomed_deleteSession (doomed : Doomed env session s) (auth : AuthenticatedKey)
    (target : Uuid) : Doomed env session (Platform.step env s (.deleteSession auth target)) := by
  simp only [Platform.step, Platform.deleteSession]
  split
  · rename_i db rq stopped done
    obtain ⟨row, stored, -, rfl, aborted⟩ := deleteSession_ok done
    have queue : rq = (Logic.abortActiveSessionJob s.system.rq row).1 := congrArg Prod.fst aborted
    by_cases own : target = session
    · subst own
      have free : (view (SessionRepository.delete s.system.db target) target).audio = none := by
        unfold view
        rw [get?_deletedAudio, if_pos rfl]
        rfl
      refine ⟨doomed.registered, .gone ?_ free, fun job a running kind own => ?_⟩
      · unfold view
        rw [get?_deleted, if_pos rfl]
        rfl
      · rcases doomed.held job a running kind own with ended | ⟨untouched, -⟩
        · exact .inl ended
        · refine .inr ⟨untouched, ?_⟩
          dsimp only
          rw [free]
          intro impossible
          cases impossible
    · refine doomed.keeps doomed.registered ?_ ?_ (fun again => ?_) doomed.held
      · unfold view
        dsimp only
        rw [get?_deleted, if_neg (Ne.symm own)]
      · unfold view
        dsimp only
        rw [get?_deletedAudio, if_neg (Ne.symm own)]
      · dsimp only at again
        rw [queue] at again
        rcases abortActiveSessionJob_cases s.system.rq row with same | ⟨canceled, found, -, same⟩
        · rw [same] at again
          exact again
        · rw [same] at again
          exact pending_move found (fun _ => .canceled) RqJob.retriesLeft
            (fun waits => by simp at waits) again
  · exact doomed

theorem doomed_stop (founded : Founded s) (doomed : Doomed env session s) (job : JobId) :
    Doomed env session (s.stop job) := by
  unfold Platform.stop
  split
  · rename_i stops
    obtain ⟨a, running⟩ := Option.isSome_iff_exists.mp (Bool.and_eq_true_iff.mp stops).2
    obtain ⟨row, found, -⟩ := founded.sound.linked job a running
    obtain rfl : row.id = job := Table.key_of_get? found
    refine doomed.keeps doomed.registered rfl rfl (fun again => ?_) fun other b present => ?_
    · exact pending_move found (fun _ => .stopped) RqJob.retriesLeft
        (fun waits => by simp at waits) again
    · exact doomed.held other b (mem_deleteAttempt present).1
  · exact doomed

theorem doomed_step (founded : Founded s) (doomed : Doomed env session s) (label : Platform.Label) :
    Doomed env session (Platform.step env s label) := by
  cases label with
  | system label =>
      cases label with
      | request auth target request => exact doomed_request doomed auth target request
      | advance job reaction => exact doomed_advance founded doomed job reaction
      | start job | settle job | die job | reap job | due job | expire job =>
          exact doomed_bookkeeping founded doomed rfl
  | createSession auth target payload => exact doomed_createSession doomed auth target payload
  | patchSession auth target payload =>
      refine doomed_commit doomed fun db done => ?_
      obtain ⟨-, rfl | ⟨context, rfl⟩⟩ := patchSession_ok done
      · exact ⟨rfl, rfl⟩
      · obtain ⟨state, audio, -⟩ := view_updateCampaignContext s.system.db target session context
        exact ⟨state, audio⟩
  | deleteSession auth target => exact doomed_deleteSession doomed auth target
  | createPj auth pj payload campaign =>
      refine doomed_commit doomed fun db done => ?_
      obtain ⟨_, _, -, rfl⟩ := createPj_ok done
      exact ⟨rfl, rfl⟩
  | updatePj auth pj payload =>
      refine doomed_commit doomed fun db done => ?_
      obtain ⟨_, _, _, -, -, -, rfl⟩ := updatePj_ok done
      exact ⟨rfl, rfl⟩
  | accounts accounts => exact doomed.keeps doomed.registered rfl rfl id doomed.held
  | stop job => exact doomed_stop founded doomed job

/-! ## Lost -/

theorem Doomed.refuses (doomed : Doomed env session s) (auth : AuthenticatedKey) {request : Request}
    (asks : request.enqueues = some .transcription) :
    ∃ e, request.handle env s.system.db s.system.rq auth session = .error e := by
  cases handled : request.handle env s.system.db s.system.rq auth session with
  | error e => exact ⟨e, rfl⟩
  | ok accepted =>
      obtain ⟨⟨-, changes⟩, -⟩ := handle_ok handled
      obtain ⟨-, row, stored, -⟩ := handle_adds handled
      have present : (view s.system.db session).state ≠ none := by
        rw [(view_row stored).1]
        exact Option.some_ne_none row.state
      exact ((hopeless_accepted doomed.hopeless present changes).1 asks).elim

theorem Doomed.lost (doomed : Doomed env session s) : Lost env session s where
  uploads := fun auth upload duration => doomed.refuses auth rfl
  restarts := fun auth => doomed.refuses auth rfl
  stores := fun job a reaction running kind own => by
    have spent := doomed.held job a running kind own
    rw [← own] at spent
    exact (spent.step reaction).2.2

end Steps

theorem doomed_of_lost {env : Environment} {s : Platform} {session : Uuid} (coherent : Coherent s)
    (rest : AtRest s session) (lost : ¬Recoverable s session) : Doomed env session s := by
  have heard : (view s.system.db session).audio ≠ none := fun free => lost (.inl free)
  refine ⟨coherent.known session heard, ?_, fun job a running kind own => ?_⟩
  · obtain ⟨audio, same⟩ := Option.ne_none_iff_exists'.mp heard
    cases audio with
    | some purgedAt => exact .purged purgedAt same
    | none =>
        refine .abandoned ?_ same fun pending => lost (.inr ⟨same, .inr pending⟩)
        by_contra elsewhere
        exact lost (.inr ⟨same, .inl elsewhere⟩)
  · exact .inl (rest job a running kind own)

/-- A session at rest that is not recoverable never gets a transcript again, whatever is done. -/
theorem lost_for_good (env : Environment) (before after : List Platform.Label) {session : Uuid}
    (rest : AtRest (final (Platform.step env) .initial before) session)
    (lost : ¬Recoverable (final (Platform.step env) .initial before) session) :
    Visits (Platform.step env) (Lost env session) (final (Platform.step env) .initial before)
      after := by
  obtain ⟨founded, coherent⟩ := (coherent_run env before).final
  have kept : Visits (Platform.step env) (fun s => Founded s ∧ Doomed env session s)
      (final (Platform.step env) .initial before) after :=
    Visits.of_step (fun s label inv => ⟨founded_step env inv.1 label, doomed_step inv.1 inv.2 label⟩)
      ⟨founded, doomed_of_lost coherent rest lost⟩
  exact kept.weaken fun s inv => inv.2.lost

def purgedRun : List Platform.Label :=
  [.createSession gameMaster 1 ⟨1, none, none, unset_bounded⟩,
    .system (.request gameMaster 1 (.postAudio smallUpload none)),
    .system (.request gameMaster 1 (.deleteAudio 5))]

theorem lost_for_good_purged :
    Visits (Platform.step sampleEnvironment) (Lost sampleEnvironment 1)
      (final (Platform.step sampleEnvironment) .initial purgedRun)
      [.system (.start 1), .system (.advance 1 obliging),
        .system (.request gameMaster 1 (.postAudio smallUpload none))] := by
  refine lost_for_good sampleEnvironment purgedRun _ (fun job a running => ?_) ?_
  · have none : (final (Platform.step sampleEnvironment) .initial purgedRun).system.attempts.rows =
        [] := List.isEmpty_iff.mp (by decide +kernel)
    have member := Table.mem_of_get? running
    rw [none] at member
    cases member
  · have dropped : (view (final (Platform.step sampleEnvironment) .initial purgedRun).system.db
        1).audio = some (some 5) := by decide +kernel
    rintro (free | ⟨unpurged, -⟩)
    · cases dropped.symm.trans free
    · cases dropped.symm.trans unpurged

end Kaeyris.Proof
