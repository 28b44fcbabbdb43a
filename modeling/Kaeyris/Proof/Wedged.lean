import Kaeyris.Proof.ExitState
import Kaeyris.Proof.LiveJobs

/-!
# Wedged sessions

A session whose audio awaits transcription has a job in RQ that will take it up, or can be recovered
or restarted. The exception is a session left in `audio_uploaded` when its last job ends.
-/

namespace Kaeyris.Proof
open Lib Jobs

/-! ## Waiting sessions -/

def NotWedged (s : System) : Prop :=
  ∀ session row, s.db.sessions.get? session = some row → Logic.usableAudio s.db session = true →
    row.state ≠ .transcribed →
      (∃ job, Live s.rq session job) ∨
      (∃ db, Logic.recoverStuckTranscription s.db s.rq row = .ok db) ∨
      ∃ result, Logic.restartTranscriptionForSession s.db s.rq row = .ok result

/-- Uploaded and not yet taken up: neither recover nor restart is accepted. -/
def Waiting (db : Database) (session : Uuid) : Prop :=
  (view db session).state = some .audioUploaded ∧ (view db session).audio = some none

def Served (s : System) : Prop := ∀ session, Waiting s.db session → ∃ job, Live s.rq session job

theorem usableAudio_iff {db : Database} {session : Uuid} :
    Logic.usableAudio db session = true ↔ (view db session).audio = some none := by
  unfold Logic.usableAudio view SessionRepository.getAudioSource
  cases db.audioSources.get? session with
  | none => simp
  | some audio => simp

theorem served_of_notWedged {s : System} (free : NotWedged s) : Served s := by
  rintro session ⟨uploaded, audio⟩
  obtain ⟨row, stored, state⟩ := Option.map_eq_some_iff.mp uploaded
  have usable := usableAudio_iff.mpr audio
  have pending : row.state ≠ .transcribed := by
    rw [state]
    decide
  rcases free session row stored usable pending with live | ⟨db, recovered⟩ | ⟨result, restarted⟩
  · exact live
  · simp [Logic.recoverStuckTranscription, state] at recovered
  · simp [Logic.restartTranscriptionForSession, state, Logic.restartable] at restarted

/-! ## Jobs that end -/

def lastTry (s : System) (job : JobId) : Prop :=
  ∃ row, s.rq.get? job = some row ∧ row.retriesLeft = 0

/-- The step ends a job for RQ: it returned, failed on its last try, or was lost with its worker. -/
def Retires (s : System) (job : JobId) : Label → Prop
  | .settle ended => ended = job ∧ ∃ a, s.attempts.get? job = some a ∧
      ((∃ result, a.program = .done result) ∨ (∃ e, a.program = .raise e) ∧ lastTry s job)
  | .reap ended => ended = job ∧ s.idleStatus job = some .started ∧ lastTry s job
  | .expire ended => ended = job ∧ s.idleStatus job = some .started
  | _ => False

/-- No step ends the last live job of a waiting session. -/
def LeavesServed (s : System) (label : Label) : Prop :=
  ∀ session job, Waiting s.db session → Live s.rq session job → Retires s job label →
    ∃ other, other ≠ job ∧ Live s.rq session other

section Bookkeeping
variable {env : Environment} {s : System} {session : Uuid} {job : JobId}

theorem live_iff {rq : Rq} {row : RqJob} (found : rq.get? job = some row) :
    Live rq session job ↔ row.func = .transcription ∧ row.sessionId = session ∧
      row.status.active = true := by
  constructor
  · rintro ⟨row', found', facts⟩
    rw [found] at found'
    cases found'
    exact facts
  · exact fun facts => ⟨row, found, facts⟩

theorem live_move {rq : Rq} {moved : JobId} {row : RqJob} (found : rq.get? moved = some row)
    (status : RqJob → RqStatus) (retries : RqJob → Nat) :
    Live (rq.update (fun row => row.id = moved)
        (fun row => { row with status := status row, retriesLeft := retries row }) fun _ => rfl)
      session job ↔
      if job = moved then
        row.func = .transcription ∧ row.sessionId = session ∧ (status row).active = true
      else Live rq session job := by
  have updated := Table.get?_update_key rq moved
    (fun row => { row with status := status row, retriesLeft := retries row }) (fun _ => rfl) job
  by_cases same : job = moved
  · subst same
    rw [if_pos rfl, found] at updated
    rw [if_pos rfl]
    exact live_iff updated
  · rw [if_neg same] at updated
    rw [if_neg same]
    unfold Live
    rw [updated]

theorem live_fail {row : RqJob} {ended : JobId} (found : s.rq.get? ended = some row)
    (started : row.status = .started) :
    Live (s.rq.fail ended) session job ↔ Live s.rq session job ∧ ¬(ended = job ∧ lastTry s job) := by
  refine (live_move found (fun row => if 0 < row.retriesLeft then .scheduled else .failed)
    (fun row => row.retriesLeft - 1)).trans ?_
  by_cases same : job = ended
  · subst same
    have last : lastTry s job ↔ row.retriesLeft = 0 := by
      unfold lastTry
      simp [found]
    rw [if_pos rfl, live_iff found, started, last]
    by_cases none : row.retriesLeft = 0
    · simp [none, RqStatus.active]
    · simp [none, Nat.pos_of_ne_zero none, RqStatus.active]
  · simp [same, Ne.symm same]

theorem live_forget {rq : Rq} {lost : JobId} :
    Live (rq.forget lost) session job ↔ job ≠ lost ∧ Live rq session job := by
  by_cases same : job = lost
  · subst same
    have gone : (rq.forget job).get? job = none := by
      have deleted := Table.get?_delete_key rq (fun row => row.id = job) (fun key => key = job)
        (fun _ => rfl) job
      exact deleted.trans (if_pos (by simp))
    unfold Live
    rw [gone]
    simp
  · unfold Live
    rw [get?_forget_elsewhere rq lost job same]
    simp [same]

theorem live_start {taken : JobId} :
    Live (s.start env taken).rq session job ↔ Live s.rq session job := by
  unfold System.start
  split
  · rename_i row found
    split
    · rename_i queued
      refine (live_move found (fun _ => .started) RqJob.retriesLeft).trans ?_
      split
      · rename_i same
        rw [same, live_iff found, queued]
        rfl
      · rfl
    · rfl
  · rfl

theorem live_settle (linked : Linked s) {ended : JobId} :
    Live (s.settle ended).rq session job ↔
      Live s.rq session job ∧ ¬Retires s job (.settle ended) := by
  unfold System.settle Retires
  cases running : s.attempts.get? ended with
  | none =>
      refine (and_iff_left ?_).symm
      rintro ⟨rfl, a, found, -⟩
      rw [running] at found
      cases found
  | some a =>
      obtain ⟨row, found, started, -⟩ := linked ended a running
      have only (P : Attempt → Prop) (same : ended = job) :
          (∃ b, s.attempts.get? job = some b ∧ P b) ↔ P a := by
        rw [← same, running]
        simp
      dsimp only
      split
      · rename_i result returned
        refine (live_move found (fun _ => .finished) RqJob.retriesLeft).trans ?_
        by_cases same : ended = job
        · rw [if_pos same.symm, only _ same, returned]
          simp [same, RqStatus.active]
        · simp [same, Ne.symm same]
      · rename_i e raised
        refine (live_fail found started).trans ?_
        by_cases same : ended = job
        · rw [only _ same, raised]
          simp [same]
        · simp [same]
      · rename_i unfinished unraised
        refine (and_iff_left ?_).symm
        rintro ⟨same, finished⟩
        rcases (only _ same).mp finished with ⟨result, returned⟩ | ⟨⟨e, raised⟩, -⟩
        · exact unfinished result returned
        · exact unraised e raised

theorem live_reap {ended : JobId} :
    Live (s.reap ended).rq session job ↔
      Live s.rq session job ∧ ¬Retires s job (.reap ended) := by
  unfold System.reap Retires
  split
  · rename_i idle
    obtain ⟨-, row, found, started⟩ := idleStatus_some idle
    refine (live_fail found started).trans ?_
    by_cases same : ended = job
    · simp [same, same ▸ idle]
    · simp [same]
  · rename_i idle
    refine (and_iff_left ?_).symm
    rintro ⟨rfl, started, -⟩
    exact idle started

theorem live_due {waited : JobId} :
    Live (s.due waited).rq session job ↔ Live s.rq session job := by
  unfold System.due
  split
  · rename_i idle
    obtain ⟨-, row, found, scheduled⟩ := idleStatus_some idle
    refine (live_move found (fun _ => .queued) RqJob.retriesLeft).trans ?_
    split
    · rename_i same
      rw [same, live_iff found, scheduled]
      rfl
    · rfl
  · rfl

theorem live_expire {lost : JobId} :
    Live (s.expire lost).rq session job ↔
      Live s.rq session job ∧ ¬Retires s job (.expire lost) := by
  -- A record that is dropped was that of a job without a worker, or of one that had ended.
  have dropped {status : RqStatus} (idle : s.idleStatus lost = some status) :
      Live (s.rq.forget lost) session job ↔ Live s.rq session job ∧
        ¬(lost = job ∧ status.active = true) := by
    obtain ⟨-, row, found, same⟩ := idleStatus_some idle
    rw [live_forget, and_comm]
    refine and_congr_right fun live => not_congr ?_
    constructor
    · rintro rfl
      exact ⟨rfl, same ▸ ((live_iff found).mp live).2.2⟩
    · exact fun both => both.1.symm
  have retires : Retires s job (.expire lost) ↔
      lost = job ∧ s.idleStatus lost = some .started := by
    constructor
    · rintro ⟨rfl, started⟩
      exact ⟨rfl, started⟩
    · rintro ⟨rfl, started⟩
      exact ⟨rfl, started⟩
  rw [retires]
  unfold System.expire
  cases idle : s.idleStatus lost with
  | none => simp
  | some status =>
      cases status with
      | queued | deferred | scheduled => simp
      | started => simpa [RqStatus.active] using dropped idle
      | finished | failed | stopped | canceled => simpa [RqStatus.active] using dropped idle

theorem live_bookkeeping (linked : Linked s) {label : Label} (kind : bookkeeping label = true) :
    Live (s.step env label).rq session job ↔ Live s.rq session job ∧ ¬Retires s job label := by
  cases label with
  | request auth session request => cases kind
  | advance job reaction => cases kind
  | start taken => exact live_start.trans (and_iff_left id).symm
  | settle ended => exact live_settle linked
  | die lost => exact (and_iff_left id).symm
  | reap ended => exact live_reap
  | due waited => exact live_due.trans (and_iff_left id).symm
  | expire lost => exact live_expire

theorem retires_bookkeeping {label : Label} (retires : Retires s job label) :
    bookkeeping label = true := by
  cases label with
  | request auth session request => exact retires.elim
  | advance job reaction => exact retires.elim
  | _ => rfl

theorem retires_unique {other : JobId} {label : Label} (retires : Retires s job label)
    (retires' : Retires s other label) : job = other := by
  cases label with
  | settle ended => exact retires.1.symm.trans retires'.1
  | reap ended => exact retires.1.symm.trans retires'.1
  | expire ended => exact retires.1.symm.trans retires'.1
  | _ => exact retires.elim

end Bookkeeping

/-! ## The cycle of a transcription -/

def transcriptionCycle : Label → Bool
  | .request _ _ request =>
      match request with
      | .postAudio _ _ | .recoverStuckTranscription | .restartTranscription | .deleteAudio _ => true
      | _ => false
  | _ => true

structure CycleInvariant (s : System) : Prop where
  sound : Sound (fun _ _ => True) s
  transcriptions : ∀ job row, s.rq.get? job = some row → row.func = .transcription
  uploaded : ∀ session, (view s.db session).audio = some none →
    ∃ state, (view s.db session).state = some state ∧ state ≠ .created
  current : ∀ session job row, (view s.db session).current = some job →
    s.rq.get? job = some row → row.sessionId = session
  served : Served s

theorem notWedged_of_invariant {s : System} (inv : CycleInvariant s) : NotWedged s := by
  intro session row stored usable pending
  have audio := usableAudio_iff.mp usable
  obtain rfl : row.id = session := Table.key_of_get? stored
  obtain ⟨state, -, current⟩ := view_row stored
  obtain ⟨reached, same, begun⟩ := inv.uploaded row.id audio
  obtain rfl : row.state = reached := Option.some.inj (state.symm.trans same)
  cases phase : row.state with
  | created => exact (begun phase).elim
  | transcribed => exact (pending phase).elim
  | audioUploaded => exact .inl (inv.served row.id ⟨by rw [state, phase], audio⟩)
  | transcriptionFailed =>
      refine .inr (.inr ?_)
      simp [Logic.restartTranscriptionForSession, phase, Logic.restartable, usable]
  | transcribing =>
      cases busy : row.currentJobId.any (isRqJobActive s.rq) with
      | false =>
          refine .inr (.inl ?_)
          simp [Logic.recoverStuckTranscription, phase, busy]
      | true =>
          refine .inl ?_
          obtain ⟨job, named, active⟩ := (Option.any_eq_true _ _).mp busy
          obtain ⟨entry, found, status⟩ := (Option.any_eq_true _ _).mp active
          exact ⟨job, entry, found, inv.transcriptions job entry found,
            inv.current row.id job entry (current.trans named) found, status⟩

theorem cycleInvariant_initial {db : Database} (unheard : db.audioSources = .empty) :
    CycleInvariant (System.initial db) := by
  have none (session : Uuid) : (view db session).audio = none := by
    unfold view
    rw [unheard]
    rfl
  constructor
  · exact sound_initial _ db
  · intro job row found
    cases found
  · intro session audio
    rw [System.initial, none] at audio
    cases audio
  · intro session job row _ found
    cases found
  · rintro session ⟨-, audio⟩
    rw [System.initial, none] at audio
    cases audio

/-! ## Steps of the cycle -/

section Steps
variable {env : Environment} {s : System}

theorem served_bookkeeping (inv : CycleInvariant s) {label : Label}
    (kind : bookkeeping label = true) (ok : LeavesServed s label) : Served (s.step env label) := by
  have keeps : Bookkeeping env s (s.step env label) := bookkeeping_step inv.sound.linked kind
  intro session waiting
  rw [keeps.db] at waiting
  obtain ⟨job, live⟩ := inv.served session waiting
  by_cases retires : Retires s job label
  · obtain ⟨other, apart, live'⟩ := ok session job waiting live retires
    have stays : ¬Retires s other label := fun retires' => apart (retires_unique retires' retires)
    exact ⟨other, (live_bookkeeping inv.sound.linked kind).mpr ⟨live', stays⟩⟩
  · exact ⟨job, (live_bookkeeping inv.sound.linked kind).mpr ⟨live, retires⟩⟩

theorem cycle_bookkeeping (inv : CycleInvariant s) {label : Label}
    (kind : bookkeeping label = true) (ok : LeavesServed s label) :
    CycleInvariant (s.step env label) := by
  have keeps : Bookkeeping env s (s.step env label) := bookkeeping_step inv.sound.linked kind
  constructor
  · exact sound_step env inv.sound (within_trivial s.db) label
  · intro job row' found
    obtain ⟨row, before, func, -⟩ := keeps.rq job row' found
    exact func.trans (inv.transcriptions job row before)
  · rw [keeps.db]
    exact inv.uploaded
  · intro session job row' current found
    rw [keeps.db] at current
    obtain ⟨row, before, -, owner, -⟩ := keeps.rq job row' found
    exact owner.trans (inv.current session job row current before)
  · exact served_bookkeeping inv kind ok

theorem cycle_changes {rq : Rq} {session : Uuid} {job : Option JobId} {v v' : View}
    {auth : AuthenticatedKey} {request : Request}
    (kind : transcriptionCycle (.request auth session request) = true)
    (changes : request.changes rq session job v v') :
    (request.enqueues = some .transcription ∧ v'.state = some .audioUploaded ∧ v'.current = job) ∨
    request.enqueues = none ∧ (v'.current = v.current ∨ v'.current = none) ∧
      (v'.audio = some none → v'.state = some .transcriptionFailed) := by
  cases request with
  | postAudio upload duration =>
      obtain ⟨-, id, rfl, rfl⟩ := changes
      exact .inl ⟨rfl, rfl, rfl⟩
  | restartTranscription =>
      obtain ⟨-, -, id, rfl, rfl⟩ := changes
      exact .inl ⟨rfl, rfl, rfl⟩
  | deleteAudio now =>
      obtain ⟨-, rfl⟩ := changes
      refine .inr ⟨rfl, .inr rfl, fun unpurged => ?_⟩
      obtain ⟨_, -, impossible⟩ := Option.map_eq_some_iff.mp unpurged
      cases impossible
  | recoverStuckTranscription =>
      obtain ⟨-, -, rfl⟩ := changes
      exact .inr ⟨rfl, .inl rfl, fun _ => rfl⟩
  | _ => cases kind

theorem cycle_request (inv : CycleInvariant s) {auth : AuthenticatedKey} {session : Uuid}
    {request : Request} (kind : transcriptionCycle (.request auth session request) = true) :
    CycleInvariant (s.step env (.request auth session request)) := by
  have sound := sound_step env inv.sound (within_trivial s.db)
    (.request auth session request)
  rw [System.step] at sound
  refine request_keeps inv fun accepted handled => ?_
  obtain ⟨⟨others, changes⟩, enqueues⟩ := handle_ok handled
  have effect := cycle_changes kind changes
  rw [request_ok handled] at sound ⊢
  refine ⟨sound, ?_, ?_, ?_, ?_⟩
  · intro job row found
    rcases enqueues_get? enqueues found with ⟨before, -⟩ | ⟨kind', enqueued, -, rfl⟩
    · exact inv.transcriptions job row before
    · rcases effect with ⟨same, -⟩ | ⟨none, -⟩
      · exact Option.some.inj (enqueued.symm.trans same)
      · rw [none] at enqueued
        cases enqueued
  · intro other audio
    by_cases same : other = session
    · subst same
      rcases effect with ⟨-, state, -⟩ | ⟨-, -, failed⟩
      · exact ⟨_, state, by decide⟩
      · exact ⟨_, failed audio, by decide⟩
    · dsimp only at audio ⊢
      rw [others other same] at audio ⊢
      exact inv.uploaded other audio
  · intro other job row current found
    dsimp only at current found
    rcases enqueues_get? enqueues found with ⟨before, old⟩ | ⟨kind', enqueued, new, rfl⟩
    · by_cases same : other = session
      · subst same
        rcases effect with ⟨-, -, latest⟩ | ⟨-, kept | none, -⟩
        · exact (old (latest.symm.trans current)).elim
        · exact inv.current other job row (kept.symm.trans current) before
        · rw [none] at current
          cases current
      · rw [others other same] at current
        exact inv.current other job row current before
    · by_cases same : other = session
      · exact same.symm
      · obtain ⟨id, issued, -, unknown, -⟩ : ∃ id, accepted.job = some id ∧ _ := by
          rw [enqueued] at enqueues
          exact enqueues
        rw [others other same] at current
        rw [issued] at new
        exact (unknown other (current.trans new.symm)).elim
  · rintro other ⟨state, audio⟩
    dsimp only at state audio
    by_cases same : other = session
    · subst same
      rcases effect with ⟨enqueued, -, -⟩ | ⟨-, -, failed⟩
      · rw [enqueued] at enqueues
        obtain ⟨id, -, -, -, added⟩ := enqueues
        refine ⟨id, ⟨id, .transcription, other, .queued, defaultRetryMax⟩, ?_, rfl, rfl, rfl⟩
        refine (congrArg (Table.get? · id) added).trans ?_
        exact (Table.get?_put _ _ _).trans (if_pos rfl)
      · rw [failed audio] at state
        cases state
    · rw [others other same] at state audio
      obtain ⟨job, row, found, facts⟩ := inv.served other ⟨state, audio⟩
      exact ⟨job, row, enqueues_keeps enqueues found, facts⟩

theorem cycle_advance (inv : CycleInvariant s) (job : JobId) (reaction : Reaction effects) :
    CycleInvariant (s.step env (.advance job reaction)) := by
  have sound := sound_step env inv.sound (within_trivial s.db) (.advance job reaction)
  rw [System.step] at sound
  refine advance_keeps inv fun a running => ?_
  obtain ⟨row, found, started, func, owner⟩ := inv.sound.linked job a running
  have kind : a.kind = .transcription := func ▸ inv.transcriptions job row found
  have rq : (s.advance job reaction).rq = s.rq := by rw [advance_eq running]
  have frame := inv.sound.advance_frame running reaction (within_trivial s.db)
  have audio (other : Uuid) : (view (s.advance job reaction).db other).audio =
      (view s.db other).audio := by rw [frame other]
  have current (other : Uuid) : (view (s.advance job reaction).db other).current =
      (view s.db other).current := by rw [frame other]
  -- The state stays, or the job's own session takes one that is not `created`.
  have state (other : Uuid) : (view (s.advance job reaction).db other).state =
      (view s.db other).state ∨ other = a.session ∧ ∃ state, state ≠ .created ∧
        (view (s.advance job reaction).db other).state =
          (view s.db other).state.map fun _ => state := by
    rcases inv.sound.commits running reaction (within_trivial s.db) with
      ⟨tx, -, change⟩ | ⟨-, same⟩
    · rw [kind] at change
      by_cases own : other = a.session
      · subst own
        have moved := change.2
        generalize view (s.advance job reaction).db a.session = v' at moved
        cases moved with
        | nothing reads => exact .inl rfl
        | begins audio => exact .inr ⟨rfl, .transcribing, by decide, rfl⟩
        | fails => exact .inr ⟨rfl, .transcriptionFailed, by decide, rfl⟩
        | restores => exact .inr ⟨rfl, .audioUploaded, by decide, rfl⟩
        | persists => exact .inr ⟨rfl, .transcribed, by decide, rfl⟩
      · rw [change.1 other own]
        exact .inl rfl
    · rw [same]
      exact .inl rfl
  refine ⟨sound, ?_, ?_, ?_, ?_⟩
  · rw [rq]
    exact inv.transcriptions
  · intro other unpurged
    rw [audio] at unpurged
    obtain ⟨before, same, begun⟩ := inv.uploaded other unpurged
    rcases state other with kept | ⟨-, after, later, moved⟩
    · exact ⟨before, kept.trans same, begun⟩
    · exact ⟨after, by rw [moved, same, Option.map_some], later⟩
  · intro other id entry named present
    rw [current] at named
    rw [rq] at present
    exact inv.current other id entry named present
  · rintro other ⟨uploaded, unpurged⟩
    rw [audio] at unpurged
    rw [rq]
    rcases state other with kept | ⟨rfl, -⟩
    · exact inv.served other ⟨kept ▸ uploaded, unpurged⟩
    · -- The job that restored the state is itself still live.
      refine ⟨job, row, found, inv.transcriptions job row found, owner, ?_⟩
      rw [started]
      rfl

theorem cycle_step (inv : CycleInvariant s) {label : Label}
    (kind : transcriptionCycle label = true) (ok : LeavesServed s label) :
    CycleInvariant (s.step env label) := by
  cases label with
  | request auth session request => exact cycle_request inv kind
  | advance job reaction => exact cycle_advance inv job reaction
  | _ => exact cycle_bookkeeping inv rfl ok

theorem retires_breaks (inv : CycleInvariant s) {label : Label} (bad : ¬LeavesServed s label) :
    ¬NotWedged (s.step env label) := by
  unfold LeavesServed at bad
  push Not at bad
  obtain ⟨session, job, waiting, live, retires, alone⟩ := bad
  have kind := retires_bookkeeping retires
  have keeps : Bookkeeping env s (s.step env label) := bookkeeping_step inv.sound.linked kind
  intro free
  obtain ⟨other, live'⟩ := served_of_notWedged free session (keeps.db ▸ waiting)
  obtain ⟨before, stays⟩ := (live_bookkeeping inv.sound.linked kind).mp live'
  by_cases same : other = job
  · exact stays (same ▸ retires)
  · exact alone other same before

end Steps

/-- From databases without audio, the runs of the transcription cycle in which no session is ever
wedged are those in which no waiting session loses its last live job. -/
theorem notWedged_iff (env : Environment) {db : Database} {run : List Label}
    (unheard : db.audioSources = .empty) (cycle : ∀ label ∈ run, transcriptionCycle label = true) :
    Visits (System.step env) NotWedged (System.initial db) run ↔
      Along (System.step env) LeavesServed (System.initial db) run := by
  apply visits_iff_along CycleInvariant fun label => transcriptionCycle label = true
  · exact fun s inv => notWedged_of_invariant inv
  · exact fun s label kind inv ok => cycle_step inv kind ok
  · exact fun s label inv bad => retires_breaks inv bad
  · exact cycle
  · exact cycleInvariant_initial unheard

/-! ## A retry and a restart -/

def tryOnce (job : JobId) (reaction : Reaction effects) : List Label :=
  .start job :: List.replicate 14 (.advance job reaction) ++ [.settle job, .due job]

/-- The transcription service is unavailable once; the retry succeeds, and so does the job of a
restart. -/
def retriedRun : List Label :=
  .request gameMaster 1 (.postAudio smallUpload none) :: tryOnce 1 unavailable ++
    tryOnce 1 obliging ++ .request gameMaster 1 .restartTranscription :: tryOnce 2 obliging

/-- A job that ends beside a waiting session has raised and is tried again. -/
def triesAgain (s : System) : Label → Bool
  | .settle job =>
      (s.db.sessions.rows.all fun row => row.state ≠ .audioUploaded) ||
        ((s.attempts.get? job).all fun a => match a.program with
          | .done _ => false
          | _ => true) && (s.rq.get? job).all fun row => row.retriesLeft ≠ 0
  | .reap _ | .expire _ => s.db.sessions.rows.all fun row => row.state ≠ .audioUploaded
  | _ => true

theorem not_waiting {s : System} {session : Uuid}
    (left : (s.db.sessions.rows.all fun row => row.state ≠ .audioUploaded) = true) :
    ¬Waiting s.db session := by
  rintro ⟨uploaded, -⟩
  obtain ⟨row, stored, state⟩ := Option.map_eq_some_iff.mp uploaded
  exact of_decide_eq_true (List.all_eq_true.mp left row (Table.mem_of_get? stored)) state

theorem leavesServed_of_triesAgain {s : System} {label : Label} (again : triesAgain s label = true) :
    LeavesServed s label := by
  intro session job waiting live retires
  exfalso
  cases label with
  | settle ended =>
      obtain ⟨rfl, a, running, ends⟩ := retires
      rcases Bool.or_eq_true_iff.mp again with left | kept
      · exact not_waiting left waiting
      · rw [running, Option.all_some] at kept
        obtain ⟨raised, left⟩ := Bool.and_eq_true_iff.mp kept
        rcases ends with ⟨result, done⟩ | ⟨-, row, found, none⟩
        · rw [done] at raised
          cases raised
        · rw [found, Option.all_some] at left
          exact of_decide_eq_true left none
  | reap ended => exact not_waiting again waiting
  | expire ended => exact not_waiting again waiting
  | _ => exact retires

theorem notWedged_retried :
    Visits (System.step sampleEnvironment) NotWedged (System.initial createdDatabase) retriedRun ∧
      let last := final (System.step sampleEnvironment) (System.initial createdDatabase) retriedRun
      last.rq.rows.map RqJob.status = [.finished, .finished] ∧ last.resets 1 = 1 := by
  have again : Along (System.step sampleEnvironment) (fun s label => triesAgain s label = true)
      (System.initial createdDatabase) retriedRun := by decide +kernel
  refine ⟨(notWedged_iff sampleEnvironment rfl (by decide)).mpr ?_, by decide +kernel⟩
  exact again.weaken fun _ _ => leavesServed_of_triesAgain

theorem retries_exhausted : ¬Visits (System.step sampleEnvironment) NotWedged
    (System.initial createdDatabase)
    (.request gameMaster 1 (.postAudio smallUpload none) ::
      (List.replicate 4 (tryOnce 1 unavailable)).flatten) := by
  intro visits
  obtain ⟨job, live⟩ := served_of_notWedged visits.final 1
    ⟨by decide +kernel, by decide +kernel⟩
  revert live
  apply liveTranscriptions_eq_nil.mp
  decide +kernel

end Kaeyris.Proof
