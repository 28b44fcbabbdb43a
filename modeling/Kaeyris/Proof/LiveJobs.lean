import Kaeyris.Proof.Reupload
import Kaeyris.Proof.Steps

/-!
# Live transcription jobs

RQ keeps a failed job alive while it has retries left, and the failing run has moved the session to
a state from which a restart is accepted. A restart is the only way to a second live job.
-/

namespace Kaeyris.Proof
open Lib Jobs

/-! ## The jobs of one session -/

def liveTranscriptions (rq : Rq) (session : Uuid) : List RqJob :=
  rq.select fun row =>
    row.func = .transcription && row.sessionId = session && row.status.active

def AtMostOneLive (s : System) : Prop :=
  ∀ session, (liveTranscriptions s.rq session).length ≤ 1

def Live (rq : Rq) (session : Uuid) (job : JobId) : Prop :=
  ∃ row, rq.get? job = some row ∧ row.func = .transcription ∧ row.sessionId = session ∧
    row.status.active = true

theorem atMostOneLive_iff_unique {s : System} :
    AtMostOneLive s ↔ ∀ session job job', Live s.rq session job → Live s.rq session job' →
      job = job' := by
  unfold AtMostOneLive liveTranscriptions
  simp only [Table.select_length_le_one, Bool.and_eq_true, decide_eq_true_eq]
  constructor
  · rintro unique session job job' ⟨row, found, func, owner, active⟩
      ⟨row', found', func', owner', active'⟩
    exact unique session job job' row row' found found' ⟨⟨func, owner⟩, active⟩
      ⟨⟨func', owner'⟩, active'⟩
  · rintro unique session job job' row row' found found' ⟨⟨func, owner⟩, active⟩
      ⟨⟨func', owner'⟩, active'⟩
    exact unique session job job' ⟨row, found, func, owner, active⟩
      ⟨row', found', func', owner', active'⟩

theorem liveTranscriptions_eq_nil {rq : Rq} {session : Uuid} :
    liveTranscriptions rq session = [] ↔ ∀ job, ¬Live rq session job := by
  unfold liveTranscriptions Table.select
  simp only [List.filter_eq_nil_iff, Bool.and_eq_true, decide_eq_true_eq]
  constructor
  · rintro none job ⟨row, found, func, owner, active⟩
    exact none row (Table.mem_of_get? found) ⟨⟨func, owner⟩, active⟩
  · rintro none row member ⟨⟨func, owner⟩, active⟩
    exact none row.id ⟨row, Table.get?_self member, func, owner, active⟩

theorem Live.of_retains {rq rq' : Rq} (retains : Retains rq rq') {session : Uuid} {job : JobId}
    (live : Live rq' session job) : Live rq session job := by
  obtain ⟨row', found, func, owner, active⟩ := live
  obtain ⟨row, before, func', owner', active'⟩ := retains job row' found
  exact ⟨row, before, func' ▸ func, owner' ▸ owner, active' active⟩

def Restarts (db : Database) (auth : AuthenticatedKey) (session : Uuid) : Prop :=
  ∃ row, resolveSessionForGm db session auth true = some row ∧
    Logic.restartable row.state = true ∧ Logic.usableAudio db session = true

theorem restarts_iff {db : Database} (rq : Rq) {auth : AuthenticatedKey} {session : Uuid} :
    Restarts db auth session ↔
      ∃ result, Router.restartTranscription db rq auth session = .ok result := by
  unfold Restarts Router.restartTranscription Router.requireSession
  cases resolved : resolveSessionForGm db session auth true with
  | none =>
      constructor
      · rintro ⟨row, impossible, -⟩
        cases impossible
      · rintro ⟨result, impossible⟩
        cases impossible
  | some row =>
      have stored : db.sessions.get? session = some row :=
        requireSession_ok (by unfold Router.requireSession; rw [resolved])
      obtain rfl : row.id = session := Table.key_of_get? stored
      change _ ↔ ∃ result, (Logic.restartTranscriptionForSession db rq row).mapError _ = .ok result
      unfold Logic.restartTranscriptionForSession
      constructor
      · rintro ⟨row', same, allowed, usable⟩
        cases same
        simp [allowed, usable, Except.mapError]
      · rintro ⟨result, accepted⟩
        refine ⟨row, rfl, ?_⟩
        obtain ⟨allowed, usable, -⟩ := restartTranscriptionForSession_ok
          (except_mapError_ok accepted)
        exact ⟨allowed, usable⟩

/-- No restart is accepted while a transcription job of the session is live. -/
def NoRestartWhileLive (s : System) : Label → Prop
  | .request auth session .restartTranscription =>
      Restarts s.db auth session → liveTranscriptions s.rq session = []
  | _ => True

/-! ## The invariant -/

structure LiveInvariant (s : System) : Prop where
  sound : Sound (fun _ _ => True) s
  heard : Heard s
  unique : AtMostOneLive s

theorem liveInvariant_initial (db : Database) : LiveInvariant (System.initial db) where
  sound := sound_initial _ db
  heard := fun _ _ found => by cases found
  unique := fun _ => Nat.zero_le 1

theorem enqueues_transcription {env : Environment} {s : System} (inv : LiveInvariant s)
    {auth : AuthenticatedKey} {session : Uuid} {request : Request} {accepted : Accepted}
    (handled : request.handle env s.db s.rq auth session = .ok accepted)
    (ok : NoRestartWhileLive s (.request auth session request))
    (enqueued : request.enqueues = some .transcription) (job : JobId) :
    ¬Live s.rq session job := by
  cases request with
  | postAudio upload duration =>
      rintro ⟨row, found, func, owner, -⟩
      have absent : (view s.db session).audio = none := (handle_ok handled).1.2.1
      exact inv.heard job row found func (owner ▸ absent)
  | restartTranscription =>
      obtain ⟨result, done, -⟩ := except_map_ok handled
      exact liveTranscriptions_eq_nil.mp (ok ((restarts_iff s.rq).mpr ⟨result, done⟩)) job
  | _ => cases enqueued

theorem unique_step {env : Environment} {s : System} (inv : LiveInvariant s) {label : Label}
    (ok : NoRestartWhileLive s label) : AtMostOneLive (s.step env label) := by
  have unique := atMostOneLive_iff_unique.mp inv.unique
  by_cases kind : bookkeeping label = true
  · have keeps : Bookkeeping env s (s.step env label) := bookkeeping_step inv.sound.linked kind
    refine atMostOneLive_iff_unique.mpr fun session job job' live live' => ?_
    exact unique session job job' (live.of_retains keeps.rq) (live'.of_retains keeps.rq)
  · cases label with
    | request auth session request =>
        refine request_keeps inv.unique fun accepted handled => ?_
        have enqueues := (handle_ok handled).2
        rw [request_ok handled]
        -- A live job was live before, or it is the new one and nothing was live.
        have source (other : Uuid) (job : JobId) (live : Live accepted.rq other job) :
            Live s.rq other job ∨ other = session ∧ accepted.job = some job ∧
              ∀ before, ¬Live s.rq session before := by
          obtain ⟨row, found, func, owner, active⟩ := live
          rcases enqueues_get? enqueues found with ⟨before, -⟩ | ⟨kind, enqueued, new, rfl⟩
          · exact .inl ⟨row, before, func, owner, active⟩
          · obtain rfl : kind = .transcription := func
            exact .inr ⟨owner.symm, new, enqueues_transcription inv handled ok enqueued⟩
        refine atMostOneLive_iff_unique.mpr fun other job job' live live' => ?_
        rcases source other job live with old | ⟨rfl, new, none⟩
        · rcases source other job' live' with old' | ⟨rfl, -, none⟩
          · exact unique other job job' old old'
          · exact (none job old).elim
        · rcases source other job' live' with old' | ⟨-, new', -⟩
          · exact (none job' old').elim
          · exact Option.some.inj (new.symm.trans new')
    | advance job reaction =>
        have rq : (s.advance job reaction).rq = s.rq := by
          cases found : s.attempts.get? job with
          | none => rw [advance_none found]
          | some a => rw [advance_eq found]
        intro session
        rw [System.step, rq]
        exact inv.unique session
    | _ => exact (kind rfl).elim

theorem liveInvariant_step {env : Environment} {s : System} {label : Label}
    (inv : LiveInvariant s) (ok : NoRestartWhileLive s label) :
    LiveInvariant (s.step env label) where
  sound := sound_step env inv.sound (within_trivial s.db) label
  heard := heard_step env inv.sound (within_trivial s.db) inv.heard label
  unique := unique_step inv ok

theorem restart_breaks {env : Environment} {s : System} {label : Label}
    (bad : ¬NoRestartWhileLive s label) : ¬AtMostOneLive (s.step env label) := by
  cases label with
  | request auth session request =>
      cases request with
      | restartTranscription =>
          obtain ⟨restarts, busy⟩ := Classical.not_imp.mp bad
          obtain ⟨job, live⟩ : ∃ job, Live s.rq session job := by
            by_contra none
            exact busy (liveTranscriptions_eq_nil.mpr fun job live => none ⟨job, live⟩)
          obtain ⟨result, done⟩ := (restarts_iff s.rq).mp restarts
          have handled : Request.restartTranscription.handle env s.db s.rq auth session =
              .ok ⟨result.2.1, result.2.2, some result.1⟩ := by
            unfold Request.handle
            rw [done]
            rfl
          obtain ⟨new, same, free, -, enqueued⟩ := (handle_ok handled).2
          obtain ⟨row, found, facts⟩ := live
          have apart : new ≠ job := by
            rintro rfl
            rw [free] at found
            cases found
          rw [System.step, request_ok handled]
          intro unique
          apply apart
          apply atMostOneLive_iff_unique.mp unique session
          · refine ⟨⟨new, .transcription, session, .queued, defaultRetryMax⟩, ?_, rfl, rfl, rfl⟩
            refine (congrArg (Table.get? · new) enqueued).trans ?_
            exact (Table.get?_put _ _ _).trans (if_pos rfl)
          · exact ⟨row, enqueues_keeps (handle_ok handled).2 found, facts⟩
      | _ => exact (bad trivial).elim
  | _ => exact (bad trivial).elim

/-- In every run, a session has at most one live transcription job throughout exactly when no
restart is accepted beside one. -/
theorem atMostOneLive_iff (env : Environment) (db : Database) (run : List Label) :
    Visits (System.step env) AtMostOneLive (System.initial db) run ↔
      Along (System.step env) NoRestartWhileLive (System.initial db) run := by
  apply visits_iff_along LiveInvariant fun _ => True
  · exact fun s inv => inv.unique
  · exact fun s label _ inv ok => liveInvariant_step inv ok
  · exact fun s label _ bad => restart_breaks bad
  · exact fun _ _ => trivial
  · exact liveInvariant_initial db

def spoiled : Reaction effects :=
  { obliging with
    answer
      | .prepareAudio _ _ => .error (.audioReduce "invalid data")
      | query => obliging.answer query }

/-- The job fails for good, RQ schedules its retry all the same, and the restart adds another. -/
theorem restart_beside_retry : ¬Visits (System.step sampleEnvironment) AtMostOneLive
    (System.initial createdDatabase)
    [.request gameMaster 1 (.postAudio smallUpload none), .start 1,
      .advance 1 spoiled, .advance 1 spoiled, .advance 1 spoiled, .advance 1 spoiled,
      .advance 1 spoiled, .settle 1, .request gameMaster 1 .restartTranscription] := by
  intro visits
  have unique := visits.final 1
  revert unique
  decide +kernel

end Kaeyris.Proof
