import Kaeyris.Proof.Changes
import Kaeyris.Proof.JobMoves

/-!
# The steps of the machine

A step is a request, one step of a running job, or bookkeeping between RQ and the workers. Each kind
is described once; the invariants of the following modules are derived from these descriptions.
-/

namespace Kaeyris.Proof
open Lib Jobs Process

/-! ## Bookkeeping -/

/-- No job is added, and none that had ended is active again. -/
def Retains (rq rq' : Rq) : Prop :=
  ∀ job row', rq'.get? job = some row' → ∃ row, rq.get? job = some row ∧
    row'.func = row.func ∧ row'.sessionId = row.sessionId ∧
      (row'.status.active = true → row.status.active = true)

theorem Retains.refl (rq : Rq) : Retains rq rq :=
  fun _ row found => ⟨row, found, rfl, rfl, id⟩

theorem Retains.update {rq : Rq} {job : JobId} {f : RqJob → RqJob}
    (keeps : ∀ row, (f row).id = row.id)
    (change : ∀ row, rq.get? job = some row → (f row).func = row.func ∧
      (f row).sessionId = row.sessionId ∧
        ((f row).status.active = true → row.status.active = true)) :
    Retains rq (rq.update (fun row => row.id = job) f keeps) := by
  intro other row' found
  rw [Table.get?_update_key] at found
  split at found
  · rename_i same
    subst same
    obtain ⟨row, present, rfl⟩ := Option.map_eq_some_iff.mp found
    exact ⟨row, present, change row present⟩
  · exact ⟨row', found, rfl, rfl, id⟩

theorem Retains.forget (rq : Rq) (job : JobId) : Retains rq (rq.forget job) := by
  intro other row' found
  have kept := Table.get?_delete rq (fun row => row.id = job) other
  rw [Rq.forget] at found
  rw [found] at kept
  exact ⟨row', (Option.filter_eq_some_iff.mp kept.symm).1, rfl, rfl, id⟩

theorem Retains.move {rq : Rq} {job : JobId} {row : RqJob} (found : rq.get? job = some row)
    (active : row.status.active = true) (status : RqJob → RqStatus) (retries : RqJob → Nat) :
    Retains rq (rq.update (fun row => row.id = job)
      (fun row => { row with status := status row, retriesLeft := retries row })
      fun _ => rfl) := by
  apply Retains.update
  intro other present
  rw [found] at present
  cases present
  exact ⟨rfl, rfl, fun _ => active⟩

def Linked (s : System) : Prop :=
  ∀ job a, s.attempts.get? job = some a → ∃ row, s.rq.get? job = some row ∧
    row.status = .started ∧ row.func = a.kind ∧ row.sessionId = a.session

/-- What the steps of RQ and of the workers outside a job's program leave alone. -/
structure Bookkeeping (env : Environment) (s s' : System) : Prop where
  db : s'.db = s.db
  forced : s'.forced = s.forced
  resets : s'.resets = s.resets
  provenance : s'.provenance = s.provenance
  rq : Retains s.rq s'.rq
  linked : Linked s'
  attempts : ∀ job a, s'.attempts.get? job = some a → s.attempts.get? job = some a ∨
    ∃ row, s.rq.get? job = some row ∧
      a = ⟨job, row.func, row.sessionId, jobProgram env row.func row.sessionId, none, none⟩

section Bookkeeping
variable {env : Environment} {s : System} {job : JobId}

theorem Bookkeeping.refl (linked : Linked s) : Bookkeeping env s s where
  db := rfl
  forced := rfl
  resets := rfl
  provenance := rfl
  rq := Retains.refl s.rq
  linked := linked
  attempts := fun _ _ found => .inl found

theorem mem_deleteAttempt {attempts : Table JobId Attempt Attempt.job} {other : JobId} {a : Attempt}
    (found : (attempts.delete fun b => b.job = job).get? other = some a) :
    attempts.get? other = some a ∧ other ≠ job := by
  rw [Table.get?_delete] at found
  obtain ⟨present, kept⟩ := Option.filter_eq_some_iff.mp found
  have key := Table.key_of_get? present
  have apart : a.job ≠ job := by simpa using kept
  exact ⟨present, key ▸ apart⟩

theorem Bookkeeping.release (linked : Linked s) {rq : Rq}
    {attempts : Table JobId Attempt Attempt.job} (retains : Retains s.rq rq)
    (elsewhere : ∀ other, other ≠ job → rq.get? other = s.rq.get? other)
    (kept : ∀ other a, attempts.get? other = some a →
      s.attempts.get? other = some a ∧ other ≠ job) :
    Bookkeeping env s { s with rq := rq, attempts := attempts } where
  db := rfl
  forced := rfl
  resets := rfl
  provenance := rfl
  rq := retains
  linked := by
    intro other a running
    obtain ⟨before, apart⟩ := kept other a running
    obtain ⟨row, found, facts⟩ := linked other a before
    exact ⟨row, (elsewhere other apart).trans found, facts⟩
  attempts := fun other a running => .inl (kept other a running).1

theorem get?_update_elsewhere (rq : Rq) (job : JobId) (f : RqJob → RqJob)
    (keeps : ∀ row, (f row).id = row.id) (other : JobId) (apart : other ≠ job) :
    (rq.update (fun row => row.id = job) f keeps).get? other = rq.get? other := by
  rw [Table.get?_update_key, if_neg apart]

theorem get?_forget_elsewhere (rq : Rq) (job other : JobId) (apart : other ≠ job) :
    (rq.forget job).get? other = rq.get? other := by
  have deleted := Table.get?_delete_key rq (fun row => row.id = job) (fun key => key = job)
    (fun _ => rfl) other
  exact deleted.trans (if_neg (by simpa using apart))

theorem idleStatus_some {status : RqStatus} (idle : s.idleStatus job = some status) :
    s.attempts.get? job = none ∧ ∃ row, s.rq.get? job = some row ∧ row.status = status := by
  unfold System.idleStatus at idle
  split at idle
  · cases idle
  · rename_i absent
    exact ⟨by simpa using absent, Option.map_eq_some_iff.mp idle⟩

theorem not_running {attempts : Table JobId Attempt Attempt.job}
    (idle : attempts.get? job = none) (other : JobId) (a : Attempt)
    (running : attempts.get? other = some a) : attempts.get? other = some a ∧ other ≠ job := by
  refine ⟨running, ?_⟩
  rintro rfl
  rw [idle] at running
  cases running

def bookkeeping : Label → Bool
  | .request _ _ _ | .advance _ _ => false
  | _ => true

theorem bookkeeping_start (linked : Linked s) : Bookkeeping env s (s.start env job) := by
  unfold System.start
  split
  · rename_i row found
    split
    · rename_i queued
      have kept : (s.rq.start job).get? job = some { row with status := .started } := by
        have updated := Table.get?_update_key s.rq job (fun row => { row with status := .started })
          (fun _ => rfl) job
        rw [if_pos rfl, found] at updated
        exact updated
      have same : Bookkeeping env s s := .refl linked
      refine { same with rq := ?_, linked := ?_, attempts := ?_ }
      · exact Retains.move found (by rw [queued]; rfl) (fun _ => .started) RqJob.retriesLeft
      · intro other a running
        dsimp only at running ⊢
        rw [Table.get?_put] at running
        split at running
        · rename_i same
          cases running
          exact ⟨{ row with status := .started }, same ▸ kept, rfl, rfl, rfl⟩
        · rename_i apart
          obtain ⟨row', present, facts⟩ := linked other a running
          have elsewhere := get?_update_elsewhere s.rq job
            (fun row => { row with status := .started }) (fun _ => rfl) other (Ne.symm apart)
          exact ⟨row', elsewhere.trans present, facts⟩
      · intro other a running
        dsimp only at running
        rw [Table.get?_put] at running
        split at running
        · rename_i same
          cases running
          exact .inr ⟨row, same ▸ found, by rw [← same]⟩
        · exact .inl running
    · exact .refl linked
  · exact .refl linked

theorem bookkeeping_settle (linked : Linked s) : Bookkeeping env s (s.settle job) := by
  unfold System.settle
  split
  · exact .refl linked
  · rename_i a running
    obtain ⟨row, found, started, -⟩ := linked job a running
    have active : row.status.active = true := by rw [started]; rfl
    split
    · apply Bookkeeping.release linked
      · exact Retains.move found active (fun _ => .finished) RqJob.retriesLeft
      · exact get?_update_elsewhere s.rq job _ _
      · exact fun other b => mem_deleteAttempt
    · apply Bookkeeping.release linked
      · exact Retains.move found active _ _
      · exact get?_update_elsewhere s.rq job _ _
      · exact fun other b => mem_deleteAttempt
    · exact .refl linked

theorem bookkeeping_die (linked : Linked s) : Bookkeeping env s (s.die job) := by
  apply Bookkeeping.release linked
  · exact Retains.refl s.rq
  · exact fun _ _ => rfl
  · exact fun other b => mem_deleteAttempt

theorem bookkeeping_reap (linked : Linked s) : Bookkeeping env s (s.reap job) := by
  unfold System.reap
  split
  · obtain ⟨idle, row, found, started⟩ := idleStatus_some ‹_›
    apply Bookkeeping.release linked
    · exact Retains.move found (by rw [started]; rfl) _ _
    · exact get?_update_elsewhere s.rq job _ _
    · exact not_running idle
  · exact .refl linked

theorem bookkeeping_due (linked : Linked s) : Bookkeeping env s (s.due job) := by
  unfold System.due
  split
  · obtain ⟨idle, row, found, scheduled⟩ := idleStatus_some ‹_›
    apply Bookkeeping.release linked
    · exact Retains.move found (by rw [scheduled]; rfl) (fun _ => .queued) RqJob.retriesLeft
    · exact get?_update_elsewhere s.rq job _ _
    · exact not_running idle
  · exact .refl linked

theorem bookkeeping_expire (linked : Linked s) : Bookkeeping env s (s.expire job) := by
  unfold System.expire
  split
  case h_5 =>
    cases status : s.idleStatus job with
    | none => simp_all
    | some status =>
        obtain ⟨idle, -⟩ := idleStatus_some status
        apply Bookkeeping.release linked
        · exact Retains.forget s.rq job
        · exact get?_forget_elsewhere s.rq job
        · exact not_running idle
  all_goals exact .refl linked

theorem bookkeeping_step (linked : Linked s) {label : Label} (kind : bookkeeping label = true) :
    Bookkeeping env s (s.step env label) := by
  cases label with
  | request auth session request => cases kind
  | advance job reaction => cases kind
  | start job => exact bookkeeping_start linked
  | settle job => exact bookkeeping_settle linked
  | die job => exact bookkeeping_die linked
  | reap job => exact bookkeeping_reap linked
  | due job => exact bookkeeping_due linked
  | expire job => exact bookkeeping_expire linked

end Bookkeeping

/-! ## Running jobs -/

def jobGuarantee (kind : JobKind) (session : Uuid) (pjs : Uuid → Prop) :
    Tx → Database → Database → Prop :=
  match kind with
  | .transcription => transcriptionGuarantee session
  | kind => artifactGuarantee kind session pjs

theorem jobGuarantee_artifact {kind : JobKind} (artifact : kind.isArtifact) (session : Uuid)
    (pjs : Uuid → Prop) : jobGuarantee kind session pjs = artifactGuarantee kind session pjs := by
  cases kind with
  | transcription => cases artifact
  | _ => rfl

theorem jobGuarantee_elsewhere {kind : JobKind} {session : Uuid} {pjs : Uuid → Prop} {tx : Tx}
    {db db' : Database} (change : jobGuarantee kind session pjs tx db db') {other : Uuid}
    (apart : other ≠ session) : view db' other = view db other := by
  cases kind with
  | transcription => exact change.1 other apart
  | _ => exact change.1 other apart

theorem Transcribes.frame {v v' : View} {tx : Tx} (change : Transcribes v tx v') :
    v' = { v with state := v'.state } := by
  cases change <;> rfl

theorem jobGuarantee_frame {kind : JobKind} {session : Uuid} {pjs : Uuid → Prop} {tx : Tx}
    {db db' : Database} (change : jobGuarantee kind session pjs tx db db') (other : Uuid) :
    view db' other =
      { view db other with
        state := (view db' other).state
        artifact := (view db' other).artifact } := by
  by_cases own : other = session
  · subst own
    cases kind with
    | transcription => exact (Transcribes.frame change.2).trans (by rw [Transcribes.frame change.2])
    | _ => exact change.2.rest.trans (by rw [change.2.rest])
  · rw [jobGuarantee_elsewhere change own]

theorem jobGuarantee_stored {kind : JobKind} {session : Uuid} {pjs : Uuid → Prop} {tx : Tx}
    {db db' : Database} (change : jobGuarantee kind session pjs tx db db') {other : Uuid}
    {target : ArtifactKind} {row : Artifact}
    (stored : (view db' other).artifact target = some row) :
    (view db other).artifact target = some row ∨
      other = session ∧ target ∈ tx.writes ∧ kind.produces pjs target ∧ row.isEdited = false := by
  by_cases own : other = session
  · subst own
    by_cases artifact : kind.isArtifact = true
    · rw [jobGuarantee_artifact artifact] at change
      by_cases member : target ∈ tx.writes
      · obtain ⟨produced, written, present, unedited⟩ := change.2.written target member
        rw [present] at stored
        cases stored
        exact .inr ⟨rfl, member, produced, unedited⟩
      · rcases change.2.unwritten target member with absent | same
        · rw [absent] at stored
          cases stored
        · exact .inl (same ▸ stored)
    · cases kind with
      | transcription =>
          rw [Transcribes.frame change.2] at stored
          exact .inl stored
      | _ => exact (artifact rfl).elim
  · exact .inl (jobGuarantee_elsewhere change own ▸ stored)

theorem jobGuarantee_spares {kind : JobKind} {session : Uuid} {pjs : Uuid → Prop} {tx : Tx}
    {db db' : Database} (change : jobGuarantee kind session pjs tx db db') {other : Uuid}
    {target : ArtifactKind} (outside : other = session → ¬kind.replaces pjs target) :
    (view db' other).artifact target = (view db other).artifact target := by
  by_cases own : other = session
  · subst own
    cases kind with
    | transcription => rw [Transcribes.frame change.2]
    | _ => exact change.2.within target (outside rfl)
  · rw [jobGuarantee_elsewhere change own]

theorem observe_source (s : System) (a : Attempt) (committed : Option Tx)
    (program : JobBody Unit) :
    (System.observe s a committed program).source =
      if committed = some .loadSource then some (s.resets a.session) else a.source := rfl

theorem observe_participants (s : System) (a : Attempt) (committed : Option Tx)
    (program : JobBody Unit) :
    (System.observe s a committed program).participants =
      if committed = some .loadParticipants then some (participants s.db a.session)
      else a.participants := rfl

variable {pjs : Uuid → Uuid → Prop}

/-- The transactions still to come keep the guarantee, while participants stay within `pjs`. -/
def Behaves (pjs : Uuid → Uuid → Prop) (a : Attempt) : Prop :=
  a.program.Guarantees (fun db => ∀ pj ∈ (view db a.session).participants, pjs a.session pj)
    (jobGuarantee a.kind a.session (pjs a.session))

theorem behaves_start (env : Environment) (job : JobId) (kind : JobKind) (session : Uuid) :
    Behaves pjs ⟨job, kind, session, jobProgram env kind session, none, none⟩ := by
  cases kind with
  | transcription => exact (transcriptionSteps session env).transcribeSession true
  | _ => exact (artifactSteps session env _ _).jobProgram rfl fun _ allowed => allowed

structure Sound (pjs : Uuid → Uuid → Prop) (s : System) : Prop where
  linked : Linked s
  behaves : ∀ job a, s.attempts.get? job = some a → Behaves pjs a

def Within (pjs : Uuid → Uuid → Prop) (db : Database) : Prop :=
  ∀ session, ∀ pj ∈ (view db session).participants, pjs session pj

section Advance
variable {s : System} {job : JobId} {a : Attempt} (found : s.attempts.get? job = some a)
  (reaction : Reaction effects)
include found

theorem advance_eq :
    s.advance job reaction =
      { s with
        db := (a.program.step reaction s.db).2
        attempts := s.attempts.put (System.observe s a (a.program.commits reaction)
          (a.program.step reaction s.db).1)
        provenance := fun session kind =>
          if session = a.session &&
              ((a.program.commits reaction).any fun tx => kind ∈ Tx.writes tx) then a.source
          else s.provenance session kind } := by
  unfold System.advance
  rw [found]

theorem provenance_advance (session : Uuid) (kind : ArtifactKind) :
    (s.advance job reaction).provenance session kind =
      if session = a.session ∧ ∃ tx, a.program.commits reaction = some tx ∧ kind ∈ Tx.writes tx then
        a.source
      else s.provenance session kind := by
  rw [advance_eq found]
  simp [Option.any_eq_true]

theorem attempts_advance (other : JobId) :
    (s.advance job reaction).attempts.get? other =
      if job = other then
        some (System.observe s a (a.program.commits reaction) (a.program.step reaction s.db).1)
      else s.attempts.get? other := by
  have key : a.job = job := Table.key_of_get? found
  rw [advance_eq found, ← key]
  exact Table.get?_put _ _ _

theorem Sound.commits (sound : Sound pjs s) (within : Within pjs s.db) :
    (∃ tx, a.program.commits reaction = some tx ∧
      jobGuarantee a.kind a.session (pjs a.session) tx s.db (s.advance job reaction).db) ∨
    a.program.commits reaction = none ∧ (s.advance job reaction).db = s.db := by
  rw [advance_eq found]
  exact ((sound.behaves job a found).step reaction s.db (within a.session)).2

theorem Sound.advance_frame (sound : Sound pjs s) (within : Within pjs s.db) (other : Uuid) :
    view (s.advance job reaction).db other =
      { view s.db other with
        state := (view (s.advance job reaction).db other).state
        artifact := (view (s.advance job reaction).db other).artifact } := by
  rcases sound.commits found reaction within with ⟨tx, -, change⟩ | ⟨-, same⟩
  · exact jobGuarantee_frame change other
  · rw [same]

end Advance

theorem advance_none {s : System} {job : JobId} (absent : s.attempts.get? job = none)
    (reaction : Reaction effects) : s.advance job reaction = s := by
  unfold System.advance
  rw [absent]

/-! ## Requests -/

section Requests
variable {env : Environment} {s : System} {auth : AuthenticatedKey} {session : Uuid}
  {request : Request}

theorem request_error {e : AppError}
    (refused : request.handle env s.db s.rq auth session = .error e) :
    s.request env auth session request = s := by
  unfold System.request
  rw [refused]

theorem request_ok {accepted : Accepted}
    (handled : request.handle env s.db s.rq auth session = .ok accepted) :
    s.request env auth session request =
      { s with
        db := accepted.db
        rq := accepted.rq
        forced := fun job =>
          if accepted.job = some job then request.force else s.forced job
        resets := fun other =>
          if other = session && request.resets then s.resets other + 1 else s.resets other } := by
  unfold System.request
  rw [handled]

theorem enqueues_get? {db : Database} {rq rq' : Rq} {kind : Option JobKind} {job : Option JobId}
    (enqueues : Enqueues db rq session kind job rq') {id : JobId} {row : RqJob}
    (found : rq'.get? id = some row) :
    (rq.get? id = some row ∧ job ≠ some id) ∨ ∃ kind', kind = some kind' ∧ job = some id ∧
      row = ⟨id, kind', session, .queued, defaultRetryMax⟩ := by
  cases kind with
  | none =>
      obtain ⟨rfl, rfl⟩ := enqueues
      exact .inl ⟨found, by simp⟩
  | some kind =>
      obtain ⟨new, rfl, free, -, rfl⟩ := enqueues
      rw [Table.get?_put] at found
      split at found
      · rename_i same
        cases found
        exact .inr ⟨kind, rfl, congrArg some same, by rw [← same]⟩
      · rename_i apart
        exact .inl ⟨found, fun same => apart (Option.some.inj same)⟩

theorem enqueues_keeps {db : Database} {rq rq' : Rq} {kind : Option JobKind} {job : Option JobId}
    (enqueues : Enqueues db rq session kind job rq') {id : JobId} {row : RqJob}
    (found : rq.get? id = some row) : rq'.get? id = some row := by
  cases kind with
  | none =>
      obtain ⟨-, rfl⟩ := enqueues
      exact found
  | some kind =>
      obtain ⟨new, -, free, -, rfl⟩ := enqueues
      have apart : new ≠ id := by
        rintro rfl
        rw [free] at found
        cases found
      exact (Table.get?_put _ _ _).trans ((if_neg apart).trans found)

end Requests

section Keeps
variable {P : System → Prop} {env : Environment} {s : System} (kept : P s)
include kept

theorem request_keeps {auth : AuthenticatedKey} {session : Uuid} {request : Request}
    (accepts : ∀ accepted, request.handle env s.db s.rq auth session = .ok accepted →
      P (s.request env auth session request)) :
    P (s.step env (.request auth session request)) := by
  rw [System.step]
  cases handled : request.handle env s.db s.rq auth session with
  | error e =>
      rw [request_error handled]
      exact kept
  | ok accepted => exact accepts accepted handled

theorem advance_keeps {job : JobId} {reaction : Reaction effects}
    (runs : ∀ a, s.attempts.get? job = some a → P (s.advance job reaction)) :
    P (s.step env (.advance job reaction)) := by
  rw [System.step]
  cases running : s.attempts.get? job with
  | none =>
      rw [advance_none running]
      exact kept
  | some a => exact runs a running

end Keeps

theorem within_trivial (db : Database) : Within (fun _ _ => True) db := fun _ _ _ => trivial

theorem sound_initial (pjs : Uuid → Uuid → Prop) (db : Database) :
    Sound pjs (System.initial db) where
  linked := fun _ _ found => by cases found
  behaves := fun _ _ found => by cases found

theorem sound_step (env : Environment) {s : System} (sound : Sound pjs s)
    (within : Within pjs s.db) (label : Label) : Sound pjs (s.step env label) := by
  by_cases kind : bookkeeping label = true
  · have keeps : Bookkeeping env s (s.step env label) := bookkeeping_step sound.linked kind
    refine ⟨keeps.linked, fun job a running => ?_⟩
    rcases keeps.attempts job a running with before | ⟨row, -, rfl⟩
    · exact sound.behaves job a before
    · exact behaves_start env job row.func row.sessionId
  · cases label with
    | request auth session request =>
        refine request_keeps sound fun accepted handled => ?_
        have enqueues := (handle_ok handled).2
        rw [request_ok handled]
        refine ⟨fun job a running => ?_, sound.behaves⟩
        obtain ⟨row, found, facts⟩ := sound.linked job a running
        exact ⟨row, enqueues_keeps enqueues found, facts⟩
    | advance job reaction =>
        refine advance_keeps sound fun a found => ?_
        have rq : (s.advance job reaction).rq = s.rq := by rw [advance_eq found]
        constructor
        · intro other b running
          rw [attempts_advance found] at running
          rw [rq]
          split at running
          · rename_i same
            cases running
            exact sound.linked other a (same ▸ found)
          · exact sound.linked other b running
        · intro other b running
          rw [attempts_advance found] at running
          split at running
          · cases running
            exact ((sound.behaves job a found).step reaction s.db (within a.session)).1
          · exact sound.behaves other b running
    | _ => exact (kind rfl).elim

/-- Only the final commit of its worker makes a session transcribed. -/
theorem transcribed_step {env : Environment} {s : System} (sound : Sound (fun _ _ => True) s)
    (label : Label) {session : Uuid}
    (after : (view (s.step env label).db session).state = some .transcribed) :
    (view s.db session).state = some .transcribed ∨ ∃ job reaction a,
      label = .advance job reaction ∧ s.attempts.get? job = some a ∧
        a.program.commits reaction = some .persist ∧ a.session = session := by
  by_cases kind : bookkeeping label = true
  · have keeps : Bookkeeping env s (s.step env label) := bookkeeping_step sound.linked kind
    exact .inl (keeps.db ▸ after)
  · cases label with
    | request auth other request =>
        left
        cases handled : request.handle env s.db s.rq auth other with
        | error e => rwa [System.step, request_error handled] at after
        | ok accepted =>
            obtain ⟨⟨elsewhere, changes⟩, -⟩ := handle_ok handled
            rw [System.step, request_ok handled] at after
            by_cases same : session = other
            · subst same
              exact changes_to_transcribed changes after
            · rwa [← elsewhere session same]
    | advance job reaction =>
        rw [System.step] at after
        cases found : s.attempts.get? job with
        | none =>
            rw [advance_none found] at after
            exact .inl after
        | some a =>
            rcases sound.commits found reaction (within_trivial s.db) with
              ⟨tx, commits, change⟩ | ⟨-, same⟩
            · by_cases own : session = a.session
              · subst own
                cases kind : a.kind with
                | transcription =>
                    rw [kind] at change
                    have moved := change.2
                    generalize view (s.advance job reaction).db a.session = v' at moved after
                    generalize view s.db a.session = v at moved
                    cases moved with
                    | nothing => exact .inl after
                    | persists => exact .inr ⟨job, reaction, a, rfl, found, commits, rfl⟩
                    | begins | fails | restores => simp [View.inState] at after
                | _ =>
                    rw [kind] at change
                    have rest := congrArg View.state change.2.rest
                    exact .inl (rest ▸ after)
              · exact .inl (jobGuarantee_elsewhere change own ▸ after)
            · exact .inl (same ▸ after)
    | _ => exact (kind rfl).elim

def Heard (s : System) : Prop :=
  ∀ job row, s.rq.get? job = some row → row.func = .transcription →
    (view s.db row.sessionId).audio ≠ none

theorem heard_step (env : Environment) {s : System} (sound : Sound pjs s)
    (within : Within pjs s.db) (heard : Heard s) (label : Label) : Heard (s.step env label) := by
  by_cases kind : bookkeeping label = true
  · have keeps : Bookkeeping env s (s.step env label) := bookkeeping_step sound.linked kind
    intro job row' found transcribes
    obtain ⟨row, before, func, session, -⟩ := keeps.rq job row' found
    rw [keeps.db, session]
    exact heard job row before (func ▸ transcribes)
  · cases label with
    | request auth session request =>
        refine request_keeps heard fun accepted handled => ?_
        obtain ⟨⟨others, changes⟩, enqueues⟩ := handle_ok handled
        rw [request_ok handled]
        intro job row found transcribes
        rcases enqueues_get? enqueues found with ⟨before, -⟩ | ⟨kind', enqueued, -, rfl⟩
        · have audio := heard job row before transcribes
          by_cases same : row.sessionId = session
          · rw [same] at audio ⊢
            exact changes_audio changes audio
          · dsimp only
            rw [others _ same]
            exact audio
        · obtain rfl : kind' = .transcription := transcribes
          dsimp only
          rw [changes_transcription changes enqueued]
          exact Option.some_ne_none none
    | advance job reaction =>
        refine advance_keeps heard fun a running => ?_
        intro other row found transcribes
        rw [sound.advance_frame running reaction within]
        rw [advance_eq running] at found
        exact heard other row found transcribes
    | _ => exact (kind rfl).elim

def gameMaster : AuthenticatedKey := ⟨7, .apiKey, none⟩

end Kaeyris.Proof
