import Kaeyris.Proof.Provenance
import Kaeyris.Recovery

/-!
# Recovery beside a worker

A recover request decides on two reads and writes afterwards. It leaves a finished transcription
alone when the worker does not commit between these reads and the write.
-/

namespace Kaeyris.Proof
open Lib Jobs Recovery

/-- A commit of a recover request does not move a transcribed session. -/
def SparesTranscribed (env : Environment) (s : Recovery) (label : Recovery.Label) : Prop :=
  ∀ recover session, label = .commit recover →
    (view s.system.db session).state = some .transcribed →
      (view (s.step env label).system.db session).state = some .transcribed

/-- No output is persisted while a recover of its session stands between its accepted read of RQ
and its commit, and none accepts what RQ says once the session is transcribed. -/
def Ordered (s : Recovery) : Recovery.Label → Prop
  | .system (.advance job reaction) => ∀ a, s.system.attempts.get? job = some a →
      a.program.commits reaction = some .persist →
        ∀ r ∈ s.recovers.rows, r.row.id = a.session → r.cleared = false
  | .readRq recover => ∀ r, s.recovers.get? recover = some r →
      r.row.currentJobId.any (isRqJobActive s.system.rq) = false →
        (view s.system.db r.row.id).state ≠ some .transcribed
  | _ => True

structure RecoversSafely (s : Recovery) : Prop where
  sound : Sound (fun _ _ => True) s.system
  cleared : ∀ r ∈ s.recovers.rows, r.cleared = true →
    (view s.system.db r.row.id).state ≠ some .transcribed

section Steps
variable {env : Environment} {s : Recovery}

theorem state_writes (row : Session) (db : Database) (session : Uuid) :
    (view (writes row db) session).state =
      if session = row.id then (view db session).state.map fun _ => .transcriptionFailed
      else (view db session).state := by
  have updated := Table.get?_update_key db.sessions row.id
    (fun r => { r with state := .transcriptionFailed }) (fun _ => rfl) session
  have sessions : (writes row db).sessions = db.sessions.update (fun r => r.id = row.id)
      (fun r => { r with state := .transcriptionFailed }) fun _ => rfl := by
    unfold writes
    split <;> rfl
  have state (db : Database) :
      (view db session).state = (db.sessions.get? session).map Session.state := rfl
  rw [state, state, sessions, updated]
  by_cases same : session = row.id
  · rw [if_pos same, if_pos same, Option.map_map, Option.map_map]
    rfl
  · rw [if_neg same, if_neg same]

theorem not_transcribed_writes {row : Session} {db : Database} {session : Uuid}
    (before : (view db session).state ≠ some .transcribed) :
    (view (writes row db) session).state ≠ some .transcribed := by
  rw [state_writes]
  split
  · cases (view db session).state <;> simp
  · exact before

theorem recoversSafely_finish (safe : RecoversSafely s) (recover : Nat) :
    RecoversSafely (s.finish recover) :=
  ⟨safe.sound, fun r member => safe.cleared r (List.mem_of_mem_filter member)⟩

theorem recoversSafely_step (safe : RecoversSafely s) (label : Recovery.Label)
    (ordered : Ordered s label) : RecoversSafely (s.step env label) := by
  cases label with
  | system label =>
      refine ⟨sound_step env safe.sound (within_trivial _) label, fun r member cleared after => ?_⟩
      rcases transcribed_step safe.sound label after with before | ⟨job, reaction, a, rfl, found,
        persists, own⟩
      · exact safe.cleared r member cleared before
      · have idle := ordered a found persists r member own.symm
        rw [idle] at cleared
        cases cleared
  | readSession recover auth session =>
      simp only [Recovery.step, readSession]
      split
      · exact safe
      · split
        · exact safe
        · rename_i row _ _
          cases inserted : s.recovers.insert? ⟨recover, row, false⟩ with
          | none => exact safe
          | some recovers =>
              refine ⟨safe.sound, fun r member cleared => ?_⟩
              rw [(Table.insert?_eq_some.mp inserted).2, List.mem_append,
                List.mem_singleton] at member
              rcases member with old | rfl
              · exact safe.cleared r old cleared
              · cases cleared
  | readRq recover =>
      simp only [Recovery.step, readRq]
      split
      · exact safe
      · rename_i r found
        split
        · exact recoversSafely_finish safe recover
        · rename_i idle
          refine ⟨safe.sound, fun q member cleared => ?_⟩
          have stored := Table.get?_self member
          rw [Table.get?_put] at stored
          split at stored
          · cases stored
            exact ordered r found (by simpa using idle)
          · exact safe.cleared q (Table.mem_of_get? stored) cleared
  | commit recover =>
      simp only [Recovery.step, Recovery.commit]
      split
      · exact safe
      · split
        · refine ⟨⟨safe.sound.linked, safe.sound.behaves⟩, fun q member cleared => ?_⟩
          exact not_transcribed_writes
            (safe.cleared q (List.mem_of_mem_filter member) cleared)
        · exact safe
  | abort recover => exact recoversSafely_finish safe recover

theorem spares_of_safe (safe : RecoversSafely s) (label : Recovery.Label) :
    SparesTranscribed env s label := by
  rintro recover session rfl transcribed
  simp only [Recovery.step, Recovery.commit]
  split
  · exact transcribed
  · rename_i r found
    split
    · rename_i cleared
      have apart : session ≠ r.row.id := by
        rintro rfl
        exact safe.cleared r (Table.mem_of_get? found) cleared transcribed
      show (view (writes r.row s.system.db) session).state = some .transcribed
      rw [state_writes, if_neg apart]
      exact transcribed
    · exact transcribed

end Steps

/-- Whatever the other requests and jobs do, a recover request spares a finished transcription when
its reads and its commit are in order with the worker's last commit. -/
theorem finished_transcription_spared (env : Environment) (db : Database)
    (run : List Recovery.Label)
    (ordered : Along (Recovery.step env) Ordered (.initial db) run) :
    Along (Recovery.step env) (SparesTranscribed env) (.initial db) run := by
  have start : RecoversSafely (.initial db) := by
    refine ⟨sound_initial _ db, fun r member => ?_⟩
    cases member
  exact Along.of_invariant (fun _ label safe ok => recoversSafely_step safe label ok)
    (fun _ label safe _ => spares_of_safe safe label) start ordered

/-! ## Two runs -/

def refusedRecover : List Recovery.Label :=
  .system (.request gameMaster 1 (.postAudio smallUpload none)) :: .system (.start 1) ::
      List.replicate 9 (.system (.advance 1 obliging)) ++
    [.readSession 0 gameMaster 1, .system (.advance 1 obliging), .readRq 0] ++
      List.replicate 5 (.system (.advance 1 obliging)) ++ [.commit 0, .system (.settle 1)]

def lostWorker : List Recovery.Label :=
  [.system (.request gameMaster 1 .restartTranscription), .system (.start 2),
    .system (.advance 2 obliging), .system (.die 2), .system (.expire 2),
    .readSession 1 gameMaster 1, .readRq 1, .commit 1]

def ordered (s : Recovery) : Recovery.Label → Bool
  | .system (.advance job reaction) => (s.system.attempts.get? job).all fun a =>
      a.program.commits reaction ≠ some .persist ||
        s.recovers.rows.all fun r => r.row.id ≠ a.session || !r.cleared
  | .readRq recover => (s.recovers.get? recover).all fun r =>
      r.row.currentJobId.any (isRqJobActive s.system.rq) ||
        (view s.system.db r.row.id).state ≠ some .transcribed
  | _ => true

theorem ordered_holds {s : Recovery} {label : Recovery.Label} (holds : ordered s label = true) :
    Ordered s label := by
  cases label with
  | system label =>
      cases label with
      | advance job reaction =>
          intro a running commits r member own
          rw [ordered, running, Option.all_some, commits, Bool.or_eq_true] at holds
          have idle := List.all_eq_true.mp (holds.resolve_left (by decide)) r member
          rw [Bool.or_eq_true] at idle
          simpa [own] using idle
      | _ => trivial
  | readRq recover =>
      intro r found inactive
      rw [ordered, found, Option.all_some, inactive, Bool.false_or] at holds
      exact of_decide_eq_true holds
  | _ => trivial

theorem finished_transcription_spared_lost_worker :
    let finished := final (Recovery.step sampleEnvironment) (.initial createdDatabase)
      refusedRecover
    let recovered := final (Recovery.step sampleEnvironment) finished lostWorker
    Along (Recovery.step sampleEnvironment) (SparesTranscribed sampleEnvironment)
        (.initial createdDatabase) (refusedRecover ++ lostWorker) ∧
      (view finished.system.db 1).state = some .transcribed ∧
      (view recovered.system.db 1).state = some .transcriptionFailed := by
  have along : Along (Recovery.step sampleEnvironment) (fun s label => ordered s label = true)
      (.initial createdDatabase) (refusedRecover ++ lostWorker) := by decide +kernel
  refine ⟨?_, by decide +kernel, by decide +kernel⟩
  exact finished_transcription_spared _ _ _ (along.weaken fun _ _ => ordered_holds)

/-- The worker commits and ends its job after the request has read the session's row. -/
theorem finished_transcription_lost :
    ¬Along (Recovery.step sampleEnvironment) (SparesTranscribed sampleEnvironment)
      (.initial createdDatabase)
      ((.system (.request gameMaster 1 (.postAudio smallUpload none)) :: .system (.start 1) ::
        List.replicate 9 (.system (.advance 1 obliging)) ++
        .readSession 0 gameMaster 1 :: List.replicate 2 (.system (.advance 1 obliging)) ++
        [.system (.settle 1), .readRq 0]) ++ .commit 0 :: []) := by
  intro along
  have moved := along.at_split 0 1 rfl (by decide +kernel)
  revert moved
  decide +kernel

theorem recoverStuckTranscription_eq {db : Database} {rq : Rq} {row : Session}
    (stuck : row.state = .transcribing)
    (idle : ¬row.currentJobId.any (isRqJobActive rq) = true) :
    Logic.recoverStuckTranscription db rq row = .ok (writes row db) := by
  refine (if_neg (not_not_intro stuck)).trans ((if_neg idle).trans ?_)
  unfold writes
  cases row.currentJobId with
  | none => rfl
  | some job => rfl

theorem recover_alone (env : Environment) {s : Recovery} {recover : Nat}
    (free : s.recovers.get? recover = none) (auth : AuthenticatedKey) (session : Uuid) :
    (((s.step env (.readSession recover auth session)).step env (.readRq recover)).step env
      (.commit recover)).system.db =
      (s.system.request env auth session .recoverStuckTranscription).db := by
  unfold System.request Request.handle Router.recoverStuckTranscription
  cases resolved : Router.requireSession s.system.db session auth with
  | error e =>
      simp [Recovery.step, readSession, readRq, Recovery.commit, resolved, free, bind, Except.bind,
        Except.map]
  | ok row =>
      by_cases stuck : row.state = .transcribing
      · obtain ⟨recovers, inserted, -⟩ :=
          Table.insert?_of_free (r := (⟨recover, row, false⟩ : Recover)) free
        have found := Table.get?_insert? inserted recover
        rw [if_pos rfl] at found
        have read : s.readSession recover auth session = { s with recovers := recovers } := by
          simp [readSession, resolved, stuck, inserted]
        by_cases active : row.currentJobId.any (isRqJobActive s.system.rq) = true
        · have gone : (recovers.delete fun r => r.id = recover).get? recover = none := by
            rw [Table.get?_delete_key recovers _ (fun key => key = recover) (fun _ => rfl)]
            simp
          simp [Recovery.step, read, readRq, found, active, Recovery.finish, Recovery.commit, gone,
            Logic.recoverStuckTranscription, stuck, bind, Except.bind, Except.map, Except.mapError]
        · have cleared : (recovers.put ⟨recover, row, true⟩).get? recover =
              some ⟨recover, row, true⟩ := by
            rw [Table.get?_put, if_pos rfl]
          simp [Recovery.step, read, readRq, found, active, Recovery.finish, Recovery.commit,
            cleared, recoverStuckTranscription_eq stuck active, bind, Except.bind, Except.map,
            Except.mapError]
      · simp [Recovery.step, readSession, readRq, Recovery.commit, resolved, stuck, free, bind,
          Except.bind, Except.map, Logic.recoverStuckTranscription, Except.mapError]

end Kaeyris.Proof
