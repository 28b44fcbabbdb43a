import Kaeyris.Proof.Frame

/-!
# Purge and restart

Both operations drop what was derived from a session's audio. `Cleared` is what either should leave
behind; what they keep is settled here, and whether an upload can follow a purge.
-/

namespace Kaeyris.Proof
open Lib Logic

structure Cleared (db : Database) (session : Uuid) : Prop where
  transcription : TranscriptionRepository.getForSession db session = none
  chunks : ChunkRepository.listForSession db session = []
  mappings : MappingRepository.getForSession db session = []
  artifacts : ArtifactRepository.listForSession db session = []
  edited : (db.sessions.get? session).bind Session.editedTranscriptMd = none

/-! ## What the two operations compute -/

def purgedAudio (db : Database) (session : Uuid) (now : Timestamp) : Database :=
  match SessionRepository.getAudioSource db session with
  | some audio =>
      if audio.purgedAt.isNone then SessionRepository.markAudioPurged db session now else db
  | none => db

def droppedOutputs (db : Database) (session : Uuid) : Database :=
  let db₁ := TranscriptionRepository.deleteForSession db session
  let db₂ := ChunkRepository.deleteForSession db₁ session
  let db₃ := ArtifactRepository.deleteForSession db₂ session
  let db₄ := SessionRepository.clearEditedTranscript db₃ session
  let db₅ := SessionRepository.clearCurrentJobId db₄ session
  SessionRepository.updateState db₅ session .created

theorem purgeAudioForSession_ok {disk disk' : Disk} {db db' : Database} {row : Session}
    {now : Timestamp} {unlinked : Bool}
    (purged : purgeAudioForSession disk db row now unlinked = .ok (disk', db')) :
    row.state ≠ .transcribing ∧ db' = droppedOutputs (purgedAudio db row.id now) row.id := by
  unfold purgeAudioForSession at purged
  split at purged
  case isTrue => cases purged
  case isFalse allowed =>
    refine ⟨allowed, ?_⟩
    simp only [Except.ok.injEq, Prod.mk.injEq] at purged
    rw [← purged.2, droppedOutputs, purgedAudio]
    cases SessionRepository.getAudioSource db row.id with
    | none => rfl
    | some audio =>
        dsimp only
        split <;> rfl

theorem purgeAudioForSession_accepts (disk : Disk) (db : Database) (row : Session)
    (now : Timestamp) (unlinked : Bool) (allowed : row.state ≠ .transcribing) :
    ∃ disk', purgeAudioForSession disk db row now unlinked =
      .ok (disk', droppedOutputs (purgedAudio db row.id now) row.id) := by
  cases outcome : purgeAudioForSession disk db row now unlinked with
  | error failure => simp [purgeAudioForSession, allowed] at outcome
  | ok result =>
      obtain ⟨disk', db'⟩ := result
      obtain ⟨-, rfl⟩ := purgeAudioForSession_ok outcome
      exact ⟨disk', rfl⟩

theorem restartTranscriptionForSession_ok {db : Database} {rq : Rq} {row : Session}
    {result : JobId × Database × Rq}
    (restarted : restartTranscriptionForSession db rq row = .ok result) :
    restartable row.state = true ∧ usableAudio db row.id = true ∧
      result = enqueueSessionJob
        (SessionRepository.updateState (deleteTranscriptionOutputsForRestart db row.id) row.id
          .audioUploaded) rq row.id .transcription := by
  unfold restartTranscriptionForSession at restarted
  split at restarted
  case isTrue => cases restarted
  case isFalse state =>
    split at restarted
    case isTrue => cases restarted
    case isFalse audio =>
      refine ⟨by simpa using state, by simpa using audio, ?_⟩
      cases restarted
      rfl

/-! ## What they leave behind -/

theorem getMapping_eq_nil {db : Database} {session : Uuid} :
    MappingRepository.getForSession db session = [] ↔
      ∀ row ∈ db.mappings.rows, row.sessionId ≠ session := by
  simp [MappingRepository.getForSession, Table.insertionSort_eq_nil, Table.select,
    List.filter_eq_nil_iff]

theorem purgedAudio_mappings (db : Database) (session : Uuid) (now : Timestamp) :
    (purgedAudio db session now).mappings = db.mappings := by
  unfold purgedAudio
  split
  · split <;> rfl
  · rfl

theorem purgedAudio_sessions (db : Database) (session : Uuid) (now : Timestamp) :
    (purgedAudio db session now).sessions = db.sessions := by
  unfold purgedAudio
  split
  · split <;> rfl
  · rfl

theorem others_purgedAudio (db : Database) (session : Uuid) (now : Timestamp) :
    (purgedAudio db session now).others session = db.others session := by
  unfold purgedAudio
  split
  · split
    · exact Database.others_markAudioPurged db session now
    · rfl
  · rfl

theorem droppedOutputs_keeps (db : Database) (session : Uuid) :
    (droppedOutputs db session).mappings = db.mappings ∧
      (droppedOutputs db session).audioSources = db.audioSources := by
  simp only [droppedOutputs, SessionRepository.updateState, SessionRepository.clearCurrentJobId,
    SessionRepository.setCurrentJobId, SessionRepository.clearEditedTranscript,
    ArtifactRepository.deleteForSession, ChunkRepository.deleteForSession,
    TranscriptionRepository.deleteForSession, and_self]

theorem getForSession_droppedOutputs (db : Database) (session : Uuid) :
    MappingRepository.getForSession (droppedOutputs db session) session =
      MappingRepository.getForSession db session := by
  rw [MappingRepository.getForSession, (droppedOutputs_keeps db session).1]
  rfl

/-- A purge misses one thing: the speaker mapping. -/
theorem cleared_droppedOutputs (db : Database) (session : Uuid) :
    Cleared (droppedOutputs db session) session ↔
      MappingRepository.getForSession db session = [] := by
  rw [← getForSession_droppedOutputs]
  constructor
  · exact fun cleared => cleared.mappings
  · intro none
    exact
      { transcription := by
          simp [droppedOutputs, TranscriptionRepository.getForSession,
            TranscriptionRepository.deleteForSession, ChunkRepository.deleteForSession,
            ArtifactRepository.deleteForSession, SessionRepository.clearEditedTranscript,
            SessionRepository.clearCurrentJobId, SessionRepository.setCurrentJobId,
            SessionRepository.updateState, Table.get?_eq_none]
        chunks := Table.insertionSort_eq_nil.mpr (Table.select_delete_self _ _)
        mappings := none
        artifacts := Table.select_delete_self _ _
        edited := by
          simp only [droppedOutputs, SessionRepository.updateState,
            SessionRepository.clearCurrentJobId, SessionRepository.setCurrentJobId,
            SessionRepository.clearEditedTranscript, Table.get?_update]
          cases found : (ArtifactRepository.deleteForSession (ChunkRepository.deleteForSession
              (TranscriptionRepository.deleteForSession db session) session)
              session).sessions.get? session with
          | none => rfl
          | some row => simp [Table.key_of_get? found] }

theorem cleared_restarted (db : Database) (rq : Rq) (session : Uuid) :
    Cleared (enqueueSessionJob
      (SessionRepository.updateState (deleteTranscriptionOutputsForRestart db session) session
        .audioUploaded) rq session .transcription).2.1 session where
  transcription := by
    simp [enqueueSessionJob, deleteTranscriptionOutputsForRestart,
      TranscriptionRepository.getForSession, TranscriptionRepository.deleteForSession,
      ChunkRepository.deleteForSession, MappingRepository.deleteForSession,
      ArtifactRepository.deleteForSession, SessionRepository.clearEditedTranscript,
      SessionRepository.setCurrentJobId, SessionRepository.updateState,
      JobRepository.upsertStatus, Table.get?_eq_none]
  chunks := Table.insertionSort_eq_nil.mpr (Table.select_delete_self _ _)
  mappings := Table.insertionSort_eq_nil.mpr (Table.select_delete_self _ _)
  artifacts := Table.select_delete_self _ _
  edited := by
    simp only [enqueueSessionJob, deleteTranscriptionOutputsForRestart,
      SessionRepository.updateState, SessionRepository.setCurrentJobId,
      SessionRepository.clearEditedTranscript, JobRepository.upsertStatus, Table.get?_update]
    cases found : (ArtifactRepository.deleteForSession (MappingRepository.deleteForSession
        (ChunkRepository.deleteForSession (TranscriptionRepository.deleteForSession db session)
          session) session) session).sessions.get? session with
    | none => rfl
    | some row => simp [Table.key_of_get? found]

theorem others_droppedOutputs (db : Database) (session : Uuid) :
    (droppedOutputs db session).others session = db.others session := by
  simp [droppedOutputs]

theorem others_restarted (db : Database) (rq : Rq) (session : Uuid) :
    (enqueueSessionJob
      (SessionRepository.updateState (deleteTranscriptionOutputsForRestart db session) session
        .audioUploaded) rq session .transcription).2.1.others session = db.others session := by
  rw [others_enqueueSessionJob]
  simp [deleteTranscriptionOutputsForRestart]

/-! ## The two paths compared -/

/-- Whichever of the two operations succeeds, the session is clear and no other one has changed. -/
def ResetsClear (db : Database) (rq : Rq) (row : Session) : Prop :=
  (∀ disk disk' now unlinked db', purgeAudioForSession disk db row now unlinked = .ok (disk', db') →
    Cleared db' row.id ∧ db'.others row.id = db.others row.id) ∧
  ∀ result, restartTranscriptionForSession db rq row = .ok result →
    Cleared result.2.1 row.id ∧ result.2.1.others row.id = db.others row.id

/-- Restart always clears the session; purge does unless there is a speaker mapping to miss. -/
theorem resetsClear_iff (db : Database) (rq : Rq) (row : Session) :
    ResetsClear db rq row ↔
      row.state = .transcribing ∨ MappingRepository.getForSession db row.id = [] := by
  constructor
  · rintro ⟨purge, -⟩
    by_cases busy : row.state = .transcribing
    · exact .inl busy
    · right
      obtain ⟨disk', accepted⟩ :=
        purgeAudioForSession_accepts (fun _ => none) db row 0 true busy
      obtain ⟨cleared, -⟩ := purge _ _ _ _ _ accepted
      have mappings := (cleared_droppedOutputs _ _).mp cleared
      simpa only [MappingRepository.getForSession, purgedAudio_mappings] using mappings
  · intro condition
    constructor
    · intro disk disk' now unlinked db' purged
      obtain ⟨allowed, rfl⟩ := purgeAudioForSession_ok purged
      rcases condition with busy | none
      · exact (allowed busy).elim
      · constructor
        · rw [cleared_droppedOutputs]
          simpa only [MappingRepository.getForSession, purgedAudio_mappings] using none
        · rw [others_droppedOutputs, others_purgedAudio]
    · intro result restarted
      obtain ⟨-, -, rfl⟩ := restartTranscriptionForSession_ok restarted
      exact ⟨cleared_restarted _ _ _, others_restarted _ _ _⟩

def mappedSession : Session where
  id := 1
  gmKeyId := 7
  campaignId := none
  state := .transcribed
  transcriptionMode := .diarised
  campaignContext := none
  editedTranscriptMd := none
  currentJobId := none

def mappedDatabase : Database :=
  { Database.empty with
    sessions := ⟨[mappedSession], by decide⟩
    mappings := ⟨[⟨1, ['a'], 5⟩], by decide⟩ }

theorem purge_keeps_mapping : ¬ResetsClear mappedDatabase .empty mappedSession := by
  rintro ⟨purge, -⟩
  obtain ⟨disk', accepted⟩ := purgeAudioForSession_accepts (fun _ => none) mappedDatabase
    mappedSession 0 true (by decide)
  obtain ⟨cleared, -⟩ := purge _ _ _ _ _ accepted
  have mappings := (cleared_droppedOutputs _ _).mp cleared
  rw [getMapping_eq_nil, purgedAudio_mappings] at mappings
  exact mappings ⟨1, ['a'], 5⟩ (by decide) rfl

end Kaeyris.Proof
