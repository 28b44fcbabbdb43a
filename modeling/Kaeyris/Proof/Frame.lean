import Kaeyris.Logic

/-!
# The rows of other sessions

`Database.others` collects what a database stores for every session but one. An operation on that
session is local when it leaves this collection alone.
-/

namespace Kaeyris
open Lib

structure Others where
  sessions : List Session
  audioSources : List AudioSource
  transcriptions : List Transcription
  mappings : List SessionPjMapping
  artifacts : List Artifact
  jobs : List Kaeyris.Job
  chunks : List Chunk
  players : List SessionPlayer

def Database.others (db : Database) (session : Uuid) : Others where
  sessions := db.sessions.rows.filter fun row => row.id ≠ session
  audioSources := db.audioSources.rows.filter fun row => row.sessionId ≠ session
  transcriptions := db.transcriptions.rows.filter fun row => row.sessionId ≠ session
  mappings := db.mappings.rows.filter fun row => row.sessionId ≠ session
  artifacts := db.artifacts.rows.filter fun row => row.sessionId ≠ session
  jobs := db.jobs.rows.filter fun row => row.sessionId ≠ session
  chunks := db.chunks.rows.filter fun row => row.sessionId ≠ session
  players := db.players.rows.filter fun row => row.sessionId ≠ session

namespace Database
variable (db : Database) (session : Uuid)

/-! ## The repositories are local -/

theorem others_updateSession (f : Session → Session) (keeps : ∀ row, (f row).id = row.id) :
    { db with sessions := db.sessions.update (fun row => row.id = session) f keeps }.others
      session = db.others session := by
  have kept : (db.sessions.update (fun row => row.id = session) f keeps).rows.filter
      (fun row => row.id ≠ session) = db.sessions.rows.filter fun row => row.id ≠ session := by
    apply Table.filter_update
    · simp
    · simp [keeps]
  exact congrArg (fun rows => { db.others session with sessions := rows }) kept

@[simp] theorem others_updateState (state : SessionState) :
    (SessionRepository.updateState db session state).others session = db.others session :=
  others_updateSession db session _ _

@[simp] theorem others_setCurrentJobId (job : Option JobId) :
    (SessionRepository.setCurrentJobId db session job).others session = db.others session :=
  others_updateSession db session _ _

@[simp] theorem others_clearCurrentJobId :
    (SessionRepository.clearCurrentJobId db session).others session = db.others session :=
  others_updateSession db session _ _

@[simp] theorem others_clearEditedTranscript :
    (SessionRepository.clearEditedTranscript db session).others session = db.others session :=
  others_updateSession db session _ _

@[simp] theorem others_markAudioPurged (now : Timestamp) :
    (SessionRepository.markAudioPurged db session now).others session = db.others session := by
  have kept : (db.audioSources.update (fun row => row.sessionId = session)
      (fun row => { row with purgedAt := some now })).rows.filter
        (fun row => row.sessionId ≠ session) =
      db.audioSources.rows.filter fun row => row.sessionId ≠ session := by
    apply Table.filter_update
    · simp
    · simp
  exact congrArg (fun rows => { db.others session with audioSources := rows }) kept

@[simp] theorem others_deleteTranscription :
    (TranscriptionRepository.deleteForSession db session).others session = db.others session :=
  congrArg (fun rows => { db.others session with transcriptions := rows })
    (Table.filter_delete _ (by simp))

@[simp] theorem others_deleteMappings :
    (MappingRepository.deleteForSession db session).others session = db.others session :=
  congrArg (fun rows => { db.others session with mappings := rows })
    (Table.filter_delete _ (by simp))

theorem others_removeArtifacts {db : Database} {session : Uuid} {p : Artifact → Bool}
    (own : ∀ row, p row → row.sessionId = session) :
    { db with artifacts := db.artifacts.delete p }.others session = db.others session := by
  have kept : (db.artifacts.delete p).rows.filter (fun row => row.sessionId ≠ session) =
      db.artifacts.rows.filter fun row => row.sessionId ≠ session := by
    apply Table.filter_delete
    intro row deleted
    simpa using own row deleted
  exact congrArg (fun rows => { db.others session with artifacts := rows }) kept

@[simp] theorem others_deleteArtifacts :
    (ArtifactRepository.deleteForSession db session).others session = db.others session :=
  others_removeArtifacts (by simp)

@[simp] theorem others_deleteChunks :
    (ChunkRepository.deleteForSession db session).others session = db.others session := by
  have kept : (db.chunks.toTable.delete fun row => row.sessionId = session).rows.filter
      (fun row => row.sessionId ≠ session) = db.chunks.rows.filter fun row =>
        row.sessionId ≠ session := Table.filter_delete _ (by simp)
  exact congrArg (fun rows => { db.others session with chunks := rows }) kept

@[simp] theorem others_resetSummaryTexts :
    (ChunkRepository.resetSummaryTexts db session).others session = db.others session := by
  have kept : (db.chunks.update (fun row => row.sessionId = session)
      (fun row => { row with summaryText := none })).rows.filter
        (fun row => row.sessionId ≠ session) =
      db.chunks.rows.filter fun row => row.sessionId ≠ session := by
    apply Table.filter_update
    · exact fun _ => rfl
    · simp
    · simp
  exact congrArg (fun rows => { db.others session with chunks := rows }) kept

theorem others_upsertStatus {job : JobId} {kind : JobKind} {status : JobStatus}
    {reason : Option String}
    (own : ∀ row ∈ db.jobs.rows, row.id = job → row.sessionId = session) :
    (JobRepository.upsertStatus db job kind session status reason).others session =
      db.others session := by
  have kept : (db.jobs.put ⟨job, kind, session, status, reason⟩).rows.filter
      (fun row => row.sessionId ≠ session) = db.jobs.rows.filter fun row =>
        row.sessionId ≠ session := by
    apply Table.filter_put
    · simp
    · intro old member same
      simpa using own old member same
  exact congrArg (fun rows => { db.others session with jobs := rows }) kept

@[simp] theorem others_upsertArtifact (kind : ArtifactKind) (content : ArtifactContent)
    (modelUsed : Text) :
    (ArtifactRepository.upsert db session kind content modelUsed).others session =
      db.others session := by
  have kept : (db.artifacts.put ⟨session, kind, content, modelUsed, false, none⟩).rows.filter
      (fun row => row.sessionId ≠ session) = db.artifacts.rows.filter fun row =>
        row.sessionId ≠ session := by
    apply Table.filter_put
    · simp
    · intro old _ same
      have owner : old.sessionId = session := congrArg Prod.fst same
      simpa using owner
  exact congrArg (fun rows => { db.others session with artifacts := rows }) kept

end Database

namespace Logic

theorem enqueueSessionJob_fresh (db : Database) (rq : Rq) (session : Uuid) (kind : JobKind) :
    (enqueueSessionJob db rq session kind).1 ∉ rq.rows.map RqJob.id ++ knownJobs db :=
  fresh_notMem _

theorem others_enqueueSessionJob (db : Database) (rq : Rq) (session : Uuid) (kind : JobKind) :
    (enqueueSessionJob db rq session kind).2.1.others session = db.others session := by
  have new := enqueueSessionJob_fresh db rq session kind
  have unused : ∀ row ∈ db.jobs.rows, row.id ≠ (enqueueSessionJob db rq session kind).1 := by
    intro row member same
    apply new
    rw [← same]
    exact List.mem_append_right _ (List.mem_append_left _ (List.mem_map_of_mem member))
  unfold enqueueSessionJob
  rw [Database.others_setCurrentJobId]
  apply Database.others_upsertStatus
  exact fun row member same => (unused row member same).elim

end Logic

end Kaeyris
