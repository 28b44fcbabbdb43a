import Kaeyris.Config
import Kaeyris.Db.Repositories
import Kaeyris.Queue

/-!
# The business logic

The operations of `services/jdr/logic.py` on one session. Each runs inside the request's
transaction: an error leaves the database as it was, a result is committed.
-/

namespace Kaeyris
open Lib

/-- The exceptions of `logic.py`, and the `IntegrityError` of a flush. -/
inductive LogicError
  | unsupportedAudioMime (detail : String)
  | audioAlreadyUploaded (detail : String)
  | audioUploadTooLarge (limitBytes : Nat)
  | sessionNotTranscribedForEdit (detail : String)
  | invalidPlayerList (detail : String)
  | invalidMapping (detail : String)
  | audioPurgeBlocked (detail : String)
  | transcriptionNotStuck (detail : String)
  | transcriptionStillActive (detail : String)
  | transcriptionRestartNotAllowed (detail : String)
  | noAudioToTranscribe (detail : String)
  | integrityError
  deriving DecidableEq

abbrev Bytes := List UInt8

abbrev Disk := AudioPath → Option Bytes

namespace Disk

def write (disk : Disk) (path : AudioPath) (content : Bytes) : Disk :=
  fun other => if other = path then some content else disk other

def unlink (disk : Disk) (path : AudioPath) : Disk :=
  fun other => if other = path then none else disk other

end Disk

namespace Logic

def knownJobs (db : Database) : List JobId :=
  db.jobs.rows.map Job.id ++ db.sessions.rows.filterMap Session.currentJobId

def enqueueSessionJob (db : Database) (rq : Rq) (session : Uuid) (kind : JobKind) :
    JobId × Database × Rq :=
  let (job, rq') := rq.enqueueJob (knownJobs db) kind session
  let db₁ := JobRepository.upsertStatus db job kind session .queued none
  let db₂ := SessionRepository.setCurrentJobId db₁ session (some job)
  (job, db₂, rq')

def saveSessionTranscriptionEdit (db : Database) (session : Session) (contentMd : Text) :
    Except LogicError Database :=
  if session.state ≠ .transcribed then
    .error (.sessionNotTranscribedForEdit s!"Session {session.id} is not transcribed.")
  else
    .ok (SessionRepository.updateEditedTranscript db session.id contentMd)

/-! ## Participants -/

/-- The ids of `pjIds` that are not PJs of the game master, in the session's campaign if it has
one. -/
def missingPjs (db : Database) (pjIds : List Uuid) (gmKey : Uuid) (campaign : Option Uuid) :
    List Uuid :=
  pjIds.filter fun pj => (PjRepository.findByIdOwnedBy db pj gmKey campaign).isNone

/-- `sorted(str(m) for m in missing)` on a set. -/
def sortedIds (ids : List Uuid) : List String :=
  (ids.dedup.map toString).insertionSort fun a b => a ≤ b

def quoted (s : String) : String := String.ofList (Text.repr s.toList)

def setSessionPlayers (db : Database) (session : Session) (pjIds : List Uuid) (gmKey : Uuid)
    (campaign : Option Uuid) : Except LogicError Database :=
  match missingPjs db pjIds gmKey campaign with
  | [] =>
      match SessionPlayerRepository.replaceForSession db session.id pjIds with
      | some db' => .ok db'
      | none => .error .integrityError
  | missing => .error (.invalidPlayerList
      ("Unknown or foreign PJ id(s): [" ++ ", ".intercalate ((sortedIds missing).map quoted) ++ "]"))

def setSessionMapping (db : Database) (session : Session)
    (mapping : Table Text (Text × Uuid) Prod.fst) (gmKey : Uuid) (campaign : Option Uuid) :
    Except LogicError Database :=
  match missingPjs db (mapping.rows.map Prod.snd) gmKey campaign with
  | [] =>
      match MappingRepository.replaceForSession db session.id mapping with
      | some db' => .ok (ArtifactRepository.invalidatePovArtifacts db' session.id)
      | none => .error .integrityError
  | missing => .error (.invalidMapping
      ("Unknown or foreign PJ id(s): " ++ ", ".intercalate (sortedIds missing)))

/-! ## Recover and restart -/

def recoverStuckTranscription (db : Database) (rq : Rq) (session : Session) :
    Except LogicError Database :=
  if session.state ≠ .transcribing then
    .error (.transcriptionNotStuck
      s!"Session {session.id} is not stuck in transcribing (state={session.state.value}).")
  else if session.currentJobId.any (isRqJobActive rq) then
    .error (.transcriptionStillActive
      s!"Session {session.id} still has an active transcription job.")
  else
    let db₁ := SessionRepository.updateState db session.id .transcriptionFailed
    .ok <| match session.currentJobId with
      | none => db₁
      | some job =>
          JobRepository.upsertStatus db₁ job .transcription session.id .failed
            (some "Transcription interrupted unexpectedly (worker lost before completion).")

def restartable : SessionState → Bool
  | .transcriptionFailed | .transcribed => true
  | _ => false

def usableAudio (db : Database) (session : Uuid) : Bool :=
  (SessionRepository.getAudioSource db session).any fun audio => audio.purgedAt.isNone

def deleteTranscriptionOutputsForRestart (db : Database) (session : Uuid) : Database :=
  let db₁ := TranscriptionRepository.deleteForSession db session
  let db₂ := ChunkRepository.deleteForSession db₁ session
  let db₃ := MappingRepository.deleteForSession db₂ session
  let db₄ := ArtifactRepository.deleteForSession db₃ session
  SessionRepository.clearEditedTranscript db₄ session

def restartTranscriptionForSession (db : Database) (rq : Rq) (session : Session) :
    Except LogicError (JobId × Database × Rq) :=
  if !restartable session.state then
    .error (.transcriptionRestartNotAllowed
      s!"Session {session.id} cannot restart transcription from state {session.state.value}.")
  else if !usableAudio db session.id then
    .error (.noAudioToTranscribe s!"Session {session.id} has no audio to re-transcribe.")
  else
    let db₁ := deleteTranscriptionOutputsForRestart db session.id
    let db₂ := SessionRepository.updateState db₁ session.id .audioUploaded
    .ok (enqueueSessionJob db₂ rq session.id .transcription)

/-! ## Audio upload -/

def chunkSize : Nat := 64 * 1024

def acceptedAudioMimes : List String := ["audio/mp4", "audio/m4a", "audio/x-m4a"]

structure UploadFile where
  contentType : Option String
  body : Bytes

def mimeRepr : Option String → String
  | none => "None"
  | some mime => quoted mime

/-- The streaming loop: what has been received when the body is exhausted, or `none` when a read
takes it over the limit. -/
def receive (limit : Nat) (received body : Bytes) : Option Bytes :=
  if body = [] then some received
  else
    let size := received.length + (body.take chunkSize).length
    if limit < size then none
    else receive limit (received ++ body.take chunkSize) (body.drop chunkSize)
termination_by body.length
decreasing_by
  have content : 0 < body.length := List.length_pos_iff.mpr ‹_›
  rw [List.length_drop]
  exact Nat.sub_lt content (by decide)

structure Stores where
  disk : Disk
  db : Database
  rq : Rq

/-- `duration` is what `_probe_duration_seconds` returns. On an error the files alone may have
changed. -/
def storeAudioSourceForSession (settings : Settings) (sha256 : Bytes → Text) (stores : Stores)
    (session : Session) (upload : UploadFile) (duration : Option Int) :
    Except (LogicError × Disk) (JobId × Stores) :=
  let target := AudioPath.raw session.id
  if !upload.contentType.any (· ∈ acceptedAudioMimes) then
    .error (.unsupportedAudioMime
      s!"Audio MIME {mimeRepr upload.contentType} is not an M4A.", stores.disk)
  else if (SessionRepository.getAudioSource stores.db session.id).isSome then
    .error (.audioAlreadyUploaded s!"Session {session.id} already has an audio source.",
      stores.disk)
  else
    match receive settings.audioMaxUploadBytes [] upload.body with
    | none =>
        .error (.audioUploadTooLarge settings.audioMaxUploadBytes, stores.disk.unlink target)
    | some content =>
        let disk := stores.disk.write target content
        match SessionRepository.storeAudioSource stores.db session.id target (sha256 content)
            content.length duration with
        | none => .error (.integrityError, disk)
        | some db₁ =>
            let db₂ := SessionRepository.updateState db₁ session.id .audioUploaded
            let (job, db₃, rq) := enqueueSessionJob db₂ stores.rq session.id .transcription
            .ok (job, ⟨disk, db₃, rq⟩)

/-- The unlink is best effort: `unlinked` tells whether it succeeded. -/
def purgeAudioForSession (disk : Disk) (db : Database) (session : Session) (now : Timestamp)
    (unlinked : Bool) : Except LogicError (Disk × Database) :=
  if session.state = .transcribing then
    .error (.audioPurgeBlocked s!"Session {session.id} is currently transcribing; purging the audio now would race the worker.")
  else
    let (disk₁, db₁) :=
      match SessionRepository.getAudioSource db session.id with
      | some audio =>
          if audio.purgedAt.isNone then
            (if unlinked then disk.unlink audio.path else disk,
              SessionRepository.markAudioPurged db session.id now)
          else (disk, db)
      | none => (disk, db)
    let disk₂ := disk₁.unlink (.raw session.id)
    let db₂ := TranscriptionRepository.deleteForSession db₁ session.id
    let db₃ := ChunkRepository.deleteForSession db₂ session.id
    let db₄ := ArtifactRepository.deleteForSession db₃ session.id
    let db₅ := SessionRepository.clearEditedTranscript db₄ session.id
    let db₆ := SessionRepository.clearCurrentJobId db₅ session.id
    .ok (disk₂, SessionRepository.updateState db₆ session.id .created)

end Logic

end Kaeyris
