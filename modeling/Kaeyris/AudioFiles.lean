import Kaeyris.Lib.Files
import Kaeyris.Lifecycle

/-!
# Operations on the audio of a session

An upload, a preparation by a worker, a purge and a deletion take several steps, some on the disk
and one in the database, and the steps of several operations interleave. What is left of each
operation is a stage. The disk is not rolled back with a transaction.
-/

namespace Kaeyris
open Lib Jobs

/-- A purge marks the audio row only if it saw one that was not purged. -/
inductive Removal
  | purge (marks : Bool)
  | deletion
  deriving DecidableEq

inductive AudioStage
  -- An upload: accepted, its body being written, written, or over the limit.
  | checked (body : Bytes)
  | receiving (handle : Nat) (received rest : Bytes)
  | received (content : Bytes)
  -- A preparation: ffmpeg still to be run, writing, and its output measured in two reads.
  | begun (started : Started)
  | encoding (durationSeconds : Option Int) (handle : Nat)
  | encoded (durationSeconds : Option Int)
  | hashed (durationSeconds : Option Int) (sha256 : Text)
  | measured (durationSeconds : Option Int) (prepared : PreparedAudioResult)
  -- Files to be removed before the operation ends, or before it commits.
  | discarding (paths : List AudioPath) (failure : Option String)
  | removing (removal : Removal) (paths : List AudioPath)
  deriving DecidableEq

structure AudioOperation where
  id : Nat
  session : Uuid
  stage : AudioStage
  deriving DecidableEq

structure AudioService where
  db : Database
  rq : Rq
  files : Files AudioPath
  operations : Table Nat AudioOperation AudioOperation.id

/-- What a step meets: whether its commit, its removal of a file or the start of ffmpeg succeeds,
what ffmpeg writes, the clock, and what `ffprobe` finds. -/
structure AudioReaction where
  succeeds : Bool
  output : Option Bytes
  now : Timestamp
  durationSeconds : Option Int
  error : String

/-- `abort` is the end of an operation by an exception, a lost client or a stopped worker.
`elsewhere` is any other change of the database: no other code writes audio rows, but some may go
with what they belong to. -/
inductive AudioLabel
  | upload (operation : Nat) (auth : AuthenticatedKey) (session : Uuid) (file : Logic.UploadFile)
  | prepare (operation : Nat) (session : Uuid)
  | purge (operation : Nat) (auth : AuthenticatedKey) (session : Uuid)
  | delete (operation : Nat) (auth : AuthenticatedKey) (session : Uuid)
  | advance (operation : Nat) (reaction : AudioReaction)
  | abort (operation : Nat)
  | elsewhere (db : Database) (rq : Rq) (gone : AudioSource → Bool)

namespace AudioService

def initial : AudioService := ⟨.empty, .empty, .none, .empty⟩

def enter (s : AudioService) (operation : Nat) (session : Uuid) (stage : AudioStage) :
    AudioService :=
  { s with operations := s.operations.put ⟨operation, session, stage⟩ }

def leave (s : AudioService) (operation : Nat) : AudioService :=
  { s with operations := s.operations.delete fun other => other.id = operation }

/-! ## Beginnings -/

def beginUpload (s : AudioService) (operation : Nat) (auth : AuthenticatedKey) (session : Uuid)
    (file : Logic.UploadFile) : AudioService :=
  match Router.requireSession s.db session auth with
  | .error _ => s
  | .ok row =>
      if !file.contentType.any (· ∈ Logic.acceptedAudioMimes) then s
      else if (SessionRepository.getAudioSource s.db row.id).isSome then s
      else s.enter operation row.id (.checked file.body)

def beginPreparation (s : AudioService) (operation : Nat) (session : Uuid) : AudioService :=
  match beginTranscription session s.db with
  | .error _ => s
  | .ok (started, db) => { s with db := db }.enter operation session (.begun started)

def keptPath (db : Database) (session : Uuid) : Option AudioPath :=
  ((SessionRepository.getAudioSource db session).filter fun audio => audio.purgedAt.isNone).map
    AudioSource.path

def beginPurge (s : AudioService) (operation : Nat) (auth : AuthenticatedKey) (session : Uuid) :
    AudioService :=
  match Router.requireSession s.db session auth with
  | .error _ => s
  | .ok row =>
      if row.state = .transcribing then s
      else
        let kept := keptPath s.db row.id
        s.enter operation row.id (.removing (.purge kept.isSome) (kept.toList ++ [AudioPath.raw row.id]))

def beginDeletion (s : AudioService) (operation : Nat) (auth : AuthenticatedKey) (session : Uuid) :
    AudioService :=
  match Router.requireSession s.db session auth with
  | .error _ => s
  | .ok row =>
      let (rq, _) := Logic.abortActiveSessionJob s.rq row
      { s with rq := rq }.enter operation row.id
        (.removing .deletion ((keptPath s.db row.id).toList ++ [AudioPath.raw row.id]))

def commitUpload (env : Environment) (s : AudioService) (session : Uuid) (content : Bytes)
    (durationSeconds : Option Int) : AudioService :=
  match SessionRepository.storeAudioSource s.db session (.raw session) (env.sha256 content)
      content.length durationSeconds with
  | none => s
  | some db₁ =>
      let db₂ := SessionRepository.updateState db₁ session .audioUploaded
      let (_, db₃, rq) := Logic.enqueueSessionJob db₂ s.rq session .transcription
      { s with db := db₃, rq := rq }

def commitPurge (db : Database) (session : Uuid) (marks : Bool) (now : Timestamp) : Database :=
  let db₁ := if marks then SessionRepository.markAudioPurged db session now else db
  let db₂ := TranscriptionRepository.deleteForSession db₁ session
  let db₃ := ChunkRepository.deleteForSession db₂ session
  let db₄ := ArtifactRepository.deleteForSession db₃ session
  let db₅ := SessionRepository.clearEditedTranscript db₄ session
  let db₆ := SessionRepository.clearCurrentJobId db₅ session
  SessionRepository.updateState db₆ session .created

def commitRemoval (db : Database) (session : Uuid) (now : Timestamp) : Removal → Database
  | .purge marks => commitPurge db session marks now
  | .deletion => SessionRepository.delete db session

/-- What a failed ffmpeg leaves to be done: its target goes, and the directory of the upload. -/
def reduceFailed (session : Uuid) (reaction : AudioReaction) : AudioStage :=
  .discarding [.prepared session, .raw session] (some s!"Audio reduce failed: {reaction.error}")

def advance (env : Environment) (s : AudioService) (operation : AudioOperation)
    (reaction : AudioReaction) : AudioService :=
  let session := operation.session
  let raw := AudioPath.raw session
  let target := AudioPath.prepared session
  match operation.stage with
  | .checked body =>
      let (files, handle) := s.files.create raw
      { s with files := files }.enter operation.id session (.receiving handle [] body)
  | .receiving handle received rest =>
      if rest = [] then s.enter operation.id session (.received received)
      else
        let chunk := rest.take Logic.chunkSize
        if env.settings.audioMaxUploadBytes < received.length + chunk.length then
          -- `best_effort_unlink`, then `best_effort_remove_tree` on the directory.
          s.enter operation.id session (.discarding [raw, raw] none)
        else
          { s with files := s.files.write handle received.length chunk }.enter operation.id session
            (.receiving handle (received ++ chunk) (rest.drop Logic.chunkSize))
  | .received content =>
      if reaction.succeeds then
        (commitUpload env s session content reaction.durationSeconds).leave operation.id
      else s.leave operation.id
  | .begun started =>
      if (s.files.read started.path).isNone then
        { s with db := markFailed s.db session none }.leave operation.id
      else if isTransientRawAudioPath started.path then
        if reaction.succeeds then
          let (files, handle) := s.files.create target
          { s with files := files }.enter operation.id session
            (.encoding started.durationSeconds handle)
        else s.enter operation.id session (reduceFailed session reaction)
      else s.leave operation.id
  | .encoding durationSeconds handle =>
      match reaction.output with
      | some bytes =>
          { s with files := s.files.fill handle bytes }.enter operation.id session
            (.encoded durationSeconds)
      | none => s.enter operation.id session (reduceFailed session reaction)
  | .encoded durationSeconds =>
      match s.files.read target with
      | some (byte :: rest) =>
          s.enter operation.id session (.hashed durationSeconds (env.sha256 (byte :: rest)))
      | _ => s.enter operation.id session (reduceFailed session reaction)
  | .hashed durationSeconds sha256 =>
      match s.files.read target with
      | some content =>
          s.enter operation.id session (.measured durationSeconds ⟨target, sha256, content.length⟩)
      | none => s.leave operation.id
  | .measured durationSeconds prepared =>
      if reaction.succeeds then
        let (updated, db) := storePreparedAudio session prepared durationSeconds s.db
        if updated then { s with db := db }.enter operation.id session (.discarding [raw] none)
        else
          { s with
            db := markFailed s.db session
              (some "Audio source row missing after preparation.") }.leave operation.id
      else s.leave operation.id
  | .discarding (path :: paths) failure =>
      { s with files := if reaction.succeeds then s.files.unlink path else s.files }.enter
        operation.id session (.discarding paths failure)
  | .discarding [] (some reason) =>
      { s with db := markFailed s.db session (some reason) }.leave operation.id
  | .discarding [] none => s.leave operation.id
  | .removing removal (path :: paths) =>
      { s with files := if reaction.succeeds then s.files.unlink path else s.files }.enter
        operation.id session (.removing removal paths)
  | .removing removal [] =>
      if reaction.succeeds then
        { s with db := commitRemoval s.db session reaction.now removal }.leave operation.id
      else s.leave operation.id

def step (env : Environment) (s : AudioService) : AudioLabel → AudioService
  | .upload operation auth session file =>
      if (s.operations.get? operation).isSome then s
      else s.beginUpload operation auth session file
  | .prepare operation session =>
      if (s.operations.get? operation).isSome then s else s.beginPreparation operation session
  | .purge operation auth session =>
      if (s.operations.get? operation).isSome then s else s.beginPurge operation auth session
  | .delete operation auth session =>
      if (s.operations.get? operation).isSome then s else s.beginDeletion operation auth session
  | .advance operation reaction =>
      match s.operations.get? operation with
      | none => s
      | some running => s.advance env running reaction
  | .abort operation => s.leave operation
  | .elsewhere db rq gone =>
      { s with db := { db with audioSources := s.db.audioSources.delete gone }, rq := rq }

end AudioService

end Kaeyris
