import Kaeyris.Config
import Kaeyris.Db.Repositories
import Kaeyris.Lib.Process

/-!
# The surroundings of a worker job

A job of `jobs/jdr.py` is a program over the database. Its transactions and its calls to adapters,
ffmpeg, the file system and the RQ metadata are listed here. A call that a job makes several times
carries an ordinal, so that a fixed reaction can answer each of them differently.
-/

namespace Kaeyris.Jobs
open Lib

inductive Exn
  | transientJob (detail : String)
  | permanentJob (detail : String)
  | transientLLM (detail : String)
  | permanentLLM (detail : String)
  | transientTranscription (detail : String)
  | permanentTranscription (detail : String)
  | audioChunking (detail : String)
  | audioReduce (detail : String)
  | integrity
  | other (detail : String)
  deriving DecidableEq

/-- The transactions of the jobs, each one `async with sessionmaker()` block. -/
inductive Tx
  | begin
  | updateAudio
  | resolveOwner
  | loadModelSettings
  | persist
  | markSessionFailed
  | restoreSessionState
  | loadParticipants
  | loadSource
  | writeArtifacts (kinds : List ArtifactKind)
  deriving DecidableEq

inductive SystemPrompt | narrative | elements | pov | summaryMap | summaryReduce
  deriving DecidableEq

inductive Phase | reducing | transcribing | done | failed
  deriving DecidableEq

inductive LlmChoice
  | operator
  | ollama (model : Text)
  | personalCloud (model apiKey : Text)
  | localModel (path : Text)
  deriving DecidableEq

inductive TranscriptionChoice
  | operator
  | personalCloud (model apiKey : Text)
  | localModel (path : Text)
  deriving DecidableEq

/-- The attributes `_llm_model_used` looks for. -/
structure LlmAdapter where
  provider : Option Text
  model : Option Text
  deriving DecidableEq

structure PreparedAudioResult where
  path : AudioPath
  sha256 : Text
  sizeBytes : Nat
  deriving DecidableEq

structure TranscriptionResult where
  segments : List TranscriptionSegment
  language : Text
  modelUsed : Text
  provider : Text
  deriving DecidableEq

inductive AudioFile | stored (path : AudioPath) | piece (path : Text)
  deriving DecidableEq

inductive Call
  | pathExists (path : AudioPath)
  | prepareAudio (source target : AudioPath)
  | cleanupTransientAudioDir (session : Uuid)
  | buildTranscriptionAdapter (choice : TranscriptionChoice)
  | buildLlmAdapter (choice : LlmChoice)
  | chunkedAudio (path : AudioPath) (chunkDurationSeconds : Int)
  | transcribe (adapter : TranscriptionChoice) (ordinal : Nat) (file : AudioFile)
      (languageHint : Option Text)
  | complete (adapter : LlmAdapter) (ordinal : Nat) (system : SystemPrompt) (user : Text)
      (maxTokens : Int)
  | report (phase : Phase) (percent : Option Int)
  | chunkId
  deriving DecidableEq

abbrev Answer : Call → Type
  | .pathExists _ => Bool
  | .prepareAudio _ _ => PreparedAudioResult
  | .cleanupTransientAudioDir _ => Unit
  | .buildTranscriptionAdapter _ => Unit
  | .buildLlmAdapter _ => LlmAdapter
  | .chunkedAudio _ _ => List (ℚ × Text)
  | .transcribe _ _ _ _ => TranscriptionResult
  | .complete _ _ _ _ _ => Text
  | .report _ _ => Unit
  | .chunkId => Uuid

abbrev effects : Effects where
  State := Database
  Error := Exn
  Tx := Tx
  Call := Call
  Answer := Answer

abbrev JobBody (α : Type) := Process effects α

abbrev ask (query : Call) : JobBody (Answer query) := @Process.ask effects query

abbrev tell (query : Call) : JobBody Unit := @Process.tell effects query

/-- The settings, and what is taken from elsewhere: the element-card parser with the names of the
errors that it lets through, the two float expressions `f"{x:.1f}"` and `round(done / total * 100)`,
and SHA-256 in hexadecimal. -/
structure Environment where
  settings : Settings
  parseElements : Text → Except String ArtifactContent
  formatSeconds : ℚ → Text
  percentOf : Nat → Nat → Int
  sha256 : List UInt8 → Text

/-! ## Model settings -/

def resolveSessionOwnerId (db : Database) (session : Uuid) : Option Uuid :=
  match db.sessions.get? session with
  | none => none
  | some row =>
      match row.campaignId.bind (CampaignRepository.get db) with
      | some campaign => some campaign.ownerUserId
      | none => (db.users.rows.find? fun user => user.apiKeyId = some row.gmKeyId).map User.id

def loadSessionModelSettings (session : Uuid) : JobBody (Option ModelSettings) := do
  let owner ← Process.reading .resolveOwner fun db => .ok (resolveSessionOwnerId db session)
  match owner with
  | none => return none
  | some user =>
      Process.reading .loadModelSettings fun db => .ok (ModelSettingsRepository.getForUser db user)

def llmChoiceForUser (settings : Settings) (row : Option ModelSettings) : Except Exn LlmChoice :=
  match row with
  | none => .ok .operator
  | some row =>
      match row.summaryProvider with
      | none => .ok .operator
      | some .ollama => .ok (.ollama (Text.orElse row.ollamaModel settings.llmModel))
      | some .cloud =>
          if Text.present row.deepinfraApiKey then
            .ok (.personalCloud (Text.orElse row.summaryCloudModel settings.llmModel)
              (Text.orElse row.deepinfraApiKey []))
          else .ok .operator
      | some .localModel =>
          if Text.present row.summaryLocalPath && Text.present row.summaryLocalValidationHash then
            .ok (.localModel (Text.orElse row.summaryLocalPath []))
          else .error (.permanentJob
            "Validated local summary settings are required before running Local jobs.")

def transcriptionChoiceForUser (settings : Settings) (row : Option ModelSettings) :
    Except Exn TranscriptionChoice :=
  match row with
  | none => .ok .operator
  | some row =>
      match row.transcriptionProvider with
      | none => .ok .operator
      | some .cloud =>
          if Text.present row.deepinfraApiKey then
            .ok (.personalCloud (Text.orElse row.transcriptionCloudModel settings.transcriptionModel)
              (Text.orElse row.deepinfraApiKey []))
          else .ok .operator
      | some .localModel =>
          if Text.present row.transcriptionLocalPath &&
              Text.present row.transcriptionLocalValidationHash then
            .ok (.localModel (Text.orElse row.transcriptionLocalPath []))
          else .error (.permanentJob
            "Validated local transcription settings are required before running Local jobs.")
      -- Ollama serves language models only.
      | some .ollama => .ok .operator

def buildLlmAdapterForUser (settings : Settings) (row : Option ModelSettings) : JobBody LlmAdapter := do
  let choice ← Process.ofExcept (llmChoiceForUser settings row)
  ask (.buildLlmAdapter choice)

def buildTranscriptionAdapterForUser (settings : Settings) (row : Option ModelSettings) :
    JobBody TranscriptionChoice := do
  let choice ← Process.ofExcept (transcriptionChoiceForUser settings row)
  let _ ← ask (.buildTranscriptionAdapter choice)
  return choice

def llmModelUsed (settings : Settings) (adapter : LlmAdapter) : Text :=
  adapter.provider.getD settings.llmProvider ++ [':'] ++ adapter.model.getD settings.llmModel

end Kaeyris.Jobs
