import Mathlib.Data.Rat.Defs
import Kaeyris.Lib.Table
import Kaeyris.Text

/-!
# The database

The rows of `db/models.py` (and `User` of `core/models.py`) with the columns that the modelled
functions read or write. Clock columns that nothing reads (`created_at`, `generated_at`, ...) are
left out; `purged_at` stays because its being null is tested.
-/

namespace Kaeyris
open Lib

abbrev Uuid := Nat
abbrev JobId := Nat
abbrev Timestamp := Nat

inductive CampaignRole | gm | pj
  deriving DecidableEq, Repr

inductive SessionState | created | audioUploaded | transcribing | transcriptionFailed | transcribed
  deriving DecidableEq, Repr

def SessionState.value : SessionState → String
  | .created => "created"
  | .audioUploaded => "audio_uploaded"
  | .transcribing => "transcribing"
  | .transcriptionFailed => "transcription_failed"
  | .transcribed => "transcribed"

inductive JobKind | transcription | narrative | elements | povs | summary
  deriving DecidableEq, Repr

inductive TranscriptionMode | diarised | nonDiarised
  deriving DecidableEq, Repr

inductive ModelProvider | cloud | localModel | ollama
  deriving DecidableEq, Repr

inductive JobStatus | queued | running | succeeded | failed
  deriving DecidableEq, Repr

inductive AudioPath | raw (session : Uuid) | prepared (session : Uuid)
  deriving DecidableEq, Repr

/-- `artifact.kind`: three fixed strings and the `pov:<pj_id>` family. -/
inductive ArtifactKind | narrative | elements | summary | pov (pj : Uuid)
  deriving DecidableEq, Repr

structure User where
  id : Uuid
  apiKeyId : Option Uuid
  deriving DecidableEq

structure Campaign where
  id : Uuid
  name : Text
  description : Option Text
  ownerUserId : Uuid
  createdAt : Timestamp
  deriving DecidableEq

structure CampaignMember where
  userId : Uuid
  campaignId : Uuid
  role : CampaignRole
  deriving DecidableEq

structure Pj where
  id : Uuid
  name : Text
  ownerGmKeyId : Uuid
  campaignId : Uuid
  deriving DecidableEq

structure Session where
  id : Uuid
  gmKeyId : Uuid
  campaignId : Option Uuid
  state : SessionState
  transcriptionMode : TranscriptionMode
  campaignContext : Option Text
  editedTranscriptMd : Option Text
  currentJobId : Option JobId
  deriving DecidableEq

structure AudioSource where
  sessionId : Uuid
  path : AudioPath
  sha256 : Text
  sizeBytes : Nat
  durationSeconds : Option Int
  purgedAt : Option Timestamp
  deriving DecidableEq

structure TranscriptionSegment where
  speakerLabel : Text
  startSeconds : ℚ
  endSeconds : ℚ
  text : Text
  deriving DecidableEq

structure Transcription where
  sessionId : Uuid
  segmentsJson : List TranscriptionSegment
  language : Text
  modelUsed : Text
  provider : Text
  deriving DecidableEq

structure SessionPjMapping where
  sessionId : Uuid
  speakerLabel : Text
  pjId : Uuid
  deriving DecidableEq

structure Element where
  category : Text
  name : Text
  description : Text
  deriving DecidableEq

/-- `content_json`: `{"text": ...}`, `{"elements": [...]}`, or the four buckets of names and
descriptions that cards had before; nothing writes these any more. Where a surrogate without its
partner is in a row, the rows are kept as code points. -/
inductive ArtifactContent
  | text (text : Text)
  | elements (elements : List Element)
  | surrogates (rows : List (List Nat × List Nat × List Nat))
  | buckets (npcs locations items clues : List (Text × Text))
  deriving DecidableEq

/-- Neither a schema nor UTF-8 takes a surrogate. -/
def ArtifactContent.encodable : ArtifactContent → Bool
  | .surrogates _ => false
  | _ => true

structure Artifact where
  sessionId : Uuid
  kind : ArtifactKind
  contentJson : ArtifactContent
  modelUsed : Text
  isEdited : Bool
  editedBy : Option Uuid
  deriving DecidableEq

structure Job where
  id : JobId
  kind : JobKind
  sessionId : Uuid
  status : JobStatus
  failureReason : Option String
  deriving DecidableEq

structure Chunk where
  id : Uuid
  sessionId : Uuid
  ordre : Nat
  text : Text
  summaryText : Option Text
  deriving DecidableEq

structure SessionPlayer where
  sessionId : Uuid
  pjId : Uuid
  deriving DecidableEq

structure ModelSettings where
  userId : Uuid
  transcriptionProvider : Option ModelProvider
  summaryProvider : Option ModelProvider
  transcriptionLocalPath : Option Text
  summaryLocalPath : Option Text
  transcriptionCloudModel : Option Text
  summaryCloudModel : Option Text
  ollamaModel : Option Text
  transcriptionLocalValidationHash : Option Text
  summaryLocalValidationHash : Option Text
  deepinfraApiKey : Option Text
  deriving DecidableEq

abbrev SessionPjMapping.key (row : SessionPjMapping) : Uuid × Text :=
  (row.sessionId, row.speakerLabel)

abbrev SessionPlayer.key (row : SessionPlayer) : Uuid × Uuid := (row.sessionId, row.pjId)

abbrev Artifact.key (row : Artifact) : Uuid × ArtifactKind := (row.sessionId, row.kind)

abbrev CampaignMember.key (row : CampaignMember) : Uuid × Uuid := (row.userId, row.campaignId)

abbrev Chunk.place (row : Chunk) : Uuid × Nat := (row.sessionId, row.ordre)

abbrev Pj.campaignName (row : Pj) : Uuid × Text := (row.campaignId, row.name)

structure Database where
  users : Table Uuid User User.id
  campaigns : Table Uuid Campaign Campaign.id
  campaignMembers : Table (Uuid × Uuid) CampaignMember CampaignMember.key
  pjs : Indexed Uuid (Uuid × Text) Pj Pj.id Pj.campaignName
  sessions : Table Uuid Session Session.id
  audioSources : Table Uuid AudioSource AudioSource.sessionId
  transcriptions : Table Uuid Transcription Transcription.sessionId
  mappings : Table (Uuid × Text) SessionPjMapping SessionPjMapping.key
  artifacts : Table (Uuid × ArtifactKind) Artifact Artifact.key
  jobs : Table JobId Job Job.id
  chunks : Indexed Uuid (Uuid × Nat) Chunk Chunk.id Chunk.place
  players : Table (Uuid × Uuid) SessionPlayer SessionPlayer.key
  modelSettings : Table Uuid ModelSettings ModelSettings.userId
  deriving DecidableEq

def Database.empty : Database where
  users := .empty
  campaigns := .empty
  campaignMembers := .empty
  pjs := .empty
  sessions := .empty
  audioSources := .empty
  transcriptions := .empty
  mappings := .empty
  artifacts := .empty
  jobs := .empty
  chunks := .empty
  players := .empty
  modelSettings := .empty

def Artifact.isPov (row : Artifact) : Bool :=
  match row.kind with
  | .pov _ => true
  | _ => false

end Kaeyris
