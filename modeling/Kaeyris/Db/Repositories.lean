import Mathlib.Data.Char
import Mathlib.Data.List.Lex
import Kaeyris.Db.Models

/-!
# The repositories

One namespace for each class of `db/repositories.py`. A write that a constraint can reject returns
`none` where the flush raises `IntegrityError`; every other one is total.
-/

namespace Kaeyris
open Lib

namespace CampaignRepository

def get (db : Database) (campaign : Uuid) : Option Campaign := db.campaigns.get? campaign

def getMembership (db : Database) (user campaign : Uuid) : Option CampaignMember :=
  db.campaignMembers.get? (user, campaign)

end CampaignRepository

namespace PjRepository

def findByIdOwnedBy (db : Database) (pj gmKey : Uuid) (campaign : Option Uuid) : Option Pj :=
  (db.pjs.get? pj).filter fun row =>
    row.ownerGmKeyId = gmKey && campaign.all (row.campaignId = ·)

end PjRepository

namespace SessionRepository

def getForGm (db : Database) (session gmKey : Uuid) (campaign : Option Uuid) : Option Session :=
  (db.sessions.get? session).filter fun row =>
    row.gmKeyId = gmKey && campaign.all fun c => row.campaignId = some c

def storeAudioSource (db : Database) (session : Uuid) (path : AudioPath) (sha256 : Text)
    (sizeBytes : Nat) (durationSeconds : Option Int) : Option Database :=
  (db.audioSources.insert? ⟨session, path, sha256, sizeBytes, durationSeconds, none⟩).map
    fun rows => { db with audioSources := rows }

def getAudioSource (db : Database) (session : Uuid) : Option AudioSource :=
  db.audioSources.get? session

def markAudioPurged (db : Database) (session : Uuid) (now : Timestamp) : Database :=
  { db with
    audioSources := db.audioSources.update (fun row => row.sessionId = session)
      fun row => { row with purgedAt := some now } }

def updateAudioSourceFile (db : Database) (session : Uuid) (path : AudioPath) (sha256 : Text)
    (sizeBytes : Nat) (durationSeconds : Option Int) : Option Database :=
  (getAudioSource db session).map fun _ =>
    { db with
      audioSources := db.audioSources.update (fun row => row.sessionId = session) fun row =>
        { row with
          path := path
          sha256 := sha256
          sizeBytes := sizeBytes
          durationSeconds := durationSeconds } }

def updateState (db : Database) (session : Uuid) (state : SessionState) : Database :=
  { db with
    sessions := db.sessions.update (fun row => row.id = session)
      fun row => { row with state := state } }

def setCurrentJobId (db : Database) (session : Uuid) (job : Option JobId) : Database :=
  { db with
    sessions := db.sessions.update (fun row => row.id = session)
      fun row => { row with currentJobId := job } }

def clearCurrentJobId (db : Database) (session : Uuid) : Database := setCurrentJobId db session none

def updateEditedTranscript (db : Database) (session : Uuid) (content : Text) : Database :=
  { db with
    sessions := db.sessions.update (fun row => row.id = session)
      fun row => { row with editedTranscriptMd := some content } }

def clearEditedTranscript (db : Database) (session : Uuid) : Database :=
  { db with
    sessions := db.sessions.update (fun row => row.id = session)
      fun row => { row with editedTranscriptMd := none } }

end SessionRepository

namespace TranscriptionRepository

def upsert (db : Database) (session : Uuid) (segments : List TranscriptionSegment)
    (language modelUsed provider : Text) : Database :=
  { db with
    transcriptions := db.transcriptions.put ⟨session, segments, language, modelUsed, provider⟩ }

def getForSession (db : Database) (session : Uuid) : Option Transcription :=
  db.transcriptions.get? session

def deleteForSession (db : Database) (session : Uuid) : Database :=
  { db with transcriptions := db.transcriptions.delete fun row => row.sessionId = session }

end TranscriptionRepository

namespace MappingRepository

def getForSession (db : Database) (session : Uuid) : List SessionPjMapping :=
  (db.mappings.select fun row => row.sessionId = session).insertionSort
    fun a b => a.speakerLabel ≤ b.speakerLabel

def deleteForSession (db : Database) (session : Uuid) : Database :=
  { db with mappings := db.mappings.delete fun row => row.sessionId = session }

/-- `mapping` is a Python `dict`: its labels are distinct. -/
def replaceForSession (db : Database) (session : Uuid)
    (mapping : Table Text (Text × Uuid) Prod.fst) : Option Database :=
  let cleared := deleteForSession db session
  (cleared.mappings.insertAll? (mapping.rows.map fun item => ⟨session, item.1, item.2⟩)).map
    fun rows => { cleared with mappings := rows }

end MappingRepository

namespace ArtifactRepository

def upsert (db : Database) (session : Uuid) (kind : ArtifactKind) (content : ArtifactContent)
    (modelUsed : Text) : Database :=
  { db with artifacts := db.artifacts.put ⟨session, kind, content, modelUsed, false, none⟩ }

def get (db : Database) (session : Uuid) (kind : ArtifactKind) : Option Artifact :=
  db.artifacts.get? (session, kind)

def updateContent (db : Database) (session : Uuid) (kind : ArtifactKind)
    (content : ArtifactContent) (editedBy : Uuid) : Option Database :=
  (get db session kind).map fun _ =>
    { db with
      artifacts := db.artifacts.update (fun row => row.sessionId = session && row.kind = kind)
        fun row => { row with contentJson := content, isEdited := true, editedBy := some editedBy } }

def listForSession (db : Database) (session : Uuid) : List Artifact :=
  db.artifacts.select fun row => row.sessionId = session

def invalidatePovArtifacts (db : Database) (session : Uuid) : Database :=
  { db with artifacts := db.artifacts.delete fun row => row.sessionId = session && row.isPov }

def deleteForSession (db : Database) (session : Uuid) : Database :=
  { db with artifacts := db.artifacts.delete fun row => row.sessionId = session }

end ArtifactRepository

namespace JobRepository

def upsertStatus (db : Database) (job : JobId) (kind : JobKind) (session : Uuid)
    (status : JobStatus) (failureReason : Option String) : Database :=
  { db with jobs := db.jobs.put ⟨job, kind, session, status, failureReason⟩ }

end JobRepository

namespace ChunkRepository

def newRows (first : Uuid) (session : Uuid) (texts : List Text) : List Chunk :=
  texts.mapIdx fun i text => ⟨first + i, session, i, text, none⟩

/-- `uuid4` draws ids that no row has; `drawn` is what it comes from. -/
def firstId (db : Database) (drawn : Uuid) : Uuid := max drawn (fresh (db.chunks.rows.map Chunk.id))

def bulkCreateForSession (db : Database) (session : Uuid) (texts : List Text) (drawn : Uuid) :
    Option Database :=
  (db.chunks.insertAll? (newRows (firstId db drawn) session texts)).map
    fun rows => { db with chunks := rows }

def listForSession (db : Database) (session : Uuid) : List Chunk :=
  (db.chunks.toTable.select fun row => row.sessionId = session).insertionSort
    fun a b => a.ordre ≤ b.ordre

def updateSummaryText (db : Database) (chunk : Uuid) (summary : Text) : Database :=
  { db with
    chunks := db.chunks.update (fun row => row.id = chunk)
      fun row => { row with summaryText := some summary } }

def resetSummaryTexts (db : Database) (session : Uuid) : Database :=
  { db with
    chunks := db.chunks.update (fun row => row.sessionId = session)
      fun row => { row with summaryText := none } }

def deleteForSession (db : Database) (session : Uuid) : Database :=
  { db with chunks := db.chunks.delete fun row => row.sessionId = session }

end ChunkRepository

namespace SessionPlayerRepository

def listForSession (db : Database) (session : Uuid) : List SessionPlayer :=
  db.players.select fun row => row.sessionId = session

def uniqueIds (seen : List Uuid) : List Uuid → List Uuid
  | [] => []
  | pj :: rest => if pj ∈ seen then uniqueIds seen rest else pj :: uniqueIds (pj :: seen) rest

def replaceForSession (db : Database) (session : Uuid) (pjIds : List Uuid) : Option Database :=
  let cleared := { db with players := db.players.delete fun row => row.sessionId = session }
  (cleared.players.insertAll? ((uniqueIds [] pjIds).map fun pj => ⟨session, pj⟩)).map
    fun rows => { cleared with players := rows }

end SessionPlayerRepository

namespace ModelSettingsRepository

def getForUser (db : Database) (user : Uuid) : Option ModelSettings := db.modelSettings.get? user

end ModelSettingsRepository

end Kaeyris
