import Kaeyris.Campaigns
import Kaeyris.JobProjection
import Kaeyris.Lib.Query
import Kaeyris.Me
import Kaeyris.SpeakerTurns

/-!
# What a game master reads

The `GET` routes of `router.py` behind `require_gm` (and the two of campaigns behind
`require_api_key`), with the lookups they use in `logic.py` and `repositories.py`.
-/

namespace Kaeyris
open Lib

inductive SessionMode | batch | live
  deriving DecidableEq, Repr

/-- The database with more columns that only readers use, and what RQ holds. -/
structure Archive extends Library where
  sessionMode : Uuid → SessionMode
  updatedAt : Uuid → Timestamp
  completedAt : Uuid → Timestamp
  mappedAt : Uuid × Text → Timestamp
  playedAt : Uuid × Uuid → Timestamp
  pjCreatedAt : Uuid → Timestamp
  pjUser : Uuid → Option Uuid
  rq : JobId → Option JobProjection.RqRecord

namespace Gm
open Me (orRaise TextOut Provenance artifactProvenance textOut validElement internal)
open Router (require requireSession sessionNotFound artifactNotReady)

/-! ## Responses -/

structure CampaignOut where
  id : Uuid
  name : Text
  description : Option Text
  role : CampaignRole
  sessionCount : Nat
  lastSessionAt : Option DateTime
  createdAt : Timestamp
  deriving DecidableEq

structure SessionOut where
  id : Uuid
  title : Text
  recordedAt : DateTime
  mode : SessionMode
  state : SessionState
  transcriptionMode : TranscriptionMode
  campaignContext : Option Text
  currentJobId : Option JobId
  createdAt : Timestamp
  updatedAt : Timestamp
  deriving DecidableEq

structure ChunkOut where
  chunkId : Uuid
  ordre : Nat
  text : Text
  deriving DecidableEq

structure PjOut where
  id : Uuid
  name : Text
  campaignId : Uuid
  userId : Option Uuid
  createdAt : Timestamp
  deriving DecidableEq

structure Page (α : Type) where
  items : List α
  total : Nat
  size : Nat
  deriving DecidableEq

inductive Response
  | campaigns (page : Page CampaignOut)
  | campaign (out : CampaignOut)
  | sessions (page : Page SessionOut)
  | session (out : SessionOut)
  | chunks (sessionId : Uuid) (items : List ChunkOut)
  | pjs (page : Page PjOut)
  | mapping (sessionId : Uuid) (mapping : List (Text × Uuid)) (updatedAt : Option Timestamp)
  | players (sessionId : Uuid) (pjIds : List Uuid)
  | transcription (sessionId : Uuid) (segments : List TranscriptionSegment)
      (language modelUsed provider : Text) (completedAt : Timestamp)
  | narrative (out : TextOut)
  | summary (out : TextOut)
  | pov (pj : Uuid) (out : TextOut)
  | elements (sessionId : Uuid) (elements : List Element) (modelUsed : Text)
      (generatedAt : DateTime) (provenance : Provenance)
  | markdown (content : String)
  | job (out : JobEvents.JobOut)
  deriving DecidableEq

def pageSizeMax : Nat := 500

/-- `size=len(items) or 1`. A page that the schema refuses ends as a 500. -/
def wholePage {α : Type} (items : List α) : Except AppError (Page α) := do
  let size := if items = [] then 1 else items.length
  require (size ≤ pageSizeMax) internal
  return ⟨items, items.length, size⟩

/-! ## Campaigns -/

def campaignForbidden (detail : String) : AppError := ⟨403, "campaign-forbidden", detail⟩

def webUserId (auth : AuthenticatedKey) : Except AppError Uuid :=
  match auth.source, auth.userId with
  | .webSession, some user => .ok user
  | _, _ => .error (campaignForbidden "A web session is required.")

/-- The parts of a date that `max` compares, the weightiest first. -/
def dateKey (date : DateTime) : List Nat :=
  [date.year, date.month, date.day, date.hour, date.minute]

def laterOf (a b : DateTime) : DateTime := if dateKey a < dateKey b then b else a

/-- `func.max(Session.recorded_at)` of the sessions of a campaign. -/
def lastSessionAt (lib : Library) (campaign : Uuid) : Option DateTime :=
  match (lib.db.sessions.select fun row => row.campaignId = some campaign).map fun row =>
      lib.recordedAt row.id with
  | [] => none
  | first :: rest => some (rest.foldl laterOf first)

/-- A campaign joined with a membership, and the statistics outer-joined; no session counts as
zero. -/
def campaignOut (lib : Library) (joined : Campaign × CampaignMember) : CampaignOut where
  id := joined.1.id
  name := joined.1.name
  description := joined.1.description
  role := joined.2.role
  sessionCount := CampaignRepository.countSessions lib.db joined.1.id
  lastSessionAt := lastSessionAt lib joined.1.id
  createdAt := joined.1.createdAt

def memberships (db : Database) (user : Uuid) : List (Campaign × CampaignMember) :=
  (innerJoin db.campaigns.rows db.campaignMembers.rows fun campaign member =>
    member.campaignId = campaign.id).filter fun joined => joined.2.userId = user

def campaignBefore (a b : Campaign × CampaignMember) : Prop :=
  a.1.createdAt < b.1.createdAt ∨ a.1.createdAt = b.1.createdAt ∧
    (a.1.name < b.1.name ∨ a.1.name = b.1.name ∧ a.1.id ≤ b.1.id)

def listCampaigns (lib : Library) (rows : List (Campaign × CampaignMember)) : Response :=
  .campaigns ⟨rows.map (campaignOut lib), rows.length, 50⟩

def getCampaign (lib : Library) (auth : AuthenticatedKey) (campaign : Uuid) :
    Except AppError Response := do
  let user ← webUserId auth
  require (CampaignRepository.get lib.db campaign).isSome
    ⟨404, "campaign-not-found", s!"Campaign {campaign} not found."⟩
  let joined ← orRaise
    ((memberships lib.db user).find? fun joined => joined.1.id = campaign)
    (campaignForbidden "User is not a member of this campaign.")
  return .campaign (campaignOut lib joined)

def requireMember (db : Database) (auth : AuthenticatedKey) (campaign : Option Uuid) :
    Except AppError Unit :=
  match campaign, auth.userId with
  | some campaign, some user =>
      require (CampaignRepository.getMembership db user campaign).isSome
        (campaignForbidden "User is not a member of this campaign.")
  | _, _ => .ok ()

/-! ## Sessions -/

def sessionOut (archive : Archive) (row : Session) : SessionOut where
  id := row.id
  title := archive.title row.id
  recordedAt := archive.recordedAt row.id
  mode := archive.sessionMode row.id
  state := row.state
  transcriptionMode := row.transcriptionMode
  campaignContext := row.campaignContext
  currentJobId := row.currentJobId
  createdAt := archive.createdAt row.id
  updatedAt := archive.updatedAt row.id

def ownSessions (db : Database) (gmKey : Uuid) (campaign : Option Uuid) : List Session :=
  db.sessions.select fun row =>
    row.gmKeyId = gmKey && campaign.all fun c => row.campaignId = some c

def listSessions (archive : Archive) (rows : List Session) : Except AppError Response :=
  (wholePage (rows.map (sessionOut archive))).map .sessions

def getSession (archive : Archive) (auth : AuthenticatedKey) (session : Uuid) :
    Except AppError Response :=
  match SessionRepository.getForGm archive.db session auth.id none with
  | none => do
      requireMember archive.db auth ((archive.db.sessions.get? session).bind Session.campaignId)
      throw (sessionNotFound session)
  | some row => do
      requireMember archive.db auth row.campaignId
      return .session (sessionOut archive row)

def wrongMode (session : Uuid) (mode hint : String) : AppError :=
  ⟨409, "wrong-mode", s!"Session {session} is in mode '{mode}'. {hint}"⟩

def requireMode (row : Session) (session : Uuid) (mode : TranscriptionMode) (hint : String) :
    Except AppError Unit :=
  match mode with
  | .diarised =>
      require (row.transcriptionMode ≠ .nonDiarised) (wrongMode session "non_diarised" hint)
  | .nonDiarised =>
      require (row.transcriptionMode = .nonDiarised) (wrongMode session "diarised" hint)

def transcriptionNotReady (detail : String) : AppError := ⟨404, "transcription-not-ready", detail⟩

def getSessionChunks (archive : Archive) (auth : AuthenticatedKey) (session : Uuid) :
    Except AppError Response := do
  let row ← requireSession archive.db session auth
  requireMode row session .nonDiarised "Use GET /transcription for this session."
  let chunks := ChunkRepository.listForSession archive.db row.id
  require (chunks ≠ [])
    (transcriptionNotReady s!"Transcription chunks for session {session} are not available yet.")
  return .chunks row.id (chunks.map fun chunk => ⟨chunk.id, chunk.ordre, chunk.text⟩)

/-! ## Characters and participants -/

def ownPjs (db : Database) (gmKey : Uuid) (campaign : Option Uuid) : List Pj :=
  db.pjs.toTable.select fun row =>
    row.ownerGmKeyId = gmKey && campaign.all (row.campaignId = ·)

def memberPjs (db : Database) (user : Uuid) (campaign : Option Uuid) : List Pj :=
  ((innerJoin db.pjs.rows db.campaignMembers.rows fun row member =>
      member.campaignId = row.campaignId).filter fun joined =>
    joined.2.userId = user && campaign.all (joined.1.campaignId = ·)).map Prod.fst

/-- The rows of `logic.list_pjs` and their order, which differ for a web user. -/
def ListsPjs (archive : Archive) (auth : AuthenticatedKey) (campaign : Option Uuid)
    (rows : List Pj) : Prop :=
  match auth.userId with
  | some user => Arranges (fun a b => archive.pjCreatedAt a.id < archive.pjCreatedAt b.id ∨
      archive.pjCreatedAt a.id = archive.pjCreatedAt b.id ∧ a.id ≤ b.id)
        (memberPjs archive.db user campaign) rows
  | none => Arranges (fun a b => archive.pjCreatedAt a.id ≤ archive.pjCreatedAt b.id)
      (ownPjs archive.db auth.id campaign) rows

def pjOut (archive : Archive) (row : Pj) : PjOut :=
  ⟨row.id, row.name, row.campaignId, archive.pjUser row.id, archive.pjCreatedAt row.id⟩

def pjForbidden (detail : String) : AppError := ⟨403, "pj-forbidden", detail⟩

/-- `require_campaign_membership`, asked only when a campaign is given. -/
def requirePjMember (db : Database) (auth : AuthenticatedKey) (campaign : Option Uuid) :
    Except AppError Unit :=
  match campaign, auth.userId with
  | some campaign, some user =>
      require (CampaignRepository.getMembership db user campaign).isSome
        (pjForbidden "User is not a member of this campaign.")
  | _, _ => .ok ()

def listPjs (archive : Archive) (rows : List Pj) : Except AppError Response :=
  (wholePage (rows.map (pjOut archive))).map .pjs

def getSessionMapping (archive : Archive) (auth : AuthenticatedKey) (session : Uuid) :
    Except AppError Response := do
  let row ← requireSession archive.db session auth
  requireMode row session .diarised "Use GET /players to read the players list."
  let rows := MappingRepository.getForSession archive.db row.id
  return .mapping row.id (rows.map fun m => (m.speakerLabel, m.pjId))
    (rows.map fun m => archive.mappedAt m.key).max?

def openForPlayers (archive : Archive) (auth : AuthenticatedKey) (session : Uuid) :
    Except AppError Session := do
  let row ← requireSession archive.db session auth
  requireMode row session .nonDiarised "Use GET /mapping for this session."
  return row

def ListsPlayers (archive : Archive) (session : Uuid) (rows : List SessionPlayer) : Prop :=
  Arranges (fun a b => archive.playedAt a.key ≤ archive.playedAt b.key)
    (SessionPlayerRepository.listForSession archive.db session) rows

def getSessionPlayers (session : Uuid) (rows : List SessionPlayer) : Response :=
  .players session (rows.map SessionPlayer.pjId)

def getTranscription (archive : Archive) (auth : AuthenticatedKey) (session : Uuid) :
    Except AppError Response := do
  let row ← requireSession archive.db session auth
  requireMode row session .diarised "Use GET /chunks for this session."
  let transcription ← orRaise (TranscriptionRepository.getForSession archive.db session)
    (transcriptionNotReady
      s!"Transcription for session {session} is not available yet. Poll the job status or wait for the worker to finish.")
  return .transcription transcription.sessionId transcription.segmentsJson transcription.language
    transcription.modelUsed transcription.provider (archive.completedAt session)

def exportNotReady (session : Uuid) : AppError :=
  transcriptionNotReady s!"Transcription for session {session} is not available yet."

/-- An edited transcription is exported as it is, also in a session that is not diarised. -/
def getTranscriptionMd (archive : Archive) (auth : AuthenticatedKey) (session : Uuid) :
    Except AppError Response := do
  let row ← requireSession archive.db session auth
  match row.editedTranscriptMd with
  | some content =>
      require (row.state = .transcribed) (exportNotReady session)
      return .markdown (String.ofList content)
  | none =>
      requireMode row session .diarised "Use GET /chunks for this session."
      let transcription ← orRaise (TranscriptionRepository.getForSession archive.db session)
        (exportNotReady session)
      return .markdown (Markdown.renderTranscriptionMd
        ⟨row, archive.title row.id, archive.recordedAt row.id⟩ transcription none
        Markdown.mergeGapSeconds)

/-! ## Artifacts -/

def readArtifact (lib : Library) (auth : AuthenticatedKey) (session : Uuid)
    (checks : Session → Except AppError Unit) (kind : ArtifactKind) (detail : String) :
    Except AppError (SessionPage × ArtifactPage) := do
  let row ← requireSession lib.db session auth
  checks row
  let page ← orRaise (lib.artifact session kind) (artifactNotReady detail)
  return (⟨row, lib.title row.id, lib.recordedAt row.id⟩, page)

def postToGenerate (missing : String) : String :=
  missing ++ " POST to this endpoint to enqueue the job."

def getNarrative (lib : Library) (auth : AuthenticatedKey) (session : Uuid) :
    Except AppError Response := do
  let (_, page) ← readArtifact lib auth session (fun _ => .ok ()) .narrative
    (postToGenerate (Me.narrativeMissing session))
  return .narrative (textOut page (artifactProvenance page))

def getNarrativeMd (lib : Library) (auth : AuthenticatedKey) (session : Uuid) :
    Except AppError Response := do
  let (row, page) ← readArtifact lib auth session (fun _ => .ok ()) .narrative
    (Me.narrativeMissing session)
  return .markdown (Markdown.renderNarrativeMd row page)

def getElements (lib : Library) (auth : AuthenticatedKey) (session : Uuid) :
    Except AppError Response := do
  let (_, page) ← readArtifact lib auth session (fun _ => .ok ()) .elements
    (postToGenerate (Me.elementsMissing session))
  require page.row.contentJson.encodable internal
  let rows := Elements.elementsFromContent page.row.contentJson
  require (rows.all validElement) internal
  return .elements page.row.sessionId rows page.row.modelUsed page.generatedAt
    (artifactProvenance page)

def getElementsMd (lib : Library) (auth : AuthenticatedKey) (session : Uuid) :
    Except AppError Response := do
  let (row, page) ← readArtifact lib auth session (fun _ => .ok ()) .elements
    (Me.elementsMissing session)
  require page.row.contentJson.encodable internal
  return .markdown (Markdown.renderElementsMd row page)

def summaryMode (session : Uuid) (row : Session) : Except AppError Unit :=
  requireMode row session .nonDiarised "Summary artefact is reserved for non_diarised sessions."

def getSummary (lib : Library) (auth : AuthenticatedKey) (session : Uuid) :
    Except AppError Response := do
  let (_, page) ← readArtifact lib auth session (summaryMode session) .summary
    (postToGenerate (Me.summaryMissing session))
  return .summary (textOut page (artifactProvenance page))

def getSummaryMd (lib : Library) (auth : AuthenticatedKey) (session : Uuid) :
    Except AppError Response := do
  let (row, page) ← readArtifact lib auth session (summaryMode session) .summary
    (Me.summaryMissing session)
  return .markdown (Markdown.renderSummaryMd row page)

/-- The last segment of the path: whether it asks for Markdown, and the text before the suffix. -/
def povPath (pjIdStr : Text) : Bool × Text :=
  let asMd := ".md".toList.isSuffixOf pjIdStr
  (asMd, if asMd then pjIdStr.take (pjIdStr.length - 3) else pjIdStr)

/-- `uuid` is the constructor `UUID` on a text; it may raise. -/
def getPov (uuid : Text → Option Uuid) (lib : Library) (auth : AuthenticatedKey) (session : Uuid)
    (pjIdStr : Text) : Except AppError Response := do
  let (asMd, raw) := povPath pjIdStr
  let pj ← orRaise (uuid raw) ⟨404, "pj-not-found", s!"PJ {String.ofList raw} not found."⟩
  let row ← requireSession lib.db session auth
  let character ← orRaise (PjRepository.findByIdOwnedBy lib.db pj auth.id row.campaignId)
    (Me.pjNotFound pj)
  let page ← orRaise (lib.artifact session (.pov pj)) (artifactNotReady
    s!"POV for PJ {pj} in session {session} has not been generated yet. POST to /artifacts/povs to enqueue the job.")
  return if asMd then
    .markdown (Markdown.renderPovMd ⟨row, lib.title row.id, lib.recordedAt row.id⟩ character page)
  else .pov pj (textOut page (artifactProvenance page))

/-- `_project_job_out`, which polling and the event stream share. Metadata that no test for
membership takes ends as a 500. -/
def projectJobOut (archive : Archive) (auth : AuthenticatedKey) (job : JobId) (now : Timestamp) :
    Except AppError JobEvents.JobOut := do
  let missing := JobProjection.jobNotFound s!"Job {job} not found."
  let record ← orRaise (archive.rq job) missing
  let (kind, session) ← JobProjection.resolveJobIdentity job record
  let _ ← orRaise (resolveSessionForGm archive.db session auth true) missing
  (JobProjection.projectRqJobOut now job record kind session).mapError fun _ => internal

def getJob (archive : Archive) (auth : AuthenticatedKey) (job : JobId) (now : Timestamp) :
    Except AppError Response :=
  (projectJobOut archive auth job now).map .job

inductive Request
  | campaigns
  | campaign (campaign : Uuid)
  | sessions (campaign : Option Uuid)
  | session (session : Uuid)
  | chunks (session : Uuid)
  | pjs (campaign : Option Uuid)
  | mapping (session : Uuid)
  | players (session : Uuid)
  | transcription (session : Uuid) | transcriptionMd (session : Uuid)
  | narrative (session : Uuid) | narrativeMd (session : Uuid)
  | elements (session : Uuid) | elementsMd (session : Uuid)
  | summary (session : Uuid) | summaryMd (session : Uuid)
  | pov (session : Uuid) (pjIdStr : Text)
  | job (job : JobId) (now : Timestamp)

/-- The answer to a list whose rows the check lets through. -/
def Listed {ρ : Type} (check : Except AppError Unit) (Lists : List ρ → Prop)
    (respond : List ρ → Except AppError Response) (answer : Except AppError Response) : Prop :=
  match check with
  | .error e => answer = .error e
  | .ok () => ∃ rows, Lists rows ∧ answer = respond rows

/-- The answers a request can get. A list may come in one order or another. -/
def Answers (uuid : Text → Option Uuid) (archive : Archive) (auth : AuthenticatedKey) :
    Request → Except AppError Response → Prop
  | .campaigns, answer =>
      match webUserId auth with
      | .error e => answer = .error e
      | .ok user => ∃ rows, Arranges campaignBefore (memberships archive.db user) rows ∧
          answer = .ok (listCampaigns archive.toLibrary rows)
  | .campaign campaign, answer => answer = getCampaign archive.toLibrary auth campaign
  | .sessions campaign, answer =>
      Listed (requireMember archive.db auth campaign)
        (Arranges (fun a b => archive.createdAt a.id ≤ archive.createdAt b.id)
          (ownSessions archive.db auth.id campaign))
        (listSessions archive) answer
  | .session session, answer => answer = getSession archive auth session
  | .chunks session, answer => answer = getSessionChunks archive auth session
  | .pjs campaign, answer =>
      Listed (requirePjMember archive.db auth campaign) (ListsPjs archive auth campaign)
        (listPjs archive) answer
  | .mapping session, answer => answer = getSessionMapping archive auth session
  | .players session, answer =>
      match openForPlayers archive auth session with
      | .error e => answer = .error e
      | .ok row => ∃ rows, ListsPlayers archive row.id rows ∧
          answer = .ok (getSessionPlayers row.id rows)
  | .transcription session, answer => answer = getTranscription archive auth session
  | .transcriptionMd session, answer => answer = getTranscriptionMd archive auth session
  | .narrative session, answer => answer = getNarrative archive.toLibrary auth session
  | .narrativeMd session, answer => answer = getNarrativeMd archive.toLibrary auth session
  | .elements session, answer => answer = getElements archive.toLibrary auth session
  | .elementsMd session, answer => answer = getElementsMd archive.toLibrary auth session
  | .summary session, answer => answer = getSummary archive.toLibrary auth session
  | .summaryMd session, answer => answer = getSummaryMd archive.toLibrary auth session
  | .pov session pjIdStr, answer =>
      answer = getPov uuid archive.toLibrary auth session pjIdStr
  | .job job now, answer => answer = getJob archive auth job now

end Gm

end Kaeyris
