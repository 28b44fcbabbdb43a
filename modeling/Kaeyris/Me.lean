import Kaeyris.Markdown
import Kaeyris.Router

/-!
# What a player reads

The `/me` routes of `router.py`, behind `require_player`, with the lookups they use in `logic.py`
and `campaign_context.py`.
-/

namespace Kaeyris
open Lib

structure PlayerKey where
  id : Uuid
  name : Text
  pjId : Option Uuid

structure Library where
  db : Database
  title : Uuid → Text
  recordedAt : Uuid → DateTime
  createdAt : Uuid → Timestamp
  generatedAt : Uuid → ArtifactKind → DateTime
  editedAt : Uuid → ArtifactKind → Option DateTime
  defaultCampaign : Option Uuid

namespace Library

def session (lib : Library) (session : Uuid) : Option SessionPage :=
  (lib.db.sessions.get? session).map fun row => ⟨row, lib.title session, lib.recordedAt session⟩

def artifact (lib : Library) (session : Uuid) (kind : ArtifactKind) : Option ArtifactPage :=
  (ArtifactRepository.get lib.db session kind).map fun row =>
    ⟨row, lib.generatedAt session kind, lib.editedAt session kind⟩

end Library

namespace Me

/-! ## Lookups -/

def campaignIdForAuth (lib : Library) (auth : PlayerKey) : Option Uuid :=
  match auth.pjId with
  | some pj => (lib.db.pjs.get? pj).map Pj.campaignId
  | none => lib.defaultCampaign

def getPlayerPj (db : Database) (pj : Uuid) (campaign : Option Uuid) : Option Pj :=
  (db.pjs.get? pj).filter fun row => campaign.all (row.campaignId = ·)

def isPjMappedOnSession (db : Database) (session pj : Uuid) (campaign : Option Uuid) : Bool :=
  match (db.sessions.get? session).filter fun row =>
      campaign.all fun c => row.campaignId = some c with
  | none => false
  | some row =>
      match row.transcriptionMode with
      | .nonDiarised => (db.players.get? (session, pj)).isSome
      | .diarised => db.mappings.rows.any fun m => m.sessionId = session && m.pjId = pj

/-- The `WHERE` clause of `list_player_sessions`, on a session joined with a mapping row and a player
row. -/
def joins (pj : Uuid) (campaign : Option Uuid)
    (row : (Session × Option SessionPjMapping) × Option SessionPlayer) : Bool :=
  ((row.1.1.transcriptionMode = .diarised && row.1.2.any fun m => m.pjId = pj) ||
      (row.1.1.transcriptionMode = .nonDiarised && row.2.any fun p => p.pjId = pj)) &&
    campaign.all fun c => row.1.1.campaignId = some c

def selectPlayerSessions (db : Database) (pj : Uuid) (campaign : Option Uuid) : List Session :=
  let mapped := outerJoin db.sessions.rows db.mappings.rows fun row m => m.sessionId = row.id
  let joined := outerJoin mapped db.players.rows fun row p => p.sessionId = row.1.id
  ((joined.filter (joins pj campaign)).map fun row => row.1.1).dedup

/-- `ORDER BY created_at` leaves the order of rows created at one time open. -/
def ListsPlayerSessions (lib : Library) (pj : Uuid) (campaign : Option Uuid)
    (rows : List Session) : Prop :=
  rows.Perm (selectPlayerSessions lib.db pj campaign) ∧
    rows.Pairwise fun a b => lib.createdAt a.id ≤ lib.createdAt b.id

def listPlayerSessions (lib : Library) (pj : Uuid) (campaign : Option Uuid) : List Session :=
  (selectPlayerSessions lib.db pj campaign).insertionSort
    fun a b => lib.createdAt a.id ≤ lib.createdAt b.id

/-! ## Errors -/

def forbidden : AppError := ⟨403, "forbidden", "Player key has no PJ bound."⟩

def playerForbidden (detail : String) : AppError := ⟨403, "player-forbidden", detail⟩

def pjNotFound (pj : Uuid) : AppError := ⟨404, "pj-not-found", s!"PJ {pj} not found."⟩

def artifactNotReady (detail : String) : AppError := ⟨404, "artifact-not-ready", detail⟩

def internal : AppError := ⟨500, "internal", "An unexpected error occurred."⟩

def orRaise {α : Type} (value : Option α) (error : AppError) : Except AppError α :=
  match value with
  | some a => .ok a
  | none => .error error

def ensurePlayerCanReadSession (db : Database) (session : Uuid) (pjId campaign : Option Uuid) :
    Except AppError Uuid :=
  match pjId with
  | none => .error (playerForbidden "Player key has no PJ bound — refuse by default.")
  | some pj =>
      if isPjMappedOnSession db session pj campaign then .ok pj
      else .error (playerForbidden
        s!"Your PJ is not mapped on session {session}. Ask your MJ to update the mapping.")

/-! ## Responses -/

structure Provenance where
  isEdited : Bool
  editedAt : Option DateTime
  editedBy : Option Uuid
  deriving DecidableEq

def Provenance.default : Provenance := ⟨false, none, none⟩

def artifactProvenance (page : ArtifactPage) : Provenance :=
  ⟨page.row.isEdited, page.editedAt, page.row.editedBy⟩

structure PlayerSessionItem where
  sessionId : Uuid
  title : Text
  recordedAt : DateTime
  deriving DecidableEq

structure TextOut where
  sessionId : Uuid
  text : Text
  modelUsed : Text
  generatedAt : DateTime
  provenance : Provenance
  deriving DecidableEq

inductive Response
  | me (name : Text) (pj : Uuid) (pjName : Text)
  | sessions (items : List PlayerSessionItem)
  | narrative (out : TextOut)
  | summary (out : TextOut)
  | pov (pj : Uuid) (out : TextOut)
  | elements (sessionId : Uuid) (elements : List Element) (modelUsed : Text)
      (generatedAt : DateTime) (provenance : Provenance)
  | markdown (content : String)
  deriving DecidableEq

def textOut (page : ArtifactPage) (provenance : Provenance) : TextOut :=
  ⟨page.row.sessionId, Markdown.contentText page.row.contentJson, page.row.modelUsed,
    page.generatedAt, provenance⟩

def validElement (row : Element) : Bool :=
  row.category.length ≤ 120 && row.name.length ≤ 255 && row.description.length ≤ 2000

/-! ## Routes -/

def getMe (lib : Library) (auth : PlayerKey) : Except AppError Response := do
  let pj ← orRaise auth.pjId forbidden
  let row ← orRaise (getPlayerPj lib.db pj (campaignIdForAuth lib auth)) (pjNotFound pj)
  return .me auth.name row.id row.name

def getMySessions (lib : Library) (rows : List Session) : Response :=
  .sessions (rows.map fun row => ⟨row.id, lib.title row.id, lib.recordedAt row.id⟩)

def readArtifact (lib : Library) (auth : PlayerKey) (session : Uuid)
    (kind : Uuid → ArtifactKind) (detail : String) : Except AppError (Uuid × ArtifactPage) := do
  let pj ← ensurePlayerCanReadSession lib.db session auth.pjId (campaignIdForAuth lib auth)
  let page ← orRaise (lib.artifact session (kind pj)) (artifactNotReady detail)
  return (pj, page)

/-- The Markdown routes read the session's row too; what is missing of the two makes no
difference. -/
def readForMarkdown (lib : Library) (auth : PlayerKey) (session : Uuid)
    (kind : Uuid → ArtifactKind) (detail : String) :
    Except AppError (Uuid × SessionPage × ArtifactPage) := do
  let pj ← ensurePlayerCanReadSession lib.db session auth.pjId (campaignIdForAuth lib auth)
  let row ← orRaise (lib.session session) (artifactNotReady detail)
  let page ← orRaise (lib.artifact session (kind pj)) (artifactNotReady detail)
  return (pj, row, page)

def narrativeMissing (session : Uuid) : String :=
  s!"Narrative for session {session} has not been generated yet."

def summaryMissing (session : Uuid) : String :=
  s!"Summary for session {session} has not been generated yet."

def elementsMissing (session : Uuid) : String :=
  s!"Elements for session {session} have not been generated yet."

def povMissing (session : Uuid) : String :=
  s!"POV for your PJ in session {session} has not been generated yet."

def getMyNarrative (lib : Library) (auth : PlayerKey) (session : Uuid) :
    Except AppError Response := do
  let (_, page) ← readArtifact lib auth session (fun _ => .narrative) (narrativeMissing session)
  return .narrative (textOut page .default)

def getMyNarrativeMd (lib : Library) (auth : PlayerKey) (session : Uuid) :
    Except AppError Response := do
  let (_, row, page) ←
    readForMarkdown lib auth session (fun _ => .narrative) (narrativeMissing session)
  return .markdown (Markdown.renderNarrativeMd row page)

def getMySummary (lib : Library) (auth : PlayerKey) (session : Uuid) :
    Except AppError Response := do
  let (_, page) ← readArtifact lib auth session (fun _ => .summary) (summaryMissing session)
  return .summary (textOut page (artifactProvenance page))

def getMySummaryMd (lib : Library) (auth : PlayerKey) (session : Uuid) :
    Except AppError Response := do
  let (_, row, page) ←
    readForMarkdown lib auth session (fun _ => .summary) (summaryMissing session)
  return .markdown (Markdown.renderSummaryMd row page)

def getMyElements (lib : Library) (auth : PlayerKey) (session : Uuid) :
    Except AppError Response := do
  let (_, page) ← readArtifact lib auth session (fun _ => .elements) (elementsMissing session)
  Router.require page.row.contentJson.encodable internal
  let rows := Elements.elementsFromContent page.row.contentJson
  Router.require (rows.all validElement) internal
  return .elements page.row.sessionId rows page.row.modelUsed page.generatedAt
    (artifactProvenance page)

def getMyElementsMd (lib : Library) (auth : PlayerKey) (session : Uuid) :
    Except AppError Response := do
  let (_, row, page) ←
    readForMarkdown lib auth session (fun _ => .elements) (elementsMissing session)
  Router.require page.row.contentJson.encodable internal
  return .markdown (Markdown.renderElementsMd row page)

def getMyPov (lib : Library) (auth : PlayerKey) (session : Uuid) : Except AppError Response := do
  let (pj, page) ← readArtifact lib auth session .pov (povMissing session)
  return .pov pj (textOut page .default)

def getMyPovMd (lib : Library) (auth : PlayerKey) (session : Uuid) : Except AppError Response := do
  let (pj, row, page) ← readForMarkdown lib auth session .pov (povMissing session)
  let character ← orRaise (getPlayerPj lib.db pj (campaignIdForAuth lib auth))
    (artifactNotReady (povMissing session))
  return .markdown (Markdown.renderPovMd row character page)

inductive Request
  | me | sessions
  | narrative (session : Uuid) | narrativeMd (session : Uuid)
  | summary (session : Uuid) | summaryMd (session : Uuid)
  | elements (session : Uuid) | elementsMd (session : Uuid)
  | pov (session : Uuid) | povMd (session : Uuid)

/-- The answers a request can get. Only the list of sessions leaves more than one possible. -/
def Answers (lib : Library) (auth : PlayerKey) : Request → Except AppError Response → Prop
  | .me, answer => answer = getMe lib auth
  | .sessions, answer =>
      match auth.pjId with
      | none => answer = .error forbidden
      | some pj => ∃ rows, ListsPlayerSessions lib pj (campaignIdForAuth lib auth) rows ∧
          answer = .ok (getMySessions lib rows)
  | .narrative session, answer => answer = getMyNarrative lib auth session
  | .narrativeMd session, answer => answer = getMyNarrativeMd lib auth session
  | .summary session, answer => answer = getMySummary lib auth session
  | .summaryMd session, answer => answer = getMySummaryMd lib auth session
  | .elements session, answer => answer = getMyElements lib auth session
  | .elementsMd session, answer => answer = getMyElementsMd lib auth session
  | .pov session, answer => answer = getMyPov lib auth session
  | .povMd session, answer => answer = getMyPovMd lib auth session

end Me

end Kaeyris
