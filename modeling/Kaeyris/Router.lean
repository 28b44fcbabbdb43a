import Kaeyris.Logic

/-!
# The routes

The request handlers of `router.py` and `batch/router.py` that change a session. A handler returns
the HTTP error it raises, or what the request commits.
-/

namespace Kaeyris
open Lib

inductive KeySource | apiKey | webSession
  deriving DecidableEq, Repr

structure AuthenticatedKey where
  id : Uuid
  source : KeySource
  userId : Option Uuid
  deriving DecidableEq

structure AppError where
  statusCode : Nat
  errorType : String
  detail : String
  deriving DecidableEq

def resolveSessionForGm (db : Database) (session : Uuid) (auth : AuthenticatedKey)
    (requireGmRole : Bool) : Option Session :=
  match SessionRepository.getForGm db session auth.id none with
  | none => none
  | some row =>
      match auth.source, auth.userId, row.campaignId with
      | .webSession, some user, some campaign =>
          match CampaignRepository.getMembership db user campaign with
          | none => none
          | some member => if requireGmRole && member.role ≠ .gm then none else some row
      | _, _, _ => some row

namespace Router

def sessionNotFound (session : Uuid) : AppError :=
  ⟨404, "session-not-found", s!"Session {session} not found."⟩

def require (condition : Bool) (error : AppError) : Except AppError Unit :=
  if condition then .ok () else .error error

/-- The status and type under which the routes raise what `logic.py` raised; an exception no route
expects becomes the generic 500. -/
def ofLogic : LogicError → AppError
  | .unsupportedAudioMime detail => ⟨415, "unsupported-audio-mime", detail⟩
  | .audioAlreadyUploaded detail => ⟨409, "audio-already-uploaded", detail⟩
  | .audioUploadTooLarge limit =>
      ⟨413, "audio-upload-too-large",
        s!"Audio upload exceeds the configured limit of {limit} bytes."⟩
  | .sessionNotTranscribedForEdit detail => ⟨409, "session-not-transcribed", detail⟩
  | .invalidPlayerList detail => ⟨422, "invalid-player-list", detail⟩
  | .invalidMapping detail => ⟨422, "invalid-mapping", detail⟩
  | .audioPurgeBlocked detail => ⟨409, "audio-purge-conflict", detail⟩
  | .transcriptionNotStuck detail => ⟨409, "transcription-not-stuck", detail⟩
  | .transcriptionStillActive detail => ⟨409, "transcription-still-active", detail⟩
  | .transcriptionRestartNotAllowed detail => ⟨409, "transcription-restart-not-allowed", detail⟩
  | .noAudioToTranscribe detail => ⟨409, "no-audio-to-transcribe", detail⟩
  | .integrityError => ⟨500, "internal", "An unexpected error occurred."⟩

def requireSession (db : Database) (session : Uuid) (auth : AuthenticatedKey) :
    Except AppError Session :=
  match resolveSessionForGm db session auth true with
  | some row => .ok row
  | none => .error (sessionNotFound session)

def hasEditedTranscription (row : Session) : Bool :=
  !decide (Text.Blank (row.editedTranscriptMd.getD []))

def ArtifactKind.isPov : ArtifactKind → Bool
  | .pov _ => true
  | _ => false

def isDownstreamArtifact : ArtifactKind → Bool
  | .narrative | .elements | .pov _ => true
  | .summary => false

def artifactKindLabel : ArtifactKind → String
  | .narrative => "narrative"
  | .elements => "elements"
  | .summary => "summary"
  | .pov _ => "povs"

/-- The artifacts that `_guard_regeneration_not_edited` protects. -/
structure Guarded where
  targetKinds : List ArtifactKind := []
  includePovs : Bool := false
  includeDownstream : Bool := false

def Guarded.covers (guarded : Guarded) (kind : ArtifactKind) : Bool :=
  kind ∈ guarded.targetKinds || (guarded.includePovs && ArtifactKind.isPov kind) ||
    (guarded.includeDownstream && isDownstreamArtifact kind)

def guardRegenerationNotEdited (db : Database) (session : Uuid) (force : Bool)
    (guarded : Guarded) : Except AppError Unit :=
  if force then .ok ()
  else
    let editedKinds := ((ArtifactRepository.listForSession db session).filter fun row =>
      row.isEdited && guarded.covers row.kind).map Artifact.kind
    if editedKinds = [] then .ok ()
    else
      let labels := ", ".intercalate
        ((editedKinds.map artifactKindLabel).dedup.insertionSort fun a b => a ≤ b)
      .error ⟨409, "artifact-edited",
        s!"Regeneration would overwrite manually edited artifact(s): {labels}. Retry with ?force=true to confirm replacement."⟩

def guardArtifactEditNotBusy (rq : Rq) (row : Session) : Except AppError Unit :=
  match row.currentJobId.bind rq.get? with
  | none => .ok ()
  | some job =>
      if job.sessionId ≠ row.id || !job.func.isArtifact then .ok ()
      else if job.status.toJobStatus.terminal then .ok ()
      else .error ⟨409, "artifact-busy",
        "An artifact generation job is still running for this session. Retry after it completes."⟩

/-! ## Generation requests -/

def requireTranscribed (row : Session) (purpose : String) : Except AppError Unit :=
  require (row.state = .transcribed) ⟨409, "session-not-transcribed",
    s!"Session {row.id} is in state '{row.state.value}'; {purpose} requires 'transcribed'."⟩

/-- In non-diarised mode the derived artifacts need a global summary or an edited transcription. -/
def requireSummary (db : Database) (row : Session) : Except AppError Unit :=
  require (row.transcriptionMode ≠ .nonDiarised ||
      (ArtifactRepository.get db row.id .summary).isSome || hasEditedTranscription row)
    ⟨409, "no-summary",
      s!"Session {row.id} has no global summary yet. POST /artifacts/summary first (FR-010)."⟩

def requireParticipants (db : Database) (row : Session) : Except AppError Unit :=
  match row.transcriptionMode with
  | .nonDiarised =>
      require (SessionPlayerRepository.listForSession db row.id ≠ []) ⟨409, "no-mapping",
        s!"Session {row.id} has no PJ declared via POST /players. Declare at least one PJ before generating POVs."⟩
  | .diarised =>
      require (MappingRepository.getForSession db row.id ≠ []) ⟨409, "no-mapping",
        s!"Session {row.id} has no speaker-PJ mapping configured. Call PUT /services/jdr/sessions/\x7bid\x7d/mapping first."⟩

def requireNonDiarised (row : Session) (advice : String) : Except AppError Unit :=
  require (row.transcriptionMode = .nonDiarised)
    ⟨409, "wrong-mode", s!"Session {row.id} is in mode 'diarised'. {advice}"⟩

def requireChunks (db : Database) (row : Session) : Except AppError Unit :=
  require (ChunkRepository.listForSession db row.id ≠ [] || hasEditedTranscription row)
    ⟨409, "no-chunks",
      s!"Session {row.id} has no chunks; transcription job may not have produced output yet."⟩

def postArtifact (kind : JobKind) (checks : Database → Session → Except AppError Unit)
    (guarded : Guarded) (db : Database) (rq : Rq) (auth : AuthenticatedKey) (session : Uuid)
    (force : Bool) : Except AppError (JobId × Database × Rq) := do
  let row ← requireSession db session auth
  checks db row
  guardRegenerationNotEdited db session force guarded
  return Logic.enqueueSessionJob db rq session kind

def postNarrative : Database → Rq → AuthenticatedKey → Uuid → Bool →
    Except AppError (JobId × Database × Rq) :=
  postArtifact .narrative
    (fun db row => do
      requireTranscribed row "narrative generation"
      requireSummary db row)
    { targetKinds := [.narrative] }

def postElements : Database → Rq → AuthenticatedKey → Uuid → Bool →
    Except AppError (JobId × Database × Rq) :=
  postArtifact .elements
    (fun db row => do
      requireTranscribed row "elements generation"
      requireSummary db row)
    { targetKinds := [.elements] }

def postPovs : Database → Rq → AuthenticatedKey → Uuid → Bool →
    Except AppError (JobId × Database × Rq) :=
  postArtifact .povs
    (fun db row => do
      requireTranscribed row "POV generation"
      requireSummary db row
      requireParticipants db row)
    { includePovs := true }

def postSummary : Database → Rq → AuthenticatedKey → Uuid → Bool →
    Except AppError (JobId × Database × Rq) :=
  postArtifact .summary
    (fun db row => do
      requireNonDiarised row "Map-reduce summary is reserved for non_diarised sessions."
      requireTranscribed row "summary generation"
      requireChunks db row)
    { targetKinds := [.summary], includeDownstream := true }

/-! ## Artifact edits -/

def maxArtifactTextEditChars : Nat := 2000000

structure TextEditIn where
  text : Text
  nonBlank : ¬text.Blank
  bounded : text.length ≤ maxArtifactTextEditChars

/-- The shape of the four edit routes. `checks` stands before the busy guard, `validate` after. -/
def editArtifact (kind : ArtifactKind) (content : ArtifactContent)
    (checks : Database → Session → Except AppError Unit) (validate : Except AppError Unit)
    (absent : AppError) (db : Database) (rq : Rq) (auth : AuthenticatedKey) (session : Uuid) :
    Except AppError Database := do
  let row ← requireSession db session auth
  checks db row
  guardArtifactEditNotBusy rq row
  validate
  match ArtifactRepository.updateContent db session kind content auth.id with
  | some db' => return db'
  | none => throw absent

def artifactNotReady (detail : String) : AppError := ⟨404, "artifact-not-ready", detail⟩

def patchSummary (payload : TextEditIn) (db : Database) (rq : Rq) (auth : AuthenticatedKey)
    (session : Uuid) : Except AppError Database :=
  editArtifact .summary (.text payload.text) (fun _ _ => .ok ()) (.ok ())
    (artifactNotReady
      s!"Summary for session {session} has not been generated yet; generate it before editing.")
    db rq auth session

def patchNarrative (payload : TextEditIn) (db : Database) (rq : Rq) (auth : AuthenticatedKey)
    (session : Uuid) : Except AppError Database :=
  editArtifact .narrative (.text payload.text) (fun _ _ => .ok ()) (.ok ())
    (artifactNotReady
      s!"Narrative for session {session} has not been generated yet; generate it before editing.")
    db rq auth session

def loadOwnedPjOr404 (db : Database) (pj gmKey : Uuid) (campaign : Option Uuid) :
    Except AppError Unit :=
  require (PjRepository.findByIdOwnedBy db pj gmKey campaign).isSome
    ⟨404, "pj-not-found", s!"PJ {pj} not found."⟩

def patchPov (pj : Uuid) (payload : TextEditIn) (db : Database) (rq : Rq)
    (auth : AuthenticatedKey) (session : Uuid) : Except AppError Database :=
  editArtifact (.pov pj) (.text payload.text)
    (fun db row => loadOwnedPjOr404 db pj auth.id row.campaignId) (.ok ())
    (artifactNotReady
      s!"POV for PJ {pj} in session {session} has not been generated yet; generate it before editing.")
    db rq auth session

def putElements (elements : List Element) (confirmEmpty : Bool) (db : Database) (rq : Rq)
    (auth : AuthenticatedKey) (session : Uuid) : Except AppError Database :=
  editArtifact .elements (.elements elements) (fun _ _ => .ok ())
    (require (elements ≠ [] || confirmEmpty) ⟨422, "elements-empty-clear-unconfirmed",
      "Empty elements replacement would clear the whole card. Retry with ?confirm_empty=true to confirm."⟩)
    (artifactNotReady
      s!"Elements for session {session} have not been generated yet; generate them before editing.")
    db rq auth session

def putSessionMapping (mapping : Table Text (Text × Uuid) Prod.fst) (db : Database)
    (auth : AuthenticatedKey) (session : Uuid) : Except AppError Database := do
  let row ← requireSession db session auth
  require (row.transcriptionMode ≠ .nonDiarised) ⟨409, "wrong-mode",
    s!"Session {session} is in mode 'non_diarised'. Use POST /players to declare PJs for this session."⟩
  requireTranscribed row "mapping"
  (Logic.setSessionMapping db row mapping auth.id row.campaignId).mapError ofLogic

structure SessionPlayersIn where
  pjIds : List Uuid
  nonEmpty : 1 ≤ pjIds.length
  bounded : pjIds.length ≤ 50

def postSessionPlayers (payload : SessionPlayersIn) (db : Database) (auth : AuthenticatedKey)
    (session : Uuid) : Except AppError Database := do
  let row ← requireSession db session auth
  requireNonDiarised row "Use PUT /mapping for this session."
  (Logic.setSessionPlayers db row payload.pjIds auth.id row.campaignId).mapError ofLogic

/-! ## Transcription and audio -/

structure TranscriptionEditIn where
  contentMd : Text
  nonBlank : ¬contentMd.Blank

def putTranscriptionEdit (payload : TranscriptionEditIn) (db : Database)
    (auth : AuthenticatedKey) (session : Uuid) : Except AppError Database := do
  let row ← requireSession db session auth
  (Logic.saveSessionTranscriptionEdit db row payload.contentMd).mapError ofLogic

def recoverStuckTranscription (db : Database) (rq : Rq) (auth : AuthenticatedKey)
    (session : Uuid) : Except AppError Database := do
  let row ← requireSession db session auth
  (Logic.recoverStuckTranscription db rq row).mapError ofLogic

def restartTranscription (db : Database) (rq : Rq) (auth : AuthenticatedKey) (session : Uuid) :
    Except AppError (JobId × Database × Rq) := do
  let row ← requireSession db session auth
  (Logic.restartTranscriptionForSession db rq row).mapError ofLogic

def postAudio (settings : Settings) (sha256 : Bytes → Text) (upload : Logic.UploadFile)
    (duration : Option Int) (stores : Logic.Stores) (auth : AuthenticatedKey) (session : Uuid) :
    Except AppError (JobId × Logic.Stores) := do
  let row ← requireSession stores.db session auth
  (Logic.storeAudioSourceForSession settings sha256 stores row upload duration).mapError
    fun failure => ofLogic failure.1

def deleteAudio (now : Timestamp) (unlinked : Bool) (disk : Disk) (db : Database)
    (auth : AuthenticatedKey) (session : Uuid) : Except AppError (Disk × Database) := do
  let row ← requireSession db session auth
  (Logic.purgeAudioForSession disk db row now unlinked).mapError ofLogic

end Router

end Kaeyris
