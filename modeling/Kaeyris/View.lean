import Kaeyris.System

/-!
# A session as the rules see it

The rules about interleavings speak of a session's state, its current job, its audio, its
participants and its artifacts. A `View` holds these and no tables. What an accepted request and a
committed transaction may do to a view is stated here; that the service does nothing else is proved
in `Proof.Requests` and `Proof.JobMoves`.
-/

namespace Kaeyris
open Lib Jobs

@[ext] structure View where
  state : Option SessionState
  mode : Option TranscriptionMode
  current : Option JobId
  audio : Option (Option Timestamp)
  speakers : List Uuid
  players : List Uuid
  artifact : ArtifactKind → Option Artifact

def view (db : Database) (session : Uuid) : View where
  state := (db.sessions.get? session).map Session.state
  mode := (db.sessions.get? session).map Session.transcriptionMode
  current := (db.sessions.get? session).bind Session.currentJobId
  audio := (db.audioSources.get? session).map AudioSource.purgedAt
  speakers := (MappingRepository.getForSession db session).map SessionPjMapping.pjId
  players := (SessionPlayerRepository.listForSession db session).map SessionPlayer.pjId
  artifact := ArtifactRepository.get db session

namespace View
variable (v : View)

def participants : List Uuid :=
  match v.mode with
  | none => []
  | some .diarised => v.speakers
  | some .nonDiarised => v.players

/-! ## Requests -/

def uploaded (job : JobId) : View :=
  { v with audio := some none, state := some .audioUploaded, current := some job }

def purged (now : Timestamp) : View :=
  { v with
    audio := v.audio.map fun purgedAt => some (purgedAt.getD now)
    state := some .created
    current := none
    artifact := fun _ => none }

def recovered : View := { v with state := some .transcriptionFailed }

def restarted (job : JobId) : View :=
  { v with
    state := some .audioUploaded
    current := some job
    speakers := []
    artifact := fun _ => none }

def generating (job : JobId) : View := { v with current := some job }

def mapped (pjs : List Uuid) : View :=
  { v with
    speakers := pjs
    artifact := fun kind => if Router.ArtifactKind.isPov kind then none else v.artifact kind }

def played (pjs : List Uuid) : View := { v with players := pjs }

def withArtifact (kind : ArtifactKind) (row : Artifact) : View :=
  { v with artifact := fun other => if other = kind then some row else v.artifact other }

def inState (state : SessionState) : View := { v with state := v.state.map fun _ => state }

end View

/-- The artifacts that a job of a kind may write or delete, when its POVs are those of `pjs`. -/
def JobKind.replaces (kind : JobKind) (pjs : Uuid → Prop) (target : ArtifactKind) : Prop :=
  match kind, target with
  | .transcription, _ => False
  | .narrative, target => target = .narrative
  | .elements, target => target = .elements
  | .summary, _ => True
  | .povs, .pov pj => pjs pj
  | .povs, _ => False

/-- What a job of a kind may write: the summary job deletes what it replaces besides the summary. -/
def JobKind.produces (kind : JobKind) (pjs : Uuid → Prop) (target : ArtifactKind) : Prop :=
  match kind, target with
  | .summary, target => target = .summary
  | kind, target => kind.replaces pjs target

/-- The current job is an artifact job of the session that has not ended. -/
def Busy (rq : Rq) (session : Uuid) (v : View) : Prop :=
  ∃ job, v.current.bind rq.get? = some job ∧ job.sessionId = session ∧ job.func.isArtifact = true ∧
    job.status.toJobStatus.terminal = false

def Generates (kind : JobKind) (force : Bool) (job : Option JobId) (v v' : View) : Prop :=
  v.state = some .transcribed ∧
    (force = false → ∀ target row, v.artifact target = some row →
      kind.replaces (fun _ => True) target → row.isEdited = false) ∧
    ∃ id, job = some id ∧ v' = v.generating id

def Edits (rq : Rq) (session : Uuid) (kind : ArtifactKind) (v v' : View) : Prop :=
  ¬Busy rq session v ∧ ∃ row content editor, v.artifact kind = some row ∧
    v' = v.withArtifact kind
      { row with contentJson := content, isEdited := true, editedBy := some editor }

/-- What an accepted request, and the job it enqueued, make of a session. -/
def Request.changes (rq : Rq) (session : Uuid) (job : Option JobId) (v v' : View) :
    Request → Prop
  | .postAudio _ _ => v.audio = none ∧ ∃ id, job = some id ∧ v' = v.uploaded id
  | .deleteAudio now => v.state ≠ some .transcribing ∧ v' = v.purged now
  | .recoverStuckTranscription =>
      v.state = some .transcribing ∧ v.current.any (isRqJobActive rq) = false ∧ v' = v.recovered
  | .restartTranscription =>
      v.state.any Logic.restartable = true ∧ v.audio = some none ∧
        ∃ id, job = some id ∧ v' = v.restarted id
  | .putTranscriptionEdit _ => v' = v
  | .putSessionMapping mapping =>
      v.mode = some .diarised ∧
        ∃ pjs, (∀ pj, pj ∈ pjs ↔ pj ∈ mapping.rows.map Prod.snd) ∧ v' = v.mapped pjs
  | .postSessionPlayers payload =>
      v.mode = some .nonDiarised ∧
        v' = v.played (SessionPlayerRepository.uniqueIds [] payload.pjIds)
  | .postNarrative force => Generates .narrative force job v v'
  | .postElements force => Generates .elements force job v v'
  | .postPovs force => Generates .povs force job v v'
  | .postSummary force => Generates .summary force job v v'
  | .patchSummary _ => Edits rq session .summary v v'
  | .patchNarrative _ => Edits rq session .narrative v v'
  | .patchPov pj _ => Edits rq session (.pov pj) v v'
  | .putElements _ _ => Edits rq session .elements v v'

def Request.enqueues : Request → Option JobKind
  | .postAudio _ _ | .restartTranscription => some .transcription
  | .postNarrative _ => some .narrative
  | .postElements _ => some .elements
  | .postPovs _ => some .povs
  | .postSummary _ => some .summary
  | _ => none

/-- A request enqueues at most one job, under an identifier no session and no record holds. -/
def Enqueues (db : Database) (rq : Rq) (session : Uuid) (kind : Option JobKind)
    (job : Option JobId) (rq' : Rq) : Prop :=
  match kind with
  | none => job = none ∧ rq' = rq
  | some kind => ∃ id, job = some id ∧ rq.get? id = none ∧
      (∀ other, (view db other).current ≠ some id) ∧
      rq' = rq.put ⟨id, kind, session, .queued, defaultRetryMax⟩

inductive Transcribes (v : View) : Tx → View → Prop
  | nothing {tx : Tx} (reads : tx.writes = []) : Transcribes v tx v
  | begins (audio : v.audio = some none) : Transcribes v .begin (v.inState .transcribing)
  | fails : Transcribes v .markSessionFailed (v.inState .transcriptionFailed)
  | restores : Transcribes v .restoreSessionState (v.inState .audioUploaded)
  | persists : Transcribes v .persist (v.inState .transcribed)

structure Writes (kind : JobKind) (pjs : Uuid → Prop) (tx : Tx) (v v' : View) : Prop where
  rest : v' = { v with artifact := v'.artifact }
  within : ∀ target, ¬kind.replaces pjs target → v'.artifact target = v.artifact target
  written : ∀ target ∈ tx.writes, kind.produces pjs target ∧
    ∃ row, v'.artifact target = some row ∧ row.isEdited = false
  unwritten : ∀ target ∉ tx.writes,
    v'.artifact target = none ∨ v'.artifact target = v.artifact target

def OnSession (session : Uuid) (change : View → View → Prop) (db db' : Database) : Prop :=
  (∀ other, other ≠ session → view db' other = view db other) ∧
    change (view db session) (view db' session)

end Kaeyris
