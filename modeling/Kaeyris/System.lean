import Kaeyris.Jobs.Artifacts
import Kaeyris.Jobs.Transcription
import Kaeyris.Lib.Transition
import Kaeyris.Router

/-!
# The service as one machine

The database, the queue and the jobs that workers are running. A request is one step; a job takes
one step for each transaction and each call, so that requests and other jobs come in between.
Files are outside the machine: no request reads one, and what a job finds on disk is part of the
reaction it meets.
-/

namespace Kaeyris
open Lib Jobs

def jobProgram (env : Environment) (kind : JobKind) (session : Uuid) : JobBody Unit :=
  match kind with
  | .transcription => transcribeSession env session true
  | .narrative => generateNarrative env session
  | .elements => generateElements env session
  | .povs => generatePovs env session
  | .summary => generateSummary env session

/-- A job on a worker: what remains of its program. The last two fields record what its source was
read from: how often the session had been reset, and who took part in it. -/
structure Attempt where
  job : JobId
  kind : JobKind
  session : Uuid
  program : JobBody Unit
  source : Option Nat
  participants : Option (List Uuid)

/-- `forced`, `resets` and `provenance` only record history: the jobs requested with `force`, the
number of purges and restarts of a session, and the resets its artifacts' sources had seen. -/
structure System where
  db : Database
  rq : Rq
  attempts : Table JobId Attempt Attempt.job
  forced : JobId → Bool
  resets : Uuid → Nat
  provenance : Uuid → ArtifactKind → Option Nat

def System.initial (db : Database) : System where
  db := db
  rq := .empty
  attempts := .empty
  forced := fun _ => false
  resets := fun _ => 0
  provenance := fun _ _ => none

inductive Request
  | postAudio (upload : Logic.UploadFile) (duration : Option Int)
  | deleteAudio (now : Timestamp)
  | recoverStuckTranscription
  | restartTranscription
  | putTranscriptionEdit (payload : Router.TranscriptionEditIn)
  | putSessionMapping (mapping : Table Text (Text × Uuid) Prod.fst)
  | postSessionPlayers (payload : Router.SessionPlayersIn)
  | postNarrative (force : Bool)
  | postElements (force : Bool)
  | postPovs (force : Bool)
  | postSummary (force : Bool)
  | patchSummary (payload : Router.TextEditIn)
  | patchNarrative (payload : Router.TextEditIn)
  | patchPov (pj : Uuid) (payload : Router.TextEditIn)
  | putElements (elements : List Element) (confirmEmpty : Bool)

structure Accepted where
  db : Database
  rq : Rq
  job : Option JobId

def Request.handle (env : Environment) (db : Database) (rq : Rq) (auth : AuthenticatedKey)
    (session : Uuid) : Request → Except AppError Accepted
  | .postAudio upload duration =>
      (Router.postAudio env.settings env.sha256 upload duration ⟨fun _ => none, db, rq⟩ auth
        session).map fun result => ⟨result.2.db, result.2.rq, some result.1⟩
  | .deleteAudio now =>
      (Router.deleteAudio now true (fun _ => none) db auth session).map
        fun result => ⟨result.2, rq, none⟩
  | .recoverStuckTranscription =>
      (Router.recoverStuckTranscription db rq auth session).map fun db' => ⟨db', rq, none⟩
  | .restartTranscription =>
      (Router.restartTranscription db rq auth session).map
        fun result => ⟨result.2.1, result.2.2, some result.1⟩
  | .putTranscriptionEdit payload =>
      (Router.putTranscriptionEdit payload db auth session).map fun db' => ⟨db', rq, none⟩
  | .putSessionMapping mapping =>
      (Router.putSessionMapping mapping db auth session).map fun db' => ⟨db', rq, none⟩
  | .postSessionPlayers payload =>
      (Router.postSessionPlayers payload db auth session).map fun db' => ⟨db', rq, none⟩
  | .postNarrative force =>
      (Router.postNarrative db rq auth session force).map
        fun result => ⟨result.2.1, result.2.2, some result.1⟩
  | .postElements force =>
      (Router.postElements db rq auth session force).map
        fun result => ⟨result.2.1, result.2.2, some result.1⟩
  | .postPovs force =>
      (Router.postPovs db rq auth session force).map
        fun result => ⟨result.2.1, result.2.2, some result.1⟩
  | .postSummary force =>
      (Router.postSummary db rq auth session force).map
        fun result => ⟨result.2.1, result.2.2, some result.1⟩
  | .patchSummary payload =>
      (Router.patchSummary payload db rq auth session).map fun db' => ⟨db', rq, none⟩
  | .patchNarrative payload =>
      (Router.patchNarrative payload db rq auth session).map fun db' => ⟨db', rq, none⟩
  | .patchPov pj payload =>
      (Router.patchPov pj payload db rq auth session).map fun db' => ⟨db', rq, none⟩
  | .putElements elements confirmEmpty =>
      (Router.putElements elements confirmEmpty db rq auth session).map
        fun db' => ⟨db', rq, none⟩

def Request.force : Request → Bool
  | .postNarrative force | .postElements force | .postPovs force | .postSummary force => force
  | _ => false

def Request.resets : Request → Bool
  | .deleteAudio _ | .restartTranscription => true
  | _ => false

/-- The PJs taking part: the mapping of a diarised session, the players of any other. -/
def participants (db : Database) (session : Uuid) : List Uuid :=
  match db.sessions.get? session with
  | none => []
  | some row =>
      match row.transcriptionMode with
      | .diarised => (MappingRepository.getForSession db session).map SessionPjMapping.pjId
      | .nonDiarised => (SessionPlayerRepository.listForSession db session).map SessionPlayer.pjId

inductive Label
  | request (auth : AuthenticatedKey) (session : Uuid) (request : Request)
  | start (job : JobId)
  | advance (job : JobId) (reaction : Reaction effects)
  | settle (job : JobId)
  | die (job : JobId)
  | reap (job : JobId)
  | due (job : JobId)
  | expire (job : JobId)

def Jobs.Tx.writes : Tx → List ArtifactKind
  | .writeArtifacts kinds => kinds
  | _ => []

namespace System

def request (env : Environment) (s : System) (auth : AuthenticatedKey) (session : Uuid)
    (request : Request) : System :=
  match request.handle env s.db s.rq auth session with
  | .error _ => s
  | .ok accepted =>
      { s with
        db := accepted.db
        rq := accepted.rq
        forced := fun job =>
          if accepted.job = some job then request.force else s.forced job
        resets := fun other =>
          if other = session && request.resets then s.resets other + 1 else s.resets other }

def start (env : Environment) (s : System) (job : JobId) : System :=
  match s.rq.get? job with
  | some row =>
      if row.status = .queued then
        { s with
          rq := s.rq.start job
          attempts := s.attempts.put
            ⟨job, row.func, row.sessionId, jobProgram env row.func row.sessionId, none, none⟩ }
      else s
  | none => s

def observe (s : System) (a : Attempt) (committed : Option Tx) (program : JobBody Unit) : Attempt :=
  { a with
    program := program
    source := if committed = some .loadSource then some (s.resets a.session) else a.source
    participants :=
      if committed = some .loadParticipants then some (Kaeyris.participants s.db a.session)
      else a.participants }

def advance (s : System) (job : JobId) (reaction : Reaction effects) : System :=
  match s.attempts.get? job with
  | none => s
  | some a =>
      let (program, db) := a.program.step reaction s.db
      let committed := a.program.commits reaction
      { s with
        db := db
        attempts := s.attempts.put (observe s a committed program)
        provenance := fun session kind =>
          if session = a.session && (committed.any fun tx => kind ∈ Tx.writes tx) then a.source
          else s.provenance session kind }

def settle (s : System) (job : JobId) : System :=
  match s.attempts.get? job with
  | none => s
  | some a =>
      match a.program with
      | .done _ =>
          { s with rq := s.rq.finish job, attempts := s.attempts.delete fun b => b.job = job }
      | .raise _ =>
          { s with rq := s.rq.fail job, attempts := s.attempts.delete fun b => b.job = job }
      | _ => s

def die (s : System) (job : JobId) : System :=
  { s with attempts := s.attempts.delete fun b => b.job = job }

def idleStatus (s : System) (job : JobId) : Option RqStatus :=
  if (s.attempts.get? job).isSome then none else (s.rq.get? job).map RqJob.status

/-- RQ finds a started job without a worker and treats it as failed. -/
def reap (s : System) (job : JobId) : System :=
  if s.idleStatus job = some .started then { s with rq := s.rq.fail job } else s

def due (s : System) (job : JobId) : System :=
  if s.idleStatus job = some .scheduled then { s with rq := s.rq.due job } else s

/-- Redis drops the record of an ended job, or of one lost with its worker. -/
def expire (s : System) (job : JobId) : System :=
  match s.idleStatus job with
  | some .queued | some .scheduled | some .deferred | none => s
  | _ => { s with rq := s.rq.forget job }

def step (env : Environment) (s : System) : Label → System
  | .request auth session req => request env s auth session req
  | .start job => start env s job
  | .advance job reaction => advance s job reaction
  | .settle job => settle s job
  | .die job => die s job
  | .reap job => reap s job
  | .due job => due s job
  | .expire job => expire s job

end System

end Kaeyris
