import Kaeyris.Db.Models

/-!
# The job queue

What the application and its workers see of RQ: jobs with a status and a retry budget.
`jobs/__init__.py` enqueues every job with `Retry(max=3)`, which reschedules it after any uncaught
exception.
-/

namespace Kaeyris
open Lib

inductive RqStatus
  | queued | deferred | scheduled | started | finished | failed | stopped | canceled
  deriving DecidableEq, Repr

/-- An RQ job. `_FUNC_NAME_TO_KIND` is a bijection, so the kind stands for the function. -/
structure RqJob where
  id : JobId
  func : JobKind
  sessionId : Uuid
  status : RqStatus
  retriesLeft : Nat
  deriving DecidableEq

abbrev Rq := Table JobId RqJob RqJob.id

def RqStatus.active : RqStatus → Bool
  | .queued | .deferred | .scheduled | .started => true
  | _ => false

def RqStatus.toJobStatus : RqStatus → JobStatus
  | .queued | .deferred | .scheduled => .queued
  | .started => .running
  | .finished => .succeeded
  | .failed | .stopped | .canceled => .failed

def JobStatus.terminal : JobStatus → Bool
  | .succeeded | .failed => true
  | _ => false

def JobKind.isArtifact : JobKind → Bool
  | .transcription => false
  | _ => true

def defaultRetryMax : Nat := 3

namespace Rq

/-- `enqueue_job`, under an identifier that neither RQ nor the database knows. -/
def enqueueJob (rq : Rq) (known : List JobId) (func : JobKind) (session : Uuid) : JobId × Rq :=
  let id := fresh (rq.rows.map RqJob.id ++ known)
  (id, rq.put ⟨id, func, session, .queued, defaultRetryMax⟩)

def start (rq : Rq) (job : JobId) : Rq :=
  rq.update (fun row => row.id = job) fun row => { row with status := .started }

def finish (rq : Rq) (job : JobId) : Rq :=
  rq.update (fun row => row.id = job) fun row => { row with status := .finished }

/-- An uncaught exception: the job is rescheduled while retries remain. -/
def fail (rq : Rq) (job : JobId) : Rq :=
  rq.update (fun row => row.id = job) fun row =>
    { row with
      status := if 0 < row.retriesLeft then .scheduled else .failed
      retriesLeft := row.retriesLeft - 1 }

def due (rq : Rq) (job : JobId) : Rq :=
  rq.update (fun row => row.id = job) fun row => { row with status := .queued }

def forget (rq : Rq) (job : JobId) : Rq := rq.delete fun row => row.id = job

end Rq

def isRqJobActive (rq : Rq) (job : JobId) : Bool := (rq.get? job).any fun row => row.status.active

end Kaeyris
