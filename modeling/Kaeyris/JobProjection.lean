import Kaeyris.JobEvents
import Kaeyris.Router

/-!
# The projection of a job

What `GET /jobs/{id}` and the event stream make of a job that RQ holds: `_fetch_jdr_job`,
`_resolve_job_identity` and `_project_rq_job_out` of the router.
-/

namespace Kaeyris
open Lib Jobs

namespace Text

def isLineBoundary (c : Char) : Bool :=
  let n := c.toNat
  (10 ≤ n && n ≤ 13) || (28 ≤ n && n ≤ 30) || n == 0x85 || n == 0x2028 || n == 0x2029

/-- `line` is what has been read of the current line. -/
def splitLinesFrom (line : Text) : Text → List Text
  | [] => if line = [] then [] else [line]
  | '\r' :: '\n' :: rest => line :: splitLinesFrom [] rest
  | c :: rest =>
      if isLineBoundary c then line :: splitLinesFrom [] rest
      else splitLinesFrom (line ++ [c]) rest

def splitLines (s : Text) : List Text := splitLinesFrom [] s

end Text

namespace JobProjection
open JobEvents

inductive SessionArgument
  | missing
  | malformed
  | session (session : Uuid)
  deriving DecidableEq

/-- A job as the routes read it from RQ. `func` is what `_FUNC_NAME_TO_KIND` knows of the function's
name, and `status` is `none` for a status that `_RQ_STATUS_TO_JOB_STATUS` does not list. -/
structure RqRecord where
  func : Option JobKind
  argument : SessionArgument
  status : Option RqStatus
  isFailed : Bool
  excString : Option Text
  excInfo : Option Text
  createdAt : Option Timestamp
  startedAt : Option Timestamp
  endedAt : Option Timestamp
  jobMeta : Progress.JobMeta
  deriving DecidableEq

def failureReasonChars : Nat := 500

def unrecordedError : Text := "Job failed without a recorded error.".toList

def lastMeaningfulLine (excInfo : Text) : Option Text :=
  ((Text.splitLines excInfo).reverse.map Text.strip).find? (· ≠ [])

/-- `_failure_reason_from_job`. An empty text counts as none. -/
def failureReasonFromJob (record : RqRecord) : Option Text :=
  if record.isFailed then
    let excInfo := (record.excString.filter (· ≠ [])).or record.excInfo
    let line := excInfo.bind lastMeaningfulLine
    some ((line.map (List.take failureReasonChars)).getD unrecordedError)
  else none

def jobNotFound (detail : String) : AppError := ⟨404, "job-not-found", detail⟩

def resolveJobIdentity (job : JobId) (record : RqRecord) : Except AppError (JobKind × Uuid) :=
  match record.func with
  | none => .error (jobNotFound s!"Job {job} is not a recognised JDR job.")
  | some kind =>
      match record.argument with
      | .missing => .error (jobNotFound s!"Job {job} has no session_id argument.")
      | .malformed => .error (jobNotFound s!"Job {job} has a malformed session_id.")
      | .session session => .ok (kind, session)

def projectRqJobOut (now : Timestamp) (job : JobId) (record : RqRecord) (kind : JobKind)
    (session : Uuid) : Except Progress.TypeError JobOut :=
  (Progress.projectProgressMeta record.jobMeta).map fun progress =>
    { id := job
      kind := kind
      sessionId := session
      status := (record.status.map RqStatus.toJobStatus).getD .failed
      failureReason := failureReasonFromJob record
      queuedAt := record.createdAt.getD now
      startedAt := record.startedAt
      endedAt := record.endedAt
      phase := progress.1
      progressPercent := progress.2 }

end JobProjection

end Kaeyris
