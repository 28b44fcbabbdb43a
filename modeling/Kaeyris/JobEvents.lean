import Kaeyris.Lib.EventStream
import Kaeyris.Lib.Json.Compact
import Kaeyris.Progress
import Kaeyris.Queue

/-!
# The events of a job

`_job_event_stream` of the router: a frame for what each poll of the job finds, until it is over.
-/

namespace Kaeyris.JobEvents
open Lib Jobs

def statusValue : JobStatus → Text
  | .queued => "queued".toList
  | .running => "running".toList
  | .succeeded => "succeeded".toList
  | .failed => "failed".toList

structure JobOut where
  id : JobId
  kind : JobKind
  sessionId : Uuid
  status : JobStatus
  failureReason : Option Text
  queuedAt : Timestamp
  startedAt : Option Timestamp
  endedAt : Option Timestamp
  phase : Option Phase
  progressPercent : Option Int
  deriving DecidableEq

inductive Poll
  | found (jobOut : JobOut)
  | vanished (now : Timestamp)
  deriving DecidableEq

def jobNoLongerAvailableReason : Text := "Job is no longer available.".toList

def jobNoLongerAvailableOut (initialJobOut : JobOut) (now : Timestamp) : JobOut :=
  { initialJobOut with
    status := .failed
    failureReason := some jobNoLongerAvailableReason
    endedAt := some now }

/-- `if job_out.failure_reason` is false also for the empty string. -/
def shownReason (jobOut : JobOut) : Option Text :=
  if jobOut.status = .failed then jobOut.failureReason.filter (· ≠ []) else none

def jobEventPayload (jobOut : JobOut) : Json.Value :=
  .object <|
    [("status".toList, .string (statusValue jobOut.status)),
      ("phase".toList, (jobOut.phase.map fun phase => .string (Progress.phaseName phase)).getD .null),
      ("progress_percent".toList, (jobOut.progressPercent.map Json.ofInt).getD .null)] ++
    ((shownReason jobOut).map fun reason => ("failure_reason".toList, .string reason)).toList

def frameStart : Text := "event: progress\ndata: ".toList

def frameEnd : Text := "\n\n".toList

def formatJobSseFrame (payload : Json.Value) : Text := frameStart ++ payload.compact ++ frameEnd

/-- What the generator has yielded so far, and whether it has returned. -/
structure Stream where
  frames : List Text
  ended : Bool
  deriving DecidableEq

/-- The loop of `_job_event_stream`, at its beginning. When the polls are used up it sleeps. -/
def streamFrom (initialJobOut jobOut : JobOut) : List Poll → Stream
  | [] => ⟨[formatJobSseFrame (jobEventPayload jobOut)], jobOut.status.terminal⟩
  | poll :: polls =>
      let frame := formatJobSseFrame (jobEventPayload jobOut)
      if jobOut.status.terminal then ⟨[frame], true⟩
      else
        match poll with
        | .found next =>
            let later := streamFrom initialJobOut next polls
            ⟨frame :: later.frames, later.ended⟩
        | .vanished now =>
            let lost := jobNoLongerAvailableOut initialJobOut now
            ⟨[frame, formatJobSseFrame (jobEventPayload lost)], true⟩

def jobEventStream (initialJobOut : JobOut) (polls : List Poll) : Stream :=
  streamFrom initialJobOut initialJobOut polls

end Kaeyris.JobEvents
