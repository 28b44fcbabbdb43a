import Kaeyris.JobEvents

/-!
# The events of a job

A client that decodes the stream gets the payloads of what was seen of the job, up to the first one
after which nothing changes any more.
-/

namespace Kaeyris.JobEvents
open Lib

/-! ## Frames -/

def eventName : Text := "progress".toList

def readEvent (event : EventStream.Event) : Option Json.Value :=
  if event.eventType = eventName then Json.loads event.data else none

/-- The payloads that a client reads in a stream; it fails at an event of another type. -/
def decoded (text : Text) : Option (List Json.Value) := (EventStream.decode text).mapM readEvent

theorem frameStart_eq :
    frameStart = EventStream.eventMark ++ eventName ++ '\n' :: EventStream.dataMark := rfl

theorem frameEnd_eq : frameEnd = ['\n', '\n'] := rfl

theorem formatJobSseFrame_eq (payload : Json.Value) :
    formatJobSseFrame payload = EventStream.frame eventName payload.compact := by
  simp [formatJobSseFrame, EventStream.frame, frameStart_eq, frameEnd_eq]

theorem oneLine_of_printable {s : Text} (printable : Json.Printable s) : EventStream.OneLine s := by
  constructor <;> intro member
  · exact absurd (printable _ member) (by decide)
  · exact absurd (printable _ member) (by decide)

theorem decode_payloads (payloads : List Json.Value) :
    EventStream.decode (payloads.map formatJobSseFrame).flatten =
      payloads.map fun payload => ⟨eventName, payload.compact, []⟩ := by
  have shape : (payloads.map formatJobSseFrame).flatten =
      (payloads.map Json.compact).flatMap (EventStream.frame eventName) := by
    have same : formatJobSseFrame = EventStream.frame eventName ∘ Json.compact :=
      funext formatJobSseFrame_eq
    rw [same, List.flatMap_def, List.map_map]
  have one : ∀ s ∈ payloads.map Json.compact, EventStream.OneLine s := by
    intro s member
    obtain ⟨payload, -, rfl⟩ := List.mem_map.mp member
    exact oneLine_of_printable (Json.printable_compact payload)
  rw [shape, EventStream.decode_frames (by decide) (by decide) one]
  simp

theorem decoded_payloads (payloads : List Json.Value) :
    decoded (payloads.map formatJobSseFrame).flatten = some payloads := by
  rw [decoded, decode_payloads]
  induction payloads with
  | nil => rfl
  | cons payload payloads ih =>
      rw [List.map_cons, List.mapM_cons, ih, readEvent, if_pos rfl, Json.loads_compact]
      rfl

/-! ## The loop -/

def Poll.jobOut (initialJobOut : JobOut) : Poll → JobOut
  | .found jobOut => jobOut
  | .vanished now => jobNoLongerAvailableOut initialJobOut now

def seen (initialJobOut : JobOut) (polls : List Poll) : List JobOut :=
  initialJobOut :: polls.map (Poll.jobOut initialJobOut)

def upToTerminal : List JobOut → List JobOut
  | [] => []
  | jobOut :: later => if jobOut.status.terminal then [jobOut] else jobOut :: upToTerminal later

theorem lost_terminal (initialJobOut : JobOut) (now : Timestamp) :
    (jobNoLongerAvailableOut initialJobOut now).status.terminal := rfl

theorem streamFrom_eq (initialJobOut jobOut : JobOut) (polls : List Poll) :
    streamFrom initialJobOut jobOut polls =
      ⟨((upToTerminal (jobOut :: polls.map (Poll.jobOut initialJobOut))).map
          jobEventPayload).map formatJobSseFrame,
        (jobOut :: polls.map (Poll.jobOut initialJobOut)).any fun seen => seen.status.terminal⟩ := by
  induction polls generalizing jobOut with
  | nil => simp [streamFrom, upToTerminal]
  | cons poll polls ih =>
      by_cases finished : jobOut.status.terminal
      · simp [streamFrom, upToTerminal, finished]
      · cases poll with
        | found next => simp [streamFrom, upToTerminal, finished, ih, Poll.jobOut]
        | vanished now => simp [streamFrom, upToTerminal, finished, Poll.jobOut, lost_terminal]

theorem stream_eq (initialJobOut : JobOut) (polls : List Poll) :
    jobEventStream initialJobOut polls =
      ⟨((upToTerminal (seen initialJobOut polls)).map jobEventPayload).map formatJobSseFrame,
        (seen initialJobOut polls).any fun jobOut => jobOut.status.terminal⟩ :=
  streamFrom_eq initialJobOut initialJobOut polls

theorem decoded_stream (initialJobOut : JobOut) (polls : List Poll) :
    decoded (jobEventStream initialJobOut polls).frames.flatten =
      some ((upToTerminal (seen initialJobOut polls)).map jobEventPayload) := by
  rw [stream_eq]
  exact decoded_payloads _

theorem ended_iff (initialJobOut : JobOut) (polls : List Poll) :
    (jobEventStream initialJobOut polls).ended ↔
      ∃ jobOut ∈ seen initialJobOut polls, jobOut.status.terminal := by
  rw [stream_eq]
  exact List.any_eq_true

/-! ## Terminal payloads -/

def statusOf : Json.Value → Option Json.Value
  | .object fields => Json.field fields "status".toList
  | _ => none

def TerminalPayload (payload : Json.Value) : Prop :=
  statusOf payload = some (.string (statusValue .succeeded)) ∨
    statusOf payload = some (.string (statusValue .failed))

theorem keys_distinct_three :
    ["status".toList, "phase".toList, "progress_percent".toList].Nodup := by decide

theorem keys_distinct_four : ["status".toList, "phase".toList, "progress_percent".toList,
    "failure_reason".toList].Nodup := by decide

theorem statusOf_payload (jobOut : JobOut) :
    statusOf (jobEventPayload jobOut) = some (.string (statusValue jobOut.status)) := by
  rw [jobEventPayload, statusOf, Json.field_of_nodup]
  · rfl
  · cases shownReason jobOut with
    | none => exact keys_distinct_three
    | some reason => exact keys_distinct_four

theorem statusValue_inj {a b : JobStatus} : statusValue a = statusValue b ↔ a = b := by
  cases a <;> cases b <;> decide

theorem terminalPayload_iff (jobOut : JobOut) :
    TerminalPayload (jobEventPayload jobOut) ↔ jobOut.status.terminal := by
  simp only [TerminalPayload, statusOf_payload, Option.some.injEq, Json.string.injEq,
    statusValue_inj]
  cases jobOut.status <;> decide

/-! ## The end of a stream -/

theorem upToTerminal_of_terminal {jobOuts : List JobOut}
    (finished : ∃ jobOut ∈ jobOuts, jobOut.status.terminal) :
    ∃ before last, upToTerminal jobOuts = before ++ [last] ∧ last.status.terminal ∧
      ∀ jobOut ∈ before, ¬jobOut.status.terminal := by
  induction jobOuts with
  | nil => simp at finished
  | cons jobOut later ih =>
      by_cases here : jobOut.status.terminal
      · exact ⟨[], jobOut, by simp [upToTerminal, here], here, by simp⟩
      · have further : ∃ next ∈ later, next.status.terminal := by simpa [here] using finished
        obtain ⟨before, last, split, terminal, running⟩ := ih further
        refine ⟨jobOut :: before, last, ?_, terminal, ?_⟩
        · simp [upToTerminal, here, split]
        · simpa [here] using running

theorem upToTerminal_append (jobOuts later : List JobOut) :
    upToTerminal (jobOuts ++ later) =
      if jobOuts.any fun jobOut => jobOut.status.terminal then upToTerminal jobOuts
      else jobOuts ++ upToTerminal later := by
  induction jobOuts with
  | nil => simp
  | cons jobOut jobOuts ih =>
      by_cases here : jobOut.status.terminal
      · simp [upToTerminal, here]
      · simp only [List.cons_append, upToTerminal, here, ih, List.any_cons, Bool.false_or,
          Bool.false_eq_true, if_false]
        split <;> rfl

theorem upToTerminal_running {running : List JobOut} {last : JobOut}
    (notFinished : ∀ jobOut ∈ running, ¬jobOut.status.terminal) (finished : last.status.terminal)
    (later : List JobOut) : upToTerminal (running ++ last :: later) = running ++ [last] := by
  have none : (running.any fun jobOut => jobOut.status.terminal) = false := by
    simpa using notFinished
  simp [upToTerminal_append, none, upToTerminal, finished]

theorem stream_extends (initialJobOut : JobOut) (polls more : List Poll) :
    (jobEventStream initialJobOut polls).frames <+:
        (jobEventStream initialJobOut (polls ++ more)).frames ∧
      ((jobEventStream initialJobOut polls).ended →
        jobEventStream initialJobOut (polls ++ more) = jobEventStream initialJobOut polls) := by
  have longer : seen initialJobOut (polls ++ more) =
      seen initialJobOut polls ++ more.map (Poll.jobOut initialJobOut) := by
    simp [seen]
  rw [stream_eq, stream_eq, longer, upToTerminal_append, List.any_append]
  by_cases finished : (seen initialJobOut polls).any fun jobOut => jobOut.status.terminal
  · simp [finished]
  · have whole := upToTerminal_append (seen initialJobOut polls) []
    simp only [List.append_nil, finished, Bool.false_eq_true, if_false, upToTerminal] at whole
    simp [finished, whole]

theorem seen_vanished (initialJobOut : JobOut) (found : List JobOut) (now : Timestamp)
    (later : List Poll) :
    seen initialJobOut (found.map Poll.found ++ .vanished now :: later) =
      (initialJobOut :: found) ++ jobNoLongerAvailableOut initialJobOut now ::
        later.map (Poll.jobOut initialJobOut) := by
  simp [seen, Poll.jobOut, Function.comp_def]

theorem event_stream_faithful (initialJobOut : JobOut) (polls : List Poll) :
    decoded (jobEventStream initialJobOut polls).frames.flatten =
        some ((upToTerminal (seen initialJobOut polls)).map jobEventPayload) ∧
      ((jobEventStream initialJobOut polls).ended ↔
        ∃ jobOut ∈ seen initialJobOut polls, jobOut.status.terminal) ∧
      ((jobEventStream initialJobOut polls).ended → ∃ before last,
        decoded (jobEventStream initialJobOut polls).frames.flatten = some (before ++ [last]) ∧
          TerminalPayload last ∧ ∀ payload ∈ before, ¬TerminalPayload payload) ∧
      ∀ found now later, polls = found.map Poll.found ++ .vanished now :: later →
        (∀ jobOut ∈ initialJobOut :: found, ¬jobOut.status.terminal) →
          (jobEventStream initialJobOut polls).ended ∧ ∃ last,
            decoded (jobEventStream initialJobOut polls).frames.flatten =
                some ((initialJobOut :: found).map jobEventPayload ++ [last]) ∧
              statusOf last = some (.string (statusValue .failed)) := by
  have text := decoded_stream initialJobOut polls
  have ended := ended_iff initialJobOut polls
  refine ⟨text, ended, ?_, ?_⟩
  · intro finished
    obtain ⟨before, last, split, terminal, running⟩ := upToTerminal_of_terminal (ended.mp finished)
    refine ⟨before.map jobEventPayload, jobEventPayload last, ?_, ?_, ?_⟩
    · rw [text, split, List.map_append]
      rfl
    · exact (terminalPayload_iff last).mpr terminal
    · intro payload member
      obtain ⟨jobOut, earlier, rfl⟩ := List.mem_map.mp member
      rw [terminalPayload_iff]
      exact running jobOut earlier
  · intro found now later shape running
    have last := lost_terminal initialJobOut now
    rw [shape, seen_vanished] at text ended
    rw [upToTerminal_running running last, List.map_append] at text
    rw [shape]
    refine ⟨ended.mpr ⟨_, by simp, last⟩, _, text, ?_⟩
    exact statusOf_payload _

end Kaeyris.JobEvents
