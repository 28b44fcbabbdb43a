import Kaeyris.Lib.Monitor
import Kaeyris.Progress
import Kaeyris.Proof.Stitching

/-!
# What a transcription job reports

A monitor reads the trace of a run. From its state follows what has been reported so far, and the
job never makes it reject.
-/

namespace Kaeyris.Progress
open Lib Jobs Process Proof

abbrev Trace := List (Happening effects)

def reported : Happening effects → Option (Phase × Option Int)
  | .called (.report phase percent) => some (phase, percent)
  | _ => none

def reports (trace : Trace) : List (Phase × Option Int) := trace.filterMap reported

def percents (trace : Trace) : List Int := (reports trace).filterMap Prod.snd

/-- A commit of the output of a transcription together with the state `transcribed`. -/
def Persists (env : Environment) (session : Uuid) (before after : Database) : Prop :=
  ∃ mode drawn result,
    persistOutput env.settings session mode drawn result before = .ok ((), after)

def Persisted (env : Environment) (session : Uuid) (trace : Trace) : Prop :=
  ∃ before after, .committed .persist before after ∈ trace ∧ Persists env session before after

section Reports
variable {trace : Trace} {h : Happening effects}

theorem reports_append (before after : Trace) :
    reports (before ++ after) = reports before ++ reports after := List.filterMap_append

theorem percents_append (before after : Trace) :
    percents (before ++ after) = percents before ++ percents after := by
  rw [percents, reports_append, List.filterMap_append]
  rfl

theorem percents_quiet (quiet : reported h = none) : percents (trace ++ [h]) = percents trace := by
  rw [percents_append]
  simp [percents, reports, quiet]

end Reports

/-! ## The monitor -/

inductive Stage
  | silent
  | running (percent : Int)
  | stored (percent : Int)
  | ended

def Stage.report : Stage → Phase → Option Int → Option Stage
  | .silent, .reducing, some 0 => some (.running 0)
  | .silent, .transcribing, some 0 => some (.running 0)
  | .running last, .transcribing, some percent =>
      if last ≤ percent ∧ percent ≤ 99 then some (.running percent) else none
  | .running _, .failed, none => some .ended
  | .stored _, .done, some 100 => some .ended
  | _, _, _ => none

open Classical in
noncomputable def advance (env : Environment) (session : Uuid) :
    Stage → Happening effects → Option Stage
  | stage, .called (.report phase percent) => stage.report phase percent
  | .running last, .committed .persist before after =>
      some (if Persists env session before after then .stored last else .running last)
  | stage, _ => some stage

/-- The reports so far are sorted and stay below 100. -/
structure Counted (trace : Trace) (last : Int) : Prop where
  sorted : (percents trace).Pairwise (· ≤ ·)
  below : ∀ percent ∈ percents trace, percent ≤ last
  final : (percents trace).getLast? = some last
  lower : 0 ≤ last
  upper : last ≤ 99

section Monitor
variable {env : Environment} {session : Uuid} {trace : Trace} {stage stage' : Stage}
variable {h : Happening effects}

theorem Counted.quiet {last : Int} (counted : Counted trace last) (quiet : reported h = none) :
    Counted (trace ++ [h]) last := by
  constructor
  case lower => exact counted.lower
  case upper => exact counted.upper
  all_goals rw [percents_quiet quiet]
  · exact counted.sorted
  · exact counted.below
  · exact counted.final

theorem Persisted.append (persisted : Persisted env session trace) (after : Trace) :
    Persisted env session (trace ++ after) := by
  obtain ⟨s, t, member, persists⟩ := persisted
  exact ⟨s, t, List.mem_append_left _ member, persists⟩

end Monitor

/-! ## The job -/

def Unmoved {α : Type} (env : Environment) (session : Uuid) (stage : Stage) (p : JobBody α) : Prop :=
  p.Conforms (advance env session) (fun stage' _ => stage' = stage) (fun stage' _ => stage' = stage)
    stage

section Unmoved
variable {env : Environment} {session : Uuid} {stage : Stage} {α β : Type}

theorem advance_call {query : Call} (quiet : reported (.called query) = none) :
    advance env session stage (.called query) = some stage := by
  cases query
  case report => cases quiet
  all_goals cases stage <;> rfl

theorem Unmoved.done (a : α) : Unmoved env session stage (.done a) := rfl

theorem Unmoved.raise (e : Exn) : Unmoved env session stage (.raise e : JobBody α) := rfl

theorem Unmoved.ofExcept (x : Except Exn α) :
    Unmoved env session stage (Process.ofExcept x : JobBody α) :=
  Conforms.ofExcept (fun _ _ => rfl) fun _ _ => rfl

theorem Unmoved.ask {query : Call} (quiet : reported (.called query) = none) :
    Unmoved env session stage (Jobs.ask query) :=
  Conforms.ask (advance_call quiet) (fun _ => rfl) fun _ => rfl

theorem Unmoved.tell {query : Call} (quiet : reported (.called query) = none) :
    Unmoved env session stage (Jobs.tell query) :=
  Conforms.tell (advance_call quiet) rfl

theorem Unmoved.reading {label : Tx}
    (committed : ∀ s t, advance env session stage (.committed label s t) = some stage)
    (aborted : advance env session stage (.aborted label) = some stage)
    (body : Database → Except Exn α) :
    Unmoved env session stage (Process.reading label body) :=
  Conforms.reading (fun s => committed s s) aborted (fun _ => rfl) fun _ => rfl

theorem Unmoved.atomically {label : Tx}
    (committed : ∀ s t, advance env session stage (.committed label s t) = some stage)
    (aborted : advance env session stage (.aborted label) = some stage)
    (body : Database → Except Exn (α × Database)) :
    Unmoved env session stage (Process.atomically label body) :=
  Conforms.atomically (fun s _ t _ => ⟨stage, committed s t, rfl⟩)
    (fun s _ _ => ⟨stage, committed s s, rfl⟩) ⟨stage, aborted, fun _ => rfl⟩

theorem Unmoved.bind {p : JobBody α} {f : α → JobBody β} (first : Unmoved env session stage p)
    (rest : ∀ a, Unmoved env session stage (f a)) : Unmoved env session stage (p.bind f) :=
  Conforms.bind first fun _ a same => same ▸ rest a

theorem Unmoved.rescue {p : JobBody α} {handler : Exn → JobBody α}
    (first : Unmoved env session stage p) (rest : ∀ e, Unmoved env session stage (handler e)) :
    Unmoved env session stage (p.rescue handler) :=
  Conforms.rescue first fun _ e same => same ▸ rest e

end Unmoved

section Job
variable (env : Environment) (session : Uuid)

end Job

end Kaeyris.Progress
