import Kaeyris.Jobs.Effects
import Kaeyris.Lib.Rounding

/-!
# The progress of a transcription job

The worker writes a phase and a percent into the metadata of the RQ job, and `GET /jobs/{id}` shows
of it what is well formed.
-/

namespace Kaeyris.Progress
open Lib Jobs

/-- A Python value in the metadata. Lists and dicts have no hash, which a test for membership in a
`frozenset` needs. -/
inductive MetaValue
  | str (value : Text)
  | int (value : Int)
  | bool (value : Bool)
  | unhashable
  | other
  deriving DecidableEq

structure JobMeta where
  phase : Option MetaValue
  progressPercent : Option MetaValue
  deriving DecidableEq

def phaseName : Phase → Text
  | .reducing => "reducing".toList
  | .transcribing => "transcribing".toList
  | .done => "done".toList
  | .failed => "failed".toList

def validJobPhases : List Phase := [.reducing, .transcribing, .done, .failed]

/-- `_ProgressReporter.__call__`; the entries stay in the worker also when they cannot be saved. -/
def report (jobMeta : JobMeta) (phase : Phase) (progressPercent : Option Int) : JobMeta where
  phase := some (.str (phaseName phase))
  progressPercent :=
    match progressPercent with
    | none => jobMeta.progressPercent
    | some percent => some (.int percent)

inductive TypeError | unhashable
  deriving DecidableEq

def projectPhase : Option MetaValue → Except TypeError (Option Phase)
  | some (.str value) => .ok (validJobPhases.find? fun phase => phaseName phase = value)
  | some .unhashable => .error .unhashable
  | _ => .ok none

def projectPercent : Option MetaValue → Option Int
  | some (.int value) => if 0 ≤ value ∧ value ≤ 100 then some value else none
  | _ => none

def projectProgressMeta (jobMeta : JobMeta) : Except TypeError (Option Phase × Option Int) :=
  (projectPhase jobMeta.phase).map fun phase => (phase, projectPercent jobMeta.progressPercent)

end Kaeyris.Progress
