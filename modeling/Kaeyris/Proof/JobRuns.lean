import Kaeyris.Jobs.Artifacts
import Kaeyris.Jobs.Transcription

/-!
# Running the parts of a job
-/

namespace Kaeyris.Proof
open Lib Jobs Process

theorem silent_loadSessionModelSettings (session : Uuid) :
    (loadSessionModelSettings session).Silent := by
  apply Silent.bind
  · exact Silent.reading _ _
  · intro owner
    cases owner with
    | none => exact Silent.done _
    | some user => exact Silent.reading _ _

theorem emits_loadSessionModelSettings {allowed : Event effects → Prop} (session : Uuid)
    (committed : ∀ label, allowed (.committed label)) (aborted : ∀ label, allowed (.aborted label)) :
    (loadSessionModelSettings session).Emits allowed := by
  apply Emits.bind
  · exact Emits.reading (committed _) (aborted _) _
  · intro owner
    cases owner with
    | none => exact Emits.done _
    | some user => exact Emits.reading (committed _) (aborted _) _

theorem silent_buildLlmAdapterForUser (settings : Settings) (row : Option ModelSettings) :
    (buildLlmAdapterForUser settings row).Silent := by
  apply Silent.bind
  · exact Silent.ofExcept _
  · exact fun choice => Silent.ask _

/-- The exception under which a failure of the adapter leaves the job. -/
def llmExn : Exn → Exn
  | .transientLLM detail => .transientJob detail
  | .permanentLLM detail => .permanentJob detail
  | other => other

theorem llmFailed_eq (e : Exn) : llmFailed e = .raise (llmExn e) := by
  cases e <;> rfl

def completion (env : Environment) (r : Reaction effects) (adapter : LlmAdapter) (ordinal : Nat)
    (system : SystemPrompt) (user : Text) : Except Exn Text :=
  r.answer (.complete adapter ordinal system user env.settings.llmMaxTokensDefault)

theorem silent_complete (env : Environment) (adapter : LlmAdapter) (ordinal : Nat)
    (system : SystemPrompt) (user : Text) : (complete env adapter ordinal system user).Silent := by
  apply Silent.rescue
  · exact Silent.ask _
  · intro e
    rw [llmFailed_eq]
    exact Silent.raise _

theorem result_complete (env : Environment) (r : Reaction effects) (adapter : LlmAdapter)
    (ordinal : Nat) (system : SystemPrompt) (user : Text) (db : Database) :
    ((complete env adapter ordinal system user).run r db).result =
      (completion env r adapter ordinal system user).mapError llmExn := by
  unfold complete completion
  rw [tryCatch_eq, run_rescue, run_ask]
  cases r.answer (.complete adapter ordinal system user env.settings.llmMaxTokensDefault) with
  | ok reply => rfl
  | error e =>
      rw [Outcome.orElse_error, llmFailed_eq]
      rfl

def sampleEnvironment : Environment where
  settings := Settings.default
  parseElements := fun _ => .ok (.elements [])
  formatSeconds := fun _ => []
  percentOf := fun done total => (100 * done / total : Nat)
  sha256 := fun _ => []

/-- Nothing fails; the language model repeats what it is given. -/
def obliging : Reaction effects where
  fails := fun _ => none
  answer
    | .pathExists _ => .ok true
    | .prepareAudio _ target => .ok ⟨target, [], 0⟩
    | .cleanupTransientAudioDir _ => .ok ()
    | .buildTranscriptionAdapter _ => .ok ()
    | .buildLlmAdapter _ => .ok ⟨none, none⟩
    | .chunkedAudio _ _ => .ok []
    | .transcribe _ _ _ _ => .ok ⟨[], [], [], []⟩
    | .complete _ _ _ user _ => .ok user
    | .report _ _ => .ok ()
    | .chunkId => .ok 0

end Kaeyris.Proof
