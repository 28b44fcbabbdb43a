import Kaeyris.LocalPaths
import Kaeyris.Proof.LocalModels

/-!
# The path that was probed is the path that is opened

The proof of a Local path is made for what `normalize_model_path` makes of it, but the path is
stored, and passed to a worker, as the patch spells it. The two are one file when the spelling names
it from everywhere.
-/

namespace Kaeyris.Proof
open Lib LocalModels Jobs

/-- Whenever a job builds a local adapter, the path it passes leads a worker, whatever its working
and home directories, to the `model_path` of the user's proof. -/
def OpensWhatWasProbed (host : Host) (s : History) : Prop :=
  ∀ settings user category path,
    adapterPath settings (s.store.modelSettings.get? user) category = some path →
      ∃ hash proof, (setting s.store user category).2.2 = some hash ∧
        s.store.validations.get? hash = some proof ∧ proof.userId = user ∧
        proof.category = category ∧ proof.status = .succeeded ∧
        ∀ worker, ∃ file, opened host.fs worker path = some file ∧
          SameUnderHash host.sha256 proof.modelPath file

section Spelling
variable {fs : FileSystem} {process worker : Surroundings} {path : Text}

theorem expanduser_absolute (absolute : Path.isAbsolute path = true) :
    (PosixPath.ofText path).expanduser process = some (PosixPath.ofText path) := by
  simp [PosixPath.expanduser, PosixPath.ofText, absolute]

theorem opened_absolute (absolute : Path.isAbsolute path = true) :
    opened fs worker path = opened fs process path := by
  simp [opened, absolute]

theorem resolved_of_opened (absolute : Path.isAbsolute path = true) {file : Text}
    (found : opened fs worker path = some file) : resolved fs process path = some file := by
  unfold opened at found
  unfold resolved
  split at found
  · cases found
  · rename_i text
    rw [if_neg text]
    obtain ⟨place, walked, rfl⟩ := Option.map_eq_some_iff.mp found
    have normalised : (PosixPath.ofText path).resolve fs process = some place := by
      simp only [PosixPath.resolve, PosixPath.ofText, absolute, if_true]
      rw [FileSystem.walk_proper]
      exact FileSystem.walk_lenient fs.depth walked
    rw [expanduser_absolute absolute, Option.bind_eq_bind, Option.bind_some, normalised]
    rfl

theorem opened_of_portable (portable : Portable fs path) {normalized : Text}
    (probed : resolved fs process (Text.strip path) = some normalized) (worker : Surroundings) :
    opened fs worker path = some normalized := by
  obtain ⟨absolute, trimmed, somewhere, exists_⟩ := portable
  obtain ⟨file, found⟩ := Option.isSome_iff_exists.mp exists_
  rw [trimmed, resolved_of_opened absolute found] at probed
  rw [opened_absolute absolute, found, probed]

theorem opened_removed (relative : Path.isAbsolute path = false)
    (removed : fs.isDirectory process.cwd = false) : opened fs process path = none := by
  unfold opened
  split
  · rfl
  · rw [if_neg (by simp [relative]), Option.map_eq_none_iff]
    have parts : Path.segments path ≠ [] := List.splitOn_ne_nil _ _
    obtain ⟨first, rest, split⟩ := List.exists_cons_of_ne_nil parts
    rw [split]
    cases fs.depth with
    | zero => simp [FileSystem.walk, List.foldlM_cons, FileSystem.enter, removed]
    | succ depth => simp [FileSystem.walk, List.foldlM_cons, FileSystem.enter, removed]

end Spelling

section Requests
variable {host : Host} {s : History}

structure PortableSettings (host : Host) (s : History) : Prop where
  backed : BackedSettings host.outside s
  portable : ∀ user category path, (setting s.store user category).1 = some .localModel →
    (setting s.store user category).2.1 = some path → Portable host.fs path

theorem orElse_of_present {value : Option Text} (given : Text.present value = true) :
    value = some (Text.orElse value []) := by
  unfold Text.present at given
  split at given
  · rfl
  · cases given

theorem llmChoice_local {settings : Settings} {row : ModelSettings} {path : Text}
    (chosen : llmChoiceForUser settings (some row) = .ok (.localModel path)) :
    row.summaryProvider = some .localModel ∧ row.summaryLocalPath = some path := by
  simp only [llmChoiceForUser] at chosen
  split at chosen
  · cases chosen
  · cases chosen
  · split at chosen <;> cases chosen
  · rename_i isLocal
    split at chosen
    · rename_i given
      cases chosen
      simp only [Bool.and_eq_true] at given
      exact ⟨isLocal, orElse_of_present given.1⟩
    · cases chosen

theorem transcriptionChoice_local {settings : Settings} {row : ModelSettings} {path : Text}
    (chosen : transcriptionChoiceForUser settings (some row) = .ok (.localModel path)) :
    row.transcriptionProvider = some .localModel ∧ row.transcriptionLocalPath = some path := by
  simp only [transcriptionChoiceForUser] at chosen
  split at chosen
  · cases chosen
  · split at chosen <;> cases chosen
  · rename_i isLocal
    split at chosen
    · rename_i given
      cases chosen
      simp only [Bool.and_eq_true] at given
      exact ⟨isLocal, orElse_of_present given.1⟩
    · cases chosen
  · cases chosen

theorem adapterPath_local {settings : Settings} {row : Option ModelSettings}
    {category : LocalModelCategory} {path : Text}
    (built : adapterPath settings row category = some path) :
    ∃ stored, row = some stored ∧ stored.provider category = some .localModel ∧
      stored.localPath category = some path := by
  cases row with
  | none => cases category <;> cases built
  | some stored =>
      refine ⟨stored, rfl, ?_⟩
      cases category with
      | transcription =>
          simp only [adapterPath] at built
          split at built
          · rename_i chosen
            cases built
            exact transcriptionChoice_local chosen
          · cases built
      | summary =>
          simp only [adapterPath] at built
          split at built
          · rename_i chosen
            cases built
            exact llmChoice_local chosen
          · cases built

theorem opens_of_portable (sound : PortableSettings host s) : OpensWhatWasProbed host s := by
  intro settings user category path built
  obtain ⟨row, found, isLocal, stored⟩ := adapterPath_local built
  have current : setting s.store user category =
      (some .localModel, some path, row.localValidationHash category) := by
    simp [setting, found, isLocal, stored]
  obtain ⟨path', hash, kept, proves⟩ :=
    sound.backed.settings user category (congrArg Prod.fst current)
  obtain ⟨rfl, hashed⟩ : path = path' ∧ row.localValidationHash category = some hash := by
    rw [current] at kept
    simpa using kept
  obtain ⟨-, proof, present, own, covers, succeeded, -, normalized, probed, same⟩ := proves
  refine ⟨hash, proof, by rw [current]; exact hashed, present, own, covers, succeeded,
    fun worker => ⟨normalized, ?_, same⟩⟩
  have portable := sound.portable user category path (by rw [current]) (by rw [current])
  exact opened_of_portable portable probed worker

theorem not_opens_of_missing {settings : Settings} {user : Uuid} {category : LocalModelCategory}
    {path : Text} (worker : Surroundings)
    (built : adapterPath settings (s.store.modelSettings.get? user) category = some path)
    (missing : opened host.fs worker path = none) : ¬OpensWhatWasProbed host s := by
  intro opens
  obtain ⟨_, _, -, -, -, -, -, leads⟩ := opens settings user category path built
  obtain ⟨file, found, -⟩ := leads worker
  rw [missing] at found
  cases found

/-- A job that is passed a relative path (one with a leading `~` or space is one) does not depend on
the proof alone. -/
theorem not_opens_of_relative {settings : Settings} {user : Uuid} {category : LocalModelCategory}
    {path : Text} (cwd : Place)
    (built : adapterPath settings (s.store.modelSettings.get? user) category = some path)
    (relative : Path.isAbsolute path = false) (removed : host.fs.isDirectory cwd = false) :
    ¬OpensWhatWasProbed host s :=
  not_opens_of_missing ⟨cwd, fun _ => none⟩ built (opened_removed relative removed)

theorem validated_of_proves (hashed : ∀ proof ∈ s.store.validations.rows,
      proof.pathHash = host.sha256 proof.modelPath) {user : Uuid} {category : LocalModelCategory}
    {path hash : Text} {now : Timestamp}
    (proves : Proves host.outside s.store user category path hash now) :
    Validated host s.store user category path := by
  obtain ⟨-, proof, present, own, covers, -, -, normalized, probed, same⟩ := proves
  have member := Table.mem_of_get? present
  refine ⟨proof, member, own, covers, ?_⟩
  have at_ : resolved host.fs host.api (Text.strip path) = some normalized := probed
  rw [at_, Option.map_some, hashed proof member]
  exact congrArg some (sameUnderHash_iff.mp same).symm

theorem portable_step (sound : PortableSettings host s) (label : LocalModels.Label)
    (spells : SpellsPortably host s label) :
    PortableSettings host (s.step host.outside label) := by
  refine ⟨backedSettings_step sound.backed label, ?_⟩
  cases label with
  | patch user payload now =>
      simp only [History.step]
      split
      · exact sound.portable
      · rename_i store patched
        intro other category path isLocal stored
        by_cases own : other = user
        · subst own
          obtain ⟨hash, required, after⟩ := setting_patch patched category
          rw [after] at isLocal stored
          rcases upsert_local sound.backed.hashed required isLocal with
            unchanged | ⟨given, proof, kept, proves⟩
          · refine sound.portable other category path ?_ ?_
            · rw [← unchanged]
              exact isLocal
            · rw [← unchanged]
              exact stored
          · obtain rfl : given = path := by
              have first := congrArg Prod.fst kept
              exact Option.some.inj (first.symm.trans stored)
            exact spells (by rw [patched]; rfl) category given isLocal stored
              (validated_of_proves sound.backed.hashed proves)
        · rw [setting_elsewhere patched own category] at isLocal stored
          exact sound.portable other category path isLocal stored
  | validate user request probe validationId now =>
      simp only [History.step]
      split
      · exact sound.portable
      · rename_i store validated
        obtain ⟨settings, -⟩ := validate_ok validated
        intro other category path isLocal stored
        have same : setting store other category = setting s.store other category := by
          rw [setting, settings]
          rfl
        dsimp only at isLocal stored
        rw [same] at isLocal stored
        exact sound.portable other category path isLocal stored

end Requests

/-- In a run whose patches spell the paths of Local settings portably. -/
theorem path_executed_is_path_probed (host : Host) (run : List LocalModels.Label)
    (spells : Along (History.step host.outside) (SpellsPortably host) .initial run) :
    Visits (History.step host.outside) (OpensWhatWasProbed host) .initial run := by
  have start : PortableSettings host .initial := by
    refine ⟨⟨fun user category isLocal => ?_, fun proof member => ?_⟩,
      fun user category path isLocal _ => ?_⟩
    · cases category <;> cases isLocal
    · cases member
    · cases category <;> cases isLocal
  have along : Visits (History.step host.outside) (PortableSettings host) .initial run :=
    Visits.of_invariant (fun _ label sound spells => portable_step sound label spells) start spells
  exact along.weaken fun _ sound => opens_of_portable sound

def homeWithModel : Host where
  fs :=
    { entry := fun place =>
        if place = ["root".toList] then some .directory
        else if place = ["root".toList, "m.gguf".toList] then some .file
        else none
      depth := 0 }
  api := ⟨[], fun name => if name = [] then some "/root".toList else none⟩
  sha256 := id
  keyAccepted := fun _ _ _ => true
  validationTtlSeconds := 600

def saveLocal (path : String) : List LocalModels.Label :=
  [.validate 1 ⟨.summary, path.toList⟩ (.ok ⟨"llama-cpp-python".toList, "gguf".toList, []⟩)
      "token".toList 5,
    .patch 1
      { transcriptionProvider := none
        summaryProvider := some (some .localModel)
        transcriptionLocalPath := none
        summaryLocalPath := some (some path.toList)
        transcriptionLocalValidationId := none
        summaryLocalValidationId := some "token".toList
        transcriptionCloudModel := none
        summaryCloudModel := none
        ollamaModel := none
        deepinfraApiKey := none } 6]

theorem path_executed_is_path_probed_absolute :
    Visits (History.step homeWithModel.outside) (OpensWhatWasProbed homeWithModel) .initial
      (saveLocal "/root/m.gguf") := by
  apply path_executed_is_path_probed
  refine ⟨trivial, ?_, trivial⟩
  intro _ category path isLocal given _
  cases category with
  | transcription => cases isLocal
  | summary =>
      cases given
      exact ⟨rfl, by decide, ⟨[], fun _ => none⟩, by decide⟩

/-- The worker is started in `/`. -/
theorem home_path_not_expanded :
    ¬Visits (History.step homeWithModel.outside) (OpensWhatWasProbed homeWithModel) .initial
      (saveLocal "~/m.gguf") := by
  intro visits
  have built : adapterPath .default ((final (History.step homeWithModel.outside) .initial
      (saveLocal "~/m.gguf")).store.modelSettings.get? 1) .summary = some "~/m.gguf".toList := by
    decide +kernel
  exact not_opens_of_missing ⟨[], homeWithModel.api.home⟩ built (by decide) visits.final

end Kaeyris.Proof
