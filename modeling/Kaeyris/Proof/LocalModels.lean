import Kaeyris.LocalModels
import Kaeyris.Proof.Requests

/-!
# Local providers are backed by a proof

A stored Local provider has a path and the hash of a proof that was made for the same user, category
and path, and that had not expired when the setting was last changed.
-/

namespace Kaeyris.Proof
open Lib LocalModels

/-- The same text, or two texts that SHA-256 does not tell apart. -/
def SameUnderHash (sha256 : Text → Text) (a b : Text) : Prop := a = b ∨ a ≠ b ∧ sha256 a = sha256 b

theorem sameUnderHash_iff {sha256 : Text → Text} {a b : Text} :
    SameUnderHash sha256 a b ↔ sha256 a = sha256 b := by
  constructor
  · rintro (rfl | ⟨-, same⟩)
    · rfl
    · exact same
  · intro same
    by_cases equal : a = b
    · exact .inl equal
    · exact .inr ⟨equal, same⟩

/-- The stored proof covers the path for the user and the category at the given time. -/
structure Proves (env : Outside) (store : Store) (user : Uuid) (category : LocalModelCategory)
    (path hash : Text) (now : Timestamp) : Prop where
  nonblank : Text.strip path ≠ []
  proven : ∃ proof, store.validations.get? hash = some proof ∧ proof.userId = user ∧
    proof.category = category ∧ proof.status = .succeeded ∧ now < proof.expiresAt ∧
    ∃ normalized, env.resolve now (Text.strip path) = some normalized ∧
      SameUnderHash env.sha256 proof.modelPath normalized

def Backed (env : Outside) (s : History) : Prop :=
  ∀ user row category, s.store.modelSettings.get? user = some row →
    row.provider category = some .localModel →
      ∃ path hash, row.localPath category = some path ∧
        row.localValidationHash category = some hash ∧
        Proves env s.store user category path hash (s.savedAt user category)

def SettingBacked (env : Outside) (store : Store) (user : Uuid) (category : LocalModelCategory)
    (savedAt : Timestamp) : Prop :=
  (setting store user category).1 = some .localModel → ∃ path hash,
    (setting store user category).2 = (some path, some hash) ∧
      Proves env store user category path hash savedAt

structure BackedSettings (env : Outside) (s : History) : Prop where
  settings : ∀ user category, SettingBacked env s.store user category (s.savedAt user category)
  hashed : ∀ proof ∈ s.store.validations.rows, proof.pathHash = env.sha256 proof.modelPath

section Requests
variable {env : Outside} {store : Store} {user : Uuid} {category : LocalModelCategory}
  {now : Timestamp}

theorem require_proves (hashed : ∀ proof ∈ store.validations.rows,
      proof.pathHash = env.sha256 proof.modelPath) {modelPath validationId : Option Text} {hash : Text}
    (accepted : requireLocalModelValidationHash env store user category modelPath validationId now =
      .ok hash) :
    ∃ path, modelPath = some path ∧ Proves env store user category path hash now := by
  unfold requireLocalModelValidationHash at accepted
  dsimp only at accepted
  split at accepted
  · cases accepted
  · rename_i present
    split at accepted
    · cases accepted
    · obtain ⟨normalized, resolved, accepted⟩ := except_bind_ok accepted
      have path : env.resolve now (Text.strip (modelPath.getD [])) = some normalized := by
        simp only [normalizeModelPath, present, if_false] at resolved
        split at resolved
        · cases resolved
          assumption
        · cases resolved
      split at accepted
      · cases accepted
      · rename_i proof found
        split at accepted
        · cases accepted
        · rename_i fits
          split at accepted
          · cases accepted
          · rename_i alive
            cases accepted
            cases modelPath with
            | none => exact absurd rfl present
            | some given =>
                simp only [ne_eq, Bool.or_eq_true, decide_eq_true_eq, not_or, not_not] at fits
                refine ⟨given, rfl, present, proof, ?_, fits.1.1.1, fits.1.1.2,
                  by cases proof.status; rfl, Nat.lt_of_not_le alive, normalized, path, ?_⟩
                · rw [Table.key_of_get? found]
                  exact found
                · rw [sameUnderHash_iff, ← hashed proof (Table.mem_of_get? found), fits.1.2]

theorem proves_mono {store' : Store} {path hash : Text}
    (grows : ∀ key proof, store.validations.get? key = some proof →
      store'.validations.get? key = some proof)
    (proves : Proves env store user category path hash now) :
    Proves env store' user category path hash now := by
  obtain ⟨nonblank, proof, found, facts⟩ := proves
  exact ⟨nonblank, proof, grows hash proof found, facts⟩

def providerFound (current : Option ModelSettings) (category : LocalModelCategory) :
    Option ModelProvider :=
  match current with
  | some row => row.provider category
  | none => some .cloud

theorem providerFound_local {current : Option ModelSettings} :
    providerFound current category = some .localModel ↔
      (current.getD (.blank user)).provider category = some .localModel := by
  cases current with
  | none => cases category <;> simp [providerFound, ModelSettings.blank, ModelSettings.provider]
  | some row => exact Iff.rfl

/-- What the check of a category that will be Local comes to: a proof of the effective path, or a
setting that was Local and keeps its path. -/
theorem required_cases {current : Option ModelSettings} {payload : ModelSettingsPatch}
    {hash : Option Text}
    (required : requiredLocalValidationHashIfNeeded env store user current payload category now =
      .ok hash)
    (isLocal : (payload.provider category).join.or (providerFound current category) =
      some .localModel) :
    let currentPath := current.bind fun row => row.localPath category
    let effectivePath := (payload.localPath category).getD currentPath
    (∃ proved, hash = some proved ∧ requireLocalModelValidationHash env store user category
      effectivePath (payload.localValidationId category) now = .ok proved) ∨
    hash = none ∧ providerFound current category = some .localModel ∧
      effectivePath = currentPath := by
  intro currentPath effectivePath
  have shape : requiredLocalValidationHashIfNeeded env store user current payload category now =
      if (payload.provider category).join.or (providerFound current category) = some .localModel &&
          ((payload.localPath category).isSome && effectivePath ≠ currentPath ||
            providerFound current category ≠ some .localModel &&
              (payload.provider category).join.or (providerFound current category) =
                some .localModel ||
            !Text.present (current.bind fun row => row.localValidationHash category)) then
        (requireLocalModelValidationHash env store user category effectivePath
          (payload.localValidationId category) now).map some
      else .ok none := rfl
  rw [shape, isLocal] at required
  simp only [decide_true, Bool.true_and, Bool.and_true] at required
  split at required
  · obtain ⟨proved, accepted, rfl⟩ := except_map_ok required
    exact .inl ⟨proved, rfl, accepted⟩
  · rename_i unneeded
    cases required
    simp only [Bool.or_eq_true, not_or, Bool.and_eq_true, decide_eq_true_eq, ne_eq, not_and,
      not_not, Bool.not_eq_true'] at unneeded
    obtain ⟨⟨unchanged, wasLocal⟩, -⟩ := unneeded
    refine .inr ⟨rfl, wasLocal, ?_⟩
    cases field : payload.localPath category with
    | none => simp [effectivePath, field]
    | some value => exact unchanged (by simp [field])

theorem setting_path (store : Store) (user : Uuid) (category : LocalModelCategory) :
    ((store.modelSettings.get? user).bind fun row => row.localPath category) =
      (setting store user category).2.1 := by
  unfold setting
  cases store.modelSettings.get? user with
  | none => cases category <;> rfl
  | some row => rfl

/-- What a patch stores for a category that it leaves or makes Local: nothing new, or a path that
has just been proved. -/
theorem upsert_local {payload : ModelSettingsPatch} {hash : Option Text}
    (hashed : ∀ proof ∈ store.validations.rows, proof.pathHash = env.sha256 proof.modelPath)
    (required : requiredLocalValidationHashIfNeeded env store user (store.modelSettings.get? user)
      payload category now = .ok hash) :
    let before := setting store user category
    let provider := (payload.provider category).getD before.1
    let path := (payload.localPath category).join.or before.2.1
    let stored := hash.or before.2.2
    provider = some .localModel → (provider, path, stored) = before ∨
      ∃ p h, (path, stored) = (some p, some h) ∧ Proves env store user category p h now := by
  intro before provider path stored isLocal
  have effective : (payload.provider category).join.or
      (providerFound (store.modelSettings.get? user) category) = some .localModel := by
    cases field : payload.provider category with
    | none =>
        have kept : before.1 = some .localModel := by simpa [provider, field] using isLocal
        simpa using providerFound_local.mpr kept
    | some value =>
        have given : value = some .localModel := by simpa [provider, field] using isLocal
        simp [given]
  have checked := required_cases required effective
  simp only [setting_path] at checked
  rcases checked with ⟨proved, rfl, accepted⟩ | ⟨rfl, wasLocal, unchanged⟩
  · obtain ⟨given, effectivePath, proves⟩ := require_proves hashed accepted
    refine .inr ⟨given, proved, Prod.ext ?_ rfl, proves⟩
    cases field : payload.localPath category with
    | none => simpa [path, field] using effectivePath
    | some value =>
        have same : value = some given := by simpa [field] using effectivePath
        simp [path, field, same]
  · have kept : before.1 = some .localModel := providerFound_local.mp wasLocal
    have samePath : path = before.2.1 := by
      cases field : payload.localPath category with
      | none => simp [path, field]
      | some value =>
          have same : value = before.2.1 := by simpa [field] using unchanged
          simp only [path, field, Option.join_some, same]
          cases before.2.1 <;> rfl
    exact .inl (Prod.ext (isLocal.trans kept.symm) (Prod.ext samePath rfl))

theorem patch_ok {store' : Store} {payload : ModelSettingsPatch}
    (patched : patchModelSettings env store user payload now = .ok store') :
    ∃ transcriptionHash summaryHash,
      requiredLocalValidationHashIfNeeded env store user (store.modelSettings.get? user) payload
          .transcription now = .ok transcriptionHash ∧
        requiredLocalValidationHashIfNeeded env store user (store.modelSettings.get? user) payload
          .summary now = .ok summaryHash ∧
        store' =
          { store with
            modelSettings := store.modelSettings.put (upsertForUser (store.modelSettings.get? user)
              user payload transcriptionHash summaryHash) } := by
  unfold patchModelSettings at patched
  obtain ⟨transcriptionHash, transcription, patched⟩ := except_bind_ok patched
  obtain ⟨summaryHash, summary, patched⟩ := except_bind_ok patched
  obtain ⟨-, -, patched⟩ := except_bind_ok patched
  obtain ⟨-, -, patched⟩ := except_bind_ok patched
  cases patched
  exact ⟨transcriptionHash, summaryHash, transcription, summary, rfl⟩

theorem upsert_userId (store : Store) (user : Uuid) (payload : ModelSettingsPatch)
    (transcriptionHash summaryHash : Option Text) :
    (upsertForUser (store.modelSettings.get? user) user payload transcriptionHash
      summaryHash).userId = user := by
  unfold upsertForUser
  cases found : store.modelSettings.get? user with
  | none => rfl
  | some row =>
      have key : row.userId = user := Table.key_of_get? found
      exact key

theorem setting_patch {store' : Store} {payload : ModelSettingsPatch}
    (patched : patchModelSettings env store user payload now = .ok store')
    (category : LocalModelCategory) :
    ∃ hash, requiredLocalValidationHashIfNeeded env store user (store.modelSettings.get? user)
        payload category now = .ok hash ∧
      setting store' user category =
        ((payload.provider category).getD (setting store user category).1,
          (payload.localPath category).join.or (setting store user category).2.1,
          hash.or (setting store user category).2.2) := by
  obtain ⟨transcriptionHash, summaryHash, transcription, summary, rfl⟩ := patch_ok patched
  have stored := (Table.get?_put store.modelSettings (upsertForUser (store.modelSettings.get? user)
    user payload transcriptionHash summaryHash) user).trans
    (if_pos (upsert_userId store user payload transcriptionHash summaryHash))
  cases category with
  | transcription =>
      refine ⟨transcriptionHash, transcription, ?_⟩
      simp only [setting, stored]
      rfl
  | summary =>
      refine ⟨summaryHash, summary, ?_⟩
      simp only [setting, stored]
      rfl

theorem setting_elsewhere {store' : Store} {payload : ModelSettingsPatch}
    (patched : patchModelSettings env store user payload now = .ok store') {other : Uuid}
    (apart : other ≠ user) (category : LocalModelCategory) :
    setting store' other category = setting store other category := by
  obtain ⟨transcriptionHash, summaryHash, -, -, rfl⟩ := patch_ok patched
  have key := upsert_userId store user payload transcriptionHash summaryHash
  unfold setting
  rw [Table.get?_put, if_neg fun same => apart (same.symm.trans key)]

theorem validate_ok {store' : Store} {request : LocalModelValidationRequest}
    {probe : Except AppError LocalModelProbeResult} {validationId : Text}
    (validated : createLocalModelValidation env store user request probe validationId now =
      .ok store') :
    store'.modelSettings = store.modelSettings ∧
      ∃ row : LocalModelValidation, row.pathHash = env.sha256 row.modelPath ∧
        store.validations.insert? row = some store'.validations := by
  unfold createLocalModelValidation at validated
  obtain ⟨path, -, validated⟩ := except_bind_ok validated
  obtain ⟨result, -, validated⟩ := except_bind_ok validated
  dsimp only at validated
  split at validated
  · rename_i validations inserted
    cases validated
    exact ⟨rfl, _, rfl, inserted⟩
  · cases validated

end Requests

section Steps
variable {env : Outside} {s : History}

theorem backed_of_settings (ok : BackedSettings env s) : Backed env s := by
  intro user row category found isLocal
  have stored : setting s.store user category =
      (row.provider category, row.localPath category, row.localValidationHash category) := by
    simp [setting, found]
  obtain ⟨path, hash, kept, proves⟩ := ok.settings user category (by rw [stored]; exact isLocal)
  rw [stored, Prod.mk.injEq] at kept
  exact ⟨path, hash, kept.1, kept.2, proves⟩

theorem settingBacked_same {store store' : Store} {user : Uuid} {category : LocalModelCategory}
    {savedAt : Timestamp}
    (grows : ∀ key proof, store.validations.get? key = some proof →
      store'.validations.get? key = some proof)
    (same : setting store' user category = setting store user category)
    (backed : SettingBacked env store user category savedAt) :
    SettingBacked env store' user category savedAt := by
  intro isLocal
  rw [same] at isLocal ⊢
  obtain ⟨path, hash, kept, proves⟩ := backed isLocal
  exact ⟨path, hash, kept, proves_mono grows proves⟩

theorem settingBacked_patch (ok : BackedSettings env s) {store' : Store} {user : Uuid}
    {payload : ModelSettingsPatch} {now : Timestamp}
    (patched : patchModelSettings env s.store user payload now = .ok store') (other : Uuid)
    (category : LocalModelCategory) :
    SettingBacked env store' other category
      (if setting store' other category = setting s.store other category then
        s.savedAt other category
      else now) := by
  have grows : ∀ key proof, s.store.validations.get? key = some proof →
      store'.validations.get? key = some proof := by
    obtain ⟨-, -, -, -, rfl⟩ := patch_ok patched
    exact fun _ _ found => found
  by_cases same : setting store' other category = setting s.store other category
  · rw [if_pos same]
    exact settingBacked_same grows same (ok.settings other category)
  · obtain rfl : other = user := by
      by_contra apart
      exact same (setting_elsewhere patched apart category)
    rw [if_neg same]
    obtain ⟨hash, required, after⟩ := setting_patch patched category
    intro isLocal
    rw [after] at isLocal
    rcases upsert_local ok.hashed required isLocal with unchanged | ⟨path, proof, stored, proves⟩
    · exact absurd (after.trans unchanged) same
    · exact ⟨path, proof, (congrArg Prod.snd after).trans stored, proves_mono grows proves⟩

theorem backedSettings_step (ok : BackedSettings env s) (label : LocalModels.Label) :
    BackedSettings env (s.step env label) := by
  cases label with
  | patch user payload now =>
      simp only [History.step]
      split
      · exact ok
      · rename_i store patched
        refine ⟨settingBacked_patch ok patched, ?_⟩
        obtain ⟨-, -, -, -, rfl⟩ := patch_ok patched
        exact ok.hashed
  | validate user request probe validationId now =>
      simp only [History.step]
      split
      · exact ok
      · rename_i store validated
        obtain ⟨settings, row, hashed, inserted⟩ := validate_ok validated
        have grows : ∀ key proof, s.store.validations.get? key = some proof →
            store.validations.get? key = some proof := by
          intro key proof found
          have free := (Table.insert?_eq_some.mp inserted).1
          rw [Table.get?_insert? inserted]
          split
          · rename_i same
            rw [same, found] at free
            cases free
          · exact found
        constructor
        · intro other category
          refine settingBacked_same grows ?_ (ok.settings other category)
          dsimp only
          rw [setting, settings]
          rfl
        · intro proof member
          dsimp only at member
          rw [(Table.insert?_eq_some.mp inserted).2, List.mem_append, List.mem_singleton] at member
          rcases member with old | rfl
          · exact ok.hashed proof old
          · exact hashed

end Steps

/-- After any sequence of settings patches and validations. -/
theorem local_provider_backed (env : Outside) (run : List LocalModels.Label) :
    Visits (History.step env) (Backed env) .initial run := by
  have start : BackedSettings env .initial := by
    refine ⟨fun user category isLocal => ?_, fun proof member => ?_⟩
    · cases category <;> cases isLocal
    · cases member
  have along : Visits (History.step env) (BackedSettings env) .initial run :=
    Visits.of_step (fun _ label ok => backedSettings_step ok label) start
  exact along.weaken fun _ ok => backed_of_settings ok

/-- The provider is set in one request and the path in an earlier one. -/
example :
    let env : Outside := ⟨id, fun _ path => some path, fun _ _ _ => true, 60⟩
    let none : ModelSettingsPatch :=
      ⟨none, none, none, none, none, none, none, none, none, none⟩
    let run : List LocalModels.Label :=
      [.patch 1 { none with summaryLocalPath := some (some "m".toList) } 5,
        .validate 1 ⟨.summary, "m".toList⟩ (.ok ⟨[], [], []⟩) "t".toList 6,
        .patch 1 { none with
          summaryProvider := some (some .localModel)
          summaryLocalValidationId := some "t".toList } 7]
    setting (final (History.step env) .initial run).store 1 .summary =
      (some .localModel, some "m".toList, some "t".toList) := by
  decide

end Kaeyris.Proof
