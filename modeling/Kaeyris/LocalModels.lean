import Kaeyris.Lib.Transition
import Kaeyris.Router

/-!
# Model settings and local model proofs

The settings routes of `auth_router.py`, with `local_model_validation.py` and the two repositories
they use. A request is what an administrator signed in on the web sends; any other is refused before
it reads a setting.
-/

namespace Kaeyris
open Lib

inductive LocalModelCategory | transcription | summary
  deriving DecidableEq, Repr

inductive LocalModelValidationStatus | succeeded
  deriving DecidableEq, Repr

structure LocalModelValidation where
  validationHash : Text
  userId : Uuid
  category : LocalModelCategory
  modelPath : Text
  pathHash : Text
  status : LocalModelValidationStatus
  runtime : Text
  modelFormat : Text
  message : Text
  expiresAt : Timestamp
  deriving DecidableEq

namespace ModelSettings

def blank (user : Uuid) : ModelSettings :=
  ⟨user, none, none, none, none, none, none, none, none, none, none⟩

def provider (row : ModelSettings) : LocalModelCategory → Option ModelProvider
  | .transcription => row.transcriptionProvider
  | .summary => row.summaryProvider

def localPath (row : ModelSettings) : LocalModelCategory → Option Text
  | .transcription => row.transcriptionLocalPath
  | .summary => row.summaryLocalPath

def localValidationHash (row : ModelSettings) : LocalModelCategory → Option Text
  | .transcription => row.transcriptionLocalValidationHash
  | .summary => row.summaryLocalValidationHash

end ModelSettings

namespace LocalModels

structure Store where
  modelSettings : Table Uuid ModelSettings ModelSettings.userId
  validations : Table Text LocalModelValidation LocalModelValidation.validationHash

/-- The parts outside: SHA-256, `Path.expanduser` and `Path.resolve` with the file system behind them
at a given time (`none` where they raise), and what DeepInfra answers for a model and a key. -/
structure Outside where
  sha256 : Text → Text
  resolve : Timestamp → Text → Option Text
  keyAccepted : LocalModelCategory → Text → Text → Bool
  validationTtlSeconds : Nat

/-! ## Proofs -/

def validationRequired (detail : String) : AppError :=
  ⟨400, "local-model-validation-required", detail⟩

def noModelPath : AppError :=
  ⟨400, "local-model-path-not-found", "Provide a local model path before validation."⟩

def normalizeModelPath (env : Outside) (now : Timestamp) (path : Text) : Except AppError Text :=
  if Text.strip path = [] then .error noModelPath
  else
    match env.resolve now (Text.strip path) with
    | some normalized => .ok normalized
    | none => .error ⟨500, "internal", "An unexpected error occurred."⟩

structure LocalModelValidationRequest where
  category : LocalModelCategory
  modelPath : Text

structure LocalModelProbeResult where
  runtime : Text
  modelFormat : Text
  message : Text

/-- `validationId` is the random token handed to the client, of which only the hash is stored. -/
def createLocalModelValidation (env : Outside) (store : Store) (user : Uuid)
    (request : LocalModelValidationRequest) (probe : Except AppError LocalModelProbeResult)
    (validationId : Text) (now : Timestamp) : Except AppError Store := do
  let path ← normalizeModelPath env now request.modelPath
  let result ← probe
  let row : LocalModelValidation :=
    { validationHash := env.sha256 validationId
      userId := user
      category := request.category
      modelPath := path
      pathHash := env.sha256 path
      status := .succeeded
      runtime := result.runtime
      modelFormat := result.modelFormat
      message := result.message
      expiresAt := now + env.validationTtlSeconds }
  match store.validations.insert? row with
  | some validations => .ok { store with validations := validations }
  | none => .error ⟨500, "internal", "An unexpected error occurred."⟩

def requireLocalModelValidationHash (env : Outside) (store : Store) (user : Uuid)
    (category : LocalModelCategory) (modelPath validationId : Option Text) (now : Timestamp) :
    Except AppError Text := do
  let path := modelPath.getD []
  let token := validationId.getD []
  if Text.strip path = [] then
    .error (validationRequired "A Local model path is required before Local settings can be saved.")
  else if Text.strip token = [] then
    .error (validationRequired "Validate the Local model path before saving Local settings.")
  else
    let normalized ← normalizeModelPath env now path
    match store.validations.get? (env.sha256 (Text.strip token)) with
    | none =>
        .error (validationRequired "Validate the Local model path before saving Local settings.")
    | some row =>
        if row.userId ≠ user || row.category ≠ category || row.pathHash ≠ env.sha256 normalized ||
            row.status ≠ .succeeded then
          .error (validationRequired
            "The supplied Local model validation proof does not match this setting.")
        else if row.expiresAt ≤ now then
          .error ⟨400, "local-model-validation-expired",
            "Validate the Local model path again before saving."⟩
        else .ok row.validationHash

/-! ## Settings -/

/-- A field of the payload is `none` when it is not in `model_fields_set`; where presence plays no
part, an absent field is its default, null. -/
structure ModelSettingsPatch where
  transcriptionProvider : Option (Option ModelProvider)
  summaryProvider : Option (Option ModelProvider)
  transcriptionLocalPath : Option (Option Text)
  summaryLocalPath : Option (Option Text)
  transcriptionLocalValidationId : Option Text
  summaryLocalValidationId : Option Text
  transcriptionCloudModel : Option (Option Text)
  summaryCloudModel : Option (Option Text)
  ollamaModel : Option Text
  deepinfraApiKey : Option Text

namespace ModelSettingsPatch

def provider (payload : ModelSettingsPatch) : LocalModelCategory → Option (Option ModelProvider)
  | .transcription => payload.transcriptionProvider
  | .summary => payload.summaryProvider

def localPath (payload : ModelSettingsPatch) : LocalModelCategory → Option (Option Text)
  | .transcription => payload.transcriptionLocalPath
  | .summary => payload.summaryLocalPath

def localValidationId (payload : ModelSettingsPatch) : LocalModelCategory → Option Text
  | .transcription => payload.transcriptionLocalValidationId
  | .summary => payload.summaryLocalValidationId

end ModelSettingsPatch

def requiredLocalValidationHashIfNeeded (env : Outside) (store : Store) (user : Uuid)
    (current : Option ModelSettings) (payload : ModelSettingsPatch) (category : LocalModelCategory)
    (now : Timestamp) : Except AppError (Option Text) :=
  let currentProvider := match current with
    | some row => row.provider category
    | none => some .cloud
  let currentPath := current.bind fun row => row.localPath category
  let currentHash := current.bind fun row => row.localValidationHash category
  let effectiveProvider := (payload.provider category).join.or currentProvider
  let effectivePath := (payload.localPath category).getD currentPath
  let pathChanged := (payload.localPath category).isSome && effectivePath ≠ currentPath
  let introducesLocal := currentProvider ≠ some .localModel && effectiveProvider = some .localModel
  let needsValidation := effectiveProvider = some .localModel &&
    (pathChanged || introducesLocal || !Text.present currentHash)
  if needsValidation then
    (requireLocalModelValidationHash env store user category effectivePath
      (payload.localValidationId category) now).map some
  else .ok none

def transcriptionCloudModels : List Text :=
  ["openai/whisper-large-v3-turbo".toList, "openai/whisper-large-v3".toList]

def summaryCloudModels : List Text :=
  ["meta-llama/Meta-Llama-3.1-8B-Instruct".toList, "Qwen/Qwen2.5-72B-Instruct".toList,
    "meta-llama/Meta-Llama-3.1-70B-Instruct".toList]

def unknownCloudModel (label : String) (model : Text) : AppError :=
  ⟨422, "unknown-cloud-model",
    s!"Unknown {label} cloud model {Logic.quoted (String.ofList model)}. Fetch GET /services/jdr/settings/model-catalog for valid ids."⟩

def validateCloudModelsInCatalog (payload : ModelSettingsPatch) : Except AppError Unit := do
  let transcription := payload.transcriptionCloudModel.join.getD []
  let summary := payload.summaryCloudModel.join.getD []
  Router.require (transcription = [] || transcription ∈ transcriptionCloudModels)
    (unknownCloudModel "transcription" transcription)
  Router.require (summary = [] || summary ∈ summaryCloudModels) (unknownCloudModel "summary" summary)

def cloudApiKeyInvalid (detail : String) : AppError := ⟨400, "cloud-api-key-invalid", detail⟩

def modelChanged (field : Option (Option Text)) (current : Option ModelSettings)
    (stored : ModelSettings → Option Text) : Bool :=
  Text.present field.join && current.any fun row => field.join ≠ stored row

def validateCloudApiKeyIfNeeded (env : Outside) (payload : ModelSettingsPatch)
    (current : Option ModelSettings) : Except AppError Unit := do
  let newKey := Text.present payload.deepinfraApiKey
  let effectiveKey := Text.orElse payload.deepinfraApiKey
    ((current.bind ModelSettings.deepinfraApiKey).getD [])
  if effectiveKey = [] then .ok ()
  else
    let summaryModel := (payload.summaryCloudModel.getD
      (current.bind ModelSettings.summaryCloudModel)).getD []
    let transcriptionModel := (payload.transcriptionCloudModel.getD
      (current.bind ModelSettings.transcriptionCloudModel)).getD []
    let probesSummary := summaryModel ≠ [] && (newKey ||
      modelChanged payload.summaryCloudModel current ModelSettings.summaryCloudModel)
    let probesTranscription := transcriptionModel ≠ [] && (newKey ||
      modelChanged payload.transcriptionCloudModel current ModelSettings.transcriptionCloudModel)
    Router.require (!probesSummary || env.keyAccepted .summary summaryModel effectiveKey)
      (cloudApiKeyInvalid
        "La clé DeepInfra a été refusée (non autorisée pour ce modèle). Vérifie la clé et le modèle cloud.")
    Router.require
      (!probesTranscription || env.keyAccepted .transcription transcriptionModel effectiveKey)
      (cloudApiKeyInvalid
        "La clé DeepInfra a été refusée pour la transcription. Vérifie la clé et le modèle cloud.")

def upsertForUser (current : Option ModelSettings) (user : Uuid) (payload : ModelSettingsPatch)
    (transcriptionHash summaryHash : Option Text) : ModelSettings :=
  let row := current.getD (.blank user)
  { row with
    transcriptionProvider := payload.transcriptionProvider.getD row.transcriptionProvider
    summaryProvider := payload.summaryProvider.getD row.summaryProvider
    transcriptionLocalPath := payload.transcriptionLocalPath.join.or row.transcriptionLocalPath
    summaryLocalPath := payload.summaryLocalPath.join.or row.summaryLocalPath
    transcriptionCloudModel := payload.transcriptionCloudModel.join.or row.transcriptionCloudModel
    summaryCloudModel := payload.summaryCloudModel.join.or row.summaryCloudModel
    ollamaModel := payload.ollamaModel.or row.ollamaModel
    transcriptionLocalValidationHash := transcriptionHash.or row.transcriptionLocalValidationHash
    summaryLocalValidationHash := summaryHash.or row.summaryLocalValidationHash
    deepinfraApiKey :=
      if Text.present payload.deepinfraApiKey then payload.deepinfraApiKey
      else row.deepinfraApiKey }

def patchModelSettings (env : Outside) (store : Store) (user : Uuid) (payload : ModelSettingsPatch)
    (now : Timestamp) : Except AppError Store := do
  let current := store.modelSettings.get? user
  let transcriptionHash ← requiredLocalValidationHashIfNeeded env store user current payload
    .transcription now
  let summaryHash ← requiredLocalValidationHashIfNeeded env store user current payload .summary now
  validateCloudModelsInCatalog payload
  validateCloudApiKeyIfNeeded env payload current
  .ok
    { store with
      modelSettings := store.modelSettings.put
        (upsertForUser current user payload transcriptionHash summaryHash) }

/-! ## Sequences of requests -/

def setting (store : Store) (user : Uuid) (category : LocalModelCategory) :
    Option ModelProvider × Option Text × Option Text :=
  let row := (store.modelSettings.get? user).getD (.blank user)
  (row.provider category, row.localPath category, row.localValidationHash category)

/-- `savedAt` only keeps the history: when the stored setting of a category was last changed. -/
structure History where
  store : Store
  savedAt : Uuid → LocalModelCategory → Timestamp

def History.initial : History := ⟨⟨.empty, .empty⟩, fun _ _ => 0⟩

inductive Label
  | patch (user : Uuid) (payload : ModelSettingsPatch) (now : Timestamp)
  | validate (user : Uuid) (request : LocalModelValidationRequest)
      (probe : Except AppError LocalModelProbeResult) (validationId : Text) (now : Timestamp)

def History.step (env : Outside) (s : History) : Label → History
  | .patch user payload now =>
      match patchModelSettings env s.store user payload now with
      | .error _ => s
      | .ok store =>
          { store := store
            savedAt := fun other category =>
              if setting store other category = setting s.store other category then
                s.savedAt other category
              else now }
  | .validate user request probe validationId now =>
      match createLocalModelValidation env s.store user request probe validationId now with
      | .error _ => s
      | .ok store => { s with store := store }

end LocalModels

end Kaeyris
