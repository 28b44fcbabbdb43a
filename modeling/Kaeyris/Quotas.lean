import Mathlib.Logic.Function.Basic
import Kaeyris.Db.Repositories
import Kaeyris.Lib.Noninterference
import Kaeyris.RateLimit
import Kaeyris.Users

/-!
# The quotas of identities

The operations that name API keys and users, the name under which `require_api_key` knows who sends
a request, and `enforce_rate_limit`, which counts the request in the bucket of that name.
-/

namespace Kaeyris.Users
open Lib

/-! ## API keys -/

structure ApiKeyEntry where
  id : Uuid
  name : Text

def bootstrapApiKeysFromEnv (accounts : Accounts) (entries : List ApiKeyEntry) :
    Except UserError (List ApiKey × Accounts) :=
  if !accounts.apiKeys.rows.isEmpty then .ok ([], accounts)
  else
    let added := entries.map fun entry => (⟨entry.id, entry.name, .gm, none, .active⟩ : ApiKey)
    match accounts.apiKeys.insertAll? added with
    | some apiKeys => .ok (added, { accounts with apiKeys := apiKeys })
    | none => .error .integrityError

structure PlayerCreate where
  name : Text
  pjId : Uuid
  bounded : 1 ≤ name.length ∧ name.length ≤ 255

inductive EnrolmentError
  | invalidPlayer (detail : String) | integrityError
  deriving DecidableEq

def enrollPlayer (accounts : Accounts) (db : Database) (id : Uuid) (payload : PlayerCreate)
    (gmKey : Uuid) (campaign : Option Uuid) : Except EnrolmentError (ApiKey × Accounts) :=
  match PjRepository.findByIdOwnedBy db payload.pjId gmKey campaign with
  | none =>
      .error (.invalidPlayer s!"PJ {payload.pjId} is unknown or owned by another MJ.")
  | some _ =>
      let apiKey : ApiKey := ⟨id, payload.name, .player, some payload.pjId, .active⟩
      match accounts.apiKeys.insertAll? [apiKey] with
      | some apiKeys => .ok (apiKey, { accounts with apiKeys := apiKeys })
      | none => .error .integrityError

/-- `none` where the route answers 404. -/
def revokePlayer (accounts : Accounts) (db : Database) (player gmKey : Uuid) : Option Accounts :=
  (accounts.apiKeys.rows.find? fun row =>
    row.id = player && row.role = .player &&
      (row.pjId.bind db.pjs.get?).any (·.ownerGmKeyId = gmKey)).map fun _ =>
    { accounts with
      apiKeys := accounts.apiKeys.update (fun row => row.id = player)
        fun row => { row with status := .revoked } }

/-! ## The registry -/

inductive Registration
  | bootstrap (entries : List ApiKeyEntry)
  | createUser (drawn : Drawn) (username : Text) (systemRole : Option SystemRole)
      (profile : Option Profile) (password : Text)
  | changeUser (user apiKeyId : Uuid) (now : Timestamp) (change : Change)
  | enrollPlayer (db : Database) (id : Uuid) (payload : PlayerCreate) (gmKey : Uuid)
      (campaign : Option Uuid)
  | revokePlayer (db : Database) (player gmKey : Uuid)

/-- What is committed, and the keys whose token somebody is given; `none` for a refusal. -/
def Registration.run (env : Hashing) (accounts : Accounts) :
    Registration → Option (Accounts × List ApiKey)
  | .bootstrap entries => (bootstrapApiKeysFromEnv accounts entries).toOption.map Prod.swap
  | .createUser drawn username systemRole profile password =>
      (Users.createUser env accounts drawn username systemRole profile password).toOption.map
        fun created => (created.2, [])
  | .changeUser user apiKeyId now change =>
      (Users.changeUser env accounts user apiKeyId now change).toOption.map (·, [])
  | .enrollPlayer db id payload gmKey campaign =>
      (Users.enrollPlayer accounts db id payload gmKey campaign).toOption.map
        fun enrolled => (enrolled.2, [enrolled.1])
  | .revokePlayer db player gmKey => (Users.revokePlayer accounts db player gmKey).map (·, [])

/-- `handedOut` only keeps the history: the keys whose token was given to somebody. -/
structure Registry where
  accounts : Accounts
  handedOut : List Uuid

def Registry.empty : Registry := ⟨⟨.empty, .empty, .empty⟩, []⟩

def Registry.step (env : Hashing) (r : Registry) (registration : Registration) : Registry :=
  match registration.run env r.accounts with
  | some (accounts, given) => ⟨accounts, r.handedOut ++ given.map ApiKey.id⟩
  | none => r

/-- Who sends a request: the holder of a key's token, or a user with an open session. -/
inductive Identity
  | apiKey (id : Uuid)
  | webUser (id : Uuid)
  deriving DecidableEq

/-- The rows that `_list_active_keys` reads and `_verify_against_registry` does not skip. -/
def ApiKey.usable (key : ApiKey) : Bool :=
  key.status = .active && !(key.role = .player && key.pjId.isNone)

/-- The `name` of what `require_api_key` returns; `none` where it raises. -/
def Registry.authenticatedName (r : Registry) : Identity → Option Text
  | .apiKey id =>
      ((r.accounts.apiKeys.get? id).filter fun key => id ∈ r.handedOut && key.usable).map
        ApiKey.name
  | .webUser id =>
      ((r.accounts.users.get? id).filter fun user => user.status = .active).map User.username

def Registry.NamesApart (r : Registry) : Prop :=
  ∀ key ∈ r.accounts.apiKeys.rows, key.id ∈ r.handedOut →
    ∀ user ∈ r.accounts.users.rows, key.name ≠ user.username

end Kaeyris.Users

namespace Kaeyris.Quotas
open Lib RateLimit Users

/-- Redis shows nothing of a key from its deadline on; `EXPIRE` with a time that is not positive
deletes the key at once. -/
def present (b : Bucket) (clock : ℚ) : Bucket :=
  if b.deadline.any (· ≤ clock) then .absent else b

structure Admission where
  bucket : Text
  now : ℚ

structure Service where
  registry : Registry
  redis : Text → Bucket
  pending : Identity → List Admission

def Service.initial : Service := ⟨.empty, fun _ => .absent, fun _ => []⟩

/-- A request takes two steps, its count at `now` and its addition when the clock has reached
`clock`; `index` says which of the identity's requests goes on. -/
inductive Event
  | registration (registration : Registration)
  | count (identity : Identity) (now : ℚ)
  | add (identity : Identity) (index : Nat) (clock : ℚ)

namespace Service

def counted (limits : Limits) (s : Service) (bucket : Text) (now : ℚ) : Except Int Unit × Bucket :=
  RateLimit.count limits (present (s.redis bucket) now) now

def put (s : Service) (identity : Identity) (bucket : Text) (b : Bucket)
    (pending : List Admission) : Service :=
  { s with
    redis := Function.update s.redis bucket b
    pending := Function.update s.pending identity pending }

def count (limits : Limits) (s : Service) (identity : Identity) (bucket : Text) (now : ℚ) :
    Service :=
  let (answer, b) := s.counted limits bucket now
  let waiting := s.pending identity
  s.put identity bucket b (if answer.isOk then waiting ++ [⟨bucket, now⟩] else waiting)

def add (limits : Limits) (s : Service) (identity : Identity) (index : Nat) (admitted : Admission)
    (clock : ℚ) : Service :=
  let b := RateLimit.add limits (present (s.redis admitted.bucket) clock) admitted.now clock
  s.put identity admitted.bucket (present b clock) ((s.pending identity).eraseIdx index)

def step (env : Hashing) (limits : Limits) (s : Service) : Event → Service
  | .registration registration => { s with registry := s.registry.step env registration }
  | .count identity now =>
      match s.registry.authenticatedName identity with
      | some bucket => s.count limits identity bucket now
      | none => s
  | .add identity index clock =>
      match (s.pending identity)[index]? with
      | some admitted => s.add limits identity index admitted clock
      | none => s

def decision (limits : Limits) (s : Service) : Event → Option (Except Int Unit)
  | .count identity now =>
      (s.registry.authenticatedName identity).map fun bucket => (s.counted limits bucket now).1
  | _ => none

end Service

def Event.sender : Event → Option Identity
  | .registration _ => none
  | .count identity _ => some identity
  | .add identity _ _ => some identity

def Event.concerns (identity : Identity) (event : Event) : Bool := event.sender.all (· = identity)

def registrations (run : List Event) : List Registration :=
  run.filterMap fun
    | .registration registration => some registration
    | _ => none

def decisions (env : Hashing) (limits : Limits) (identity : Identity) (run : List Event) :
    List (Except Int Unit) :=
  observed (Service.step env limits) (Service.decision limits) (Event.concerns identity) .initial
    run

/-- The requests of other identities never change the decisions that an identity sees. -/
def Independent (env : Hashing) (limits : Limits) (history : List Registration) : Prop :=
  ∀ identity run run', registrations run = history →
    run.filter (Event.concerns identity) = run'.filter (Event.concerns identity) →
    decisions env limits identity run = decisions env limits identity run'

end Kaeyris.Quotas
