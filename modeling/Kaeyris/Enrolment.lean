import Kaeyris.Quotas
import Kaeyris.WebSessions

/-!
# Names given to keys and users

The operations that write the key and user tables, with the payloads their routes accept. The routes
answer the documented errors; any other error is a 500, and what the request wrote is rolled back.
-/

namespace Kaeyris.Enrolment
open Lib Users

structure SetupRequest where
  username : Text
  password : Text
  usernameBounded : 1 ≤ username.length ∧ username.length ≤ 150
  passwordBounded : 1 ≤ password.length ∧ password.length ≤ 256

structure UserCreate extends SetupRequest where
  systemRole : SystemRole

/-- The texts that the columns hold: PostgreSQL refuses one that is too long or has a NUL in it,
SQLite holds all. -/
structure Columns where
  apiKeyName : Text → Bool
  username : Text → Bool

/-- The rows an operation has added are at the end. -/
def Columns.hold (columns : Columns) (before after : Accounts) : Bool :=
  (after.apiKeys.rows.drop before.apiKeys.rows.length).all (fun key => columns.apiKeyName key.name) &&
    (after.users.rows.drop before.users.rows.length).all fun user => columns.username user.username

inductive Failure
  | enrolment (e : EnrolmentError)
  | user (e : UserError)
  | dataError
  deriving DecidableEq

def Columns.store (columns : Columns) (before : Accounts) (written : Except Failure Accounts) :
    Except Failure Accounts := do
  let after ← written
  if columns.hold before after then .ok after else .error .dataError

def Failure.documented : Failure → Bool
  | .enrolment (.invalidPlayer _) => true
  | .user .duplicateUser => true
  | .user .setupClosed => true
  | _ => false

/-- The enrolments read the PJs in `db`. -/
inductive Operation
  | enrollPlayer (db : Database) (id : Uuid) (payload : PlayerCreate) (gmKey : Uuid)
      (campaign : Option Uuid)
  | createUser (drawn : Drawn) (payload : UserCreate)
  | createFirstGm (drawn : Drawn) (payload : SetupRequest)
  | bootstrap (entries : List ApiKeyEntry)
  | login (apiKeyId : Uuid) (username password : Text)
  | changeUser (user apiKeyId : Uuid) (now : Timestamp) (change : Change)
  | revokePlayer (db : Database) (player gmKey : Uuid)

namespace Operation

def written (env : Security) (accounts : Accounts) : Operation → Except Failure Accounts
  | .enrollPlayer db id payload gmKey campaign =>
      ((Users.enrollPlayer accounts db id payload gmKey campaign).map Prod.snd).mapError .enrolment
  | .createUser drawn payload =>
      ((Users.createUser env.toHashing accounts drawn payload.username (some payload.systemRole) none
        payload.password).map Prod.snd).mapError .user
  | .createFirstGm drawn payload =>
      ((Users.createFirstGm env.toHashing accounts drawn payload.username
        payload.password).map Prod.snd).mapError .user
  | .bootstrap entries => ((bootstrapApiKeysFromEnv accounts entries).map Prod.snd).mapError .user
  | .login apiKeyId username password =>
      ((authenticateUser env accounts apiKeyId username password).map fun found =>
        (found.map Prod.snd).getD accounts).mapError .user
  | .changeUser user apiKeyId now change =>
      (Users.changeUser env.toHashing accounts user apiKeyId now change).mapError .user
  | .revokePlayer db player gmKey => .ok ((Users.revokePlayer accounts db player gmKey).getD accounts)

def outcome (env : Security) (columns : Columns) (accounts : Accounts) (operation : Operation) :
    Except Failure Accounts :=
  columns.store accounts (operation.written env accounts)

def step (env : Security) (columns : Columns) (accounts : Accounts) (operation : Operation) :
    Accounts :=
  match operation.outcome env columns accounts with
  | .ok after => after
  | .error _ => accounts

def registers : Operation → Bool
  | .enrollPlayer .. | .createUser .. | .createFirstGm .. => true
  | _ => false

end Operation

end Kaeyris.Enrolment
