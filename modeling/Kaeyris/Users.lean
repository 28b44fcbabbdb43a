import Kaeyris.Db.Models

/-!
# User accounts

`core/users.py` over the tables it reads. A function that flushes returns the database with its
changes; the request commits them when it ends. Identifiers drawn by the code are arguments.
-/

namespace Kaeyris.Users
open Lib

inductive SystemRole | admin | user
  deriving DecidableEq, Repr

/-- The deprecated alias of the role. -/
inductive Profile | gm | user
  deriving DecidableEq, Repr

inductive UserStatus | active | inactive | deleted
  deriving DecidableEq, Repr

structure User where
  id : Uuid
  username : Text
  systemRole : SystemRole
  passwordHash : Text
  status : UserStatus
  apiKeyId : Option Uuid
  updatedAt : Timestamp
  deletedAt : Option Timestamp
  deriving DecidableEq

structure WebSession where
  id : Uuid
  userId : Uuid
  tokenHash : Text
  expiresAt : Timestamp
  revokedAt : Option Timestamp
  lastSeenAt : Option Timestamp
  deriving DecidableEq

inductive KeyRole | gm | player
  deriving DecidableEq, Repr

inductive ApiKeyStatus | active | revoked
  deriving DecidableEq, Repr

/-- A row of `jdr_api_keys`; its hash is that of the token drawn with it. -/
structure ApiKey where
  id : Uuid
  name : Text
  role : KeyRole
  pjId : Option Uuid
  status : ApiKeyStatus
  deriving DecidableEq

structure Accounts where
  users : Indexed Uuid Text User User.id User.username
  webSessions : Indexed Uuid Text WebSession WebSession.id WebSession.tokenHash
  apiKeys : Indexed Uuid Text ApiKey ApiKey.id ApiKey.name

structure Hashing where
  lower : Text → Text
  hash : Text → Text

inductive UserError
  | duplicateUser | userNotFound | setupClosed | lastActiveAdmin | valueError (detail : String)
  | integrityError
  deriving DecidableEq

def normalizeUsername (env : Hashing) (username : Text) : Except UserError Text :=
  let normalized := env.lower (Text.strip username)
  if normalized = [] then .error (.valueError "Username must not be blank.") else .ok normalized

def hashPassword (env : Hashing) (password : Text) : Except UserError Text :=
  if password = [] then .error (.valueError "Password must not be blank.")
  else .ok (env.hash password)

def setupRequired (db : Accounts) : Bool := db.users.rows.isEmpty

def getUser (db : Accounts) (user : Uuid) : Except UserError User :=
  match db.users.get? user with
  | some row => .ok row
  | none => .error .userNotFound

def usernameExists (db : Accounts) (normalized : Text) : Bool :=
  db.users.rows.any fun row => row.username = normalized

/-- `_internal_api_key`; its token is never handed out. -/
def internalApiKey (id : Uuid) (username : Text) : ApiKey :=
  ⟨id, "web:".toList ++ username, .gm, none, .active⟩

def User.isActiveAdmin (row : User) : Bool := row.systemRole = .admin && row.status = .active

def countActiveAdmins (db : Accounts) : Nat := db.users.rows.countP User.isActiveAdmin

/-! ## Creating users -/

structure Drawn where
  userId : Uuid
  apiKeyId : Uuid
  now : Timestamp

structure NewUser where
  user : User
  apiKey : ApiKey

def NewUser.insert (new : NewUser) (db : Accounts) : Option Accounts := do
  let apiKeys ← db.apiKeys.insertAll? [new.apiKey]
  let users ← db.users.insertAll? [new.user]
  some { db with users := users, apiKeys := apiKeys }

def newUser (env : Hashing) (db : Accounts) (drawn : Drawn) (username : Text)
    (systemRole : Option SystemRole) (profile : Option Profile) (password : Text) :
    Except UserError NewUser := do
  let normalized ← normalizeUsername env username
  if usernameExists db normalized then
    .error .duplicateUser
  else
    let role := systemRole.getD (if profile = some .gm then .admin else .user)
    let hashed ← hashPassword env password
    .ok
      { user := ⟨drawn.userId, normalized, role, hashed, .active, some drawn.apiKeyId, drawn.now,
          none⟩
        apiKey := internalApiKey drawn.apiKeyId normalized }

def createUser (env : Hashing) (db : Accounts) (drawn : Drawn) (username : Text)
    (systemRole : Option SystemRole) (profile : Option Profile) (password : Text) :
    Except UserError (NewUser × Accounts) := do
  let new ← newUser env db drawn username systemRole profile password
  match new.insert db with
  | some db' => .ok (new, db')
  | none => .error .integrityError

def createFirstGm (env : Hashing) (db : Accounts) (drawn : Drawn) (username password : Text) :
    Except UserError (NewUser × Accounts) :=
  if !setupRequired db then .error .setupClosed
  else createUser env db drawn username (some .admin) none password

/-! ## Changing users -/

structure UserUpdate where
  systemRole : Option SystemRole
  profile : Option Profile
  password : Option Text
  status : Option UserStatus

def UserUpdate.role (u : UserUpdate) : Option SystemRole :=
  match u.systemRole, u.profile with
  | none, some profile => some (if profile = .gm then .admin else .user)
  | role, _ => role

inductive Change | update (u : UserUpdate) | delete

def Change.wouldRemoveAdmin : Change → Bool
  | .update u =>
      (u.role ≠ none && u.role ≠ some .admin) || u.status = some .inactive ||
        u.status = some .deleted
  | .delete => true

/-- The guard of both functions: the count is read only where it matters. -/
def guardLastAdmin (db : Accounts) (user : User) (change : Change) : Except UserError Unit :=
  if user.isActiveAdmin && change.wouldRemoveAdmin && countActiveAdmins db ≤ 1 then
    .error .lastActiveAdmin
  else .ok ()

/-- What a request has changed in its session and not yet committed. -/
structure Edit where
  loaded : User
  modified : User
  apiKey : Option ApiKey
  revoked : List Uuid
  now : Timestamp

/-- `revoke_user_sessions` sets the sessions that are open when it reads them. -/
def openSessions (db : Accounts) (user : Uuid) : List Uuid :=
  (db.webSessions.select fun row => row.userId = user && row.revokedAt.isNone).map WebSession.id

def edit (env : Hashing) (db : Accounts) (user : User) (apiKeyId : Uuid) (now : Timestamp) :
    Change → Except UserError Edit
  | .update u => do
      let hashed ← match u.password with
        | some password => hashPassword env password
        | none => .ok user.passwordHash
      let status := u.status.getD user.status
      .ok
        { loaded := user
          modified :=
            { user with
              systemRole := u.role.getD user.systemRole
              passwordHash := hashed
              status := status
              deletedAt :=
                if u.status = some .deleted && user.deletedAt.isNone then some now
                else user.deletedAt
              apiKeyId := some (user.apiKeyId.getD apiKeyId)
              updatedAt := now }
          apiKey :=
            if user.apiKeyId.isNone then some (internalApiKey apiKeyId user.username) else none
          revoked :=
            if u.status = some .inactive || u.status = some .deleted then openSessions db user.id
            else []
          now := now }
  | .delete =>
      .ok
        { loaded := user
          modified := { user with status := .deleted, deletedAt := some now, updatedAt := now }
          apiKey := none
          revoked := openSessions db user.id
          now := now }

/-- An attribute that was assigned its old value is not in the `UPDATE`. -/
def assigned {α : Type} [DecidableEq α] (loaded modified stored : α) : α :=
  if modified = loaded then stored else modified

def Edit.row (e : Edit) (stored : User) : User :=
  { stored with
    systemRole := assigned e.loaded.systemRole e.modified.systemRole stored.systemRole
    passwordHash := assigned e.loaded.passwordHash e.modified.passwordHash stored.passwordHash
    status := assigned e.loaded.status e.modified.status stored.status
    apiKeyId := assigned e.loaded.apiKeyId e.modified.apiKeyId stored.apiKeyId
    updatedAt := assigned e.loaded.updatedAt e.modified.updatedAt stored.updatedAt
    deletedAt := assigned e.loaded.deletedAt e.modified.deletedAt stored.deletedAt }

/-- The rows the edit writes, on what is stored by then. -/
def Edit.flush (e : Edit) (db : Accounts) : Option Accounts :=
  (db.apiKeys.insertAll? e.apiKey.toList).map fun apiKeys =>
    { users := db.users.update (fun row => row.id = e.loaded.id) e.row
      webSessions := db.webSessions.update (fun row => row.id ∈ e.revoked)
        fun row => { row with revokedAt := some e.now }
      apiKeys := apiKeys }

/-- `update_user` and `delete_user`, alone in the database. -/
def changeUser (env : Hashing) (db : Accounts) (user apiKeyId : Uuid) (now : Timestamp)
    (change : Change) : Except UserError Accounts := do
  let row ← getUser db user
  guardLastAdmin db row change
  let e ← edit env db row apiKeyId now change
  match e.flush db with
  | some db' => .ok db'
  | none => .error .integrityError

def updateUser (env : Hashing) (db : Accounts) (user apiKeyId : Uuid) (now : Timestamp)
    (u : UserUpdate) : Except UserError Accounts := changeUser env db user apiKeyId now (.update u)

def deleteUser (env : Hashing) (db : Accounts) (user apiKeyId : Uuid) (now : Timestamp) :
    Except UserError Accounts := changeUser env db user apiKeyId now .delete

end Kaeyris.Users
