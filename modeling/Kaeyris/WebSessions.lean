import Kaeyris.Lib.Transition
import Kaeyris.Router
import Kaeyris.Users

/-!
# Web sessions

The sessions of `core/users.py`, the cookie branch of `require_api_key`, and the routes of
`auth_router.py` that open and close sessions or change users. A request runs alone; it commits
what it changed or, on an error, nothing.
-/

namespace Kaeyris.Users
open Lib

structure Security extends Hashing where
  verifyPassword : Text → Text → Bool
  hashSessionToken : Text → Text
  ttlSeconds : Nat

/-! ## Sessions -/

/-- The user with its internal key, and the key's row when it is new. -/
def ensureJdrApiKey (db : Accounts) (user : User) (apiKeyId : Uuid) :
    Except UserError (User × Accounts) :=
  if user.apiKeyId.isSome then .ok (user, db)
  else
    match db.apiKeys.insertAll? [internalApiKey apiKeyId user.username] with
    | some apiKeys => .ok ({ user with apiKeyId := some apiKeyId }, { db with apiKeys := apiKeys })
    | none => .error .integrityError

def authenticateUser (env : Security) (db : Accounts) (apiKeyId : Uuid)
    (username password : Text) : Except UserError (Option (User × Accounts)) := do
  let normalized ← normalizeUsername env.toHashing username
  match db.users.rows.find? fun row => row.username = normalized && row.status = .active with
  | none => return none
  | some user =>
      if env.verifyPassword user.passwordHash password then
        let found ← ensureJdrApiKey db user apiKeyId
        return some found
      else return none

structure SessionDraw where
  sessionId : Uuid
  token : Text
  apiKeyId : Uuid
  now : Timestamp

def createWebSession (env : Security) (db : Accounts) (user : User) (draw : SessionDraw) :
    Except UserError Accounts :=
  match db.webSessions.insertAll? [⟨draw.sessionId, user.id, env.hashSessionToken draw.token,
      draw.now + env.ttlSeconds, none, none⟩] with
  | some webSessions =>
      .ok
        { db with
          users := db.users.update (fun row => row.id = user.id) fun row =>
            { row with apiKeyId := user.apiKeyId, updatedAt := draw.now }
          webSessions := webSessions }
  | none => .error .integrityError

structure ValidatedWebSession where
  user : User
  webSession : WebSession

def joinedSession (env : Security) (db : Accounts) (token : Text) : Option ValidatedWebSession := do
  let row ← db.webSessions.rows.find? fun row => row.tokenHash = env.hashSessionToken token
  let user ← db.users.get? row.userId
  return ⟨user, row⟩

def validateWebSession (env : Security) (db : Accounts) (token : Text) (now : Timestamp) :
    Option ValidatedWebSession := do
  let found ← joinedSession env db token
  if found.webSession.revokedAt.isSome || found.webSession.expiresAt ≤ now ||
      found.user.status ≠ .active then none
  else some { found with webSession := { found.webSession with lastSeenAt := some now } }

/-- `last_seen_at`, once a validation is committed. -/
def markSeen (db : Accounts) (session : Uuid) (now : Timestamp) : Accounts :=
  { db with
    webSessions := db.webSessions.update (fun row => row.id = session) fun row =>
      { row with lastSeenAt := some now } }

def revokeWebSession (env : Security) (db : Accounts) (token : Text) (now : Timestamp) : Accounts :=
  { db with
    webSessions := db.webSessions.update
      (fun row => row.tokenHash = env.hashSessionToken token && row.revokedAt.isNone)
      fun row => { row with revokedAt := some now } }

/-! ## Authentication -/

/-- What a request carries: what the key registry answers to its `Authorization` header, if it has
one, and its cookie. -/
structure Credentials where
  bearer : Option (Except AppError (KeyRole × AuthenticatedKey))
  cookie : Option Text

def unauthorized : AppError := ⟨401, "unauthorized", "Missing or malformed credentials."⟩

def requireApiKey (env : Security) (db : Accounts) (credentials : Credentials) (now : Timestamp) :
    Except AppError ((KeyRole × AuthenticatedKey) × Accounts) :=
  match credentials.bearer, credentials.cookie with
  | some answer, _ => answer.map fun auth => (auth, db)
  | none, some (c :: token) =>
      match validateWebSession env db (c :: token) now with
      | some found =>
          let key : AuthenticatedKey :=
            ⟨found.user.apiKeyId.getD found.user.id, .webSession, some found.user.id⟩
          .ok ((.gm, key), markSeen db found.webSession.id now)
      | none => .error unauthorized
  | none, _ => .error unauthorized

def requireGm (env : Security) (db : Accounts) (credentials : Credentials) (now : Timestamp) :
    Except AppError (AuthenticatedKey × Accounts) := do
  let ((role, auth), db) ← requireApiKey env db credentials now
  Router.require (role = .gm) ⟨403, "forbidden", "This endpoint requires role 'gm'."⟩
  return (auth, db)

def adminRequired : AppError :=
  ⟨403, "admin-required", "A signed-in administrator is required."⟩

def requireAdminUser (db : Accounts) (auth : AuthenticatedKey) : Except AppError User :=
  match auth.source, auth.userId.bind db.users.get? with
  | .webSession, some row => if row.systemRole = .admin then .ok row else .error adminRequired
  | _, _ => .error adminRequired

/-! ## Routes -/

/-- The error of a route for what `core/users.py` raised; `lastAdmin` is the route's own text. -/
def ofUserError (lastAdmin : String) : UserError → AppError
  | .userNotFound => ⟨404, "user-not-found", "User not found."⟩
  | .lastActiveAdmin => ⟨409, "last-active-admin", lastAdmin⟩
  | .duplicateUser => ⟨409, "duplicate-user", "Username already exists."⟩
  | .setupClosed => ⟨409, "setup-closed", "First-run setup is already closed."⟩
  | .valueError _ | .integrityError => ⟨500, "internal", "An unexpected error occurred."⟩

def raised {α : Type} (lastAdmin : String) : Except UserError α → Except AppError α :=
  Except.mapError (ofUserError lastAdmin)

/-- What a request commits, and the token that it sets in a cookie, with the user it is for. -/
structure Reply where
  accounts : Accounts
  issued : Option (Text × Uuid)

def postSetup (env : Security) (db : Accounts) (username password : Text) (drawn : Drawn)
    (draw : SessionDraw) : Except AppError Reply := do
  let (new, db) ← raised "" (createFirstGm env.toHashing db drawn username password)
  let db ← raised "" (createWebSession env db new.user draw)
  return ⟨db, some (draw.token, new.user.id)⟩

/-- Rejected credentials are a response, not an exception. -/
def postLogin (env : Security) (db : Accounts) (username password : Text) (draw : SessionDraw) :
    Except AppError Reply := do
  match ← raised "" (authenticateUser env db draw.apiKeyId username password) with
  | none => return ⟨db, none⟩
  | some (user, db) =>
      let db ← raised "" (createWebSession env db user draw)
      return ⟨db, some (draw.token, user.id)⟩

def postLogout (env : Security) (db : Accounts) (credentials : Credentials) (now : Timestamp) :
    Except AppError Reply := do
  let (_, db) ← requireApiKey env db credentials now
  match credentials.cookie with
  | some (c :: token) => return ⟨revokeWebSession env db (c :: token) now, none⟩
  | _ => return ⟨db, none⟩

def postUser (env : Security) (db : Accounts) (credentials : Credentials) (username : Text)
    (systemRole : SystemRole) (password : Text) (drawn : Drawn) : Except AppError Reply := do
  let (auth, db) ← requireGm env db credentials drawn.now
  let _ ← requireAdminUser db auth
  let created ← raised ""
    (createUser env.toHashing db drawn username (some systemRole) none password)
  return ⟨created.2, none⟩

def patchUser (env : Security) (db : Accounts) (credentials : Credentials) (user : Uuid)
    (payload : UserUpdate) (apiKeyId : Uuid) (now : Timestamp) : Except AppError Reply := do
  let (auth, db) ← requireGm env db credentials now
  let _ ← requireAdminUser db auth
  let db ← raised "Cannot remove the last active administrator."
    (updateUser env.toHashing db user apiKeyId now payload)
  return ⟨db, none⟩

def deleteUserRoute (env : Security) (db : Accounts) (credentials : Credentials) (user : Uuid)
    (apiKeyId : Uuid) (now : Timestamp) : Except AppError Reply := do
  let (auth, db) ← requireGm env db credentials now
  let _ ← requireAdminUser db auth
  let db ← raised "Cannot delete the last active administrator."
    (deleteUser env.toHashing db user apiKeyId now)
  return ⟨db, none⟩

def otherRoute (env : Security) (db : Accounts) (credentials : Credentials) (now : Timestamp) :
    Except AppError Reply := do
  let (_, db) ← requireApiKey env db credentials now
  return ⟨db, none⟩

/-! ## Sequences of requests -/

inductive AccountRequest
  | setup (username password : Text) (drawn : Drawn) (draw : SessionDraw)
  | login (username password : Text) (draw : SessionDraw)
  | logout (credentials : Credentials) (now : Timestamp)
  | createUser (credentials : Credentials) (username : Text) (systemRole : SystemRole)
      (password : Text) (drawn : Drawn)
  | patchUser (credentials : Credentials) (user : Uuid) (payload : UserUpdate) (apiKeyId : Uuid)
      (now : Timestamp)
  | deleteUser (credentials : Credentials) (user apiKeyId : Uuid) (now : Timestamp)
  | other (credentials : Credentials) (now : Timestamp)

def AccountRequest.handle (env : Security) (db : Accounts) : AccountRequest → Except AppError Reply
  | .setup username password drawn draw => postSetup env db username password drawn draw
  | .login username password draw => postLogin env db username password draw
  | .logout credentials now => postLogout env db credentials now
  | .createUser credentials username systemRole password drawn =>
      postUser env db credentials username systemRole password drawn
  | .patchUser credentials user payload apiKeyId now =>
      Users.patchUser env db credentials user payload apiKeyId now
  | .deleteUser credentials user apiKeyId now =>
      deleteUserRoute env db credentials user apiKeyId now
  | .other credentials now => otherRoute env db credentials now

/-- `issued` only keeps the history: the tokens handed out, each with its user. -/
structure Site where
  accounts : Accounts
  issued : List (Text × Uuid)

def Site.initial (users : Indexed Uuid Text User User.id User.username)
    (apiKeys : Indexed Uuid Text ApiKey ApiKey.id ApiKey.name) : Site :=
  ⟨⟨users, .empty, apiKeys⟩, []⟩

def Site.step (env : Security) (s : Site) (request : AccountRequest) : Site :=
  match request.handle env s.accounts with
  | .ok reply => ⟨reply.accounts, s.issued ++ reply.issued.toList⟩
  | .error _ => s

end Kaeyris.Users
