import Kaeyris.Enrolment
import Kaeyris.Me

/-!
# The key registry

The parser of `API_KEYS`, the scan of `_verify_against_registry`, the branch of `require_api_key`
for bearer tokens, and the column `hash` of the operations that write the key table.
-/

namespace Kaeyris.Keyring
open Lib Users Enrolment

/-! ## The environment variable -/

structure APIKeyEntry where
  name : Text
  hash : Text
  deriving DecidableEq

/-- What `parse_api_keys` raises, with the part or the name that its message quotes. -/
inductive ValueError
  | invalidEntry (part : Text)
  | mangledHash (name : Text)
  deriving DecidableEq

def argonMark : Text := "$argon2id$".toList

/-- One part without blanks around it; `str.partition` cuts at the first colon. -/
def parsePart (part : Text) : Except ValueError APIKeyEntry :=
  let name := part.takeWhile (· ≠ ':')
  match part.dropWhile (· ≠ ':') with
  | [] => .error (.invalidEntry part)
  | _ :: hashValue =>
      if name = [] || hashValue = [] then .error (.invalidEntry part)
      else if !argonMark.isPrefixOf hashValue then .error (.mangledHash name)
      else .ok ⟨Text.strip name, Text.strip hashValue⟩

def parseParts : List Text → Except ValueError (List APIKeyEntry)
  | [] => .ok []
  | rawPart :: rest =>
      let part := Text.strip rawPart
      if part = [] then parseParts rest
      else do
        let entry ← parsePart part
        let entries ← parseParts rest
        return entry :: entries

def parseApiKeys : Option Text → Except ValueError (List APIKeyEntry)
  | none | some [] => .ok []
  | some raw => parseParts (raw.splitOn ';')

/-! ## Verification -/

inductive VerifyError | mismatch | invalidHash
  deriving DecidableEq

structure Argon2 where
  hash : Text → Text → Text
  verify : Text → Text → Except VerifyError Bool

structure KeyRow where
  key : ApiKey
  hash : Text
  deriving DecidableEq

structure Authenticated where
  id : Uuid
  name : Text
  role : KeyRole
  pjId : Option Uuid
  deriving DecidableEq

def identity (key : ApiKey) : Authenticated := ⟨key.id, key.name, key.role, key.pjId⟩

/-- One turn of the loop; `matched` is set once. -/
def verifyEntry (argon : Argon2) (token : Text) (matched : Option Authenticated) (entry : KeyRow) :
    Option Authenticated :=
  if entry.key.role = .player && entry.key.pjId.isNone then matched
  else
    match argon.verify entry.hash token with
    | .ok true => if matched.isNone then some (identity entry.key) else matched
    | .ok false => matched
    | .error .mismatch => matched
    | .error .invalidHash => matched

def verifyAgainstRegistry (argon : Argon2) (token : Text) (entries : List KeyRow) :
    Option Authenticated := entries.foldl (verifyEntry argon token) none

def noKeys : AppError := ⟨401, "unauthorized", "No API keys configured on the server."⟩

def invalidKey : AppError := ⟨401, "unauthorized", "Invalid API key."⟩

def bearerAnswer (argon : Argon2) (entries : List KeyRow) (token : Text) :
    Except AppError Authenticated :=
  if entries = [] then .error noKeys
  else
    match verifyAgainstRegistry argon token entries with
    | none => .error invalidKey
    | some authenticated => .ok authenticated

/-! ## The table and its history -/

/-- `granted` and `revoked` only record history: each key as it was created, and the keys that were
revoked. -/
structure Keys where
  accounts : Accounts
  hash : Uuid → Text
  granted : List KeyRow
  revoked : List Uuid

def Keys.initial : Keys := ⟨⟨.empty, .empty, .empty⟩, fun _ => [], [], []⟩

def Keys.listActiveKeys (s : Keys) : List KeyRow :=
  (s.accounts.apiKeys.rows.filter fun key => key.status = .active).map fun key =>
    ⟨key, s.hash key.id⟩

structure TokenDraw where
  token : Text
  salt : Text

/-- The operations that write the key table; `ids` are the identifiers that the rows of a bootstrap
get. Only an enrolment shows its token to somebody. -/
inductive Label
  | bootstrap (apiKeys : Option Text) (ids : Nat → Uuid)
  | enrollPlayer (db : Database) (id : Uuid) (payload : PlayerCreate) (gmKey : Uuid)
      (campaign : Option Uuid) (draw : TokenDraw)
  | createUser (drawn : Drawn) (payload : UserCreate) (draw : TokenDraw)
  | createFirstGm (drawn : Drawn) (payload : Enrolment.SetupRequest) (draw : TokenDraw)
  | login (apiKeyId : Uuid) (username password : Text) (draw : TokenDraw)
  | changeUser (user apiKeyId : Uuid) (now : Timestamp) (change : Change) (draw : TokenDraw)
  | revokePlayer (db : Database) (player gmKey : Uuid)

def bootstrapRows (apiKeys : Option Text) (ids : Nat → Uuid) : List KeyRow :=
  ((parseApiKeys apiKeys).toOption.getD []).mapIdx fun i entry =>
    ⟨⟨ids i, entry.name, .gm, none, .active⟩, entry.hash⟩

def Label.operation : Label → Operation
  | .bootstrap apiKeys ids =>
      .bootstrap ((bootstrapRows apiKeys ids).map fun row => ⟨row.key.id, row.key.name⟩)
  | .enrollPlayer db id payload gmKey campaign _ => .enrollPlayer db id payload gmKey campaign
  | .createUser drawn payload _ => .createUser drawn payload
  | .createFirstGm drawn payload _ => .createFirstGm drawn payload
  | .login apiKeyId username password _ => .login apiKeyId username password
  | .changeUser user apiKeyId now change _ => .changeUser user apiKeyId now change
  | .revokePlayer db player gmKey => .revokePlayer db player gmKey

def Label.hash (argon : Argon2) : Label → Uuid → Text
  | .bootstrap apiKeys ids, id =>
      (((bootstrapRows apiKeys ids).find? fun row => row.key.id = id).map KeyRow.hash).getD []
  | .enrollPlayer _ _ _ _ _ draw, _ | .createUser _ _ draw, _ | .createFirstGm _ _ draw, _
  | .login _ _ _ draw, _ | .changeUser _ _ _ _ draw, _ => argon.hash draw.salt draw.token
  | .revokePlayer _ _ _, _ => []

structure KeyColumns extends Columns where
  hash : Text → Bool

def Label.outcome (env : Security) (argon : Argon2) (columns : KeyColumns) (accounts : Accounts)
    (label : Label) : Except Failure Accounts := do
  let after ← label.operation.outcome env columns.toColumns accounts
  let added := after.apiKeys.rows.drop accounts.apiKeys.rows.length
  if added.all fun key => columns.hash (label.hash argon key.id) then return after
  else .error .dataError

def Label.revokes (accounts : Accounts) : Label → List Uuid
  | .revokePlayer db player gmKey =>
      if (Users.revokePlayer accounts db player gmKey).isSome then [player] else []
  | _ => []

/-- The rows an operation has added are at the end. -/
def Keys.commit (s : Keys) (after : Accounts) (hash : Uuid → Text) (revoked : List Uuid) :
    Keys :=
  let added := after.apiKeys.rows.drop s.accounts.apiKeys.rows.length
  { accounts := after
    hash := fun id => if added.any (·.id = id) then hash id else s.hash id
    granted := s.granted ++ added.map fun key => ⟨key, hash key.id⟩
    revoked := s.revoked ++ revoked }

def Keys.step (env : Security) (argon : Argon2) (columns : KeyColumns) (s : Keys)
    (label : Label) : Keys :=
  match label.outcome env argon columns s.accounts with
  | .ok after => s.commit after (label.hash argon) (label.revokes s.accounts)
  | .error _ => s

end Kaeyris.Keyring
