import Kaeyris.System

/-!
# Sessions and characters come and go

The routes that create, change and delete sessions and characters, and the machine of `System` with
these routes beside it. Foreign keys are left out: whatever a store that enforces them does, one
that does not may do as well.
-/

namespace Kaeyris
open Lib

namespace Rq

def cancel (rq : Rq) (job : JobId) : Rq :=
  rq.update (fun row => row.id = job) fun row => { row with status := .canceled }

/-- A job whose worker obeyed a stop command is not retried. -/
def stop (rq : Rq) (job : JobId) : Rq :=
  rq.update (fun row => row.id = job) fun row => { row with status := .stopped }

end Rq

namespace PjRepository

def create (db : Database) (row : Pj) : Option Database :=
  (db.pjs.insertAll? [row]).map fun pjs => { db with pjs := pjs }

def flushUpdate (db : Database) (pj : Uuid) (name : Text) : Option Database :=
  (db.pjs.update? (fun row => row.id = pj) fun row => { row with name := name }).map
    fun pjs => { db with pjs := pjs }

end PjRepository

namespace SessionRepository

def create (db : Database) (row : Session) : Option Database :=
  (db.sessions.insert? row).map fun sessions => { db with sessions := sessions }

def updateCampaignContext (db : Database) (session : Uuid) (context : Option Text) : Database :=
  { db with
    sessions := db.sessions.update (fun row => row.id = session)
      fun row => { row with campaignContext := context } }

def delete (db : Database) (session : Uuid) : Database :=
  { db with
    sessions := db.sessions.delete fun row => row.id = session
    audioSources := db.audioSources.delete fun row => row.sessionId = session
    transcriptions := db.transcriptions.delete fun row => row.sessionId = session
    mappings := db.mappings.delete fun row => row.sessionId = session
    artifacts := db.artifacts.delete fun row => row.sessionId = session
    jobs := db.jobs.delete fun row => row.sessionId = session
    chunks := db.chunks.delete fun row => row.sessionId = session
    players := db.players.delete fun row => row.sessionId = session }

end SessionRepository

/-! ## Characters -/

inductive PjError
  | duplicate (detail : String)
  | campaignResolution (detail : String)
  | forbidden (detail : String)
  | campaignAccess (detail : String)
  | assignment (detail : String)
  deriving DecidableEq

structure PjCreate where
  name : Text
  campaignId : Option Uuid
  userId : Option Uuid
  nonEmpty : 1 ≤ name.length
  bounded : name.length ≤ 255

/-- `none` stands for a field that the body leaves out. -/
structure PjUpdate where
  name : Option Text
  userId : Option (Option Uuid)
  nonEmpty : ∀ text ∈ name, 1 ≤ text.length
  bounded : ∀ text ∈ name, text.length ≤ 255

namespace Logic

def requireCampaignGm (db : Database) (user campaign : Uuid) : Except PjError Unit :=
  match CampaignRepository.getMembership db user campaign with
  | none => .error (.campaignAccess "User is not a member of this campaign.")
  | some member =>
      if member.role = .gm then .ok ()
      else .error (.campaignAccess "User is not GM of this campaign.")

def requireRequesterGm (db : Database) (requester : Option Uuid) (campaign : Uuid) :
    Except PjError Unit :=
  match requester with
  | none => .ok ()
  | some user => requireCampaignGm db user campaign

def requireAssigned (db : Database) : Option Uuid → Except PjError Unit
  | none => .ok ()
  | some user =>
      if (db.users.get? user).isSome then .ok () else .error (.assignment s!"User {user} not found.")

/-- `defaultCampaign` is the column `default_campaign_id` of the requester. -/
def resolvePjCampaign (db : Database) (campaign requester defaultCampaign : Option Uuid) :
    Except PjError Uuid :=
  match requester with
  | none =>
      match campaign with
      | none => .error (.campaignResolution "A campaign_id is required to create a PJ.")
      | some campaign => .ok campaign
  | some user =>
      if (db.users.get? user).isNone then
        .error (.forbidden "A web user is required to create a PJ.")
      else
        match campaign.or defaultCampaign with
        | none => .error (.campaignResolution
            "No campaign_id was provided and the user has no default campaign.")
        | some campaign => (requireCampaignGm db user campaign).map fun _ => campaign

def duplicatePj (name : Text) : PjError :=
  .duplicate ("This campaign already has a PJ named " ++ quoted (String.ofList name) ++ ".")

def createPj (db : Database) (pj : Uuid) (payload : PjCreate) (gmKey : Uuid)
    (requester defaultCampaign : Option Uuid) : Except PjError Database := do
  let campaign ← resolvePjCampaign db payload.campaignId requester defaultCampaign
  requireAssigned db payload.userId
  match PjRepository.create db ⟨pj, payload.name, gmKey, campaign⟩ with
  | some db' => return db'
  | none => throw (duplicatePj payload.name)

/-- `none` when the character is not the game master's. -/
def updatePj (db : Database) (pj : Uuid) (payload : PjUpdate) (gmKey : Uuid)
    (requester : Option Uuid) : Except PjError (Option Database) :=
  match PjRepository.findByIdOwnedBy db pj gmKey none with
  | none => .ok none
  | some row => do
      requireRequesterGm db requester row.campaignId
      requireAssigned db (payload.userId.getD none)
      let name := payload.name.getD row.name
      match PjRepository.flushUpdate db pj name with
      | some db' => return some db'
      | none => throw (duplicatePj name)

/-- `_abort_active_session_job`: the queue, and the job that was sent a stop command. -/
def abortActiveSessionJob (rq : Rq) (session : Session) : Rq × Option JobId :=
  match session.currentJobId.bind rq.get? with
  | none => (rq, none)
  | some job =>
      if !job.status.active then (rq, none)
      else if job.status = .started then (rq, some job.id)
      else (rq.cancel job.id, none)

end Logic

/-! ## Routes -/

structure SessionCreate where
  campaignId : Uuid
  transcriptionMode : Option TranscriptionMode
  campaignContext : Option Text
  bounded : ∀ text ∈ campaignContext, text.length ≤ 8000

/-- `mentionsMode` tells that the raw body has a key `transcription_mode`. -/
structure SessionUpdate where
  campaignContext : Option (Option Text)
  mentionsMode : Bool
  bounded : ∀ context ∈ campaignContext, ∀ text ∈ context, text.length ≤ 8000

def SessionCreate.row (payload : SessionCreate) (session gmKey : Uuid) : Session where
  id := session
  gmKeyId := gmKey
  campaignId := some payload.campaignId
  state := .created
  transcriptionMode := payload.transcriptionMode.getD .diarised
  campaignContext := payload.campaignContext
  editedTranscriptMd := none
  currentJobId := none

namespace Router

def requireGmMembership (db : Database) (auth : AuthenticatedKey) (campaign : Uuid) :
    Except AppError Unit :=
  match auth.userId with
  | none => .ok ()
  | some user =>
      require ((CampaignRepository.getMembership db user campaign).any fun member =>
          member.role = .gm)
        ⟨403, "campaign-forbidden", "This endpoint requires GM membership for the campaign."⟩

def createSession (session : Uuid) (payload : SessionCreate) (db : Database)
    (auth : AuthenticatedKey) : Except AppError Database := do
  requireGmMembership db auth payload.campaignId
  match SessionRepository.create db (payload.row session auth.id) with
  | some db' => return db'
  | none => throw ⟨500, "internal", "An unexpected error occurred."⟩

def patchSession (payload : SessionUpdate) (db : Database) (auth : AuthenticatedKey)
    (session : Uuid) : Except AppError Database := do
  require (!payload.mentionsMode)
    ⟨422, "immutable-field", "transcription_mode is immutable after session creation."⟩
  let row ← requireSession db session auth
  match payload.campaignContext with
  | none => return db
  | some context => return SessionRepository.updateCampaignContext db row.id context

def deleteSession (db : Database) (rq : Rq) (auth : AuthenticatedKey) (session : Uuid) :
    Except AppError (Database × Rq × Option JobId) := do
  let row ← requireSession db session auth
  let (rq', stopped) := Logic.abortActiveSessionJob rq row
  return (SessionRepository.delete db row.id, rq', stopped)

/-- The two routes answer a lack of rights with different errors. -/
def ofPj (denied : String → AppError) : PjError → AppError
  | .duplicate detail => ⟨409, "duplicate-pj", detail⟩
  | .campaignResolution detail => ⟨422, "pj-campaign-required", detail⟩
  | .forbidden detail | .campaignAccess detail => denied detail
  | .assignment detail => ⟨422, "invalid-user", detail⟩

def createPj (pj : Uuid) (payload : PjCreate) (defaultCampaign : Option Uuid) (db : Database)
    (auth : AuthenticatedKey) : Except AppError Database :=
  (Logic.createPj db pj payload auth.id auth.userId defaultCampaign).mapError
    (ofPj fun detail => ⟨403, "pj-forbidden", detail⟩)

def pjNotFound (detail : String) : AppError := ⟨404, "pj-not-found", detail⟩

def updatePj (pj : Uuid) (payload : PjUpdate) (db : Database) (auth : AuthenticatedKey) :
    Except AppError Database := do
  let updated ← (Logic.updatePj db pj payload auth.id auth.userId).mapError (ofPj pjNotFound)
  match updated with
  | some db' => return db'
  | none => throw (pjNotFound s!"PJ {pj} not found.")

end Router

/-! ## The machine -/

/-- `created` only records history: the row of each session at its creation. `stopping` holds the
jobs whose workers were sent a stop command. -/
structure Platform where
  system : System
  created : Table Uuid Session Session.id
  stopping : JobId → Bool

namespace Platform

def initial : Platform := ⟨.initial .empty, .empty, fun _ => false⟩

structure Accounts where
  users : Table Uuid User User.id
  campaigns : Table Uuid Campaign Campaign.id
  campaignMembers : Table (Uuid × Uuid) CampaignMember CampaignMember.key
  modelSettings : Table Uuid ModelSettings ModelSettings.userId

inductive Label
  | system (label : Kaeyris.Label)
  | createSession (auth : AuthenticatedKey) (session : Uuid) (payload : SessionCreate)
  | patchSession (auth : AuthenticatedKey) (session : Uuid) (payload : SessionUpdate)
  | deleteSession (auth : AuthenticatedKey) (session : Uuid)
  | createPj (auth : AuthenticatedKey) (pj : Uuid) (payload : PjCreate)
      (defaultCampaign : Option Uuid)
  | updatePj (auth : AuthenticatedKey) (pj : Uuid) (payload : PjUpdate)
  | accounts (accounts : Accounts)
  | stop (job : JobId)

def commit (s : Platform) : Except AppError Database → Platform
  | .ok db => { s with system := { s.system with db := db } }
  | .error _ => s

/-- The identifier is a UUID that was never drawn before. -/
def createSession (s : Platform) (auth : AuthenticatedKey) (session : Uuid)
    (payload : SessionCreate) : Platform :=
  match s.created.insert? (payload.row session auth.id) with
  | none => s
  | some created =>
      match Router.createSession session payload s.system.db auth with
      | .ok db => { s with system := { s.system with db := db }, created := created }
      | .error _ => s

def deleteSession (s : Platform) (auth : AuthenticatedKey) (session : Uuid) : Platform :=
  match Router.deleteSession s.system.db s.system.rq auth session with
  | .ok (db, rq, stopped) =>
      { s with
        system := { s.system with db := db, rq := rq }
        stopping := fun job => stopped = some job || s.stopping job }
  | .error _ => s

def withAccounts (db : Database) (accounts : Accounts) : Database :=
  { db with
    users := accounts.users
    campaigns := accounts.campaigns
    campaignMembers := accounts.campaignMembers
    modelSettings := accounts.modelSettings }

def stop (s : Platform) (job : JobId) : Platform :=
  if s.stopping job && (s.system.attempts.get? job).isSome then
    { s with
      system := { s.system with
        rq := s.system.rq.stop job
        attempts := s.system.attempts.delete fun a => a.job = job } }
  else s

def step (env : Jobs.Environment) (s : Platform) : Label → Platform
  | .system label => { s with system := s.system.step env label }
  | .createSession auth session payload => s.createSession auth session payload
  | .patchSession auth session payload =>
      s.commit (Router.patchSession payload s.system.db auth session)
  | .deleteSession auth session => s.deleteSession auth session
  | .createPj auth pj payload defaultCampaign =>
      s.commit (Router.createPj pj payload defaultCampaign s.system.db auth)
  | .updatePj auth pj payload => s.commit (Router.updatePj pj payload s.system.db auth)
  | .accounts accounts =>
      { s with system := { s.system with db := withAccounts s.system.db accounts } }
  | .stop job => s.stop job

end Platform

end Kaeyris
