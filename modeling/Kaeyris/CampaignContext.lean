import Kaeyris.CampaignKeys
import Kaeyris.Gm
import Kaeyris.WebSessions

/-!
# The campaign a user works in

`campaign_context.py`, and the routes by which users and campaigns come together. It stands over the
accounts of `Users` and the store of `CampaignKeys`; what becomes of sessions, characters and jobs
meanwhile is left open.
-/

namespace Kaeyris.CampaignContext
open Lib

/-- The columns of a membership that `CampaignMember` leaves out. -/
structure Joining where
  characterId : Option Uuid
  joinedAt : Timestamp
  deriving DecidableEq

structure Service where
  accounts : Users.Accounts
  keys : CampaignKeys.Store
  joining : Uuid × Uuid → Joining

structure ActiveCampaignContext where
  id : Uuid
  name : Text
  role : CampaignRole
  characterId : Option Uuid
  deriving DecidableEq

structure CampaignScope where
  campaignId : Uuid
  role : CampaignRole
  userId : Option Uuid
  characterId : Option Uuid
  deriving DecidableEq

inductive ContextError
  | membership (detail : String) | integrityError
  deriving DecidableEq

def userRow (user : Users.User) : User := ⟨user.id, user.apiKeyId⟩

theorem userIds_unique (accounts : Users.Accounts) :
    ((accounts.users.rows.map userRow).map User.id).Nodup := by
  rw [List.map_map]
  exact accounts.users.unique

def userRows (accounts : Users.Accounts) : Table Uuid User User.id :=
  ⟨accounts.users.rows.map userRow, userIds_unique accounts⟩

namespace Service

def initial (apiKeys : Indexed Uuid Text Users.ApiKey Users.ApiKey.id Users.ApiKey.name) : Service :=
  ⟨⟨.empty, .empty, apiKeys⟩, .initial, fun _ => ⟨none, 0⟩⟩

def db (s : Service) : Database := s.keys.db

def withDb (s : Service) (db : Database) : Service := { s with keys := s.keys.withDb db }

def withAccounts (s : Service) (accounts : Users.Accounts) : Service :=
  { s.withDb { s.db with users := userRows accounts } with accounts := accounts }

def join (s : Service) (user campaign : Uuid) (joining : Joining) : Service :=
  { s with joining := Function.update s.joining (user, campaign) joining }

end Service

def campaignRoleForSystemRole : Users.SystemRole → CampaignRole
  | .admin => .gm
  | .user => .pj

def ensureDefaultCampaign (s : Service) (owner : Uuid) (now : Timestamp) :
    Except ContextError (Campaign × Service) :=
  match Campaigns.getDefaultCampaign s.db with
  | some campaign => .ok (campaign, s)
  | none =>
      let campaign : Campaign :=
        ⟨Campaigns.newCampaignId s.db, Campaigns.defaultCampaignName, none, owner, now⟩
      match s.db.campaigns.insert? campaign with
      | some campaigns => .ok (campaign, s.withDb { s.db with campaigns := campaigns })
      | none => .error .integrityError

def ensureUserMembership (s : Service) (user : Users.User) (campaign : Campaign)
    (role : Option CampaignRole) (characterId : Option Uuid) (now : Timestamp) :
    Except ContextError Service :=
  let joining : Joining :=
    match CampaignRepository.getMembership s.db user.id campaign.id with
    | none => ⟨characterId, now⟩
    | some _ =>
        let held := s.joining (user.id, campaign.id)
        { held with characterId := characterId.or held.characterId }
  let keys := CampaignKeys.ensureUserMembership s.keys user.id campaign.id role
    (campaignRoleForSystemRole user.systemRole)
  if joining.characterId.all fun pj => (s.db.pjs.get? pj).map Pj.campaignId = some campaign.id then
    .ok ({ s with keys := keys }.join user.id campaign.id joining)
  else
    .error (.membership "A campaign membership character must belong to the same campaign.")

/-! ## The active campaign -/

def Service.joinedBefore (s : Service) (a b : Campaign × CampaignMember) : Prop :=
  (s.joining a.2.key).joinedAt < (s.joining b.2.key).joinedAt ∨
    (s.joining a.2.key).joinedAt = (s.joining b.2.key).joinedAt ∧ a.1.id ≤ b.1.id

instance (s : Service) : DecidableRel s.joinedBefore := fun a b =>
  inferInstanceAs (Decidable ((s.joining a.2.key).joinedAt < (s.joining b.2.key).joinedAt ∨
    (s.joining a.2.key).joinedAt = (s.joining b.2.key).joinedAt ∧ a.1.id ≤ b.1.id))

def Service.contextOf (s : Service) (joined : Campaign × CampaignMember) : ActiveCampaignContext :=
  ⟨joined.1.id, joined.1.name, joined.2.role, (s.joining joined.2.key).characterId⟩

def resolveActiveCampaignForUser (s : Service) (user : Users.User) :
    Option ActiveCampaignContext :=
  if user.status ≠ .active then none
  else
    let rows := Gm.memberships s.db user.id
    let default := rows.find? fun joined =>
      s.keys.defaultCampaignId user.id = some joined.1.id
    (default.or (rows.insertionSort s.joinedBefore).head?).map s.contextOf

/-- `role` and `pjId` are the further fields of the caller's key. -/
def resolveCampaignScopeForAuth (s : Service) (role : Users.KeyRole) (pjId : Option Uuid)
    (auth : AuthenticatedKey) : Option CampaignScope :=
  match auth.source, auth.userId with
  | .webSession, some user => do
      let user ← s.accounts.users.get? user
      let active ← resolveActiveCampaignForUser s user
      return ⟨active.id, active.role, some user.id, active.characterId⟩
  | _, _ =>
      match role, pjId with
      | .player, some pj =>
          (s.db.pjs.get? pj).map fun row => ⟨row.campaignId, .pj, none, some row.id⟩
      | _, _ => (Campaigns.getDefaultCampaign s.db).map fun campaign => ⟨campaign.id, .gm, none, none⟩

/-! ## Routes of `auth_router.py` -/

def contextFailed {α : Type} : Except ContextError α → Except AppError α :=
  Except.mapError fun _ => Me.internal

def ownerUserForAuth (accounts : Users.Accounts) (auth : AuthenticatedKey) : Option Users.User :=
  match auth.userId with
  | some user => accounts.users.get? user
  | none => accounts.users.rows.find? fun user => user.apiKeyId = some auth.id

def activeOrDefaultScope (s : Service) (auth : AuthenticatedKey) (now : Timestamp) :
    Except ContextError (Option CampaignScope × Service) :=
  match resolveCampaignScopeForAuth s .gm none auth with
  | some scope => .ok (some scope, s)
  | none =>
      match ownerUserForAuth s.accounts auth with
      | none => .ok (none, s)
      | some owner => do
          let role := campaignRoleForSystemRole owner.systemRole
          let (campaign, s) ← ensureDefaultCampaign s owner.id now
          let s ← ensureUserMembership s owner campaign (some role) none now
          return (some ⟨campaign.id, role, some owner.id, none⟩, s)

def postSetup (env : Users.Security) (s : Service) (username password : Text)
    (drawn : Users.Drawn) (draw : Users.SessionDraw) : Except AppError Service := do
  let (new, accounts) ← Users.raised ""
    (Users.createFirstGm env.toHashing s.accounts drawn username password)
  let (campaign, s) ← contextFailed
    (ensureDefaultCampaign (s.withAccounts accounts) new.user.id drawn.now)
  let s ← contextFailed (ensureUserMembership s new.user campaign none none drawn.now)
  let accounts ← Users.raised "" (Users.createWebSession env s.accounts new.user draw)
  return s.withAccounts accounts

def postUser (env : Users.Security) (s : Service) (credentials : Users.Credentials)
    (username : Text) (systemRole : Users.SystemRole) (password : Text) (drawn : Users.Drawn) :
    Except AppError Service := do
  let (auth, accounts) ← Users.requireGm env s.accounts credentials drawn.now
  let _ ← Users.requireAdminUser accounts auth
  let (new, accounts) ← Users.raised ""
    (Users.createUser env.toHashing accounts drawn username (some systemRole) none password)
  let (scope, s) ← contextFailed (activeOrDefaultScope (s.withAccounts accounts) auth drawn.now)
  match scope.bind fun scope => CampaignRepository.get s.db scope.campaignId with
  | none => return s
  | some campaign =>
      contextFailed (ensureUserMembership s new.user campaign (some .pj) none drawn.now)

structure AuthMeOut where
  userId : Uuid
  username : Text
  systemRole : Users.SystemRole
  activeCampaign : Option ActiveCampaignContext
  deriving DecidableEq

def getMe (env : Users.Security) (s : Service) (cookie : Option Text) (now : Timestamp) :
    Except AppError AuthMeOut :=
  match cookie with
  | none | some [] => .error Users.unauthorized
  | some token =>
      match Users.validateWebSession env s.accounts token now with
      | none => .error Users.unauthorized
      | some found =>
          .ok ⟨found.user.id, found.user.username, found.user.systemRole,
            resolveActiveCampaignForUser s found.user⟩

/-! ## The machine -/

/-- The registry of keys answers with API keys. -/
def ofRegistry (credentials : Users.Credentials) : Users.Credentials :=
  { credentials with
    bearer := credentials.bearer.map fun answer =>
      answer.map fun (role, key) => (role, ⟨key.id, .apiKey, none⟩) }

def handleAccount (env : Users.Security) (s : Service) :
    Users.AccountRequest → Except AppError Service
  | .setup username password drawn draw => postSetup env s username password drawn draw
  | .createUser credentials username systemRole password drawn =>
      postUser env s (ofRegistry credentials) username systemRole password drawn
  | request => (request.handle env s.accounts).map fun reply => s.withAccounts reply.accounts

def createCampaign (naming : Naming) (s : Service) (user : Uuid) (name : Campaigns.CampaignName)
    (description : Option Text) (now : Timestamp) : Except CampaignError Service :=
  (CampaignKeys.createCampaign naming s.keys user name description now).map fun keys =>
    { s with keys := keys }.join user (Campaigns.newCampaignId s.db) ⟨none, now⟩

def patchCampaign (naming : Naming) (s : Service) (user campaign : Uuid)
    (name : Option Campaigns.CampaignName) (description : Option (Option Text)) :
    Except CampaignError Service :=
  (Campaigns.updateCampaign naming s.db campaign user (name.map Campaigns.CampaignName.text)
    description).map s.withDb

def deleteCampaign (backend : CampaignKeys.Backend) (s : Service) (user campaign : Uuid) :
    Except CampaignError Service :=
  (CampaignKeys.deleteCampaign backend s.keys campaign user).map fun keys => { s with keys := keys }

inductive CampaignRoute
  | create (name : Campaigns.CampaignName) (description : Option Text)
  | patch (campaign : Uuid) (name : Option Campaigns.CampaignName)
      (description : Option (Option Text))
  | delete (campaign : Uuid)

def CampaignRoute.handle (naming : Naming) (backend : CampaignKeys.Backend) (s : Service)
    (user : Uuid) (now : Timestamp) : CampaignRoute → Except CampaignError Service
  | .create name description => createCampaign naming s user name description now
  | .patch campaign name description => patchCampaign naming s user campaign name description
  | .delete campaign => deleteCampaign backend s user campaign

def mapCampaignError : CampaignError → AppError
  | .notFound detail => ⟨404, "campaign-not-found", detail⟩
  | .forbidden detail => Gm.campaignForbidden detail
  | .duplicate detail => ⟨409, "duplicate-campaign", detail⟩
  | .hasSessions detail => ⟨409, "campaign-has-sessions", detail⟩
  | .integrityError => Me.internal

/-- A campaign route authenticates, which is committed with what it does. -/
def handleCampaign (env : Users.Security) (naming : Naming) (backend : CampaignKeys.Backend)
    (s : Service) (credentials : Users.Credentials) (route : CampaignRoute) (now : Timestamp) :
    Except AppError Service := do
  let ((_, auth), accounts) ← Users.requireApiKey env s.accounts (ofRegistry credentials) now
  let user ← Gm.webUserId auth
  (route.handle naming backend (s.withAccounts accounts) user now).mapError mapCampaignError

inductive Label
  | account (request : Users.AccountRequest)
  | campaign (credentials : Users.Credentials) (route : CampaignRoute) (now : Timestamp)
  /-- What is written to the tables that accounts and campaigns do not own. -/
  | others (db : Database)

def committed {ε : Type} (s : Service) : Except ε Service → Service
  | .ok s' => s'
  | .error _ => s

def step (env : Users.Security) (naming : Naming) (backend : CampaignKeys.Backend) (s : Service) :
    Label → Service
  | .account request => committed s (handleAccount env s request)
  | .campaign credentials route now =>
      committed s (handleCampaign env naming backend s credentials route now)
  | .others db =>
      s.withDb
        { db with
          users := s.db.users
          campaigns := s.db.campaigns
          campaignMembers := s.db.campaignMembers }

end Kaeyris.CampaignContext
