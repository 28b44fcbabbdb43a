import Kaeyris.Campaigns
import Kaeyris.Lifecycle
import Mathlib.Logic.Function.Basic

/-!
# Foreign keys to a campaign

Memberships, characters, sessions and the default campaigns of users refer to campaigns. The
column `default_campaign_id` stands beside the machine of `Lifecycle`, with what writes it and what
the two databases do about the rows that refer to a campaign when it is deleted.
-/

namespace Kaeyris.CampaignKeys
open Lib Campaigns

/-- No `PRAGMA foreign_keys` is sent, so SQLite enforces none. -/
inductive Backend | postgresql | sqlite
  deriving DecidableEq, Repr

/-- `defaultCampaignId` is the column of the users that have a row. -/
structure Store where
  platform : Platform
  defaultCampaignId : Uuid → Option Uuid

namespace Store

def initial : Store := ⟨.initial, fun _ => none⟩

def db (s : Store) : Database := s.platform.system.db

def withDb (s : Store) (db : Database) : Store :=
  { s with platform := { s.platform with system := { s.platform.system with db := db } } }

def adopt (s : Store) (user campaign : Uuid) : Store :=
  if (s.db.users.get? user).isSome && (s.defaultCampaignId user).isNone then
    { s with defaultCampaignId := Function.update s.defaultCampaignId user (some campaign) }
  else s

def clearDefaults (s : Store) (campaign : Uuid) : Store :=
  { s with
    defaultCampaignId := fun user =>
      if s.defaultCampaignId user = some campaign then none else s.defaultCampaignId user }

/-- `ON DELETE RESTRICT` of the characters and the sessions. -/
def restricts (db : Database) (campaign : Uuid) : Bool :=
  db.pjs.rows.any (fun pj => pj.campaignId = campaign) ||
    db.sessions.rows.any fun session => session.campaignId = some campaign

/-- The row of the campaign is gone from `db`; `none` where the database raises. -/
def deleted (backend : Backend) (s : Store) (campaign : Uuid) (db : Database) : Option Store :=
  match backend with
  | .sqlite => some (s.withDb db)
  | .postgresql =>
      if restricts db campaign then none else some ((s.withDb db).clearDefaults campaign)

end Store

/-! ## Requests -/

def createCampaign (naming : Naming) (s : Store) (user : Uuid) (name : CampaignName)
    (description : Option Text) (now : Timestamp) : Except CampaignError Store := do
  let campaign := newCampaignId s.db
  let db ← Campaigns.createCampaign naming s.db campaign now user name.text description
  return (s.withDb db).adopt user campaign

def deleteCampaign (backend : Backend) (s : Store) (campaign user : Uuid) :
    Except CampaignError Store := do
  let db ← Campaigns.deleteCampaign s.db campaign user
  match s.deleted backend campaign db with
  | some s' => .ok s'
  | none => .error .integrityError

/-- `usual` is the role that goes with the user's system role. -/
def ensureUserMembership (s : Store) (user campaign : Uuid) (role : Option CampaignRole)
    (usual : CampaignRole) : Store :=
  let held := (CampaignRepository.getMembership s.db user campaign).map CampaignMember.role
  let row : CampaignMember := ⟨user, campaign, role.getD (held.getD usual)⟩
  (s.withDb { s.db with campaignMembers := s.db.campaignMembers.put row }).adopt user campaign

def handle (naming : Naming) (backend : Backend) (s : Store) :
    CampaignRequest → Except CampaignError Store
  | .create user name description now => createCampaign naming s user name description now
  | .delete user campaign => deleteCampaign backend s campaign user
  | .ensureDefault owner role now =>
      match ensureDefaultCampaign s.db owner (newCampaignId s.db) now with
      | some (campaign, db) =>
          .ok (ensureUserMembership (s.withDb db) owner campaign.id (some role) role)
      | none => .error .integrityError
  | request => (request.handle naming s.db).map s.withDb

inductive Label
  | platform (label : Platform.Label)
  | request (request : CampaignRequest)
  | ensureUserMembership (user campaign : Uuid) (role : Option CampaignRole) (usual : CampaignRole)

def step (env : Jobs.Environment) (naming : Naming) (backend : Backend) (s : Store) :
    Label → Store
  -- `create_pj` reads the column.
  | .platform (.createPj auth pj payload _) =>
      let default := auth.userId.bind s.defaultCampaignId
      { s with platform := s.platform.step env (.createPj auth pj payload default) }
  | .platform label => { s with platform := s.platform.step env label }
  | .request request =>
      match handle naming backend s request with
      | .ok s' => s'
      | .error _ => s
  | .ensureUserMembership user campaign role usual =>
      CampaignKeys.ensureUserMembership s user campaign role usual

inductive Store.Refers (s : Store) (campaign : Uuid) : Prop
  | member (row : CampaignMember) (stored : row ∈ s.db.campaignMembers.rows)
      (same : row.campaignId = campaign)
  | pj (row : Pj) (stored : row ∈ s.db.pjs.rows) (same : row.campaignId = campaign)
  | session (row : Session) (stored : row ∈ s.db.sessions.rows)
      (same : row.campaignId = some campaign)
  | user (row : User) (stored : row ∈ s.db.users.rows)
      (same : s.defaultCampaignId row.id = some campaign)

def deletionErrors : CampaignError → Bool
  | .notFound _ | .forbidden _ | .hasSessions _ => true
  | .duplicate _ | .integrityError => false

end Kaeyris.CampaignKeys
