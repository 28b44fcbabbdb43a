import Kaeyris.Lib.Transition
import Kaeyris.Router

/-!
# Campaigns

The campaign routes of `router.py` with what they call in `logic.py` and `repositories.py`, and the
default campaign of `campaign_context.py`. The name of a new campaign is compared in the database
with the names that are there.
-/

namespace Kaeyris
open Lib

/-- `str.lower`, and what `LOWER` is in the database. -/
structure Naming where
  lower : Text → Text
  sqlLower : Text → Text

namespace Naming

def normalized (env : Naming) (name : Text) : Text := env.lower (Text.strip name)

/-- `TRIM` takes spaces only. -/
def sqlTrim (s : Text) : Text := (s.dropWhile (· = ' ')).rdropWhile (· = ' ')

def stored (env : Naming) (name : Text) : Text := env.sqlLower (sqlTrim name)

/-- `LOWER` of SQLite: the other characters stay. -/
def sqliteLower (s : Text) : Text := s.map Char.toLower

end Naming

namespace CampaignRepository

def userHasCampaignNamed (env : Naming) (db : Database) (user : Uuid) (name : Text)
    (excluded : Option Uuid) : Bool :=
  db.campaigns.rows.any fun row => row.ownerUserId = user &&
    env.stored row.name = env.normalized name && excluded.all (row.id ≠ ·)

inductive NameError
  | duplicate (detail : String)
  | integrityError
  deriving DecidableEq

def duplicateName (name : Text) : NameError :=
  .duplicate ("User already has a campaign named " ++
    Logic.quoted (String.ofList (Text.strip name)) ++ ".")

def create (env : Naming) (db : Database) (campaign : Uuid) (now : Timestamp) (name : Text)
    (owner : Uuid) (description : Option Text) : Except NameError Database :=
  if userHasCampaignNamed env db owner name none then .error (duplicateName name)
  else
    match db.campaigns.insert? ⟨campaign, Text.strip name, description, owner, now⟩ with
    | some campaigns => .ok { db with campaigns := campaigns }
    | none => .error .integrityError

def addMembership (db : Database) (user campaign : Uuid) (role : CampaignRole) : Option Database :=
  (db.campaignMembers.insert? ⟨user, campaign, role⟩).map fun members =>
    { db with campaignMembers := members }

/-- The outer `none` of the description stands for a field that is left out. -/
def updateCampaign (env : Naming) (db : Database) (campaign : Campaign) (name : Option Text)
    (description : Option (Option Text)) : Except NameError Database :=
  let save (name : Text) : Database :=
    { db with
      campaigns := db.campaigns.update (fun row => row.id = campaign.id) fun row =>
        { row with name := name, description := description.getD row.description } }
  match name with
  | none => .ok (save campaign.name)
  | some name =>
      if userHasCampaignNamed env db campaign.ownerUserId name (some campaign.id) then
        .error (duplicateName name)
      else .ok (save (Text.strip name))

def countSessions (db : Database) (campaign : Uuid) : Nat :=
  (db.sessions.select fun row => row.campaignId = some campaign).length

def deleteCampaign (db : Database) (campaign : Campaign) : Database :=
  { db with
    campaigns := db.campaigns.delete fun row => row.id = campaign.id
    campaignMembers := db.campaignMembers.delete fun row => row.campaignId = campaign.id }

end CampaignRepository

/-! ## `logic.py` -/

inductive CampaignError
  | notFound (detail : String)
  | forbidden (detail : String)
  | duplicate (detail : String)
  | hasSessions (detail : String)
  | integrityError
  deriving DecidableEq

namespace Campaigns
open CampaignRepository

def ofNameError : NameError → CampaignError
  | .duplicate detail => .duplicate detail
  | .integrityError => .integrityError

def createCampaign (env : Naming) (db : Database) (campaign : Uuid) (now : Timestamp)
    (owner : Uuid) (name : Text) (description : Option Text) : Except CampaignError Database := do
  let db ← (create env db campaign now name owner description).mapError ofNameError
  match addMembership db owner campaign .gm with
  | some db => .ok db
  | none => .error .integrityError

def requireCampaign (db : Database) (campaign user : Uuid) : Except CampaignError Campaign :=
  match db.campaigns.get? campaign with
  | none => .error (.notFound s!"Campaign {campaign} not found.")
  | some row =>
      if (getMembership db user campaign).any (·.role = .gm) then .ok row
      else .error (.forbidden "User is not GM of this campaign.")

def updateCampaign (env : Naming) (db : Database) (campaign user : Uuid) (name : Option Text)
    (description : Option (Option Text)) : Except CampaignError Database := do
  let row ← requireCampaign db campaign user
  (CampaignRepository.updateCampaign env db row name description).mapError ofNameError

def deleteCampaign (db : Database) (campaign user : Uuid) : Except CampaignError Database := do
  let row ← requireCampaign db campaign user
  if 0 < countSessions db campaign then
    .error (.hasSessions "Cannot delete a campaign with sessions.")
  else .ok (CampaignRepository.deleteCampaign db row)

def defaultCampaignName : Text := "Campagne par defaut".toList

def campaignOlder (a b : Campaign) : Prop :=
  a.createdAt < b.createdAt ∨ a.createdAt = b.createdAt ∧ a.id ≤ b.id

instance : DecidableRel campaignOlder := fun a b =>
  inferInstanceAs (Decidable (a.createdAt < b.createdAt ∨ a.createdAt = b.createdAt ∧ a.id ≤ b.id))

def getDefaultCampaign (db : Database) : Option Campaign :=
  (db.campaigns.rows.insertionSort campaignOlder).head?

def ensureDefaultCampaign (db : Database) (owner campaign : Uuid) (now : Timestamp) :
    Option (Campaign × Database) :=
  match getDefaultCampaign db with
  | some row => some (row, db)
  | none =>
      let row : Campaign := ⟨campaign, defaultCampaignName, none, owner, now⟩
      (db.campaigns.insert? row).map fun campaigns => (row, { db with campaigns := campaigns })

def putMembership (db : Database) (user campaign : Uuid) (role : CampaignRole) : Database :=
  { db with campaignMembers := db.campaignMembers.put ⟨user, campaign, role⟩ }

/-! ## Requests -/

/-- A name that the schemas take; `normalize_name` strips it. -/
structure CampaignName where
  raw : Text
  nonEmpty : 1 ≤ raw.length
  bounded : raw.length ≤ 200
  content : ¬raw.Blank

def CampaignName.text (name : CampaignName) : Text := Text.strip name.raw

/-- A drawn UUID is one that nothing carries yet. -/
def newCampaignId (db : Database) : Uuid :=
  fresh (db.campaigns.rows.map Campaign.id ++
    db.campaignMembers.rows.map CampaignMember.campaignId)

/-- The web user of the request comes first. -/
inductive CampaignRequest
  | create (user : Uuid) (name : CampaignName) (description : Option Text) (now : Timestamp)
  | patch (user campaign : Uuid) (name : Option CampaignName)
      (description : Option (Option Text))
  | delete (user campaign : Uuid)
  | ensureDefault (owner : Uuid) (role : CampaignRole) (now : Timestamp)

def CampaignRequest.handle (env : Naming) (db : Database) :
    CampaignRequest → Except CampaignError Database
  | .create user name description now =>
      createCampaign env db (newCampaignId db) now user name.text description
  | .patch user campaign name description =>
      Campaigns.updateCampaign env db campaign user (name.map CampaignName.text) description
  | .delete user campaign => Campaigns.deleteCampaign db campaign user
  | .ensureDefault owner role now =>
      match ensureDefaultCampaign db owner (newCampaignId db) now with
      | some (campaign, db) => .ok (putMembership db owner campaign.id role)
      | none => .error .integrityError

def step (env : Naming) (db : Database) (request : CampaignRequest) : Database :=
  match request.handle env db with
  | .ok db' => db'
  | .error _ => db

def initial (db : Database) : Database := { db with campaigns := .empty }

end Campaigns

end Kaeyris
