import Kaeyris.CampaignContext
import Kaeyris.Proof.Campaigns
import Kaeyris.Proof.GmIsolation
import Kaeyris.Proof.WebSessions
import Mathlib.Logic.Relation

/-!
# What requests do to memberships

Every step of the machine is a sequence of moves: accounts change, a campaign is founded, renamed or
dropped, a user joins one. A membership is made once and stays as it is until its campaign is
dropped.
-/

namespace Kaeyris.CampaignContext
open Lib Proof

/-! ## Users -/

def Known (accounts : Users.Accounts) (user : Uuid) : Prop := (accounts.users.get? user).isSome

def SameUsers (accounts accounts' : Users.Accounts) : Prop :=
  ∀ user, (accounts'.users.get? user).isSome = (accounts.users.get? user).isSome

section Users
variable {env : Users.Security} {accounts after : Users.Accounts} {now : Timestamp}

theorem sameUsers_of_eq (same : after.users = accounts.users) : SameUsers accounts after := by
  intro user
  rw [same]

theorem SameUsers.trans {later : Users.Accounts} (first : SameUsers accounts after)
    (second : SameUsers after later) : SameUsers accounts later := fun user =>
  (second user).trans (first user)

theorem SameUsers.known (same : SameUsers accounts after) {user : Uuid} :
    Known after user ↔ Known accounts user := by
  unfold Known
  rw [same user]

theorem sameUsers_update {p : Users.User → Bool} {f : Users.User → Users.User}
    (rows : after.users.rows = accounts.users.rows.map fun row => if p row then f row else row)
    (keeps : ∀ row, (f row).id = row.id) : SameUsers accounts after := by
  have updated : after.users.toTable = accounts.users.toTable.update p f keeps := Table.ext rows
  intro user
  rw [updated, Table.get?_update, Option.isSome_map]

theorem users_requireApiKey {credentials : Users.Credentials}
    {auth : Users.KeyRole × AuthenticatedKey}
    (done : Users.requireApiKey env accounts credentials now = .ok (auth, after)) :
    after.users = accounts.users := by
  unfold Users.requireApiKey at done
  split at done
  · obtain ⟨_, -, same⟩ := except_map_ok done
    cases same
    rfl
  · split at done
    · cases done
      rfl
    · cases done
  · cases done

theorem requireGm_ok {credentials : Users.Credentials} {auth : AuthenticatedKey}
    (done : Users.requireGm env accounts credentials now = .ok (auth, after)) :
    ∃ role, Users.requireApiKey env accounts credentials now = .ok ((role, auth), after) := by
  obtain ⟨⟨⟨role, key⟩, seen⟩, authenticated, done⟩ := except_bind_ok done
  obtain ⟨_, -, done⟩ := except_bind_ok done
  cases done
  exact ⟨role, authenticated⟩

theorem sameUsers_createWebSession {user : Users.User} {draw : Users.SessionDraw}
    (done : Users.createWebSession env accounts user draw = .ok after) :
    SameUsers accounts after := by
  unfold Users.createWebSession at done
  split at done
  · cases done
    exact sameUsers_update rfl fun _ => rfl
  · cases done

theorem sameUsers_changeUser {hashing : Users.Hashing} {user apiKeyId : Uuid}
    {change : Users.Change}
    (done : Users.changeUser hashing accounts user apiKeyId now change = .ok after) :
    SameUsers accounts after := by
  obtain ⟨_, -, checked⟩ := except_bind_ok done
  obtain ⟨_, -, allowed⟩ := except_bind_ok checked
  obtain ⟨e, -, written⟩ := except_bind_ok allowed
  cases flushed : e.flush accounts with
  | none =>
      rw [flushed] at written
      cases written
  | some result =>
      rw [flushed] at written
      cases written
      obtain ⟨_, -, rfl⟩ := Option.map_eq_some_iff.mp flushed
      exact sameUsers_update rfl fun _ => rfl

theorem sameUsers_postLogin {username password : Text} {draw : Users.SessionDraw}
    {reply : Users.Reply}
    (done : Users.postLogin env accounts username password draw = .ok reply) :
    SameUsers accounts reply.accounts := by
  obtain ⟨answer, authenticated, done⟩ := except_bind_ok done
  cases answer with
  | none =>
      cases done
      exact sameUsers_of_eq rfl
  | some found =>
      obtain ⟨user, ensured⟩ := found
      obtain ⟨opened, created, done⟩ := except_bind_ok done
      cases done
      obtain ⟨_, -, authenticated⟩ := except_bind_ok (except_mapError_ok authenticated)
      split at authenticated
      · cases authenticated
      · split at authenticated
        · obtain ⟨⟨keyed, _⟩, added, authenticated⟩ := except_bind_ok authenticated
          cases authenticated
          obtain ⟨-, -, users⟩ := Proof.ensureJdrApiKey_ok added
          exact (sameUsers_of_eq users).trans
            (sameUsers_createWebSession (except_mapError_ok created))
        · cases authenticated

def creates : Users.AccountRequest → Bool
  | .setup _ _ _ _ | .createUser _ _ _ _ _ => true
  | _ => false

theorem sameUsers_handle {request : Users.AccountRequest} {reply : Users.Reply}
    (other : creates request = false) (done : request.handle env accounts = .ok reply) :
    SameUsers accounts reply.accounts := by
  cases request with
  | setup | createUser => cases other
  | login username password draw => exact sameUsers_postLogin done
  | logout credentials now =>
      obtain ⟨⟨_, seen⟩, authenticated, done⟩ := except_bind_ok done
      have users := sameUsers_of_eq (users_requireApiKey authenticated)
      dsimp only at done
      split at done <;> cases done <;> exact users
  | patchUser credentials user payload apiKeyId now =>
      obtain ⟨⟨_, seen⟩, authenticated, done⟩ := except_bind_ok done
      obtain ⟨_, -, done⟩ := except_bind_ok done
      obtain ⟨_, changed, done⟩ := except_bind_ok done
      cases done
      obtain ⟨_, authenticated⟩ := requireGm_ok authenticated
      exact (sameUsers_of_eq (users_requireApiKey authenticated)).trans
        (sameUsers_changeUser (except_mapError_ok changed))
  | deleteUser credentials user apiKeyId now =>
      obtain ⟨⟨_, seen⟩, authenticated, done⟩ := except_bind_ok done
      obtain ⟨_, -, done⟩ := except_bind_ok done
      obtain ⟨_, changed, done⟩ := except_bind_ok done
      cases done
      obtain ⟨_, authenticated⟩ := requireGm_ok authenticated
      exact (sameUsers_of_eq (users_requireApiKey authenticated)).trans
        (sameUsers_changeUser (except_mapError_ok changed))
  | other credentials now =>
      obtain ⟨⟨_, seen⟩, authenticated, done⟩ := except_bind_ok done
      cases done
      exact sameUsers_of_eq (users_requireApiKey authenticated)

theorem users_createUser {hashing : Users.Hashing} {drawn : Users.Drawn} {username password : Text}
    {systemRole : Option Users.SystemRole} {profile : Option Users.Profile} {new : Users.NewUser}
    (done : Users.createUser hashing accounts drawn username systemRole profile password =
      .ok (new, after)) :
    ¬Known accounts new.user.id ∧ ∀ user, after.users.get? user =
      if new.user.id = user then some new.user else accounts.users.get? user := by
  obtain ⟨made, -, done⟩ := except_bind_ok done
  cases inserted : made.insert accounts with
  | none =>
      rw [inserted] at done
      cases done
  | some result =>
      rw [inserted] at done
      cases done
      obtain ⟨apiKeys, -, inserted⟩ := Option.bind_eq_some_iff.mp inserted
      obtain ⟨users, added, same⟩ := Option.bind_eq_some_iff.mp inserted
      cases same
      have rows := Indexed.insertAll?_eq_some.mp added
      have free : accounts.users.get? new.user.id = none := by
        have unique := users.unique
        rw [rows, List.map_append, List.nodup_append'] at unique
        rw [Table.get?_eq_none]
        intro row member same
        have apart := unique.2.2 (List.mem_map_of_mem member)
        simp [same] at apart
      refine ⟨by simp [Known, free], fun user => ?_⟩
      have inserted : accounts.users.toTable.insert? new.user = some users.toTable :=
        Table.insert?_eq_some.mpr ⟨free, rows⟩
      exact Table.get?_insert? inserted user

end Users

/-! ## Moves -/

/-- An administrator who is a member of nothing. -/
def Unplaced (s : Service) (user : Uuid) : Prop :=
  ∃ row, s.accounts.users.get? user = some row ∧ row.systemRole = .admin ∧ row.status = .active ∧
    ∀ campaign, CampaignRepository.getMembership s.db user campaign = none

/-- Such a one asks for a new user. -/
def Raised (env : Users.Security) (s : Service) (credentials : Users.Credentials) (now : Timestamp)
    (user : Uuid) : Prop :=
  Unplaced s user ∧ ∃ auth seen,
    Users.requireGm env s.accounts (ofRegistry credentials) now = .ok (auth, seen) ∧
      auth.userId = some user

def Owns (s : Service) (user campaign : Uuid) : Prop :=
  ∃ row, s.db.campaigns.get? campaign = some row ∧ row.ownerUserId = user

def enrolled (s : Service) (user campaign : Uuid) (role : CampaignRole) (now : Timestamp) :
    Service :=
  { s with
    keys := CampaignKeys.ensureUserMembership s.keys user campaign (some role) role }.join user
      campaign ⟨none, now⟩

/-- A part of a step. It drops `dropped` at most, and makes no game masters but the owner and those
it raises. -/
inductive Move (raised : Uuid → Prop) (dropped : Option Uuid) (s : Service) : Service → Prop
  | accounts (accounts : Users.Accounts)
      (grown : ∀ user, Known s.accounts user → Known accounts user) :
      Move raised dropped s (s.withAccounts accounts)
  | found (campaign : Campaign) (campaigns : Table Uuid Campaign Campaign.id)
      (owner : Known s.accounts campaign.ownerUserId)
      (inserted : s.db.campaigns.insert? campaign = some campaigns) :
      Move raised dropped s (s.withDb { s.db with campaigns := campaigns })
  | rename (campaign : Uuid) (f : Campaign → Campaign) (keeps : ∀ row, (f row).id = row.id)
      (owner : ∀ row, (f row).ownerUserId = row.ownerUserId) :
      Move raised dropped s (s.withDb
        { s.db with
          campaigns := s.db.campaigns.update (fun row => row.id = campaign) f keeps })
  | enrol (user campaign : Uuid) (role : CampaignRole) (now : Timestamp)
      (known : Known s.accounts user) (present : (s.db.campaigns.get? campaign).isSome)
      (absent : CampaignRepository.getMembership s.db user campaign = none)
      (right : role = .gm → Owns s user campaign ∨ raised user) :
      Move raised dropped s (enrolled s user campaign role now)
  | drop (row : Campaign) (keys : CampaignKeys.Store) (chosen : dropped = some row.id)
      (found : s.db.campaigns.get? row.id = some row)
      (db : keys.db = CampaignRepository.deleteCampaign s.db row)
      (defaults : ∀ user, keys.defaultCampaignId user = s.keys.defaultCampaignId user ∨
        s.keys.defaultCampaignId user = some row.id) :
      Move raised dropped s { s with keys := keys }
  | others (db : Database) (users : db.users = s.db.users) (campaigns : db.campaigns = s.db.campaigns)
      (members : db.campaignMembers = s.db.campaignMembers) :
      Move raised dropped s (s.withDb db)

/-- Memberships are those of users in campaigns, and no character goes with them. -/
structure Rooted (s : Service) : Prop where
  shared : s.db.users = userRows s.accounts
  known : ∀ user campaign member,
    CampaignRepository.getMembership s.db user campaign = some member → Known s.accounts user
  present : ∀ user campaign member,
    CampaignRepository.getMembership s.db user campaign = some member →
      (s.db.campaigns.get? campaign).isSome
  owned : ∀ campaign row, s.db.campaigns.get? campaign = some row →
    Known s.accounts row.ownerUserId
  plain : ∀ user campaign member,
    CampaignRepository.getMembership s.db user campaign = some member →
      (s.joining (user, campaign)).characterId = none
  homed : ∀ user campaign, s.keys.defaultCampaignId user = some campaign → Known s.accounts user

theorem rooted_initial (apiKeys : Indexed Uuid Text Users.ApiKey Users.ApiKey.id Users.ApiKey.name) :
    Rooted (.initial apiKeys) where
  shared := rfl
  known := by
    intro user campaign member found
    cases found
  present := by
    intro user campaign member found
    cases found
  owned := by
    intro campaign row found
    cases found
  plain := by
    intro user campaign member found
    cases found
  homed := by
    intro user campaign taken
    cases taken

section Moves
variable {raised : Uuid → Prop} {s s' : Service} {dropped : Option Uuid} {user campaign : Uuid}

theorem get?_userRows (accounts : Users.Accounts) (user : Uuid) :
    (userRows accounts).get? user = (accounts.users.get? user).map userRow := by
  unfold userRows Table.get?
  dsimp only
  rw [List.find?_map]
  rfl

@[simp] theorem campaigns_enrolled (role : CampaignRole) (now : Timestamp) :
    (enrolled s user campaign role now).db.campaigns = s.db.campaigns := by
  unfold enrolled CampaignKeys.ensureUserMembership CampaignKeys.Store.adopt Service.join Service.db
  dsimp only
  split <;> rfl

@[simp] theorem users_enrolled (role : CampaignRole) (now : Timestamp) :
    (enrolled s user campaign role now).db.users = s.db.users := by
  unfold enrolled CampaignKeys.ensureUserMembership CampaignKeys.Store.adopt Service.join Service.db
  dsimp only
  split <;> rfl

theorem getMembership_enrolled (role : CampaignRole) (now : Timestamp) (other target : Uuid) :
    CampaignRepository.getMembership (enrolled s user campaign role now).db other target =
      if user = other ∧ campaign = target then some ⟨user, campaign, role⟩
      else CampaignRepository.getMembership s.db other target := by
  have members : (enrolled s user campaign role now).db.campaignMembers =
      s.db.campaignMembers.put ⟨user, campaign, role⟩ := by
    unfold enrolled CampaignKeys.ensureUserMembership CampaignKeys.Store.adopt Service.join
      Service.db
    dsimp only
    split <;> rfl
  unfold CampaignRepository.getMembership
  rw [members, Table.get?_put]
  simp only [CampaignMember.key, Prod.mk.injEq]

theorem joining_enrolled (role : CampaignRole) (now : Timestamp) (other target : Uuid) :
    (enrolled s user campaign role now).joining (other, target) =
      if user = other ∧ campaign = target then ⟨none, now⟩ else s.joining (other, target) := by
  unfold enrolled Service.join
  simp only [Function.update_apply, Prod.mk.injEq, eq_comm]

theorem default_enrolled (shared : s.db.users = userRows s.accounts) (known : Known s.accounts user)
    (role : CampaignRole) (now : Timestamp) (other : Uuid) :
    (enrolled s user campaign role now).keys.defaultCampaignId other =
      if other = user then (s.keys.defaultCampaignId user).or (some campaign)
      else s.keys.defaultCampaignId other := by
  have listed : (s.keys.db.users.get? user).isSome = true := by
    change (s.db.users.get? user).isSome = true
    rw [shared, get?_userRows, Option.isSome_map]
    exact known
  have adopts (t : CampaignKeys.Store) (users : t.db.users = s.keys.db.users) :
      (t.adopt user campaign).defaultCampaignId other =
        if other = user then (t.defaultCampaignId user).or (some campaign)
        else t.defaultCampaignId other := by
    unfold CampaignKeys.Store.adopt
    rw [users, listed]
    cases held : t.defaultCampaignId user with
    | none => simp [Function.update_apply]
    | some held => split <;> simp_all
  exact adopts _ rfl

theorem getMembership_deleted (db : Database) (row : Campaign) (user campaign : Uuid) :
    CampaignRepository.getMembership (CampaignRepository.deleteCampaign db row) user campaign =
      if campaign = row.id then none else CampaignRepository.getMembership db user campaign := by
  have deleted := Table.get?_delete_key db.campaignMembers
    (fun member => member.campaignId = row.id) (fun key => key.2 = row.id) (fun _ => rfl)
    (user, campaign)
  simp only [decide_eq_true_eq] at deleted
  exact deleted

theorem campaign_deleted (db : Database) (row : Campaign) (campaign : Uuid) :
    (CampaignRepository.deleteCampaign db row).campaigns.get? campaign =
      if campaign = row.id then none else db.campaigns.get? campaign := by
  have deleted := Table.get?_delete_key db.campaigns (fun other => other.id = row.id)
    (fun key => key = row.id) (fun _ => rfl) campaign
  simp only [decide_eq_true_eq] at deleted
  exact deleted

theorem member_move (move : Move raised dropped s s') (kept : dropped ≠ some campaign)
    {member : CampaignMember}
    (found : CampaignRepository.getMembership s.db user campaign = some member) :
    CampaignRepository.getMembership s'.db user campaign = some member ∧
      s'.joining (user, campaign) = s.joining (user, campaign) := by
  cases move with
  | accounts | found | rename => exact ⟨found, rfl⟩
  | enrol other target role now known present absent right =>
      have apart : ¬(other = user ∧ target = campaign) := by
        rintro ⟨rfl, rfl⟩
        rw [absent] at found
        cases found
      rw [getMembership_enrolled, joining_enrolled, if_neg apart, if_neg apart]
      exact ⟨found, rfl⟩
  | drop row keys chosen stored db defaults =>
      have apart : campaign ≠ row.id := by
        rintro rfl
        exact kept chosen
      have after : CampaignRepository.getMembership keys.db user campaign = some member := by
        rw [db, getMembership_deleted, if_neg apart]
        exact found
      exact ⟨after, rfl⟩
  | others db users campaigns members =>
      refine ⟨?_, rfl⟩
      change db.campaignMembers.get? (user, campaign) = some member
      rw [members]
      exact found

theorem Rooted.withCampaigns (rooted : Rooted s) {campaigns : Table Uuid Campaign Campaign.id}
    (kept : ∀ campaign, (s.db.campaigns.get? campaign).isSome →
      (campaigns.get? campaign).isSome)
    (owned : ∀ campaign row, campaigns.get? campaign = some row →
      Known s.accounts row.ownerUserId) :
    Rooted (s.withDb { s.db with campaigns := campaigns }) where
  shared := rooted.shared
  known := rooted.known
  present := fun user campaign member found =>
    kept campaign (rooted.present user campaign member found)
  owned := owned
  plain := rooted.plain
  homed := rooted.homed

theorem rooted_enrolled (rooted : Rooted s) (role : CampaignRole) (now : Timestamp)
    (known : Known s.accounts user) (present : (s.db.campaigns.get? campaign).isSome) :
    Rooted (enrolled s user campaign role now) := by
  refine ⟨?_, fun other target member found => ?_, fun other target member found => ?_, ?_,
    fun other target member found => ?_, fun other target taken => ?_⟩
  · rw [users_enrolled]
    exact rooted.shared
  · rw [getMembership_enrolled] at found
    split at found
    · rename_i same
      rw [← same.1]
      exact known
    · exact rooted.known other target member found
  · rw [campaigns_enrolled]
    rw [getMembership_enrolled] at found
    split at found
    · rename_i same
      rw [← same.2]
      exact present
    · exact rooted.present other target member found
  · rw [campaigns_enrolled]
    exact rooted.owned
  · rw [joining_enrolled]
    rw [getMembership_enrolled] at found
    split at found
    · rename_i same
      rw [if_pos same]
    · rename_i apart
      rw [if_neg apart]
      exact rooted.plain other target member found
  · rw [default_enrolled rooted.shared known] at taken
    split at taken
    · rename_i same
      rw [same]
      exact known
    · exact rooted.homed other target taken

theorem rooted_dropped (rooted : Rooted s) {row : Campaign} {keys : CampaignKeys.Store}
    (db : keys.db = CampaignRepository.deleteCampaign s.db row)
    (defaults : ∀ user, keys.defaultCampaignId user = s.keys.defaultCampaignId user ∨
      s.keys.defaultCampaignId user = some row.id) :
    Rooted { s with keys := keys } := by
  have member_of {user campaign : Uuid} {member : CampaignMember}
      (found : CampaignRepository.getMembership keys.db user campaign = some member) :
      campaign ≠ row.id ∧ CampaignRepository.getMembership s.db user campaign = some member := by
    rw [db, getMembership_deleted] at found
    split at found
    · cases found
    · rename_i apart
      exact ⟨apart, found⟩
  refine ⟨?_, fun user campaign member found => ?_, fun user campaign member found => ?_,
    fun campaign other found => ?_, fun user campaign member found => ?_,
    fun user campaign taken => ?_⟩
  · change keys.db.users = _
    rw [db]
    exact rooted.shared
  · exact rooted.known user campaign member (member_of found).2
  · obtain ⟨apart, before⟩ := member_of found
    change (keys.db.campaigns.get? campaign).isSome = true
    rw [db, campaign_deleted, if_neg apart]
    exact rooted.present user campaign member before
  · change keys.db.campaigns.get? campaign = some other at found
    rw [db, campaign_deleted] at found
    split at found
    · cases found
    · exact rooted.owned campaign other found
  · exact rooted.plain user campaign member (member_of found).2
  · rcases defaults user with same | cleared
    · exact rooted.homed user campaign (same.symm.trans taken)
    · exact rooted.homed user row.id cleared

theorem rooted_move (rooted : Rooted s) (move : Move raised dropped s s') : Rooted s' := by
  cases move with
  | accounts accounts grown =>
      exact ⟨rfl, fun user campaign member found =>
          grown user (rooted.known user campaign member found),
        rooted.present, fun campaign row found => grown _ (rooted.owned campaign row found),
        rooted.plain, fun user campaign taken => grown user (rooted.homed user campaign taken)⟩
  | found campaign campaigns owner inserted =>
      have listed (target : Uuid) := Table.get?_insert? inserted target
      refine rooted.withCampaigns (fun target stored => ?_) fun target row found => ?_
      · rw [listed]
        split
        · rfl
        · exact stored
      · rw [listed] at found
        split at found
        · cases found
          exact owner
        · exact rooted.owned target row found
  | rename campaign f keeps owner =>
      have listed (target : Uuid) := Table.get?_update_key s.db.campaigns campaign f keeps target
      refine rooted.withCampaigns (fun target stored => ?_) fun target row found => ?_
      · rw [listed]
        split
        · rw [Option.isSome_map]
          exact stored
        · exact stored
      · rw [listed] at found
        split at found
        · obtain ⟨before, stored, rfl⟩ := Option.map_eq_some_iff.mp found
          rw [owner]
          exact rooted.owned target before stored
        · exact rooted.owned target row found
  | enrol user campaign role now known present absent right =>
      exact rooted_enrolled rooted role now known present
  | drop row keys chosen stored db defaults => exact rooted_dropped rooted db defaults
  | others db users campaigns members =>
      have same (user campaign : Uuid) : CampaignRepository.getMembership db user campaign =
          CampaignRepository.getMembership s.db user campaign := by
        unfold CampaignRepository.getMembership
        rw [members]
      refine ⟨users.trans rooted.shared, fun user campaign member found => ?_,
        fun user campaign member found => ?_, fun campaign row found => ?_,
        fun user campaign member found => ?_, rooted.homed⟩
      · exact rooted.known user campaign member ((same user campaign).symm.trans found)
      · change (db.campaigns.get? campaign).isSome = true
        rw [campaigns]
        exact rooted.present user campaign member ((same user campaign).symm.trans found)
      · change db.campaigns.get? campaign = some row at found
        rw [campaigns] at found
        exact rooted.owned campaign row found
      · exact rooted.plain user campaign member ((same user campaign).symm.trans found)

/-- A membership in a campaign that is the user's default besides. -/
structure Placed (user campaign : Uuid) (role : CampaignRole) (s : Service) : Prop where
  default : s.keys.defaultCampaignId user = some campaign
  member : CampaignRepository.getMembership s.db user campaign = some ⟨user, campaign, role⟩

theorem placed_move {role : CampaignRole} (rooted : Rooted s) (move : Move raised dropped s s')
    (kept : dropped ≠ some campaign) (placed : Placed user campaign role s) :
    Placed user campaign role s' := by
  refine ⟨?_, (member_move move kept placed.member).1⟩
  cases move with
  | accounts | found | rename | others => exact placed.default
  | enrol other target taken now known present absent right =>
      rw [default_enrolled rooted.shared known]
      split
      · rename_i same
        rw [← same, placed.default]
        rfl
      · exact placed.default
  | drop row keys chosen stored db defaults =>
      rcases defaults user with same | cleared
      · exact same.trans placed.default
      · rw [placed.default] at cleared
        cases cleared
        exact (kept chosen).elim

/-- Game masters own their campaigns, or are among these users. -/
def Justified (promoted : Uuid → Prop) (s : Service) : Prop :=
  ∀ user campaign, CampaignRepository.getMembership s.db user campaign = some ⟨user, campaign, .gm⟩ →
    Owns s user campaign ∨ promoted user

theorem owns_move (move : Move raised dropped s s') (owns : Owns s user campaign)
    (member : ∃ row, CampaignRepository.getMembership s'.db user campaign = some row) :
    Owns s' user campaign := by
  obtain ⟨row, stored, owner⟩ := owns
  cases move with
  | accounts => exact ⟨row, stored, owner⟩
  | found other campaigns known inserted =>
      obtain ⟨free, -⟩ := Table.insert?_eq_some.mp inserted
      refine ⟨row, ?_, owner⟩
      change campaigns.get? campaign = some row
      rw [Table.get?_insert? inserted, if_neg]
      · exact stored
      · rintro rfl
        rw [stored] at free
        cases free
  | rename target f keeps same =>
      have listed := Table.get?_update_key s.db.campaigns target f keeps campaign
      by_cases own : campaign = target
      · refine ⟨f row, ?_, (same row).trans owner⟩
        change (s.db.campaigns.update _ f keeps).get? campaign = some (f row)
        rw [listed, if_pos own, stored]
        rfl
      · refine ⟨row, ?_, owner⟩
        change (s.db.campaigns.update _ f keeps).get? campaign = some row
        rw [listed, if_neg own]
        exact stored
  | enrol =>
      refine ⟨row, ?_, owner⟩
      rw [campaigns_enrolled]
      exact stored
  | drop gone keys chosen found db defaults =>
      obtain ⟨held, found⟩ := member
      change CampaignRepository.getMembership keys.db user campaign = some held at found
      rw [db, getMembership_deleted] at found
      split at found
      · cases found
      · rename_i apart
        refine ⟨row, ?_, owner⟩
        change keys.db.campaigns.get? campaign = some row
        rw [db, campaign_deleted, if_neg apart]
        exact stored
  | others db users campaigns members =>
      refine ⟨row, ?_, owner⟩
      change db.campaigns.get? campaign = some row
      rw [campaigns]
      exact stored

theorem member_after (move : Move raised dropped s s') {member : CampaignMember}
    (found : CampaignRepository.getMembership s'.db user campaign = some member) :
    CampaignRepository.getMembership s.db user campaign = some member ∨
      member = ⟨user, campaign, member.role⟩ ∧
        (member.role = .gm → Owns s user campaign ∨ raised user) := by
  cases move with
  | accounts | found | rename => exact .inl found
  | enrol other target role now known present absent right =>
      rw [getMembership_enrolled] at found
      split at found
      · rename_i same
        obtain ⟨rfl, rfl⟩ := same
        cases found
        exact .inr ⟨rfl, right⟩
      · exact .inl found
  | drop row keys chosen stored db defaults =>
      change CampaignRepository.getMembership keys.db user campaign = some member at found
      rw [db, getMembership_deleted] at found
      split at found
      · cases found
      · exact .inl found
  | others db users campaigns members =>
      change db.campaignMembers.get? (user, campaign) = some member at found
      rw [members] at found
      exact .inl found

theorem justified_move {promoted : Uuid → Prop} (justified : Justified promoted s)
    (move : Move raised dropped s s') (among : ∀ user, raised user → promoted user) :
    Justified promoted s' := by
  intro user campaign found
  rcases member_after move found with before | ⟨-, right⟩
  · exact (justified user campaign before).imp_left fun owns => owns_move move owns ⟨_, found⟩
  · rcases right rfl with owns | unplaced
    · exact .inl (owns_move move owns ⟨_, found⟩)
    · exact .inr (among user unplaced)

end Moves

end Kaeyris.CampaignContext
