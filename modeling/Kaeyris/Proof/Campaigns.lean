import Kaeyris.Campaigns
import Kaeyris.Proof.Requests

/-!
# Campaign names

The application compares names after `strip` and `lower`, the database what `TRIM` and `LOWER` make
of the stored name. Names stay apart exactly as long as the two see the same names in the way.
-/

namespace Kaeyris.Proof
open Lib Campaigns CampaignRepository

def NamesApart (env : Naming) (db : Database) : Prop :=
  ∀ a ∈ db.campaigns.rows, ∀ b ∈ db.campaigns.rows, a.ownerUserId = b.ownerUserId →
    env.normalized a.name = env.normalized b.name → a.id = b.id

instance (env : Naming) : DecidablePred (NamesApart env) := fun db =>
  inferInstanceAs (Decidable (∀ a ∈ db.campaigns.rows, ∀ b ∈ db.campaigns.rows,
    a.ownerUserId = b.ownerUserId → env.normalized a.name = env.normalized b.name → a.id = b.id))

/-- One of the owner's other campaigns has the name. -/
def Taken (env : Naming) (db : Database) (owner : Uuid) (other : Option Uuid) (name : Text) :
    Prop :=
  ∃ row ∈ db.campaigns.rows, row.ownerUserId = owner ∧ (∀ id ∈ other, row.id ≠ id) ∧
    env.normalized row.name = env.normalized name

/-- `LOWER(TRIM(name))` of one of the owner's other campaigns is the name as Python folds it. -/
def Seen (env : Naming) (db : Database) (owner : Uuid) (other : Option Uuid) (name : Text) :
    Prop :=
  ∃ row ∈ db.campaigns.rows, row.ownerUserId = owner ∧ (∀ id ∈ other, row.id ≠ id) ∧
    env.stored row.name = env.normalized name

/-- The database sees a name that is in the way, and none where only the campaign's own is. -/
def SeesNames (env : Naming) (db : Database) : CampaignRequest → Prop
  | .create user name _ _ => Taken env db user none name.text → Seen env db user none name.text
  | .patch user campaign (some name) _ => ∀ row, requireCampaign db campaign user = .ok row →
      (Taken env db row.ownerUserId (some campaign) name.text →
        Seen env db row.ownerUserId (some campaign) name.text) ∧
      (env.normalized name.text = env.normalized row.name →
        Seen env db row.ownerUserId (some campaign) name.text →
          Taken env db row.ownerUserId (some campaign) name.text)
  | _ => True

/-- A game master may give a campaign a case variant of its own name. -/
def TakesVariants (env : Naming) (db : Database) : CampaignRequest → Prop
  | .patch user campaign (some name) description => ∀ row,
      requireCampaign db campaign user = .ok row →
        env.normalized name.text = env.normalized row.name →
          ∃ db', (CampaignRequest.patch user campaign (some name) description).handle env db = .ok db'
  | _ => True

section Steps
variable {env : Naming} {db db' : Database}

theorem normalized_strip (name : Text) : env.normalized (Text.strip name) = env.normalized name :=
  congrArg env.lower (Text.strip_strip name)

theorem taken_strip {user : Uuid} {excluded : Option Uuid} {name : Text} :
    Taken env db user excluded (Text.strip name) ↔ Taken env db user excluded name := by
  simp only [Taken, normalized_strip]

theorem own_name_free (apart : NamesApart env db) {row : Campaign} {name : Text}
    (member : row ∈ db.campaigns.rows) (variant : env.normalized name = env.normalized row.name) :
    ¬Taken env db row.ownerUserId (some row.id) name := by
  rintro ⟨other, present, own, apartId, same⟩
  exact apartId _ rfl (apart other present row member own (same.trans variant))

theorem userHasCampaignNamed_iff {user : Uuid} {name : Text} {excluded : Option Uuid} :
    userHasCampaignNamed env db user name excluded = true ↔ Seen env db user excluded name := by
  simp only [userHasCampaignNamed, Seen, List.any_eq_true, Bool.and_eq_true, decide_eq_true_eq,
    and_assoc]
  constructor
  · rintro ⟨row, member, own, same, other⟩
    refine ⟨row, member, own, fun id excludes => ?_, same⟩
    cases excludes
    simpa using other
  · rintro ⟨row, member, own, other, same⟩
    refine ⟨row, member, own, same, ?_⟩
    cases excluded with
    | none => rfl
    | some id => simpa using other id rfl

theorem newCampaignId_free (db : Database) : db.campaigns.get? (newCampaignId db) = none ∧
    ∀ user, db.campaignMembers.get? (user, newCampaignId db) = none := by
  have unused : newCampaignId db ∉ db.campaigns.rows.map Campaign.id ++
      db.campaignMembers.rows.map CampaignMember.campaignId := fresh_notMem _
  rw [List.mem_append, not_or] at unused
  refine ⟨Table.get?_eq_none.mpr fun row member same => ?_, fun user =>
    Table.get?_eq_none.mpr fun row member same => ?_⟩
  · exact unused.1 (List.mem_map.mpr ⟨row, member, same⟩)
  · exact unused.2 (List.mem_map.mpr ⟨row, member, congrArg Prod.snd same⟩)

theorem create_cases (user : Uuid) (name : CampaignName) (description : Option Text)
    (now : Timestamp) :
    let request := CampaignRequest.create user name description now
    (Seen env db user none name.text ∧ step env db request = db) ∨
      (¬Seen env db user none name.text ∧ (step env db request).campaigns.rows =
        db.campaigns.rows ++
          [⟨newCampaignId db, Text.strip name.text, description, user, now⟩]) := by
  intro request
  by_cases seen : userHasCampaignNamed env db user name.text none = true
  · refine .inl ⟨userHasCampaignNamed_iff.mp seen, ?_⟩
    simp only [request, step, CampaignRequest.handle, createCampaign, create, if_pos seen]
    rfl
  · refine .inr ⟨fun found => seen (userHasCampaignNamed_iff.mpr found), ?_⟩
    obtain ⟨free, unjoined⟩ := newCampaignId_free db
    obtain ⟨campaigns, inserted, rows⟩ := Table.insert?_of_free
      (r := (⟨newCampaignId db, Text.strip name.text, description, user, now⟩ : Campaign)) free
    obtain ⟨members, joined, -⟩ := Table.insert?_of_free
      (r := (⟨user, newCampaignId db, .gm⟩ : CampaignMember)) (unjoined user)
    have created : create env db (newCampaignId db) now name.text user description =
        .ok { db with campaigns := campaigns } := by
      rw [create, if_neg seen, inserted]
    have member : addMembership { db with campaigns := campaigns } user (newCampaignId db) .gm =
        some { db with campaigns := campaigns, campaignMembers := members } := by
      rw [addMembership, joined]
      rfl
    have done : request.handle env db =
        .ok { db with campaigns := campaigns, campaignMembers := members } := by
      simp only [request, CampaignRequest.handle, createCampaign, created, Except.mapError, bind,
        Except.bind, member]
    rw [step, done]
    exact rows

theorem step_create (apart : NamesApart env db) {user : Uuid} {name : CampaignName}
    {description : Option Text} {now : Timestamp} :
    NamesApart env (step env db (.create user name description now)) ↔
      SeesNames env db (.create user name description now) := by
  change _ ↔ (Taken env db user none name.text → Seen env db user none name.text)
  rcases create_cases user name description now with ⟨seen, same⟩ | ⟨unseen, rows⟩
  · exact iff_of_true (by rw [same]; exact apart) fun _ => seen
  · constructor
    · rintro after ⟨row, member, own, -, same⟩
      have collide := after row (by rw [rows]; exact List.mem_append_left _ member)
        ⟨newCampaignId db, Text.strip name.text, description, user, now⟩
        (by rw [rows]; exact List.mem_append_right _ (List.mem_singleton_self _)) own
        (same.trans (normalized_strip _).symm)
      exact (Table.get?_eq_none.mp (newCampaignId_free _).1 row member collide).elim
    · intro sees a memberA b memberB own same
      have free : ¬Taken env db user none name.text := fun taken => unseen (sees taken)
      rw [rows] at memberA memberB
      rcases List.mem_append.mp memberA with oldA | newA <;>
        rcases List.mem_append.mp memberB with oldB | newB
      · exact apart a oldA b oldB own same
      · obtain rfl := List.mem_singleton.mp newB
        exact (free ⟨a, oldA, own, by simp, same.trans (normalized_strip _)⟩).elim
      · obtain rfl := List.mem_singleton.mp newA
        exact (free ⟨b, oldB, own.symm, by simp, same.symm.trans (normalized_strip _)⟩).elim
      · rw [List.mem_singleton.mp newA, List.mem_singleton.mp newB]

/-! ## Renaming -/

theorem requireCampaign_ok {campaign user : Uuid} {row : Campaign}
    (allowed : requireCampaign db campaign user = .ok row) :
    db.campaigns.get? campaign = some row := by
  unfold requireCampaign at allowed
  split at allowed
  · cases allowed
  · rename_i found
    split at allowed
    · cases allowed
      exact found
    · cases allowed

theorem patch_cases {user campaign : Uuid} {row : Campaign} (name : CampaignName)
    (description : Option (Option Text)) (allowed : requireCampaign db campaign user = .ok row) :
    let request := CampaignRequest.patch user campaign (some name) description
    (Seen env db row.ownerUserId (some campaign) name.text ∧
        ∃ e, request.handle env db = .error e) ∨
      (¬Seen env db row.ownerUserId (some campaign) name.text ∧
        ∃ db', request.handle env db = .ok db' ∧
          db'.campaigns.rows = db.campaigns.rows.map fun other =>
            if other.id = campaign then
              { other with
                name := Text.strip name.text
                description := description.getD other.description }
            else other) := by
  intro request
  have same : row.id = campaign := Table.key_of_get? (requireCampaign_ok allowed)
  by_cases seen : userHasCampaignNamed env db row.ownerUserId name.text (some row.id) = true
  · refine .inl ⟨userHasCampaignNamed_iff.mp (same ▸ seen), ?_⟩
    simp only [request, CampaignRequest.handle, Campaigns.updateCampaign, allowed, Option.map_some,
      CampaignRepository.updateCampaign, if_pos seen, Except.mapError, bind, Except.bind]
    exact ⟨_, rfl⟩
  · refine .inr ⟨fun found => seen (same ▸ userHasCampaignNamed_iff.mpr found), ?_⟩
    simp only [request, CampaignRequest.handle, Campaigns.updateCampaign, allowed, Option.map_some,
      CampaignRepository.updateCampaign, if_neg seen, Except.mapError, bind, Except.bind]
    refine ⟨_, rfl, ?_⟩
    simp [same]

theorem namesApart_rename (apart : NamesApart env db) {row : Campaign} {name : Text}
    {description : Option (Option Text)} (found : db.campaigns.get? row.id = some row)
    (rows : db'.campaigns.rows = db.campaigns.rows.map fun other =>
      if other.id = row.id then
        { other with name := name, description := description.getD other.description }
      else other) :
    NamesApart env db' ↔ ¬Taken env db row.ownerUserId (some row.id) name := by
  have member := Table.mem_of_get? found
  constructor
  · rintro after ⟨other, present, own, apartId, same⟩
    have different : other.id ≠ row.id := apartId _ rfl
    have kept : other ∈ db'.campaigns.rows := by
      rw [rows]
      exact List.mem_map.mpr ⟨other, present, if_neg different⟩
    have renamed : { row with name := name, description := description.getD row.description } ∈
        db'.campaigns.rows := by
      rw [rows]
      exact List.mem_map.mpr ⟨row, member, if_pos rfl⟩
    have collide := after other kept _ renamed
    exact different (collide own same)
  · intro free a memberA b memberB own same
    rw [rows] at memberA memberB
    obtain ⟨oldA, presentA, rfl⟩ := List.mem_map.mp memberA
    obtain ⟨oldB, presentB, rfl⟩ := List.mem_map.mp memberB
    have self {old : Campaign} (present : old ∈ db.campaigns.rows) (sameId : old.id = row.id) :
        old = row := by
      have stored := Table.get?_self present
      rw [sameId, found] at stored
      exact (Option.some.inj stored).symm
    by_cases chosenA : oldA.id = row.id <;> by_cases chosenB : oldB.id = row.id
    · simp [chosenA, chosenB]
    · obtain rfl := self presentA chosenA
      simp only [if_true, if_neg chosenB] at own same
      refine (free ⟨oldB, presentB, own.symm, ?_, same.symm⟩).elim
      rintro id ⟨⟩
      exact chosenB
    · obtain rfl := self presentB chosenB
      simp only [if_true, if_neg chosenA] at own same
      refine (free ⟨oldA, presentA, own, ?_, same⟩).elim
      rintro id ⟨⟩
      exact chosenA
    · simp only [if_neg chosenA, if_neg chosenB] at own same ⊢
      exact apart oldA presentA oldB presentB own same

theorem step_patch (apart : NamesApart env db) {user campaign : Uuid} {name : CampaignName}
    {description : Option (Option Text)} :
    let request := CampaignRequest.patch user campaign (some name) description
    (NamesApart env (step env db request) ∧ TakesVariants env db request) ↔
      SeesNames env db request := by
  intro request
  cases allowed : requireCampaign db campaign user with
  | error e =>
      have refused : request.handle env db = .error e := by
        simp only [request, CampaignRequest.handle, Campaigns.updateCampaign, allowed, bind,
          Except.bind]
      have idle : step env db request = db := by rw [step, refused]
      rw [idle]
      refine iff_of_true ⟨apart, fun row found => ?_⟩ fun row found => ?_
      · rw [allowed] at found
        cases found
      · rw [allowed] at found
        cases found
  | ok row =>
      have found := requireCampaign_ok allowed
      obtain rfl : row.id = campaign := Table.key_of_get? found
      -- Only this row is meant.
      have only {goal : Campaign → Prop} :
          (∀ other, requireCampaign db row.id user = .ok other → goal other) ↔ goal row := by
        rw [allowed]
        exact ⟨fun all => all row rfl, fun holds other same => Except.ok.inj same ▸ holds⟩
      change (_ ∧ ∀ other, requireCampaign db row.id user = .ok other → _) ↔
        ∀ other, requireCampaign db row.id user = .ok other → _
      rw [only, only]
      have member := Table.mem_of_get? found
      rcases patch_cases name description allowed with ⟨seen, e, refused⟩ | ⟨unseen, db', done, rows⟩
      · have idle : step env db request = db := by rw [step, refused]
        rw [idle]
        constructor
        · rintro ⟨-, takes⟩
          refine ⟨fun _ => seen, fun variant _ => ?_⟩
          obtain ⟨db', done⟩ := takes variant
          rw [refused] at done
          cases done
        · rintro ⟨-, visible⟩
          exact ⟨apart, fun variant =>
            (own_name_free apart member variant (visible variant seen)).elim⟩
      · have next : step env db request = db' := by rw [step, done]
        rw [next, namesApart_rename apart found rows, taken_strip]
        constructor
        · rintro ⟨free, -⟩
          exact ⟨fun taken => (free taken).elim, fun _ seen => (unseen seen).elim⟩
        · rintro ⟨visible, -⟩
          exact ⟨fun taken => unseen (visible taken), fun _ => ⟨db', done⟩⟩

theorem step_describe (apart : NamesApart env db) (user campaign : Uuid)
    (description : Option (Option Text)) :
    NamesApart env (step env db (.patch user campaign none description)) := by
  unfold step
  cases allowed : requireCampaign db campaign user with
  | error e =>
      simp only [CampaignRequest.handle, Campaigns.updateCampaign, allowed, bind, Except.bind]
      exact apart
  | ok row =>
      have found := requireCampaign_ok allowed
      obtain rfl := Table.key_of_get? found
      simp only [CampaignRequest.handle, Campaigns.updateCampaign, allowed, Option.map_none,
        CampaignRepository.updateCampaign, Except.mapError, bind, Except.bind]
      refine (@namesApart_rename env db _ apart row row.name description found ?_).mpr ?_
      · simp
      · exact own_name_free apart (Table.mem_of_get? found) rfl

theorem step_delete (apart : NamesApart env db) (user campaign : Uuid) :
    NamesApart env (step env db (.delete user campaign)) := by
  unfold step
  split
  · rename_i db' done
    obtain ⟨row, -, done⟩ := except_bind_ok done
    split at done
    · cases done
    · cases done
      exact fun a memberA b memberB =>
        apart a (List.mem_of_mem_filter memberA) b (List.mem_of_mem_filter memberB)
  · exact apart

theorem step_ensureDefault (apart : NamesApart env db) (owner : Uuid) (role : CampaignRole)
    (now : Timestamp) : NamesApart env (step env db (.ensureDefault owner role now)) := by
  unfold step CampaignRequest.handle ensureDefaultCampaign
  cases oldest : getDefaultCampaign db with
  | some campaign => exact apart
  | none =>
      have bare : db.campaigns.rows = [] :=
        Table.insertionSort_eq_nil.mp (List.head?_eq_none_iff.mp oldest)
      obtain ⟨campaigns, inserted, rows⟩ := Table.insert?_of_free
        (r := (⟨newCampaignId db, defaultCampaignName, none, owner, now⟩ : Campaign))
        (newCampaignId_free _).1
      simp only [inserted, Option.map_some]
      rw [bare, List.nil_append] at rows
      intro a memberA b memberB _ _
      simp only [putMembership, rows, List.mem_singleton] at memberA memberB
      rw [memberA, memberB]

/-! ## Runs -/

theorem namesApart_step (apart : NamesApart env db) (request : CampaignRequest) :
    (NamesApart env (step env db request) ∧ TakesVariants env db request) ↔
      SeesNames env db request := by
  cases request with
  | create user name description now =>
      rw [step_create apart]
      exact ⟨And.left, fun sees => ⟨sees, trivial⟩⟩
  | patch user campaign name description =>
      cases name with
      | some name => exact step_patch apart
      | none => exact iff_of_true ⟨step_describe apart user campaign description, trivial⟩ trivial
  | delete user campaign => exact iff_of_true ⟨step_delete apart user campaign, trivial⟩ trivial
  | ensureDefault owner role now =>
      exact iff_of_true ⟨step_ensureDefault apart owner role now, trivial⟩ trivial

/-- Names stay apart, and case variants are taken, in exactly the runs whose names the database
reads as the application does. -/
theorem campaign_names_iff (env : Naming) (db : Database) (run : List CampaignRequest) :
    (Visits (step env) (NamesApart env) (initial db) run ∧
        Along (step env) (TakesVariants env) (initial db) run) ↔
      Along (step env) (SeesNames env) (initial db) run :=
  visits_and_along_iff (fun _ request apart => namesApart_step apart request)
    fun _ member => (List.not_mem_nil member).elim

end Steps

def latinLower (s : Text) : Text := s.map fun c =>
  if ('A' ≤ c ∧ c ≤ 'Z') ∨ ('À' ≤ c ∧ c ≤ 'Þ' ∧ c ≠ '×') then Char.ofNat (c.toNat + 32) else c

def sqliteNaming : Naming := ⟨latinLower, Naming.sqliteLower⟩

def epopee : CampaignName := ⟨"Épopée".toList, by decide, by decide, by decide⟩

/-- SQLite does not fold the capital, so the same name is taken twice. -/
theorem campaign_named_twice :
    ¬Visits (step sqliteNaming) (NamesApart sqliteNaming) (initial .empty)
      [.create 1 epopee none 0, .create 1 epopee none 1] := by
  decide

end Kaeyris.Proof
