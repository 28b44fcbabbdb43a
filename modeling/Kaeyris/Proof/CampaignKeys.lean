import Kaeyris.CampaignKeys
import Kaeyris.Proof.Campaigns
import Kaeyris.Proof.JobRuns

/-!
# What a deleted campaign leaves behind

`delete_campaign` looks for sessions. A character makes PostgreSQL raise and is left behind in
SQLite, and so is a default campaign there.
-/

namespace Kaeyris.CampaignKeys
open Lib Campaigns Proof

/-- A deletion is refused with an error of the route and changes nothing, or the campaign is gone
and nothing refers to it. -/
def Clean (env : Jobs.Environment) (naming : Naming) (backend : Backend) (s : Store) : Label → Prop
  | .request (.delete user campaign) =>
      (∃ e, deleteCampaign backend s campaign user = .error e ∧ deletionErrors e = true ∧
        step env naming backend s (.request (.delete user campaign)) = s) ∨
      ∃ s', deleteCampaign backend s campaign user = .ok s' ∧
        step env naming backend s (.request (.delete user campaign)) = s' ∧
        s'.db.campaigns.get? campaign = none ∧ ¬s'.Refers campaign
  | _ => True

/-- The campaign has no character, and in SQLite it is nobody's default campaign. -/
def Unused (backend : Backend) (s : Store) (campaign : Uuid) : Prop :=
  (∀ pj ∈ s.db.pjs.rows, pj.campaignId ≠ campaign) ∧
    (backend = .sqlite → ∀ user ∈ s.db.users.rows, s.defaultCampaignId user.id ≠ some campaign)

/-- A campaign that its game master deletes, and that has no session, is not in use otherwise. -/
def DeletesUnused (backend : Backend) (s : Store) : Label → Prop
  | .request (.delete user campaign) =>
      (requireCampaign s.db campaign user).isOk = true →
        CampaignRepository.countSessions s.db campaign = 0 → Unused backend s campaign
  | _ => True

section Deletions
variable {env : Jobs.Environment} {naming : Naming} {backend : Backend} {s : Store}
  {campaign user : Uuid}

@[simp] theorem db_withDb (s : Store) (db : Database) : (s.withDb db).db = db := rfl

theorem defaults_clearDefaults (s : Store) (campaign user : Uuid) :
    (s.clearDefaults campaign).defaultCampaignId user ≠ some campaign := by
  unfold Store.clearDefaults
  dsimp only
  split
  · simp
  · assumption

theorem requireCampaign_error {e : CampaignError}
    (refused : requireCampaign s.db campaign user = .error e) : deletionErrors e = true := by
  unfold requireCampaign at refused
  split at refused
  · cases refused
    rfl
  · split at refused
    · cases refused
    · cases refused
      rfl

theorem deleteCampaign_cases (backend : Backend) (s : Store) (campaign user : Uuid) :
    (∃ e, deletionErrors e = true ∧ deleteCampaign backend s campaign user = .error e ∧
      ¬((requireCampaign s.db campaign user).isOk = true ∧
        CampaignRepository.countSessions s.db campaign = 0)) ∨
    ∃ row, s.db.campaigns.get? campaign = some row ∧
      (requireCampaign s.db campaign user).isOk = true ∧
      CampaignRepository.countSessions s.db campaign = 0 ∧
      deleteCampaign backend s campaign user =
        (s.deleted backend campaign (CampaignRepository.deleteCampaign s.db row)).elim
          (.error .integrityError) .ok := by
  unfold deleteCampaign Campaigns.deleteCampaign
  cases allowed : requireCampaign s.db campaign user with
  | error e =>
      refine .inl ⟨e, requireCampaign_error allowed, rfl, ?_⟩
      rintro ⟨impossible, -⟩
      cases impossible
  | ok row =>
      by_cases sessions : 0 < CampaignRepository.countSessions s.db campaign
      · refine .inl ⟨.hasSessions "Cannot delete a campaign with sessions.", rfl, ?_, ?_⟩
        · simp [sessions, bind, Except.bind]
        · rintro ⟨-, none⟩
          omega
      · have unused : CampaignRepository.countSessions s.db campaign = 0 := by omega
        refine .inr ⟨row, requireCampaign_ok allowed, rfl, unused, ?_⟩
        simp only [bind, Except.bind, unused, lt_irrefl, if_false]
        cases s.deleted backend campaign (CampaignRepository.deleteCampaign s.db row) <;> rfl

theorem no_session (unused : CampaignRepository.countSessions s.db campaign = 0) :
    ∀ session ∈ s.db.sessions.rows, session.campaignId ≠ some campaign := by
  have empty := List.length_eq_zero_iff.mp unused
  simpa [Table.select] using empty

theorem refers_iff {t : Store} {row : Campaign} (place : row.id = campaign)
    (db : t.db = CampaignRepository.deleteCampaign s.db row)
    (unused : CampaignRepository.countSessions s.db campaign = 0) :
    t.Refers campaign ↔ (∃ pj ∈ s.db.pjs.rows, pj.campaignId = campaign) ∨
      ∃ user ∈ s.db.users.rows, t.defaultCampaignId user.id = some campaign := by
  constructor
  · intro refers
    cases refers with
    | member member stored same =>
        rw [db] at stored
        have kept := List.of_mem_filter stored
        simp [place, same] at kept
    | pj pj stored same =>
        rw [db] at stored
        exact .inl ⟨pj, stored, same⟩
    | session session stored same =>
        rw [db] at stored
        exact absurd same (no_session unused session stored)
    | user user stored same =>
        rw [db] at stored
        exact .inr ⟨user, stored, same⟩
  · rintro (⟨pj, stored, same⟩ | ⟨user, stored, same⟩)
    · exact .pj pj (db ▸ stored) same
    · exact .user user (db ▸ stored) same

theorem restricts_iff (row : Campaign)
    (unused : CampaignRepository.countSessions s.db campaign = 0) :
    Store.restricts (CampaignRepository.deleteCampaign s.db row) campaign = true ↔
      ∃ pj ∈ s.db.pjs.rows, pj.campaignId = campaign := by
  simp only [Store.restricts, CampaignRepository.deleteCampaign, Bool.or_eq_true,
    List.any_eq_true, decide_eq_true_eq]
  apply or_iff_left
  rintro ⟨session, stored, same⟩
  exact no_session unused session stored same

theorem campaign_gone {row : Campaign} (found : s.db.campaigns.get? campaign = some row) :
    (CampaignRepository.deleteCampaign s.db row).campaigns.get? campaign = none := by
  have place := Table.key_of_get? found
  show (s.db.campaigns.delete fun other => other.id = row.id).get? campaign = none
  rw [Table.get?_delete, found]
  simp

theorem step_delete (backend : Backend) (s : Store) (campaign user : Uuid) :
    step env naming backend s (.request (.delete user campaign)) =
      match deleteCampaign backend s campaign user with
      | .ok s' => s'
      | .error _ => s := rfl

theorem clean_of_ok {s' : Store} (done : deleteCampaign backend s campaign user = .ok s') :
    Clean env naming backend s (.request (.delete user campaign)) ↔
      s'.db.campaigns.get? campaign = none ∧ ¬s'.Refers campaign := by
  have next : step env naming backend s (.request (.delete user campaign)) = s' := by
    rw [step_delete, done]
  constructor
  · rintro (⟨e, refused, -⟩ | ⟨t, done', -, gone⟩)
    · rw [done] at refused
      cases refused
    · rw [done] at done'
      cases done'
      exact gone
  · intro gone
    exact .inr ⟨s', done, next, gone⟩

theorem clean_of_error {e : CampaignError}
    (refused : deleteCampaign backend s campaign user = .error e) :
    Clean env naming backend s (.request (.delete user campaign)) ↔ deletionErrors e = true := by
  have next : step env naming backend s (.request (.delete user campaign)) = s := by
    rw [step_delete, refused]
  constructor
  · rintro (⟨e', refused', answered, -⟩ | ⟨t, done, -⟩)
    · rw [refused] at refused'
      cases refused'
      exact answered
    · rw [refused] at done
      cases done
  · intro answered
    exact .inl ⟨e, refused, answered, next⟩

theorem clean_sqlite_iff {row : Campaign} (found : s.db.campaigns.get? campaign = some row)
    (unused : CampaignRepository.countSessions s.db campaign = 0)
    (reached : deleteCampaign .sqlite s campaign user =
      .ok (s.withDb (CampaignRepository.deleteCampaign s.db row))) :
    Clean env naming .sqlite s (.request (.delete user campaign)) ↔ Unused .sqlite s campaign := by
  rw [clean_of_ok reached, db_withDb, and_iff_right (campaign_gone found),
    refers_iff (Table.key_of_get? found) rfl unused]
  simp [Unused, Store.withDb]

theorem clean_postgresql_iff {row : Campaign} (found : s.db.campaigns.get? campaign = some row)
    (unused : CampaignRepository.countSessions s.db campaign = 0)
    (reached : deleteCampaign .postgresql s campaign user =
      (s.deleted .postgresql campaign (CampaignRepository.deleteCampaign s.db row)).elim
        (.error .integrityError) .ok) :
    Clean env naming .postgresql s (.request (.delete user campaign)) ↔
      Unused .postgresql s campaign := by
  have restricted := restricts_iff row unused
  unfold Store.deleted at reached
  dsimp only at reached
  split at reached
  · rename_i restricts
    rw [clean_of_error reached]
    obtain ⟨pj, stored, same⟩ := restricted.mp restricts
    apply iff_of_false
    · exact Bool.false_ne_true
    · rintro ⟨none, -⟩
      exact none pj stored same
  · rename_i free
    have none : ∀ pj ∈ s.db.pjs.rows, pj.campaignId ≠ campaign := fun pj stored same =>
      free (restricted.mpr ⟨pj, stored, same⟩)
    rw [clean_of_ok reached]
    apply iff_of_true
    · refine ⟨campaign_gone found, ?_⟩
      rw [refers_iff (Table.key_of_get? found) rfl unused]
      rintro (⟨pj, stored, same⟩ | ⟨user, -, same⟩)
      · exact none pj stored same
      · exact defaults_clearDefaults _ _ _ same
    · exact ⟨none, fun impossible => by cases impossible⟩

theorem clean_delete_iff (backend : Backend) (s : Store) (campaign user : Uuid) :
    Clean env naming backend s (.request (.delete user campaign)) ↔
      DeletesUnused backend s (.request (.delete user campaign)) := by
  rcases deleteCampaign_cases backend s campaign user with
    ⟨e, answered, refused, barred⟩ | ⟨row, found, allowed, unused, reached⟩
  · rw [clean_of_error refused]
    apply iff_of_true answered
    intro allowed unused
    exact absurd ⟨allowed, unused⟩ barred
  · have condition : DeletesUnused backend s (.request (.delete user campaign)) ↔
        Unused backend s campaign := by
      simp [DeletesUnused, allowed, unused]
    rw [condition]
    cases backend with
    | sqlite => exact clean_sqlite_iff found unused reached
    | postgresql => exact clean_postgresql_iff found unused reached

/-- The deletions of a run are clean exactly if each deletes a campaign that is not in use. -/
theorem deletions_clean_iff (env : Jobs.Environment) (naming : Naming) (backend : Backend)
    (s : Store) (run : List Label) :
    Along (step env naming backend) (Clean env naming backend) s run ↔
      Along (step env naming backend) (DeletesUnused backend) s run := by
  apply along_congr
  intro s label
  cases label with
  | request request =>
      cases request with
      | delete user campaign => exact clean_delete_iff backend s campaign user
      | create | patch | ensureDefault => exact Iff.rfl
  | platform | ensureUserMembership => exact Iff.rfl

end Deletions

/-! ## A campaign with one character -/

def aria : PjCreate := ⟨"Aria".toList, some 1, none, by decide, by decide⟩

def lesOmbres : CampaignName := ⟨"Les Ombres".toList, by decide, by decide, by decide⟩

def oneUser : Label := .platform (.accounts ⟨⟨[⟨6, some 7⟩], by decide⟩, .empty, .empty, .empty⟩)

example :
    let s := final (step sampleEnvironment sqliteNaming .sqlite) .initial
      [oneUser, .request (.create 6 lesOmbres none 0), .request (.delete 6 1)]
    s.db.campaigns.rows = [] ∧ s.defaultCampaignId 6 = some 1 := ⟨rfl, rfl⟩

def campaignWithCharacter : List Label :=
  [oneUser,
    .request (.create 6 lesOmbres none 0),
    .platform (.createPj ⟨7, .webSession, some 6⟩ 8 aria none),
    .request (.delete 6 1)]

/-- PostgreSQL refuses and the route has no answer. -/
theorem character_fails_deletion :
    ¬Along (step sampleEnvironment sqliteNaming .postgresql)
      (Clean sampleEnvironment sqliteNaming .postgresql) .initial campaignWithCharacter := by
  rintro ⟨-, -, -, clean, -⟩
  rcases clean with ⟨e, refused, answered, -⟩ | ⟨s', done, -⟩
  · cases refused
    cases answered
  · cases done

end Kaeyris.CampaignKeys
