import Kaeyris.AudioRange
import Kaeyris.Gm
import Kaeyris.Proof.Requests

/-!
# Game masters are isolated

What a game master is answered depends on the sessions and characters of its key, on the rows of
these sessions and, for a web user, on its memberships. What else shows is listed: statistics of the
user's campaigns, which identifiers are taken, and jobs that RQ cannot name.
-/

namespace Kaeyris.Proof
open Lib Gm Router JobProjection
open Me (orRaise)

def OwnsSession (db : Database) (auth : AuthenticatedKey) (session : Uuid) : Prop :=
  ∃ row, db.sessions.get? session = some row ∧ row.gmKeyId = auth.id

def Member (db : Database) (auth : AuthenticatedKey) (campaign : Uuid) : Prop :=
  ∃ user, auth.userId = some user ∧
    (CampaignRepository.getMembership db user campaign).isSome = true

def Foreign (db : Database) (auth : AuthenticatedKey) (session : Uuid) : Prop :=
  ∃ row campaign, db.sessions.get? session = some row ∧ row.campaignId = some campaign ∧
    ∃ user, auth.userId = some user ∧
      (CampaignRepository.getMembership db user campaign).isSome = false

structure AgreeOn (session : Uuid) (archive other : Archive) : Prop where
  title : archive.title session = other.title session
  recordedAt : archive.recordedAt session = other.recordedAt session
  mode : archive.sessionMode session = other.sessionMode session
  createdAt : archive.createdAt session = other.createdAt session
  updatedAt : archive.updatedAt session = other.updatedAt session
  mappings : SameRows (fun row : SessionPjMapping => row.sessionId = session)
    archive.db.mappings.rows other.db.mappings.rows
  mappedAt : ∀ label, archive.mappedAt (session, label) = other.mappedAt (session, label)
  players : SameRows (fun row : SessionPlayer => row.sessionId = session)
    archive.db.players.rows other.db.players.rows
  playedAt : ∀ pj, archive.playedAt (session, pj) = other.playedAt (session, pj)
  transcription : archive.db.transcriptions.get? session = other.db.transcriptions.get? session
  completedAt : archive.completedAt session = other.completedAt session
  artifacts : ∀ kind, archive.artifact session kind = other.artifact session kind
  chunks : SameRows (fun row : Chunk => row.sessionId = session)
    archive.db.chunks.rows other.db.chunks.rows

structure AgreeForGm (auth : AuthenticatedKey) (archive other : Archive) : Prop where
  sessions : SameRows (fun row : Session => row.gmKeyId = auth.id)
    archive.db.sessions.rows other.db.sessions.rows
  holds : ∀ session, OwnsSession archive.db auth session → AgreeOn session archive other
  members : SameRows (fun row : CampaignMember => auth.userId = some row.userId)
    archive.db.campaignMembers.rows other.db.campaignMembers.rows
  pjs : SameRows
    (fun row : Pj => row.ownerGmKeyId = auth.id ∨ Member archive.db auth row.campaignId)
    archive.db.pjs.rows other.db.pjs.rows
  pjColumns : ∀ row ∈ archive.db.pjs.rows,
    row.ownerGmKeyId = auth.id ∨ Member archive.db auth row.campaignId →
      archive.pjUser row.id = other.pjUser row.id ∧
        archive.pjCreatedAt row.id = other.pjCreatedAt row.id
  campaigns : SameRows (fun row : Campaign => Member archive.db auth row.id)
    archive.db.campaigns.rows other.db.campaigns.rows
  statistics : ∀ campaign, Member archive.db auth campaign →
    CampaignRepository.countSessions archive.db campaign =
      CampaignRepository.countSessions other.db campaign ∧
    lastSessionAt archive.toLibrary campaign = lastSessionAt other.toLibrary campaign
  taken : auth.userId ≠ none → ∀ campaign,
    (archive.db.campaigns.get? campaign).isSome = (other.db.campaigns.get? campaign).isSome
  outside : ∀ session, Foreign archive.db auth session ↔ Foreign other.db auth session
  jobs : ∀ job record kind session, resolveJobIdentity job record = .ok (kind, session) →
    OwnsSession archive.db auth session →
      (archive.rq job = some record ↔ other.rq job = some record)
  unnamed : ∀ job e,
    (∃ record, archive.rq job = some record ∧ resolveJobIdentity job record = .error e) ↔
    ∃ record, other.rq job = some record ∧ resolveJobIdentity job record = .error e

section Agree
variable {auth : AuthenticatedKey} {archive other : Archive}
  (agree : AgreeForGm auth archive other)
include agree

theorem getMembership_agree {user : Uuid} (own : auth.userId = some user) (campaign : Uuid) :
    CampaignRepository.getMembership archive.db user campaign =
      CampaignRepository.getMembership other.db user campaign := by
  apply agree.members.get?
  intro row named
  have user : row.userId = user := congrArg Prod.fst named
  rw [own, user]

theorem member_agree (campaign : Uuid) :
    Member archive.db auth campaign ↔ Member other.db auth campaign := by
  unfold Member
  apply exists_congr
  intro user
  apply and_congr_right
  intro own
  rw [getMembership_agree agree own]

theorem getForGm_agree (session : Uuid) (campaign : Option Uuid) :
    SessionRepository.getForGm archive.db session auth.id campaign =
      SessionRepository.getForGm other.db session auth.id campaign := by
  apply agree.sessions.get?_filter
  intro row wanted
  simp only [Bool.and_eq_true, decide_eq_true_eq] at wanted
  exact wanted.1

theorem ownsSession_agree (session : Uuid) :
    OwnsSession archive.db auth session ↔ OwnsSession other.db auth session := by
  have same := getForGm_agree agree session none
  have owned (db : Database) : OwnsSession db auth session ↔
      (SessionRepository.getForGm db session auth.id none).isSome = true := by
    simp [OwnsSession, SessionRepository.getForGm, Option.any_eq_true]
  rw [owned, owned, same]

theorem AgreeForGm.symm : AgreeForGm auth other archive where
  sessions := agree.sessions.symm
  holds := fun session owned => by
    have held := agree.holds session ((ownsSession_agree agree session).mpr owned)
    exact ⟨held.title.symm, held.recordedAt.symm, held.mode.symm, held.createdAt.symm,
      held.updatedAt.symm, held.mappings.symm, fun label => (held.mappedAt label).symm,
      held.players.symm, fun pj => (held.playedAt pj).symm, held.transcription.symm,
      held.completedAt.symm, fun kind => (held.artifacts kind).symm, held.chunks.symm⟩
  members := agree.members.symm
  pjs := fun row look => (agree.pjs row (look.imp_right (member_agree agree _).mpr)).symm
  pjColumns := fun row member look => by
    have look' := look.imp_right (member_agree agree row.campaignId).mpr
    have same := agree.pjColumns row ((agree.pjs row look').mpr member) look'
    exact ⟨same.1.symm, same.2.symm⟩
  campaigns := fun row look => (agree.campaigns row ((member_agree agree _).mpr look)).symm
  statistics := fun campaign member => by
    have same := agree.statistics campaign ((member_agree agree campaign).mpr member)
    exact ⟨same.1.symm, same.2.symm⟩
  taken := fun web campaign => (agree.taken web campaign).symm
  outside := fun session => (agree.outside session).symm
  jobs := fun job record kind session resolved owned =>
    (agree.jobs job record kind session resolved ((ownsSession_agree agree session).mpr owned)).symm
  unnamed := fun job e => (agree.unnamed job e).symm

/-! ## Sessions -/

theorem resolve_agree (session : Uuid) (gmRole : Bool) :
    resolveSessionForGm archive.db session auth gmRole =
      resolveSessionForGm other.db session auth gmRole := by
  unfold resolveSessionForGm
  rw [getForGm_agree agree]
  cases SessionRepository.getForGm other.db session auth.id none with
  | none => rfl
  | some row =>
      dsimp only
      split
      · rename_i user campaign source own inside
        rw [getMembership_agree agree own]
      · rfl

theorem requireSession_agree (session : Uuid) :
    requireSession archive.db session auth = requireSession other.db session auth := by
  unfold requireSession
  rw [resolve_agree agree]

omit agree in
theorem requireSession_owns {db : Database} {session : Uuid} {row : Session}
    (opened : requireSession db session auth = .ok row) :
    OwnsSession db auth session ∧ row.id = session :=
  ⟨⟨row, requireSession_ok opened, requireSession_owned opened⟩,
    Table.key_of_get? (requireSession_ok opened)⟩

theorem opened_agree {α : Type} (session : Uuid) {next next' : Session → Except AppError α}
    (same : AgreeOn session archive other →
      ∀ row, requireSession archive.db session auth = .ok row →
      row.id = session → next row = next' row) :
    (requireSession archive.db session auth).bind next =
      (requireSession other.db session auth).bind next' := by
  rw [← requireSession_agree agree]
  cases opened : requireSession archive.db session auth with
  | error e => rfl
  | ok row =>
      obtain ⟨owned, id⟩ := requireSession_owns opened
      exact same (agree.holds session owned) row opened id

theorem requireMember_agree (campaign : Option Uuid) :
    requireMember archive.db auth campaign = requireMember other.db auth campaign := by
  unfold requireMember
  split
  · rename_i own
    rw [getMembership_agree agree own]
  · rfl

theorem requirePjMember_agree (campaign : Option Uuid) :
    requirePjMember archive.db auth campaign = requirePjMember other.db auth campaign := by
  unfold requirePjMember
  split
  · rename_i own
    rw [getMembership_agree agree own]
  · rfl

omit agree in
theorem sessionOut_agree {row : Session} (held : AgreeOn row.id archive other) :
    sessionOut archive row = sessionOut other row := by
  unfold sessionOut
  rw [held.title, held.recordedAt, held.mode, held.createdAt, held.updatedAt]

omit agree in
/-- A session that is not found is refused as a foreign campaign's exactly when it lies outside the
memberships. -/
theorem requireMember_outside (db : Database) (session : Uuid) :
    requireMember db auth ((db.sessions.get? session).bind Session.campaignId) =
      .error (campaignForbidden "User is not a member of this campaign.") ↔
    Foreign db auth session := by
  unfold requireMember Foreign
  cases found : db.sessions.get? session with
  | none => simp
  | some row =>
      cases inside : row.campaignId with
      | none => simp [inside]
      | some campaign =>
          cases own : auth.userId with
          | none => simp [inside]
          | some user =>
              cases known : CampaignRepository.getMembership db user campaign <;>
                simp [inside, known, require]

omit agree in
theorem requireMember_inside {db : Database} {session : Uuid} (inside : ¬Foreign db auth session) :
    requireMember db auth ((db.sessions.get? session).bind Session.campaignId) = .ok () := by
  rw [← requireMember_outside] at inside
  unfold requireMember at inside ⊢
  split
  · rename_i user campaign _ own
    rw [own] at inside
    unfold require at inside ⊢
    split
    · rfl
    · rename_i unknown
      exact (inside (by simp_all)).elim
  · rfl

theorem getSession_agree (session : Uuid) :
    getSession archive auth session = getSession other auth session := by
  unfold getSession
  rw [← getForGm_agree agree]
  cases found : SessionRepository.getForGm archive.db session auth.id none with
  | none =>
      dsimp only
      by_cases outside : Foreign archive.db auth session
      · rw [(requireMember_outside archive.db session).mpr outside,
          (requireMember_outside other.db session).mpr ((agree.outside session).mp outside)]
      · rw [requireMember_inside outside,
          requireMember_inside fun there => outside ((agree.outside session).mpr there)]
  | some row =>
      obtain ⟨stored, own⟩ := Option.filter_eq_some_iff.mp found
      obtain rfl : row.id = session := Table.key_of_get? stored
      have held := agree.holds row.id ⟨row, stored, by simpa using own⟩
      dsimp only
      rw [requireMember_agree agree, sessionOut_agree held]

theorem ownSessions_agree (campaign : Option Uuid) :
    (ownSessions archive.db auth.id campaign).Perm (ownSessions other.db auth.id campaign) := by
  apply agree.sessions.select_perm
  intro row wanted
  simp only [Bool.and_eq_true, decide_eq_true_eq] at wanted
  exact wanted.1

theorem holds_of_listed {campaign : Option Uuid} {row : Session}
    (listed : row ∈ ownSessions archive.db auth.id campaign) : AgreeOn row.id archive other := by
  obtain ⟨stored, wanted⟩ := List.mem_filter.mp listed
  simp only [Bool.and_eq_true, decide_eq_true_eq] at wanted
  exact agree.holds row.id ⟨row, Table.get?_self stored, wanted.1⟩

/-! ## Campaigns -/

section Campaigns
variable {user : Uuid}

omit agree in
theorem mem_memberships {db : Database} {joined : Campaign × CampaignMember} :
    joined ∈ memberships db user ↔ joined.1 ∈ db.campaigns.rows ∧
      joined.2 ∈ db.campaignMembers.rows ∧ joined.2.campaignId = joined.1.id ∧
        joined.2.userId = user := by
  unfold memberships
  rw [List.mem_filter, mem_innerJoin]
  simp [and_assoc]

omit agree in
theorem joined_unique {db : Database} {a b : Campaign × CampaignMember}
    (left : a ∈ memberships db user) (right : b ∈ memberships db user) (same : a.1.id = b.1.id) :
    a = b := by
  obtain ⟨stored, joins, on, who⟩ := mem_memberships.mp left
  obtain ⟨stored', joins', on', who'⟩ := mem_memberships.mp right
  refine Prod.ext ?_ ?_
  · exact List.inj_on_of_nodup_map db.campaigns.unique stored stored' same
  · apply List.inj_on_of_nodup_map db.campaignMembers.unique joins joins'
    rw [CampaignMember.key, CampaignMember.key, on, on', who, who', same]

variable (own : auth.userId = some user)
include own

omit agree in
theorem member_of_joined {db : Database} {joined : Campaign × CampaignMember}
    (listed : joined ∈ memberships db user) : Member db auth joined.1.id := by
  obtain ⟨-, stored, campaign, who⟩ := mem_memberships.mp listed
  refine ⟨user, own, ?_⟩
  have found := Table.get?_self stored
  rw [CampaignMember.key, campaign, who] at found
  rw [CampaignRepository.getMembership, found]
  rfl

theorem memberships_agree : (memberships archive.db user).Perm (memberships other.db user) := by
  have nodup (db : Database) : (memberships db user).Nodup :=
    (nodup_innerJoin db.campaigns.nodup db.campaignMembers.nodup).filter _
  refine (List.perm_ext_iff_of_nodup (nodup _) (nodup _)).mpr fun joined => ?_
  constructor
  · intro listed
    have member := member_of_joined own listed
    obtain ⟨stored, joins, on, rfl⟩ := mem_memberships.mp listed
    exact mem_memberships.mpr ⟨(agree.campaigns _ member).mp stored,
      (agree.members _ own).mp joins, on, rfl⟩
  · intro listed
    have member := (member_agree agree _).mpr (member_of_joined own listed)
    obtain ⟨stored, joins, on, rfl⟩ := mem_memberships.mp listed
    exact mem_memberships.mpr ⟨(agree.campaigns _ member).mpr stored,
      (agree.members _ own).mpr joins, on, rfl⟩

theorem campaignOut_agree {joined : Campaign × CampaignMember}
    (listed : joined ∈ memberships archive.db user) :
    campaignOut archive.toLibrary joined = campaignOut other.toLibrary joined := by
  obtain ⟨count, last⟩ := agree.statistics joined.1.id (member_of_joined own listed)
  unfold campaignOut
  rw [count, last]

end Campaigns

omit agree in
theorem webUserId_ok {user : Uuid} (web : webUserId auth = .ok user) :
    auth.source = .webSession ∧ auth.userId = some user := by
  unfold webUserId at web
  split at web
  · rename_i session own
    cases web
    exact ⟨session, own⟩
  · cases web

theorem getCampaign_agree (campaign : Uuid) :
    getCampaign archive.toLibrary auth campaign = getCampaign other.toLibrary auth campaign := by
  unfold getCampaign webUserId
  split
  · rename_i user source own
    have web : auth.userId ≠ none := by simp [own]
    have first : (memberships archive.db user).find? (fun joined => joined.1.id = campaign) =
        (memberships other.db user).find? fun joined => joined.1.id = campaign := by
      refine find?_perm (memberships_agree agree own) fun a left b right wanted wanted' => ?_
      simp only [decide_eq_true_eq] at wanted wanted'
      exact joined_unique left right (wanted.trans wanted'.symm)
    have known : (CampaignRepository.get archive.db campaign).isSome =
        (CampaignRepository.get other.db campaign).isSome := agree.taken web campaign
    change (require _ _).bind (fun _ => (orRaise _ _).bind _) =
      (require _ _).bind (fun _ => (orRaise _ _).bind _)
    rw [known, ← first]
    cases found : (memberships archive.db user).find? fun joined => joined.1.id = campaign with
    | none => rfl
    | some joined =>
        have listed := List.mem_of_find?_eq_some found
        change (require _ _).bind (fun _ => .ok (Response.campaign _)) =
          (require _ _).bind fun _ => .ok (Response.campaign _)
        rw [campaignOut_agree agree own listed]
  · rfl

/-! ## Characters and participants -/

theorem ownPjs_agree (campaign : Option Uuid) :
    (ownPjs archive.db auth.id campaign).Perm (ownPjs other.db auth.id campaign) := by
  refine SameRows.select_perm (t := archive.db.pjs.toTable) (u := other.db.pjs.toTable)
    agree.pjs fun row wanted => .inl ?_
  simp only [Bool.and_eq_true, decide_eq_true_eq] at wanted
  exact wanted.1

omit agree in
theorem mem_memberPjs {db : Database} {user : Uuid} {campaign : Option Uuid} {row : Pj} :
    row ∈ memberPjs db user campaign ↔ row ∈ db.pjs.rows ∧
      (CampaignRepository.getMembership db user row.campaignId).isSome = true ∧
        campaign.all (row.campaignId = ·) = true := by
  unfold memberPjs CampaignRepository.getMembership
  simp only [List.mem_map, List.mem_filter, mem_innerJoin, Prod.exists, Bool.and_eq_true,
    decide_eq_true_eq, Option.isSome_iff_exists, Table.get?_eq_some]
  constructor
  · rintro ⟨row, member, ⟨⟨stored, joins, on⟩, who, inside⟩, rfl⟩
    exact ⟨stored, ⟨member, joins, Prod.ext who on⟩, inside⟩
  · rintro ⟨stored, ⟨member, joins, named⟩, inside⟩
    exact ⟨row, member, ⟨⟨stored, joins, congrArg Prod.snd named⟩, congrArg Prod.fst named, inside⟩,
      rfl⟩

omit agree in
theorem nodup_memberPjs (db : Database) (user : Uuid) (campaign : Option Uuid) :
    (memberPjs db user campaign).Nodup := by
  unfold memberPjs
  refine List.Nodup.map_on ?_
    ((nodup_innerJoin db.pjs.toTable.nodup db.campaignMembers.nodup).filter _)
  rintro ⟨row, member⟩ left ⟨row', member'⟩ right rfl
  simp only [List.mem_filter, mem_innerJoin, Bool.and_eq_true, decide_eq_true_eq] at left right
  obtain ⟨⟨-, joins, on⟩, who, -⟩ := left
  obtain ⟨⟨-, joins', on'⟩, who', -⟩ := right
  have same : member = member' := by
    apply List.inj_on_of_nodup_map db.campaignMembers.unique joins joins'
    rw [CampaignMember.key, CampaignMember.key, on, on', who, who']
  rw [same]

theorem memberPjs_agree {user : Uuid} (own : auth.userId = some user) (campaign : Option Uuid) :
    (memberPjs archive.db user campaign).Perm (memberPjs other.db user campaign) := by
  refine (List.perm_ext_iff_of_nodup (nodup_memberPjs _ _ _) (nodup_memberPjs _ _ _)).mpr
    fun row => ?_
  rw [mem_memberPjs, mem_memberPjs, ← getMembership_agree agree own]
  exact and_congr_left fun ⟨member, _⟩ => agree.pjs row (.inr ⟨user, own, member⟩)

theorem pjColumns_listed {campaign : Option Uuid} {rows : List Pj}
    (listed : ListsPjs archive auth campaign rows) : ∀ row ∈ rows,
      archive.pjUser row.id = other.pjUser row.id ∧
        archive.pjCreatedAt row.id = other.pjCreatedAt row.id := by
  intro row member
  unfold ListsPjs at listed
  split at listed
  · rename_i user own
    obtain ⟨stored, joined, -⟩ := mem_memberPjs.mp (listed.mem.mp member)
    exact agree.pjColumns row stored (.inr ⟨user, own, joined⟩)
  · obtain ⟨stored, wanted⟩ := List.mem_filter.mp (listed.mem.mp member)
    simp only [Bool.and_eq_true, decide_eq_true_eq] at wanted
    exact agree.pjColumns row stored (.inl wanted.1)

theorem listsPjs_agree {campaign : Option Uuid} {rows : List Pj}
    (listed : ListsPjs archive auth campaign rows) :
    ListsPjs other auth campaign rows ∧ listPjs archive rows = listPjs other rows := by
  have columns := pjColumns_listed agree listed
  constructor
  · unfold ListsPjs at listed ⊢
    split at listed
    · rename_i user own
      refine listed.transfer (memberPjs_agree agree own campaign) fun a left b right before => ?_
      rwa [← (columns a (listed.mem.mpr left)).2, ← (columns b (listed.mem.mpr right)).2]
    · refine listed.transfer (ownPjs_agree agree campaign) fun a left b right before => ?_
      rwa [← (columns a (listed.mem.mpr left)).2, ← (columns b (listed.mem.mpr right)).2]
  · have items : ∀ row ∈ rows, pjOut archive row = pjOut other row := by
      intro row member
      unfold pjOut
      rw [(columns row member).1, (columns row member).2]
    unfold listPjs
    rw [List.map_congr_left items]

omit agree in
theorem mappings_agree {session : Uuid} (held : AgreeOn session archive other) :
    MappingRepository.getForSession archive.db session =
      MappingRepository.getForSession other.db session := by
  have : Std.Total fun a b : SessionPjMapping => a.speakerLabel ≤ b.speakerLabel :=
    ⟨fun a b => le_total a.speakerLabel b.speakerLabel⟩
  have : IsTrans SessionPjMapping fun a b => a.speakerLabel ≤ b.speakerLabel :=
    ⟨fun _ _ _ => le_trans⟩
  refine held.mappings.sorted_eq (fun row wanted => by simpa using wanted)
    fun a left b right before after => ?_
  obtain ⟨stored, own⟩ := List.mem_filter.mp left
  obtain ⟨stored', own'⟩ := List.mem_filter.mp right
  simp only [decide_eq_true_eq] at own own'
  apply List.inj_on_of_nodup_map archive.db.mappings.unique stored stored'
  rw [SessionPjMapping.key, SessionPjMapping.key, own, own', le_antisymm before after]

omit agree in
theorem chunks_agree {session : Uuid} (held : AgreeOn session archive other) :
    ChunkRepository.listForSession archive.db session =
      ChunkRepository.listForSession other.db session := by
  have : Std.Total fun a b : Chunk => a.ordre ≤ b.ordre := ⟨fun a b => le_total a.ordre b.ordre⟩
  have : IsTrans Chunk fun a b => a.ordre ≤ b.ordre := ⟨fun _ _ _ => le_trans⟩
  refine SameRows.sorted_eq (t := archive.db.chunks.toTable) (u := other.db.chunks.toTable)
    held.chunks (fun row wanted => by simpa using wanted) fun a left b right before after => ?_
  obtain ⟨stored, own⟩ := List.mem_filter.mp left
  obtain ⟨stored', own'⟩ := List.mem_filter.mp right
  simp only [decide_eq_true_eq] at own own'
  apply List.inj_on_of_nodup_map archive.db.chunks.uniqueIndex stored stored'
  exact Prod.ext (own.trans own'.symm) (le_antisymm before after)

theorem getSessionChunks_agree (session : Uuid) :
    getSessionChunks archive auth session = getSessionChunks other auth session := by
  apply opened_agree agree session
  rintro held row - rfl
  dsimp only
  rw [chunks_agree held]

theorem getSessionMapping_agree (session : Uuid) :
    getSessionMapping archive auth session = getSessionMapping other auth session := by
  apply opened_agree agree session
  rintro held row - rfl
  have times : ∀ m ∈ MappingRepository.getForSession other.db row.id,
      archive.mappedAt m.key = other.mappedAt m.key := by
    intro m listed
    have own : m.sessionId = row.id := by
      simpa using (List.mem_filter.mp ((List.mem_insertionSort _).mp listed)).2
    rw [SessionPjMapping.key, own]
    exact held.mappedAt m.speakerLabel
  dsimp only
  rw [mappings_agree held, List.map_congr_left times]

theorem openForPlayers_agree (session : Uuid) :
    openForPlayers archive auth session = openForPlayers other auth session := by
  apply opened_agree agree session
  rintro held row - rfl
  rfl

omit agree in
theorem listsPlayers_agree {session : Uuid} (held : AgreeOn session archive other)
    {rows : List SessionPlayer} (listed : ListsPlayers archive session rows) :
    ListsPlayers other session rows := by
  have own : ∀ row ∈ SessionPlayerRepository.listForSession archive.db session,
      archive.playedAt row.key = other.playedAt row.key := by
    intro row member
    have own : row.sessionId = session := by simpa using (List.mem_filter.mp member).2
    rw [SessionPlayer.key, own]
    exact held.playedAt row.pjId
  refine listed.transfer (held.players.select_perm fun row wanted => by simpa using wanted)
    fun a left b right before => ?_
  rwa [← own a left, ← own b right]

/-! ## The transcription and the artifacts -/

theorem getTranscription_agree (session : Uuid) :
    getTranscription archive auth session = getTranscription other auth session := by
  apply opened_agree agree session
  rintro held row - rfl
  simp only [TranscriptionRepository.getForSession, held.transcription, held.completedAt]

theorem getTranscriptionMd_agree (session : Uuid) :
    getTranscriptionMd archive auth session = getTranscriptionMd other auth session := by
  apply opened_agree agree session
  rintro held row - rfl
  simp only [TranscriptionRepository.getForSession, held.transcription, held.title,
    held.recordedAt]

theorem readArtifact_agree_gm (session : Uuid) (checks : Session → Except AppError Unit)
    (kind : ArtifactKind) (detail : String) :
    Gm.readArtifact archive.toLibrary auth session checks kind detail =
      Gm.readArtifact other.toLibrary auth session checks kind detail := by
  apply opened_agree agree session
  rintro held row - rfl
  simp only [held.artifacts, held.title, held.recordedAt]

theorem findByIdOwnedBy_agree (pj : Uuid) (campaign : Option Uuid) :
    PjRepository.findByIdOwnedBy archive.db pj auth.id campaign =
      PjRepository.findByIdOwnedBy other.db pj auth.id campaign := by
  refine SameRows.get?_filter (t := archive.db.pjs.toTable) (u := other.db.pjs.toTable)
    agree.pjs pj fun row wanted => .inl ?_
  simp only [Bool.and_eq_true, decide_eq_true_eq] at wanted
  exact wanted.1

omit agree in
theorem orRaise_bind {α β : Type} (a : α) (error : AppError) (next : α → Except AppError β) :
    (orRaise (some a) error >>= next) = next a := rfl

omit agree in
theorem orRaise_none {α β : Type} (error : AppError) (next : α → Except AppError β) :
    (orRaise none error >>= next) = .error error := rfl

theorem getPov_agree (uuid : Text → Option Uuid) (session : Uuid) (pjIdStr : Text) :
    getPov uuid archive.toLibrary auth session pjIdStr =
      getPov uuid other.toLibrary auth session pjIdStr := by
  unfold getPov
  dsimp only
  cases uuid (povPath pjIdStr).2 with
  | none => rw [orRaise_none, orRaise_none]
  | some pj =>
      rw [orRaise_bind, orRaise_bind]
      apply opened_agree agree session
      rintro held row - rfl
      simp only [findByIdOwnedBy_agree agree, held.artifacts, held.title, held.recordedAt]

/-! ## Jobs -/

/-- RQ knows no such job, or it is a job of a session that is not the game master's. -/
def Hidden (auth : AuthenticatedKey) (archive : Archive) (job : JobId) : Prop :=
  ∀ record, archive.rq job = some record → ∃ kind session,
    resolveJobIdentity job record = .ok (kind, session) ∧ ¬OwnsSession archive.db auth session

omit agree in
theorem resolve_owns {db : Database} {session : Uuid} {row : Session}
    (resolved : resolveSessionForGm db session auth true = some row) :
    OwnsSession db auth session := by
  have opened : requireSession db session auth = .ok row := by
    unfold requireSession
    rw [resolved]
  exact (requireSession_owns opened).1

omit agree in
theorem projectJobOut_hidden {job : JobId} (hidden : Hidden auth archive job) (now : Timestamp) :
    projectJobOut archive auth job now = .error (jobNotFound s!"Job {job} not found.") := by
  unfold projectJobOut
  cases known : archive.rq job with
  | none => rfl
  | some record =>
      obtain ⟨kind, session, resolved, foreign⟩ := hidden record known
      have unseen : resolveSessionForGm archive.db session auth true = none := by
        by_contra seen
        obtain ⟨row, found⟩ := Option.ne_none_iff_exists'.mp seen
        exact foreign (resolve_owns found)
      simp only [orRaise, bind, Except.bind, resolved, unseen]

theorem hidden_agree {job : JobId} (hidden : Hidden auth archive job) : Hidden auth other job := by
  intro record known
  cases resolved : resolveJobIdentity job record with
  | error e =>
      obtain ⟨record', known', refused⟩ := (agree.unnamed job e).mpr ⟨record, known, resolved⟩
      obtain ⟨kind, session, named, -⟩ := hidden record' known'
      rw [refused] at named
      cases named
  | ok identity =>
      obtain ⟨kind, session⟩ := identity
      refine ⟨kind, session, rfl, fun owned => ?_⟩
      have owned' := (ownsSession_agree agree session).mpr owned
      obtain ⟨kind', session', named, foreign⟩ :=
        hidden record ((agree.jobs job record kind session resolved owned').mpr known)
      rw [resolved] at named
      cases named
      exact foreign owned'

theorem projectJobOut_agree (job : JobId) (now : Timestamp) :
    projectJobOut archive auth job now = projectJobOut other auth job now := by
  by_cases hidden : Hidden auth archive job
  · rw [projectJobOut_hidden hidden, projectJobOut_hidden (hidden_agree agree hidden)]
  · unfold Hidden at hidden
    push Not at hidden
    obtain ⟨record, known, shown⟩ := hidden
    unfold projectJobOut
    cases resolved : resolveJobIdentity job record with
    | error e =>
        obtain ⟨record', known', refused⟩ := (agree.unnamed job e).mp ⟨record, known, resolved⟩
        simp only [orRaise, bind, Except.bind, known, known', resolved, refused]
    | ok identity =>
        obtain ⟨kind, session⟩ := identity
        have owned := shown kind session resolved
        have known' := (agree.jobs job record kind session resolved owned).mp known
        simp only [orRaise, bind, Except.bind, known, known', resolved, resolve_agree agree]

omit agree in
theorem listed_transfer {ρ : Type} {check check' : Except AppError Unit}
    {Lists Lists' : List ρ → Prop} {respond respond' : List ρ → Except AppError Response}
    {answer : Except AppError Response} (given : Listed check Lists respond answer)
    (checks : check = check')
    (lists : ∀ rows, Lists rows → Lists' rows ∧ respond rows = respond' rows) :
    Listed check' Lists' respond' answer := by
  subst checks
  unfold Listed at given ⊢
  split at given
  · exact given
  · obtain ⟨rows, listed, rfl⟩ := given
    exact ⟨rows, (lists rows listed).1, (lists rows listed).2⟩

theorem gm_answers_agree {uuid : Text → Option Uuid} {request : Gm.Request}
    {answer : Except AppError Response} (given : Answers uuid archive auth request answer) :
    Answers uuid other auth request answer := by
  cases request with
  | campaigns =>
      simp only [Answers] at given ⊢
      cases web : webUserId auth with
      | error e => simpa only [web] using given
      | ok user =>
          obtain ⟨-, own⟩ := webUserId_ok web
          simp only [web] at given ⊢
          obtain ⟨rows, listed, rfl⟩ := given
          refine ⟨rows, listed.transfer (memberships_agree agree own) fun _ _ _ _ => id, ?_⟩
          have items : ∀ joined ∈ rows,
              campaignOut archive.toLibrary joined = campaignOut other.toLibrary joined :=
            fun joined member => campaignOut_agree agree own (listed.mem.mp member)
          unfold listCampaigns
          rw [List.map_congr_left items]
  | campaign campaign => exact given.trans (getCampaign_agree agree campaign)
  | sessions campaign =>
      refine listed_transfer given (requireMember_agree agree campaign) fun rows listed => ?_
      have held (row : Session) (member : row ∈ ownSessions archive.db auth.id campaign) :=
        holds_of_listed agree member
      refine ⟨listed.transfer (ownSessions_agree agree campaign)
        fun a left b right before => ?_, ?_⟩
      · rwa [← (held a left).createdAt, ← (held b right).createdAt]
      · have items : ∀ row ∈ rows, sessionOut archive row = sessionOut other row :=
          fun row member => sessionOut_agree (held row (listed.mem.mp member))
        unfold listSessions
        rw [List.map_congr_left items]
  | session session => exact given.trans (getSession_agree agree session)
  | chunks session => exact given.trans (getSessionChunks_agree agree session)
  | pjs campaign =>
      exact listed_transfer given (requirePjMember_agree agree campaign)
        fun rows listed => listsPjs_agree agree listed
  | mapping session => exact given.trans (getSessionMapping_agree agree session)
  | players session =>
      simp only [Answers, ← openForPlayers_agree agree session] at given ⊢
      cases opened : openForPlayers archive auth session with
      | error e => simpa only [opened] using given
      | ok row =>
          simp only [opened] at given ⊢
          obtain ⟨rows, listed, rfl⟩ := given
          obtain ⟨row', found, opened⟩ := except_bind_ok opened
          obtain ⟨_, -, same⟩ := except_bind_ok opened
          cases same
          obtain ⟨owned, rfl⟩ := requireSession_owns found
          exact ⟨rows, listsPlayers_agree (agree.holds row.id owned) listed, rfl⟩
  | transcription session => exact given.trans (getTranscription_agree agree session)
  | transcriptionMd session => exact given.trans (getTranscriptionMd_agree agree session)
  | narrative session =>
      refine given.trans ?_
      unfold getNarrative
      rw [readArtifact_agree_gm agree]
  | narrativeMd session =>
      refine given.trans ?_
      unfold getNarrativeMd
      rw [readArtifact_agree_gm agree]
  | elements session =>
      refine given.trans ?_
      unfold getElements
      rw [readArtifact_agree_gm agree]
  | elementsMd session =>
      refine given.trans ?_
      unfold getElementsMd
      rw [readArtifact_agree_gm agree]
  | summary session =>
      refine given.trans ?_
      unfold getSummary
      rw [readArtifact_agree_gm agree]
  | summaryMd session =>
      refine given.trans ?_
      unfold getSummaryMd
      rw [readArtifact_agree_gm agree]
  | pov session pjIdStr => exact given.trans (getPov_agree agree uuid session pjIdStr)
  | job job now => exact given.trans (congrArg _ (projectJobOut_agree agree job now))

end Agree

/-! ## Audio -/

/-- A session whose audio the caller may ask for: of its key, or of a campaign of the web user. -/
def Hears (db : Database) (auth : AuthenticatedKey) (row : Session) : Prop :=
  row.gmKeyId = auth.id ∨ ∃ campaign, row.campaignId = some campaign ∧ Member db auth campaign

structure AgreeOnAudio (auth : AuthenticatedKey) (db other : Database) : Prop where
  sessions : SameRows (Hears db auth) db.sessions.rows other.sessions.rows
  sources : ∀ row ∈ db.sessions.rows, Hears db auth row →
    db.audioSources.get? row.id = other.audioSources.get? row.id

/-- The files that the audio rows of these sessions name hold the same. -/
def SameFiles (auth : AuthenticatedKey) (db : Database) (disk disk' : Disk) : Prop :=
  ∀ row ∈ db.sessions.rows, Hears db auth row → ∀ audio, db.audioSources.get? row.id = some audio →
    disk audio.path = disk' audio.path

section Audio
variable {auth : AuthenticatedKey} {archive other : Archive}

theorem sessionForAudioRead_hears {db : Database} {session : Uuid} {row : Session}
    (found : AudioRange.sessionForAudioRead db session auth = some row) :
    row ∈ db.sessions.rows ∧ row.id = session ∧ Hears db auth row := by
  unfold AudioRange.sessionForAudioRead at found
  split at found
  · rename_i own resolved
    cases found
    have opened := resolveSessionForGm_getForGm resolved
    obtain ⟨stored, owned⟩ := Option.filter_eq_some_iff.mp opened
    simp only [Option.all_none, Bool.and_true, decide_eq_true_eq] at owned
    exact ⟨Table.mem_of_get? stored, Table.key_of_get? stored, .inl owned⟩
  · split at found
    · rename_i user source web
      obtain ⟨stored, known, found⟩ := Option.bind_eq_some_iff.mp found
      obtain ⟨campaign, inside, found⟩ := Option.bind_eq_some_iff.mp found
      obtain ⟨member, joined, found⟩ := Option.bind_eq_some_iff.mp found
      cases found
      exact ⟨Table.mem_of_get? known, Table.key_of_get? known,
        .inr ⟨campaign, inside, user, web, by rw [joined]; rfl⟩⟩
    · cases found

variable (agree : AgreeForGm auth archive other)
include agree

theorem hears_agree (row : Session) : Hears archive.db auth row ↔ Hears other.db auth row := by
  unfold Hears
  apply or_congr_right
  apply exists_congr
  intro campaign
  exact and_congr_right fun _ => member_agree agree campaign

theorem AgreeOnAudio.symm (audio : AgreeOnAudio auth archive.db other.db) :
    AgreeOnAudio auth other.db archive.db where
  sessions := fun row hears => (audio.sessions row ((hears_agree agree row).mpr hears)).symm
  sources := fun row member hears => by
    have hears' := (hears_agree agree row).mpr hears
    exact (audio.sources row ((audio.sessions row hears').mpr member) hears').symm

theorem sessionForAudioRead_agree (audio : AgreeOnAudio auth archive.db other.db) {session : Uuid}
    {row : Session} (found : AudioRange.sessionForAudioRead archive.db session auth = some row) :
    AudioRange.sessionForAudioRead other.db session auth = some row := by
  obtain ⟨member, rfl, hears⟩ := sessionForAudioRead_hears found
  have stored : other.db.sessions.get? row.id = some row :=
    Table.get?_self ((audio.sessions row hears).mp member)
  have stored' : archive.db.sessions.get? row.id = some row := Table.get?_self member
  unfold AudioRange.sessionForAudioRead at found ⊢
  rw [← resolve_agree agree]
  split at found
  · exact found
  · split at found
    · rename_i user source web
      simp only [getMembership_agree agree web, stored'] at found
      rw [stored]
      exact found
    · cases found

theorem getAudio_agree (audio : AgreeOnAudio auth archive.db other.db) {disk disk' : Disk}
    (files : SameFiles auth archive.db disk disk') (session : Uuid) (range : Option Text) :
    AudioRange.getAudio archive.db disk auth session range =
      AudioRange.getAudio other.db disk' auth session range := by
  unfold AudioRange.getAudio
  cases found : AudioRange.sessionForAudioRead archive.db session auth with
  | none =>
      have hidden : AudioRange.sessionForAudioRead other.db session auth = none := by
        cases found' : AudioRange.sessionForAudioRead other.db session auth with
        | none => rfl
        | some row =>
            have shown := sessionForAudioRead_agree agree.symm (audio.symm agree) found'
            rw [found] at shown
            cases shown
      rw [hidden]
  | some row =>
      rw [sessionForAudioRead_agree agree audio found]
      obtain ⟨member, -, hears⟩ := sessionForAudioRead_hears found
      have same : AudioRange.getAudioForSession archive.db disk row.id =
          AudioRange.getAudioForSession other.db disk' row.id := by
        unfold AudioRange.getAudioForSession SessionRepository.getAudioSource
        rw [← audio.sources row member hears]
        cases source : archive.db.audioSources.get? row.id with
        | none => rfl
        | some audio =>
            dsimp only
            rw [files row member hears audio source]
      dsimp only
      rw [same]

end Audio

/-! ## Isolation -/

/-- A game master gets the same answers from any two states that agree for its key. -/
theorem gm_isolation {auth : AuthenticatedKey} {archive other : Archive}
    (agree : AgreeForGm auth archive other) :
    (∀ (uuid : Text → Option Uuid) (request : Gm.Request) (answer : Except AppError Response),
      Answers uuid archive auth request answer ↔ Answers uuid other auth request answer) ∧
    ∀ disk disk', AgreeOnAudio auth archive.db other.db → SameFiles auth archive.db disk disk' →
      ∀ session range, AudioRange.getAudio archive.db disk auth session range =
        AudioRange.getAudio other.db disk' auth session range :=
  ⟨fun _ _ _ => ⟨gm_answers_agree agree, gm_answers_agree agree.symm⟩,
    fun _ _ audio files => getAudio_agree agree audio files⟩

/-- A session of each of two keys, with its audio. What the second one is about, and the error of
its job, are parameters. -/
def neighbours (secret : Text) : Archive where
  db := { Database.empty with
    sessions := ⟨[⟨1, 7, none, .created, .diarised, none, none, none⟩,
      ⟨2, 9, none, .created, .diarised, some secret, none, some 5⟩], by simp⟩
    audioSources := ⟨[⟨1, .prepared 1, [], 2, none, none⟩, ⟨2, .prepared 2, secret, 1, none, none⟩],
      by simp⟩ }
  title := fun session => if session = 1 then ['T'] else secret
  recordedAt := fun _ => ⟨2026, 1, 1, 0, 0⟩
  createdAt := id
  generatedAt := fun _ _ => ⟨2026, 1, 1, 0, 0⟩
  editedAt := fun _ _ => none
  defaultCampaign := none
  sessionMode := fun _ => .batch
  updatedAt := id
  completedAt := id
  mappedAt := fun _ => 0
  playedAt := fun _ => 0
  pjCreatedAt := id
  pjUser := fun _ => none
  rq := fun job =>
    if job = 5 then
      some ⟨some .transcription, .session 2, some .failed, true, some secret, none, none, none,
        none,
        ⟨none, none⟩⟩
    else none

def recordings (secret : Bytes) : Disk :=
  fun path => if path = .prepared 1 then some [1, 2] else some secret

theorem neighbours_owned {secret : Text} {session : Uuid}
    (owned : OwnsSession (neighbours secret).db ⟨7, .apiKey, none⟩ session) : session = 1 := by
  obtain ⟨row, found, own⟩ := owned
  obtain ⟨member, rfl⟩ := Table.get?_eq_some.mp found
  simp only [neighbours, List.mem_cons, List.not_mem_nil, or_false] at member
  rcases member with rfl | rfl
  · rfl
  · cases own

theorem neighbours_jobs {secret secret' : Text} {job : JobId} {record : RqRecord} {kind : JobKind}
    {session : Uuid} (known : (neighbours secret).rq job = some record)
    (resolved : resolveJobIdentity job record = .ok (kind, session)) :
    ¬OwnsSession (neighbours secret').db ⟨7, .apiKey, none⟩ session := by
  intro owned
  obtain rfl := neighbours_owned owned
  simp only [neighbours] at known
  split at known
  · cases known
    cases resolved
  · cases known

theorem neighbours_agree (secret secret' : Text) :
    AgreeForGm ⟨7, .apiKey, none⟩ (neighbours secret) (neighbours secret') where
  sessions := by
    intro row own
    simp only [neighbours, List.mem_cons, List.not_mem_nil, or_false]
    constructor
    · rintro (rfl | rfl)
      · exact .inl rfl
      · cases own
    · rintro (rfl | rfl)
      · exact .inl rfl
      · cases own
  holds := by
    intro session owned
    obtain rfl := neighbours_owned owned
    exact ⟨rfl, rfl, rfl, rfl, rfl, fun _ _ => Iff.rfl, fun _ => rfl, fun _ _ => Iff.rfl,
      fun _ => rfl, rfl, rfl, fun _ => rfl, fun _ _ => Iff.rfl⟩
  members := fun _ _ => Iff.rfl
  pjs := fun _ _ => Iff.rfl
  pjColumns := fun _ member _ => by cases member
  campaigns := fun _ _ => Iff.rfl
  statistics := fun _ member => by
    obtain ⟨_, web, -⟩ := member
    cases web
  taken := fun _ _ => rfl
  outside := by
    intro session
    constructor
    · rintro ⟨_, _, _, _, _, web, _⟩
      cases web
    · rintro ⟨_, _, _, _, _, web, _⟩
      cases web
  jobs := fun job record kind session resolved owned => by
    constructor
    · exact fun known => (neighbours_jobs known resolved owned).elim
    · exact fun known => (neighbours_jobs known resolved owned).elim
  unnamed := by
    intro job e
    have named {secret : Text} : ¬∃ record, (neighbours secret).rq job = some record ∧
        resolveJobIdentity job record = .error e := by
      rintro ⟨record, known, refused⟩
      simp only [neighbours] at known
      split at known
      · cases known
        cases refused
      · cases known
    exact iff_of_false named named

theorem neighbours_hears {secret secret' : Text} {row : Session}
    (member : row ∈ (neighbours secret).db.sessions.rows)
    (hears : Hears (neighbours secret').db ⟨7, .apiKey, none⟩ row) : row.id = 1 := by
  rcases hears with own | ⟨_, _, _, web, -⟩
  · simp only [neighbours, List.mem_cons, List.not_mem_nil, or_false] at member
    rcases member with rfl | rfl
    · rfl
    · cases own
  · cases web

theorem neighbours_audio (secret secret' : Text) :
    AgreeOnAudio ⟨7, .apiKey, none⟩ (neighbours secret).db (neighbours secret').db where
  sessions := by
    rintro row (own | ⟨_, _, _, web, -⟩)
    · exact (neighbours_agree secret secret').sessions row own
    · cases web
  sources := fun row member hears => by
    rw [neighbours_hears member hears]
    rfl

theorem gm_isolation_neighbours :
    (Answers (fun _ => none) (neighbours ['x']) ⟨7, .apiKey, none⟩ (.job 5 0)
        (getJob (neighbours ['x']) ⟨7, .apiKey, none⟩ 5 0) ↔
      Answers (fun _ => none) (neighbours ['y']) ⟨7, .apiKey, none⟩ (.job 5 0)
        (getJob (neighbours ['x']) ⟨7, .apiKey, none⟩ 5 0)) ∧
    AudioRange.getAudio (neighbours ['x']).db (recordings [3]) ⟨7, .apiKey, none⟩ 1 none =
      AudioRange.getAudio (neighbours ['y']).db (recordings [4]) ⟨7, .apiKey, none⟩ 1 none := by
  obtain ⟨answers, audio⟩ := gm_isolation (neighbours_agree ['x'] ['y'])
  refine ⟨answers (fun _ => none) (.job 5 0) _, audio _ _ (neighbours_audio _ _) ?_ 1 none⟩
  intro row member hears source stored
  rw [neighbours_hears member hears] at stored
  cases stored
  rfl

end Kaeyris.Proof
