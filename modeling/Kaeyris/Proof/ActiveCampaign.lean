import Kaeyris.Proof.CampaignContext
import Kaeyris.Proof.CampaignKeys

/-!
# Whom a campaign belongs to, and where a user works

Each step is traced back to moves. A user who is made joins a campaign and works there until it is
dropped; game masters own their campaigns, but for administrators who had none.
-/

namespace Kaeyris.CampaignContext
open Lib Proof Campaigns

abbrev Moves (raised : Uuid → Prop) (dropped : Option Uuid) : Service → Service → Prop :=
  Relation.ReflTransGen (Move raised dropped)

section Moves
variable {raised : Uuid → Prop} {s s' : Service} {dropped : Option Uuid} {user campaign : Uuid}

theorem rooted_moves (rooted : Rooted s) (moves : Moves raised dropped s s') : Rooted s' := by
  induction moves with
  | refl => exact rooted
  | tail _ move ih => exact rooted_move ih move

theorem placed_moves {role : CampaignRole} (rooted : Rooted s) (moves : Moves raised dropped s s')
    (kept : dropped ≠ some campaign) (placed : Placed user campaign role s) :
    Placed user campaign role s' := by
  induction moves with
  | refl => exact placed
  | tail before move ih => exact placed_move (rooted_moves rooted before) move kept ih

theorem member_moves (moves : Moves raised dropped s s') (kept : dropped ≠ some campaign)
    {member : CampaignMember}
    (found : CampaignRepository.getMembership s.db user campaign = some member) :
    CampaignRepository.getMembership s'.db user campaign = some member := by
  induction moves with
  | refl => exact found
  | tail _ move ih => exact (member_move move kept ih).1

theorem justified_moves {promoted : Uuid → Prop} (justified : Justified promoted s)
    (moves : Moves raised dropped s s') (among : ∀ user, raised user → promoted user) :
    Justified promoted s' := by
  induction moves with
  | refl => exact justified
  | tail _ move ih => exact justified_move ih move among

end Moves

/-! ## The active campaign -/

section Active
variable {s : Service} {user : Users.User}

instance (s : Service) : Std.Total s.joinedBefore where
  total a b := by
    rcases lt_trichotomy (s.joining a.2.key).joinedAt (s.joining b.2.key).joinedAt with
      earlier | same | later
    · exact .inl (.inl earlier)
    · exact (le_total a.1.id b.1.id).imp (fun le => .inr ⟨same, le⟩) fun le => .inr ⟨same.symm, le⟩
    · exact .inr (.inl later)

instance (s : Service) : IsTrans (Campaign × CampaignMember) s.joinedBefore where
  trans a b c first second := by
    rcases first with earlier | ⟨same, le⟩
    · rcases second with earlier' | ⟨same', -⟩
      · exact .inl (earlier.trans earlier')
      · exact .inl (same' ▸ earlier)
    · rcases second with earlier' | ⟨same', le'⟩
      · exact .inl (same ▸ earlier')
      · exact .inr ⟨same.trans same', le.trans le'⟩

theorem mem_memberships_iff {joined : Campaign × CampaignMember} {user : Uuid} :
    joined ∈ Gm.memberships s.db user ↔
      s.db.campaigns.get? joined.1.id = some joined.1 ∧
        CampaignRepository.getMembership s.db user joined.1.id = some joined.2 := by
  unfold CampaignRepository.getMembership
  rw [mem_memberships, Table.get?_eq_some, Table.get?_eq_some]
  simp only [CampaignMember.key, Prod.mk.injEq]
  tauto

theorem exists_joined (rooted : Rooted s) {user campaign : Uuid} {member : CampaignMember}
    (found : CampaignRepository.getMembership s.db user campaign = some member) :
    ∃ row, row.id = campaign ∧ (row, member) ∈ Gm.memberships s.db user := by
  obtain ⟨row, stored⟩ := Option.isSome_iff_exists.mp (rooted.present user campaign member found)
  obtain rfl := Table.key_of_get? stored
  exact ⟨row, rfl, mem_memberships_iff.mpr ⟨stored, found⟩⟩

theorem resolve_none (rooted : Rooted s) (active : user.status = .active)
    (unshown : resolveActiveCampaignForUser s user = none) (campaign : Uuid) :
    CampaignRepository.getMembership s.db user.id campaign = none := by
  cases found : CampaignRepository.getMembership s.db user.id campaign with
  | none => rfl
  | some member =>
      obtain ⟨row, -, listed⟩ := exists_joined rooted found
      unfold resolveActiveCampaignForUser at unshown
      rw [if_neg (by simp [active])] at unshown
      simp only [Option.map_eq_none_iff, Option.or_eq_none_iff, List.head?_eq_none_iff,
        Table.insertionSort_eq_nil] at unshown
      rw [unshown.2] at listed
      cases listed

theorem resolve_some {context : ActiveCampaignContext}
    (shown : resolveActiveCampaignForUser s user = some context) :
    user.status = .active ∧ ∃ joined ∈ Gm.memberships s.db user.id, context = s.contextOf joined ∧
      (s.keys.defaultCampaignId user.id = some joined.1.id ∨
        ∀ other ∈ Gm.memberships s.db user.id,
          s.keys.defaultCampaignId user.id ≠ some other.1.id ∧ s.joinedBefore joined other) := by
  unfold resolveActiveCampaignForUser at shown
  split at shown
  · cases shown
  · rename_i active
    refine ⟨not_not.mp active, ?_⟩
    obtain ⟨joined, chosen, rfl⟩ := Option.map_eq_some_iff.mp shown
    rcases Option.or_eq_some_iff.mp chosen with default | ⟨none, first⟩
    · have held := List.find?_some default
      exact ⟨joined, List.mem_of_find?_eq_some default, rfl, .inl (of_decide_eq_true held)⟩
    · obtain ⟨rest, sorted⟩ := List.head?_eq_some_iff.mp first
      have ordered := List.pairwise_insertionSort s.joinedBefore (Gm.memberships s.db user.id)
      have member (other : Campaign × CampaignMember) :
          other ∈ Gm.memberships s.db user.id ↔ other ∈ joined :: rest := by
        rw [← sorted, List.mem_insertionSort]
      rw [sorted] at ordered
      refine ⟨joined, (member joined).mpr List.mem_cons_self, rfl, .inr fun other listed => ?_⟩
      refine ⟨by simpa using List.find?_eq_none.mp none other listed, ?_⟩
      rcases List.mem_cons.mp ((member other).mp listed) with rfl | later
      · exact .inr ⟨rfl, le_refl _⟩
      · exact (List.pairwise_cons.mp ordered).1 other later

theorem Placed.shown {campaign : Uuid} {role : CampaignRole} (rooted : Rooted s)
    (placed : Placed user.id campaign role s) (active : user.status = .active) :
    ∃ name, resolveActiveCampaignForUser s user = some ⟨campaign, name, role, none⟩ := by
  obtain ⟨row, rfl, listed⟩ := exists_joined rooted placed.member
  have found : (Gm.memberships s.db user.id).find? (fun joined => some row.id = some joined.1.id) =
      some (row, ⟨user.id, row.id, role⟩) := by
    cases first : (Gm.memberships s.db user.id).find?
        (fun joined => some row.id = some joined.1.id) with
    | none => simpa using List.find?_eq_none.mp first _ listed
    | some joined =>
        have held := List.find?_some first
        have same : some row.id = some joined.1.id := of_decide_eq_true held
        rw [joined_unique (List.mem_of_find?_eq_some first) listed (Option.some.inj same).symm]
  refine ⟨row.name, ?_⟩
  unfold resolveActiveCampaignForUser
  rw [if_neg (by simp [active]), placed.default]
  dsimp only
  rw [found, Option.some_or, Option.map_some]
  unfold Service.contextOf
  have plain := rooted.plain user.id row.id _ placed.member
  exact congrArg (fun character => some (ActiveCampaignContext.mk row.id row.name role character))
    plain

end Active

/-! ## Joining -/

section Joining
variable {raised : Uuid → Prop} {s s' : Service} {dropped : Option Uuid} {now : Timestamp}

theorem ensureUserMembership_absent {user : Users.User} {campaign : Campaign}
    (absent : CampaignRepository.getMembership s.db user.id campaign.id = none)
    (role : Option CampaignRole) (now : Timestamp) :
    ensureUserMembership s user campaign role none now =
      .ok (enrolled s user.id campaign.id
        (role.getD (campaignRoleForSystemRole user.systemRole)) now) := by
  have held : CampaignRepository.getMembership s.keys.db user.id campaign.id = none := absent
  unfold ensureUserMembership enrolled CampaignKeys.ensureUserMembership
  rw [absent, held]
  rfl

theorem Rooted.absent {user : Uuid} (rooted : Rooted s) (unknown : ¬Known s.accounts user)
    (campaign : Uuid) : CampaignRepository.getMembership s.db user campaign = none := by
  cases found : CampaignRepository.getMembership s.db user campaign with
  | none => rfl
  | some member => exact (unknown (rooted.known user campaign member found)).elim

theorem Rooted.homeless {user : Uuid} (rooted : Rooted s) (unknown : ¬Known s.accounts user) :
    s.keys.defaultCampaignId user = none := by
  cases taken : s.keys.defaultCampaignId user with
  | none => rfl
  | some campaign => exact (unknown (rooted.homed user campaign taken)).elim

theorem placed_enrolled {user : Uuid} (rooted : Rooted s) (known : Known s.accounts user)
    (homeless : s.keys.defaultCampaignId user = none) (campaign : Uuid) (role : CampaignRole)
    (now : Timestamp) :
    Placed user campaign role (enrolled s user campaign role now) where
  default := by
    rw [default_enrolled rooted.shared known, if_pos rfl, homeless]
    rfl
  member := by rw [getMembership_enrolled, if_pos ⟨rfl, rfl⟩]

variable (raised dropped) in
theorem ensureDefaultCampaign_total {owner : Uuid} (known : Known s.accounts owner)
    (now : Timestamp) :
    ∃ campaign s', ensureDefaultCampaign s owner now = .ok (campaign, s') ∧
      Moves raised dropped s s' ∧ s'.accounts = s.accounts ∧ s'.keys.defaultCampaignId =
        s.keys.defaultCampaignId ∧ s'.db.campaignMembers = s.db.campaignMembers ∧
      s'.db.campaigns.get? campaign.id = some campaign ∧
        (s.db.campaigns.get? campaign.id = some campaign ∨ Owns s' owner campaign.id) := by
  unfold ensureDefaultCampaign
  cases oldest : getDefaultCampaign s.db with
  | some campaign =>
      obtain ⟨rest, sorted⟩ := List.head?_eq_some_iff.mp oldest
      have listed : campaign ∈ s.db.campaigns.rows := by
        rw [← List.mem_insertionSort campaignOlder, sorted]
        exact List.mem_cons_self
      have stored := Table.get?_self listed
      exact ⟨campaign, s, rfl, .refl, rfl, rfl, rfl, stored, .inl stored⟩
  | none =>
      let campaign : Campaign :=
        ⟨newCampaignId s.db, defaultCampaignName, none, owner, now⟩
      obtain ⟨campaigns, inserted, -⟩ :=
        Table.insert?_of_free (r := campaign) (newCampaignId_free s.db).1
      have stored := Table.get?_insert? inserted (newCampaignId s.db)
      rw [if_pos rfl] at stored
      refine ⟨campaign, s.withDb { s.db with campaigns := campaigns }, ?_,
        .single (.found _ campaigns known inserted), rfl, rfl, rfl, stored,
        .inr ⟨_, stored, rfl⟩⟩
      dsimp only
      rw [inserted]

end Joining

/-! ## Routes -/

section Routes
variable {env : Users.Security} {s s' : Service} {accounts after : Users.Accounts}
  {now : Timestamp} {auth : AuthenticatedKey}

theorem requireAdminUser_ok {row : Users.User}
    (done : Users.requireAdminUser accounts auth = .ok row) :
    auth.source = .webSession ∧ row.systemRole = .admin ∧ auth.userId = some row.id ∧
      accounts.users.get? row.id = some row := by
  unfold Users.requireAdminUser at done
  split at done
  · rename_i user source found
    split at done
    · rename_i admin
      cases done
      obtain ⟨id, named, stored⟩ := Option.bind_eq_some_iff.mp found
      obtain rfl := Table.key_of_get? stored
      exact ⟨source, admin, named, stored⟩
    · cases done
  · cases done

theorem validated {token : Text} {found : Users.ValidatedWebSession}
    (valid : Users.validateWebSession env accounts token now = some found) :
    accounts.users.get? found.user.id = some found.user ∧ found.user.status = .active := by
  unfold Users.validateWebSession at valid
  obtain ⟨joined, read, valid⟩ := Option.bind_eq_some_iff.mp valid
  split at valid
  · cases valid
  · rename_i accepted
    cases valid
    simp only [Bool.or_eq_true, decide_eq_true_eq, not_or, not_not] at accepted
    obtain ⟨_, -, read⟩ := Option.bind_eq_some_iff.mp read
    obtain ⟨user, owner, read⟩ := Option.bind_eq_some_iff.mp read
    cases read
    have self := Table.key_of_get? owner
    exact ⟨self ▸ owner, accepted.2⟩

theorem session_user {credentials : Users.Credentials} {role : Users.KeyRole} {user : Uuid}
    (done : Users.requireApiKey env accounts (ofRegistry credentials) now =
      .ok ((role, auth), after))
    (session : auth.source = .webSession) (named : auth.userId = some user) :
    ∃ row, accounts.users.get? user = some row ∧ row.status = .active := by
  unfold Users.requireApiKey ofRegistry at done
  dsimp only at done
  split at done
  · rename_i answer bearer
    obtain ⟨given, -, rfl⟩ := Option.map_eq_some_iff.mp bearer
    obtain ⟨key, answered, same⟩ := except_map_ok done
    cases same
    obtain ⟨_, -, same⟩ := except_map_ok answered
    cases same
    cases session
  · split at done
    · rename_i token found valid
      cases done
      obtain ⟨owner, active⟩ := validated valid
      have same : found.user.id = user := Option.some.inj named
      exact ⟨found.user, same ▸ owner, active⟩
    · cases done
  · cases done

theorem newUser_row {hashing : Users.Hashing} {drawn : Users.Drawn} {username password : Text}
    {systemRole : Users.SystemRole} {profile : Option Users.Profile} {new : Users.NewUser}
    (done : Users.createUser hashing accounts drawn username (some systemRole) profile password =
      .ok (new, after)) :
    new.user.id = drawn.userId ∧ new.user.systemRole = systemRole := by
  obtain ⟨made, built, done⟩ := except_bind_ok done
  split at done
  · cases done
    obtain ⟨_, -, built⟩ := except_bind_ok built
    split at built
    · cases built
    · obtain ⟨_, -, built⟩ := except_bind_ok built
      cases built
      exact ⟨rfl, rfl⟩
  · cases done

theorem resolveScope_session {row : Users.User} (session : auth.source = .webSession)
    (named : auth.userId = some row.id) (stored : s.accounts.users.get? row.id = some row) :
    resolveCampaignScopeForAuth s .gm none auth =
      (resolveActiveCampaignForUser s row).map fun context =>
        ⟨context.id, context.role, some row.id, context.characterId⟩ := by
  unfold resolveCampaignScopeForAuth
  rw [session, named]
  dsimp only
  rw [stored]
  change (resolveActiveCampaignForUser s row).bind _ = _
  cases resolveActiveCampaignForUser s row with
  | none => rfl
  | some context => rfl

/-- An administrator works where its session says, or joins the oldest campaign for it. -/
theorem activeOrDefaultScope_total (raised : Uuid → Prop) (dropped : Option Uuid) {row : Users.User}
    (rooted : Rooted s) (session : auth.source = .webSession)
    (named : auth.userId = some row.id) (stored : s.accounts.users.get? row.id = some row)
    (active : row.status = .active)
    (unplaced : (∀ campaign, CampaignRepository.getMembership s.db row.id campaign = none) →
      row.systemRole = .admin → raised row.id) (now : Timestamp) :
    ∃ scope campaign s', activeOrDefaultScope s auth now = .ok (some scope, s') ∧
      scope.campaignId = campaign.id ∧
      CampaignRepository.get s'.db campaign.id = some campaign ∧
      Moves raised dropped s s' ∧ s'.accounts = s.accounts ∧
      (∀ user, user ≠ row.id → s'.keys.defaultCampaignId user = s.keys.defaultCampaignId user ∧
        ∀ campaign, CampaignRepository.getMembership s'.db user campaign =
          CampaignRepository.getMembership s.db user campaign) ∧
      ∀ context, resolveActiveCampaignForUser s row = some context → campaign.id = context.id := by
  have resolved := resolveScope_session session named stored
  have owner : ownerUserForAuth s.accounts auth = some row := by
    unfold ownerUserForAuth
    rw [named]
    exact stored
  unfold activeOrDefaultScope
  rw [resolved, owner]
  cases shown : resolveActiveCampaignForUser s row with
  | some context =>
      obtain ⟨-, joined, listed, rfl, -⟩ := resolve_some shown
      refine ⟨_, joined.1, s, rfl, rfl, ?_, .refl, rfl, fun user _ => ⟨rfl, fun _ => rfl⟩, ?_⟩
      · exact (mem_memberships_iff.mp listed).1
      · intro context same
        cases same
        rfl
  | none =>
      -- A member of nothing joins the oldest campaign, or one that is founded for it.
      have nowhere := resolve_none rooted active shown
      have known : Known s.accounts row.id := Option.isSome_iff_exists.mpr ⟨row, stored⟩
      obtain ⟨campaign, founded, ensured, moves, accounts, defaults, members, present, -⟩ :=
        ensureDefaultCampaign_total raised dropped known now
      have same (user target : Uuid) : CampaignRepository.getMembership founded.db user target =
          CampaignRepository.getMembership s.db user target := by
        unfold CampaignRepository.getMembership
        rw [members]
      have absent : CampaignRepository.getMembership founded.db row.id campaign.id = none :=
        (same row.id campaign.id).trans (nowhere campaign.id)
      have known' : Known founded.accounts row.id := by
        rw [accounts]
        exact known
      let role := campaignRoleForSystemRole row.systemRole
      have right : role = .gm → Owns founded row.id campaign.id ∨ raised row.id := by
        intro gm
        refine .inr (unplaced nowhere ?_)
        cases systemRole : row.systemRole with
        | admin => rfl
        | user =>
            simp only [role, systemRole] at gm
            cases gm
      have enrols : Move raised dropped founded (enrolled founded row.id campaign.id role now) :=
        .enrol row.id campaign.id role now known' (Option.isSome_of_mem present) absent right
      refine ⟨⟨campaign.id, role, some row.id, none⟩, campaign,
        enrolled founded row.id campaign.id role now, ?_, rfl, ?_, moves.tail enrols, accounts,
        fun user other => ⟨?_, fun target => ?_⟩, ?_⟩
      · dsimp only [Option.map_none]
        rw [ensured]
        change (ensureUserMembership founded row campaign (some role) none now).bind _ = _
        rw [ensureUserMembership_absent absent]
        rfl
      · unfold CampaignRepository.get
        rw [campaigns_enrolled]
        exact present
      · rw [default_enrolled (rooted_moves rooted moves).shared known', if_neg other, defaults]
      · rw [getMembership_enrolled, if_neg, same]
        rintro ⟨rfl, -⟩
        exact other rfl
      · intro context impossible
        cases impossible

theorem newUser_joins (dropped : Option Uuid) {credentials : Users.Credentials}
    {username password : Text} {systemRole : Users.SystemRole} {drawn : Users.Drawn}
    {admin : Users.User} {new : Users.NewUser} {seen created : Users.Accounts} (rooted : Rooted s)
    (authenticated : Users.requireGm env s.accounts (ofRegistry credentials) drawn.now =
      .ok (auth, seen))
    (permitted : Users.requireAdminUser seen auth = .ok admin)
    (inserted : Users.createUser env.toHashing seen drawn username (some systemRole) none password =
      .ok (new, created)) :
    ∃ scope joined campaign s',
      activeOrDefaultScope (s.withAccounts created) auth drawn.now = .ok (some scope, joined) ∧
      CampaignRepository.get joined.db scope.campaignId = some campaign ∧
      ensureUserMembership joined new.user campaign (some .pj) none drawn.now = .ok s' ∧
      s'.accounts = created ∧ Moves (Raised env s credentials drawn.now) dropped s s' ∧
      Placed drawn.userId campaign.id .pj s' ∧
      ∀ admin context, auth.userId = some admin.id → s.accounts.users.get? admin.id = some admin →
        resolveActiveCampaignForUser s admin = some context → campaign.id = context.id := by
  obtain ⟨role, keyed⟩ := requireGm_ok authenticated
  have users := users_requireApiKey keyed
  obtain ⟨session, isAdmin, named, stored⟩ := requireAdminUser_ok permitted
  rw [users] at stored
  obtain ⟨row, owner, active⟩ := session_user keyed session named
  rw [stored] at owner
  cases owner
  obtain ⟨isNew, rows⟩ := users_createUser inserted
  obtain ⟨id, -⟩ := newUser_row inserted
  rw [Known, users] at isNew
  simp only [users] at rows
  -- The administrator was there before, so its row and its memberships are not the new user's.
  have apart : admin.id ≠ new.user.id := by
    intro same
    rw [← same, stored] at isNew
    exact isNew rfl
  have stored' : created.users.get? admin.id = some admin := by
    rw [rows, if_neg apart.symm]
    exact stored
  have known : Known created new.user.id := by
    rw [Known, rows, if_pos rfl]
    rfl
  let raised := Raised env s credentials drawn.now
  have first : Move raised dropped s (s.withAccounts created) := by
    refine .accounts created fun user before => ?_
    rw [Known, rows]
    split
    · rfl
    · exact before
  have rooted' := rooted_move rooted first
  obtain ⟨scope, campaign, joined, resolved, same, present, moves, accounts, others, chosen⟩ :=
    activeOrDefaultScope_total raised dropped rooted' session named stored' active
      (fun nowhere _ => ⟨⟨admin, stored, isAdmin, active, nowhere⟩, auth, seen, authenticated, named⟩)
      drawn.now
  obtain ⟨default, members⟩ := others new.user.id apart.symm
  have absent := (members campaign.id).trans (rooted.absent isNew campaign.id)
  have known' : Known joined.accounts new.user.id := by
    rw [accounts]
    exact known
  have enrols : Move raised dropped joined
      (enrolled joined new.user.id campaign.id .pj drawn.now) :=
    .enrol new.user.id campaign.id .pj drawn.now known' (Option.isSome_of_mem present) absent
      fun impossible => by cases impossible
  rw [← id]
  refine ⟨scope, joined, campaign, enrolled joined new.user.id campaign.id .pj drawn.now, resolved,
    ?_, ensureUserMembership_absent absent (some .pj) drawn.now, accounts,
    (Relation.ReflTransGen.head first moves).tail enrols, ?_, ?_⟩
  · rw [same]
    exact present
  · exact placed_enrolled (rooted_moves rooted' moves) known'
      (default.trans (rooted.homeless isNew)) campaign.id .pj drawn.now
  · intro other context asks found shown
    have self : admin.id = other.id := Option.some.inj (named.symm.trans asks)
    rw [← self, stored] at found
    cases found
    exact chosen context shown

theorem postUser_ok (dropped : Option Uuid) {credentials : Users.Credentials}
    {username password : Text} {systemRole : Users.SystemRole} {drawn : Users.Drawn}
    (rooted : Rooted s)
    (done : postUser env s (ofRegistry credentials) username systemRole password drawn = .ok s') :
    Moves (Raised env s credentials drawn.now) dropped s s' ∧ ∃ auth seen campaign,
      Users.requireGm env s.accounts (ofRegistry credentials) drawn.now = .ok (auth, seen) ∧
      Placed drawn.userId campaign .pj s' ∧
      ∀ admin context, auth.userId = some admin.id → s.accounts.users.get? admin.id = some admin →
        resolveActiveCampaignForUser s admin = some context → campaign = context.id := by
  obtain ⟨⟨auth, seen⟩, authenticated, done⟩ := except_bind_ok done
  obtain ⟨admin, permitted, done⟩ := except_bind_ok done
  obtain ⟨⟨new, created⟩, inserted, done⟩ := except_bind_ok done
  obtain ⟨scope, joined, campaign, after, resolved, present, enrolls, -, moves, placed, chosen⟩ :=
    newUser_joins dropped rooted authenticated permitted (except_mapError_ok inserted)
  obtain ⟨⟨_, _⟩, resolved', done⟩ := except_bind_ok done
  have resolved' := except_mapError_ok resolved'
  rw [resolved] at resolved'
  cases resolved'
  dsimp only at done
  rw [Option.bind_some, present] at done
  have done := except_mapError_ok done
  rw [enrolls] at done
  cases done
  exact ⟨moves, auth, seen, campaign.id, authenticated, placed, chosen⟩

theorem firstUser_joins (raised : Uuid → Prop) (dropped : Option Uuid) {username password : Text} {drawn : Users.Drawn}
    {new : Users.NewUser} {created : Users.Accounts} (rooted : Rooted s)
    (inserted : Users.createFirstGm env.toHashing s.accounts drawn username password =
      .ok (new, created)) (now : Timestamp) :
    ∃ campaign founded s',
      ensureDefaultCampaign (s.withAccounts created) new.user.id now = .ok (campaign, founded) ∧
      ensureUserMembership founded new.user campaign none none now = .ok s' ∧
      s'.accounts = created ∧ Moves raised dropped s s' ∧ Placed drawn.userId campaign.id .gm s' := by
  unfold Users.createFirstGm at inserted
  split at inserted
  · cases inserted
  rename_i required
  have empty : s.accounts.users.rows = [] := by
    simpa [Users.setupRequired] using required
  have nobody (user : Uuid) : ¬Known s.accounts user := by
    simp [Known, Table.get?, empty]
  obtain ⟨-, rows⟩ := users_createUser inserted
  obtain ⟨id, isAdmin⟩ := newUser_row inserted
  have known : Known created new.user.id := by
    rw [Known, rows, if_pos rfl]
    rfl
  have first : Move raised dropped s (s.withAccounts created) :=
    .accounts created fun user before => (nobody user before).elim
  have rooted' := rooted_move rooted first
  obtain ⟨campaign, founded, ensured, moves, accounts, defaults, members, present, old | owns⟩ :=
    ensureDefaultCampaign_total (s := s.withAccounts created) raised dropped known now
  · exact (nobody _ (rooted.owned campaign.id campaign old)).elim
  have absent : CampaignRepository.getMembership founded.db new.user.id campaign.id = none := by
    unfold CampaignRepository.getMembership
    rw [members]
    exact rooted.absent (nobody _) campaign.id
  have homeless : founded.keys.defaultCampaignId new.user.id = none := by
    rw [defaults]
    exact rooted.homeless (nobody _)
  have known' : Known founded.accounts new.user.id := by
    rw [accounts]
    exact known
  have enrols : Move raised dropped founded (enrolled founded new.user.id campaign.id .gm now) :=
    .enrol new.user.id campaign.id .gm now known' (Option.isSome_of_mem present) absent
      fun _ => .inl owns
  have enrolls := ensureUserMembership_absent absent none now
  rw [isAdmin] at enrolls
  rw [← id]
  exact ⟨campaign, founded, enrolled founded new.user.id campaign.id .gm now, ensured, enrolls,
    accounts, (Relation.ReflTransGen.head first moves).tail enrols,
    placed_enrolled (rooted_moves rooted' moves) known' homeless campaign.id .gm now⟩

theorem postSetup_ok (raised : Uuid → Prop) (dropped : Option Uuid) {username password : Text} {drawn : Users.Drawn}
    {draw : Users.SessionDraw} (rooted : Rooted s)
    (done : postSetup env s username password drawn draw = .ok s') :
    Moves raised dropped s s' ∧ ∃ campaign, Placed drawn.userId campaign .gm s' := by
  obtain ⟨⟨new, created⟩, inserted, done⟩ := except_bind_ok done
  obtain ⟨campaign, founded, joined, ensured, enrolls, -, moves, placed⟩ :=
    firstUser_joins raised dropped rooted (except_mapError_ok inserted) drawn.now
  obtain ⟨⟨_, _⟩, ensured', done⟩ := except_bind_ok done
  have ensured' := except_mapError_ok ensured'
  rw [ensured] at ensured'
  cases ensured'
  obtain ⟨_, enrolls', done⟩ := except_bind_ok done
  have enrolls' := except_mapError_ok enrolls'
  rw [enrolls] at enrolls'
  cases enrolls'
  obtain ⟨accounts, opened, done⟩ := except_bind_ok done
  cases done
  have opens : Move raised dropped joined (joined.withAccounts accounts) :=
    .accounts accounts fun user before =>
      (sameUsers_createWebSession (except_mapError_ok opened)).known.mpr before
  exact ⟨moves.tail opens, campaign.id, placed.default, placed.member⟩

theorem createCampaign_moves {naming : Naming} {user : Uuid} {name : CampaignName}
    {description : Option Text} {now : Timestamp} (known : Known s.accounts user)
    (done : createCampaign naming s user name description now = .ok s') : Moves raised dropped s s' := by
  obtain ⟨keys, created, rfl⟩ := except_map_ok done
  obtain ⟨db, made, same⟩ := except_bind_ok created
  cases same
  obtain ⟨after, named, joins⟩ := except_bind_ok made
  have named := except_mapError_ok named
  unfold CampaignRepository.create at named
  split at named
  · cases named
  split at named
  · rename_i campaigns inserted
    cases named
    unfold CampaignRepository.addMembership at joins
    cases added : s.keys.db.campaignMembers.insert? ⟨user, newCampaignId s.keys.db, .gm⟩ with
    | none =>
        simp only [added] at joins
        cases joins
    | some members =>
        simp only [added] at joins
        cases joins
        obtain ⟨-, absent⟩ := newCampaignId_free s.keys.db
        have stored := Table.get?_insert? inserted (newCampaignId s.keys.db)
        rw [if_pos rfl] at stored
        have founds : Move raised dropped s (s.withDb { s.db with campaigns := campaigns }) :=
          .found _ campaigns known inserted
        have enrols : Move raised dropped (s.withDb { s.db with campaigns := campaigns })
            (enrolled (s.withDb { s.db with campaigns := campaigns }) user (newCampaignId s.db) .gm
              now) :=
          .enrol user (newCampaignId s.db) .gm now known (Option.isSome_iff_exists.mpr ⟨_, stored⟩)
            (absent user) fun _ => .inl ⟨_, stored, rfl⟩
        obtain rfl := Table.put_of_insert? added
        exact (Relation.ReflTransGen.single founds).tail enrols
  · cases named

theorem patchCampaign_moves {naming : Naming} {user campaign : Uuid} {name : Option CampaignName}
    {description : Option (Option Text)}
    (done : patchCampaign naming s user campaign name description = .ok s') :
    Moves raised dropped s s' := by
  obtain ⟨db, patched, rfl⟩ := except_map_ok done
  obtain ⟨row, -, saved⟩ := except_bind_ok patched
  have saved := except_mapError_ok saved
  unfold CampaignRepository.updateCampaign at saved
  dsimp only at saved
  split at saved
  · cases saved
    exact .single (.rename row.id _ _ fun _ => rfl)
  · split at saved
    · cases saved
    · cases saved
      exact .single (.rename row.id _ _ fun _ => rfl)

theorem deleteCampaign_ok {backend : CampaignKeys.Backend} {user campaign : Uuid}
    (done : deleteCampaign backend s user campaign = .ok s') :
    ∃ row keys, row.id = campaign ∧ s.db.campaigns.get? campaign = some row ∧
      s' = { s with keys := keys } ∧ keys.db = CampaignRepository.deleteCampaign s.db row ∧
      ∀ user, keys.defaultCampaignId user = s.keys.defaultCampaignId user ∨
        s.keys.defaultCampaignId user = some campaign := by
  obtain ⟨keys, deleted, rfl⟩ := except_map_ok done
  rcases CampaignKeys.deleteCampaign_cases backend s.keys campaign user with
    ⟨e, -, refused, -⟩ | ⟨row, found, -, -, reached⟩
  · rw [refused] at deleted
    cases deleted
  · rw [reached] at deleted
    refine ⟨row, keys, Table.key_of_get? found, found, rfl, ?_⟩
    cases backend with
    | sqlite =>
        cases deleted
        exact ⟨rfl, fun user => .inl rfl⟩
    | postgresql =>
        unfold CampaignKeys.Store.deleted at deleted
        dsimp only at deleted
        split at deleted
        · cases deleted
        · cases deleted
          refine ⟨rfl, fun user => ?_⟩
          unfold CampaignKeys.Store.clearDefaults
          dsimp only
          split
          · exact .inr ‹_›
          · exact .inl rfl

theorem deleteCampaign_moves {backend : CampaignKeys.Backend} {user campaign : Uuid}
    (done : deleteCampaign backend s user campaign = .ok s') : Moves raised (some campaign) s s' := by
  obtain ⟨row, keys, rfl, found, rfl, db, defaults⟩ := deleteCampaign_ok done
  exact .single (.drop row keys rfl found db defaults)

theorem deleteCampaign_gone {backend : CampaignKeys.Backend} {user campaign : Uuid}
    (done : deleteCampaign backend s user campaign = .ok s') :
    s'.db.campaigns.get? campaign = none := by
  obtain ⟨row, keys, rfl, found, rfl, db, -⟩ := deleteCampaign_ok done
  change keys.db.campaigns.get? row.id = none
  rw [db]
  exact CampaignKeys.campaign_gone found

end Routes

end Kaeyris.CampaignContext
