import Kaeyris.Lib.Transition
import Kaeyris.Proof.ActiveCampaign

/-!
# Where users work, run after run
-/

namespace Kaeyris.CampaignContext
open Lib Proof Campaigns

/-! ## Steps -/

section Steps
variable {env : Users.Security} {s s' : Service} {dropped : Option Uuid}

def Label.drops : Label → Option Uuid
  | .campaign _ (.delete target) _ => some target
  | _ => none

/-- Those whom a step may make game masters of campaigns they do not own. -/
def Label.raises (env : Users.Security) (s : Service) : Label → Uuid → Prop
  | .account (.createUser credentials _ _ _ drawn) => Raised env s credentials drawn.now
  | _ => fun _ => False

theorem handleAccount_moves {request : Users.AccountRequest} (rooted : Rooted s)
    (done : handleAccount env s request = .ok s') :
    Moves (Label.raises env s (.account request)) dropped s s' := by
  have plain {request : Users.AccountRequest} {raised : Uuid → Prop}
      (other : creates request = false)
      (done : (request.handle env s.accounts).map (fun reply => s.withAccounts reply.accounts) =
        .ok s') : Moves raised dropped s s' := by
    obtain ⟨reply, handled, rfl⟩ := except_map_ok done
    exact .single (.accounts reply.accounts fun user =>
      (sameUsers_handle other handled).known.mpr)
  cases request with
  | setup username password drawn draw => exact (postSetup_ok _ dropped rooted done).1
  | createUser credentials username systemRole password drawn =>
      exact (postUser_ok dropped rooted done).1
  | login | logout | patchUser | deleteUser | other => exact plain rfl done

theorem handleCampaign_ok {naming : Naming} {backend : CampaignKeys.Backend}
    {credentials : Users.Credentials} {route : CampaignRoute} {now : Timestamp}
    (done : handleCampaign env naming backend s credentials route now = .ok s') :
    ∃ role auth seen user,
      Users.requireApiKey env s.accounts (ofRegistry credentials) now = .ok ((role, auth), seen) ∧
        auth.source = .webSession ∧ auth.userId = some user ∧
          route.handle naming backend (s.withAccounts seen) user now = .ok s' := by
  obtain ⟨⟨⟨role, auth⟩, seen⟩, keyed, done⟩ := except_bind_ok done
  obtain ⟨user, web, done⟩ := except_bind_ok done
  obtain ⟨session, named⟩ := webUserId_ok web
  exact ⟨role, auth, seen, user, keyed, session, named, except_mapError_ok done⟩

theorem step_moves {naming : Naming} {backend : CampaignKeys.Backend} (rooted : Rooted s)
    (label : Label) :
    Moves (label.raises env s) label.drops s (step env naming backend s label) := by
  cases label with
  | account request =>
      rw [step]
      cases done : handleAccount env s request with
      | error e => exact .refl
      | ok after => exact handleAccount_moves rooted done
  | campaign credentials route now =>
      rw [step]
      cases done : handleCampaign env naming backend s credentials route now with
      | error e => exact .refl
      | ok after =>
          obtain ⟨role, auth, seen, user, keyed, session, named, done⟩ := handleCampaign_ok done
          obtain ⟨row, stored, -⟩ := session_user keyed session named
          have same := sameUsers_of_eq (users_requireApiKey keyed)
          have known : Known (s.withAccounts seen).accounts user :=
            same.known.mpr (Option.isSome_of_mem stored)
          refine .head (.accounts seen fun _ => same.known.mpr) ?_
          cases route with
          | create name description => exact createCampaign_moves known done
          | patch campaign name description => exact patchCampaign_moves done
          | delete campaign => exact deleteCampaign_moves done
  | others db => exact .single (.others _ rfl rfl rfl)

theorem CampaignRoute.accounts {naming : Naming} {backend : CampaignKeys.Backend} {user : Uuid}
    {now : Timestamp} {route : CampaignRoute}
    (done : route.handle naming backend s user now = .ok s') : s'.accounts = s.accounts := by
  cases route with
  | create | patch | delete =>
      obtain ⟨_, -, rfl⟩ := except_map_ok done
      rfl

def registered : Users.AccountRequest → Users.AccountRequest
  | .createUser credentials username systemRole password drawn =>
      .createUser (ofRegistry credentials) username systemRole password drawn
  | request => request

/-- What a step asks of the accounts: the account request that it is, or the authentication that a
campaign route commits with what it does. -/
def Label.asked (env : Users.Security) (naming : Naming) (backend : CampaignKeys.Backend)
    (s : Service) : Label → Option Users.AccountRequest
  | .account request => some (registered request)
  | .campaign credentials route now =>
      if (handleCampaign env naming backend s credentials route now).isOk then
        some (.other (ofRegistry credentials) now)
      else none
  | .others _ => none

-- A route that drops a campaign drops it for good, so where the campaign stands it was refused.
theorem drop_refused {naming : Naming} {backend : CampaignKeys.Backend} {label : Label}
    {campaign : Uuid} (drops : label.drops = some campaign)
    (stands : ((step env naming backend s label).db.campaigns.get? campaign).isSome = true) :
    step env naming backend s label = s := by
  cases label with
  | account | others => cases drops
  | campaign credentials route now =>
      cases route with
      | create | patch => cases drops
      | delete target =>
          cases drops
          rw [step] at stands ⊢
          cases done : handleCampaign env naming backend s credentials (.delete campaign) now with
          | error e => rfl
          | ok after =>
              rw [done] at stands
              change (after.db.campaigns.get? campaign).isSome = true at stands
              obtain ⟨_, _, _, _, -, -, -, handled⟩ := handleCampaign_ok done
              rw [deleteCampaign_gone handled] at stands
              cases stands

end Steps

/-! ## Runs -/

section Runs
variable (env : Users.Security) (naming : Naming) (backend : CampaignKeys.Backend)

theorem rooted_run (apiKeys : Indexed Uuid Text Users.ApiKey Users.ApiKey.id Users.ApiKey.name)
    (run : List Label) : Rooted (final (step env naming backend) (.initial apiKeys) run) := by
  have kept : Visits (step env naming backend) Rooted (.initial apiKeys) run :=
    Visits.of_step (fun s label rooted => rooted_moves rooted (step_moves rooted label))
      (rooted_initial apiKeys)
  exact kept.final

def asked (s : Service) : List Label → List Users.AccountRequest
  | [] => []
  | label :: rest =>
      (label.asked env naming backend s).toList ++ asked (step env naming backend s label) rest

def Stands (campaign : Uuid) (s : Service) : Prop := (s.db.campaigns.get? campaign).isSome = true

variable {env naming backend} {s : Service} {user campaign : Uuid} {role : CampaignRole}

theorem member_step (rooted : Rooted s) {label : Label}
    (stands : Stands campaign (step env naming backend s label)) {member : CampaignMember}
    (found : CampaignRepository.getMembership s.db user campaign = some member) :
    CampaignRepository.getMembership (step env naming backend s label).db user campaign =
      some member := by
  by_cases drops : label.drops = some campaign
  · rw [drop_refused drops stands]
    exact found
  · exact member_moves (step_moves rooted label) drops found

theorem placed_step (rooted : Rooted s) {label : Label}
    (stands : Stands campaign (step env naming backend s label))
    (placed : Placed user campaign role s) :
    Placed user campaign role (step env naming backend s label) := by
  by_cases drops : label.drops = some campaign
  · rw [drop_refused drops stands]
    exact placed
  · exact placed_moves rooted (step_moves rooted label) drops placed

theorem along_stands {P : Service → Prop} (rooted : Rooted s) {run : List Label}
    (kept : ∀ t label, Rooted t → P t → Stands campaign (step env naming backend t label) →
      P (step env naming backend t label))
    (stands : Visits (step env naming backend) (Stands campaign) s run) (start : P s) :
    Visits (step env naming backend) (fun t => Rooted t ∧ P t) s run :=
  Visits.of_invariant
    (fun t label inv stands => ⟨rooted_moves inv.1 (step_moves inv.1 label),
      kept t label inv.1 inv.2 stands⟩)
    ⟨rooted, start⟩ stands.next

/-! ## Where a user works -/

/-- The campaign a user works in: of its memberships the default, or else the earliest. -/
structure WorksIn (s : Service) (user : Users.User) (context : ActiveCampaignContext) : Prop where
  active : user.status = .active
  member : ∃ row member, s.db.campaigns.get? context.id = some row ∧
    CampaignRepository.getMembership s.db user.id context.id = some member ∧
    context = ⟨row.id, row.name, member.role, none⟩
  chosen : s.keys.defaultCampaignId user.id = some context.id ∨
    ∀ campaign member, CampaignRepository.getMembership s.db user.id campaign = some member →
      s.keys.defaultCampaignId user.id ≠ some campaign ∧
        ((s.joining (user.id, context.id)).joinedAt < (s.joining (user.id, campaign)).joinedAt ∨
          (s.joining (user.id, context.id)).joinedAt = (s.joining (user.id, campaign)).joinedAt ∧
            context.id ≤ campaign)

theorem WorksIn.unique {row : Users.User} {context context' : ActiveCampaignContext}
    (works : WorksIn s row context) (works' : WorksIn s row context') : context = context' := by
  obtain ⟨campaign, member, stored, found, shape⟩ := works.member
  obtain ⟨campaign', member', stored', found', shape'⟩ := works'.member
  have same : context.id = context'.id := by
    rcases works.chosen with default | first
    · rcases works'.chosen with default' | first'
      · exact Option.some.inj (default.symm.trans default')
      · exact ((first' _ _ found).1 default).elim
    · rcases works'.chosen with default' | first'
      · exact ((first _ _ found').1 default').elim
      · rcases (first _ _ found').2 with earlier | ⟨together, le⟩
        · rcases (first' _ _ found).2 with earlier' | ⟨together', -⟩
          · exact (lt_asymm earlier earlier').elim
          · exact (earlier.ne together'.symm).elim
        · rcases (first' _ _ found).2 with earlier' | ⟨-, le'⟩
          · exact (earlier'.ne together.symm).elim
          · exact le_antisymm le le'
  rw [same] at stored found
  rw [stored'] at stored
  rw [found'] at found
  cases stored
  cases found
  rw [shape, shape']

theorem worksIn_of_resolve (rooted : Rooted s) {row : Users.User} {context : ActiveCampaignContext}
    (shown : resolveActiveCampaignForUser s row = some context) : WorksIn s row context := by
  obtain ⟨active, joined, listed, rfl, chosen⟩ := resolve_some shown
  obtain ⟨stored, found⟩ := mem_memberships_iff.mp listed
  have key (other : Campaign × CampaignMember) (listed : other ∈ Gm.memberships s.db row.id) :
      other.2.key = (row.id, other.1.id) :=
    Table.key_of_get? (mem_memberships_iff.mp listed).2
  have plain := rooted.plain row.id joined.1.id joined.2 found
  refine ⟨active, ⟨joined.1, joined.2, stored, found, ?_⟩, ?_⟩
  · rw [Service.contextOf, key joined listed, plain]
  · refine chosen.imp id fun first campaign member found' => ?_
    obtain ⟨other, rfl, listed'⟩ := exists_joined rooted found'
    obtain ⟨apart, before⟩ := first _ listed'
    unfold Service.joinedBefore at before
    rw [key joined listed, key _ listed'] at before
    exact ⟨apart, before⟩

/-- In every reachable state the active campaign is the one a user works in, if there is one. -/
theorem active_campaign_exact (env : Users.Security) (naming : Naming)
    (backend : CampaignKeys.Backend)
    (apiKeys : Indexed Uuid Text Users.ApiKey Users.ApiKey.id Users.ApiKey.name) (run : List Label)
    (user : Users.User) :
    let s := final (step env naming backend) (.initial apiKeys) run
    (∀ context, resolveActiveCampaignForUser s user = some context ↔ WorksIn s user context) ∧
      (resolveActiveCampaignForUser s user = none ↔ user.status ≠ .active ∨
        ∀ campaign, CampaignRepository.getMembership s.db user.id campaign = none) ∧
      ∀ user campaign member,
        CampaignRepository.getMembership s.db user campaign = some member →
          (s.db.campaigns.get? campaign).isSome := by
  intro s
  have rooted : Rooted s := rooted_run env naming backend apiKeys run
  have none : resolveActiveCampaignForUser s user = none ↔ user.status ≠ .active ∨
      ∀ campaign, CampaignRepository.getMembership s.db user.id campaign = none := by
    constructor
    · intro unshown
      by_cases active : user.status = .active
      · exact .inr (resolve_none rooted active unshown)
      · exact .inl active
    · intro barred
      cases shown : resolveActiveCampaignForUser s user with
      | none => rfl
      | some context =>
          have works := worksIn_of_resolve rooted shown
          obtain ⟨_, _, -, found, -⟩ := works.member
          rcases barred with inactive | nowhere
          · exact (inactive works.active).elim
          · rw [nowhere] at found
            cases found
  refine ⟨fun context => ⟨worksIn_of_resolve rooted, fun works => ?_⟩, none, rooted.present⟩
  cases shown : resolveActiveCampaignForUser s user with
  | none =>
      obtain ⟨_, _, -, found, -⟩ := works.member
      rcases none.mp shown with inactive | nowhere
      · exact (inactive works.active).elim
      · rw [nowhere] at found
        cases found
  | some other => rw [(worksIn_of_resolve rooted shown).unique works]

/-! ## New users -/

def Label.newcomer : Label → Option (Uuid × CampaignRole)
  | .account (.setup _ _ drawn _) => some (drawn.userId, .gm)
  | .account (.createUser _ _ _ _ drawn) => some (drawn.userId, .pj)
  | _ => none

/-- The user is a member of the campaign; as long as its account is active it works there, and is
told so. -/
structure Employs (env : Users.Security) (user campaign : Uuid) (role : CampaignRole)
    (s : Service) : Prop where
  member : CampaignRepository.getMembership s.db user campaign = some ⟨user, campaign, role⟩
  resolved : ∀ row, s.accounts.users.get? user = some row → row.status = .active →
    ∃ name, resolveActiveCampaignForUser s row = some ⟨campaign, name, role, none⟩
  shown : ∀ cookie now me, getMe env s cookie now = .ok me → me.userId = user →
    ∃ name, me.activeCampaign = some ⟨campaign, name, role, none⟩

/-- The sender of a request that makes a user works in the campaign. -/
def SentFrom (env : Users.Security) (s : Service) (campaign : Uuid) : Label → Prop
  | .account (.createUser credentials _ _ _ drawn) =>
      ∃ auth seen, Users.requireGm env s.accounts (ofRegistry credentials) drawn.now =
        .ok (auth, seen) ∧
      ∀ admin context, auth.userId = some admin.id → s.accounts.users.get? admin.id = some admin →
        resolveActiveCampaignForUser s admin = some context → campaign = context.id
  | _ => True

theorem getMe_ok {cookie : Option Text} {now : Timestamp} {me : AuthMeOut}
    (answered : getMe env s cookie now = .ok me) :
    ∃ row, s.accounts.users.get? me.userId = some row ∧ row.status = .active ∧
      me.activeCampaign = resolveActiveCampaignForUser s row := by
  unfold getMe at answered
  split at answered
  · cases answered
  · cases answered
  · split at answered
    · cases answered
    · rename_i found valid
      cases answered
      obtain ⟨stored, active⟩ := validated valid
      exact ⟨found.user, stored, active, rfl⟩

theorem Placed.employs (placed : Placed user campaign role s) (rooted : Rooted s) :
    Employs env user campaign role s := by
  have resolved (row : Users.User) (stored : s.accounts.users.get? user = some row)
      (active : row.status = .active) :
      ∃ name, resolveActiveCampaignForUser s row = some ⟨campaign, name, role, none⟩ := by
    obtain rfl := Table.key_of_get? stored
    exact placed.shown rooted active
  refine ⟨placed.member, resolved, fun cookie now me answered who => ?_⟩
  obtain ⟨row, stored, active, shown⟩ := getMe_ok answered
  rw [who] at stored
  rw [shown]
  exact resolved row stored active

theorem newcomer_placed (rooted : Rooted s) {label : Label}
    (newcomer : label.newcomer = some (user, role)) (unknown : ¬Known s.accounts user)
    (made : Known (step env naming backend s label).accounts user) :
    ∃ campaign, Placed user campaign role (step env naming backend s label) ∧
      SentFrom env s campaign label := by
  cases label with
  | campaign | others => cases newcomer
  | account request =>
      rw [step] at made ⊢
      cases done : handleAccount env s request with
      | error e =>
          rw [done] at made
          exact (unknown made).elim
      | ok after =>
          cases request with
          | setup username password drawn draw =>
              cases newcomer
              obtain ⟨-, campaign, placed⟩ := postSetup_ok (fun _ => False) none rooted done
              exact ⟨campaign, placed, trivial⟩
          | createUser credentials username systemRole password drawn =>
              cases newcomer
              obtain ⟨-, auth, seen, campaign, authenticated, placed, chosen⟩ :=
                postUser_ok none rooted done
              exact ⟨campaign, placed, auth, seen, authenticated, chosen⟩
          | login | logout | patchUser | deleteUser | other => cases newcomer

/-- Whoever is made a user works in one campaign until that is gone. -/
theorem newcomer_employed (env : Users.Security) (naming : Naming)
    (backend : CampaignKeys.Backend)
    (apiKeys : Indexed Uuid Text Users.ApiKey Users.ApiKey.id Users.ApiKey.name)
    (before : List Label) (label : Label) {user : Uuid} {role : CampaignRole}
    (newcomer : label.newcomer = some (user, role))
    (unknown : ¬Known (final (step env naming backend) (.initial apiKeys) before).accounts user)
    (made : Known (final (step env naming backend) (.initial apiKeys)
      (before ++ [label])).accounts user) :
    ∃ campaign, SentFrom env (final (step env naming backend) (.initial apiKeys) before) campaign
        label ∧
      ∀ after,
        Visits (step env naming backend) (Stands campaign)
          (final (step env naming backend) (.initial apiKeys) (before ++ [label])) after →
        Visits (step env naming backend) (Employs env user campaign role)
          (final (step env naming backend) (.initial apiKeys) (before ++ [label])) after := by
  have rooted := rooted_run env naming backend apiKeys (before ++ [label])
  have next : final (step env naming backend) (.initial apiKeys) (before ++ [label]) =
      step env naming backend (final (step env naming backend) (.initial apiKeys) before) label :=
    final_append _ _ _
  rw [next] at made
  obtain ⟨campaign, placed, sent⟩ := newcomer_placed (rooted_run env naming backend apiKeys before)
    newcomer unknown made
  rw [← next] at placed
  refine ⟨campaign, sent, fun after stands => ?_⟩
  have kept := along_stands rooted
    (fun t label rooted placed stands => placed_step rooted stands placed) stands placed
  exact kept.weaken fun t inv => inv.2.employs inv.1

theorem justified_run (env : Users.Security) (naming : Naming) (backend : CampaignKeys.Backend)
    (apiKeys : Indexed Uuid Text Users.ApiKey Users.ApiKey.id Users.ApiKey.name)
    (run : List Label) :
    Justified
      (fun user => ∃ before label after, run = before ++ label :: after ∧
        label.raises env (final (step env naming backend) (.initial apiKeys) before) user)
      (final (step env naming backend) (.initial apiKeys) run) := by
  induction run using List.reverseRecOn with
  | nil =>
      intro user campaign found
      cases found
  | append_singleton run label ih =>
      have rooted := rooted_run env naming backend apiKeys run
      have next : final (step env naming backend) (.initial apiKeys) (run ++ [label]) =
          step env naming backend (final (step env naming backend) (.initial apiKeys) run) label :=
        final_append _ _ _
      rw [next]
      refine justified_moves ?_ (step_moves rooted label) fun user raised =>
        ⟨run, label, [], rfl, raised⟩
      intro user campaign found
      refine (ih user campaign found).imp_right ?_
      rintro ⟨before, first, after, rfl, raised⟩
      exact ⟨before, first, after ++ [label], by simp, raised⟩

/-- A membership is for good as long as the campaign stands, and that of a game master is one of the
campaign's owner, or of an administrator without a campaign who asked for a new user. -/
theorem game_masters (env : Users.Security) (naming : Naming) (backend : CampaignKeys.Backend)
    (apiKeys : Indexed Uuid Text Users.ApiKey Users.ApiKey.id Users.ApiKey.name)
    (run : List Label) {user campaign : Uuid} {role : CampaignRole}
    (joined : CampaignRepository.getMembership
      (final (step env naming backend) (.initial apiKeys) run).db user campaign =
        some ⟨user, campaign, role⟩) :
    (role = .gm → Owns (final (step env naming backend) (.initial apiKeys) run) user campaign ∨
      ∃ before credentials username systemRole password drawn after,
        run = before ++
          .account (.createUser credentials username systemRole password drawn) :: after ∧
        Raised env (final (step env naming backend) (.initial apiKeys) before) credentials drawn.now
          user) ∧
    ∀ after,
      Visits (step env naming backend) (Stands campaign)
        (final (step env naming backend) (.initial apiKeys) run) after →
      Visits (step env naming backend)
        (fun t => CampaignRepository.getMembership t.db user campaign = some ⟨user, campaign, role⟩)
        (final (step env naming backend) (.initial apiKeys) run) after := by
  constructor
  · rintro rfl
    refine (justified_run env naming backend apiKeys run user campaign joined).imp_right ?_
    rintro ⟨before, label, after, rfl, raised⟩
    cases label with
    | account request =>
        cases request with
        | createUser credentials username systemRole password drawn =>
            exact ⟨before, credentials, username, systemRole, password, drawn, after, rfl, raised⟩
        | _ => exact raised.elim
    | campaign | others => exact raised.elim
  · intro after stands
    have kept := along_stands (rooted_run env naming backend apiKeys run)
      (fun t label rooted found stands => member_step rooted stands found) stands joined
    exact kept.weaken fun t inv => inv.2

end Runs

def firstUsers : List Label :=
  [.account (.setup "ada".toList "secret".toList ⟨1, 2, 0⟩ ⟨3, "a".toList, 4, 1⟩),
    .account (.createUser ⟨none, some "a".toList⟩ "bea".toList .user "word".toList ⟨5, 6, 2⟩)]

theorem newcomer_employed_bea :
    ∃ campaign, SentFrom plainSecurity
        (final (step plainSecurity sqliteNaming .sqlite) (.initial .empty) (firstUsers.take 1))
        campaign (firstUsers.getD 1 (.others .empty)) ∧
      ∀ after,
        Visits (step plainSecurity sqliteNaming .sqlite) (Stands campaign)
          (final (step plainSecurity sqliteNaming .sqlite) (.initial .empty) firstUsers) after →
        Visits (step plainSecurity sqliteNaming .sqlite) (Employs plainSecurity 5 campaign .pj)
          (final (step plainSecurity sqliteNaming .sqlite) (.initial .empty) firstUsers) after :=
  newcomer_employed plainSecurity sqliteNaming .sqlite .empty (firstUsers.take 1)
    (firstUsers.getD 1 (.others .empty)) rfl (by unfold Known; decide +kernel)
    (by unfold Known; decide +kernel)

theorem game_masters_ada :
    (CampaignRole.gm = .gm →
      Owns (final (step plainSecurity sqliteNaming .sqlite) (.initial .empty) firstUsers) 1 1 ∨
      ∃ before credentials username systemRole password drawn after,
        firstUsers = before ++
          .account (.createUser credentials username systemRole password drawn) :: after ∧
        Raised plainSecurity
          (final (step plainSecurity sqliteNaming .sqlite) (.initial .empty) before) credentials
          drawn.now 1) ∧
    ∀ after,
      Visits (step plainSecurity sqliteNaming .sqlite) (Stands 1)
        (final (step plainSecurity sqliteNaming .sqlite) (.initial .empty) firstUsers) after →
      Visits (step plainSecurity sqliteNaming .sqlite)
        (fun t => CampaignRepository.getMembership t.db 1 1 = some ⟨1, 1, .gm⟩)
        (final (step plainSecurity sqliteNaming .sqlite) (.initial .empty) firstUsers) after :=
  game_masters plainSecurity sqliteNaming .sqlite .empty firstUsers (by decide +kernel)

end Kaeyris.CampaignContext
