import Kaeyris.Proof.Administrators
import Kaeyris.Proof.Requests
import Kaeyris.WebSessions

/-!
# Dead sessions stay dead

No request gives a session row back what it has lost, and a user who is not active has no session
that is still open.
-/

namespace Kaeyris.Proof
open Lib Users

def Wears (db db' : Accounts) : Prop :=
  ∀ row ∈ db.webSessions.rows, ∃ row' ∈ db'.webSessions.rows,
    row'.tokenHash = row.tokenHash ∧ row'.userId = row.userId ∧
      row'.expiresAt = row.expiresAt ∧ (row.revokedAt.isSome → row'.revokedAt.isSome)

/-- A session has its user; when the user is not active, it is revoked. -/
def Attended (db : Accounts) : Prop :=
  ∀ row ∈ db.webSessions.rows, ∃ user, db.users.get? row.userId = some user ∧
    (user.status ≠ .active → row.revokedAt.isSome)

structure AccountsKept (db db' : Accounts) : Prop where
  wears : Wears db db'
  attended : Attended db → Attended db'

section Operations
variable {env : Security} {db db' : Accounts} {now : Timestamp}

theorem wears_refl (db : Accounts) : Wears db db := fun row member =>
  ⟨row, member, rfl, rfl, rfl, id⟩

theorem Wears.trans {db'' : Accounts} (first : Wears db db') (second : Wears db' db'') :
    Wears db db'' := by
  intro row member
  obtain ⟨row', member', hash', user', expires', revoked'⟩ := first row member
  obtain ⟨row'', member'', hash'', user'', expires'', revoked''⟩ := second row' member'
  exact ⟨row'', member'', hash''.trans hash', user''.trans user', expires''.trans expires',
    fun revoked => revoked'' (revoked' revoked)⟩

theorem kept_refl (db : Accounts) : AccountsKept db db := ⟨wears_refl db, id⟩

theorem AccountsKept.trans {db'' : Accounts} (first : AccountsKept db db')
    (second : AccountsKept db' db'') : AccountsKept db db'' :=
  ⟨first.wears.trans second.wears, fun sound => second.attended (first.attended sound)⟩

theorem kept_apiKeys (users : db'.users = db.users) (sessions : db'.webSessions = db.webSessions) :
    AccountsKept db db' := by
  constructor
  · rw [Wears, sessions]
    exact wears_refl db
  · rw [Attended, Attended, sessions, users]
    exact id

theorem kept_updateSessions {p : WebSession → Bool} {f : WebSession → WebSession}
    {keeps : ∀ row, (f row).id = row.id} {keepsHash : ∀ row, (f row).tokenHash = row.tokenHash}
    (user : ∀ row, (f row).userId = row.userId) (expires : ∀ row, (f row).expiresAt = row.expiresAt)
    (revoked : ∀ row, row.revokedAt.isSome → (f row).revokedAt.isSome) :
    AccountsKept db { db with webSessions := db.webSessions.update p f keeps keepsHash } := by
  constructor
  · intro row member
    refine ⟨if p row then f row else row, List.mem_map_of_mem member, ?_⟩
    by_cases chosen : p row
    · simpa [chosen, keepsHash, user, expires] using revoked row
    · simp [chosen]
  · intro sound row' member
    obtain ⟨row, present, rfl⟩ := List.mem_map.mp member
    obtain ⟨owner, found, closed⟩ := sound row present
    by_cases chosen : p row
    · simp only [chosen, if_true, user]
      exact ⟨owner, found, fun inactive => revoked row (closed inactive)⟩
    · simp only [chosen, Bool.false_eq_true, if_false]
      exact ⟨owner, found, closed⟩

theorem kept_markSeen (session : Uuid) : AccountsKept db (markSeen db session now) :=
  kept_updateSessions (fun _ => rfl) (fun _ => rfl) fun _ => id

theorem kept_revokeWebSession (token : Text) : AccountsKept db (revokeWebSession env db token now) :=
  kept_updateSessions (fun _ => rfl) (fun _ => rfl) fun _ _ => rfl

theorem attended_updateUsers {p : Users.User → Bool} {f : Users.User → Users.User}
    {keeps : ∀ user, (f user).id = user.id}
    {keepsName : ∀ user, (f user).username = user.username}
    (status : ∀ user, (f user).status = user.status) (sound : Attended db) :
    Attended { db with users := db.users.update p f keeps keepsName } := by
  intro row member
  obtain ⟨user, found, closed⟩ := sound row member
  refine ⟨if p user then f user else user, ?_, ?_⟩
  · change (db.users.toTable.update p f keeps).get? row.userId = _
    rw [Table.get?_update, found, Option.map_some]
  · by_cases chosen : p user
    · simpa [chosen, status] using closed
    · simpa [chosen] using closed

theorem ensureJdrApiKey_ok {user user' : Users.User} {apiKeyId : Uuid}
    (done : ensureJdrApiKey db user apiKeyId = .ok (user', db')) :
    user'.id = user.id ∧ AccountsKept db db' ∧ db'.users = db.users := by
  unfold ensureJdrApiKey at done
  split at done
  · cases done
    exact ⟨rfl, kept_refl _, rfl⟩
  · split at done
    · cases done
      exact ⟨rfl, kept_apiKeys rfl rfl, rfl⟩
    · cases done

theorem createWebSession_ok {user stored : Users.User} {draw : SessionDraw}
    (found : db.users.get? user.id = some stored) (active : stored.status = .active)
    (done : createWebSession env db user draw = .ok db') :
    AccountsKept db db' ∧ ∃ row ∈ db'.webSessions.rows,
      row.tokenHash = env.hashSessionToken draw.token ∧ row.userId = user.id := by
  unfold createWebSession at done
  split at done
  · rename_i webSessions inserted
    cases done
    have rows := Indexed.insertAll?_eq_some.mp inserted
    refine ⟨⟨fun row member => ⟨row, ?_, rfl, rfl, rfl, id⟩, fun sound => ?_⟩, ?_⟩
    · change row ∈ webSessions.rows
      rw [rows]
      exact List.mem_append_left _ member
    · have extended : Attended { db with webSessions := webSessions } := by
        intro row member
        change row ∈ webSessions.rows at member
        rw [rows] at member
        rcases List.mem_append.mp member with old | new
        · exact sound row old
        · obtain rfl := List.mem_singleton.mp new
          exact ⟨stored, found, fun inactive => (inactive active).elim⟩
      refine attended_updateUsers ?_ extended
      exact fun _ => rfl
    · refine ⟨⟨draw.sessionId, user.id, env.hashSessionToken draw.token,
        draw.now + env.ttlSeconds, none, none⟩, ?_, rfl, rfl⟩
      change _ ∈ webSessions.rows
      rw [rows]
      exact List.mem_append_right _ (List.mem_singleton_self _)
  · cases done

theorem createUser_ok {hashing : Hashing} {drawn : Drawn} {username password : Text}
    {systemRole : Option SystemRole} {profile : Option Profile} {new : NewUser}
    (done : createUser hashing db drawn username systemRole profile password = .ok (new, db')) :
    AccountsKept db db' ∧ db'.users.get? new.user.id = some new.user ∧ new.user.status = .active := by
  obtain ⟨made, built, done⟩ := except_bind_ok done
  cases inserted : made.insert db with
  | none => rw [inserted] at done; cases done
  | some result =>
      rw [inserted] at done
      cases done
      obtain ⟨apiKeys, -, inserted⟩ := Option.bind_eq_some_iff.mp inserted
      obtain ⟨users, added, same⟩ := Option.bind_eq_some_iff.mp inserted
      cases same
      have rows := Indexed.insertAll?_eq_some.mp added
      refine ⟨⟨wears_refl _, fun sound row member => ?_⟩, ?_, ?_⟩
      · obtain ⟨user, found, closed⟩ := sound row member
        refine ⟨user, Table.get?_eq_some.mpr ⟨?_, Table.key_of_get? found⟩, closed⟩
        change user ∈ users.rows
        rw [rows]
        exact List.mem_append_left _ (Table.mem_of_get? found)
      · refine Table.get?_eq_some.mpr ⟨?_, rfl⟩
        change new.user ∈ users.rows
        rw [rows]
        exact List.mem_append_right _ (List.mem_singleton_self _)
      · obtain ⟨normalized, -, built⟩ := except_bind_ok built
        split at built
        · cases built
        · obtain ⟨hashed, -, built⟩ := except_bind_ok built
          cases built
          rfl

/-! ## Changing a user -/

theorem edit_ok {hashing : Hashing} {user : Users.User} {apiKeyId : Uuid} {change : Change}
    {e : Edit} (edited : edit hashing db user apiKeyId now change = .ok e) :
    e.loaded = user ∧ e.modified.id = user.id ∧ e.now = now ∧
      (e.modified.status ≠ .active →
        e.revoked = openSessions db user.id ∨ e.modified.status = user.status) := by
  cases change with
  | update u =>
      have closes : u.status.getD user.status ≠ .active →
          (if u.status = some .inactive || u.status = some .deleted then openSessions db user.id
            else []) = openSessions db user.id ∨ u.status.getD user.status = user.status := by
        intro inactive
        cases status : u.status with
        | none => exact .inr rfl
        | some next =>
            cases next with
            | active => simp [status] at inactive
            | inactive => exact .inl (by simp)
            | deleted => exact .inl (by simp)
      simp only [edit] at edited
      split at edited
      · obtain ⟨hashed, -, edited⟩ := except_bind_ok edited
        cases edited
        exact ⟨rfl, rfl, rfl, closes⟩
      · cases edited
        exact ⟨rfl, rfl, rfl, closes⟩
  | delete =>
      cases edited
      exact ⟨rfl, rfl, rfl, fun _ => .inl rfl⟩

theorem Edit.row_status (e : Edit) : (e.row e.loaded).status = e.modified.status := by
  simp only [Edit.row, assigned]
  split
  · rename_i same
    exact same.symm
  · rfl

theorem mem_openSessions {user session : Uuid} :
    session ∈ openSessions db user ↔ ∃ row ∈ db.webSessions.rows, row.id = session ∧
      row.userId = user ∧ row.revokedAt = none := by
  simp only [openSessions, Table.select, List.mem_map, List.mem_filter, Bool.and_eq_true,
    decide_eq_true_eq, Option.isNone_iff_eq_none]
  constructor
  · rintro ⟨row, ⟨member, own, opened⟩, same⟩
    exact ⟨row, member, same, own, opened⟩
  · rintro ⟨row, member, same, own, opened⟩
    exact ⟨row, ⟨member, own, opened⟩, same⟩

/-- Whoever stops being active loses every open session at once. -/
theorem kept_changeUser {hashing : Hashing} {user apiKeyId : Uuid} {change : Change}
    (done : changeUser hashing db user apiKeyId now change = .ok db') : AccountsKept db db' := by
  obtain ⟨loaded, found, checked⟩ := except_bind_ok done
  obtain ⟨-, -, allowed⟩ := except_bind_ok checked
  obtain ⟨e, edited, written⟩ := except_bind_ok allowed
  clear done checked allowed
  obtain ⟨rfl, same, -, closes⟩ := edit_ok edited
  have stored : db.users.get? user = some e.loaded := by
    unfold getUser at found
    split at found
    · rename_i row present
      cases found
      exact present
    · cases found
  cases flushed : e.flush db with
  | none => rw [flushed] at written; cases written
  | some result =>
      rw [flushed] at written
      cases written
      obtain ⟨apiKeys, -, rfl⟩ := Option.map_eq_some_iff.mp flushed
      refine ⟨?_, fun sound => ?_⟩
      · intro row member
        refine ⟨_, List.mem_map_of_mem member, ?_⟩
        by_cases closed : row.id ∈ e.revoked <;> simp [closed]
      · intro row' member
        obtain ⟨row, present, rfl⟩ := List.mem_map.mp member
        obtain ⟨owner, owned, closed⟩ := sound row present
        have users : (db.users.update (fun row => row.id = e.loaded.id) e.row).get? row.userId =
            some (if row.userId = e.loaded.id then e.row owner else owner) := by
          have written := Table.get?_update_key db.users.toTable e.loaded.id e.row (fun _ => rfl)
            row.userId
          refine written.trans ?_
          rw [owned]
          split <;> rfl
        refine ⟨if row.userId = e.loaded.id then e.row owner else owner, ?_, ?_⟩
        · by_cases revoked : row.id ∈ e.revoked <;> simpa [revoked] using users
        · intro inactive
          by_cases revoked : row.id ∈ e.revoked
          · simp [revoked]
          simp only [revoked, decide_false, Bool.false_eq_true, if_false]
          by_cases own : row.userId = e.loaded.id
          · rw [if_pos own] at inactive
            have self : owner = e.loaded := by
              rw [own, Table.key_of_get? stored, stored] at owned
              exact (Option.some.inj owned).symm
            rw [self, Edit.row_status] at inactive
            rcases closes inactive with opened | unchanged
            · by_contra unrevoked
              refine revoked (opened ▸ mem_openSessions.mpr ⟨row, present, rfl, own, ?_⟩)
              simpa using unrevoked
            · rw [self] at closed
              exact closed (unchanged ▸ inactive)
          · rw [if_neg own] at inactive
            exact closed inactive

/-! ## Requests -/

theorem kept_requireApiKey {credentials : Credentials} {auth : KeyRole × AuthenticatedKey}
    (done : requireApiKey env db credentials now = .ok (auth, db')) : AccountsKept db db' := by
  unfold requireApiKey at done
  split at done
  · obtain ⟨_, -, same⟩ := except_map_ok done
    cases same
    exact kept_refl db
  · split at done
    · cases done
      exact kept_markSeen _
    · cases done
  · cases done

theorem kept_requireGm {credentials : Credentials} {auth : AuthenticatedKey}
    (done : requireGm env db credentials now = .ok (auth, db')) : AccountsKept db db' := by
  obtain ⟨⟨⟨role, key⟩, seen⟩, authenticated, done⟩ := except_bind_ok done
  obtain ⟨_, -, done⟩ := except_bind_ok done
  cases done
  exact kept_requireApiKey authenticated

def Recorded (env : Security) (db : Accounts) (token : Text) (user : Uuid) : Prop :=
  ∃ row ∈ db.webSessions.rows, row.tokenHash = env.hashSessionToken token ∧ row.userId = user

structure Serves (env : Security) (db : Accounts) (reply : Reply) : Prop where
  kept : AccountsKept db reply.accounts
  recorded : ∀ token user, (token, user) ∈ reply.issued → Recorded env reply.accounts token user

theorem serves_silent (kept : AccountsKept db db') : Serves env db ⟨db', none⟩ := ⟨kept, by simp⟩

theorem serves_postSetup {username password : Text} {drawn : Drawn} {draw : SessionDraw}
    {reply : Reply} (done : postSetup env db username password drawn draw = .ok reply) :
    Serves env db reply := by
  obtain ⟨⟨new, created⟩, first, done⟩ := except_bind_ok done
  obtain ⟨opened, second, done⟩ := except_bind_ok done
  cases done
  have first := except_mapError_ok first
  unfold createFirstGm at first
  split at first
  · cases first
  · obtain ⟨kept, found, active⟩ := createUser_ok first
    obtain ⟨later, recorded⟩ := createWebSession_ok found active (except_mapError_ok second)
    refine ⟨kept.trans later, ?_⟩
    rintro token user same
    cases same
    exact recorded

theorem serves_postLogin {username password : Text} {draw : SessionDraw} {reply : Reply}
    (done : postLogin env db username password draw = .ok reply) : Serves env db reply := by
  obtain ⟨answer, authenticated, done⟩ := except_bind_ok done
  have authenticated := except_mapError_ok authenticated
  obtain ⟨normalized, -, authenticated⟩ := except_bind_ok authenticated
  cases found : db.users.rows.find? fun row => row.username = normalized && row.status = .active with
  | none =>
      rw [found] at authenticated
      cases authenticated
      cases done
      exact serves_silent (kept_refl db)
  | some user =>
      rw [found] at authenticated
      dsimp only at authenticated
      split at authenticated
      · obtain ⟨⟨keyed, ensured⟩, added, authenticated⟩ := except_bind_ok authenticated
        cases authenticated
        obtain ⟨opened, created, done⟩ := except_bind_ok done
        cases done
        obtain ⟨same, kept, users⟩ := ensureJdrApiKey_ok added
        have active : user.status = .active := by
          have chosen := List.find?_some found
          simp only [Bool.and_eq_true, decide_eq_true_eq] at chosen
          exact chosen.2
        have stored : ensured.users.get? keyed.id = some user := by
          rw [users, same]
          exact Table.get?_self (List.mem_of_find?_eq_some found)
        obtain ⟨later, recorded⟩ := createWebSession_ok stored active (except_mapError_ok created)
        refine ⟨kept.trans later, ?_⟩
        rintro token user same
        cases same
        exact recorded
      · cases authenticated
        cases done
        exact serves_silent (kept_refl db)

theorem serves_postLogout {credentials : Credentials} {reply : Reply}
    (done : postLogout env db credentials now = .ok reply) : Serves env db reply := by
  obtain ⟨⟨auth, seen⟩, authenticated, done⟩ := except_bind_ok done
  have kept := kept_requireApiKey authenticated
  dsimp only at done
  split at done
  · cases done
    exact serves_silent (kept.trans (kept_revokeWebSession _))
  · cases done
    exact serves_silent kept

theorem serves_admin {credentials : Credentials} {reply : Reply} {α : Type}
    (change : Accounts → Except AppError α) (accounts : α → Accounts)
    (keeps : ∀ db a, change db = .ok a → AccountsKept db (accounts a))
    (done : (do
      let (auth, db) ← requireGm env db credentials now
      let _ ← requireAdminUser db auth
      let a ← change db
      return (⟨accounts a, none⟩ : Reply)) = .ok reply) : Serves env db reply := by
  obtain ⟨⟨auth, seen⟩, authenticated, done⟩ := except_bind_ok done
  obtain ⟨_, -, done⟩ := except_bind_ok done
  obtain ⟨a, changed, done⟩ := except_bind_ok done
  cases done
  exact serves_silent ((kept_requireGm authenticated).trans (keeps seen a changed))

theorem serves_handle {request : AccountRequest} {reply : Reply}
    (done : request.handle env db = .ok reply) : Serves env db reply := by
  cases request with
  | setup username password drawn draw => exact serves_postSetup done
  | login username password draw => exact serves_postLogin done
  | logout credentials now => exact serves_postLogout done
  | createUser credentials username systemRole password drawn =>
      let change (db : Accounts) : Except AppError (NewUser × Accounts) :=
        raised "" (createUser env.toHashing db drawn username (some systemRole) none password)
      exact serves_admin change Prod.snd
        (fun db a created => (createUser_ok (except_mapError_ok created)).1) done
  | patchUser credentials user payload apiKeyId now =>
      exact serves_admin _ id
        (fun db a changed => kept_changeUser (except_mapError_ok changed)) done
  | deleteUser credentials user apiKeyId now =>
      exact serves_admin _ id
        (fun db a changed => kept_changeUser (except_mapError_ok changed)) done
  | other credentials now =>
      obtain ⟨⟨auth, seen⟩, authenticated, done⟩ := except_bind_ok done
      cases done
      exact serves_silent (kept_requireApiKey authenticated)

theorem joinedSession_eq {token : Text} {row : WebSession} {user : Users.User}
    (member : row ∈ db.webSessions.rows) (hash : row.tokenHash = env.hashSessionToken token)
    (owned : db.users.get? row.userId = some user) :
    joinedSession env db token = some ⟨user, row⟩ := by
  have found : (db.webSessions.rows.find? fun row => row.tokenHash = env.hashSessionToken token) =
      some row :=
    Table.get?_eq_some (t := ⟨db.webSessions.rows, db.webSessions.uniqueIndex⟩).mpr ⟨member, hash⟩
  rw [joinedSession, found, Option.bind_eq_bind, Option.bind_some, owned]
  rfl

/-- Under the invariant a token fails because its row is revoked or has expired. -/
theorem validate_eq_none (sound : Attended db) {token : Text} {row : WebSession}
    (member : row ∈ db.webSessions.rows) (hash : row.tokenHash = env.hashSessionToken token) :
    validateWebSession env db token now = none ↔ row.revokedAt.isSome ∨ row.expiresAt ≤ now := by
  obtain ⟨user, owned, closed⟩ := sound row member
  rw [validateWebSession, joinedSession_eq member hash owned, Option.bind_eq_bind, Option.bind_some]
  by_cases revoked : row.revokedAt.isSome
  · simp [revoked]
  · have active : user.status = .active := by
      by_contra inactive
      exact revoked (closed inactive)
    simp [revoked, active]

theorem validate_eq_some {token : Text} {row : WebSession} {user : Users.User}
    {found : ValidatedWebSession} (member : row ∈ db.webSessions.rows)
    (hash : row.tokenHash = env.hashSessionToken token)
    (owned : db.users.get? row.userId = some user)
    (accepted : validateWebSession env db token now = some found) :
    found.user = user ∧ user.status = .active := by
  rw [validateWebSession, joinedSession_eq member hash owned, Option.bind_eq_bind,
    Option.bind_some] at accepted
  split at accepted
  · cases accepted
  · rename_i alive
    cases accepted
    simp only [Bool.or_eq_true, not_or] at alive
    exact ⟨rfl, by simpa using alive.2⟩

end Operations

/-! ## Runs -/

section Runs
variable {env : Security} {s : Site}

structure SiteSound (env : Security) (s : Site) : Prop where
  attended : Attended s.accounts
  recorded : ∀ token user, (token, user) ∈ s.issued → Recorded env s.accounts token user

theorem Recorded.wears {db db' : Accounts} {token : Text} {user : Uuid}
    (recorded : Recorded env db token user) (wears : Wears db db') :
    Recorded env db' token user := by
  obtain ⟨row, member, hash, own⟩ := recorded
  obtain ⟨row', member', hash', user', -, -⟩ := wears row member
  exact ⟨row', member', hash'.trans hash, user'.trans own⟩

theorem wears_step (request : AccountRequest) :
    Wears s.accounts (s.step env request).accounts := by
  unfold Site.step
  split
  · rename_i reply done
    exact (serves_handle done).kept.wears
  · exact wears_refl _

theorem siteSound_step (sound : SiteSound env s) (request : AccountRequest) :
    SiteSound env (s.step env request) := by
  unfold Site.step
  split
  · rename_i reply done
    have served := serves_handle done
    refine ⟨served.kept.attended sound.attended, fun token user member => ?_⟩
    rcases List.mem_append.mp member with old | new
    · exact (sound.recorded token user old).wears served.kept.wears
    · exact served.recorded token user (Option.mem_toList.mp new)
  · exact sound

theorem siteSound_initial (users : Indexed Uuid Text Users.User Users.User.id User.username)
    (apiKeys : Indexed Uuid Text ApiKey ApiKey.id ApiKey.name) :
    SiteSound env (.initial users apiKeys) :=
  ⟨fun _ member => (List.not_mem_nil member).elim, fun _ _ member =>
    (List.not_mem_nil member).elim⟩

theorem siteSound_run (sound : SiteSound env s) (run : List AccountRequest) :
    SiteSound env (final (Site.step env) s run) := by
  have along : Visits (Site.step env) (SiteSound env) s run :=
    Visits.of_step (fun _ request kept => siteSound_step kept request) sound
  exact along.final

theorem wears_run (run : List AccountRequest) :
    Wears s.accounts (final (Site.step env) s run).accounts := by
  have along : Visits (Site.step env) (fun later => Wears s.accounts later.accounts) s run :=
    Visits.of_step (fun _ request worn => worn.trans (wears_step request)) (wears_refl _)
  exact along.final

/-- A token counts for the user it was issued to, while that user is active; once it has failed it
fails for good, whatever requests follow. -/
theorem dead_session_stays_dead (env : Security)
    (users : Indexed Uuid Text Users.User Users.User.id User.username)
    (apiKeys : Indexed Uuid Text ApiKey ApiKey.id ApiKey.name) (before : List AccountRequest)
    (token : Text) (user : Uuid)
    (issued : (token, user) ∈ (final (Site.step env) (.initial users apiKeys) before).issued) :
    let s := final (Site.step env) (.initial users apiKeys) before
    (∀ now found, validateWebSession env s.accounts token now = some found →
      found.user.id = user ∧ found.user.status = .active) ∧
    ∀ now, validateWebSession env s.accounts token now = none →
      ∀ (after : List AccountRequest) (later : Timestamp), now ≤ later →
        validateWebSession env (final (Site.step env) s after).accounts token later = none := by
  intro s
  have sound : SiteSound env s := siteSound_run (siteSound_initial users apiKeys) before
  obtain ⟨row, member, hash, own⟩ := sound.recorded token user issued
  obtain ⟨owner, owned, -⟩ := sound.attended row member
  refine ⟨fun now found accepted => ?_, fun now failed after later passed => ?_⟩
  · obtain ⟨rfl, active⟩ := validate_eq_some member hash owned accepted
    exact ⟨(Table.key_of_get? owned).trans own, active⟩
  · obtain ⟨row', member', hash', -, expires', revoked'⟩ := wears_run after row member
    have dead := (validate_eq_none sound.attended member hash).mp failed
    have sound := (siteSound_run sound after).attended
    refine (validate_eq_none sound member' (hash'.trans hash)).mpr ?_
    rcases dead with revoked | expired
    · exact .inl (revoked' revoked)
    · exact .inr (expires' ▸ expired.trans passed)

end Runs

def plainSecurity : Security where
  toHashing := plainHashing
  verifyPassword hash password := hash = password
  hashSessionToken := id
  ttlSeconds := 100

def reactivation : List AccountRequest :=
  let ada : Credentials := ⟨none, some "a".toList⟩
  [.login "ada".toList "hash".toList ⟨10, "a".toList, 0, 1⟩,
    .login "bea".toList "hash".toList ⟨11, "b".toList, 0, 2⟩,
    .patchUser ada 2 ⟨none, none, none, some .inactive⟩ 0 3,
    .patchUser ada 2 ⟨none, none, none, some .active⟩ 0 4]

theorem dead_session_stays_dead_reactivation :
    let s := final (Site.step plainSecurity)
      (.initial twoAdministrators.users twoAdministrators.apiKeys) reactivation
    (∀ now found, validateWebSession plainSecurity s.accounts "b".toList now = some found →
      found.user.id = 2 ∧ found.user.status = .active) ∧
    ∀ now, validateWebSession plainSecurity s.accounts "b".toList now = none →
      ∀ (after : List AccountRequest) (later : Timestamp), now ≤ later →
        validateWebSession plainSecurity (final (Site.step plainSecurity) s after).accounts
          "b".toList later = none :=
  dead_session_stays_dead plainSecurity twoAdministrators.users twoAdministrators.apiKeys
    reactivation "b".toList 2 (by decide)

/-- The account is active again and the session, long before its end, is not. -/
example :
    let s := final (Site.step plainSecurity)
      (.initial twoAdministrators.users twoAdministrators.apiKeys) reactivation
    (s.accounts.users.get? 2).map User.status = some .active ∧
      (validateWebSession plainSecurity s.accounts "b".toList 5).isNone := by
  decide

end Kaeyris.Proof
