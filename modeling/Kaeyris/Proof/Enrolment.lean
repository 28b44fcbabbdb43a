import Kaeyris.Enrolment
import Kaeyris.Proof.Quotas
import Kaeyris.Proof.WebSessions

/-!
# Names that are taken

Players, users and the entries of `API_KEYS` have their keys in one table with unique names.
`enroll_player` checks no name, and `create_user` looks at users only.
-/

namespace Kaeyris.Enrolment
open Lib Users Proof

def KeyFree (columns : Columns) (accounts : Accounts) (id : Uuid) (name : Text) : Prop :=
  (∀ key ∈ accounts.apiKeys.rows, key.id ≠ id ∧ key.name ≠ name) ∧ columns.apiKeyName name = true

def UserFree (columns : Columns) (accounts : Accounts) (drawn : Drawn) (username : Text) : Prop :=
  KeyFree columns accounts drawn.apiKeyId ("web:".toList ++ username) ∧
    (∀ user ∈ accounts.users.rows, user.id ≠ drawn.userId) ∧ columns.username username = true

/-- The username is not blank, and a user has it or its rows are free. -/
def Creatable (env : Hashing) (columns : Columns) (accounts : Accounts) (drawn : Drawn)
    (username : Text) : Prop :=
  ∃ normalized, normalizeUsername env username = .ok normalized ∧
    (usernameExists accounts normalized = true ∨ UserFree columns accounts drawn normalized)

/-- The PJ is refused, setup is closed, or the names are free. -/
def Free (env : Security) (columns : Columns) (accounts : Accounts) : Operation → Prop
  | .enrollPlayer db id payload gmKey campaign =>
      PjRepository.findByIdOwnedBy db payload.pjId gmKey campaign = none ∨
        KeyFree columns accounts id payload.name
  | .createUser drawn payload =>
      Creatable env.toHashing columns accounts drawn payload.username
  | .createFirstGm drawn payload =>
      setupRequired accounts = false ∨
        Creatable env.toHashing columns accounts drawn payload.username
  | _ => True

/-- The operation succeeds, or it fails as documented and leaves the accounts as they were. -/
def Documented (env : Security) (columns : Columns) (accounts : Accounts) (operation : Operation) :
    Prop :=
  operation.registers = true →
    (∃ after, operation.outcome env columns accounts = .ok after ∧
      operation.step env columns accounts = after) ∨
    ∃ failure, operation.outcome env columns accounts = .error failure ∧
      failure.documented = true ∧ operation.step env columns accounts = accounts

/-! ## What is stored -/

def Settled (result : Except Failure Accounts) : Prop :=
  ∀ failure, result = .error failure → failure.documented = true

section Stored
variable {env : Security} {columns : Columns} {accounts : Accounts}

theorem settled_error {failure : Failure} :
    Settled (.error failure) ↔ failure.documented = true := by
  constructor
  · intro settled
    exact settled failure rfl
  · intro documented other same
    cases same
    exact documented

theorem not_settled {failure : Failure} (uncaught : failure.documented = false) :
    ¬Settled (.error failure) := by
  rw [settled_error, uncaught]
  exact Bool.false_ne_true

theorem settled_store {after : Accounts} :
    Settled (columns.store accounts (.ok after)) ↔ columns.hold accounts after = true := by
  have stored : columns.store accounts (.ok after) =
      if columns.hold accounts after then .ok after else .error .dataError := rfl
  rw [stored]
  split
  · rename_i held
    exact iff_of_true (fun failure impossible => by cases impossible) held
  · rename_i held
    exact iff_of_false (not_settled rfl) held

theorem documented_iff_settled (operation : Operation) :
    Documented env columns accounts operation ↔
      (operation.registers = true → Settled (operation.outcome env columns accounts)) := by
  apply imp_congr_right
  intro _
  cases outcome : operation.outcome env columns accounts with
  | ok after =>
      apply iff_of_true
      · exact .inl ⟨after, rfl, by rw [Operation.step, outcome]⟩
      · intro failure impossible
        cases impossible
  | error failure =>
      have unchanged : operation.step env columns accounts = accounts := by
        rw [Operation.step, outcome]
      rw [settled_error]
      constructor
      · rintro (⟨after, impossible, -⟩ | ⟨other, same, documented, -⟩)
        · cases impossible
        · cases same
          exact documented
      · intro documented
        exact .inr ⟨failure, rfl, documented, unchanged⟩

end Stored

/-! ## One operation -/

section Insertions
variable {columns : Columns} {accounts : Accounts} {key : ApiKey}

theorem keyFree_iff (columns : Columns) (accounts : Accounts) (key : ApiKey) :
    KeyFree columns accounts key.id key.name ↔
      (accounts.apiKeys.insertAll? [key]).isSome = true ∧ columns.apiKeyName key.name = true :=
  and_congr_left' Indexed.insertAll?_singleton_isSome.symm

theorem hold_key {apiKeys : Indexed Uuid Text ApiKey ApiKey.id ApiKey.name}
    (inserted : accounts.apiKeys.insertAll? [key] = some apiKeys) :
    columns.hold accounts { accounts with apiKeys := apiKeys } = columns.apiKeyName key.name := by
  simp [Columns.hold, Indexed.insertAll?_eq_some.mp inserted]

theorem hold_user {new : NewUser} {after : Accounts} (inserted : new.insert accounts = some after) :
    columns.hold accounts after =
      (columns.apiKeyName new.apiKey.name && columns.username new.user.username) := by
  obtain ⟨apiKeys, keyed, inserted⟩ := Option.bind_eq_some_iff.mp inserted
  obtain ⟨users, stored, same⟩ := Option.bind_eq_some_iff.mp inserted
  cases same
  simp [Columns.hold, Indexed.insertAll?_eq_some.mp keyed, Indexed.insertAll?_eq_some.mp stored]

theorem insert_isSome {new : NewUser} : (new.insert accounts).isSome = true ↔
    (accounts.apiKeys.insertAll? [new.apiKey]).isSome = true ∧
      (accounts.users.insertAll? [new.user]).isSome = true := by
  unfold NewUser.insert
  cases accounts.apiKeys.insertAll? [new.apiKey] with
  | none => simp
  | some apiKeys => cases accounts.users.insertAll? [new.user] <;> simp

end Insertions

section Users
variable {env : Hashing} {columns : Columns} {accounts : Accounts} {drawn : Drawn}
  {username normalized password : Text} {systemRole : Option SystemRole} {profile : Option Profile}

def created (created : Except UserError (NewUser × Accounts)) : Except Failure Accounts :=
  (created.map Prod.snd).mapError .user

theorem createUser_blank {e : UserError} (blank : normalizeUsername env username = .error e) :
    createUser env accounts drawn username systemRole profile password = .error e := by
  rw [createUser, newUser, blank]
  rfl

theorem normalizeUsername_error {e : UserError} (blank : normalizeUsername env username = .error e) :
    e = .valueError "Username must not be blank." := by
  unfold normalizeUsername at blank
  dsimp only at blank
  split at blank
  · cases blank
    rfl
  · cases blank

def rowsOf (drawn : Drawn) (normalized hashed : Text) (systemRole : SystemRole) : NewUser where
  user :=
    ⟨drawn.userId, normalized, systemRole, hashed, .active, some drawn.apiKeyId, drawn.now, none⟩
  apiKey := internalApiKey drawn.apiKeyId normalized

theorem newUser_eq (called : normalizeUsername env username = .ok normalized)
    (given : password ≠ []) :
    newUser env accounts drawn username systemRole profile password =
      if usernameExists accounts normalized then .error .duplicateUser
      else .ok (rowsOf drawn normalized (env.hash password)
        (systemRole.getD (if profile = some .gm then .admin else .user))) := by
  have hashed : hashPassword env password = .ok (env.hash password) := if_neg given
  rw [newUser, called, hashed]
  rfl

theorem createUser_called (called : normalizeUsername env username = .ok normalized)
    (given : password ≠ []) :
    (usernameExists accounts normalized = true ∧
      createUser env accounts drawn username systemRole profile password = .error .duplicateUser) ∨
    usernameExists accounts normalized = false ∧
      ∃ new : NewUser, new.apiKey = internalApiKey drawn.apiKeyId normalized ∧
        new.user.id = drawn.userId ∧ new.user.username = normalized ∧
        createUser env accounts drawn username systemRole profile password =
          (new.insert accounts).elim (.error .integrityError) fun after => .ok (new, after) := by
  rw [createUser, newUser_eq called given]
  cases taken : usernameExists accounts normalized with
  | true => exact .inl ⟨rfl, rfl⟩
  | false =>
      refine .inr ⟨rfl, rowsOf drawn normalized (env.hash password)
        (systemRole.getD (if profile = some .gm then .admin else .user)), rfl, rfl, rfl, ?_⟩
      simp only [Bool.false_eq_true, if_false, bind, Except.bind]
      cases NewUser.insert _ accounts <;> rfl

theorem userFree_iff {new : NewUser} (fresh : usernameExists accounts normalized = false)
    (key : new.apiKey = internalApiKey drawn.apiKeyId normalized) (id : new.user.id = drawn.userId)
    (name : new.user.username = normalized) :
    UserFree columns accounts drawn normalized ↔ (new.insert accounts).isSome = true ∧
      (columns.apiKeyName new.apiKey.name && columns.username new.user.username) = true := by
  have unnamed : ∀ user ∈ accounts.users.rows, user.username ≠ normalized := by
    simpa [usernameExists] using fresh
  have users : (accounts.users.insertAll? [new.user]).isSome = true ↔
      ∀ user ∈ accounts.users.rows, user.id ≠ drawn.userId := by
    rw [Indexed.insertAll?_singleton_isSome, id, name]
    exact forall₂_congr fun user member => and_iff_left (unnamed user member)
  have keys : KeyFree columns accounts drawn.apiKeyId ("web:".toList ++ normalized) ↔
      (accounts.apiKeys.insertAll? [new.apiKey]).isSome = true ∧
        columns.apiKeyName new.apiKey.name = true := by
    rw [key]
    exact keyFree_iff columns accounts (internalApiKey drawn.apiKeyId normalized)
  rw [UserFree, keys, insert_isSome, users, Bool.and_eq_true, name]
  tauto

theorem settled_createUser (given : password ≠ []) :
    Settled (columns.store accounts (created
      (createUser env accounts drawn username systemRole profile password))) ↔
      Creatable env columns accounts drawn username := by
  cases called : normalizeUsername env username with
  | error e =>
      have blank := normalizeUsername_error called
      subst blank
      rw [createUser_blank called]
      apply iff_of_false
      · exact not_settled rfl
      · rintro ⟨normalized, impossible, -⟩
        rw [called] at impossible
        cases impossible
  | ok normalized =>
      have named : Creatable env columns accounts drawn username ↔
          usernameExists accounts normalized = true ∨
            UserFree columns accounts drawn normalized := by
        simp [Creatable, called]
      rw [named]
      rcases createUser_called called given with
        ⟨taken, refused⟩ | ⟨fresh, new, key, id, name, inserts⟩
      · rw [refused]
        exact iff_of_true (settled_error.mpr rfl) (.inl taken)
      · rw [inserts, fresh, userFree_iff fresh key id name]
        cases inserted : new.insert accounts with
        | none =>
            apply iff_of_false
            · exact not_settled rfl
            · simp
        | some after =>
            have stores : created ((some after).elim (.error .integrityError)
                fun after => .ok (new, after)) = .ok after := rfl
            rw [stores, settled_store, hold_user inserted]
            simp

end Users

section Players
variable {columns : Columns} {accounts : Accounts} {db : Database} {id gmKey : Uuid}
  {payload : PlayerCreate} {campaign : Option Uuid}

theorem settled_enrollPlayer :
    Settled (columns.store accounts
      (((enrollPlayer accounts db id payload gmKey campaign).map Prod.snd).mapError .enrolment)) ↔
      PjRepository.findByIdOwnedBy db payload.pjId gmKey campaign = none ∨
        KeyFree columns accounts id payload.name := by
  have free := keyFree_iff columns accounts ⟨id, payload.name, .player, some payload.pjId, .active⟩
  rw [free]
  unfold enrollPlayer
  cases PjRepository.findByIdOwnedBy db payload.pjId gmKey campaign with
  | none => exact iff_of_true (settled_error.mpr rfl) (.inl rfl)
  | some pj =>
      dsimp only
      cases inserted : accounts.apiKeys.insertAll?
          [⟨id, payload.name, .player, some payload.pjId, .active⟩] with
      | none =>
          apply iff_of_false
          · exact not_settled rfl
          · simp
      | some apiKeys =>
          have held : columns.hold accounts { accounts with apiKeys := apiKeys } =
              columns.apiKeyName payload.name := hold_key inserted
          rw [← held]
          simp only [reduceCtorEq, false_or, Option.isSome_some, true_and]
          exact settled_store

end Players

section Runs
variable {env : Security} {columns : Columns} {accounts : Accounts}

theorem documented_step_iff (operation : Operation) :
    Documented env columns accounts operation ↔ Free env columns accounts operation := by
  rw [documented_iff_settled]
  cases operation with
  | enrollPlayer db id payload gmKey campaign =>
      exact (forall_prop_of_true rfl).trans settled_enrollPlayer
  | createUser drawn payload =>
      exact (forall_prop_of_true rfl).trans
        (settled_createUser (List.ne_nil_of_length_pos payload.passwordBounded.1))
  | createFirstGm drawn payload =>
      refine (forall_prop_of_true rfl).trans ?_
      have unfolded : Operation.outcome env columns accounts (.createFirstGm drawn payload) =
          columns.store accounts (created (createFirstGm env.toHashing accounts drawn payload.username
            payload.password)) := rfl
      rw [unfolded, createFirstGm, Free]
      cases open_ : setupRequired accounts with
      | false => exact iff_of_true (settled_error.mpr rfl) (.inl rfl)
      | true =>
          simpa using settled_createUser (List.ne_nil_of_length_pos payload.passwordBounded.1)
  | bootstrap | login | changeUser | revokePlayer =>
      exact iff_of_true (fun impossible => by cases impossible) trivial

/-- Enrolments and new users succeed, or fail as documented, along a run exactly if each of them is
refused beforehand or finds its names free. -/
theorem documented_iff_free (env : Security) (columns : Columns) (accounts : Accounts)
    (run : List Operation) :
    Along (Operation.step env columns) (Documented env columns) accounts run ↔
      Along (Operation.step env columns) (Free env columns) accounts run :=
  along_congr fun _ operation => documented_step_iff operation

end Runs

/-! ## A player's name -/

def sqlite : Columns := ⟨fun _ => true, fun _ => true⟩

def oneCharacter : Database :=
  { Database.empty with pjs := ⟨⟨[⟨8, "Bran".toList, 7, 1⟩], by decide⟩, by decide⟩ }

example :
    (Operation.createUser ⟨1, 2, 0⟩ ⟨⟨"alice".toList, "secret".toList, by decide, by decide⟩,
      .user⟩).outcome plainSecurity sqlite
      ⟨.empty, .empty, ⟨⟨[⟨3, "web:alice".toList, .player, some 8, .active⟩], by decide⟩, by decide⟩⟩ =
    .error (.user .integrityError) := rfl

theorem second_alice_fails :
    ¬Along (Operation.step plainSecurity sqlite) (Documented plainSecurity sqlite)
      ⟨.empty, .empty, .empty⟩
      [.bootstrap [⟨7, "mj".toList⟩],
        .enrollPlayer oneCharacter 1 ⟨"Alice".toList, 8, by decide⟩ 7 none,
        .enrollPlayer oneCharacter 2 ⟨"Alice".toList, 8, by decide⟩ 7 none] := by
  rintro ⟨-, -, documented, -⟩
  rcases documented rfl with ⟨after, outcome, -⟩ | ⟨failure, outcome, caught, -⟩
  · cases outcome
  · cases outcome
    cases caught

end Kaeyris.Enrolment
