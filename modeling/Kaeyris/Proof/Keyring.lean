import Kaeyris.Keyring
import Kaeyris.Proof.Enrolment

/-!
# Who a token is

Over any sequence of bootstraps, enrolments, revocations and changes of users, a token is answered
with the identity of a key that was created with it and not revoked since, and every such key can be
the answer.
-/

namespace Kaeyris.Keyring
open Lib Users Enrolment Proof

/-! ## The scan -/

/-- The row is usable and the token is the one that was hashed. -/
def Opens (argon : Argon2) (token : Text) (row : KeyRow) : Prop :=
  ¬(row.key.role = .player ∧ row.key.pjId = none) ∧ argon.verify row.hash token = .ok true

section Scan
variable {argon : Argon2} {token : Text}

theorem verifyEntry_opens {row : KeyRow} (opens : Opens argon token row)
    (matched : Option Authenticated) :
    verifyEntry argon token matched row = matched.or (some (identity row.key)) := by
  obtain ⟨usable, verifies⟩ := opens
  unfold verifyEntry
  rw [if_neg (by simpa using usable), verifies]
  cases matched <;> rfl

theorem verifyEntry_closed {row : KeyRow} (closed : ¬Opens argon token row)
    (matched : Option Authenticated) : verifyEntry argon token matched row = matched := by
  unfold verifyEntry
  split
  · rfl
  · rename_i usable
    cases verifies : argon.verify row.hash token with
    | error e => cases e <;> rfl
    | ok answer =>
        cases answer with
        | false => rfl
        | true => exact absurd ⟨by simpa using usable, verifies⟩ closed

theorem scan_matched (entries : List KeyRow) (found : Authenticated) :
    entries.foldl (verifyEntry argon token) (some found) = some found := by
  induction entries with
  | nil => rfl
  | cons row rest ih =>
      rw [List.foldl_cons]
      by_cases opens : Opens argon token row
      · rw [verifyEntry_opens opens]
        exact ih
      · rw [verifyEntry_closed opens]
        exact ih

theorem verify_some {entries : List KeyRow} {found : Authenticated}
    (verified : verifyAgainstRegistry argon token entries = some found) :
    ∃ row ∈ entries, Opens argon token row ∧ found = identity row.key := by
  induction entries with
  | nil => cases verified
  | cons row rest ih =>
      rw [verifyAgainstRegistry, List.foldl_cons] at verified
      by_cases opens : Opens argon token row
      · rw [verifyEntry_opens opens, Option.none_or, scan_matched] at verified
        exact ⟨row, List.mem_cons_self, opens, (Option.some.inj verified).symm⟩
      · rw [verifyEntry_closed opens] at verified
        obtain ⟨other, member, facts⟩ := ih verified
        exact ⟨other, List.mem_cons_of_mem _ member, facts⟩

theorem verify_none {entries : List KeyRow}
    (refused : verifyAgainstRegistry argon token entries = none) :
    ∀ row ∈ entries, ¬Opens argon token row := by
  induction entries with
  | nil => simp
  | cons row rest ih =>
      rw [verifyAgainstRegistry, List.foldl_cons] at refused
      by_cases opens : Opens argon token row
      · rw [verifyEntry_opens opens, Option.none_or, scan_matched] at refused
        cases refused
      · rw [verifyEntry_closed opens] at refused
        intro other member
        rcases List.mem_cons.mp member with rfl | later
        · exact opens
        · exact ih refused other later

/-- Each row that a token opens is the answer in some order. -/
theorem exists_order_iff {rows : List KeyRow} {found : Authenticated} :
    (∃ entries, entries.Perm rows ∧ bearerAnswer argon entries token = .ok found) ↔
      ∃ row ∈ rows, Opens argon token row ∧ found = identity row.key := by
  constructor
  · rintro ⟨entries, same, answer⟩
    unfold bearerAnswer at answer
    split at answer
    · cases answer
    · split at answer
      · cases answer
      · rename_i verified
        cases answer
        obtain ⟨row, member, facts⟩ := verify_some verified
        exact ⟨row, same.mem_iff.mp member, facts⟩
  · rintro ⟨row, member, opens, rfl⟩
    refine ⟨row :: rows.erase row, (List.perm_cons_erase member).symm, ?_⟩
    have first : verifyAgainstRegistry argon token (row :: rows.erase row) =
        some (identity row.key) := by
      rw [verifyAgainstRegistry, List.foldl_cons, verifyEntry_opens opens, Option.none_or,
        scan_matched]
    rw [bearerAnswer, if_neg (List.cons_ne_nil _ _), first]

theorem bearer_refused {entries : List KeyRow} {e : AppError}
    (answer : bearerAnswer argon entries token = .error e) :
    (e = noKeys ∧ entries = []) ∨
      e = invalidKey ∧ entries ≠ [] ∧ ∀ row ∈ entries, ¬Opens argon token row := by
  unfold bearerAnswer at answer
  split at answer
  · rename_i empty
    cases answer
    exact .inl ⟨rfl, empty⟩
  · rename_i filled
    split at answer
    · rename_i refused
      cases answer
      exact .inr ⟨rfl, filled, verify_none refused⟩
    · cases answer

end Scan

/-! ## What an operation does to the table -/

/-- The rows stay and active ones come after them. -/
def Adds (before after : Accounts) : Prop :=
  ∃ added, after.apiKeys.rows = before.apiKeys.rows ++ added ∧ ∀ key ∈ added, key.status = .active

section Operations
variable {env : Security} {accounts after : Accounts}

theorem adds_refl (accounts : Accounts) : Adds accounts accounts :=
  ⟨[], (List.append_nil _).symm, by simp⟩

theorem adds_insert {added : List ApiKey}
    {apiKeys : Indexed Uuid Text ApiKey ApiKey.id ApiKey.name}
    (inserted : accounts.apiKeys.insertAll? added = some apiKeys) (same : after.apiKeys = apiKeys)
    (active : ∀ key ∈ added, key.status = .active) : Adds accounts after :=
  ⟨added, by rw [same, Indexed.insertAll?_eq_some.mp inserted], active⟩

theorem adds_createUser {drawn : Drawn} {username password : Text}
    {systemRole : Option SystemRole} {profile : Option Profile} {new : NewUser}
    (done : createUser env.toHashing accounts drawn username systemRole profile password =
      .ok (new, after)) : Adds accounts after := by
  obtain ⟨made, built, done⟩ := except_bind_ok done
  obtain ⟨normalized, -, built⟩ := except_bind_ok built
  split at built
  · cases built
  obtain ⟨hashed, -, built⟩ := except_bind_ok built
  cases built
  split at done
  · rename_i result inserted
    cases done
    obtain ⟨apiKeys, added, inserted⟩ := Option.bind_eq_some_iff.mp inserted
    obtain ⟨users, -, same⟩ := Option.bind_eq_some_iff.mp inserted
    cases same
    exact adds_insert added rfl (by simp [internalApiKey])
  · cases done

theorem adds_authenticateUser {apiKeyId : Uuid} {username password : Text}
    {found : Option (Users.User × Accounts)}
    (done : authenticateUser env accounts apiKeyId username password = .ok found) :
    Adds accounts ((found.map Prod.snd).getD accounts) := by
  obtain ⟨normalized, -, done⟩ := except_bind_ok done
  split at done
  · cases done
    exact adds_refl accounts
  · split at done
    · obtain ⟨result, ensured, done⟩ := except_bind_ok done
      cases done
      unfold ensureJdrApiKey at ensured
      split at ensured
      · cases ensured
        exact adds_refl accounts
      · split at ensured
        · rename_i inserted
          cases ensured
          exact adds_insert inserted rfl (by simp [internalApiKey])
        · cases ensured
    · cases done
      exact adds_refl accounts

theorem adds_changeUser {user apiKeyId : Uuid} {now : Timestamp} {change : Change}
    (done : changeUser env.toHashing accounts user apiKeyId now change = .ok after) :
    Adds accounts after := by
  obtain ⟨loaded, -, done⟩ := except_bind_ok done
  obtain ⟨-, -, done⟩ := except_bind_ok done
  obtain ⟨e, edited, done⟩ := except_bind_ok done
  split at done
  · rename_i result flushed
    cases done
    obtain ⟨apiKeys, inserted, rfl⟩ := Option.map_eq_some_iff.mp flushed
    refine adds_insert inserted rfl fun key member => ?_
    have usable := usable_edit edited key member
    simp only [ApiKey.usable, Bool.and_eq_true, decide_eq_true_eq] at usable
    exact usable.1
  · cases done

theorem adds_enrollPlayer {db : Database} {id gmKey : Uuid} {payload : PlayerCreate}
    {campaign : Option Uuid} {key : ApiKey}
    (done : Users.enrollPlayer accounts db id payload gmKey campaign = .ok (key, after)) :
    after.apiKeys.rows = accounts.apiKeys.rows ++
      [⟨id, payload.name, .player, some payload.pjId, .active⟩] := by
  unfold Users.enrollPlayer at done
  split at done
  · cases done
  · dsimp only at done
    split at done
    · rename_i inserted
      cases done
      exact Indexed.insertAll?_eq_some.mp inserted
    · cases done

theorem adds_bootstrap {entries : List ApiKeyEntry} {given : List ApiKey}
    (done : bootstrapApiKeysFromEnv accounts entries = .ok (given, after)) :
    Adds accounts after := by
  unfold bootstrapApiKeysFromEnv at done
  split at done
  · cases done
    exact adds_refl accounts
  · dsimp only at done
    split at done
    · rename_i inserted
      cases done
      refine adds_insert inserted rfl fun key member => ?_
      obtain ⟨entry, -, rfl⟩ := List.mem_map.mp member
      rfl
    · cases done

theorem written_cases {label : Label} (written : label.operation.written env accounts = .ok after) :
    (label.revokes accounts = [] ∧ Adds accounts after) ∨
    ∃ player, label.revokes accounts = [player] ∧
      (∃ key ∈ accounts.apiKeys.rows, key.id = player) ∧
      after.apiKeys.rows = accounts.apiKeys.rows.map fun key =>
        if key.id = player then { key with status := .revoked } else key := by
  have ofMap {ε α : Type} {result : Except ε (α × Accounts)} {f : ε → Failure}
      (done : (result.map Prod.snd).mapError f = .ok after) : ∃ a, result = .ok (a, after) := by
    obtain ⟨⟨a, _⟩, same, rfl⟩ := except_map_ok (except_mapError_ok done)
    exact ⟨a, same⟩
  cases label with
  | bootstrap apiKeys ids =>
      obtain ⟨given, done⟩ := ofMap written
      exact .inl ⟨rfl, adds_bootstrap done⟩
  | enrollPlayer db id payload gmKey campaign draw =>
      obtain ⟨key, done⟩ := ofMap written
      exact .inl ⟨rfl, _, adds_enrollPlayer done, by simp⟩
  | createUser drawn payload draw =>
      obtain ⟨new, done⟩ := ofMap written
      exact .inl ⟨rfl, adds_createUser done⟩
  | createFirstGm drawn payload draw =>
      obtain ⟨new, done⟩ := ofMap written
      unfold createFirstGm at done
      split at done
      · cases done
      · exact .inl ⟨rfl, adds_createUser done⟩
  | login apiKeyId username password draw =>
      obtain ⟨found, done, rfl⟩ := except_map_ok (except_mapError_ok written)
      exact .inl ⟨rfl, adds_authenticateUser done⟩
  | changeUser user apiKeyId now change draw =>
      exact .inl ⟨rfl, adds_changeUser (except_mapError_ok written)⟩
  | revokePlayer db player gmKey =>
      cases revoked : Users.revokePlayer accounts db player gmKey with
      | none =>
          have same : (Users.revokePlayer accounts db player gmKey).getD accounts = after :=
            Except.ok.inj written
          rw [revoked] at same
          obtain rfl : accounts = after := same
          exact .inl ⟨by rw [Label.revokes, revoked]; rfl, adds_refl accounts⟩
      | some result =>
          have same : (Users.revokePlayer accounts db player gmKey).getD accounts = after :=
            Except.ok.inj written
          rw [revoked] at same
          obtain rfl : result = after := same
          obtain ⟨row, found, rfl⟩ := Option.map_eq_some_iff.mp revoked
          have wanted := List.find?_some found
          simp only [Bool.and_eq_true, decide_eq_true_eq] at wanted
          refine .inr ⟨player, by rw [Label.revokes, revoked]; rfl,
            ⟨row, List.mem_of_find?_eq_some found, wanted.1.1⟩, ?_⟩
          simp only [Indexed.rows_update, decide_eq_true_eq]

end Operations

/-! ## The history -/

def standing (revoked : List Uuid) (row : KeyRow) : ApiKey :=
  if row.key.id ∈ revoked then { row.key with status := .revoked } else row.key

structure Ledgered (s : Keys) : Prop where
  rows : s.accounts.apiKeys.rows = s.granted.map (standing s.revoked)
  active : ∀ row ∈ s.granted, row.key.status = .active
  hashed : ∀ row ∈ s.granted, s.hash row.key.id = row.hash
  known : ∀ id ∈ s.revoked, ∃ row ∈ s.granted, row.key.id = id

theorem ledgered_initial : Ledgered .initial where
  rows := rfl
  active := by simp [Keys.initial]
  hashed := by simp [Keys.initial]
  known := by simp [Keys.initial]

section Steps
variable {env : Security} {argon : Argon2} {columns : KeyColumns} {s : Keys}

theorem standing_id (revoked : List Uuid) (row : KeyRow) :
    (standing revoked row).id = row.key.id := by
  unfold standing
  split <;> rfl

theorem Ledgered.ids (ledgered : Ledgered s) :
    s.accounts.apiKeys.rows.map ApiKey.id = s.granted.map fun row => row.key.id := by
  rw [ledgered.rows, List.map_map]
  exact List.map_congr_left fun row _ => standing_id s.revoked row

theorem Ledgered.unique (ledgered : Ledgered s) : (s.granted.map fun row => row.key.id).Nodup := by
  rw [← ledgered.ids]
  exact s.accounts.apiKeys.unique

theorem ledgered_adds (ledgered : Ledgered s) {after : Accounts} (adds : Adds s.accounts after)
    (hash : Uuid → Text) : Ledgered (s.commit after hash []) := by
  obtain ⟨added, rows, active⟩ := adds
  have apart : ∀ key ∈ added, ∀ row ∈ s.granted, key.id ≠ row.key.id := by
    have unique := after.apiKeys.unique
    rw [rows, List.map_append, ledgered.ids] at unique
    intro key new row old same
    exact List.disjoint_of_nodup_append unique (List.mem_map_of_mem old)
      (same ▸ List.mem_map_of_mem new)
  have drops : after.apiKeys.rows.drop s.accounts.apiKeys.rows.length = added := by
    rw [rows, List.drop_left]
  unfold Keys.commit
  rw [drops, List.append_nil]
  refine ⟨?_, fun row member => ?_, fun row member => ?_, fun id member => ?_⟩
  · dsimp only
    rw [rows, ledgered.rows, List.map_append, List.map_map]
    congr 1
    refine (List.map_id added).symm.trans (List.map_congr_left fun key new => ?_)
    have fresh : key.id ∉ s.revoked := by
      intro gone
      obtain ⟨row, old, same⟩ := ledgered.known key.id gone
      exact apart key new row old same.symm
    exact (if_neg fresh).symm
  · rcases List.mem_append.mp member with old | new
    · exact ledgered.active row old
    · obtain ⟨key, listed, rfl⟩ := List.mem_map.mp new
      exact active key listed
  · dsimp only
    rcases List.mem_append.mp member with old | new
    · have elsewhere : (added.any fun key => key.id = row.key.id) = false := by
        rw [List.any_eq_false]
        intro key new
        simpa using apart key new row old
      rw [elsewhere]
      exact ledgered.hashed row old
    · obtain ⟨key, listed, rfl⟩ := List.mem_map.mp new
      have found : (added.any fun other => other.id = key.id) = true :=
        List.any_eq_true.mpr ⟨key, listed, by simp⟩
      rw [found]
      rfl
  · obtain ⟨row, old, same⟩ := ledgered.known id member
    exact ⟨row, List.mem_append_left _ old, same⟩

theorem ledgered_revokes (ledgered : Ledgered s) {after : Accounts} {player : Uuid}
    (present : ∃ key ∈ s.accounts.apiKeys.rows, key.id = player)
    (rows : after.apiKeys.rows = s.accounts.apiKeys.rows.map fun key =>
      if key.id = player then { key with status := .revoked } else key)
    (hash : Uuid → Text) : Ledgered (s.commit after hash [player]) := by
  have drops : after.apiKeys.rows.drop s.accounts.apiKeys.rows.length = [] := by
    rw [List.drop_eq_nil_iff, rows, List.length_map]
  unfold Keys.commit
  rw [drops]
  simp only [List.map_nil, List.append_nil, List.any_nil, Bool.false_eq_true, if_false]
  refine ⟨?_, ledgered.active, fun row member => ?_, fun id member => ?_⟩
  · dsimp only
    rw [rows, ledgered.rows, List.map_map]
    refine List.map_congr_left fun row _ => ?_
    simp only [Function.comp_apply, standing_id]
    unfold standing
    by_cases own : row.key.id = player
    · have gone : row.key.id ∈ s.revoked ++ [player] :=
        List.mem_append_right _ (List.mem_singleton.mpr own)
      rw [if_pos own, if_pos gone]
      split <;> rfl
    · have same : row.key.id ∈ s.revoked ++ [player] ↔ row.key.id ∈ s.revoked := by simp [own]
      rw [if_neg own]
      simp only [same]
  · exact ledgered.hashed row member
  · rcases List.mem_append.mp member with old | new
    · exact ledgered.known id old
    · obtain rfl := List.mem_singleton.mp new
      obtain ⟨key, stored, same⟩ := present
      rw [ledgered.rows] at stored
      obtain ⟨row, listed, rfl⟩ := List.mem_map.mp stored
      exact ⟨row, listed, (standing_id s.revoked row).symm.trans same⟩

theorem written_of_outcome {label : Label} {accounts after : Accounts}
    (done : label.outcome env argon columns accounts = .ok after) :
    label.operation.written env accounts = .ok after := by
  obtain ⟨stored, taken, done⟩ := except_bind_ok done
  obtain ⟨result, written, held⟩ := except_bind_ok taken
  split at held
  · cases held
    dsimp only at done
    split at done
    · cases done
      exact written
    · cases done
  · cases held

theorem ledgered_step (ledgered : Ledgered s) (label : Label) :
    Ledgered (s.step env argon columns label) := by
  unfold Keys.step
  split
  · rename_i after done
    rcases written_cases (written_of_outcome done) with ⟨none, adds⟩ | ⟨player, one, present, rows⟩
    · rw [none]
      exact ledgered_adds ledgered adds _
    · rw [one]
      exact ledgered_revokes ledgered present rows _
  · exact ledgered

theorem ledgered_run (run : List Label) :
    Visits (Keys.step env argon columns) Ledgered .initial run :=
  Visits.of_step (fun _ label ledgered => ledgered_step ledgered label) ledgered_initial

end Steps

/-! ## Answers -/

/-- The key was created and not revoked since. -/
def Live (s : Keys) (row : KeyRow) : Prop := row ∈ s.granted ∧ row.key.id ∉ s.revoked

/-- The identities that a token may be answered with, in one order of the rows or another, are those
of the live keys it opens; it is refused only if there is none. -/
structure Exact (argon : Argon2) (s : Keys) : Prop where
  answers : ∀ token found,
    (∃ entries, entries.Perm s.listActiveKeys ∧ bearerAnswer argon entries token = .ok found) ↔
      ∃ row, Live s row ∧ Opens argon token row ∧ found = identity row.key
  refusals : ∀ token entries e, entries.Perm s.listActiveKeys →
    bearerAnswer argon entries token = .error e →
      (e = noKeys ∧ ∀ row, ¬Live s row) ∨
        e = invalidKey ∧ (∃ row, Live s row) ∧ ∀ row, Live s row → ¬Opens argon token row

section Answers
variable {env : Security} {argon : Argon2} {columns : KeyColumns} {s : Keys}

theorem Ledgered.mem_listActiveKeys (ledgered : Ledgered s) {row : KeyRow} :
    row ∈ s.listActiveKeys ↔ Live s row := by
  unfold Keys.listActiveKeys
  rw [List.mem_map]
  constructor
  · rintro ⟨key, selected, rfl⟩
    obtain ⟨stored, active⟩ := List.mem_filter.mp selected
    rw [ledgered.rows] at stored
    obtain ⟨granted, listed, rfl⟩ := List.mem_map.mp stored
    have kept : granted.key.id ∉ s.revoked := by
      intro gone
      simp [standing, gone] at active
    have same : standing s.revoked granted = granted.key := if_neg kept
    rw [same, ledgered.hashed granted listed]
    exact ⟨listed, kept⟩
  · rintro ⟨listed, kept⟩
    refine ⟨row.key, List.mem_filter.mpr ⟨?_, ?_⟩, ?_⟩
    · rw [ledgered.rows]
      exact List.mem_map.mpr ⟨row, listed, if_neg kept⟩
    · simpa using ledgered.active row listed
    · rw [ledgered.hashed row listed]

theorem Ledgered.exact (ledgered : Ledgered s) : Exact argon s where
  answers := fun token found => by
    rw [exists_order_iff]
    constructor
    · rintro ⟨row, member, facts⟩
      exact ⟨row, ledgered.mem_listActiveKeys.mp member, facts⟩
    · rintro ⟨row, live, facts⟩
      exact ⟨row, ledgered.mem_listActiveKeys.mpr live, facts⟩
  refusals := fun token entries e same answer => by
    have listed (row : KeyRow) : row ∈ entries ↔ Live s row :=
      same.mem_iff.trans ledgered.mem_listActiveKeys
    rcases bearer_refused answer with ⟨rfl, rfl⟩ | ⟨rfl, filled, closed⟩
    · exact .inl ⟨rfl, fun row live => List.not_mem_nil ((listed row).mpr live)⟩
    · obtain ⟨row, rest, rfl⟩ := List.exists_cons_of_ne_nil filled
      exact .inr ⟨rfl, ⟨row, (listed row).mp List.mem_cons_self⟩,
        fun row live => closed row ((listed row).mpr live)⟩

theorem history_step (label : Label) :
    (∀ row ∈ s.granted, row ∈ (s.step env argon columns label).granted) ∧
      ∀ id ∈ s.revoked, id ∈ (s.step env argon columns label).revoked := by
  unfold Keys.step
  split
  · exact ⟨fun _ member => List.mem_append_left _ member,
      fun _ member => List.mem_append_left _ member⟩
  · exact ⟨fun _ member => member, fun _ member => member⟩

theorem history_run (run : List Label) :
    (∀ row ∈ s.granted, row ∈ (final (Keys.step env argon columns) s run).granted) ∧
      ∀ id ∈ s.revoked, id ∈ (final (Keys.step env argon columns) s run).revoked := by
  induction run generalizing s with
  | nil => exact ⟨fun _ member => member, fun _ member => member⟩
  | cons label rest ih =>
      obtain ⟨granted, revoked⟩ := @history_step env argon columns s label
      obtain ⟨granted', revoked'⟩ := @ih (s.step env argon columns label)
      exact ⟨fun row member => granted' row (granted row member),
        fun id member => revoked' id (revoked id member)⟩

theorem Ledgered.unique_row (ledgered : Ledgered s) {row other : KeyRow} (listed : row ∈ s.granted)
    (listed' : other ∈ s.granted) (same : row.key.id = other.key.id) : row = other :=
  List.inj_on_of_nodup_map ledgered.unique listed listed' same

theorem enrolled {db : Database} {id gmKey : Uuid} {payload : PlayerCreate}
    {campaign : Option Uuid} {draw : TokenDraw}
    (accepted : ((Label.enrollPlayer db id payload gmKey campaign draw).outcome env argon columns
      s.accounts).isOk = true) :
    ⟨⟨id, payload.name, .player, some payload.pjId, .active⟩, argon.hash draw.salt draw.token⟩ ∈
      (s.step env argon columns (.enrollPlayer db id payload gmKey campaign draw)).granted := by
  unfold Keys.step
  cases done : (Label.enrollPlayer db id payload gmKey campaign draw).outcome env argon columns
      s.accounts with
  | error e =>
      rw [done] at accepted
      cases accepted
  | ok after =>
      obtain ⟨⟨key, _⟩, enrols, rfl⟩ := except_map_ok
        (except_mapError_ok (written_of_outcome done))
      dsimp only
      unfold Keys.commit
      rw [adds_enrollPlayer enrols, List.drop_left]
      exact List.mem_append_right _ (List.mem_singleton_self _)

end Answers

/-- In every reachable state the registry answers as the history of its keys says. -/
theorem keyring_exact (env : Security) (argon : Argon2) (columns : KeyColumns) (run : List Label) :
    Exact argon (final (Keys.step env argon columns) .initial run) :=
  (ledgered_run run).final.exact

/-- A key that was revoked is nobody's any more. -/
theorem revoked_for_good (env : Security) (argon : Argon2) (columns : KeyColumns)
    (before after : List Label) {id : Uuid}
    (revoked : id ∈ (final (Keys.step env argon columns) .initial before).revoked) {token : Text}
    {entries : List KeyRow} {found : Authenticated}
    (same : entries.Perm
      (final (Keys.step env argon columns) .initial (before ++ after)).listActiveKeys)
    (answer : bearerAnswer argon entries token = .ok found) : found.id ≠ id := by
  have exact_ := keyring_exact env argon columns (before ++ after)
  obtain ⟨row, ⟨-, kept⟩, -, rfl⟩ := (exact_.answers token found).mp ⟨entries, same, answer⟩
  rintro rfl
  apply kept
  rw [final_append]
  exact (history_run after).2 _ revoked

/-- The token that an enrolment shows, and no other, is the player's until the key is revoked. -/
theorem player_token (env : Security) {argon : Argon2} (columns : KeyColumns)
    (verifies : ∀ salt token token',
      argon.verify (argon.hash salt token) token' = .ok true ↔ token' = token)
    (before after : List Label) {db : Database} {id gmKey : Uuid} {payload : PlayerCreate}
    {campaign : Option Uuid} {draw : TokenDraw}
    (accepted : ((Label.enrollPlayer db id payload gmKey campaign draw).outcome env argon columns
      (final (Keys.step env argon columns) .initial before).accounts).isOk = true)
    (token : Text) :
    (∃ entries, entries.Perm (final (Keys.step env argon columns) .initial
        (before ++ .enrollPlayer db id payload gmKey campaign draw :: after)).listActiveKeys ∧
      bearerAnswer argon entries token = .ok ⟨id, payload.name, .player, some payload.pjId⟩) ↔
    token = draw.token ∧ id ∉ (final (Keys.step env argon columns) .initial
      (before ++ .enrollPlayer db id payload gmKey campaign draw :: after)).revoked := by
  have exact_ := keyring_exact env argon columns
    (before ++ .enrollPlayer db id payload gmKey campaign draw :: after)
  have ledgered : Ledgered (final (Keys.step env argon columns) .initial
    (before ++ .enrollPlayer db id payload gmKey campaign draw :: after)) := (ledgered_run _).final
  have listed : ⟨⟨id, payload.name, .player, some payload.pjId, .active⟩,
      argon.hash draw.salt draw.token⟩ ∈ (final (Keys.step env argon columns) .initial
        (before ++ .enrollPlayer db id payload gmKey campaign draw :: after)).granted := by
    rw [final_append]
    exact (history_run after).1 _ (enrolled accepted)
  rw [exact_.answers]
  constructor
  · rintro ⟨row, ⟨listed', kept⟩, ⟨-, opens⟩, same⟩
    have same_id : row.key.id = id := (congrArg Authenticated.id same).symm
    obtain rfl := ledgered.unique_row listed' listed same_id
    exact ⟨(verifies _ _ _).mp opens, kept⟩
  · rintro ⟨rfl, kept⟩
    exact ⟨_, ⟨listed, kept⟩, ⟨by simp, (verifies _ _ _).mpr rfl⟩, rfl⟩

def plainArgon : Argon2 where
  hash _ token := argonMark ++ token
  verify hash token :=
    if hash = argonMark ++ token then .ok true
    else if argonMark.isPrefixOf hash then .error .mismatch
    else .error .invalidHash

theorem plainArgon_verifies (salt token token' : Text) :
    plainArgon.verify (plainArgon.hash salt token) token' = .ok true ↔ token' = token := by
  unfold plainArgon
  dsimp only
  split
  · rename_i same
    exact iff_of_true rfl (List.append_cancel_left same).symm
  · rename_i apart
    refine iff_of_false ?_ ?_
    · split <;> simp
    · rintro rfl
      exact apart rfl

def sqliteKeys : KeyColumns := ⟨sqlite, fun _ => true⟩

def gameMasterKey : Label := .bootstrap (some "mj:$argon2id$key".toList) fun _ => 7

theorem alice_bounded : 1 ≤ "Alice".toList.length ∧ "Alice".toList.length ≤ 255 := by decide

def enrolsAlice : Label :=
  .enrollPlayer oneCharacter 1 ⟨"Alice".toList, 8, alice_bounded⟩ 7 none ⟨"token".toList, []⟩

/-- Alice keeps her token when the application starts again. -/
theorem player_token_restarted :
    (∃ entries, entries.Perm (final (Keys.step plainSecurity plainArgon sqliteKeys) .initial
        ([gameMasterKey] ++ enrolsAlice :: [gameMasterKey])).listActiveKeys ∧
      bearerAnswer plainArgon entries "token".toList = .ok ⟨1, "Alice".toList, .player, some 8⟩) ↔
    "token".toList = "token".toList ∧
      1 ∉ (final (Keys.step plainSecurity plainArgon sqliteKeys) .initial
        ([gameMasterKey] ++ enrolsAlice :: [gameMasterKey])).revoked :=
  @player_token plainSecurity plainArgon sqliteKeys plainArgon_verifies [gameMasterKey]
    [gameMasterKey] oneCharacter 1 7 ⟨"Alice".toList, 8, alice_bounded⟩ none ⟨"token".toList, []⟩
    (by decide +kernel) "token".toList

/-- With two keys for one token, the order of the rows decides who the sender is. -/
example :
    (verifyAgainstRegistry plainArgon ['t']
      [⟨⟨1, ['a'], .gm, none, .active⟩, argonMark ++ ['t']⟩,
        ⟨⟨2, ['b'], .gm, none, .active⟩, argonMark ++ ['t']⟩]).map Authenticated.id = some 1 := by
  decide +kernel

end Kaeyris.Keyring
