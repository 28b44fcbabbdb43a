import Kaeyris.Proof.RateLimit
import Kaeyris.Proof.WebSessions
import Kaeyris.Quotas

/-!
# Independent quotas

A bucket is the name under which an identity is known. Names are never given up, so identities whose
names are apart never meet in a bucket; two that share a name use up each other's quota.
-/

namespace Kaeyris.Proof
open Lib RateLimit Users Quotas

/-! ## Names -/

/-- The rows stay under their label, and a row under a new label is live. -/
structure Extends {ρ label : Type} (of : ρ → label) (live : ρ → Bool) (rows rows' : List ρ) :
    Prop where
  kept : ∀ row ∈ rows, ∃ row' ∈ rows', of row' = of row
  new : ∀ row' ∈ rows', (∃ row ∈ rows, of row = of row') ∨ live row' = true

section Extends
variable {ρ label : Type} {of : ρ → label} {live : ρ → Bool} {rows : List ρ}

theorem extends_refl (rows : List ρ) : Extends of live rows rows :=
  ⟨fun row member => ⟨row, member, rfl⟩, fun row member => .inl ⟨row, member, rfl⟩⟩

theorem extends_append {added : List ρ} (alive : ∀ row ∈ added, live row = true) :
    Extends of live rows (rows ++ added) where
  kept row member := ⟨row, List.mem_append_left added member, rfl⟩
  new row member := by
    rcases List.mem_append.mp member with old | new
    · exact .inl ⟨row, old, rfl⟩
    · exact .inr (alive row new)

section Insert
variable {κ κ' : Type} {key : ρ → κ} {index : ρ → κ'} [DecidableEq κ] [DecidableEq κ']
  {t u : Indexed κ κ' ρ key index} {added : List ρ}

theorem extends_insertAll (inserted : t.insertAll? added = some u)
    (alive : ∀ row ∈ added, live row = true) : Extends of live t.rows u.rows := by
  rw [Indexed.insertAll?_eq_some.mp inserted]
  exact extends_append alive

theorem mem_insertAll (inserted : t.insertAll? added = some u) {row : ρ} (member : row ∈ added) :
    row ∈ u.rows := by
  rw [Indexed.insertAll?_eq_some.mp inserted]
  exact List.mem_append_right _ member

end Insert

theorem extends_map {f : ρ → ρ} (same : ∀ row, of (f row) = of row) :
    Extends of live rows (rows.map f) where
  kept row member := ⟨f row, List.mem_map_of_mem member, same row⟩
  new row member := by
    obtain ⟨old, present, rfl⟩ := List.mem_map.mp member
    exact .inl ⟨old, present, (same old).symm⟩

end Extends

def keyLabel (key : ApiKey) : Uuid × Text := (key.id, key.name)
def userLabel (user : Users.User) : Uuid × Text := (user.id, user.username)
def userLive (user : Users.User) : Bool := user.status = .active

structure NamesKept (accounts accounts' : Accounts) : Prop where
  keys : Extends keyLabel ApiKey.usable accounts.apiKeys.rows accounts'.apiKeys.rows
  users : Extends userLabel userLive accounts.users.rows accounts'.users.rows

section Registry
variable {env : Hashing} {accounts accounts' : Accounts} {r : Registry}

theorem usable_internal (id : Uuid) (username : Text) :
    (internalApiKey id username).usable = true := rfl

theorem names_bootstrap {entries : List ApiKeyEntry} {given : List ApiKey}
    (done : bootstrapApiKeysFromEnv accounts entries = .ok (given, accounts')) :
    NamesKept accounts accounts' ∧
      ∀ key ∈ given, key ∈ accounts'.apiKeys.rows ∧ key.usable = true := by
  unfold bootstrapApiKeysFromEnv at done
  split at done
  · cases done
    exact ⟨⟨extends_refl _, extends_refl _⟩, by simp⟩
  · dsimp only at done
    split at done
    · rename_i apiKeys inserted
      cases done
      have alive : ∀ key ∈ entries.map fun entry =>
          (⟨entry.id, entry.name, .gm, none, .active⟩ : ApiKey), key.usable = true := by
        intro key member
        obtain ⟨entry, -, rfl⟩ := List.mem_map.mp member
        rfl
      exact ⟨⟨extends_insertAll inserted alive, extends_refl _⟩,
        fun key member => ⟨mem_insertAll inserted member, alive key member⟩⟩
    · cases done

theorem names_createUser {drawn : Drawn} {username password : Text}
    {systemRole : Option SystemRole} {profile : Option Profile} {new : NewUser}
    (done : createUser env accounts drawn username systemRole profile password =
      .ok (new, accounts')) : NamesKept accounts accounts' := by
  obtain ⟨made, built, done⟩ := except_bind_ok done
  obtain ⟨normalized, -, built⟩ := except_bind_ok built
  split at built
  · cases built
  obtain ⟨hashed, -, built⟩ := except_bind_ok built
  cases built
  split at done
  · rename_i result inserted
    cases done
    obtain ⟨apiKeys, added, inserted⟩ := Option.bind_eq_some_iff.mp inserted
    obtain ⟨users, written, same⟩ := Option.bind_eq_some_iff.mp inserted
    cases same
    constructor
    · exact extends_insertAll added (by simp [usable_internal])
    · exact extends_insertAll written (by simp [userLive])
  · cases done

theorem usable_edit {user : Users.User} {apiKeyId : Uuid} {now : Timestamp} {change : Change}
    {e : Edit} (edited : edit env accounts user apiKeyId now change = .ok e) :
    ∀ key ∈ e.apiKey.toList, key.usable = true := by
  cases change with
  | update u =>
      have alive : ∀ key ∈ (if user.apiKeyId.isNone then some (internalApiKey apiKeyId user.username)
          else none).toList, key.usable = true := by
        intro key member
        split at member
        · obtain rfl := List.mem_singleton.mp member
          rfl
        · cases member
      simp only [edit] at edited
      split at edited
      · obtain ⟨hashed, -, edited⟩ := except_bind_ok edited
        cases edited
        exact alive
      · cases edited
        exact alive
  | delete =>
      cases edited
      simp

theorem names_changeUser {user apiKeyId : Uuid} {now : Timestamp} {change : Change}
    (done : changeUser env accounts user apiKeyId now change = .ok accounts') :
    NamesKept accounts accounts' := by
  obtain ⟨loaded, -, done⟩ := except_bind_ok done
  obtain ⟨-, -, done⟩ := except_bind_ok done
  obtain ⟨e, edited, done⟩ := except_bind_ok done
  split at done
  · rename_i result flushed
    cases done
    obtain ⟨apiKeys, inserted, rfl⟩ := Option.map_eq_some_iff.mp flushed
    constructor
    · exact extends_insertAll inserted (usable_edit edited)
    · apply extends_map
      intro row
      split <;> rfl
  · cases done

theorem names_enrollPlayer {db : Database} {id gmKey : Uuid} {payload : PlayerCreate}
    {campaign : Option Uuid} {key : ApiKey}
    (done : enrollPlayer accounts db id payload gmKey campaign = .ok (key, accounts')) :
    NamesKept accounts accounts' ∧ key ∈ accounts'.apiKeys.rows ∧ key.usable = true := by
  unfold enrollPlayer at done
  split at done
  · cases done
  · dsimp only at done
    split at done
    · rename_i apiKeys inserted
      cases done
      refine ⟨⟨extends_insertAll inserted ?_, extends_refl _⟩, mem_insertAll inserted ?_, rfl⟩
      · simp [ApiKey.usable]
      · exact List.mem_singleton_self _
    · cases done

theorem names_revokePlayer {db : Database} {player gmKey : Uuid}
    (done : revokePlayer accounts db player gmKey = some accounts') :
    NamesKept accounts accounts' := by
  obtain ⟨_, -, rfl⟩ := Option.map_eq_some_iff.mp done
  refine ⟨extends_map fun row => ?_, extends_refl _⟩
  split <;> rfl

theorem names_run {registration : Registration} {given : List ApiKey}
    (done : registration.run env accounts = some (accounts', given)) :
    NamesKept accounts accounts' ∧
      ∀ key ∈ given, key ∈ accounts'.apiKeys.rows ∧ key.usable = true := by
  cases registration with
  | bootstrap entries =>
      obtain ⟨⟨added, written⟩, ran, same⟩ := Option.map_eq_some_iff.mp done
      cases same
      exact names_bootstrap (except_toOption_some ran)
  | createUser drawn username systemRole profile password =>
      obtain ⟨⟨new, written⟩, ran, same⟩ := Option.map_eq_some_iff.mp done
      cases same
      exact ⟨names_createUser (except_toOption_some ran), by simp⟩
  | changeUser user apiKeyId now change =>
      obtain ⟨written, ran, same⟩ := Option.map_eq_some_iff.mp done
      cases same
      exact ⟨names_changeUser (except_toOption_some ran), by simp⟩
  | enrollPlayer db id payload gmKey campaign =>
      obtain ⟨⟨key, written⟩, ran, same⟩ := Option.map_eq_some_iff.mp done
      cases same
      obtain ⟨kept, present⟩ := names_enrollPlayer (except_toOption_some ran)
      exact ⟨kept, by simpa using present⟩
  | revokePlayer db player gmKey =>
      obtain ⟨written, ran, same⟩ := Option.map_eq_some_iff.mp done
      cases same
      exact ⟨names_revokePlayer ran, by simp⟩

/-- The identity has been given the name, whether or not it may still send requests. -/
def Named (r : Registry) : Identity → Text → Prop
  | .apiKey id, name =>
      id ∈ r.handedOut ∧ ∃ key ∈ r.accounts.apiKeys.rows, keyLabel key = (id, name)
  | .webUser id, name => ∃ user ∈ r.accounts.users.rows, userLabel user = (id, name)

theorem authenticated_apiKey {id : Uuid} {name : Text} :
    r.authenticatedName (.apiKey id) = some name ↔ id ∈ r.handedOut ∧
      ∃ key ∈ r.accounts.apiKeys.rows, keyLabel key = (id, name) ∧ key.usable = true := by
  simp only [Registry.authenticatedName, Option.map_eq_some_iff, Option.filter_eq_some_iff,
    Table.get?_eq_some, Bool.and_eq_true, decide_eq_true_eq, keyLabel, Prod.mk.injEq]
  constructor
  · rintro ⟨key, ⟨⟨member, place⟩, handed, usable⟩, called⟩
    exact ⟨handed, key, member, ⟨place, called⟩, usable⟩
  · rintro ⟨handed, key, member, ⟨place, called⟩, usable⟩
    exact ⟨key, ⟨⟨member, place⟩, handed, usable⟩, called⟩

theorem authenticated_webUser {id : Uuid} {name : Text} :
    r.authenticatedName (.webUser id) = some name ↔
      ∃ user ∈ r.accounts.users.rows, userLabel user = (id, name) ∧ userLive user = true := by
  simp only [Registry.authenticatedName, Option.map_eq_some_iff, Option.filter_eq_some_iff,
    Table.get?_eq_some, decide_eq_true_eq, userLabel, userLive, Prod.mk.injEq]
  constructor
  · rintro ⟨user, ⟨⟨member, place⟩, active⟩, called⟩
    exact ⟨user, member, ⟨place, called⟩, active⟩
  · rintro ⟨user, member, ⟨place, called⟩, active⟩
    exact ⟨user, ⟨⟨member, place⟩, active⟩, called⟩

theorem named_of_authenticated {identity : Identity} {name : Text}
    (known : r.authenticatedName identity = some name) : Named r identity name := by
  cases identity with
  | apiKey id =>
      obtain ⟨handed, key, member, label, -⟩ := authenticated_apiKey.mp known
      exact ⟨handed, key, member, label⟩
  | webUser id =>
      obtain ⟨user, member, label, -⟩ := authenticated_webUser.mp known
      exact ⟨user, member, label⟩

theorem named_step (registration : Registration) (identity : Identity) (name : Text) :
    (Named r identity name → Named (r.step env registration) identity name) ∧
      (Named (r.step env registration) identity name → Named r identity name ∨
        (r.step env registration).authenticatedName identity = some name) := by
  unfold Registry.step
  split
  · rename_i accounts given done
    obtain ⟨kept, present⟩ := names_run done
    cases identity with
    | apiKey id =>
        constructor
        · rintro ⟨handed, key, member, label⟩
          obtain ⟨key', member', same⟩ := kept.keys.kept key member
          exact ⟨List.mem_append_left _ handed, key', member', same.trans label⟩
        · rintro ⟨handed, key, member, label⟩
          rcases List.mem_append.mp handed with before | now
          · rcases kept.keys.new key member with ⟨old, held, same⟩ | usable
            · exact .inl ⟨before, old, held, same.trans label⟩
            · exact .inr (authenticated_apiKey.mpr ⟨handed, key, member, label, usable⟩)
          · obtain ⟨new, added, place⟩ := List.mem_map.mp now
            obtain ⟨stored, usable⟩ := present new added
            have same : new = key := by
              have found := Table.get?_self stored
              have place' : new.id = key.id := place.trans (congrArg Prod.fst label).symm
              rw [place', Table.get?_self member] at found
              exact (Option.some.inj found).symm
            subst same
            exact .inr (authenticated_apiKey.mpr ⟨handed, new, stored, label, usable⟩)
    | webUser id =>
        constructor
        · rintro ⟨user, member, label⟩
          obtain ⟨user', member', same⟩ := kept.users.kept user member
          exact ⟨user', member', same.trans label⟩
        · rintro ⟨user, member, label⟩
          rcases kept.users.new user member with ⟨old, held, same⟩ | live
          · exact .inl ⟨old, held, same.trans label⟩
          · exact .inr (authenticated_webUser.mpr ⟨user, member, label, live⟩)
  · exact ⟨id, .inl⟩

theorem namesApart_iff : r.NamesApart ↔
    ∀ key user name, Named r (.apiKey key) name → ¬Named r (.webUser user) name := by
  constructor
  · rintro apart key user name ⟨handed, row, member, label⟩ ⟨owner, present, called⟩
    refine apart row member ?_ owner present ?_
    · rw [show row.id = key from congrArg Prod.fst label]
      exact handed
    · exact (congrArg Prod.snd label).trans (congrArg Prod.snd called).symm
  · intro apart row member handed owner present same
    exact apart row.id owner.id row.name ⟨handed, row, member, rfl⟩
      ⟨owner, present, by rw [userLabel, same]⟩

/-- The two unique columns and the condition make the map to buckets injective. -/
theorem named_unique (apart : r.NamesApart) {identity other : Identity} {name : Text}
    (first : Named r identity name) (second : Named r other name) : identity = other := by
  cases identity with
  | apiKey id =>
      cases other with
      | apiKey id' =>
          obtain ⟨-, key, member, label⟩ := first
          obtain ⟨-, key', member', label'⟩ := second
          have same : key = key' := List.inj_on_of_nodup_map r.accounts.apiKeys.uniqueIndex member
            member' ((congrArg Prod.snd label).trans (congrArg Prod.snd label').symm)
          subst same
          exact congrArg Identity.apiKey (congrArg Prod.fst (label.symm.trans label'))
      | webUser id' => exact (namesApart_iff.mp apart id id' name first second).elim
  | webUser id =>
      cases other with
      | apiKey id' => exact (namesApart_iff.mp apart id' id name second first).elim
      | webUser id' =>
          obtain ⟨user, member, label⟩ := first
          obtain ⟨user', member', label'⟩ := second
          have same : user = user' := List.inj_on_of_nodup_map r.accounts.users.uniqueIndex member
            member' ((congrArg Prod.snd label).trans (congrArg Prod.snd label').symm)
          subst same
          exact congrArg Identity.webUser (congrArg Prod.fst (label.symm.trans label'))

theorem namesApart_run (history : List Registration)
    (apart : (final (Registry.step env) r history).NamesApart) : r.NamesApart := by
  have kept : ∀ identity name, Named r identity name →
      Named (final (Registry.step env) r history) identity name := by
    intro identity name named
    have visits : Visits (Registry.step env) (Named · identity name) r history :=
      Visits.of_step (fun _ registration named => (named_step registration identity name).1 named)
        named
    exact visits.final
  rw [namesApart_iff] at apart ⊢
  exact fun key user name first second => apart key user name (kept _ _ first) (kept _ _ second)

theorem authenticated_once {history : List Registration} {identity : Identity} {name : Text}
    (named : Named (final (Registry.step env) .empty history) identity name) :
    ∃ before, before <+: history ∧
      (final (Registry.step env) .empty before).authenticatedName identity = some name := by
  induction history using List.reverseRecOn with
  | nil =>
      cases identity with
      | apiKey id =>
          obtain ⟨-, key, member, -⟩ := named
          cases member
      | webUser id =>
          obtain ⟨user, member, -⟩ := named
          cases member
  | append_singleton earlier registration ih =>
      have last : final (Registry.step env) .empty (earlier ++ [registration]) =
          (final (Registry.step env) .empty earlier).step env registration := by
        simp [final]
      rw [last] at named
      rcases (named_step registration identity name).2 named with old | born
      · obtain ⟨before, part, known⟩ := ih old
        exact ⟨before, part.trans (List.prefix_append _ _), known⟩
      · exact ⟨earlier ++ [registration], List.prefix_rfl, last ▸ born⟩

end Registry

/-! ## Names apart -/

section Service
variable {env : Hashing} {limits : Limits} {s t : Service}

/-- The states of two runs that an identity cannot tell apart: a bucket that no other identity has
is the same in both. -/
structure Alike (identity : Identity) (s t : Service) : Prop where
  registry : s.registry = t.registry
  pending : s.pending identity = t.pending identity
  redis : ∀ bucket, (∀ other, Named s.registry other bucket → other = identity) →
    s.redis bucket = t.redis bucket
  waiting : ∀ other, ∀ admitted ∈ s.pending other, Named s.registry other admitted.bucket

theorem count_eq (s : Service) (identity : Identity) (bucket : Text) (now : ℚ) :
    s.count limits identity bucket now = s.put identity bucket (s.counted limits bucket now).2
      (if (s.counted limits bucket now).1.isOk then s.pending identity ++ [⟨bucket, now⟩]
        else s.pending identity) := rfl

theorem named_waiting {r : Registry} {identity : Identity} {bucket : Text} {now : ℚ}
    {waiting : List Admission} (named : Named r identity bucket) (granted : Bool)
    (before : ∀ admitted ∈ waiting, Named r identity admitted.bucket) :
    ∀ admitted ∈ (if granted then waiting ++ [⟨bucket, now⟩] else waiting),
      Named r identity admitted.bucket := by
  intro admitted member
  cases granted with
  | true =>
      rcases List.mem_append.mp member with old | new
      · exact before admitted old
      · obtain rfl := List.mem_singleton.mp new
        exact named
  | false => exact before admitted member

theorem step_request {identity : Identity} {event : Event} (env : Hashing) (limits : Limits)
    (waiting : ∀ admitted ∈ s.pending identity, Named s.registry identity admitted.bucket)
    (sent : event.sender = some identity) :
    s.step env limits event = s ∨ ∃ bucket b pending, Named s.registry identity bucket ∧
      (∀ admitted ∈ pending, Named s.registry identity admitted.bucket) ∧
        s.step env limits event = s.put identity bucket b pending := by
  cases event with
  | registration registration => cases sent
  | count sender now =>
      cases sent
      cases known : s.registry.authenticatedName identity with
      | none => exact .inl (by simp only [Service.step, known])
      | some bucket =>
          have named := named_of_authenticated known
          exact .inr ⟨bucket, _, _, named, named_waiting named _ waiting, by
            simp only [Service.step, known]
            rfl⟩
  | add sender index clock =>
      cases sent
      cases found : (s.pending identity)[index]? with
      | none => exact .inl (by simp only [Service.step, found])
      | some admitted =>
          have named := waiting admitted (List.mem_of_getElem? found)
          exact .inr ⟨admitted.bucket, _, _, named,
            fun later member => waiting later (List.mem_of_mem_eraseIdx member), by
              simp only [Service.step, found]
              rfl⟩

section Put
variable {identity other : Identity} {bucket : Text} {b : Bucket} {pending : List Admission}

theorem waiting_put
    (waiting : ∀ third, ∀ admitted ∈ s.pending third, Named s.registry third admitted.bucket)
    (fresh : ∀ admitted ∈ pending, Named s.registry other admitted.bucket) :
    ∀ third, ∀ admitted ∈ (s.put other bucket b pending).pending third,
      Named s.registry third admitted.bucket := by
  intro third admitted member
  by_cases here : third = other
  · subst here
    simp only [Service.put, Function.update_self] at member
    exact fresh admitted member
  · simp only [Service.put, Function.update_of_ne here] at member
    exact waiting third admitted member

theorem Alike.put_aside (alike : Alike identity s t) (apart : other ≠ identity)
    (named : Named s.registry other bucket)
    (fresh : ∀ admitted ∈ pending, Named s.registry other admitted.bucket) :
    Alike identity (s.put other bucket b pending) t where
  registry := alike.registry
  pending := (Function.update_of_ne apart.symm _ _).trans alike.pending
  redis private_ alone := by
    have foreign : private_ ≠ bucket := by
      rintro rfl
      exact apart (alone other named)
    exact (Function.update_of_ne foreign _ _).trans (alike.redis private_ alone)
  waiting := waiting_put alike.waiting fresh

theorem Alike.put_together (alike : Alike identity s t)
    (fresh : ∀ admitted ∈ pending, Named s.registry identity admitted.bucket) :
    Alike identity (s.put identity bucket b pending) (t.put identity bucket b pending) where
  registry := alike.registry
  pending := by simp [Service.put]
  redis private_ alone := by
    by_cases here : private_ = bucket
    · subst here
      simp [Service.put]
    · simp only [Service.put, Function.update_of_ne here]
      exact alike.redis private_ alone
  waiting := waiting_put alike.waiting fresh

theorem Alike.registration (alike : Alike identity s t) (registration : Registration) :
    Alike identity (s.step env limits (.registration registration))
      (t.step env limits (.registration registration)) where
  registry := congrArg (Registry.step env · registration) alike.registry
  pending := alike.pending
  redis private_ alone := alike.redis private_ fun other named =>
    alone other ((named_step registration other private_).1 named)
  waiting other admitted member :=
    (named_step registration other admitted.bucket).1 (alike.waiting other admitted member)

end Put

theorem Alike.own_bucket {identity : Identity} {bucket : Text} (alike : Alike identity s t)
    (apart : s.registry.NamesApart) (named : Named s.registry identity bucket) :
    s.redis bucket = t.redis bucket :=
  alike.redis bucket fun _ other => named_unique apart other named

theorem Alike.request {identity : Identity} {event : Event} (env : Hashing)
    (alike : Alike identity s t)
    (apart : s.registry.NamesApart) (sent : event.sender = some identity) :
    s.decision limits event = t.decision limits event ∧
      Alike identity (s.step env limits event) (t.step env limits event) := by
  cases event with
  | registration registration => cases sent
  | count sender now =>
      cases sent
      cases known : s.registry.authenticatedName identity with
      | none =>
          have known' : t.registry.authenticatedName identity = none := alike.registry ▸ known
          simp only [Service.decision, Service.step, known, known']
          exact ⟨rfl, alike⟩
      | some bucket =>
          have known' : t.registry.authenticatedName identity = some bucket := alike.registry ▸ known
          have named := named_of_authenticated known
          have same : s.counted limits bucket now = t.counted limits bucket now := by
            rw [Service.counted, Service.counted, alike.own_bucket apart named]
          simp only [Service.decision, Service.step, known, known', Option.map_some, Service.count,
            same, alike.pending]
          refine ⟨trivial, alike.put_together (named_waiting named _ ?_)⟩
          exact alike.pending ▸ alike.waiting identity
  | add sender index clock =>
      cases sent
      refine ⟨rfl, ?_⟩
      cases found : (s.pending identity)[index]? with
      | none =>
          have found' : (t.pending identity)[index]? = none := alike.pending ▸ found
          simpa only [Service.step, found, found'] using alike
      | some admitted =>
          have found' : (t.pending identity)[index]? = some admitted := alike.pending ▸ found
          have named := alike.waiting identity admitted (List.mem_of_getElem? found)
          simp only [Service.step, found', Service.add, alike.own_bucket apart named,
            alike.pending]
          refine alike.put_together fun later member => alike.waiting identity later ?_
          exact alike.pending ▸ List.mem_of_mem_eraseIdx member

theorem concerns_cases {identity : Identity} {event : Event}
    (own : event.concerns identity = true) :
    (∃ registration, event = .registration registration) ∨ event.sender = some identity := by
  cases event with
  | registration registration => exact .inl ⟨registration, rfl⟩
  | count sender now => exact .inr (by simpa [Event.concerns, Event.sender] using own)
  | add sender index clock => exact .inr (by simpa [Event.concerns, Event.sender] using own)

theorem sender_of_foreign {identity : Identity} {event : Event}
    (foreign : event.concerns identity = false) :
    ∃ sender, event.sender = some sender ∧ sender ≠ identity := by
  cases sent : event.sender with
  | none => simp [Event.concerns, sent] at foreign
  | some sender => exact ⟨sender, rfl, by simpa [Event.concerns, sent] using foreign⟩

theorem unwinding_apart (identity : Identity) :
    Unwinding (Service.step env limits) (Service.decision limits) (Event.concerns identity)
      (fun s _ => s.registry.NamesApart) (Alike identity) where
  output s t event alike apart own := by
    rcases concerns_cases own with ⟨registration, rfl⟩ | sent
    · rfl
    · exact (alike.request env apart sent).1
  together s t event alike apart own := by
    rcases concerns_cases own with ⟨registration, rfl⟩ | sent
    · exact alike.registration registration
    · exact (alike.request env apart sent).2
  aside s t event alike apart foreign := by
    obtain ⟨sender, sent, different⟩ := sender_of_foreign foreign
    rcases step_request env limits (alike.waiting sender) sent with
      nothing | ⟨bucket, b, pending, named, fresh, moved⟩
    · rw [nothing]
      exact alike
    · rw [moved]
      exact alike.put_aside different named fresh

/-! ## Limits that count nothing -/

/-- Nothing is counted: no request is ever let through, or what it adds is deleted at once. -/
structure Uncounted (limits : Limits) (s : Service) : Prop where
  redis : ∀ bucket, (s.redis bucket).entries = []
  pending : limits.limit ≤ 0 → ∀ identity, s.pending identity = []

theorem entries_present {b : Bucket} (empty : b.entries = []) (clock : ℚ) :
    (present b clock).entries = [] := by
  unfold present
  split
  · rfl
  · exact empty

theorem counted_nothing (uncounted : Uncounted limits s) (bucket : Text) (now : ℚ) :
    (s.counted limits bucket now).2.entries = [] ∧ (s.counted limits bucket now).1 =
      if limits.limit ≤ 0 then .error limits.windowSeconds else .ok () := by
  have empty := entries_present (uncounted.redis bucket) now
  have pruned : ((present (s.redis bucket) now).zremrangebyscore 0
      (now - limits.windowSeconds)).entries = [] := by simp [Bucket.zremrangebyscore, empty]
  refine ⟨by rw [Service.counted, count_bucket, pruned], ?_⟩
  simp only [Service.counted, RateLimit.count, Bucket.zcard, pruned, List.length_nil,
    Nat.cast_zero]
  split
  · simp [retryAfter, Bucket.lowest, pruned]
  · rfl

theorem Uncounted.put {identity : Identity} {bucket : Text} {b : Bucket} {pending : List Admission}
    (uncounted : Uncounted limits s) (empty : b.entries = []) (none : limits.limit ≤ 0 → pending = []) :
    Uncounted limits (s.put identity bucket b pending) where
  redis other := by
    by_cases here : other = bucket
    · subst here
      simpa [Service.put] using empty
    · simpa only [Service.put, Function.update_of_ne here] using uncounted.redis other
  pending never other := by
    by_cases here : other = identity
    · subst here
      simpa [Service.put] using none never
    · simpa only [Service.put, Function.update_of_ne here] using uncounted.pending never other

theorem Uncounted.step (uncounted : Uncounted limits s) (vain : limits.limit ≤ 0 ∨ limits.windowSeconds ≤ 0)
    (event : Event) : Uncounted limits (s.step env limits event) := by
  cases event with
  | registration registration => exact ⟨uncounted.redis, uncounted.pending⟩
  | count identity now =>
      simp only [Service.step]
      split
      · rename_i bucket known
        obtain ⟨empty, answer⟩ := counted_nothing uncounted bucket now
        rw [count_eq]
        refine uncounted.put empty fun never => ?_
        rw [answer, if_pos never]
        exact uncounted.pending never identity
      · exact uncounted
  | add identity index clock =>
      simp only [Service.step]
      split
      · rename_i admitted found
        have admits : ¬limits.limit ≤ 0 := by
          intro never
          simp [uncounted.pending never identity] at found
        have brief : (limits.windowSeconds : ℚ) ≤ 0 := by
          exact_mod_cast vain.resolve_left admits
        refine uncounted.put ?_ fun never => (admits never).elim
        have gone : clock + (limits.windowSeconds : ℚ) ≤ clock := by linarith
        simp [present, RateLimit.add, Bucket.expire, gone, Bucket.absent]
      · exact uncounted

theorem decision_uncounted (uncounted : Uncounted limits s) (uncounted' : Uncounted limits t)
    (same : s.registry = t.registry) (event : Event) :
    s.decision limits event = t.decision limits event := by
  cases event with
  | registration registration => rfl
  | count identity now =>
      simp only [Service.decision, (counted_nothing uncounted _ now).2, (counted_nothing uncounted' _ now).2, same]
  | add identity index clock => rfl

theorem registry_request {identity : Identity} {event : Event}
    (sent : event.sender = some identity) : (s.step env limits event).registry = s.registry := by
  cases event with
  | registration registration => cases sent
  | count sender now =>
      simp only [Service.step]
      split <;> rfl
  | add sender index clock =>
      simp only [Service.step]
      split <;> rfl

theorem registry_step (same : s.registry = t.registry) (event : Event) :
    (s.step env limits event).registry = (t.step env limits event).registry := by
  cases sent : event.sender with
  | some identity => rw [registry_request sent, registry_request sent, same]
  | none =>
      cases event with
      | registration registration => exact congrArg (Registry.step env · registration) same
      | count identity now => cases sent
      | add identity index clock => cases sent

theorem unwinding_uncounted (vain : limits.limit ≤ 0 ∨ limits.windowSeconds ≤ 0) (identity : Identity) :
    Unwinding (Service.step env limits) (Service.decision limits) (Event.concerns identity)
      (fun _ _ => True)
      (fun s t => s.registry = t.registry ∧ Uncounted limits s ∧ Uncounted limits t) where
  output s t event alike _ _ := decision_uncounted alike.2.1 alike.2.2 alike.1 event
  together s t event alike _ _ :=
    ⟨registry_step alike.1 event, alike.2.1.step vain event, alike.2.2.step vain event⟩
  aside s t event alike _ foreign := by
    obtain ⟨sender, sent, -⟩ := sender_of_foreign foreign
    exact ⟨(registry_request sent).trans alike.1, alike.2.1.step vain event, alike.2.2⟩

/-! ## Independence -/

theorem registry_run (s : Service) (run : List Event) :
    (final (Service.step env limits) s run).registry =
      final (Registry.step env) s.registry (registrations run) := by
  induction run generalizing s with
  | nil => rfl
  | cons event rest ih =>
      refine (ih _).trans ?_
      cases event with
      | registration registration => rfl
      | count identity now => rw [registry_request rfl]; rfl
      | add identity index clock => rw [registry_request rfl]; rfl

theorem registrations_filter (identity : Identity) (run : List Event) :
    registrations (run.filter (Event.concerns identity)) = registrations run := by
  unfold registrations
  rw [List.filterMap_filter]
  apply List.filterMap_congr
  intro event _
  cases event with
  | registration registration => rfl
  | count sender now => split <;> rfl
  | add sender index clock => split <;> rfl

theorem namesApart_along {run : List Event} (s : Service)
    (apart : (final (Service.step env limits) s run).registry.NamesApart) :
    Along (Service.step env limits) (fun s _ => s.registry.NamesApart) s run := by
  induction run generalizing s with
  | nil => trivial
  | cons event rest ih =>
      refine ⟨?_, ih _ apart⟩
      rw [registry_run] at apart
      exact namesApart_run _ apart

theorem independent_of_apart {history : List Registration}
    (apart : (final (Registry.step env) .empty history).NamesApart) :
    Independent env limits history := by
  intro identity run run' registered agree
  have registered' : registrations run' = history := by
    rw [← registrations_filter identity, ← agree, registrations_filter, registered]
  have alike : Alike identity .initial .initial :=
    ⟨rfl, rfl, fun _ _ => rfl, fun _ _ member => (List.not_mem_nil member).elim⟩
  refine (unwinding_apart identity).observed_eq alike (namesApart_along _ ?_) (namesApart_along _ ?_)
    agree
  · rw [registry_run, registered]
    exact apart
  · rw [registry_run, registered']
    exact apart

theorem independent_of_vain {history : List Registration}
    (vain : limits.limit ≤ 0 ∨ limits.windowSeconds ≤ 0) : Independent env limits history := by
  intro identity run run' _ agree
  have uncounted : Uncounted limits .initial := ⟨fun _ => rfl, fun _ _ => rfl⟩
  exact (unwinding_uncounted vain identity).observed_eq ⟨rfl, uncounted, uncounted⟩
    (.of_forall (fun _ _ => trivial) _ _) (.of_forall (fun _ _ => trivial) _ _) agree

/-! ## A shared name -/

def requests (identity : Identity) (number : Nat) : List Event :=
  (List.replicate number [.count identity 0, .add identity 0 0]).flatten

structure Filled (limits : Limits) (s : Service) (identity : Identity) (bucket : Text)
    (number : Nat) : Prop where
  pending : s.pending identity = []
  length : (s.redis bucket).entries.length = number
  scores : ∀ e ∈ (s.redis bucket).entries, e.score = 0
  lasting : ∀ deadline, (s.redis bucket).deadline = some deadline → 0 < deadline

section Filled
variable {identity : Identity} {bucket : Text} {number : Nat}

theorem present_of_later {b : Bucket} {clock : ℚ}
    (later : ∀ deadline, b.deadline = some deadline → clock < deadline) : present b clock = b := by
  unfold present
  cases at_ : b.deadline with
  | none => rfl
  | some deadline => simp [later deadline at_]

theorem Filled.counted (filled : Filled limits s identity bucket number)
    (window : 0 < limits.windowSeconds) :
    s.counted limits bucket 0 = if limits.limit ≤ number then
      (.error (retryAfter limits (s.redis bucket) 0), s.redis bucket) else (.ok (), s.redis bucket) := by
  have kept : (s.redis bucket).zremrangebyscore 0 (0 - limits.windowSeconds) = s.redis bucket := by
    unfold Bucket.zremrangebyscore
    congr 1
    refine List.filter_eq_self.mpr fun e member => ?_
    simp [filled.scores e member, window]
  rw [Service.counted, present_of_later filled.lasting]
  simp only [RateLimit.count, kept, Bucket.zcard, filled.length]

theorem Filled.request (env : Hashing) (filled : Filled limits s identity bucket number)
    (window : 0 < limits.windowSeconds) (room : (number : Int) < limits.limit)
    (known : s.registry.authenticatedName identity = some bucket) :
    final (Service.step env limits) s [.count identity 0, .add identity 0 0] =
      s.put identity bucket (RateLimit.add limits (s.redis bucket) 0 0) [] := by
  have first : s.step env limits (.count identity 0) =
      s.put identity bucket (s.redis bucket) [⟨bucket, 0⟩] := by
    simp only [Service.step, known, count_eq, filled.counted window, if_neg (not_le.mpr room),
      filled.pending]
    rfl
  have later : (0 : ℚ) < 0 + limits.windowSeconds := by
    rw [zero_add]
    exact_mod_cast window
  have added : present (RateLimit.add limits (s.redis bucket) 0 0) 0 =
      RateLimit.add limits (s.redis bucket) 0 0 := by
    refine present_of_later fun deadline at_ => ?_
    cases at_
    exact later
  show ((s.step env limits (.count identity 0)).step env limits (.add identity 0 0)) = _
  rw [first]
  simp [Service.step, Service.add, Service.put, present_of_later filled.lasting, added]

theorem Filled.requests (env : Hashing) (window : 0 < limits.windowSeconds) (more : Nat)
    (filled : Filled limits s identity bucket number)
    (room : ((number + more : Nat) : Int) ≤ limits.limit)
    (known : s.registry.authenticatedName identity = some bucket) :
    Filled limits (final (Service.step env limits) s (requests identity more)) identity bucket
        (number + more) ∧
      (final (Service.step env limits) s (requests identity more)).registry = s.registry := by
  induction more generalizing s number with
  | zero => exact ⟨filled, rfl⟩
  | succ more ih =>
      have next := filled.request env window (by omega) known
      have split : final (Service.step env limits) s (Proof.requests identity (more + 1)) =
          final (Service.step env limits) (s.put identity bucket
            (RateLimit.add limits (s.redis bucket) 0 0) []) (Proof.requests identity more) := by
        rw [← next]
        rfl
      have filled' : Filled limits (s.put identity bucket
          (RateLimit.add limits (s.redis bucket) 0 0) []) identity bucket (number + 1) := by
        refine ⟨by simp [Service.put], ?_, ?_, ?_⟩
        · simp [Service.put, entries_add, filled.length]
        · intro e member
          simp only [Service.put, Function.update_self, entries_add, List.mem_append,
            List.mem_singleton] at member
          rcases member with old | rfl
          · exact filled.scores e old
          · rfl
        · intro deadline at_
          simp only [Service.put, Function.update_self, RateLimit.add, Bucket.expire,
            Option.some.injEq] at at_
          rw [← at_, zero_add]
          exact_mod_cast window
      rw [split]
      obtain ⟨full, same⟩ := ih filled' (by omega) known
      exact ⟨by rw [show number + (more + 1) = number + 1 + more by omega]; exact full, same⟩

end Filled

theorem final_registrations (s : Service) (history : List Registration) :
    final (Service.step env limits) s (history.map .registration) =
      { s with registry := final (Registry.step env) s.registry history } := by
  induction history generalizing s with
  | nil => rfl
  | cons registration rest ih => exact ih _

theorem observed_registrations (identity : Identity) (s : Service) (history : List Registration) :
    observed (Service.step env limits) (Service.decision limits) (Event.concerns identity) s
      (history.map .registration) = [] := by
  induction history generalizing s with
  | nil => rfl
  | cons registration rest ih => exact ih _

theorem requests_foreign {identity other : Identity} (apart : other ≠ identity) (number : Nat) :
    ∀ event ∈ requests other number, event.concerns identity = false := by
  intro event member
  obtain ⟨pair, repeated, inside⟩ := List.mem_flatten.mp member
  rw [List.eq_of_mem_replicate repeated] at inside
  rcases List.mem_pair.mp inside with rfl | rfl <;>
    simpa [Event.concerns, Event.sender] using apart

/-- `other` uses up the quota, then `identity` sends its only request. -/
def contention (before between after : List Registration) (identity other : Identity)
    (number : Nat) : List Event :=
  before.map .registration ++ requests other number ++ between.map .registration ++
    .count identity 0 :: after.map .registration

theorem decisions_contention {before between : List Registration} (after : List Registration)
    {identity other : Identity} {bucket : Text} (number : Nat) (window : 0 < limits.windowSeconds)
    (room : (number : Int) ≤ limits.limit) (apart : other ≠ identity)
    (first : (final (Registry.step env) .empty before).authenticatedName other = some bucket)
    (second : (final (Registry.step env) .empty (before ++ between)).authenticatedName identity =
      some bucket) :
    (decisions env limits identity (contention before between after identity other number)).map
      Except.isOk = [decide ((number : Int) < limits.limit)] := by
  let s := { Service.initial with registry := final (Registry.step env) .empty before }
  have start : final (Service.step env limits) .initial (before.map .registration) = s :=
    final_registrations _ before
  have empty : Filled limits s other bucket 0 :=
    ⟨rfl, rfl, fun _ member => (List.not_mem_nil member).elim, by simp [s, Service.initial,
      Bucket.absent]⟩
  obtain ⟨full, kept⟩ := empty.requests env window number (by omega) first
  rw [Nat.zero_add] at full
  let t := { final (Service.step env limits) s (requests other number) with
    registry := final (Registry.step env) .empty (before ++ between) }
  have reached : final (Service.step env limits) .initial
      (before.map .registration ++ requests other number ++ between.map .registration) = t := by
    rw [final_append, final_append, start, final_registrations, kept]
    simp only [t, s, final_append]
  have filled : Filled limits t other bucket number :=
    ⟨full.pending, full.length, full.scores, full.lasting⟩
  have quiet : observed (Service.step env limits) (Service.decision limits)
      (Event.concerns identity) .initial
      (before.map .registration ++ requests other number ++ between.map .registration) = [] := by
    rw [observed_append, observed_append, observed_registrations, observed_registrations,
      observed_foreign (requests_foreign apart number)]
    rfl
  have own : (Event.count identity 0).concerns identity = true := by
    simp [Event.concerns, Event.sender]
  have known : t.registry.authenticatedName identity = some bucket := second
  rw [decisions, contention, observed_append, quiet, reached, observed, observed_registrations, own,
    Service.decision, known, Option.map_some, filled.counted window]
  by_cases more : (number : Int) < limits.limit
  · simp [more, not_le.mpr more, Except.isOk, Except.toBool]
  · simp [more, not_lt.mp more, Except.isOk, Except.toBool]

theorem not_independent (before between after : List Registration)
    {identity other : Identity} {bucket : Text} (window : 0 < limits.windowSeconds)
    (admits : 0 < limits.limit) (apart : other ≠ identity)
    (first : (final (Registry.step env) .empty before).authenticatedName other = some bucket)
    (second : (final (Registry.step env) .empty (before ++ between)).authenticatedName identity =
      some bucket) :
    ¬Independent env limits (before ++ between ++ after) := by
  intro independent
  have full := decisions_contention after limits.limit.toNat window (by omega) apart first
    second
  have alone := decisions_contention after 0 window (by omega) apart first second
  have same := independent identity (contention before between after identity other 0)
    (contention before between after identity other limits.limit.toNat) ?_ ?_
  · rw [← same, alone] at full
    simp at full
    omega
  · simp [contention, registrations, requests, List.filterMap_append, List.filterMap_map]
  · have gone : (requests other limits.limit.toNat).filter (Event.concerns identity) = [] := by
      rw [List.filter_eq_nil_iff]
      intro event member
      simp [requests_foreign apart _ event member]
    simp only [contention, List.filter_append, gone]
    rfl

end Service

/-- The quotas of identities are independent exactly when no user has the name of an API key that
somebody holds, unless the settings let nothing be counted. -/
theorem quotas_independent_iff (env : Hashing) (limits : Limits) (history : List Registration) :
    Independent env limits history ↔
      (final (Registry.step env) .empty history).NamesApart ∨ limits.limit ≤ 0 ∨
        limits.windowSeconds ≤ 0 := by
  constructor
  · intro independent
    by_contra shared
    simp only [not_or, not_le] at shared
    obtain ⟨clash, admits, window⟩ := shared
    rw [namesApart_iff] at clash
    push Not at clash
    obtain ⟨key, user, name, held, called⟩ := clash
    obtain ⟨before, part, known⟩ := authenticated_once held
    obtain ⟨before', part', known'⟩ := authenticated_once called
    rcases List.prefix_or_prefix_of_prefix part part' with ⟨between, rfl⟩ | ⟨between, rfl⟩
    · obtain ⟨after, rfl⟩ := part'
      exact not_independent _ between after window admits (by simp) known known' independent
    · obtain ⟨after, rfl⟩ := part
      exact not_independent _ between after window admits (by simp) known' known independent
  · rintro (apart | vain)
    · exact independent_of_apart apart
    · exact independent_of_vain vain

/-- The master gives a player key the name under which Alice signs in. -/
def playerCalledAlice : List Registration :=
  [.bootstrap [⟨7, "mj".toList⟩],
    .createUser ⟨1, 2, 0⟩ "alice".toList (some .user) none "secret".toList,
    .enrollPlayer { Database.empty with pjs := ⟨⟨[⟨8, "Aria".toList, 7, 1⟩], by decide⟩, by decide⟩ }
      3 ⟨"alice".toList, 8, by decide⟩ 7 none]

theorem player_uses_up_quota : ¬Independent plainHashing ⟨60, 60⟩ playerCalledAlice := by
  have player : (final (Registry.step plainHashing) .empty playerCalledAlice).authenticatedName
      (.apiKey 3) = some "alice".toList := rfl
  have user : (final (Registry.step plainHashing) .empty
      (playerCalledAlice ++ [])).authenticatedName (.webUser 1) = some "alice".toList := rfl
  have shared : ¬Independent plainHashing ⟨60, 60⟩ (playerCalledAlice ++ [] ++ []) :=
    not_independent playerCalledAlice [] [] (by decide) (by decide) (by simp) player user
  simpa using shared

end Kaeyris.Proof
