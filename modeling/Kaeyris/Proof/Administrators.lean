import Kaeyris.UserRequests

/-!
# The last administrator

The guard of `update_user` and `delete_user` counts before the request commits. It protects the last
active administrator as long as the removals committed in between leave its count above one.
-/

namespace Kaeyris.Proof
open Lib Users Administration

section Flush
variable {db db' : Accounts} {e : Edit}

theorem flush_users (flushed : e.flush db = some db') :
    db'.users = db.users.update (fun row => row.id = e.loaded.id) e.row := by
  obtain ⟨apiKeys, -, rfl⟩ := Option.map_eq_some_iff.mp flushed
  rfl

theorem count_flush (flushed : e.flush db = some db') :
    countActiveAdmins db ≤ countActiveAdmins db' + (if removesAdmin db e then 1 else 0) := by
  unfold countActiveAdmins removesAdmin
  rw [flush_users flushed]
  cases found : db.users.get? e.loaded.id with
  | none =>
      have others : ∀ row ∈ db.users.rows, row.id ≠ e.loaded.id := Table.get?_eq_none.mp found
      have same : (db.users.rows.map fun row =>
          if decide (row.id = e.loaded.id) then e.row row else row) = db.users.rows.map id := by
        apply List.map_congr_left
        intro row member
        simp [others row member]
      show db.users.rows.countP _ ≤ (db.users.rows.map fun row =>
        if decide (row.id = e.loaded.id) then e.row row else row).countP _ + _
      rw [same, List.map_id]
      exact Nat.le_add_right _ _
  | some row =>
      have counted := Table.countP_update_key found e.row (fun _ => rfl) User.isActiveAdmin
      have rows : (db.users.update (fun row => row.id = e.loaded.id) e.row).rows =
          (db.users.toTable.update (fun row => row.id = e.loaded.id) e.row fun _ => rfl).rows := rfl
      rw [rows]
      cases before : row.isActiveAdmin <;> cases after : (e.row row).isActiveAdmin <;>
        simp_all

end Flush

/-- What a request has counted is what is there, but for the removals committed since. -/
def Recounts (s : Administration) : Prop :=
  ∀ p ∈ s.pending.rows, ∀ n before, p.counted = some (n, before) →
    before ≤ s.removals ∧ n ≤ countActiveAdmins s.db + (s.removals - before)

/-- A commit that takes an active administrator away has counted two more than the removals
committed since its count. -/
def CountStands (s : Administration) : Administration.Label → Prop
  | .commit request => ∀ p e, s.pending.get? request = some p → p.edit = some e →
      removesAdmin s.db e = true → ∃ n before, p.counted = some (n, before) ∧
        s.removals - before + 2 ≤ n
  | _ => True

def Administered (s : Administration) : Prop := 0 < countActiveAdmins s.db ∧ Recounts s

section Steps
variable {env : Hashing} {s : Administration}

theorem recounts_initial (db : Accounts) : Recounts (.initial db) := by
  intro p member
  cases member

theorem recounts_finish (recounts : Recounts s) (request : Nat) : Recounts (s.finish request) :=
  fun p member => recounts p (List.mem_of_mem_filter member)

theorem recounts_load (recounts : Recounts s) (request : Nat) (user : Uuid) (change : Change) :
    Recounts (s.load request user change) := by
  unfold Administration.load
  split
  · exact recounts
  · rename_i row _
    cases inserted : s.pending.insert? ⟨request, change, row, none, none⟩ with
    | none => exact recounts
    | some pending =>
        intro p member n before counted
        rw [(Table.insert?_eq_some.mp inserted).2, List.mem_append, List.mem_singleton] at member
        rcases member with old | rfl
        · exact recounts p old n before counted
        · cases counted

theorem recounts_check (recounts : Recounts s) (request : Nat) (apiKeyId : Uuid)
    (now : Timestamp) : Recounts (s.check env request apiKeyId now) := by
  unfold check
  split
  · exact recounts
  · rename_i p found
    split
    · exact recounts
    · split
      · intro q member n before counted
        have stored := Table.get?_self member
        rw [Table.get?_put] at stored
        split at stored
        · cases stored
          have values : count s p = some (n, before) := counted
          unfold count at values
          split at values
          · cases values
            exact ⟨Nat.le_refl _, Nat.le_add_right _ _⟩
          · cases values
        · exact recounts q (Table.mem_of_get? stored) n before counted
      · exact recounts_finish recounts request

theorem administered_commit (inv : Administered s) (request : Nat)
    (stands : CountStands s (.commit request)) : Administered (s.commit request) := by
  obtain ⟨someone, recounts⟩ := inv
  unfold Administration.commit
  split
  · exact ⟨someone, recounts⟩
  · rename_i p found
    split
    · exact ⟨someone, recounts⟩
    · rename_i e edited
      split
      · exact ⟨someone, recounts_finish recounts request⟩
      · rename_i db flushed
        have change := count_flush flushed
        cases removes : removesAdmin s.db e with
        | false =>
            simp only [removes, Bool.false_eq_true, if_false, Nat.add_zero] at change ⊢
            refine ⟨Nat.lt_of_lt_of_le someone change, fun q member n before counted => ?_⟩
            obtain ⟨order, bound⟩ := recounts q (List.mem_of_mem_filter member) n before counted
            exact ⟨order, bound.trans (Nat.add_le_add_right change _)⟩
        | true =>
            simp only [removes, if_true] at change ⊢
            -- The guard of this very request bounds what is left.
            obtain ⟨n, before, counted, enough⟩ := stands p e found edited removes
            have own := recounts p (Table.mem_of_get? found) n before counted
            refine ⟨?_, fun q member n before counted => ?_⟩
            · show 0 < countActiveAdmins db
              omega
            · have other := recounts q (List.mem_of_mem_filter member) n before counted
              show before ≤ s.removals + 1 ∧ n ≤ countActiveAdmins db + (s.removals + 1 - before)
              omega

theorem administered_step (inv : Administered s) (label : Administration.Label)
    (stands : CountStands s label) : Administered (s.step env label) := by
  cases label with
  | load request user change =>
      refine ⟨?_, recounts_load inv.2 request user change⟩
      have same : (s.load request user change).db = s.db := by
        unfold Administration.load
        split
        · rfl
        · split <;> rfl
      exact same ▸ inv.1
  | check request apiKeyId now =>
      refine ⟨?_, recounts_check inv.2 request apiKeyId now⟩
      have same : (s.check env request apiKeyId now).db = s.db := by
        unfold check
        split
        · rfl
        · split
          · rfl
          · split <;> rfl
      exact same ▸ inv.1
  | commit request => exact administered_commit inv request stands
  | abort request => exact ⟨inv.1, recounts_finish inv.2 request⟩

end Steps

theorem administrator_remains (env : Hashing) (db : Accounts) (first : 0 < countActiveAdmins db)
    (run : List Administration.Label)
    (stands : Along (Administration.step env) CountStands (.initial db) run) :
    Visits (Administration.step env) (fun s => 0 < countActiveAdmins s.db) (.initial db) run := by
  have start : Administered (.initial db) := ⟨first, recounts_initial db⟩
  have along : Visits (Administration.step env) Administered (.initial db) run :=
    Visits.of_invariant (fun _ label inv ok => administered_step inv label ok) start stands
  exact along.weaken fun _ inv => inv.1

/-! ## Two administrators -/

def plainHashing : Hashing := ⟨id, id⟩

def administrator (id : Uuid) (username : String) : Users.User :=
  ⟨id, username.toList, .admin, "hash".toList, .active, some id, 0, none⟩

def twoAdministrators : Accounts where
  users := ⟨⟨[administrator 1 "ada", administrator 2 "bea"], by decide⟩, by decide⟩
  webSessions := .empty
  apiKeys := ⟨⟨[internalApiKey 1 "ada".toList, internalApiKey 2 "bea".toList], by decide⟩, by decide⟩

theorem administrator_remains_demotion :
    Visits (Administration.step plainHashing) (fun s => 0 < countActiveAdmins s.db)
      (.initial twoAdministrators)
      [.load 0 1 .delete, .load 1 2 (.update ⟨some .user, none, none, none⟩), .check 0 7 5,
        .commit 0, .check 1 8 6, .commit 1] :=
  administrator_remains plainHashing twoAdministrators (by decide) _ (by
    refine ⟨trivial, trivial, trivial, ?_, trivial, ?_, trivial⟩
    · rintro p e found edited -
      cases found
      exact ⟨2, 0, rfl, by decide⟩
    · rintro p e found - -
      cases found)

/-- Each of two requests counts both administrators before the other commits. -/
theorem administrators_delete_each_other :
    ¬Visits (Administration.step plainHashing) (fun s => 0 < countActiveAdmins s.db)
      (.initial twoAdministrators)
      [.load 0 1 .delete, .load 1 2 .delete, .check 0 7 5, .check 1 8 5, .commit 0, .commit 1] := by
  decide

theorem changeUser_eq {env : Hashing} {s : Administration} {request : Nat} {user apiKeyId : Uuid}
    {now : Timestamp} {change : Change} (free : s.pending.get? request = none) :
    (((s.load request user change).check env request apiKeyId now).commit request).db =
      match changeUser env s.db user apiKeyId now change with
      | .ok db => db
      | .error _ => s.db := by
  cases loaded : getUser s.db user with
  | error e =>
      have idle : s.load request user change = s := by simp [Administration.load, loaded]
      simp [idle, check, Administration.commit, free, changeUser, loaded, bind, Except.bind]
  | ok row =>
      obtain ⟨pending, inserted, rows⟩ :=
        Table.insert?_of_free (r := (⟨request, change, row, none, none⟩ : Pending)) free
      have found := Table.get?_insert? inserted request
      rw [if_pos rfl] at found
      have taken : s.load request user change = { s with pending := pending } := by
        simp [Administration.load, loaded, inserted]
      have done : (pending.delete fun p => p.id = request).get? request = none := by
        rw [Table.get?_delete_key pending _ (fun key => key = request) (fun _ => rfl)]
        simp
      rw [taken]
      cases guarded : guardLastAdmin s.db row change with
      | error e =>
          simp [check, found, guarded, finish, Administration.commit, done, changeUser, loaded, bind,
            Except.bind]
      | ok =>
          cases edited : edit env s.db row apiKeyId now change with
          | error e =>
              simp [check, found, guarded, edited, finish, Administration.commit, done, changeUser,
                loaded, bind, Except.bind]
          | ok e =>
              have kept (p : Pending) (same : p.id = request) :
                  (pending.put p).get? request = some p := by
                rw [Table.get?_put, if_pos same]
              cases flushed : e.flush s.db with
              | none =>
                  simp [check, found, guarded, edited, Administration.commit, kept, flushed, finish,
                    changeUser, loaded, bind, Except.bind]
              | some db =>
                  simp [check, found, guarded, edited, Administration.commit, kept, flushed,
                    changeUser, loaded, bind, Except.bind]

end Kaeyris.Proof
