import Mathlib.Data.List.Nodup
import Mathlib.Data.List.Sort

/-!
# Tables with a primary key

A table is a list of rows no two of which share a key. The operations are those of a relational
store: look up by key, select, insert under the key constraint, update rows in place, delete.
-/

namespace Kaeyris.Lib

structure Table (κ ρ : Type) (key : ρ → κ) where
  rows : List ρ
  unique : (rows.map key).Nodup

namespace Table
variable {κ ρ : Type} {key : ρ → κ}

@[ext] theorem ext {t u : Table κ ρ key} (same : t.rows = u.rows) : t = u := by
  cases t
  cases u
  cases same
  rfl

instance [DecidableEq ρ] : DecidableEq (Table κ ρ key) := fun t u =>
  decidable_of_iff (t.rows = u.rows) ⟨ext, fun same => same ▸ rfl⟩

def empty : Table κ ρ key := ⟨[], List.nodup_nil⟩

def select (t : Table κ ρ key) (p : ρ → Bool) : List ρ := t.rows.filter p

/-- `UPDATE ... SET ... WHERE p`; the key columns are not assigned. -/
def update (t : Table κ ρ key) (p : ρ → Bool) (f : ρ → ρ)
    (keeps : ∀ r, key (f r) = key r := by intros; rfl) : Table κ ρ key where
  rows := t.rows.map fun r => if p r then f r else r
  unique := by
    have same : (t.rows.map fun r => if p r then f r else r).map key = t.rows.map key := by
      rw [List.map_map]
      apply List.map_congr_left
      intro r _
      by_cases hp : p r <;> simp [hp, keeps]
    exact same ▸ t.unique

def delete (t : Table κ ρ key) (p : ρ → Bool) : Table κ ρ key where
  rows := t.rows.filter fun r => !p r
  unique := t.unique.sublist (List.filter_sublist.map key)

section Keys
variable [DecidableEq κ]

def get? (t : Table κ ρ key) (k : κ) : Option ρ := t.rows.find? fun r => key r = k

/-- `INSERT`; `none` when the key constraint trips. -/
def insert? (t : Table κ ρ key) (r : ρ) : Option (Table κ ρ key) :=
  if taken : key r ∈ t.rows.map key then none
  else some
    { rows := t.rows ++ [r]
      unique := by
        rw [List.map_append, List.nodup_append']
        refine ⟨t.unique, by simp, ?_⟩
        simpa [List.disjoint_singleton] using taken }

theorem key_of_get? {t : Table κ ρ key} {k : κ} {r : ρ} (found : t.get? k = some r) :
    key r = k := by
  simpa using List.find?_some found

theorem mem_of_get? {t : Table κ ρ key} {k : κ} {r : ρ} (found : t.get? k = some r) :
    r ∈ t.rows := List.mem_of_find?_eq_some found

theorem get?_eq_some {t : Table κ ρ key} {k : κ} {r : ρ} :
    t.get? k = some r ↔ r ∈ t.rows ∧ key r = k := by
  constructor
  · exact fun found => ⟨mem_of_get? found, key_of_get? found⟩
  · rintro ⟨member, rfl⟩
    obtain ⟨rows, unique⟩ := t
    simp only [get?] at *
    induction rows with
    | nil => cases member
    | cons head tail ih =>
        rw [List.map_cons, List.nodup_cons] at unique
        rcases List.mem_cons.mp member with rfl | later
        · simp
        · have apart : key head ≠ key r := fun same =>
            unique.1 (same ▸ List.mem_map_of_mem later)
          simpa [apart] using ih unique.2 later

theorem get?_eq_none {t : Table κ ρ key} {k : κ} :
    t.get? k = none ↔ ∀ r ∈ t.rows, key r ≠ k := by
  simp [get?, List.find?_eq_none]

theorem get?_self {t : Table κ ρ key} {r : ρ} (member : r ∈ t.rows) : t.get? (key r) = some r :=
  get?_eq_some.mpr ⟨member, rfl⟩

theorem select_length_le_one {t : Table κ ρ key} {p : ρ → Bool} :
    (t.select p).length ≤ 1 ↔ ∀ k k' r r', t.get? k = some r → t.get? k' = some r' →
      p r = true → p r' = true → k = k' := by
  have distinct : ((t.select p).map key).Nodup := (List.filter_sublist.map key).nodup t.unique
  have listed {r : ρ} (member : r ∈ t.select p) : t.get? (key r) = some r ∧ p r = true :=
    ⟨get?_self (List.mem_filter.mp member).1, (List.mem_filter.mp member).2⟩
  have selected {k : κ} {r : ρ} (found : t.get? k = some r) (holds : p r = true) :
      r ∈ t.select p := List.mem_filter.mpr ⟨mem_of_get? found, holds⟩
  constructor
  · intro short k k' r r' found found' holds holds'
    have member := selected found holds
    have member' := selected found' holds'
    rcases rows : t.select p with _ | ⟨only, _ | ⟨other, rest⟩⟩
    · rw [rows] at member
      cases member
    · rw [rows] at member member'
      have same : r = r' :=
        (List.mem_singleton.mp member).trans (List.mem_singleton.mp member').symm
      rw [← key_of_get? found, same, key_of_get? found']
    · simp [rows] at short
  · intro unique
    rcases rows : t.select p with _ | ⟨r, _ | ⟨r', rest⟩⟩
    · exact Nat.zero_le 1
    · exact Nat.le_refl 1
    · rw [rows] at distinct listed
      obtain ⟨found, holds⟩ := @listed r List.mem_cons_self
      obtain ⟨found', holds'⟩ := @listed r' (List.mem_cons_of_mem r List.mem_cons_self)
      have same := unique _ _ r r' found found' holds holds'
      simp [same] at distinct

@[simp] theorem get?_empty (k : κ) : (empty : Table κ ρ key).get? k = none := rfl

theorem get?_update (t : Table κ ρ key) (p : ρ → Bool) (f : ρ → ρ)
    (keeps : ∀ r, key (f r) = key r) (k : κ) :
    (t.update p f keeps).get? k = (t.get? k).map fun r => if p r then f r else r := by
  cases found : t.get? k with
  | none =>
      rw [get?_eq_none] at found
      rw [Option.map_none, get?_eq_none]
      intro r member
      obtain ⟨old, present, rfl⟩ := List.mem_map.mp member
      by_cases hp : p old <;> simp [hp, keeps, found old present]
  | some r =>
      obtain ⟨member, rfl⟩ := get?_eq_some.mp found
      rw [Option.map_some, get?_eq_some]
      refine ⟨List.mem_map_of_mem member, ?_⟩
      by_cases hp : p r <;> simp [hp, keeps]

theorem get?_update_key (t : Table κ ρ key) (k : κ) (f : ρ → ρ) (keeps : ∀ r, key (f r) = key r)
    (other : κ) :
    (t.update (fun r => key r = k) f keeps).get? other =
      if other = k then (t.get? other).map f else t.get? other := by
  rw [get?_update]
  cases found : t.get? other with
  | none => simp
  | some r =>
      have place := key_of_get? found
      by_cases same : other = k
      · simp [place, same]
      · simp [place, same]

theorem get?_delete (t : Table κ ρ key) (p : ρ → Bool) (k : κ) :
    (t.delete p).get? k = (t.get? k).filter fun r => !p r := by
  cases found : t.get? k with
  | none =>
      rw [get?_eq_none] at found
      rw [Option.filter_none, get?_eq_none]
      exact fun r member => found r (List.mem_of_mem_filter member)
  | some r =>
      obtain ⟨member, rfl⟩ := get?_eq_some.mp found
      by_cases hp : p r
      · rw [Option.filter_some_neg (by simp [hp]), get?_eq_none]
        intro other kept same
        obtain ⟨present, alive⟩ := List.mem_filter.mp kept
        have : some other = some r := (get?_eq_some.mpr ⟨present, same⟩).symm.trans found
        simp_all
      · rw [Option.filter_some_pos (by simp [hp]), get?_eq_some]
        exact ⟨List.mem_filter.mpr ⟨member, by simp [hp]⟩, rfl⟩

theorem get?_delete_key (t : Table κ ρ key) (p : ρ → Bool) (q : κ → Bool)
    (agree : ∀ r, p r = q (key r)) (k : κ) :
    (t.delete p).get? k = if q k then none else t.get? k := by
  rw [get?_delete]
  cases found : t.get? k with
  | none => simp
  | some r =>
      have same := key_of_get? found
      by_cases hq : q k <;> simp [Option.filter, agree, same, hq]

theorem countP_delete_key {t : Table κ ρ key} {k : κ} {r : ρ} (found : t.get? k = some r)
    (q : ρ → Bool) :
    (t.delete fun r => key r = k).rows.countP q + (if q r then 1 else 0) ≤ t.rows.countP q := by
  have split := List.countP_eq_countP_filter_add t.rows q fun r => key r = k
  have here : (if q r then 1 else 0) ≤ (t.rows.filter fun r => key r = k).countP q := by
    by_cases holds : q r
    · rw [if_pos holds, Nat.succ_le_iff, List.countP_pos_iff]
      exact ⟨r, List.mem_filter.mpr ⟨mem_of_get? found, by simp [key_of_get? found]⟩, holds⟩
    · simp [holds]
  have others : (t.delete fun r => key r = k).rows = t.rows.filter fun r => !decide (key r = k) :=
    rfl
  rw [others]
  omega

theorem countP_update_key {t : Table κ ρ key} {k : κ} {r : ρ} (found : t.get? k = some r)
    (f : ρ → ρ) (keeps : ∀ r, key (f r) = key r) (q : ρ → Bool) :
    (t.update (fun r => key r = k) f keeps).rows.countP q + (if q r then 1 else 0) =
      t.rows.countP q + (if q (f r) then 1 else 0) := by
  obtain ⟨member, rfl⟩ := get?_eq_some.mp found
  obtain ⟨before, after, rows⟩ := List.append_of_mem member
  have apart : ∀ other ∈ before ++ after, key other ≠ key r := by
    have distinct := t.unique
    rw [rows, List.map_append, List.map_cons, List.nodup_middle, List.nodup_cons] at distinct
    intro other present same
    refine distinct.1 (List.mem_append.mpr ?_)
    rw [← same]
    rcases List.mem_append.mp present with left | right
    · exact .inl (List.mem_map_of_mem left)
    · exact .inr (List.mem_map_of_mem right)
  have kept : ∀ part : List ρ, (∀ other ∈ part, other ∈ before ++ after) →
      (part.map fun other => if decide (key other = key r) then f other else other) = part := by
    intro part inside
    conv_rhs => rw [← List.map_id part]
    apply List.map_congr_left
    intro other present
    simp [apart other (inside other present)]
  have changed : (t.update (fun other => key other = key r) f keeps).rows =
      before ++ f r :: after := by
    show (t.rows.map fun other => if decide (key other = key r) then f other else other) = _
    rw [rows, List.map_append, List.map_cons,
      kept before fun other present => List.mem_append_left after present,
      kept after fun other present => List.mem_append_right before present]
    simp
  rw [changed, rows, List.countP_append, List.countP_append, List.countP_cons, List.countP_cons]
  omega

theorem insert?_eq_none {t : Table κ ρ key} {r : ρ} :
    t.insert? r = none ↔ (t.get? (key r)).isSome := by
  rw [Option.isSome_iff_ne_none, ne_eq, get?_eq_none]
  simp [insert?]

theorem insert?_eq_some {t u : Table κ ρ key} {r : ρ} :
    t.insert? r = some u ↔ t.get? (key r) = none ∧ u.rows = t.rows ++ [r] := by
  rw [get?_eq_none]
  unfold insert?
  split
  case isTrue taken =>
    simp only [List.mem_map] at taken
    simp only [reduceCtorEq, false_iff, not_and]
    obtain ⟨old, member, same⟩ := taken
    exact fun free => (free old member same).elim
  case isFalse free =>
    simp only [List.mem_map, not_exists, not_and] at free
    rw [Option.some_inj]
    exact ⟨fun same => ⟨free, same ▸ rfl⟩, fun same => ext same.2.symm⟩

theorem get?_insert? {t u : Table κ ρ key} {r : ρ} (inserted : t.insert? r = some u) (k : κ) :
    u.get? k = if key r = k then some r else t.get? k := by
  obtain ⟨free, rows⟩ := insert?_eq_some.mp inserted
  unfold get? at *
  rw [rows, List.find?_append]
  by_cases same : key r = k
  · subst same
    simp [free]
  · simp [same]

theorem insert?_of_free {t : Table κ ρ key} {r : ρ} (free : t.get? (key r) = none) :
    ∃ u, t.insert? r = some u ∧ u.rows = t.rows ++ [r] := by
  cases inserted : t.insert? r with
  | none => simp [insert?_eq_none, free] at inserted
  | some u => exact ⟨u, rfl, (insert?_eq_some.mp inserted).2⟩

def insertAll? (t : Table κ ρ key) (added : List ρ) : Option (Table κ ρ key) :=
  if free : ((t.rows ++ added).map key).Nodup then some ⟨t.rows ++ added, free⟩ else none

theorem insertAll?_eq_some {t u : Table κ ρ key} {added : List ρ} :
    t.insertAll? added = some u ↔ u.rows = t.rows ++ added := by
  constructor
  · intro inserted
    unfold insertAll? at inserted
    split at inserted
    · cases inserted
      rfl
    · cases inserted
  · intro rows
    unfold insertAll?
    rw [dif_pos (rows ▸ u.unique)]
    exact congrArg some (ext rows.symm)

def put (t : Table κ ρ key) (r : ρ) : Table κ ρ key where
  rows :=
    if key r ∈ t.rows.map key then t.rows.map fun old => if key old = key r then r else old
    else t.rows ++ [r]
  unique := by
    split
    · have same : (t.rows.map fun old => if key old = key r then r else old).map key =
          t.rows.map key := by
        rw [List.map_map]
        apply List.map_congr_left
        intro old _
        by_cases clash : key old = key r <;> simp [clash]
      exact same ▸ t.unique
    · rename_i free
      rw [List.map_append, List.nodup_append']
      refine ⟨t.unique, by simp, ?_⟩
      simpa [List.disjoint_singleton] using free

theorem put_of_insert? {t u : Table κ ρ key} {r : ρ} (inserted : t.insert? r = some u) :
    t.put r = u := by
  obtain ⟨free, rows⟩ := insert?_eq_some.mp inserted
  have untaken : key r ∉ t.rows.map key := by
    intro taken
    obtain ⟨other, member, same⟩ := List.mem_map.mp taken
    exact get?_eq_none.mp free other member same
  apply Table.ext
  rw [rows]
  exact if_neg untaken

theorem get?_put (t : Table κ ρ key) (r : ρ) (k : κ) :
    (t.put r).get? k = if key r = k then some r else t.get? k := by
  by_cases taken : key r ∈ t.rows.map key
  · have rows : (t.put r).rows = t.rows.map fun old => if key old = key r then r else old :=
      if_pos taken
    by_cases same : key r = k
    · rw [if_pos same, get?_eq_some, rows]
      obtain ⟨old, member, clash⟩ := List.mem_map.mp taken
      exact ⟨List.mem_map.mpr ⟨old, member, if_pos clash⟩, same⟩
    · rw [if_neg same]
      cases found : t.get? k with
      | none =>
          rw [get?_eq_none] at found ⊢
          rw [rows]
          intro new member
          obtain ⟨old, present, rfl⟩ := List.mem_map.mp member
          by_cases clash : key old = key r
          · simpa [clash] using same
          · simpa [clash] using found old present
      | some old =>
          obtain ⟨member, place⟩ := get?_eq_some.mp found
          rw [get?_eq_some, rows]
          refine ⟨List.mem_map.mpr ⟨old, member, if_neg ?_⟩, place⟩
          exact fun clash => same (clash.symm.trans place)
  · have rows : (t.put r).rows = t.rows ++ [r] := if_neg taken
    have free : t.get? (key r) = none := by
      rw [get?_eq_none]
      exact fun old member clash => taken (clash ▸ List.mem_map_of_mem member)
    unfold get? at free ⊢
    rw [rows, List.find?_append]
    by_cases same : key r = k
    · subst same
      simp [free]
    · simp [same]

theorem mem_put {t : Table κ ρ key} {r a : ρ} (member : a ∈ (t.put r).rows) : a = r ∨ a ∈ t.rows := by
  have found := get?_self member
  rw [get?_put] at found
  split at found
  · exact .inl (Option.some.inj found).symm
  · exact .inr (mem_of_get? found)

theorem exists_key_put {t : Table κ ρ key} {r : ρ} {k : κ} :
    (∃ a ∈ (t.put r).rows, key a = k) ↔ key r = k ∨ ∃ a ∈ t.rows, key a = k := by
  have listed (u : Table κ ρ key) : (∃ a ∈ u.rows, key a = k) ↔ ∃ a, u.get? k = some a := by
    simp only [get?_eq_some]
  rw [listed, listed, get?_put]
  by_cases same : key r = k <;> simp [same]

end Keys

@[simp] theorem rows_delete (t : Table κ ρ key) (p : ρ → Bool) :
    (t.delete p).rows = t.rows.filter fun r => !p r := rfl

@[simp] theorem rows_update (t : Table κ ρ key) (p : ρ → Bool) (f : ρ → ρ)
    (keeps : ∀ r, key (f r) = key r) :
    (t.update p f keeps).rows = t.rows.map fun r => if p r then f r else r := rfl

@[simp] theorem select_delete_self (t : Table κ ρ key) (p : ρ → Bool) :
    (t.delete p).select p = [] := by
  simp [select, List.filter_filter]

theorem insertionSort_eq_nil {r : ρ → ρ → Prop} [DecidableRel r] {l : List ρ} :
    l.insertionSort r = [] ↔ l = [] := by
  rw [← List.length_eq_zero_iff, List.length_insertionSort, List.length_eq_zero_iff]

/-! ## Rows outside a change -/

theorem filter_update {t : Table κ ρ key} {p : ρ → Bool} {f : ρ → ρ}
    (keeps : ∀ r, key (f r) = key r) (q : ρ → Bool) (before : ∀ r, p r → q r = false)
    (after : ∀ r, p r → q (f r) = false) :
    (t.update p f keeps).rows.filter q = t.rows.filter q := by
  rw [rows_update]
  induction t.rows with
  | nil => rfl
  | cons head tail ih =>
      rw [List.map_cons, List.filter_cons, List.filter_cons, ih]
      by_cases changed : p head
      · simp [changed, before head changed, after head changed]
      · simp [changed]

theorem filter_delete {t : Table κ ρ key} {p : ρ → Bool} (q : ρ → Bool)
    (apart : ∀ r, p r → q r = false) : (t.delete p).rows.filter q = t.rows.filter q := by
  rw [rows_delete, List.filter_filter]
  apply List.filter_congr
  intro r _
  by_cases deleted : p r
  · simp [deleted, apart r deleted]
  · simp [deleted]

theorem filter_put [DecidableEq κ] {t : Table κ ρ key} {r : ρ} (q : ρ → Bool)
    (new : q r = false) (old : ∀ o ∈ t.rows, key o = key r → q o = false) :
    (t.put r).rows.filter q = t.rows.filter q := by
  by_cases taken : key r ∈ t.rows.map key
  · have rows : (t.put r).rows = t.rows.map fun o => if key o = key r then r else o := if_pos taken
    rw [rows]
    clear rows taken
    generalize t.rows = all at old
    induction all with
    | nil => rfl
    | cons head tail ih =>
        rw [List.map_cons, List.filter_cons, List.filter_cons,
          ih fun o member => old o (List.mem_cons_of_mem _ member)]
        by_cases clash : key head = key r
        · simp [clash, new, old head List.mem_cons_self clash]
        · simp [clash]
  · have rows : (t.put r).rows = t.rows ++ [r] := if_neg taken
    rw [rows, List.filter_append]
    simp [new]

theorem filter_insertAll? [DecidableEq κ] {t u : Table κ ρ key} {added : List ρ}
    (inserted : t.insertAll? added = some u) (q : ρ → Bool) (new : ∀ r ∈ added, q r = false) :
    u.rows.filter q = t.rows.filter q := by
  rw [insertAll?_eq_some.mp inserted, List.filter_append]
  simpa using new

end Table

structure Indexed (κ κ' ρ : Type) (key : ρ → κ) (index : ρ → κ') extends Table κ ρ key where
  uniqueIndex : (rows.map index).Nodup

namespace Indexed
variable {κ κ' ρ : Type} {key : ρ → κ} {index : ρ → κ'}

@[ext] theorem ext {t u : Indexed κ κ' ρ key index} (same : t.rows = u.rows) : t = u := by
  obtain ⟨⟨rows, unique⟩, uniqueIndex⟩ := t
  obtain ⟨⟨rows', unique'⟩, uniqueIndex'⟩ := u
  cases same
  rfl

instance [DecidableEq ρ] : DecidableEq (Indexed κ κ' ρ key index) := fun t u =>
  decidable_of_iff (t.rows = u.rows) ⟨ext, fun same => same ▸ rfl⟩

def empty : Indexed κ κ' ρ key index := ⟨.empty, List.nodup_nil⟩

def update (t : Indexed κ κ' ρ key index) (p : ρ → Bool) (f : ρ → ρ)
    (keeps : ∀ r, key (f r) = key r := by intros; rfl)
    (keepsIndex : ∀ r, index (f r) = index r := by intros; rfl) : Indexed κ κ' ρ key index where
  toTable := t.toTable.update p f keeps
  uniqueIndex := ((⟨t.rows, t.uniqueIndex⟩ : Table κ' ρ index).update p f keepsIndex).unique

def delete (t : Indexed κ κ' ρ key index) (p : ρ → Bool) : Indexed κ κ' ρ key index where
  toTable := t.toTable.delete p
  uniqueIndex := t.uniqueIndex.sublist (List.filter_sublist.map index)

@[simp] theorem rows_empty : (empty : Indexed κ κ' ρ key index).rows = [] := rfl

@[simp] theorem rows_delete (t : Indexed κ κ' ρ key index) (p : ρ → Bool) :
    (t.delete p).rows = t.rows.filter fun r => !p r := rfl

@[simp] theorem rows_update (t : Indexed κ κ' ρ key index) (p : ρ → Bool) (f : ρ → ρ)
    (keeps : ∀ r, key (f r) = key r) (keepsIndex : ∀ r, index (f r) = index r) :
    (t.update p f keeps keepsIndex).rows = t.rows.map fun r => if p r then f r else r := rfl

def update? [DecidableEq κ'] (t : Indexed κ κ' ρ key index) (p : ρ → Bool) (f : ρ → ρ)
    (keeps : ∀ r, key (f r) = key r := by intros; rfl) : Option (Indexed κ κ' ρ key index) :=
  if free : ((t.toTable.update p f keeps).rows.map index).Nodup then
    some ⟨t.toTable.update p f keeps, free⟩
  else none

theorem toTable_update? [DecidableEq κ'] {t u : Indexed κ κ' ρ key index} {p : ρ → Bool} {f : ρ → ρ}
    {keeps : ∀ r, key (f r) = key r} (updated : t.update? p f keeps = some u) :
    u.toTable = t.toTable.update p f keeps := by
  unfold update? at updated
  split at updated
  · cases updated
    rfl
  · cases updated

section Insert
variable [DecidableEq κ] [DecidableEq κ']

def insertAll? (t : Indexed κ κ' ρ key index) (added : List ρ) :
    Option (Indexed κ κ' ρ key index) :=
  if free : ((t.rows ++ added).map key).Nodup ∧ ((t.rows ++ added).map index).Nodup then
    some ⟨⟨t.rows ++ added, free.1⟩, free.2⟩
  else none

theorem insertAll?_eq_some {t u : Indexed κ κ' ρ key index} {added : List ρ} :
    t.insertAll? added = some u ↔ u.rows = t.rows ++ added := by
  constructor
  · intro inserted
    unfold insertAll? at inserted
    split at inserted
    · cases inserted
      rfl
    · cases inserted
  · intro rows
    unfold insertAll?
    rw [dif_pos ⟨rows ▸ u.unique, rows ▸ u.uniqueIndex⟩]
    exact congrArg some (ext rows.symm)

theorem insertAll?_eq_none {t : Indexed κ κ' ρ key index} {added : List ρ} :
    t.insertAll? added = none ↔
      ¬(((t.rows ++ added).map key).Nodup ∧ ((t.rows ++ added).map index).Nodup) := by
  unfold insertAll?
  split
  · exact iff_of_false (Option.some_ne_none _) (not_not_intro ‹_›)
  · exact iff_of_true rfl ‹_›

theorem insertAll?_singleton_isSome {t : Indexed κ κ' ρ key index} {r : ρ} :
    (t.insertAll? [r]).isSome = true ↔ ∀ old ∈ t.rows, key old ≠ key r ∧ index old ≠ index r := by
  have keyed : ((t.rows ++ [r]).map key).Nodup ↔ ∀ old ∈ t.rows, key old ≠ key r := by
    simp [List.nodup_append, t.unique]
  have indexed : ((t.rows ++ [r]).map index).Nodup ↔ ∀ old ∈ t.rows, index old ≠ index r := by
    simp [List.nodup_append, t.uniqueIndex]
  rw [Option.isSome_iff_ne_none, Ne, insertAll?_eq_none, not_not, keyed, indexed]
  exact forall₂_and.symm

end Insert

end Indexed

/-- `LEFT OUTER JOIN ... ON`. -/
def outerJoin {α β : Type} (rows : List α) (others : List β) (on : α → β → Bool) :
    List (α × Option β) :=
  rows.flatMap fun a =>
    match others.filter (on a) with
    | [] => [(a, none)]
    | matched => matched.map fun b => (a, some b)

section OuterJoin
variable {α β : Type} {rows : List α} {others : List β} {on : α → β → Bool}

theorem mem_of_mem_outerJoin {a : α} {match_ : Option β}
    (joined : (a, match_) ∈ outerJoin rows others on) :
    a ∈ rows ∧ ∀ b, match_ = some b → b ∈ others ∧ on a b := by
  obtain ⟨a', member, row⟩ := List.mem_flatMap.mp joined
  split at row
  · cases List.mem_singleton.mp row
    exact ⟨member, fun b none => by cases none⟩
  · obtain ⟨b, matched, same⟩ := List.mem_map.mp row
    cases same
    refine ⟨member, fun b' same => ?_⟩
    cases same
    exact List.mem_filter.mp matched

theorem mem_outerJoin {a : α} {b : β} (member : a ∈ rows) (matches_ : b ∈ others)
    (joins : on a b) : (a, some b) ∈ outerJoin rows others on := by
  refine List.mem_flatMap.mpr ⟨a, member, ?_⟩
  have found : b ∈ others.filter (on a) := List.mem_filter.mpr ⟨matches_, joins⟩
  split
  · rename_i none
    rw [none] at found
    cases found
  · exact List.mem_map_of_mem found

theorem exists_mem_outerJoin (others : List β) (on : α → β → Bool) {a : α} (member : a ∈ rows) :
    ∃ match_, (a, match_) ∈ outerJoin rows others on := by
  cases found : others.filter (on a) with
  | nil => exact ⟨none, List.mem_flatMap.mpr ⟨a, member, by simp [found]⟩⟩
  | cons b rest =>
      have matched := List.mem_filter.mp (found ▸ List.mem_cons_self : b ∈ others.filter (on a))
      exact ⟨some b, mem_outerJoin member matched.1 matched.2⟩

end OuterJoin

/-- An identifier outside a given list, as a newly drawn UUID is. -/
def fresh (used : List Nat) : Nat := used.foldr max 0 + 1

theorem lt_fresh {used : List Nat} {n : Nat} (member : n ∈ used) : n < fresh used := by
  unfold fresh
  induction used with
  | nil => cases member
  | cons head tail ih =>
      rw [List.foldr_cons]
      rcases List.mem_cons.mp member with rfl | later
      · omega
      · have := ih later
        omega

theorem fresh_notMem (used : List Nat) : fresh used ∉ used :=
  fun member => (lt_fresh member).false

end Kaeyris.Lib
