import Kaeyris.Lib.Table

/-!
# Queries

What a `SELECT` may return: the selected rows in an order that `ORDER BY` allows, which is one of
several when two rows compare equal. A query looks at some of the rows of a table only, and two
tables that agree on these give it the same results.
-/

namespace Kaeyris.Lib

def innerJoin {α β : Type} (rows : List α) (others : List β) (on : α → β → Bool) : List (α × β) :=
  rows.flatMap fun a => (others.filter (on a)).map fun b => (a, b)

/-- `rows` are the selected ones in an order that `ORDER BY` allows. -/
def Arranges {α : Type} (before : α → α → Prop) (selected rows : List α) : Prop :=
  rows.Perm selected ∧ rows.Pairwise before

def SameRows {ρ : Type} (looked : ρ → Prop) (rows rows' : List ρ) : Prop :=
  ∀ row, looked row → (row ∈ rows ↔ row ∈ rows')

section InnerJoin
variable {α β : Type} {rows : List α} {others : List β} {on : α → β → Bool}

theorem mem_innerJoin {joined : α × β} : joined ∈ innerJoin rows others on ↔
    joined.1 ∈ rows ∧ joined.2 ∈ others ∧ on joined.1 joined.2 = true := by
  obtain ⟨a, b⟩ := joined
  simp only [innerJoin, List.mem_flatMap, List.mem_map, List.mem_filter, Prod.mk.injEq]
  constructor
  · rintro ⟨a', member, b', found, rfl, rfl⟩
    exact ⟨member, found⟩
  · rintro ⟨member, found⟩
    exact ⟨a, member, b, found, rfl, rfl⟩

theorem nodup_innerJoin (nodup : rows.Nodup) (nodup' : others.Nodup) :
    (innerJoin rows others on).Nodup := by
  refine List.nodup_flatMap.mpr ⟨fun a _ => ?_, ?_⟩
  · exact (nodup'.filter _).map fun b b' same => congrArg Prod.snd same
  · refine List.Pairwise.imp (fun {a a'} apart => ?_) nodup
    intro joined left right
    obtain ⟨_, _, rfl⟩ := List.mem_map.mp left
    obtain ⟨_, _, same⟩ := List.mem_map.mp right
    exact apart (congrArg Prod.fst same).symm

end InnerJoin

theorem find?_perm {α : Type} {rows rows' : List α} {p : α → Bool} (same : rows.Perm rows')
    (only : ∀ a ∈ rows, ∀ b ∈ rows, p a = true → p b = true → a = b) :
    rows.find? p = rows'.find? p := by
  have found {l : List α} (within : ∀ a ∈ l, a ∈ rows) (a : α) :
      l.find? p = some a ↔ a ∈ l ∧ p a = true := by
    constructor
    · intro first
      exact ⟨List.mem_of_find?_eq_some first, List.find?_some first⟩
    · rintro ⟨member, wanted⟩
      cases first : l.find? p with
      | none => exact (List.find?_eq_none.mp first a member wanted).elim
      | some b =>
          have member' := within b (List.mem_of_find?_eq_some first)
          rw [only a (within a member) b member' wanted (List.find?_some first)]
  apply Option.ext
  intro a
  rw [found (fun _ => id) a, found (fun _ => same.mem_iff.mpr) a, same.mem_iff]

section Arranges
variable {α : Type} {before before' : α → α → Prop} {selected selected' rows : List α}

theorem Arranges.mem (arranges : Arranges before selected rows) {a : α} :
    a ∈ rows ↔ a ∈ selected := arranges.1.mem_iff

theorem Arranges.transfer (arranges : Arranges before selected rows)
    (same : selected.Perm selected')
    (implies : ∀ a ∈ selected, ∀ b ∈ selected, before a b → before' a b) :
    Arranges before' selected' rows := by
  refine ⟨arranges.1.trans same, arranges.2.imp_of_mem fun {a b} left right holds => ?_⟩
  exact implies a (arranges.mem.mp left) b (arranges.mem.mp right) holds

end Arranges

namespace SameRows
variable {ρ : Type} {looked : ρ → Prop} {rows rows' : List ρ} (same : SameRows looked rows rows')
include same

theorem symm : SameRows looked rows' rows := fun row look => (same row look).symm

theorem filter_perm (nodup : rows.Nodup) (nodup' : rows'.Nodup) {p : ρ → Bool}
    (look : ∀ row, p row = true → looked row) : (rows.filter p).Perm (rows'.filter p) := by
  refine (List.perm_ext_iff_of_nodup (nodup.filter p) (nodup'.filter p)).mpr fun row => ?_
  rw [List.mem_filter, List.mem_filter]
  exact and_congr_left fun wanted => same row (look row wanted)

end SameRows

section Tables
variable {κ ρ : Type} {key : ρ → κ} {t u : Table κ ρ key} {looked : ρ → Prop}

theorem Table.nodup (t : Table κ ρ key) : t.rows.Nodup := t.unique.of_map key

theorem SameRows.select_perm (same : SameRows looked t.rows u.rows) {p : ρ → Bool}
    (look : ∀ row, p row = true → looked row) : (t.select p).Perm (u.select p) :=
  same.filter_perm t.nodup u.nodup look

theorem SameRows.get? [DecidableEq κ] (same : SameRows looked t.rows u.rows) {k : κ}
    (look : ∀ row, key row = k → looked row) : t.get? k = u.get? k := by
  apply Option.ext
  intro row
  rw [Table.get?_eq_some, Table.get?_eq_some]
  exact and_congr_left fun named => same row (look row named)

theorem SameRows.get?_filter [DecidableEq κ] (same : SameRows looked t.rows u.rows) (k : κ)
    {p : ρ → Bool} (look : ∀ row, p row = true → looked row) :
    (t.get? k).filter p = (u.get? k).filter p := by
  apply Option.ext
  intro row
  simp only [Option.filter_eq_some_iff, Table.get?_eq_some]
  exact and_congr_left fun wanted => and_congr_left fun _ => same row (look row wanted)

theorem SameRows.sorted_eq {before : ρ → ρ → Prop} [DecidableRel before] [Std.Total before]
    [IsTrans ρ before] (same : SameRows looked t.rows u.rows) {p : ρ → Bool}
    (look : ∀ row, p row = true → looked row)
    (strict : ∀ a ∈ t.select p, ∀ b ∈ t.select p, before a b → before b a → a = b) :
    (t.select p).insertionSort before = (u.select p).insertionSort before := by
  have perm := same.select_perm look
  refine List.Perm.eq_of_pairwise (fun a b left right => ?_) (List.pairwise_insertionSort _ _)
    (List.pairwise_insertionSort _ _) ?_
  · rw [List.mem_insertionSort] at left right
    exact strict a left b (perm.mem_iff.mpr right)
  · exact (List.perm_insertionSort _ _).trans (perm.trans (List.perm_insertionSort _ _).symm)

end Tables

/-! ## A part of a table

An operation that stays within a part, or keeps out of it, acts on what the part holds. -/

section Parts
variable {κ ρ : Type} {key : ρ → κ} {t u : Table κ ρ key} {q : ρ → Bool}
  (same : t.rows.filter q = u.rows.filter q)

theorem filter_map_comm {l : List ρ} {f : ρ → ρ} (kept : ∀ r, q (f r) = q r) :
    (l.map f).filter q = (l.filter q).map f := by
  have comp : q ∘ f = q := funext kept
  rw [List.filter_map, comp]

include same

theorem Table.part_update {p : ρ → Bool} {f : ρ → ρ} (keeps : ∀ r, key (f r) = key r)
    (kept : ∀ r, q (f r) = q r) :
    (t.update p f keeps).rows.filter q = (u.update p f keeps).rows.filter q := by
  have stays (r : ρ) : q (if p r then f r else r) = q r := by
    split
    · exact kept r
    · rfl
  rw [Table.rows_update, Table.rows_update, filter_map_comm stays, filter_map_comm stays, same]

theorem Table.part_delete (p : ρ → Bool) :
    (t.delete p).rows.filter q = (u.delete p).rows.filter q := by
  rw [Table.rows_delete, Table.rows_delete, List.filter_comm, same, List.filter_comm]

theorem Table.part_get? [DecidableEq κ] {k : κ} (within : ∀ r, key r = k → q r = true) :
    t.get? k = u.get? k := by
  have shared : SameRows (fun r => q r = true) t.rows u.rows := by
    intro r inside
    have member (l : List ρ) : r ∈ l ↔ r ∈ l.filter q := by simp [inside]
    rw [member t.rows, member u.rows, same]
  exact shared.get? within

theorem Table.part_put [DecidableEq κ] {r : ρ} (inside : q r = true)
    (within : ∀ o, key o = key r → q o = true) :
    (t.put r).rows.filter q = (u.put r).rows.filter q := by
  have taken (t : Table κ ρ key) : key r ∈ t.rows.map key ↔ key r ∈ (t.rows.filter q).map key := by
    simp only [List.mem_map, List.mem_filter]
    constructor
    · rintro ⟨o, member, clash⟩
      exact ⟨o, ⟨member, within o clash⟩, clash⟩
    · rintro ⟨o, ⟨member, -⟩, clash⟩
      exact ⟨o, member, clash⟩
  have replaced (o : ρ) : q (if key o = key r then r else o) = q o := by
    split
    · rename_i clash
      rw [inside, within o clash]
    · rfl
  have put (t : Table κ ρ key) : (t.put r).rows.filter q =
      if key r ∈ (t.rows.filter q).map key then
        (t.rows.filter q).map fun o => if key o = key r then r else o
      else t.rows.filter q ++ [r] := by
    by_cases clash : key r ∈ t.rows.map key
    · have rows : (t.put r).rows = t.rows.map fun o => if key o = key r then r else o :=
        if_pos clash
      rw [rows, filter_map_comm replaced, if_pos ((taken t).mp clash)]
    · have rows : (t.put r).rows = t.rows ++ [r] := if_neg clash
      rw [rows, List.filter_append, if_neg fun inside => clash ((taken t).mpr inside)]
      simp [inside]
  rw [put t, put u, same]

end Parts

end Kaeyris.Lib
