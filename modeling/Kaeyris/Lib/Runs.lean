import Mathlib.Data.List.SplitBy
import Mathlib.Data.List.Forall2

/-!
# Merging neighbours

A list is read from left to right, and what is near to the last result is merged into it. As long
as merging keeps the two ends of a stretch, the results are the maximal runs of near neighbours,
each one merged.
-/

namespace Kaeyris.Lib

variable {α : Type*} (near : α → α → Bool) (merge : α → α → α)

/-- Of these results `last` is the one that may still grow. -/
def coalesceFrom (last : α) : List α → List α
  | [] => [last]
  | next :: rest =>
      if near last next then coalesceFrom (merge last next) rest
      else last :: coalesceFrom next rest

def coalesce : List α → List α
  | [] => []
  | first :: rest => coalesceFrom near merge first rest

def KeepsRight : Prop := ∀ a b c, near a b → near (merge a b) c = near b c

def KeepsLeft : Prop := ∀ a b c, near a b → near c (merge a b) = near c a

inductive Merged : List α → α → Prop
  | single (a : α) : Merged [a] a
  | snoc {run : List α} {a next : α} :
      Merged run a → near a next → Merged (run ++ [next]) (merge a next)

variable {near merge}

theorem Merged.ne_nil {run : List α} {a : α} (merged : Merged near merge run a) : run ≠ [] := by
  cases merged <;> simp

theorem coalesceFrom_near {last next : α} (close : near last next) (rest : List α) :
    coalesceFrom near merge last (next :: rest) = coalesceFrom near merge (merge last next) rest :=
  if_pos close

theorem coalesceFrom_far {last next : α} (far : ¬near last next) (rest : List α) :
    coalesceFrom near merge last (next :: rest) = last :: coalesceFrom near merge next rest :=
  if_neg far

/-- `run` is what `last` was merged from. -/
theorem splitBy_coalesceFrom (keeps : KeepsRight near merge) (rest : List α) {run : List α}
    {last : α} (chain : run.IsChain fun a b => near a b) (merged : Merged near merge run last)
    (right : ∀ a ∈ run.getLast?, ∀ c, near last c = near a c) :
    List.Forall₂ (Merged near merge) ((run ++ rest).splitBy near) (coalesceFrom near merge last rest) := by
  induction rest generalizing run last with
  | nil =>
      rw [List.append_nil, List.splitBy_of_isChain merged.ne_nil chain]
      exact .cons merged .nil
  | cons next rest ih =>
      by_cases close : near last next
      · have longer : (run ++ [next]).IsChain fun a b => near a b := by
          rw [List.isChain_append]
          refine ⟨chain, .singleton next, ?_⟩
          intro a isLast b isNext
          obtain rfl := Option.some.inj isNext
          rw [← right a isLast]
          exact close
        have whole := ih longer (merged.snoc close) (by simp [keeps last next _ close])
        rw [coalesceFrom_near close]
        simpa using whole
      · have far : ∀ a ∈ run.getLast?, near a next = false := by
          intro a isLast
          rw [← right a isLast]
          exact Bool.eq_false_iff.mpr close
        rw [coalesceFrom_far close, List.splitBy_append_cons rest far,
          List.splitBy_of_isChain merged.ne_nil chain]
        exact .cons merged (ih (.singleton next) (.single next) (by simp))

theorem splitBy_coalesce (keeps : KeepsRight near merge) (l : List α) :
    List.Forall₂ (Merged near merge) (l.splitBy near) (coalesce near merge l) := by
  cases l with
  | nil => exact .nil
  | cons first rest =>
      exact splitBy_coalesceFrom keeps rest (.singleton first) (.single first) (by simp)

theorem coalesceFrom_apart (keeps : KeepsLeft near merge) (last : α) (rest : List α) :
    ∃ first later, coalesceFrom near merge last rest = first :: later ∧
      (∀ c, near c first = near c last) ∧ (first :: later).IsChain fun a b => ¬near a b := by
  induction rest generalizing last with
  | nil => exact ⟨last, [], rfl, fun _ => rfl, .singleton _⟩
  | cons next rest ih =>
      by_cases close : near last next
      · obtain ⟨first, later, result, left, chain⟩ := ih (merge last next)
        rw [coalesceFrom_near close]
        exact ⟨first, later, result, fun c => (left c).trans (keeps last next c close), chain⟩
      · obtain ⟨first, later, result, left, chain⟩ := ih next
        rw [coalesceFrom_far close, result]
        refine ⟨last, first :: later, rfl, fun _ => rfl, .cons_cons ?_ chain⟩
        rw [left]
        exact close

theorem coalesce_apart (keeps : KeepsLeft near merge) (l : List α) :
    (coalesce near merge l).IsChain fun a b => ¬near a b := by
  cases l with
  | nil => exact .nil
  | cons first rest =>
      obtain ⟨head, later, result, -, chain⟩ := coalesceFrom_apart keeps first rest
      rw [coalesce, result]
      exact chain

theorem coalesceFrom_of_apart (last : α) (rest : List α)
    (chain : (last :: rest).IsChain fun a b => ¬near a b) :
    coalesceFrom near merge last rest = last :: rest := by
  induction rest generalizing last with
  | nil => rfl
  | cons next rest ih =>
      obtain ⟨far, chain⟩ := List.isChain_cons_cons.mp chain
      rw [coalesceFrom_far far, ih next chain]

theorem coalesce_of_apart {l : List α} (chain : l.IsChain fun a b => ¬near a b) :
    coalesce near merge l = l := by
  cases l with
  | nil => rfl
  | cons first rest => exact coalesceFrom_of_apart first rest chain

theorem coalesce_coalesce (keeps : KeepsLeft near merge) (l : List α) :
    coalesce near merge (coalesce near merge l) = coalesce near merge l :=
  coalesce_of_apart (coalesce_apart keeps l)

end Kaeyris.Lib
