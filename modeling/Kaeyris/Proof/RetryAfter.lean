import Kaeyris.Proof.RateLimit
import Kaeyris.Quotas

/-!
# Waiting as long as one is told

Checks that follow one another never leave more entries in a bucket than the limit. So a bucket
that refuses is exactly full, and it has room again when its oldest entry leaves the window.
-/

namespace Kaeyris.Proof
open Lib RateLimit Quotas

def checkAt (limits : Limits) (b : Bucket) (now : ℚ) : (Bool × Int) × Bucket :=
  checkAndRecord limits (present b now) now

def afterChecks (limits : Limits) (times : List ℚ) : Bucket :=
  final (fun b now => (checkAt limits b now).2) .absent times

def AllDenied (limits : Limits) (b : Bucket) (times : List ℚ) : Prop :=
  Along (fun b now => (checkAt limits b now).2) (fun b now => (checkAt limits b now).1.1 = false) b
    times

/-- `time.time()` counts from the epoch and does not go back. -/
def OnClock (times : List ℚ) : Prop := (0 :: times).Pairwise (· ≤ ·)

theorem truncate_bounds {x : ℚ} (nonnegative : 0 ≤ x) :
    (truncate x : ℚ) ≤ x ∧ x < truncate x + 1 := by
  have floor : truncate x = ⌊x⌋ := by
    rw [truncate, Int.tdiv_eq_ediv_of_nonneg (Rat.num_nonneg.mpr nonnegative), Rat.floor_def']
  rw [floor]
  exact ⟨Int.floor_le x, Int.lt_floor_add_one x⟩

theorem wait_bounds {window : Int} {now oldest : ℚ} (recent : now - window < oldest)
    (past : oldest ≤ now) {retry : Int}
    (value : max 1 (truncate (oldest + window - now) + 1) = retry) :
    1 ≤ retry ∧ retry ≤ window + 1 ∧ oldest + window ≤ now + retry := by
  have positive : 0 ≤ oldest + window - now := by linarith
  obtain ⟨below, above⟩ := truncate_bounds positive
  have nonnegative : (-1 : Int) < truncate (oldest + window - now) := by
    have : (-1 : ℚ) < truncate (oldest + window - now) := by linarith
    exact_mod_cast this
  have bounded : truncate (oldest + window - now) ≤ window := by
    have : (truncate (oldest + window - now) : ℚ) ≤ window := by linarith
    exact_mod_cast this
  have same : retry = truncate (oldest + window - now) + 1 := by omega
  refine ⟨by omega, by omega, ?_⟩
  rw [same]
  push_cast
  linarith

section Checks
variable {limits : Limits}

/-- What the entries of a bucket are when its checks follow one another. -/
structure Settled (limits : Limits) (clock : ℚ) (b : Bucket) : Prop where
  within : (b.entries.length : Int) ≤ limits.limit
  past : ∀ e ∈ b.entries, 0 ≤ e.score ∧ e.score ≤ clock

theorem Settled.later {clock later : ℚ} {b : Bucket} (settled : Settled limits clock b)
    (passes : clock ≤ later) : Settled limits later b :=
  ⟨settled.within, fun e member => ⟨(settled.past e member).1,
    (settled.past e member).2.trans passes⟩⟩

theorem Settled.sublist {clock : ℚ} {b b' : Bucket} (settled : Settled limits clock b)
    (fewer : b'.entries.Sublist b.entries) : Settled limits clock b' := by
  refine ⟨?_, fun e member => settled.past e (fewer.subset member)⟩
  have := fewer.length_le
  have := settled.within
  omega

theorem present_sublist (b : Bucket) (clock : ℚ) :
    (present b clock).entries.Sublist b.entries := by
  unfold present
  split
  · exact List.nil_sublist _
  · exact List.Sublist.refl _

def counts (limits : Limits) (b : Bucket) (now : ℚ) : Bucket :=
  (present b now).zremrangebyscore 0 (now - limits.windowSeconds)

theorem counts_sublist (b : Bucket) (now : ℚ) : (counts limits b now).entries.Sublist b.entries :=
  List.filter_sublist.trans (present_sublist b now)

theorem checkAt_denied {b : Bucket} {now : ℚ}
    (full : limits.limit ≤ (counts limits b now).entries.length) :
    checkAt limits b now =
      ((false, retryAfter limits (counts limits b now) now), counts limits b now) := by
  have counted : count limits (present b now) now =
      (.error (retryAfter limits (counts limits b now) now), counts limits b now) := if_pos full
  rw [checkAt, checkAndRecord, counted]

theorem checkAt_allowed {b : Bucket} {now : ℚ}
    (room : ((counts limits b now).entries.length : Int) < limits.limit) :
    checkAt limits b now = ((true, 0), add limits (counts limits b now) now now) := by
  have counted : count limits (present b now) now = (.ok (), counts limits b now) :=
    if_neg (not_le.mpr room)
  rw [checkAt, checkAndRecord, counted]

theorem full_of_denied {b : Bucket} {now : ℚ} (denied : (checkAt limits b now).1.1 = false) :
    limits.limit ≤ (counts limits b now).entries.length := by
  by_contra room
  rw [checkAt_allowed (not_le.mp room)] at denied
  cases denied

theorem settled_checkAt {clock now : ℚ} {b : Bucket} (settled : Settled limits clock b)
    (passes : clock ≤ now) (started : 0 ≤ now) :
    Settled limits now (checkAt limits b now).2 := by
  have counted : Settled limits now (counts limits b now) :=
    (settled.later passes).sublist (counts_sublist b now)
  by_cases full : limits.limit ≤ (counts limits b now).entries.length
  · rw [checkAt_denied full]
    exact counted
  · rw [checkAt_allowed (not_le.mp full)]
    constructor
    · rw [entries_add, List.length_append, List.length_singleton]
      push_cast
      omega
    · intro e member
      rw [entries_add, List.mem_append, List.mem_singleton] at member
      rcases member with old | rfl
      · exact counted.past e old
      · exact ⟨started, le_rfl⟩

theorem settled_final {times : List ℚ} {clock : ℚ} {b : Bucket} (settled : Settled limits clock b)
    (started : 0 ≤ clock) (ordered : (clock :: times).Pairwise (· ≤ ·)) {now : ℚ}
    (passes : ∀ time ∈ clock :: times, time ≤ now) :
    Settled limits now (final (fun b now => (checkAt limits b now).2) b times) := by
  induction times generalizing clock b with
  | nil => exact settled.later (passes clock List.mem_cons_self)
  | cons time times ih =>
      rw [List.pairwise_cons] at ordered
      have next := ordered.1 time List.mem_cons_self
      refine ih (settled_checkAt settled next (started.trans next)) (started.trans next) ordered.2 ?_
      exact fun later member => passes later (List.mem_cons_of_mem _ member)

theorem counts_of_full {b : Bucket} {now : ℚ} (within : (b.entries.length : Int) ≤ limits.limit)
    (full : limits.limit ≤ (counts limits b now).entries.length) :
    (counts limits b now).entries = b.entries := by
  apply (counts_sublist b now).eq_of_length_le
  omega

theorem denied_keeps {b : Bucket} {times : List ℚ} (within : (b.entries.length : Int) ≤ limits.limit)
    (denied : AllDenied limits b times) :
    (final (fun b now => (checkAt limits b now).2) b times).entries = b.entries := by
  induction times generalizing b with
  | nil => rfl
  | cons now times ih =>
      have full := full_of_denied denied.1
      have next : (checkAt limits b now).2.entries = b.entries := by
        rw [checkAt_denied full]
        exact counts_of_full within full
      have rest := ih (by rw [next]; exact within) denied.2
      exact rest.trans next

theorem lowest_spec {b : Bucket} (some_ : b.entries ≠ []) :
    ∃ e ∈ b.entries, b.lowest = some e.score := by
  unfold Bucket.lowest
  cases least : (b.entries.map Entry.score).min? with
  | none => simp [List.min?_eq_none_iff, some_] at least
  | some score =>
      obtain ⟨e, present, rfl⟩ := List.mem_map.mp (List.min?_eq_some_iff.mp least).1
      exact ⟨e, present, rfl⟩

theorem room_after {b : Bucket} {e : Entry} {later : ℚ}
    (within : (b.entries.length : Int) ≤ limits.limit) (member : e ∈ b.entries)
    (started : 0 ≤ e.score) (old : e.score + limits.windowSeconds ≤ later) :
    ((counts limits b later).entries.length : Int) < limits.limit := by
  have gone : e ∉ (counts limits b later).entries := by
    intro kept
    have recent := (List.mem_filter.mp kept).2
    have pruned : e.score ≤ later - limits.windowSeconds := by linarith
    simp [started, pruned] at recent
  have fewer : (counts limits b later).entries.length < b.entries.length := by
    refine lt_of_le_of_ne (counts_sublist b later).length_le fun same => gone ?_
    rw [(counts_sublist b later).eq_of_length same]
    exact member
  omega

end Checks

/-- A check that is denied is told to wait at least one second and at most one more than the window,
and unless another check is let through in the meantime, any check after that wait is let through. -/
theorem retry_after_sufficient (limits : Limits) (limit : 1 ≤ limits.limit)
    (times : List ℚ) (now : ℚ) (retry : Int) (clock : OnClock (times ++ [now]))
    (denied : (checkAt limits (afterChecks limits times) now).1 = (false, retry)) :
    (1 ≤ retry ∧ retry ≤ limits.windowSeconds + 1) ∧
      ∀ between later,
        AllDenied limits (checkAt limits (afterChecks limits times) now).2 between →
          now + retry ≤ later →
            (checkAt limits (afterChecks limits (times ++ now :: between)) later).1 = (true, 0) := by
  have ordered := List.pairwise_append.mp (show ((0 :: times) ++ [now]).Pairwise (· ≤ ·) from clock)
  have passes : ∀ time ∈ 0 :: times, time ≤ now := fun time member =>
    ordered.2.2 time member now List.mem_cons_self
  have fresh_ : Settled limits 0 .absent := ⟨by simp [Bucket.absent]; omega, by simp [Bucket.absent]⟩
  have settled : Settled limits now (afterChecks limits times) :=
    settled_final fresh_ le_rfl ordered.1 passes
  have full := full_of_denied (congrArg Prod.fst denied)
  have kept := counts_of_full settled.within full
  rw [checkAt_denied full] at denied ⊢
  obtain ⟨e, member, lowest⟩ := lowest_spec (b := counts limits (afterChecks limits times) now) <| by
    intro empty
    simp only [empty, List.length_nil] at full
    omega
  obtain ⟨started, past⟩ := settled.past e (kept ▸ member)
  have recent : now - limits.windowSeconds < e.score := by
    have stays := (List.mem_filter.mp member).2
    by_contra gone
    simp [started, not_lt.mp gone] at stays
  have value : max 1 (truncate (e.score + limits.windowSeconds - now) + 1) = retry := by
    simpa [retryAfter, lowest] using congrArg Prod.snd denied
  obtain ⟨least, most, out⟩ := wait_bounds recent past value
  refine ⟨⟨least, most⟩, ?_⟩
  intro between later stays waits
  have within : ((counts limits (afterChecks limits times) now).entries.length : Int) ≤
      limits.limit := kept ▸ settled.within
  have still := denied_keeps within stays
  have history : afterChecks limits (times ++ now :: between) =
      final (fun b now => (checkAt limits b now).2) (counts limits (afterChecks limits times) now)
        between := by
    rw [afterChecks, final_append, ← afterChecks]
    exact congrArg (fun b => final (fun b now => (checkAt limits b now).2) b between)
      (congrArg Prod.snd (checkAt_denied full))
  rw [history]
  have old : e.score + limits.windowSeconds ≤ later := out.trans waits
  have room := room_after (still.symm ▸ within) (still.symm ▸ member) started old
  rw [checkAt_allowed room]

/-- Of two requests a minute, made at 0 and 20, the third at 30 is sent away for 31 seconds. -/
theorem retry_after_sufficient_third :
    checkAt ⟨2, 60⟩ (afterChecks ⟨2, 60⟩ [0, 20]) 30 =
        ((false, 31), afterChecks ⟨2, 60⟩ [0, 20, 30]) ∧
      (checkAt ⟨2, 60⟩ (afterChecks ⟨2, 60⟩ [0, 20, 30, 45]) 61).1 = (true, 0) :=
  have denied : checkAt ⟨2, 60⟩ (afterChecks ⟨2, 60⟩ [0, 20]) 30 =
      ((false, 31), afterChecks ⟨2, 60⟩ [0, 20, 30]) := by decide +kernel
  ⟨denied, (retry_after_sufficient ⟨2, 60⟩ (by decide) [0, 20] 30 31
    (by unfold OnClock; decide +kernel) (congrArg Prod.fst denied)).2 [45] 61
    (by unfold AllDenied; decide +kernel) (by norm_num)⟩

end Kaeyris.Proof
