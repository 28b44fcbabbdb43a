import Kaeyris.RateLimit

/-!
# The bound of the rate limit

However the checks on a bucket interleave, a window admits at most one request more than the limit
for each check beyond the first that is between its two steps.
-/

namespace Kaeyris.Proof
open Lib RateLimit

section Window
variable {limits : Limits}

def current (limits : Limits) (clock : ℚ) (entries : List Entry) : List Entry :=
  entries.filter fun e => clock - limits.windowSeconds < e.score

theorem current_later {clock later : ℚ} (passes : clock ≤ later) (entries : List Entry) :
    current limits later entries = current limits later (current limits clock entries) := by
  unfold current
  rw [List.filter_filter]
  apply List.filter_congr
  intro e _
  by_cases recent : later - limits.windowSeconds < e.score
  · have : clock - limits.windowSeconds < e.score := by linarith
    simp [recent, this]
  · simp [recent]

theorem current_append (clock : ℚ) (entries added : List Entry) :
    current limits clock (entries ++ added) =
      current limits clock entries ++ current limits clock added := List.filter_append _ _

theorem current_prune (b : Bucket) (clock : ℚ) :
    current limits clock (b.zremrangebyscore 0 (clock - limits.windowSeconds)).entries =
      current limits clock b.entries := by
  unfold current Bucket.zremrangebyscore
  rw [List.filter_filter]
  apply List.filter_congr
  intro e _
  by_cases recent : clock - limits.windowSeconds < e.score
  · simp [recent]
  · simp [recent]

theorem entries_add (b : Bucket) (now clock : ℚ) :
    (add limits b now clock).entries = b.entries ++ [⟨now, fresh (b.entries.map Entry.token)⟩] := by
  have unused : (⟨now, fresh (b.entries.map Entry.token)⟩ : Entry) ∉ b.entries :=
    fun member => fresh_notMem (b.entries.map Entry.token) (List.mem_map.mpr ⟨_, member, rfl⟩)
  simp [add, Bucket.expire, Bucket.zadd, unused]

theorem mem_prune {b : Bucket} {low high : ℚ} {e : Entry}
    (member : e ∈ (b.zremrangebyscore low high).entries) : e ∈ b.entries :=
  List.mem_of_mem_filter member

theorem count_bucket (b : Bucket) (now : ℚ) :
    (count limits b now).2 = b.zremrangebyscore 0 (now - limits.windowSeconds) := by
  by_cases full : limits.limit ≤ (b.zremrangebyscore 0 (now - limits.windowSeconds)).zcard
  · simp [count, full]
  · simp [count, full]

theorem count_ok {b : Bucket} {now : ℚ} (passed : (count limits b now).1 = .ok ()) :
    ((count limits b now).2.entries.length : Int) < limits.limit := by
  rw [count_bucket]
  by_cases full : limits.limit ≤ (b.zremrangebyscore 0 (now - limits.windowSeconds)).zcard
  · simp [count, full] at passed
  · exact Int.lt_of_not_ge full

end Window

/-- Redis has forgotten nothing that a check still has to count. -/
structure Consistent (limits : Limits) (s : Limiter) : Prop where
  started : ∀ c ∈ s.pending.rows, c.now ≤ s.clock
  past : ∀ bucket, ∀ e ∈ (s.redis bucket).entries, e.score ≤ s.clock
  lasting : ∀ bucket, ∀ e ∈ (s.redis bucket).entries, ∀ deadline,
    (s.redis bucket).deadline = some deadline → e.score + limits.windowSeconds ≤ deadline
  kept : ∀ bucket, current limits s.clock (s.recorded bucket) =
    current limits s.clock (s.redis bucket).entries

section Steps
variable {limits : Limits} {s : Limiter}

theorem consistent_initial (clock : ℚ) : Consistent limits (.initial clock) where
  started := fun _ member => nomatch member
  past := fun _ _ member => nomatch member
  lasting := fun _ _ member => nomatch member
  kept := fun _ => rfl

theorem consistent_setBucket (ok : Consistent limits s) {bucket : Text} {b : Bucket}
    (fewer : ∀ e ∈ b.entries, e ∈ (s.redis bucket).entries)
    (same : ∀ e ∈ b.entries, b.deadline = (s.redis bucket).deadline)
    (loses : current limits s.clock b.entries = current limits s.clock (s.redis bucket).entries) :
    Consistent limits (s.setBucket bucket b) where
  started := ok.started
  past := by
    intro other e member
    by_cases here : other = bucket
    · subst here
      exact ok.past other e (fewer e (by simpa [Limiter.setBucket] using member))
    · exact ok.past other e (by simpa [Limiter.setBucket, here] using member)
  lasting := by
    intro other e member deadline at_
    by_cases here : other = bucket
    · subst here
      have present : e ∈ b.entries := by simpa [Limiter.setBucket] using member
      refine ok.lasting other e (fewer e present) deadline ?_
      rw [← same e present]
      simpa [Limiter.setBucket] using at_
    · exact ok.lasting other e (by simpa [Limiter.setBucket, here] using member) deadline
        (by simpa [Limiter.setBucket, here] using at_)
  kept := by
    intro other
    by_cases here : other = bucket
    · subst here
      simpa [Limiter.setBucket] using (ok.kept other).trans loses.symm
    · simpa [Limiter.setBucket, here] using ok.kept other

theorem consistent_count (ok : Consistent limits s) (bucket : Text) :
    Consistent limits (s.setBucket bucket (count limits (s.redis bucket) s.clock).2) := by
  rw [count_bucket]
  exact consistent_setBucket ok (fun e member => mem_prune member) (fun _ _ => rfl)
    (current_prune _ _)

theorem consistent_finish (ok : Consistent limits s) (check : Nat) :
    Consistent limits (s.finish check) :=
  { ok with started := fun c member => ok.started c (List.mem_of_mem_filter member) }

theorem expired_old (ok : Consistent limits s) {bucket : Text} {deadline : ℚ}
    (at_ : (s.redis bucket).deadline = some deadline) (passed : deadline ≤ s.clock) {e : Entry}
    (member : e ∈ (s.redis bucket).entries) : e.score ≤ s.clock - limits.windowSeconds := by
  have lasts := ok.lasting bucket e member deadline at_
  linarith

theorem consistent_expire (ok : Consistent limits s) {bucket : Text} {deadline : ℚ}
    (at_ : (s.redis bucket).deadline = some deadline) (passed : deadline ≤ s.clock) :
    Consistent limits (s.setBucket bucket .absent) := by
  refine consistent_setBucket ok (fun e member => nomatch member) (fun e member => nomatch member) ?_
  have none : current limits s.clock (s.redis bucket).entries = [] := by
    apply List.filter_eq_nil_iff.mpr
    intro e member
    simpa using expired_old ok at_ passed member
  rw [none]
  rfl

theorem consistent_add (ok : Consistent limits s) {check : Nat} {c : Check}
    (found : s.pending.get? check = some c) :
    Consistent limits ((s.setBucket c.bucket (add limits (s.redis c.bucket) c.now s.clock)).record
      c.bucket ⟨c.now, fresh ((s.redis c.bucket).entries.map Entry.token)⟩) where
  started := ok.started
  past := by
    intro other e member
    by_cases here : other = c.bucket
    · subst here
      simp only [Limiter.record, Limiter.setBucket, if_pos, entries_add, List.mem_append,
        List.mem_singleton] at member
      rcases member with old | rfl
      · exact ok.past _ e old
      · exact ok.started c (Table.mem_of_get? found)
    · exact ok.past other e (by simpa [Limiter.record, Limiter.setBucket, here] using member)
  lasting := by
    intro other e member deadline at_
    by_cases here : other = c.bucket
    · subst here
      have extended : s.clock + limits.windowSeconds = deadline := by
        simpa [Limiter.record, Limiter.setBucket, add, Bucket.expire] using at_
      have reached : e.score ≤ s.clock := by
        simp only [Limiter.record, Limiter.setBucket, if_pos, entries_add, List.mem_append,
          List.mem_singleton] at member
        rcases member with old | rfl
        · exact ok.past _ e old
        · exact ok.started c (Table.mem_of_get? found)
      linarith
    · exact ok.lasting other e (by simpa [Limiter.record, Limiter.setBucket, here] using member)
        deadline (by simpa [Limiter.record, Limiter.setBucket, here] using at_)
  kept := by
    intro other
    by_cases here : other = c.bucket
    · subst here
      simp only [Limiter.record, Limiter.setBucket, if_pos, entries_add, current_append, ok.kept]
    · simpa [Limiter.record, Limiter.setBucket, here] using ok.kept other

theorem consistent_step (ok : Consistent limits s) (label : RateLimit.Label) :
    Consistent limits (s.step limits label) := by
  cases label with
  | tick elapsed =>
      by_cases forward : 0 ≤ elapsed
      · have later : s.clock ≤ s.clock + elapsed := by linarith
        simp only [Limiter.step, if_pos forward]
        exact
          { started := fun c member => (ok.started c member).trans later
            past := fun bucket e member => (ok.past bucket e member).trans later
            lasting := ok.lasting
            kept := fun bucket => by
              rw [current_later later, ok.kept bucket, ← current_later later] }
      · simpa only [Limiter.step, if_neg forward] using ok
  | count check bucket =>
      have counted := consistent_count ok bucket
      cases inserted : s.pending.insert? ⟨check, bucket, s.clock⟩ with
      | none => simpa only [Limiter.step, inserted] using ok
      | some pending =>
          simp only [Limiter.step, inserted]
          split
          · exact ok
          · exact counted
          · refine { counted with started := fun c member => ?_ }
            rename_i same
            cases same
            rw [(Table.insert?_eq_some.mp inserted).2, List.mem_append, List.mem_singleton] at member
            rcases member with old | rfl
            · exact ok.started c old
            · exact le_refl s.clock
  | add check =>
      cases found : s.pending.get? check with
      | none => simpa only [Limiter.step, found] using ok
      | some c =>
          simp only [Limiter.step, found]
          exact consistent_finish (consistent_add ok found) check
  | abandon check => exact consistent_finish ok check
  | expire bucket =>
      cases at_ : (s.redis bucket).deadline with
      | none => simpa [Limiter.step, at_] using ok
      | some deadline =>
          by_cases passed : deadline ≤ s.clock
          · simpa [Limiter.step, at_, passed] using consistent_expire ok at_ passed
          · simpa [Limiter.step, at_, passed] using ok

end Steps

/-! ## The bound -/

section Bound
variable {limits : Limits} {s : Limiter} {bucket : Text}

theorem admittedIn_eq (limits : Limits) (s : Limiter) (bucket : Text) (t : ℚ) :
    s.admittedIn limits bucket t =
      (s.recorded bucket).countP (fun e => inWindow limits t e.score) +
        s.pending.rows.countP fun c => inWindow limits t c.now && decide (c.bucket = bucket) := by
  unfold Limiter.admittedIn Limiter.admitted Limiter.between Table.select
  rw [List.countP_append, List.countP_map, List.countP_map, List.countP_filter]
  rfl

theorem admittedIn_finish (limits : Limits) (s : Limiter) (bucket : Text) (check : Nat) (t : ℚ) :
    (s.finish check).admittedIn limits bucket t ≤ s.admittedIn limits bucket t := by
  rw [admittedIn_eq, admittedIn_eq]
  exact Nat.add_le_add_left (List.filter_sublist.countP_le) _

theorem admittedIn_add (limits : Limits) (bucket : Text) {check : Nat} {c : Check}
    (found : s.pending.get? check = some c) {e : Entry} (same : e.score = c.now) (b : Bucket)
    (t : ℚ) :
    (((s.setBucket c.bucket b).record c.bucket e).finish check).admittedIn limits bucket t ≤
      s.admittedIn limits bucket t := by
  have removed := Table.countP_delete_key found
    fun c => inWindow limits t c.now && decide (c.bucket = bucket)
  rw [admittedIn_eq, admittedIn_eq]
  simp only [Limiter.finish, Limiter.record, Limiter.setBucket]
  by_cases here : bucket = c.bucket
  · subst here
    simp only [if_pos, List.countP_append, List.countP_singleton, same, decide_true,
      Bool.and_true] at removed ⊢
    omega
  · simp only [if_neg here]
    omega

/-- What is in a window that reaches past the clock has been counted or is between two steps. -/
theorem admittedIn_le (ok : Consistent limits s) (passed : (count limits (s.redis bucket) s.clock).1 =
      .ok ()) {t : ℚ} (ahead : s.clock ≤ t) :
    (s.admittedIn limits bucket t : Int) ≤ limits.limit - 1 + (s.between bucket).length := by
  have room := count_ok passed
  have recorded : (s.recorded bucket).countP (fun e => inWindow limits t e.score) ≤
      (count limits (s.redis bucket) s.clock).2.entries.length := by
    calc (s.recorded bucket).countP (fun e => inWindow limits t e.score)
        ≤ (s.recorded bucket).countP fun e => s.clock - limits.windowSeconds < e.score := by
          apply List.countP_mono_left
          intro e _ inside
          have from_ : t - limits.windowSeconds < e.score := by
            have := inside
            simp only [inWindow, Bool.and_eq_true, decide_eq_true_eq] at this
            exact this.1
          simpa using by linarith
      _ = (current limits s.clock (s.recorded bucket)).length := List.countP_eq_length_filter
      _ = (current limits s.clock (count limits (s.redis bucket) s.clock).2.entries).length := by
          rw [ok.kept, count_bucket, current_prune]
      _ ≤ (count limits (s.redis bucket) s.clock).2.entries.length := List.length_filter_le _ _
  have pending : (s.pending.rows.countP fun c =>
      inWindow limits t c.now && decide (c.bucket = bucket)) ≤ (s.between bucket).length := by
    unfold Limiter.between Table.select
    rw [← List.countP_eq_length_filter]
    apply List.countP_mono_left
    intro c _ both
    exact (Bool.and_eq_true_iff.mp both).2
  rw [admittedIn_eq]
  omega

def Bounded (limits : Limits) (bucket : Text) (k : Nat) (s : Limiter) : Prop :=
  ∀ t, (s.admittedIn limits bucket t : Int) ≤ limits.limit + k - 1

theorem bounded_count (ok : Consistent limits s) {k : Nat} (bounded : Bounded limits bucket k s)
    {check : Nat} {other : Text}
    (few : ((s.step limits (.count check other)).between bucket).length ≤ k) :
    Bounded limits bucket k (s.step limits (.count check other)) := by
  intro t
  cases inserted : s.pending.insert? ⟨check, other, s.clock⟩ with
  | none => simpa only [Limiter.step, inserted] using bounded t
  | some pending =>
      have rows := (Table.insert?_eq_some.mp inserted).2
      cases answer : (count limits (s.redis other) s.clock).1 with
      | error retry =>
          simp only [Limiter.step, inserted, answer]
          exact bounded t
      | ok =>
          simp only [Limiter.step, inserted, answer] at few ⊢
          have before := admittedIn_eq limits s bucket t
          have after := admittedIn_eq limits
            { s.setBucket other (count limits (s.redis other) s.clock).2 with pending := pending }
            bucket t
          rw [rows, List.countP_append, List.countP_singleton] at after
          simp only [Limiter.between, Table.select, rows, List.filter_append, List.length_append]
            at few
          by_cases inside : (inWindow limits t s.clock && decide (other = bucket)) = true
          · obtain ⟨window, rfl⟩ : inWindow limits t s.clock = true ∧ other = bucket := by
              simpa using inside
            have ahead : s.clock ≤ t := by
              simp only [inWindow, Bool.and_eq_true, decide_eq_true_eq] at window
              exact window.2
            have full := admittedIn_le ok answer ahead
            have one : ([(⟨check, other, s.clock⟩ : Check)].filter fun c =>
                decide (c.bucket = other)).length = 1 := by simp
            rw [one] at few
            rw [if_pos inside] at after
            simp only [Limiter.setBucket, Limiter.between, Table.select] at *
            omega
          · rw [if_neg inside] at after
            have := bounded t
            simp only [Limiter.setBucket] at *
            omega

theorem bounded_step (ok : Consistent limits s) {k : Nat} (bounded : Bounded limits bucket k s)
    (label : RateLimit.Label) (few : ((s.step limits label).between bucket).length ≤ k) :
    Bounded limits bucket k (s.step limits label) := by
  cases label with
  | tick elapsed =>
      simp only [Limiter.step]
      split
      · exact bounded
      · exact bounded
  | count check other => exact bounded_count ok bounded few
  | add check =>
      cases found : s.pending.get? check with
      | none => simpa only [Limiter.step, found] using bounded
      | some c =>
          intro t
          have replaced := admittedIn_add limits bucket found
            (e := ⟨c.now, fresh ((s.redis c.bucket).entries.map Entry.token)⟩) rfl
            (add limits (s.redis c.bucket) c.now s.clock) t
          simp only [Limiter.step, found]
          have := bounded t
          omega
  | abandon check =>
      intro t
      have fewer := admittedIn_finish limits s bucket check t
      have := bounded t
      simp only [Limiter.step]
      omega
  | expire other =>
      simp only [Limiter.step]
      split
      · exact bounded
      · exact bounded

end Bound

/-- No window holds more admitted requests than the limit allows for the checks that overlap, and
the expiry of a key only drops what no window from now on contains. -/
theorem rateLimit_bound (limits : Limits) (positive : 1 ≤ limits.limit) (clock : ℚ)
    (run : List RateLimit.Label) (bucket : Text) (k : Nat)
    (few : Visits (Limiter.step limits) (fun s => (s.between bucket).length ≤ k) (.initial clock)
      run) :
    Visits (Limiter.step limits)
        (fun s => ∀ t, (s.admittedIn limits bucket t : Int) ≤ limits.limit + k - 1)
        (.initial clock) run ∧
      Along (Limiter.step limits)
        (fun s label => ∀ other, label = .expire other → ∀ e ∈ (s.redis other).entries,
          e ∉ ((s.step limits label).redis other).entries →
            ∀ t, s.clock ≤ t → inWindow limits t e.score = false)
        (.initial clock) run := by
  have start : Consistent limits (.initial clock) ∧ Bounded limits bucket k (.initial clock) := by
    refine ⟨consistent_initial clock, fun t => ?_⟩
    have empty : (Limiter.initial clock).admittedIn limits bucket t = 0 := rfl
    omega
  have kept : ∀ s label, (Consistent limits s ∧ Bounded limits bucket k s) →
      ((s.step limits label).between bucket).length ≤ k →
      Consistent limits (s.step limits label) ∧ Bounded limits bucket k (s.step limits label) :=
    fun s label inv few => ⟨consistent_step inv.1 label, bounded_step inv.1 inv.2 label few⟩
  refine ⟨(Visits.of_invariant kept start few.next).weaken fun s inv => inv.2,
    Along.of_invariant kept ?_ start few.next⟩
  rintro s _ ⟨ok, -⟩ - other rfl e member dropped t ahead
  cases at_ : (s.redis other).deadline with
  | none => exact absurd member (by simpa [Limiter.step, at_] using dropped)
  | some deadline =>
      by_cases passed : deadline ≤ s.clock
      · have old := expired_old ok at_ passed member
        have outside : ¬t - limits.windowSeconds < e.score := by linarith
        simp [inWindow, outside]
      · exact absurd member (by simpa [Limiter.step, at_, passed] using dropped)

theorem rateLimit_bound_overlapping :
    Visits (Limiter.step ⟨1, 60⟩) (fun s => (s.between []).length ≤ 2) (.initial 0)
        [.count 0 [], .count 1 [], .add 0, .tick 30, .add 1, .count 2 [], .tick 60, .expire []] ∧
      Visits (Limiter.step ⟨1, 60⟩)
        (fun s => ∀ t, (s.admittedIn ⟨1, 60⟩ [] t : Int) ≤ 1 + (2 : Nat) - 1) (.initial 0)
        [.count 0 [], .count 1 [], .add 0, .tick 30, .add 1, .count 2 [], .tick 60, .expire []] :=
  have few : Visits (Limiter.step ⟨1, 60⟩) (fun s => (s.between []).length ≤ 2) (.initial 0)
      [.count 0 [], .count 1 [], .add 0, .tick 30, .add 1, .count 2 [], .tick 60, .expire []] := by
    decide +kernel
  ⟨few, (rateLimit_bound ⟨1, 60⟩ (by decide) 0 _ [] 2 few).1⟩

theorem checkAndRecord_eq {limits : Limits} {s : Limiter} {check : Nat} {bucket : Text}
    (free : s.pending.get? check = none) :
    ((s.step limits (.count check bucket)).step limits (.add check)).redis bucket =
      (checkAndRecord limits (s.redis bucket) s.clock).2 := by
  obtain ⟨pending, inserted, rows⟩ :=
    Table.insert?_of_free (r := (⟨check, bucket, s.clock⟩ : Check)) free
  have found := Table.get?_insert? inserted check
  cases answer : count limits (s.redis bucket) s.clock with
  | mk decision b =>
      cases decision with
      | error retry => simp [Limiter.step, inserted, answer, checkAndRecord, Limiter.setBucket, free]
      | ok =>
          rw [if_pos rfl] at found
          simp [Limiter.step, inserted, answer, checkAndRecord, Limiter.setBucket, found,
            Limiter.record, Limiter.finish]

end Kaeyris.Proof
