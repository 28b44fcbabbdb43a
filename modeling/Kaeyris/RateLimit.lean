import Mathlib.Algebra.Order.Ring.Rat
import Mathlib.Data.Rat.Floor
import Kaeyris.Lib.Table
import Kaeyris.Lib.Transition
import Kaeyris.Text

/-!
# The rate limit

`core/rate_limit.py`: a sliding window over a sorted set of Redis, one for each bucket. A check is
two pipelines, each of them atomic; other checks may come in between.
-/

namespace Kaeyris
open Lib

/-- A member of the sorted set: `f"{now}:{token}"`, whose score is `now`. -/
structure Entry where
  score : ℚ
  token : Nat
  deriving DecidableEq

/-- The sorted set under `ratelimit:<bucket>` and the time from which Redis may drop it. -/
structure Bucket where
  entries : List Entry
  deadline : Option ℚ
  deriving DecidableEq

namespace Bucket

def absent : Bucket := ⟨[], none⟩

def zremrangebyscore (b : Bucket) (low high : ℚ) : Bucket :=
  { b with entries := b.entries.filter fun e => !(low ≤ e.score && e.score ≤ high) }

def zcard (b : Bucket) : Nat := b.entries.length

def lowest (b : Bucket) : Option ℚ := (b.entries.map Entry.score).min?

def zadd (b : Bucket) (e : Entry) : Bucket :=
  if e ∈ b.entries then b else { b with entries := b.entries ++ [e] }

def expire (b : Bucket) (clock : ℚ) (seconds : Int) : Bucket :=
  { b with deadline := some (clock + seconds) }

end Bucket

namespace RateLimit

structure Limits where
  limit : Int
  windowSeconds : Int

def truncate (x : ℚ) : Int := x.num.tdiv x.den

def retryAfter (limits : Limits) (b : Bucket) (now : ℚ) : Int :=
  match b.lowest with
  | some oldest => max 1 (truncate (oldest + limits.windowSeconds - now) + 1)
  | none => limits.windowSeconds

/-- The first pipeline: prune and count. A check over the limit is answered `retry_after_seconds`
at once. -/
def count (limits : Limits) (b : Bucket) (now : ℚ) : Except Int Unit × Bucket :=
  let pruned := b.zremrangebyscore 0 (now - limits.windowSeconds)
  if limits.limit ≤ pruned.zcard then (.error (retryAfter limits pruned now), pruned)
  else (.ok (), pruned)

/-- The second pipeline, which runs when the clock has reached `clock`. -/
def add (limits : Limits) (b : Bucket) (now clock : ℚ) : Bucket :=
  (b.zadd ⟨now, fresh (b.entries.map Entry.token)⟩).expire clock limits.windowSeconds

/-- `_check_and_record`, when nothing comes between its two pipelines. -/
def checkAndRecord (limits : Limits) (b : Bucket) (now : ℚ) : (Bool × Int) × Bucket :=
  match count limits b now with
  | (.error retry, pruned) => ((false, retry), pruned)
  | (.ok (), pruned) => ((true, 0), add limits pruned now now)

structure Check where
  id : Nat
  bucket : Text
  now : ℚ
  deriving DecidableEq

/-- `recorded` only keeps the history: the entries that were ever added to a bucket. -/
structure Limiter where
  clock : ℚ
  redis : Text → Bucket
  pending : Table Nat Check Check.id
  recorded : Text → List Entry

def Limiter.initial (clock : ℚ) : Limiter where
  clock := clock
  redis := fun _ => .absent
  pending := .empty
  recorded := fun _ => []

inductive Label
  | tick (elapsed : ℚ)
  | count (check : Nat) (bucket : Text)
  | add (check : Nat)
  | abandon (check : Nat)
  | expire (bucket : Text)

namespace Limiter

def setBucket (s : Limiter) (bucket : Text) (b : Bucket) : Limiter :=
  { s with redis := fun other => if other = bucket then b else s.redis other }

def record (s : Limiter) (bucket : Text) (e : Entry) : Limiter :=
  { s with
    recorded := fun other => if other = bucket then s.recorded other ++ [e] else s.recorded other }

def finish (s : Limiter) (check : Nat) : Limiter :=
  { s with pending := s.pending.delete fun c => c.id = check }

def step (limits : Limits) (s : Limiter) : Label → Limiter
  | .tick elapsed => if 0 ≤ elapsed then { s with clock := s.clock + elapsed } else s
  | .count check bucket =>
      let (answer, b) := RateLimit.count limits (s.redis bucket) s.clock
      match answer, s.pending.insert? ⟨check, bucket, s.clock⟩ with
      | _, none => s
      | .error _, some _ => s.setBucket bucket b
      | .ok (), some pending => { s.setBucket bucket b with pending := pending }
  | .add check =>
      match s.pending.get? check with
      | none => s
      | some c =>
          let e : Entry := ⟨c.now, fresh ((s.redis c.bucket).entries.map Entry.token)⟩
          ((s.setBucket c.bucket (RateLimit.add limits (s.redis c.bucket) c.now s.clock)).record
            c.bucket e).finish check
  | .abandon check => s.finish check
  | .expire bucket =>
      if (s.redis bucket).deadline.any (· ≤ s.clock) then s.setBucket bucket .absent else s

def between (s : Limiter) (bucket : Text) : List Check :=
  s.pending.select fun c => c.bucket = bucket

def admitted (s : Limiter) (bucket : Text) : List ℚ :=
  (s.recorded bucket).map Entry.score ++ (s.between bucket).map Check.now

end Limiter

def inWindow (limits : Limits) (t time : ℚ) : Bool :=
  t - limits.windowSeconds < time && time ≤ t

def Limiter.admittedIn (limits : Limits) (s : Limiter) (bucket : Text) (t : ℚ) : Nat :=
  (s.admitted bucket).countP (inWindow limits t)

end RateLimit

end Kaeyris
