import Kaeyris.AudioChunks

/-!
# The pieces of a recording

The pieces are read back from the work directory, so that they are those of the current recording
only if nothing older is there and the names sort in the order of the numbers.
-/

namespace Kaeyris.AudioChunks
open Lib Jobs Decimals

/-! ## Names -/

def numbered : Nat := 100000

theorem chunkName_lt {i j : Nat} (less : i < j) (fits : j < numbered) :
    chunkName i < chunkName j := by
  have sorted : zeroPadded 5 i < zeroPadded 5 j := zeroPadded_lt less fits
  have first : (zeroPadded 5 i).length = 5 := length_zeroPadded (Nat.lt_trans less fits)
  have second : (zeroPadded 5 j).length = 5 := length_zeroPadded fits
  unfold chunkName
  rw [List.append_assoc, List.append_assoc]
  apply List.append_left_lt
  exact append_lt_append sorted (first.trans second.symm) _ _

theorem chunkName_inj {i j : Nat} (first : i < numbered) (second : j < numbered)
    (same : chunkName i = chunkName j) : i = j := by
  rcases Nat.lt_trichotomy i j with less | equal | greater
  · exact absurd (same ▸ chunkName_lt less second) (List.lt_irrefl _)
  · exact equal
  · exact absurd (same ▸ chunkName_lt greater first) (List.lt_irrefl _)

/-- With a sixth digit the names no longer sort in the order of the numbers. -/
theorem chunkName_wraps : chunkName 100000 < chunkName 10001 := by
  decide

theorem isChunk_chunkName (i : Nat) : isChunk (chunkName i) = true := by
  unfold isChunk chunkName
  rw [List.append_assoc, List.drop_left]
  simp [List.suffix_append]

/-! ## The directory -/

/-- ffmpeg numbers the pieces from zero, the induction from anywhere. -/
theorem name_written_from (pieces : List Bytes) (first : Nat) (dir : WorkDir) (name : Text) :
    (∃ file ∈ ((pieces.zipIdx first).foldl
        (fun dir piece => dir.put ⟨chunkName piece.2, piece.1⟩) dir).rows, file.name = name) ↔
      (∃ file ∈ dir.rows, file.name = name) ∨
        ∃ i < pieces.length, name = chunkName (first + i) := by
  induction pieces generalizing first dir with
  | nil => simp
  | cons piece rest ih =>
      rw [List.zipIdx_cons, List.foldl_cons, ih, Table.exists_key_put]
      constructor
      · rintro ((same | old) | ⟨i, lt, same⟩)
        · exact .inr ⟨0, Nat.succ_pos _, same.symm⟩
        · exact .inl old
        · exact .inr ⟨i + 1, Nat.succ_lt_succ lt, by rw [same, Nat.add_assoc, Nat.add_comm 1]⟩
      · rintro (old | ⟨i, lt, same⟩)
        · exact .inl (.inr old)
        · cases i with
          | zero => exact .inl (.inl same.symm)
          | succ i =>
              exact .inr ⟨i, Nat.lt_of_succ_lt_succ lt, by
                rw [same, Nat.add_assoc, Nat.add_comm 1]⟩

theorem name_written {dir : WorkDir} {pieces : List Bytes} {name : Text} :
    (∃ file ∈ (write dir pieces).rows, file.name = name) ↔
      (∃ file ∈ dir.rows, file.name = name) ∨ ∃ i < pieces.length, name = chunkName i := by
  rw [write, name_written_from]
  simp only [Nat.zero_add]

theorem get?_write_from (pieces : List Bytes) (first : Nat)
    (fits : first + pieces.length ≤ numbered) (dir : WorkDir) {i : Nat} (small : i < numbered) :
    ((pieces.zipIdx first).foldl
        (fun dir piece => dir.put ⟨chunkName piece.2, piece.1⟩) dir).get? (chunkName i) =
      if first ≤ i then
        (pieces[i - first]?.map fun piece => ⟨chunkName i, piece⟩).or (dir.get? (chunkName i))
      else dir.get? (chunkName i) := by
  induction pieces generalizing first dir with
  | nil => simp
  | cons piece rest ih =>
      have fits' : first + 1 + rest.length ≤ numbered := by
        rw [List.length_cons] at fits
        omega
      have here : first < numbered := by
        rw [List.length_cons] at fits
        omega
      rw [List.zipIdx_cons, List.foldl_cons, ih _ fits', Table.get?_put]
      rcases Nat.lt_trichotomy i first with before | rfl | after
      · have other : chunkName first ≠ chunkName i := fun same =>
          absurd (chunkName_inj here small same) (by omega)
        rw [if_neg (by omega), if_neg other, if_neg (by omega)]
      · simp
      · have other : chunkName first ≠ chunkName i := fun same =>
          absurd (chunkName_inj here small same) (by omega)
        have next : i - first = (i - (first + 1)) + 1 := by omega
        rw [if_pos (by omega), if_neg other, if_pos (by omega), next, List.getElem?_cons_succ]

theorem get?_write (dir : WorkDir) {pieces : List Bytes} (fits : pieces.length ≤ numbered) {i : Nat}
    (lt : i < pieces.length) :
    (write dir pieces).get? (chunkName i) = some ⟨chunkName i, pieces[i]⟩ := by
  have found := get?_write_from pieces 0 (by rwa [Nat.zero_add]) dir (Nat.lt_of_lt_of_le lt fits)
  rw [write, found]
  simp [lt]

/-! ## The list that is read back -/

def names (count : Nat) : List Text := (List.range count).map chunkName

theorem names_sorted {count : Nat} (fits : count ≤ numbered) : (names count).Pairwise (· < ·) := by
  rw [names, List.pairwise_map]
  apply List.Pairwise.imp_of_mem _ List.pairwise_lt_range
  intro i j _ member less
  exact chunkName_lt less (Nat.lt_of_lt_of_le (List.mem_range.mp member) fits)

theorem mem_sortedChunks {dir : WorkDir} {name : Text} :
    name ∈ sortedChunks dir ↔ (∃ file ∈ dir.rows, file.name = name) ∧ isChunk name = true := by
  rw [sortedChunks, List.mem_insertionSort, List.mem_filter, List.mem_map]

theorem sortedChunks_sorted (dir : WorkDir) : (sortedChunks dir).Pairwise (· ≤ ·) := by
  have : IsTrans Text (· ≤ ·) := ⟨fun a b c => le_trans⟩
  exact List.pairwise_insertionSort _ _

/-- No file of an earlier run is left under a name that the pattern matches, except where the current
run writes. -/
def NoStale (workDir : Option WorkDir) (count : Nat) : Prop :=
  ∀ file ∈ (workDir.getD .empty).rows, isChunk file.name = true →
    ∃ i < count, file.name = chunkName i

theorem sortedChunks_nodup (dir : WorkDir) : (sortedChunks dir).Nodup :=
  (List.perm_insertionSort _ _).nodup_iff.mpr (dir.unique.filter _)

theorem names_wrap {count : Nat} (more : numbered < count) :
    ¬(names count).Pairwise (· ≤ ·) := by
  intro sorted
  have place (i : Nat) (lt : i < (names count).length) : (names count)[i] = chunkName i := by
    simp [names]
  have long : (names count).length = count := by
    rw [names, List.length_map, List.length_range]
  have early : 10001 < numbered := by decide
  have wrapped := List.pairwise_iff_getElem.mp sorted 10001 numbered (by omega) (by omega) early
  rw [place, place] at wrapped
  exact absurd chunkName_wraps (not_lt_of_ge wrapped)

theorem sortedChunks_write {workDir : Option WorkDir} {pieces : List Bytes} :
    sortedChunks (write (workDir.getD .empty) pieces) = names pieces.length ↔
      NoStale workDir pieces.length ∧ pieces.length ≤ numbered := by
  have listed (name : Text) : name ∈ names pieces.length ↔
      ∃ i < pieces.length, name = chunkName i := by
    simp [names, eq_comm]
  constructor
  · intro same
    refine ⟨fun file member chunk => ?_, Nat.le_of_not_lt fun more => ?_⟩
    · have kept : file.name ∈ sortedChunks (write (workDir.getD .empty) pieces) :=
        mem_sortedChunks.mpr ⟨name_written.mpr (.inl ⟨file, member, rfl⟩), chunk⟩
      rw [same] at kept
      exact (listed _).mp kept
    · exact names_wrap more (same ▸ sortedChunks_sorted _)
  · intro ⟨fresh, fits⟩
    have sorted := names_sorted fits
    apply List.Perm.eq_of_pairwise (fun _ _ _ _ => le_antisymm) (sortedChunks_sorted _)
      (sorted.imp le_of_lt)
    apply (List.perm_ext_iff_of_nodup (sortedChunks_nodup _) (sorted.imp ne_of_lt)).mpr
    intro name
    rw [mem_sortedChunks, name_written, listed]
    constructor
    · rintro ⟨⟨file, member, rfl⟩ | written, chunk⟩
      · exact fresh file member chunk
      · exact written
    · rintro ⟨i, lt, rfl⟩
      exact ⟨.inr ⟨i, lt, rfl⟩, isChunk_chunkName i⟩

/-! ## The block -/

theorem snd_indexed (chunkDurationSeconds : Int) (chunks : List Text) :
    (indexed chunkDurationSeconds chunks).map Prod.snd = chunks := by
  apply List.ext_getElem?
  intro i
  simp [indexed]

structure Yields (chunkDurationSeconds : Int) (pieces : List Bytes) (entries : List (ℚ × Text))
    (dir : WorkDir) : Prop where
  count : entries.length = pieces.length
  entry : ∀ i < pieces.length, entries[i]? =
    some (((i * chunkDurationSeconds : Int) : ℚ), chunkName i)
  content : ∀ i (lt : i < pieces.length),
    (dir.get? (chunkName i)).map WorkFile.content = some pieces[i]

/-- The block gets the pieces of the current recording, and the directory is gone after it. -/
structure Exact (source : AudioPath) (chunkDurationSeconds : Int) (removes : Bool)
    (workDir : Option WorkDir) (run : Run) : Prop where
  pieces : ∀ pieces stderr, run = .exited pieces 0 stderr → pieces ≠ [] →
    ∃ entries dir, enter source chunkDurationSeconds removes workDir run = .ok (entries, dir) ∧
      Yields chunkDurationSeconds pieces entries dir
  gone : ∀ block : List (ℚ × Text) → WorkDir → Except Exn Unit,
    (chunkedAudio source chunkDurationSeconds removes workDir run block).2 = none

/-- What it takes: no stale piece, numbers of five digits, no exception but the two that are caught,
and a directory that can be removed. -/
structure Clean (removes : Bool) (workDir : Option WorkDir) (run : Run) : Prop where
  fresh : ∀ pieces stderr, run = .exited pieces 0 stderr → pieces ≠ [] →
    NoStale workDir pieces.length ∧ pieces.length ≤ numbered
  caught : ∀ pieces detail, run ≠ .interrupted pieces detail
  removed : removes = true

section Block
variable {source : AudioPath} {chunkDurationSeconds : Int} {removes : Bool}
variable {workDir : Option WorkDir} {run : Run} {pieces : List Bytes}

theorem enter_exited (some_ : pieces ≠ []) (stderr : Text) :
    enter source chunkDurationSeconds removes workDir (.exited pieces 0 stderr) =
      .ok (indexed chunkDurationSeconds (sortedChunks (write (workDir.getD .empty) pieces)),
        write (workDir.getD .empty) pieces) := by
  have first : chunkName 0 ∈ sortedChunks (write (workDir.getD .empty) pieces) :=
    mem_sortedChunks.mpr ⟨name_written.mpr (.inr ⟨0, List.length_pos_iff.mpr some_, rfl⟩),
      isChunk_chunkName 0⟩
  have found : sortedChunks (write (workDir.getD .empty) pieces) ≠ [] := List.ne_nil_of_mem first
  simp only [enter, ne_eq, not_true_eq_false, if_false, found]

theorem yields_indexed {chunks : List Text} {dir : WorkDir} :
    Yields chunkDurationSeconds pieces (indexed chunkDurationSeconds chunks) dir ↔
      chunks = names pieces.length ∧ ∀ i (lt : i < pieces.length),
        (dir.get? (chunkName i)).map WorkFile.content = some pieces[i] := by
  constructor
  · intro yields
    refine ⟨?_, yields.content⟩
    have count : chunks.length = pieces.length := by
      rw [← snd_indexed chunkDurationSeconds chunks, List.length_map]
      exact yields.count
    apply List.ext_getElem?
    intro i
    rcases Nat.lt_or_ge i pieces.length with lt | ge
    · have place := congrArg (Option.map Prod.snd) (yields.entry i lt)
      rw [← List.getElem?_map, snd_indexed] at place
      rw [place]
      simp [names, lt]
    · rw [List.getElem?_eq_none (by omega), List.getElem?_eq_none (by simpa [names] using ge)]
  · rintro ⟨rfl, content⟩
    refine ⟨by simp [indexed, names], fun i lt => ?_, content⟩
    simp [indexed, names, lt]

theorem left_chunkedAudio {α : Type} (block : List (ℚ × Text) → WorkDir → Except Exn α) :
    (chunkedAudio source chunkDurationSeconds removes workDir run block).2 = none ↔
      (∀ pieces detail, run ≠ .interrupted pieces detail) ∧ removes = true := by
  have gone (dir : WorkDir) : rmtree removes dir = none ↔ removes = true := by
    cases removes <;> simp [rmtree]
  cases run with
  | fileNotFound => simp [chunkedAudio, enter, gone]
  | subprocessError pieces detail => simp [chunkedAudio, enter, gone]
  | interrupted pieces detail => simp [chunkedAudio, enter]
  | exited pieces returncode stderr =>
      unfold chunkedAudio enter
      by_cases success : returncode ≠ 0
      · simp [success, gone]
      · by_cases none : sortedChunks (write (workDir.getD .empty) pieces) = []
        · simp [success, none, gone]
        · simp [success, none, gone]

/-- The pieces are the current ones and the directory goes exactly when nothing stale matches the
pattern, five digits suffice, and neither the run nor the removal ends in a way that the source does
not handle. -/
theorem exact_iff_clean :
    Exact source chunkDurationSeconds removes workDir run ↔ Clean removes workDir run := by
  constructor
  · intro exact_
    have left := (left_chunkedAudio _).mp (exact_.gone fun _ _ => .ok ())
    refine ⟨fun pieces stderr ran some_ => ?_, left.1, left.2⟩
    obtain ⟨entries, dir, entered, yields⟩ := exact_.pieces pieces stderr ran some_
    rw [ran, enter_exited some_] at entered
    cases entered
    exact sortedChunks_write.mp (yields_indexed.mp yields).1
  · intro clean
    refine ⟨fun pieces stderr ran some_ => ?_, fun block =>
      (left_chunkedAudio block).mpr ⟨clean.caught, clean.removed⟩⟩
    have free := clean.fresh pieces stderr ran some_
    subst ran
    refine ⟨_, _, enter_exited some_ stderr, ?_⟩
    apply yields_indexed.mpr
    refine ⟨sortedChunks_write.mpr free, fun i lt => ?_⟩
    rw [get?_write _ free.2 lt]
    rfl

end Block

/-- A worker is killed after three pieces; the next recording has two. -/
theorem stale_piece_yielded :
    ¬Exact (.prepared 1) 30 true (some (write .empty [[1], [2], [3]])) (.exited [[4], [5]] 0 []) := by
  intro exact_
  obtain ⟨entries, dir, entered, yields⟩ := exact_.pieces _ [] rfl (by simp)
  rw [enter_exited (by simp)] at entered
  cases entered
  have free := (sortedChunks_write.mp (yields_indexed.mp yields).1).1
  have third : ∃ file ∈ (write .empty [[1], [2], [3]]).rows, file.name = chunkName 2 :=
    name_written.mpr (.inr ⟨2, by simp, rfl⟩)
  obtain ⟨file, member, same⟩ := third
  obtain ⟨i, lt, overwritten⟩ := free file member (same ▸ isChunk_chunkName 2)
  rw [same] at overwritten
  have two : i < 2 := lt
  have : 2 = i := chunkName_inj (by decide) (by unfold numbered; omega) overwritten
  omega

end Kaeyris.AudioChunks
