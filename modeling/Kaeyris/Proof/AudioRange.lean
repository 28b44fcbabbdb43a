import Kaeyris.AudioRange
import Kaeyris.Proof.Requests

/-!
# Byte ranges of the audio

A range that the parser returns lies in the file, and the pieces that are streamed are its bytes.
On the texts of the grammar the parser intersects with the file; `int` reads more than these.
-/

namespace Kaeyris.Proof
open Lib Numerals AudioRange

/-! ## The grammar -/

/-- A single range: `first-last`, `first-` or `-length`. -/
inductive RangeSpec
  | closed (first last : Text)
  | openEnded (first : Text)
  | suffix (length : Text)

namespace RangeSpec

def text : RangeSpec → Text
  | closed first last => first ++ '-' :: last
  | openEnded first => first ++ ['-']
  | suffix length => '-' :: length

def numerals : RangeSpec → List Text
  | closed first last => [first, last]
  | openEnded first => [first]
  | suffix length => [length]

def Wellformed (spec : RangeSpec) : Prop := ∀ s ∈ spec.numerals, Decimal s

/-- `int` takes no longer ones. -/
def Short (spec : RangeSpec) : Prop := ∀ s ∈ spec.numerals, s.length ≤ maxStrDigits

/-- The positions that are asked for; a suffix asks for the last bytes of the file. -/
def Requests (spec : RangeSpec) (size i : Nat) : Prop :=
  match spec with
  | closed first last => decimal first ≤ i ∧ i ≤ decimal last
  | openEnded first => decimal first ≤ i
  | suffix length => size ≤ i + min (decimal length) size

end RangeSpec

theorem readPieces_flatten (rest : Bytes) (remaining : Nat) :
    (readPieces rest remaining).flatten = rest.take remaining := by
  induction rest, remaining using readPieces.induct with
  | case1 rest => rw [readPieces, if_pos rfl, List.take_zero]; rfl
  | case2 rest remaining more chunk empty =>
      rw [readPieces, if_neg more, if_pos empty]
      have positive : min audioStreamChunkSize remaining ≠ 0 := by
        unfold audioStreamChunkSize
        omega
      rcases List.take_eq_nil_iff.mp empty with none | end_
      · exact (positive none).elim
      · rw [end_, List.take_nil]
        rfl
  | case3 rest remaining more chunk some_ ih =>
      rw [readPieces, if_neg more, if_neg some_, List.flatten_cons, ih]
      have split : rest = chunk ++ rest.drop chunk.length := by
        have front := List.prefix_iff_eq_append.mp (List.take_prefix (min audioStreamChunkSize remaining) rest)
        exact front.symm
      have short : chunk.length ≤ remaining := by
        simp only [chunk, List.length_take]
        omega
      conv_rhs => rw [split, List.take_append, List.take_of_length_le short]

theorem iterFileRange_flatten (content : Bytes) (start length : Nat) :
    (iterFileRange content start length).flatten = (content.drop start).take length :=
  readPieces_flatten _ _

/-! ## The parser -/

theorem split_dash {first : Text} (apart : '-' ∉ first) (last : Text) :
    (first ++ '-' :: last).takeWhile (· ≠ '-') = first ∧
      ((first ++ '-' :: last).dropWhile (· ≠ '-')).tail = last := by
  have other : ∀ c ∈ first, decide (c ≠ '-') = true := fun c member =>
    decide_eq_true fun same => apart (same ▸ member)
  constructor
  · rw [List.takeWhile_append_of_pos other]
    simp
  · rw [List.dropWhile_append_of_pos other]
    simp

theorem dash_unique {first first' last last' : Text} (apart : '-' ∉ first) (apart' : '-' ∉ first')
    (same : first ++ '-' :: last = first' ++ '-' :: last') : first = first' ∧ last = last' := by
  have parts := split_dash apart last
  have parts' := split_dash apart' last'
  rw [same] at parts
  exact ⟨parts.1.symm.trans parts'.1, parts.2.symm.trans parts'.2⟩

theorem parseSpec_dash {first : Text} (apart : '-' ∉ first) (last : Text) (size : Int) :
    parseSpec (first ++ '-' :: last) size =
      if ',' ∈ first ++ '-' :: last then .error invalidRange
      else (bounds first last size).bind (clamp size) := by
  have hyphen : '-' ∈ first ++ '-' :: last := by simp
  obtain ⟨before, after⟩ := split_dash apart last
  unfold parseSpec
  simp only [before, after, hyphen, not_true_eq_false, or_false]

theorem parseSpec_dashless {rangeSpec : Text} (dash : '-' ∉ rangeSpec) (size : Int) :
    parseSpec rangeSpec size = .error invalidRange := by
  simp [parseSpec, dash]

/-- What the texts around the first hyphen must be for the parser to find a range in the file. -/
def Satisfiable (first last : Text) (size : Int) : Prop :=
  if first = [] then ∃ length, int last = some length ∧ 0 < length
  else ∃ start, int first = some start ∧ 0 ≤ start ∧ start < size ∧
    (last = [] ∨ ∃ end_, int last = some end_ ∧ start ≤ end_)

theorem clamp_cases (size : Int) (range : Int × Int) :
    (0 ≤ range.1 ∧ range.1 < size ∧ range.1 ≤ range.2 ∧
        clamp size range = .ok (some (range.1, min range.2 (size - 1)))) ∨
      ((range.1 < 0 ∨ size ≤ range.1 ∨ range.2 < range.1) ∧
        clamp size range = .error invalidRange) := by
  by_cases outside : range.1 < 0 ∨ size ≤ range.1 ∨ range.2 < range.1
  · exact .inr ⟨outside, if_pos outside⟩
  · exact .inl ⟨by omega, by omega, by omega, if_neg outside⟩

theorem bounds_suffix {last : Text} (length : Int) (read : int last = some length)
    (positive : 0 < length) (size : Int) :
    bounds [] last size = .ok (max (size - length) 0, size - 1) := by
  simp [bounds, read, not_le.mpr positive]

theorem bounds_pair {first last : Text} (some_ : first ≠ []) {start end_ : Int} {size : Int}
    (read : int first = some start)
    (until_ : (if last = [] then some (size - 1) else int last) = some end_) :
    bounds first last size = .ok (start, end_) := by
  simp only [bounds, if_neg some_, read, until_]

theorem bounds_cases (first last : Text) {size : Int} (positive : 0 < size) :
    (∃ start end_, (bounds first last size).bind (clamp size) = .ok (some (start, end_)) ∧
        0 ≤ start ∧ start ≤ end_ ∧ end_ < size ∧ Satisfiable first last size) ∨
      (bounds first last size).bind (clamp size) = .error invalidRange ∧
        ¬Satisfiable first last size := by
  by_cases empty : first = []
  · subst empty
    simp only [Satisfiable, if_pos]
    cases read : int last with
    | none => exact .inr ⟨by simp [bounds, read, Except.bind], by simp⟩
    | some length =>
        by_cases some_ : 0 < length
        · rw [bounds_suffix length read some_ size]
          rcases clamp_cases size (max (size - length) 0, size - 1) with
            ⟨low, high, ordered, same⟩ | ⟨outside, -⟩
          · exact .inl ⟨_, _, same, low, by dsimp only at *; omega, by dsimp only; omega, length, rfl,
              some_⟩
          · dsimp only at outside
            omega
        · exact .inr ⟨by simp [bounds, read, not_lt.mp some_, Except.bind], by simpa using some_⟩
  · simp only [Satisfiable, if_neg empty]
    cases read : int first with
    | none => exact .inr ⟨by simp [bounds, read, empty, Except.bind], by simp⟩
    | some start =>
        cases until_ : (if last = [] then some (size - 1) else int last) with
        | none =>
            refine .inr ⟨by simp only [bounds, if_neg empty, read, until_, Except.bind], ?_⟩
            rintro ⟨start', -, -, -, open_ | ⟨end_, last_, -⟩⟩
            · simp [open_] at until_
            · have closed : last ≠ [] := by
                rintro rfl
                simp at until_
              simp [closed, last_] at until_
        | some end_ =>
            rw [bounds_pair empty read until_]
            rcases clamp_cases size (start, end_) with ⟨low, high, ordered, same⟩ | ⟨outside, same⟩
            · refine .inl ⟨_, _, same, low, by dsimp only at *; omega, by dsimp only; omega, start, rfl,
                low, high, ?_⟩
              by_cases open_ : last = []
              · exact .inl open_
              · rw [if_neg open_] at until_
                exact .inr ⟨end_, until_, ordered⟩
            · refine .inr ⟨same, ?_⟩
              rintro ⟨start', same', low, high, ends⟩
              cases same'
              rcases ends with open_ | ⟨end', last_, ordered⟩
              · rw [if_pos open_] at until_
                cases until_
                dsimp only at outside
                omega
              · have closed : last ≠ [] := by
                  rintro rfl
                  cases last_
                rw [if_neg closed, last_] at until_
                cases until_
                dsimp only at outside
                omega

/-- The trimmed headers for which the parser finds a range. -/
def RangeAccepted (value : Text) (size : Int) : Prop :=
  0 < size ∧ ∃ spec first last, value = AudioRange.unit ++ spec ∧
    Text.strip spec = first ++ '-' :: last ∧ '-' ∉ first ∧ ',' ∉ Text.strip spec ∧
      Satisfiable first last size

theorem parseRangeHeader_blank {header : Text} (blank : header.Blank) (size : Int) :
    parseRangeHeader (some header) size = .ok none := by
  simp only [parseRangeHeader, Text.strip_eq_nil.mpr blank, if_pos]

theorem parseRangeHeader_unit {header spec : Text} {size : Int} (positive : 0 < size)
    (shape : header.strip = AudioRange.unit ++ spec) :
    parseRangeHeader (some header) size = parseSpec (Text.strip spec) size := by
  have some_ : AudioRange.unit ++ spec ≠ [] :=
    List.append_ne_nil_of_left_ne_nil (List.cons_ne_nil _ _) spec
  have prefix_ : AudioRange.unit.isPrefixOf (AudioRange.unit ++ spec) = true :=
    List.isPrefixOf_iff_prefix.mpr (List.prefix_append _ _)
  have passes : ¬(size ≤ 0) := not_le.mpr positive
  simp only [parseRangeHeader, shape, if_neg some_, prefix_, passes, decide_false, Bool.not_true,
    Bool.or_self, Bool.false_eq_true, if_false, List.drop_left]

theorem parseRangeHeader_cases {header : Text} (content : ¬header.Blank) (size : Int) :
    (∃ start end_, parseRangeHeader (some header) size = .ok (some (start, end_)) ∧
        0 ≤ start ∧ start ≤ end_ ∧ end_ < size ∧ RangeAccepted header.strip size) ∨
      parseRangeHeader (some header) size = .error invalidRange ∧
        ¬RangeAccepted header.strip size := by
  have some_ : header.strip ≠ [] := fun empty => content (Text.strip_eq_nil.mp empty)
  by_cases positive : 0 < size
  · by_cases prefix_ : AudioRange.unit <+: header.strip
    · obtain ⟨spec, shape⟩ := prefix_
      rw [parseRangeHeader_unit positive shape.symm]
      by_cases dash : '-' ∈ Text.strip spec
      · obtain ⟨first, last, parts, apart⟩ := List.eq_append_cons_of_mem dash
        rw [parts, parseSpec_dash apart]
        by_cases comma : ',' ∈ first ++ '-' :: last
        · rw [if_pos comma]
          refine .inr ⟨rfl, ?_⟩
          rintro ⟨-, spec', first', last', shape', -, -, free, -⟩
          obtain rfl := List.append_cancel_left (shape.trans shape')
          exact free (parts ▸ comma)
        · rw [if_neg comma]
          rcases bounds_cases first last positive with
            ⟨start, end_, same, low, ordered, high, found⟩ | ⟨same, missing⟩
          · exact .inl ⟨start, end_, same, low, ordered, high, positive, spec, first, last,
              shape.symm, parts, apart, parts ▸ comma, found⟩
          · refine .inr ⟨same, ?_⟩
            rintro ⟨-, spec', first', last', shape', parts', apart', -, found⟩
            obtain rfl := List.append_cancel_left (shape.trans shape')
            obtain ⟨rfl, rfl⟩ := dash_unique apart apart' (parts.symm.trans parts')
            exact missing found
      · rw [parseSpec_dashless dash]
        refine .inr ⟨rfl, ?_⟩
        rintro ⟨-, spec', first', last', shape', parts', -, -, -⟩
        obtain rfl := List.append_cancel_left (shape.trans shape')
        exact dash (parts' ▸ by simp)
    · refine .inr ⟨?_, ?_⟩
      · have other : AudioRange.unit.isPrefixOf header.strip = false := by
          simpa [← List.isPrefixOf_iff_prefix] using prefix_
        simp only [parseRangeHeader, if_neg some_, other, Bool.not_false, Bool.or_true, if_true]
      · rintro ⟨-, spec, -, -, shape, -⟩
        exact prefix_ ⟨spec, shape.symm⟩
  · refine .inr ⟨?_, fun accepted => positive accepted.1⟩
    simp only [parseRangeHeader, if_neg some_, not_lt.mp positive, decide_true, Bool.true_or, if_true]

/-! ## The texts of the grammar -/

theorem RangeSpec.Wellformed.chars {spec : RangeSpec} (wellformed : spec.Wellformed) :
    ∀ c ∈ spec.text, c.isDigit = true ∨ c = '-' := by
  intro c member
  cases spec with
  | closed first last =>
      rcases List.mem_append.mp member with front | back
      · exact .inl ((wellformed first (by simp [numerals])).2 c front)
      · rcases List.mem_cons.mp back with rfl | back
        · exact .inr rfl
        · exact .inl ((wellformed last (by simp [numerals])).2 c back)
  | openEnded first =>
      rcases List.mem_append.mp member with front | back
      · exact .inl ((wellformed first (by simp [numerals])).2 c front)
      · exact .inr (List.mem_singleton.mp back)
  | suffix length =>
      rcases List.mem_cons.mp member with rfl | back
      · exact .inr rfl
      · exact .inl ((wellformed length (by simp [numerals])).2 c back)

theorem isSpace_grammar {c : Char} (char : c.isDigit = true ∨ c = '-') : Text.isSpace c = false := by
  rcases char with digit | rfl
  · obtain ⟨low, high⟩ := isDigit_bounds digit
    unfold Text.isSpace
    grind
  · rfl

theorem strip_of_spaceless {s : Text} (spaceless : ∀ c ∈ s, Text.isSpace c = false) :
    s.strip = s := by
  apply Text.strip_of_trimmed
  constructor
  · intro c first
    simp [spaceless c (List.mem_of_mem_head? first)]
  · intro c last
    simp [spaceless c (List.mem_of_mem_getLast? last)]

theorem unit_eq : AudioRange.unit = ['b', 'y', 't', 'e', 's', '='] := by rfl

theorem isSpace_unit : ∀ c ∈ AudioRange.unit, Text.isSpace c = false := by
  rw [unit_eq]
  simp [Text.isSpace]

theorem dash_notMem {s : Text} (digits : ∀ c ∈ s, c.isDigit = true) : '-' ∉ s := fun member => by
  cases digits '-' member

theorem parseRangeHeader_text {spec : RangeSpec} (wellformed : spec.Wellformed) {size : Int}
    (positive : 0 < size) {first last : Text} (shape : spec.text = first ++ '-' :: last)
    (apart : '-' ∉ first) :
    parseRangeHeader (some (AudioRange.unit ++ spec.text)) size =
      (bounds first last size).bind (clamp size) := by
  have spaceless : ∀ c ∈ spec.text, Text.isSpace c = false := fun c member =>
    isSpace_grammar (wellformed.chars c member)
  have whole : ∀ c ∈ AudioRange.unit ++ spec.text, Text.isSpace c = false := by
    intro c member
    rcases List.mem_append.mp member with front | back
    · exact isSpace_unit c front
    · exact spaceless c back
  have comma : ',' ∉ spec.text := fun member => by
    rcases wellformed.chars ',' member with digit | same
    · cases digit
    · cases same
  rw [parseRangeHeader_unit positive (strip_of_spaceless whole), strip_of_spaceless spaceless, shape,
    parseSpec_dash apart, if_neg (shape ▸ comma)]

theorem clamp_requests {Requests : Nat → Prop} {size : Nat} {start end_ : Int} (low : 0 ≤ start)
    (asks : ∀ i : Nat, i < size → (Requests i ↔ start ≤ i ∧ i ≤ end_)) :
    (clamp size (start, end_) = .error invalidRange ∧ ∀ i < size, ¬Requests i) ∨
      ∃ first last : Nat, clamp size (start, end_) = .ok (some (first, last)) ∧
        first ≤ last ∧ last < size ∧ ∀ i, (first ≤ i ∧ i ≤ last) ↔ (i < size ∧ Requests i) := by
  rcases clamp_cases size (start, end_) with ⟨-, high, ordered, same⟩ | ⟨outside, same⟩
  · dsimp only at high ordered same
    obtain ⟨first, rfl⟩ := Int.eq_ofNat_of_zero_le low
    obtain ⟨last, cut⟩ := Int.eq_ofNat_of_zero_le (show 0 ≤ min end_ ((size : Int) - 1) by omega)
    refine .inr ⟨first, last, by rw [same, cut], by omega, by omega, fun i => ?_⟩
    constructor
    · rintro ⟨after, before⟩
      have inside : i < size := by omega
      exact ⟨inside, (asks i inside).mpr ⟨by omega, by omega⟩⟩
    · rintro ⟨inside, requested⟩
      obtain ⟨after, before⟩ := (asks i inside).mp requested
      exact ⟨by omega, by omega⟩
  · refine .inl ⟨same, fun i inside requested => ?_⟩
    obtain ⟨after, before⟩ := (asks i inside).mp requested
    dsimp only at outside
    omega

theorem header_content (spec : RangeSpec) : ¬Text.Blank (AudioRange.unit ++ spec.text) := by
  intro blank
  have first := blank 'b' (by simp [unit_eq])
  cases first

theorem parse_grammar {spec : RangeSpec} (wellformed : spec.Wellformed) (short : spec.Short)
    (size : Nat) :
    (parseRangeHeader (some (AudioRange.unit ++ spec.text)) size = .error invalidRange ∧
        ∀ i < size, ¬spec.Requests size i) ∨
      ∃ start last : Nat,
        parseRangeHeader (some (AudioRange.unit ++ spec.text)) size = .ok (some (start, last)) ∧
          start ≤ last ∧ last < size ∧
          ∀ i, (start ≤ i ∧ i ≤ last) ↔ (i < size ∧ spec.Requests size i) := by
  by_cases positive : 0 < size
  · have some_ : (0 : Int) < size := by exact_mod_cast positive
    have reads : ∀ s ∈ spec.numerals, int s = some (decimal s : Int) := fun s member => by
      rw [int_decimal (wellformed s member), if_pos (short s member)]
    cases spec with
    | closed first last =>
        have digits := wellformed first (by simp [RangeSpec.numerals])
        have digits' := wellformed last (by simp [RangeSpec.numerals])
        have read := reads first (by simp [RangeSpec.numerals])
        have read' := reads last (by simp [RangeSpec.numerals])
        rw [parseRangeHeader_text wellformed some_ rfl (dash_notMem digits.2),
          bounds_pair digits.1 read (by rw [if_neg digits'.1, read'])]
        exact clamp_requests (by omega) fun i _ => by simp [RangeSpec.Requests]
    | openEnded first =>
        have digits := wellformed first (by simp [RangeSpec.numerals])
        have read := reads first (by simp [RangeSpec.numerals])
        rw [parseRangeHeader_text wellformed some_ rfl (dash_notMem digits.2),
          bounds_pair digits.1 read (if_pos rfl)]
        refine clamp_requests (by omega) fun i inside => ?_
        simp only [RangeSpec.Requests]
        omega
    | suffix length =>
        have read := reads length (by simp [RangeSpec.numerals])
        have shape : (RangeSpec.suffix length).text = [] ++ '-' :: length := rfl
        rw [parseRangeHeader_text wellformed some_ shape (by simp)]
        by_cases more : 0 < decimal length
        · rw [bounds_suffix _ read (by omega)]
          refine clamp_requests (by omega) fun i inside => ?_
          simp only [RangeSpec.Requests]
          omega
        · have none : (decimal length : Int) ≤ 0 := by omega
          refine .inl ⟨by simp only [bounds, read, if_pos, none, Except.bind], fun i inside => ?_⟩
          simp only [RangeSpec.Requests]
          omega
  · rcases parseRangeHeader_cases (header_content spec) size with
      ⟨start, end_, -, low, ordered, high, -⟩ | ⟨same, -⟩
    · omega
    · exact .inl ⟨same, fun i inside => by omega⟩

theorem parse_long {spec : RangeSpec} (wellformed : spec.Wellformed) (long : ¬spec.Short)
    (size : Nat) :
    parseRangeHeader (some (AudioRange.unit ++ spec.text)) size = .error invalidRange := by
  obtain ⟨s, member, length⟩ : ∃ s ∈ spec.numerals, ¬s.length ≤ maxStrDigits := by
    simpa [RangeSpec.Short] using long
  have refused : int s = none := by rw [int_decimal (wellformed s member), if_neg length]
  by_cases positive : (0 : Int) < size
  · cases spec with
    | closed first last =>
        have digits := wellformed first (by simp [RangeSpec.numerals])
        have digits' := wellformed last (by simp [RangeSpec.numerals])
        rw [parseRangeHeader_text wellformed positive rfl (dash_notMem digits.2)]
        simp only [RangeSpec.numerals, List.mem_cons, List.not_mem_nil, or_false] at member
        rcases member with rfl | rfl
        · simp only [bounds, if_neg digits.1, refused, Except.bind]
        · simp only [bounds, if_neg digits.1, if_neg digits'.1, refused]
          cases int first <;> rfl
    | openEnded first =>
        obtain rfl := List.mem_singleton.mp member
        have digits := wellformed s (by simp [RangeSpec.numerals])
        rw [parseRangeHeader_text wellformed positive rfl (dash_notMem digits.2)]
        simp only [bounds, if_neg digits.1, refused, Except.bind]
    | suffix length =>
        obtain rfl := List.mem_singleton.mp member
        have shape : (RangeSpec.suffix s).text = [] ++ '-' :: s := rfl
        rw [parseRangeHeader_text wellformed positive shape (by simp)]
        simp only [bounds, if_pos, refused, Except.bind]
  · rcases parseRangeHeader_cases (header_content spec) size with
      ⟨start, end_, -, low, ordered, high, -⟩ | ⟨same, -⟩
    · omega
    · exact same

/-! ## Exact ranges -/

theorem parse_some {header : Option Text} {size start end_ : Int}
    (found : parseRangeHeader header size = .ok (some (start, end_))) :
    0 ≤ start ∧ start ≤ end_ ∧ end_ < size ∧
      ∃ text, header = some text ∧ RangeAccepted text.strip size := by
  cases header with
  | none => cases found
  | some text =>
      by_cases blank : text.Blank
      · rw [parseRangeHeader_blank blank] at found
        cases found
      · rcases parseRangeHeader_cases blank size with
          ⟨start', end', same, low, ordered, high, accepted⟩ | ⟨same, -⟩
        · rw [same] at found
          cases found
          exact ⟨low, ordered, high, text, rfl, accepted⟩
        · rw [same] at found
          cases found

theorem served_length {content : Bytes} {start end_ : Int} (low : 0 ≤ start) (ordered : start ≤ end_)
    (high : end_ < content.length) :
    (((iterFileRange content start.toNat (end_ - start + 1).toNat).flatten).length : Int) =
      end_ - start + 1 := by
  rw [iterFileRange_flatten, List.length_take, List.length_drop]
  omega

/-- A range that is found lies in the file and is streamed byte for byte, with its length and its
positions in the headers. A header of the grammar whose numerals `int` can read is answered with
what it asks for and the file has, and refused when that is nothing; `int` refuses longer ones. -/
theorem byte_ranges_exact :
    (∀ (content : Bytes) (header : Option Text) (start end_ : Int),
      parseRangeHeader header content.length = .ok (some (start, end_)) →
        0 ≤ start ∧ start ≤ end_ ∧ end_ < content.length ∧
          (iterFileRange content start.toNat (end_ - start + 1).toNat).flatten =
            (content.drop start.toNat).take (end_ - start + 1).toNat ∧
          (((iterFileRange content start.toNat (end_ - start + 1).toNat).flatten).length : Int) =
            end_ - start + 1) ∧
    (∀ (db : Database) (disk : Disk) (auth : AuthenticatedKey) (session : Uuid)
        (header : Option Text) (headers : Headers) (pieces : List Bytes),
      getAudio db disk auth session header = .ok (.partialContent headers pieces) →
        ∃ (row : Session) (content : Bytes) (start end_ : Int),
          sessionForAudioRead db session auth = some row ∧
          getAudioForSession db disk row.id = .ok content ∧
          parseRangeHeader header content.length = .ok (some (start, end_)) ∧
          pieces.flatten = (content.drop start.toNat).take (end_ - start + 1).toNat ∧
          headers = audioHeaders ++
            [("Content-Range", s!"bytes {start}-{end_}/{content.length}"),
              ("Content-Length", s!"{(pieces.flatten.length : Int)}")]) ∧
    ∀ (spec : RangeSpec) (size : Nat), spec.Wellformed →
      (spec.Short →
        (parseRangeHeader (some (AudioRange.unit ++ spec.text)) size = .error invalidRange ∧
            ∀ i < size, ¬spec.Requests size i) ∨
          ∃ start last : Nat,
            parseRangeHeader (some (AudioRange.unit ++ spec.text)) size = .ok (some (start, last)) ∧
              start ≤ last ∧ last < size ∧
              ∀ i, (start ≤ i ∧ i ≤ last) ↔ (i < size ∧ spec.Requests size i)) ∧
        (¬spec.Short →
          parseRangeHeader (some (AudioRange.unit ++ spec.text)) size = .error invalidRange) := by
  refine ⟨?_, ?_, fun spec size wellformed =>
    ⟨fun short => parse_grammar wellformed short size, fun long => parse_long wellformed long size⟩⟩
  · intro content header start end_ found
    obtain ⟨low, ordered, high, -⟩ := parse_some found
    exact ⟨low, ordered, high, iterFileRange_flatten _ _ _, served_length low ordered high⟩
  · intro db disk auth session header headers pieces served
    unfold getAudio at served
    split at served
    · cases served
    · rename_i row known
      split at served
      · cases served
      · rename_i content located
        split at served
        · cases served
        · cases served
        · rename_i start end_ found
          obtain ⟨low, ordered, high, -⟩ := parse_some found
          cases served
          refine ⟨row, content, start, end_, known, located, found, iterFileRange_flatten _ _ _, ?_⟩
          rw [served_length low ordered high]

def nines (n : Nat) : RangeSpec := .closed ['0'] (List.replicate (n + 1) '9')

theorem nines_wellformed (n : Nat) : (nines n).Wellformed := by
  intro s member
  simp only [nines, RangeSpec.numerals, List.mem_cons, List.not_mem_nil, or_false] at member
  rcases member with rfl | rfl
  · exact ⟨by simp, by simp⟩
  · refine ⟨by simp [List.replicate_succ], fun c inside => ?_⟩
    rw [List.eq_of_mem_replicate inside]
    rfl

theorem nines_long : ¬(nines 4300).Short := by
  intro short
  have bound := short (List.replicate 4301 '9') (.tail _ (.head _))
  rw [List.length_replicate] at bound
  exact absurd bound (by decide)

def heardSession : Session where
  id := 1
  gmKeyId := 7
  campaignId := none
  state := .audioUploaded
  transcriptionMode := .diarised
  campaignContext := none
  editedTranscriptMd := none
  currentJobId := none

def heardDatabase : Database :=
  { Database.empty with
    sessions := ⟨[heardSession], by decide⟩
    audioSources := ⟨[⟨1, .prepared 1, [], 3, none, none⟩], by decide⟩ }

theorem byte_ranges_exact_suffix :
    (∃ headers, getAudio heardDatabase (fun _ => some [7, 8, 9]) ⟨7, .apiKey, none⟩ 1
        (some "bytes=-2".toList) = .ok (.partialContent headers (iterFileRange [7, 8, 9] 1 2)) ∧
      ∃ (content : Bytes) (start end_ : Int),
        parseRangeHeader (some "bytes=-2".toList) content.length = .ok (some (start, end_)) ∧
        (iterFileRange [7, 8, 9] 1 2).flatten =
          (content.drop start.toNat).take (end_ - start + 1).toNat) ∧
    (iterFileRange [7, 8, 9] 1 2).flatten = [8, 9] ∧
    (∃ start last : Nat, last < 3 ∧
      parseRangeHeader (some "bytes=1-3".toList) 3 = .ok (some (start, last)) ∧
      ∀ i, (start ≤ i ∧ i ≤ last) ↔ (i < 3 ∧ 1 ≤ i ∧ i ≤ 3)) ∧
    parseRangeHeader (some (AudioRange.unit ++ (nines 4300).text)) 3 = .error invalidRange := by
  have found : parseRangeHeader (some "bytes=-2".toList) ([7, 8, 9] : Bytes).length =
      .ok (some (1, 2)) := by rfl
  obtain ⟨headers, served⟩ : ∃ headers, getAudio heardDatabase (fun _ => some [7, 8, 9])
      ⟨7, .apiKey, none⟩ 1 (some "bytes=-2".toList) =
        .ok (.partialContent headers (iterFileRange [7, 8, 9] 1 2)) := ⟨_, rfl⟩
  refine ⟨⟨headers, served, ?_⟩, (byte_ranges_exact.1 [7, 8, 9] _ 1 2 found).2.2.2.1, ?_,
    (byte_ranges_exact.2.2 (nines 4300) 3 (nines_wellformed 4300)).2 nines_long⟩
  · obtain ⟨_, content, start, end_, -, -, parsed, bytes, -⟩ :=
      byte_ranges_exact.2.1 _ _ _ _ _ _ _ served
    exact ⟨content, start, end_, parsed, bytes⟩
  · have numerals : ∀ s ∈ (RangeSpec.closed ['1'] ['3']).numerals, s = ['1'] ∨ s = ['3'] := by
      simp [RangeSpec.numerals]
    have wellformed : (RangeSpec.closed ['1'] ['3']).Wellformed := by
      intro s member
      rcases numerals s member with rfl | rfl <;> exact ⟨by simp, by simp⟩
    have short : (RangeSpec.closed ['1'] ['3']).Short := by
      intro s member
      rcases numerals s member with rfl | rfl <;> decide
    rcases (byte_ranges_exact.2.2 _ 3 wellformed).1 short with
      ⟨-, none⟩ | ⟨start, last, parsed, -, inside, exact_⟩
    · exact (none 1 (by decide) ⟨by decide, by decide⟩).elim
    · exact ⟨start, last, inside, parsed, exact_⟩

/-- A last position of 4301 digits is beyond the end of every file, and `int` refuses it. -/
theorem last_position_too_long :
    ¬∀ (spec : RangeSpec) (size : Nat), spec.Wellformed →
      (parseRangeHeader (some (AudioRange.unit ++ spec.text)) size = .error invalidRange ↔
        ∀ i < size, ¬spec.Requests size i) := by
  intro exact_
  have wellformed := nines_wellformed 4300
  exact (exact_ _ 1 wellformed).mp (parse_long wellformed nines_long 1) 0 Nat.zero_lt_one
    ⟨le_rfl, Nat.zero_le _⟩

/-! ## Exactly the grammar -/

def InGrammar (value : Text) : Prop :=
  ∃ spec : RangeSpec, spec.Wellformed ∧ value = AudioRange.unit ++ spec.text

/-- A range only for a header of the grammar, `None` for a blank or missing header, and the error
for every other one. -/
def KeepsToGrammar (header : Option Text) (size : Int) : Prop :=
  match header with
  | none => parseRangeHeader none size = .ok none
  | some text =>
      (text.Blank → parseRangeHeader (some text) size = .ok none) ∧
        (∀ range, parseRangeHeader (some text) size = .ok (some range) → InGrammar text.strip) ∧
          (¬text.Blank → ¬InGrammar text.strip →
            parseRangeHeader (some text) size = .error invalidRange)

/-- The parser keeps to the grammar except where `int` makes sense of two texts that are no digits
and what they ask for is in the file. -/
theorem range_grammar_iff (header : Option Text) (size : Int) :
    KeepsToGrammar header size ↔
      ∀ text, header = some text → InGrammar text.strip ∨ ¬RangeAccepted text.strip size := by
  cases header with
  | none =>
      constructor
      · intro _ text missing
        cases missing
      · exact fun _ => rfl
  | some text =>
      constructor
      · rintro ⟨-, ranges, -⟩ text' same
        cases same
        by_contra strange
        obtain ⟨outside, tolerated⟩ := not_or.mp strange
        have accepted := not_not.mp tolerated
        have content : ¬text.Blank := by
          intro blank
          obtain ⟨-, spec, first, last, shape, -⟩ := accepted
          rw [Text.strip_eq_nil.mpr blank] at shape
          simp [unit_eq] at shape
        rcases parseRangeHeader_cases content size with ⟨start, end_, same, -⟩ | ⟨-, refused⟩
        · exact outside (ranges _ same)
        · exact refused accepted
      · intro meets
        have either := meets text rfl
        refine ⟨fun blank => parseRangeHeader_blank blank size, ?_, ?_⟩
        · rintro ⟨start, end_⟩ found
          obtain ⟨-, -, -, text', same, accepted⟩ := parse_some found
          cases same
          exact either.resolve_right (not_not.mpr accepted)
        · intro content outside
          rcases parseRangeHeader_cases content size with ⟨-, -, -, -, -, -, accepted⟩ | ⟨same, -⟩
          · exact absurd accepted (either.resolve_left outside)
          · exact same

theorem signed_range_accepted : ¬KeepsToGrammar (some "bytes=+5-9".toList) 10 := by
  rintro ⟨-, ranges, -⟩
  have found : parseRangeHeader (some "bytes=+5-9".toList) 10 = .ok (some (5, 9)) := by rfl
  obtain ⟨spec, wellformed, shape⟩ := ranges (5, 9) found
  have trimmed : Text.strip "bytes=+5-9".toList = AudioRange.unit ++ "+5-9".toList := by rfl
  have sign : '+' ∈ spec.text := by
    rw [← List.append_cancel_left (trimmed.symm.trans shape)]
    simp
  rcases wellformed.chars '+' sign with digit | same
  · cases digit
  · cases same

end Kaeyris.Proof
