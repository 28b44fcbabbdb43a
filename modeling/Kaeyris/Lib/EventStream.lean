import Mathlib.Data.List.TakeWhile
import Mathlib.Tactic.Common

/-!
# Event streams

The decoding of `text/event-stream`: lines, each of them a comment or a field, and empty lines that
dispatch an event with what the fields since the last one said.
-/

namespace Kaeyris.Lib.EventStream

structure Event where
  eventType : List Char
  data : List Char
  lastEventId : List Char
  deriving DecidableEq

structure Buffers where
  eventType : List Char
  data : List Char
  lastEventId : List Char

/-! ## Decoding -/

/-- A line ends at CR LF, LF or CR; a last line that does not end is discarded. -/
def linesFrom (line : List Char) : List Char → List (List Char)
  | [] => []
  | '\r' :: '\n' :: rest => line :: linesFrom [] rest
  | '\r' :: rest => line :: linesFrom [] rest
  | '\n' :: rest => line :: linesFrom [] rest
  | c :: rest => linesFrom (line ++ [c]) rest

def dropSpace : List Char → List Char
  | ' ' :: rest => rest
  | value => value

/-- The field `retry` only says how long to wait before connecting again. -/
def Buffers.field (buffers : Buffers) (name value : List Char) : Buffers :=
  if name = "event".toList then { buffers with eventType := value }
  else if name = "data".toList then { buffers with data := buffers.data ++ value ++ ['\n'] }
  else if name = "id".toList ∧ '\x00' ∉ value then { buffers with lastEventId := value }
  else buffers

/-- A line that begins with a colon is a comment. -/
def Buffers.line (buffers : Buffers) (line : List Char) : Buffers :=
  let name := line.takeWhile (· ≠ ':')
  let value := dropSpace ((line.dropWhile (· ≠ ':')).drop 1)
  if line.head? = some ':' then buffers else buffers.field name value

/-- Without data nothing is dispatched. Otherwise the newline after the last datum goes. -/
def Buffers.dispatch (buffers : Buffers) : Option Event :=
  if buffers.data = [] then none
  else
    let eventType := if buffers.eventType = [] then "message".toList else buffers.eventType
    some ⟨eventType, buffers.data.dropLast, buffers.lastEventId⟩

def fresh (lastEventId : List Char) : Buffers := ⟨[], [], lastEventId⟩

def events (buffers : Buffers) : List (List Char) → List Event
  | [] => []
  | line :: lines =>
      if line = [] then buffers.dispatch.toList ++ events (fresh buffers.lastEventId) lines
      else events (buffers.line line) lines

def dropBom : List Char → List Char
  | '\ufeff' :: rest => rest
  | s => s

def decode (s : List Char) : List Event := events (fresh []) (linesFrom [] (dropBom s))

/-! ## Frames -/

def OneLine (s : List Char) : Prop := '\n' ∉ s ∧ '\r' ∉ s

instance (s : List Char) : Decidable (OneLine s) := inferInstanceAs (Decidable (_ ∧ _))

def eventMark : List Char := "event: ".toList

def dataMark : List Char := "data: ".toList

def frame (eventType data : List Char) : List Char :=
  eventMark ++ eventType ++ '\n' :: (dataMark ++ data ++ ['\n', '\n'])

theorem linesFrom_oneLine {s : List Char} (one : OneLine s) (line rest : List Char) :
    linesFrom line (s ++ rest) = linesFrom (line ++ s) rest := by
  induction s generalizing line with
  | nil => simp
  | cons c s ih =>
      obtain ⟨noLf, noCr⟩ := one
      simp only [List.mem_cons, not_or] at noLf noCr
      rw [List.cons_append, linesFrom, ih ⟨noLf.2, noCr.2⟩]
      · simp
      · intro later same
        exact absurd same.symm noCr.1
      · exact fun same => noCr.1 same.symm
      · exact fun same => noLf.1 same.symm

theorem linesFrom_lf (line rest : List Char) :
    linesFrom line ('\n' :: rest) = line :: linesFrom [] rest := by
  rw [linesFrom]

theorem OneLine.append {s t : List Char} (first : OneLine s) (second : OneLine t) :
    OneLine (s ++ t) := by
  simp only [OneLine, List.mem_append, not_or]
  exact ⟨⟨first.1, second.1⟩, ⟨first.2, second.2⟩⟩

theorem lines_cons {s : List Char} (one : OneLine s) (rest : List Char) :
    linesFrom [] (s ++ '\n' :: rest) = s :: linesFrom [] rest := by
  rw [linesFrom_oneLine one, linesFrom_lf, List.nil_append]

theorem oneLine_eventMark : OneLine eventMark := by decide

theorem oneLine_dataMark : OneLine dataMark := by decide

theorem lines_frame {eventType data : List Char} (typeOne : OneLine eventType)
    (dataOne : OneLine data) (rest : List Char) :
    linesFrom [] (frame eventType data ++ rest) =
      (eventMark ++ eventType) :: (dataMark ++ data) :: [] :: linesFrom [] rest := by
  have shape : frame eventType data ++ rest = (eventMark ++ eventType) ++
      '\n' :: ((dataMark ++ data) ++ '\n' :: '\n' :: rest) := by
    simp [frame]
  rw [shape, lines_cons (oneLine_eventMark.append typeOne),
    lines_cons (oneLine_dataMark.append dataOne), linesFrom_lf]

theorem line_event (buffers : Buffers) (value : List Char) :
    buffers.line (eventMark ++ value) = { buffers with eventType := value } := by
  have name : (eventMark ++ value).takeWhile (· ≠ ':') = "event".toList := rfl
  have rest : dropSpace (((eventMark ++ value).dropWhile (· ≠ ':')).drop 1) = value := rfl
  have first : (eventMark ++ value).head? = some 'e' := rfl
  rw [Buffers.line, name, rest, first]
  exact (if_neg (by decide)).trans (if_pos rfl)

theorem line_data (buffers : Buffers) (value : List Char) :
    buffers.line (dataMark ++ value) =
      { buffers with data := buffers.data ++ value ++ ['\n'] } := by
  have name : (dataMark ++ value).takeWhile (· ≠ ':') = "data".toList := rfl
  have rest : dropSpace (((dataMark ++ value).dropWhile (· ≠ ':')).drop 1) = value := rfl
  have first : (dataMark ++ value).head? = some 'd' := rfl
  have other : "data".toList ≠ "event".toList := by decide
  rw [Buffers.line, name, rest, first]
  exact (if_neg (by decide)).trans ((if_neg other).trans (if_pos rfl))

theorem events_frame {eventType data : List Char} (named : eventType ≠ [])
    (typeOne : OneLine eventType) (dataOne : OneLine data) (lastEventId rest : List Char) :
    events (fresh lastEventId) (linesFrom [] (frame eventType data ++ rest)) =
      ⟨eventType, data, lastEventId⟩ :: events (fresh lastEventId) (linesFrom [] rest) := by
  have first : eventMark ++ eventType ≠ [] := List.cons_ne_nil _ _
  have second : dataMark ++ data ≠ [] := List.cons_ne_nil _ _
  rw [lines_frame typeOne dataOne, events, if_neg first, line_event, events, if_neg second,
    line_data, events, if_pos rfl]
  simp [Buffers.dispatch, fresh, named]

theorem dropBom_frames (eventType : List Char) (data : List (List Char)) :
    dropBom (data.flatMap (frame eventType)) = data.flatMap (frame eventType) := by
  cases data with
  | nil => rfl
  | cons first data => rfl

theorem decode_frames {eventType : List Char} (named : eventType ≠ [])
    (typeOne : OneLine eventType) {data : List (List Char)} (dataOne : ∀ s ∈ data, OneLine s) :
    decode (data.flatMap (frame eventType)) = data.map fun s => ⟨eventType, s, []⟩ := by
  rw [decode, dropBom_frames]
  induction data with
  | nil => rfl
  | cons first data ih =>
      rw [List.forall_mem_cons] at dataOne
      rw [List.flatMap_cons, events_frame named typeOne dataOne.1, ih dataOne.2, List.map_cons]

end Kaeyris.Lib.EventStream
