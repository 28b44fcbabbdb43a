import Kaeyris.Lib.Rounding
import Kaeyris.Markdown

/-!
# Speaker turns

`_group_consecutive_speaker_segments` and `render_transcription_md` of `services/jdr/markdown.py`.
The segments are dicts in memory, which the former copies and assigns to.
-/

namespace Kaeyris

/-- One dict of `segments_json`, with times of type `ν`. -/
structure SpeakerSegment (ν : Type) where
  speakerLabel : Text
  startSeconds : ν
  endSeconds : ν
  text : Text
  deriving DecidableEq

def TranscriptionSegment.dict (segment : TranscriptionSegment) : SpeakerSegment ℚ :=
  ⟨segment.speakerLabel, segment.startSeconds, segment.endSeconds, segment.text⟩

namespace SpeakerTurns

section
variable {ν τ : Type} [Sub τ] [LT τ] [DecidableLT τ] (float : ν → Option τ) (maxGapSeconds : τ)

/-- The silence between two segments; `float` gives `none` where it raises an error. -/
def gap (last seg : SpeakerSegment ν) : τ :=
  match float seg.startSeconds, float last.endSeconds with
  | some start, some stop => start - stop
  | _, _ => maxGapSeconds

def sameTurn (last seg : SpeakerSegment ν) : Bool :=
  decide (seg.speakerLabel = last.speakerLabel) &&
    decide (gap float maxGapSeconds last seg < maxGapSeconds)

def extend (last seg : SpeakerSegment ν) : SpeakerSegment ν :=
  { last with
    endSeconds := seg.endSeconds
    text := Text.strip (Text.rstrip last.text ++ [' '] ++ Text.lstrip seg.text) }

/-- The dicts in memory. An address is a position. -/
abbrev Heap (ν : Type) := List (SpeakerSegment ν)

def copy (heap : Heap ν) (address : Nat) : Option (Heap ν × Nat) :=
  heap[address]?.map fun dict => (heap ++ [dict], heap.length)

def groupStep (state : Heap ν × List Nat) (address : Nat) : Option (Heap ν × List Nat) := do
  let (heap, out) := state
  let lastAddress ← out.getLast?
  let last ← heap[lastAddress]?
  let seg ← heap[address]?
  if sameTurn float maxGapSeconds last seg then
    return (heap.set lastAddress (extend last seg), out)
  else
    let (heap, fresh) ← copy heap address
    return (heap, out ++ [fresh])

/-- `_group_consecutive_speaker_segments`; `none` stands for an address that is not in memory. -/
def groupConsecutiveSpeakerSegments (heap : Heap ν) : List Nat → Option (Heap ν × List Nat)
  | [] => some (heap, [])
  | first :: rest => do
      let (heap, fresh) ← copy heap first
      rest.foldlM (groupStep float maxGapSeconds) (heap, [fresh])

def load (heap : Heap ν) (addresses : List Nat) : List (SpeakerSegment ν) :=
  addresses.filterMap fun address => heap[address]?

def grouped (segments : List (SpeakerSegment ν)) : List (SpeakerSegment ν) :=
  match groupConsecutiveSpeakerSegments float maxGapSeconds segments (List.range segments.length) with
  | some (heap, out) => load heap out
  | none => []

end

end SpeakerTurns

/-! ## The export -/

namespace Markdown
open Lib

def tenths (x : ℚ) : Int := roundHalfEven (x * 10)

/-- `f"{x:.1f}"`; a number that rounds to zero keeps its sign. -/
def fixedTenths (x : ℚ) : String :=
  let sign := if x < 0 then "-" else ""
  let n := (tenths x).natAbs
  s!"{sign}{n / 10}.{n % 10}"

def formatSpeaker (rawLabel : Text) (mapping : Option (List (Text × Text))) : Text :=
  match mapping.bind fun names => names.lookup rawLabel with
  | some name => name ++ " (".toList ++ rawLabel ++ ")".toList
  | none => rawLabel

def paragraph (mapping : Option (List (Text × Text))) (seg : SpeakerSegment ℚ) : List String :=
  let start := fixedTenths seg.startSeconds
  let stop := fixedTenths seg.endSeconds
  let display := String.ofList (formatSpeaker seg.speakerLabel mapping)
  let text := String.ofList (Text.strip seg.text)
  [s!"**[{start}s → {stop}s] {display}**", "", if text = "" then "_(silence)_" else text, ""]

def transcriptionLines (mapping : Option (List (Text × Text)))
    (groups : List (SpeakerSegment ℚ)) : List String :=
  if groups = [] then ["_(aucun segment)_", ""] else groups.flatMap (paragraph mapping)

def mergeGapSeconds : ℚ := 5

def renderTranscriptionMd (session : SessionPage) (transcription : Transcription)
    (mapping : Option (List (Text × Text))) (gapSeconds : ℚ) : String :=
  let groups := SpeakerTurns.grouped some gapSeconds
    (transcription.segmentsJson.map TranscriptionSegment.dict)
  let model := String.ofList transcription.modelUsed
  let provider := String.ofList transcription.provider
  let language := String.ofList transcription.language
  joinLines
    ([renderSessionHeader session, "## Transcription", ""] ++ transcriptionLines mapping groups ++
      ["---", "", s!"_Transcription produite par `{model}` ({provider}), langue `{language}`._"])

end Markdown

end Kaeyris
