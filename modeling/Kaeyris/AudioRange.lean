import Kaeyris.Numerals
import Kaeyris.Router

/-!
# Reading the audio of a session

`get_audio` of `batch/router.py`: the whole file, or the byte range that the `Range` header asks
for, streamed in pieces.
-/

namespace Kaeyris.AudioRange
open Lib Numerals

def audioStreamChunkSize : Nat := 64 * 1024

def invalidRange : String := "Invalid byte range."

def bounds (startRaw endRaw : Text) (sizeBytes : Int) : Except String (Int × Int) :=
  if startRaw = [] then
    match int endRaw with
    | none => .error invalidRange
    | some suffixLength =>
        if suffixLength ≤ 0 then .error invalidRange
        else .ok (max (sizeBytes - suffixLength) 0, sizeBytes - 1)
  else
    match int startRaw, if endRaw = [] then some (sizeBytes - 1) else int endRaw with
    | some start, some end_ => .ok (start, end_)
    | _, _ => .error invalidRange

def clamp (sizeBytes : Int) (range : Int × Int) : Except String (Option (Int × Int)) :=
  if range.1 < 0 ∨ sizeBytes ≤ range.1 ∨ range.2 < range.1 then .error invalidRange
  else .ok (some (range.1, min range.2 (sizeBytes - 1)))

def parseSpec (rangeSpec : Text) (sizeBytes : Int) : Except String (Option (Int × Int)) :=
  if ',' ∈ rangeSpec ∨ '-' ∉ rangeSpec then .error invalidRange
  else
    let startRaw := rangeSpec.takeWhile (· ≠ '-')
    let endRaw := (rangeSpec.dropWhile (· ≠ '-')).tail
    (bounds startRaw endRaw sizeBytes).bind (clamp sizeBytes)

def unit : Text := "bytes=".toList

def parseRangeHeader (rangeHeader : Option Text) (sizeBytes : Int) :
    Except String (Option (Int × Int)) :=
  match rangeHeader with
  | none => .ok none
  | some header =>
      let value := header.strip
      if value = [] then .ok none
      else if sizeBytes ≤ 0 || !unit.isPrefixOf value then .error invalidRange
      else parseSpec (Text.strip (value.drop unit.length)) sizeBytes

/-- The loop of `_iter_file_range` on what is left of the file; `read` at its end gives nothing. -/
def readPieces (rest : Bytes) (remaining : Nat) : List Bytes :=
  if remaining = 0 then []
  else
    let chunk := rest.take (min audioStreamChunkSize remaining)
    if chunk = [] then [] else chunk :: readPieces (rest.drop chunk.length) (remaining - chunk.length)
termination_by remaining
decreasing_by
  rename_i more found
  exact Nat.sub_lt (Nat.pos_of_ne_zero more) (List.length_pos_iff.mpr found)

def iterFileRange (content : Bytes) (start length : Nat) : List Bytes :=
  readPieces (content.drop start) length

def sessionForAudioRead (db : Database) (session : Uuid) (auth : AuthenticatedKey) :
    Option Session :=
  match resolveSessionForGm db session auth false with
  | some row => some row
  | none =>
      match auth.source, auth.userId with
      | .webSession, some user => do
          let row ← db.sessions.get? session
          let campaign ← row.campaignId
          let _ ← CampaignRepository.getMembership db user campaign
          return row
      | _, _ => none

/-- `get_audio_for_session`, with the content of the file it finds. -/
def getAudioForSession (db : Database) (disk : Disk) (session : Uuid) :
    Except String Bytes :=
  match SessionRepository.getAudioSource db session with
  | none => .error s!"Session {session} has no audio source on record."
  | some audio =>
      if audio.purgedAt.isSome then .error s!"Session {session} audio is purged."
      else
        match disk audio.path with
        | none => .error s!"Session {session} audio file is missing on disk."
        | some content => .ok content

abbrev Headers := List (String × String)

def audioHeaders : Headers :=
  [("Accept-Ranges", "bytes"), ("Cache-Control", "private, max-age=3600")]

inductive AudioResponse
  | whole (headers : Headers) (content : Bytes)
  | partialContent (headers : Headers) (pieces : List Bytes)

structure AudioFailure where
  error : AppError
  headers : Headers

def getAudio (db : Database) (disk : Disk) (auth : AuthenticatedKey)
    (session : Uuid) (rangeHeader : Option Text) : Except AudioFailure AudioResponse :=
  match sessionForAudioRead db session auth with
  | none => .error ⟨Router.sessionNotFound session, []⟩
  | some row =>
      match getAudioForSession db disk row.id with
      | .error detail => .error ⟨⟨404, "audio-not-found", detail⟩, []⟩
      | .ok content =>
          match parseRangeHeader rangeHeader content.length with
          | .error detail =>
              .error ⟨⟨416, "audio-range-not-satisfiable", detail⟩,
                [("Content-Range", s!"bytes */{content.length}")]⟩
          | .ok none => .ok (.whole audioHeaders content)
          | .ok (some (start, end_)) =>
              let length := end_ - start + 1
              .ok (.partialContent
                (audioHeaders ++
                  [("Content-Range", s!"bytes {start}-{end_}/{content.length}"),
                    ("Content-Length", s!"{length}")])
                (iterFileRange content start.toNat length.toNat))

end Kaeyris.AudioRange
