import Kaeyris.Jobs.Effects
import Kaeyris.Logic
import Kaeyris.Lib.Decimals

/-!
# Cutting a recording into pieces

`chunked_audio` of `audio.py`. ffmpeg writes the pieces into a work directory of the session, and
their list is read back from there by name.
-/

namespace Kaeyris.AudioChunks
open Lib Jobs

structure WorkFile where
  name : Text
  content : Bytes
  deriving DecidableEq

abbrev WorkDir := Table Text WorkFile WorkFile.name

/-- How `subprocess.run` ends, and the pieces that ffmpeg has written by then. -/
inductive Run
  | fileNotFound
  | subprocessError (pieces : List Bytes) (detail : String)
  -- Any other exception, as the one that RQ raises when the time of the job is over.
  | interrupted (pieces : List Bytes) (detail : String)
  | exited (pieces : List Bytes) (returncode : Int) (stderr : Text)

def stem : Text := "chunk_".toList

def extension : Text := ".wav".toList

def chunkName (index : Nat) : Text := stem ++ Decimals.zeroPadded 5 index ++ extension

def write (dir : WorkDir) (pieces : List Bytes) : WorkDir :=
  pieces.zipIdx.foldl (fun dir piece => dir.put ⟨chunkName piece.2, piece.1⟩) dir

def isChunk (name : Text) : Bool :=
  stem.isPrefixOf name && extension.isSuffixOf (name.drop stem.length)

def sortedChunks (dir : WorkDir) : List Text :=
  ((dir.rows.map WorkFile.name).filter isChunk).insertionSort fun a b => a ≤ b

def indexed (chunkDurationSeconds : Int) (chunks : List Text) : List (ℚ × Text) :=
  chunks.mapIdx fun index chunk => ((index * chunkDurationSeconds : Int), chunk)

/-- `shutil.rmtree(work_dir, ignore_errors=True)`: nobody learns whether it `removes`. -/
def rmtree (removes : Bool) (dir : WorkDir) : Option WorkDir := if removes then none else some dir

/-- Up to the `yield`: what is yielded and the directory then, or an exception and what it leaves of
the directory. -/
def enter (source : AudioPath) (chunkDurationSeconds : Int) (removes : Bool)
    (workDir : Option WorkDir) (run : Run) :
    Except (Exn × Option WorkDir) (List (ℚ × Text) × WorkDir) :=
  let made := workDir.getD .empty
  match run with
  | .fileNotFound => .error (.audioChunking
      "ffmpeg binary not found on PATH. Install ffmpeg in the worker image (apt-get install ffmpeg).",
      rmtree removes made)
  | .subprocessError pieces detail =>
      .error (.audioChunking s!"ffmpeg invocation failed: {detail}",
        rmtree removes (write made pieces))
  | .interrupted pieces detail => .error (.other detail, some (write made pieces))
  | .exited pieces returncode stderr =>
      let written := write made pieces
      if returncode ≠ 0 then
        .error (.audioChunking
          s!"ffmpeg exited with code {returncode}: {String.ofList stderr.strip}",
          rmtree removes written)
      else
        let chunks := sortedChunks written
        if chunks = [] then
          .error (.audioChunking s!"ffmpeg produced no chunks for {repr source}.",
            rmtree removes written)
        else .ok (indexed chunkDurationSeconds chunks, written)

/-- A `with` block over `chunked_audio`, and what is left of the directory after it. -/
def chunkedAudio {α : Type} (source : AudioPath) (chunkDurationSeconds : Int) (removes : Bool)
    (workDir : Option WorkDir) (run : Run) (block : List (ℚ × Text) → WorkDir → Except Exn α) :
    Except Exn α × Option WorkDir :=
  match enter source chunkDurationSeconds removes workDir run with
  | .error (exn, left) => (.error exn, left)
  | .ok (pieces, dir) => (block pieces dir, rmtree removes dir)

end Kaeyris.AudioChunks
