import Kaeyris.Jobs.Effects
import Kaeyris.TextChunker

/-!
# The transcription job

`_transcribe_session`: three kinds of transactions around a long phase without one. `reports` tells
whether a progress reporter was passed.
-/

namespace Kaeyris.Jobs
open Lib

/-! ## State transitions -/

def markFailed (db : Database) (session : Uuid) (reason : Option String) : Database :=
  let current := (db.sessions.get? session).bind Session.currentJobId
  let db₁ := SessionRepository.updateState db session .transcriptionFailed
  match current with
  | none => db₁
  | some job =>
      { db₁ with
        jobs := db₁.jobs.update (fun row => row.id = job)
          fun row => { row with status := .failed, failureReason := reason } }

def markSessionFailed (session : Uuid) (reason : Option String) : JobBody Unit :=
  Process.atomically .markSessionFailed fun db => .ok ((), markFailed db session reason)

def restoreSessionState (session : Uuid) (state : SessionState) : JobBody Unit :=
  Process.atomically .restoreSessionState fun db =>
    .ok ((), SessionRepository.updateState db session state)

structure Started where
  path : AudioPath
  durationSeconds : Option Int
  mode : TranscriptionMode
  deriving DecidableEq

def beginTranscription (session : Uuid) (db : Database) : Except Exn (Started × Database) :=
  match db.sessions.get? session, SessionRepository.getAudioSource db session with
  | none, _ => .error (.permanentJob s!"Session {session} not found.")
  | some _, none => .error (.permanentJob s!"Session {session} has no audio source row.")
  | some row, some audio =>
      if audio.purgedAt.isSome then
        .error (.permanentJob s!"Session {session} audio already purged — cannot re-transcribe without a fresh upload.")
      else
        .ok (⟨audio.path, audio.durationSeconds, row.transcriptionMode⟩,
          SessionRepository.updateState db session .transcribing)

/-! ## Audio preparation -/

def isTransientRawAudioPath : AudioPath → Bool
  | .raw _ => true
  | .prepared _ => false

/-- Exchange the stored path for the prepared file; `false` when the audio row is gone. -/
def storePreparedAudio (session : Uuid) (prepared : PreparedAudioResult)
    (durationSeconds : Option Int) (db : Database) : Bool × Database :=
  match SessionRepository.updateAudioSourceFile db session prepared.path prepared.sha256
      prepared.sizeBytes durationSeconds with
  | some db' => (true, db')
  | none => (false, db)

/-- The source tells one exception of the reduction apart from all others. -/
def prepareRawAudio (session : Uuid) (source : AudioPath) : JobBody PreparedAudioResult :=
  tryCatch (ask (.prepareAudio source (.prepared session)))
    fun
      | .audioReduce detail => do
          tell (.cleanupTransientAudioDir session)
          markSessionFailed session (some s!"Audio reduce failed: {detail}")
          throw (.permanentJob s!"Audio reduce failed: {detail}")
      | other => throw other

def locateAudio (session : Uuid) (started : Started) : JobBody AudioPath := do
  let found : Bool ← ask (.pathExists started.path)
  if !found then
    markSessionFailed session none
    throw (.permanentJob s!"Audio file missing on disk: {repr started.path}")
  else if isTransientRawAudioPath started.path then
    let prepared ← prepareRawAudio session started.path
    let updated ← Process.atomically .updateAudio fun db =>
      .ok (storePreparedAudio session prepared started.durationSeconds db)
    if !updated then
      markSessionFailed session (some "Audio source row missing after preparation.")
      throw (.permanentJob s!"Session {session} has no audio source row after preparation.")
    else
      tell (.cleanupTransientAudioDir session)
      return prepared.path
  else return started.path

/-! ## Transcription proper -/

def report (reports : Bool) (phase : Phase) (percent : Option Int) : JobBody Unit :=
  if reports then tell (.report phase percent) else return ()

def onChunk (env : Environment) (reports : Bool) (done total : Nat) : JobBody Unit :=
  if total = 0 then return ()
  else report reports .transcribing (some (min 99 (env.percentOf done total)))

def TranscriptionResult.stitch (stitched : TranscriptionResult) (offset : ℚ)
    (piece : TranscriptionResult) : TranscriptionResult where
  segments := stitched.segments ++ piece.segments.map fun segment =>
    { segment with
      startSeconds := segment.startSeconds + offset
      endSeconds := segment.endSeconds + offset }
  language := Text.orElse (some piece.language) stitched.language
  modelUsed := Text.orElse (some piece.modelUsed) stitched.modelUsed
  provider := Text.orElse (some piece.provider) stitched.provider

def transcribePieces (env : Environment) (reports : Bool) (adapter : TranscriptionChoice)
    (languageHint : Option Text) (total : Nat) :
    Nat → TranscriptionResult → List (ℚ × Text) → JobBody TranscriptionResult
  | _, stitched, [] => return stitched
  | index, stitched, (offset, path) :: rest => do
      let piece : TranscriptionResult ← ask (.transcribe adapter index (.piece path) languageHint)
      onChunk env reports (index + 1) total
      transcribePieces env reports adapter languageHint total (index + 1)
        (stitched.stitch offset piece) rest

def transcribeWithOptionalChunking (env : Environment) (reports : Bool)
    (adapter : TranscriptionChoice) (path : AudioPath) (languageHint : Option Text)
    (chunkDurationSeconds : Int) : JobBody TranscriptionResult :=
  if chunkDurationSeconds ≤ 0 then
    ask (.transcribe adapter 0 (.stored path) languageHint)
  else do
    let pieces : List (ℚ × Text) ← ask (.chunkedAudio path chunkDurationSeconds)
    transcribePieces env reports adapter languageHint pieces.length 0 ⟨[], [], [], []⟩ pieces

def transcriptionFailed (session : Uuid) (reports : Bool) : Exn → JobBody TranscriptionResult
  | .transientTranscription detail => do
      restoreSessionState session .audioUploaded
      report reports .failed none
      throw (.transientJob detail)
  | .permanentTranscription detail => do
      markSessionFailed session none
      report reports .failed none
      throw (.permanentJob detail)
  | .audioChunking detail => do
      markSessionFailed session none
      report reports .failed none
      throw (.permanentJob s!"Audio chunking failed: {detail}")
  | other => throw other

/-! ## Step 3 -/

def fullText (result : TranscriptionResult) : Text :=
  Text.join [' '] ((result.segments.map fun segment => segment.text.strip).filter (· ≠ []))

def chunksOf (settings : Settings) (result : TranscriptionResult) : List Text :=
  TextChunker.chunkText (fullText result) settings.chunkMaxChars settings.chunkMaxChars_pos

/-- The draw of the chunks' ids, the default of their column; it cannot fail. -/
def drawChunkId : TranscriptionMode → JobBody Uuid
  | .nonDiarised => .call .chunkId fun
      | .ok drawn => .done drawn
      | .error _ => .done 0
  | .diarised => return 0

def persistOutput (settings : Settings) (session : Uuid) (mode : TranscriptionMode) (drawn : Uuid)
    (result : TranscriptionResult) (db : Database) : Except Exn (Unit × Database) :=
  match mode with
  | .nonDiarised =>
      match ChunkRepository.bulkCreateForSession db session (chunksOf settings result) drawn with
      | none => .error .integrity
      | some db' => .ok ((), SessionRepository.updateState db' session .transcribed)
  | .diarised =>
      let db' := TranscriptionRepository.upsert db session result.segments result.language
        result.modelUsed result.provider
      .ok ((), SessionRepository.updateState db' session .transcribed)

def storeOutput (env : Environment) (session : Uuid) (mode : TranscriptionMode)
    (result : TranscriptionResult) : JobBody Unit := do
  let drawn ← drawChunkId mode
  Process.atomically .persist (persistOutput env.settings session mode drawn result)

def transcribeSession (env : Environment) (session : Uuid) (reports : Bool) : JobBody Unit := do
  let started ← Process.atomically .begin (beginTranscription session)
  let path ← locateAudio session started
  let row ← loadSessionModelSettings session
  let adapter ← buildTranscriptionAdapterForUser env.settings row
  let chunkDuration := env.settings.transcriptionChunkDurationSeconds
  report reports (if 0 < chunkDuration then .reducing else .transcribing) (some 0)
  let hint := if env.settings.transcriptionLanguageHint = [] then none
    else some env.settings.transcriptionLanguageHint
  let result ← tryCatch
    (transcribeWithOptionalChunking env reports adapter path hint chunkDuration)
    (transcriptionFailed session reports)
  storeOutput env session started.mode result
  report reports .done (some 100)

end Kaeyris.Jobs
