import Kaeyris.Jobs.Effects
import Kaeyris.TextChunker

/-!
# The artifact jobs

`_generate_narrative`, `_generate_elements`, `_generate_povs` and `_generate_summary`: each reads
its source in one transaction, calls the language model without any, and writes in one.
-/

namespace Kaeyris.Jobs
open Lib

/-! ## The source text -/

def editedTranscriptSource (row : Session) : Option Text :=
  row.editedTranscriptMd.filter fun content => content.strip ≠ []

def text (s : String) : Text := s.toList

def summaryChunkSeparator : Text := text "\n\n---\n\n"

def formatSegments (env : Environment) (segments : List TranscriptionSegment) : Text :=
  if segments = [] then text "(transcription vide)"
  else
    Text.join ['\n'] <| segments.map fun segment =>
      text "[" ++ env.formatSeconds segment.startSeconds ++ text "s → " ++
        env.formatSeconds segment.endSeconds ++ text "s] " ++ segment.speakerLabel ++ text " : " ++
        segment.text.strip

def notTranscribed (session : Uuid) (state : SessionState) (label : String) : Exn :=
  .permanentJob s!"Session {session} is not transcribed (state={state.value}); cannot generate {label}."

def sourceDocument (env : Environment) (session : Uuid) (label : String) (db : Database) :
    Except Exn (Text × Option Text) :=
  match db.sessions.get? session with
  | none => .error (.permanentJob s!"Session {session} not found.")
  | some row =>
      if row.state ≠ .transcribed then .error (notTranscribed session row.state label)
      else
        match editedTranscriptSource row with
        | some edited => .ok (edited, row.campaignContext)
        | none =>
            match row.transcriptionMode with
            | .nonDiarised =>
                let chunks := ChunkRepository.listForSession db session
                let missing := (chunks.filter fun chunk => !Text.present chunk.summaryText).map
                  Chunk.ordre
                if chunks = [] then
                  .error (.permanentJob
                    s!"Session {session} has no chunks; cannot generate {label}.")
                else if missing ≠ [] then
                  .error (.permanentJob s!"Session {session} has chunks without summary_text (ordre={missing}); run POST /artifacts/summary first.")
                else
                  .ok (Text.join summaryChunkSeparator
                    (chunks.map fun chunk => Text.orElse chunk.summaryText []), row.campaignContext)
            | .diarised =>
                match TranscriptionRepository.getForSession db session with
                | none => .error (.permanentJob s!"Session {session} has no transcription row even though state is 'transcribed' — data inconsistency.")
                | some transcription =>
                    .ok (formatSegments env transcription.segmentsJson, row.campaignContext)

def campaignHeader : Text :=
  text "CONTEXTE DE CAMPAGNE (informations hors-transcript, à utiliser uniquement pour ancrer noms récurrents, ton et fil narratif) :\n"

def userPromptWithContext (campaignContext : Option Text) (transcript : Text) : Text :=
  let context := Text.strip (campaignContext.getD [])
  if context = [] then transcript
  else
    campaignHeader ++ context ++ text "\n\n---\n\nTRANSCRIPTION DE LA SESSION :\n" ++ transcript

def povUserPrompt (pjName speakerLabel transcript : Text) (campaignContext : Option Text) : Text :=
  let header := text "POINT DE VUE DE : " ++ pjName ++ text "\nLABEL DE LOCUTEUR ASSOCIÉ : " ++
    speakerLabel ++
    text "\nTous les autres labels (speaker_*, unknown) sont d'autres joueurs ou le MJ.\n"
  let context := Text.strip (campaignContext.getD [])
  if context = [] then
    header ++ text "\n---\n\nTRANSCRIPTION DE LA SESSION :\n" ++ transcript
  else
    header ++ text "\n" ++ campaignHeader ++ context ++
      text "\n\n---\n\nTRANSCRIPTION DE LA SESSION :\n" ++ transcript

/-! ## The language model -/

def llmFailed : Exn → JobBody Text
  | .transientLLM detail => throw (.transientJob detail)
  | .permanentLLM detail => throw (.permanentJob detail)
  | other => throw other

def complete (env : Environment) (adapter : LlmAdapter) (ordinal : Nat) (system : SystemPrompt)
    (user : Text) : JobBody Text :=
  tryCatch (ask (.complete adapter ordinal system user env.settings.llmMaxTokensDefault)) llmFailed

def upsertAll (session : Uuid) (modelUsed : Text) (db : Database) :
    List (ArtifactKind × ArtifactContent) → Database
  | [] => db
  | (kind, content) :: rest =>
      upsertAll session modelUsed (ArtifactRepository.upsert db session kind content modelUsed) rest

def writeArtifacts (session : Uuid) (modelUsed : Text)
    (artifacts : List (ArtifactKind × ArtifactContent)) : JobBody Unit :=
  Process.atomically (.writeArtifacts (artifacts.map Prod.fst)) fun db =>
    .ok ((), upsertAll session modelUsed db artifacts)

def generateSingle (env : Environment) (session : Uuid) (label : String) (system : SystemPrompt)
    (kind : ArtifactKind) (content : Text → Except Exn ArtifactContent) : JobBody Unit := do
  let (source, campaignContext) ← Process.reading .loadSource (sourceDocument env session label)
  let row ← loadSessionModelSettings session
  let adapter ← buildLlmAdapterForUser env.settings row
  let reply ← complete env adapter 0 system (userPromptWithContext campaignContext source)
  let made ← Process.ofExcept (content reply)
  writeArtifacts session (llmModelUsed env.settings adapter) [(kind, made)]

def generateNarrative (env : Environment) (session : Uuid) : JobBody Unit :=
  generateSingle env session "narrative" .narrative .narrative fun reply => .ok (.text reply)

def generateElements (env : Environment) (session : Uuid) : JobBody Unit :=
  generateSingle env session "elements" .elements .elements fun raw =>
    (env.parseElements raw).mapError .other

/-! ## POVs -/

structure PjPair where
  pjId : Uuid
  speakerLabel : Option Text
  deriving DecidableEq

structure Participants where
  pairs : List PjPair
  pjs : List Pj
  campaignContext : Option Text

def loadParticipants (session : Uuid) (db : Database) : Except Exn Participants :=
  match db.sessions.get? session with
  | none => .error (.permanentJob s!"Session {session} not found.")
  | some row =>
      if row.state ≠ .transcribed then .error (notTranscribed session row.state "POVs")
      else
        let pairs : List PjPair := match row.transcriptionMode with
          | .nonDiarised => (SessionPlayerRepository.listForSession db session).map fun player =>
              ⟨player.pjId, none⟩
          | .diarised => (MappingRepository.getForSession db session).map fun mapping =>
              ⟨mapping.pjId, some mapping.speakerLabel⟩
        if pairs = [] then
          .error (.permanentJob <| match row.transcriptionMode with
            | .nonDiarised => s!"Session {session} has no PJ declared via POST /players; set one before generating POVs."
            | .diarised => s!"Session {session} has no speaker-PJ mapping; set one via PUT /mapping before generating POVs.")
        else
          .ok ⟨pairs, db.pjs.rows.filter fun pj => pj.id ∈ pairs.map PjPair.pjId,
            row.campaignContext⟩

def completePovs (env : Environment) (adapter : LlmAdapter) (participants : Participants)
    (source : Text) : Nat → List PjPair → JobBody (List (ArtifactKind × ArtifactContent))
  | _, [] => return []
  | ordinal, pair :: rest =>
      match participants.pjs.find? fun pj => pj.id = pair.pjId with
      | none => completePovs env adapter participants source (ordinal + 1) rest
      | some pj => do
          let label := Text.orElse pair.speakerLabel (text "(non-diarised : aucun label)")
          let reply ← complete env adapter ordinal .pov
            (povUserPrompt pj.name label source participants.campaignContext)
          let later ← completePovs env adapter participants source (ordinal + 1) rest
          return (.pov pj.id, .text reply) :: later

def generatePovs (env : Environment) (session : Uuid) : JobBody Unit := do
  let participants ← Process.reading .loadParticipants (loadParticipants session)
  let (source, _) ← Process.reading .loadSource (sourceDocument env session "povs")
  let row ← loadSessionModelSettings session
  let adapter ← buildLlmAdapterForUser env.settings row
  let results ← completePovs env adapter participants source 0 participants.pairs
  writeArtifacts session (llmModelUsed env.settings adapter) results

/-! ## The global summary -/

/-- What the map step works on: the chunk to update, if it is a stored one, and its text. -/
structure ChunkDatum where
  id : Option Uuid
  ordre : Nat
  text : Text
  deriving DecidableEq

def loadChunkData (env : Environment) (session : Uuid) (db : Database) :
    Except Exn (List ChunkDatum) :=
  match db.sessions.get? session with
  | none => .error (.permanentJob s!"Session {session} not found.")
  | some row =>
      if row.transcriptionMode ≠ .nonDiarised then
        .error (.permanentJob s!"Session {session} is not in non_diarised mode; summary job is reserved for non_diarised sessions.")
      else if row.state ≠ .transcribed then .error (notTranscribed session row.state "summary")
      else
        match editedTranscriptSource row with
        | some edited =>
            let pieces := TextChunker.chunkText edited env.settings.chunkMaxChars
              env.settings.chunkMaxChars_pos
            if pieces = [] then
              .error (.permanentJob s!"Session {session} has a blank edited transcription; cannot generate summary.")
            else .ok (pieces.mapIdx fun ordre piece => ⟨none, ordre, piece⟩)
        | none =>
            let chunks := ChunkRepository.listForSession db session
            if chunks = [] then
              .error (.permanentJob s!"Session {session} has no chunks; cannot generate summary.")
            else .ok (chunks.map fun chunk => ⟨some chunk.id, chunk.ordre, chunk.text⟩)

def summariseChunks (env : Environment) (adapter : LlmAdapter) :
    Nat → List ChunkDatum → JobBody (List Text)
  | _, [] => return []
  | ordinal, datum :: rest => do
      let partialSummary ← complete env adapter ordinal .summaryMap datum.text
      let later ← summariseChunks env adapter (ordinal + 1) rest
      return partialSummary :: later

/-- Step 2, the reduce; its call comes after one call for each chunk. -/
def reduceSummaries (env : Environment) (adapter : LlmAdapter) : List Text → JobBody Text
  | [only] => return only
  | partials => complete env adapter partials.length .summaryReduce
      (Text.join summaryChunkSeparator partials)

def storePartials (db : Database) : List (ChunkDatum × Text) → Database
  | [] => db
  | (datum, partialSummary) :: rest =>
      match datum.id with
      | some chunk =>
          storePartials (ChunkRepository.updateSummaryText db chunk partialSummary) rest
      | none => storePartials db rest

def swapSummary (session : Uuid) (data : List ChunkDatum) (partials : List Text) (final : Text)
    (modelUsed : Text) (db : Database) : Database :=
  let db₁ := ChunkRepository.resetSummaryTexts db session
  let db₂ := storePartials db₁ (data.zip partials)
  let db₃ := { db₂ with
    artifacts := db₂.artifacts.delete fun row =>
      row.sessionId = session && [ArtifactKind.narrative, .elements].contains row.kind }
  let db₄ := { db₃ with
    artifacts := db₃.artifacts.delete fun row => row.sessionId = session && row.isPov }
  ArtifactRepository.upsert db₄ session .summary (.text final) modelUsed

def generateSummary (env : Environment) (session : Uuid) : JobBody Unit := do
  let data ← Process.reading .loadSource (loadChunkData env session)
  let row ← loadSessionModelSettings session
  let adapter ← buildLlmAdapterForUser env.settings row
  let partials ← summariseChunks env adapter 0 data
  let final ← reduceSummaries env adapter partials
  Process.atomically (.writeArtifacts [.summary]) fun db =>
    .ok ((), swapSummary session data partials final (llmModelUsed env.settings adapter) db)

end Kaeyris.Jobs
