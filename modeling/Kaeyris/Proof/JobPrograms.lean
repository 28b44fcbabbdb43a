import Kaeyris.Proof.Requests
import Kaeyris.Proof.Summary
import Kaeyris.Proof.TranscriptionRuns

/-!
# What the transactions of a job are

The programs of the jobs are gone through once, for any guarantee. `TranscriptionSteps` and
`ArtifactSteps` list what is left to show of a guarantee: one case for each kind of transaction.
-/

namespace Kaeyris.Proof
open Lib Jobs Process

section Common
variable {rely : Database → Prop} {guarantee : Tx → Database → Database → Prop}

theorem guarantees_loadSessionModelSettings (session : Uuid)
    (owner : ∀ db, rely db → guarantee .resolveOwner db db)
    (settings : ∀ db, rely db → guarantee .loadModelSettings db db) :
    (loadSessionModelSettings session).Guarantees rely guarantee := by
  apply Guarantees.bind
  · exact Guarantees.reading owner _
  · intro user
    cases user with
    | none => exact True.intro
    | some user => exact Guarantees.reading settings _

theorem guarantees_report (reports : Bool) (phase : Phase) (percent : Option Int) :
    (report reports phase percent).Guarantees rely guarantee := by
  cases reports with
  | true => exact Guarantees.tell _
  | false => exact True.intro

theorem guarantees_drawChunkId (mode : TranscriptionMode) :
    (drawChunkId mode).Guarantees rely guarantee := by
  cases mode with
  | diarised => exact True.intro
  | nonDiarised =>
      intro drawn
      cases drawn <;> exact True.intro

theorem guarantees_transcribePieces (env : Environment) (reports : Bool)
    (adapter : TranscriptionChoice) (languageHint : Option Text) (total index : Nat)
    (stitched : TranscriptionResult) (pieces : List (ℚ × Text)) :
    (transcribePieces env reports adapter languageHint total index stitched pieces).Guarantees rely
      guarantee := by
  induction pieces generalizing index stitched with
  | nil => exact True.intro
  | cons head rest ih =>
      obtain ⟨offset, path⟩ := head
      apply Guarantees.bind
      · exact Guarantees.ask _
      · intro piece
        apply Guarantees.bind
        · unfold onChunk
          split
          · exact True.intro
          · exact guarantees_report _ _ _
        · exact fun _ => ih _ _

theorem guarantees_complete (env : Environment) (adapter : LlmAdapter) (ordinal : Nat)
    (system : SystemPrompt) (user : Text) :
    (complete env adapter ordinal system user).Guarantees rely guarantee := by
  apply Guarantees.rescue
  · exact Guarantees.ask _
  · intro e
    rw [llmFailed_eq]
    exact True.intro

theorem guarantees_summariseChunks (env : Environment) (adapter : LlmAdapter) (ordinal : Nat)
    (data : List ChunkDatum) :
    (summariseChunks env adapter ordinal data).Guarantees rely guarantee := by
  induction data generalizing ordinal with
  | nil => exact True.intro
  | cons datum rest ih =>
      apply Guarantees.bind
      · exact guarantees_complete _ _ _ _ _
      · intro output
        apply Guarantees.bind
        · exact ih _
        · exact fun later => True.intro

theorem guarantees_completePovs (env : Environment) (adapter : LlmAdapter)
    (participants : Participants) (source : Text) (ordinal : Nat) (pairs : List PjPair) :
    (completePovs env adapter participants source ordinal pairs).Guarantees rely guarantee := by
  induction pairs generalizing ordinal with
  | nil => exact True.intro
  | cons pair rest ih =>
      unfold completePovs
      split
      · exact ih _
      · apply Guarantees.bind
        · exact guarantees_complete _ _ _ _ _
        · intro reply
          apply Guarantees.bind
          · exact ih _
          · exact fun later => True.intro

end Common

/-! ## The transcription job -/

/-- `modes` is what is known of the mode that the job has read. -/
structure TranscriptionSteps (env : Environment) (session : Uuid) (rely : Database → Prop)
    (modes : TranscriptionMode → Prop) (guarantee : Tx → Database → Database → Prop) : Prop where
  reads : ∀ tx db, tx.writes = [] → rely db → guarantee tx db db
  fails : ∀ db reason, rely db → guarantee .markSessionFailed db (markFailed db session reason)
  restores : ∀ db, rely db →
    guarantee .restoreSessionState db (SessionRepository.updateState db session .audioUploaded)
  begins : ∀ db started db', rely db → beginTranscription session db = .ok (started, db') →
    guarantee .begin db db' ∧ modes started.mode
  updates : ∀ db prepared duration, rely db →
    guarantee .updateAudio db (storePreparedAudio session prepared duration db).2
  persists : ∀ db mode drawn result db', rely db → modes mode →
    persistOutput env.settings session mode drawn result db = .ok ((), db') →
      guarantee .persist db db'

namespace TranscriptionSteps
variable {env : Environment} {session : Uuid} {rely : Database → Prop}
  {modes : TranscriptionMode → Prop} {guarantee : Tx → Database → Database → Prop}
  (steps : TranscriptionSteps env session rely modes guarantee)
include steps

theorem markSessionFailed (reason : Option String) :
    (Jobs.markSessionFailed session reason).Guarantees rely guarantee := by
  apply Guarantees.atomically
  · intro db e _ failed
    cases failed
  · intro db _ db' allowed committed
    cases committed
    exact steps.fails db reason allowed

theorem restoreSessionState :
    (Jobs.restoreSessionState session .audioUploaded).Guarantees rely guarantee := by
  apply Guarantees.atomically
  · intro db e _ failed
    cases failed
  · intro db _ db' allowed committed
    cases committed
    exact steps.restores db allowed

theorem updateAudio (prepared : PreparedAudioResult) (duration : Option Int) :
    (atomically Tx.updateAudio fun db => .ok (storePreparedAudio session prepared duration db) :
      JobBody Bool).Guarantees rely guarantee := by
  apply Guarantees.atomically
  · intro db e _ failed
    cases failed
  · intro db updated db' allowed committed
    have step := steps.updates db prepared duration allowed
    rw [Except.ok.inj committed] at step
    exact step

theorem locateAudio (started : Started) :
    (Jobs.locateAudio session started).Guarantees rely guarantee := by
  have failure (reason : Option String) (detail : String) :
      ((Jobs.markSessionFailed session reason).bind fun _ =>
        (Process.raise (.permanentJob detail) : JobBody AudioPath)).Guarantees rely guarantee := by
    apply Guarantees.bind
    · exact steps.markSessionFailed reason
    · exact fun _ => True.intro
  apply Guarantees.bind
  · exact Guarantees.ask _
  · intro present
    split
    · exact failure none _
    · split
      · apply Guarantees.bind
        · apply Guarantees.rescue
          · exact Guarantees.ask _
          · intro e
            cases e
            case audioReduce detail =>
              apply Guarantees.bind
              · exact Guarantees.tell _
              · intro _
                apply Guarantees.bind
                · exact steps.markSessionFailed _
                · exact fun _ => True.intro
            all_goals exact True.intro
        · intro prepared
          apply Guarantees.bind
          · exact steps.updateAudio prepared _
          · intro updated
            split
            · exact failure (some _) _
            · apply Guarantees.bind
              · exact Guarantees.tell _
              · exact fun _ => True.intro
      · exact True.intro

theorem storeOutput {mode : TranscriptionMode} (known : modes mode)
    (result : TranscriptionResult) :
    (Jobs.storeOutput env session mode result).Guarantees rely guarantee := by
  apply Guarantees.bind
  · exact guarantees_drawChunkId mode
  · intro drawn
    apply Guarantees.atomically
    · exact fun db e allowed _ => steps.reads _ db rfl allowed
    · exact fun db _ db' allowed persisted =>
        steps.persists db mode drawn result db' allowed known persisted

theorem chooseAdapter : (Proof.chooseAdapter env session).Guarantees rely guarantee := by
  apply Guarantees.bind
  · exact guarantees_loadSessionModelSettings session (fun db => steps.reads _ db rfl)
      fun db => steps.reads _ db rfl
  · intro row
    apply Guarantees.bind
    · exact Guarantees.ofExcept _
    · intro choice
      apply Guarantees.bind
      · exact Guarantees.ask _
      · exact fun _ => True.intro

theorem transcriptionFailed (reports : Bool) (e : Exn) :
    (Jobs.transcriptionFailed session reports e).Guarantees rely guarantee := by
  have failure (transition : JobBody Unit) (e : Exn) (kept : transition.Guarantees rely guarantee) :
      (transition.bind fun _ => (report reports .failed none).bind fun _ =>
        (Process.raise e : JobBody TranscriptionResult)).Guarantees rely guarantee := by
    apply Guarantees.bind kept
    intro _
    apply Guarantees.bind
    · exact guarantees_report _ _ _
    · exact fun _ => True.intro
  cases e
  case transientTranscription detail => exact failure _ _ steps.restoreSessionState
  case permanentTranscription detail => exact failure _ _ (steps.markSessionFailed _)
  case audioChunking detail => exact failure _ _ (steps.markSessionFailed _)
  all_goals exact True.intro

theorem transcribeSession (reports : Bool) :
    (Jobs.transcribeSession env session reports).Guarantees rely guarantee := by
  rw [transcribeSession_eq]
  apply Guarantees.atomically_bind
  · exact fun db e allowed _ => steps.reads _ db rfl allowed
  · intro db started db' allowed begun
    refine ⟨(steps.begins db started db' allowed begun).1, ?_⟩
    apply Guarantees.bind
    · exact steps.locateAudio started
    · intro path
      apply Guarantees.bind
      · exact steps.chooseAdapter
      · intro adapter
        apply Guarantees.bind
        · exact guarantees_report _ _ _
        · intro _
          apply Guarantees.bind
          · apply Guarantees.rescue
            · unfold transcribeWithOptionalChunking
              split
              · exact Guarantees.ask _
              · apply Guarantees.bind
                · exact Guarantees.ask _
                · exact fun pieces => guarantees_transcribePieces _ _ _ _ _ _ _ _
            · exact steps.transcriptionFailed reports
          · intro result
            apply Guarantees.bind
            · exact steps.storeOutput (steps.begins db started db' allowed begun).2 result
            · exact fun _ => guarantees_report _ _ _

end TranscriptionSteps

/-! ## The artifact jobs -/

theorem JobKind.replaces_of_produces {kind : JobKind} {pjs : Uuid → Prop} {target : ArtifactKind}
    (produced : kind.produces pjs target) : kind.replaces pjs target := by
  cases kind with
  | summary => exact True.intro
  | _ => exact produced

theorem JobKind.replaces_mono {kind : JobKind} {pjs pjs' : Uuid → Prop} {target : ArtifactKind}
    (wider : ∀ pj, pjs pj → pjs' pj) (replaced : kind.replaces pjs target) :
    kind.replaces pjs' target := by
  cases kind with
  | povs =>
      cases target with
      | pov pj => exact wider pj replaced
      | _ => exact replaced
  | _ => exact replaced

theorem JobKind.produces_mono {kind : JobKind} {pjs pjs' : Uuid → Prop} {target : ArtifactKind}
    (wider : ∀ pj, pjs pj → pjs' pj) (produced : kind.produces pjs target) :
    kind.produces pjs' target := by
  cases kind with
  | povs => exact JobKind.replaces_mono wider produced
  | _ => exact produced

/-- A summary job comes to its last transaction only after it has read the session's chunks. -/
structure ArtifactSteps (env : Environment) (session : Uuid) (kind : JobKind) (pjs : Uuid → Prop)
    (rely : Database → Prop) (guarantee : Tx → Database → Database → Prop) : Prop where
  reads : ∀ tx db, tx.writes = [] → rely db → guarantee tx db db
  writes : ∀ db modelUsed artifacts, kind ≠ .summary → rely db →
    (∀ target ∈ artifacts.map Prod.fst, kind.produces pjs target) →
      guarantee (.writeArtifacts (artifacts.map Prod.fst)) db
        (upsertAll session modelUsed db artifacts)
  swaps : ∀ before data, kind = .summary → rely before →
    loadChunkData env session before = .ok data → ∀ db partials final modelUsed, rely db →
      guarantee (.writeArtifacts [.summary]) db
        (swapSummary session data partials final modelUsed db)

theorem generateSingle_eq (env : Environment) (session : Uuid) (label : String)
    (system : SystemPrompt) (target : ArtifactKind) (content : Text → Except Exn ArtifactContent) :
    generateSingle env session label system target content =
      (reading Tx.loadSource (sourceDocument env session label)).bind fun source =>
        (obtainAdapter env session).bind fun adapter =>
          (complete env adapter 0 system (userPromptWithContext source.2 source.1)).bind fun reply =>
            (Process.ofExcept (content reply)).bind fun made =>
              writeArtifacts session (llmModelUsed env.settings adapter) [(target, made)] := by
  unfold generateSingle obtainAdapter
  simp only [bind_eq, Process.bind_assoc]

def PovsOf (pairs : List PjPair) (results : List (ArtifactKind × ArtifactContent)) : Prop :=
  ∀ target ∈ results.map Prod.fst, ∃ pair ∈ pairs, target = .pov pair.pjId

theorem returns_completePovs (env : Environment) (adapter : LlmAdapter)
    (participants : Participants) (source : Text) (ordinal : Nat) (pairs : List PjPair) :
    (completePovs env adapter participants source ordinal pairs).Returns (PovsOf pairs) := by
  induction pairs generalizing ordinal with
  | nil => exact fun target member => by cases member
  | cons pair rest ih =>
      have skip : (completePovs env adapter participants source (ordinal + 1) rest).Returns
          (PovsOf (pair :: rest)) := by
        apply (ih (ordinal + 1)).weaken
        intro results bounded target member
        obtain ⟨other, present, named⟩ := bounded target member
        exact ⟨other, List.mem_cons_of_mem _ present, named⟩
      unfold completePovs
      cases found : participants.pjs.find? fun pj => pj.id = pair.pjId with
      | none => exact skip
      | some pj =>
          have id : pj.id = pair.pjId := by simpa using List.find?_some found
          apply Returns.bind (Returns.trivial _)
          intro reply _
          apply Returns.bind skip
          intro later bounded target member
          rcases List.mem_cons.mp member with first | after
          · exact ⟨pair, List.mem_cons_self, by rw [first, id]⟩
          · exact bounded target after

def povsAfter (env : Environment) (session : Uuid) (participants : Participants) :
    JobBody Unit := do
  let (source, _) ← Process.reading .loadSource (sourceDocument env session "povs")
  let adapter ← obtainAdapter env session
  let results ← completePovs env adapter participants source 0 participants.pairs
  writeArtifacts session (llmModelUsed env.settings adapter) results

theorem generatePovs_eq (env : Environment) (session : Uuid) :
    generatePovs env session =
      (reading Tx.loadParticipants (loadParticipants session)).bind (povsAfter env session) := by
  unfold generatePovs povsAfter obtainAdapter
  simp only [bind_eq, Process.bind_assoc]

theorem loadParticipants_ok {session : Uuid} {db : Database} {loaded : Participants}
    (read : Jobs.loadParticipants session db = .ok loaded) :
    loaded.pairs.map PjPair.pjId = (view db session).participants ∧
      loaded.pjs = db.pjs.rows.filter fun pj => pj.id ∈ loaded.pairs.map PjPair.pjId := by
  unfold Jobs.loadParticipants at read
  split at read
  · cases read
  · rename_i row stored
    split at read
    · cases read
    · unfold View.participants
      rw [(view_row stored).2.1]
      cases mode : row.transcriptionMode with
      | diarised =>
          simp only [mode] at read
          split at read
          · cases read
          · cases read
            rw [List.map_map]
            exact ⟨rfl, rfl⟩
      | nonDiarised =>
          simp only [mode] at read
          split at read
          · cases read
          · cases read
            rw [List.map_map]
            exact ⟨rfl, rfl⟩

namespace ArtifactSteps
variable {env : Environment} {session : Uuid} {kind : JobKind} {pjs : Uuid → Prop}
  {rely : Database → Prop} {guarantee : Tx → Database → Database → Prop}

section
variable (steps : ArtifactSteps env session kind pjs rely guarantee)
include steps

theorem obtainAdapter : (Proof.obtainAdapter env session).Guarantees rely guarantee := by
  apply Guarantees.bind
  · exact guarantees_loadSessionModelSettings session (fun db => steps.reads _ db rfl)
      fun db => steps.reads _ db rfl
  · intro row
    apply Guarantees.bind
    · exact Guarantees.ofExcept _
    · exact fun choice => Guarantees.ask _

theorem writeArtifacts (other : kind ≠ .summary) (modelUsed : Text)
    (artifacts : List (ArtifactKind × ArtifactContent))
    (allowed : ∀ target ∈ artifacts.map Prod.fst, kind.produces pjs target) :
    (Jobs.writeArtifacts session modelUsed artifacts).Guarantees rely guarantee := by
  apply Guarantees.atomically
  · intro db e _ failed
    cases failed
  · intro db _ db' relied committed
    cases committed
    exact steps.writes db modelUsed artifacts other relied allowed

theorem generateSingle (other : kind ≠ .summary) (label : String) (system : SystemPrompt)
    (target : ArtifactKind) (content : Text → Except Exn ArtifactContent)
    (allowed : kind.produces pjs target) :
    (Jobs.generateSingle env session label system target content).Guarantees rely guarantee := by
  rw [generateSingle_eq]
  apply Guarantees.bind
  · exact Guarantees.reading (fun db => steps.reads _ db rfl) _
  · intro source
    apply Guarantees.bind
    · exact steps.obtainAdapter
    · intro adapter
      apply Guarantees.bind
      · exact guarantees_complete _ _ _ _ _
      · intro reply
        apply Guarantees.bind
        · exact .ofExcept _
        · intro made
          apply steps.writeArtifacts other
          simpa using allowed

theorem generateSummary (summary : kind = .summary) :
    (Jobs.generateSummary env session).Guarantees rely guarantee := by
  rw [generateSummary_eq]
  apply Guarantees.reading_bind
  · exact fun db => steps.reads _ db rfl
  · intro before data relied read
    apply Guarantees.bind
    · exact steps.obtainAdapter
    · intro adapter
      apply Guarantees.bind
      · exact guarantees_summariseChunks _ _ _ _
      · intro partials
        apply Guarantees.bind
        · unfold reduceSummaries
          split
          · exact True.intro
          · exact guarantees_complete _ _ _ _ _
        · intro final
          apply Guarantees.atomically
          · intro db e _ failed
            cases failed
          · intro db _ db' allowed committed
            cases committed
            exact steps.swaps before data summary relied read db _ _ _ allowed

end

theorem povsAfter (steps : ArtifactSteps env session .povs pjs rely guarantee)
    (participants : Participants) (allowed : ∀ pair ∈ participants.pairs, pjs pair.pjId) :
    (Proof.povsAfter env session participants).Guarantees rely guarantee := by
  apply Guarantees.bind
  · exact Guarantees.reading (fun db => steps.reads _ db rfl) _
  · intro source
    apply Guarantees.bind
    · exact steps.obtainAdapter
    · intro adapter
      apply Guarantees.bind_of_returns
      · exact guarantees_completePovs _ _ _ _ _ _
      · exact returns_completePovs _ _ _ _ _ _
      · intro results bounded
        apply steps.writeArtifacts (by decide)
        intro target member
        obtain ⟨pair, present, rfl⟩ := bounded target member
        exact allowed pair present

theorem generatePovs (steps : ArtifactSteps env session .povs pjs rely guarantee)
    (within : ∀ db, rely db → ∀ pj ∈ (view db session).participants, pjs pj) :
    (Jobs.generatePovs env session).Guarantees rely guarantee := by
  rw [generatePovs_eq]
  apply Guarantees.reading_bind
  · exact fun db => steps.reads _ db rfl
  · intro db loaded relied read
    apply steps.povsAfter
    intro pair present
    apply within db relied
    rw [← (loadParticipants_ok read).1]
    exact List.mem_map_of_mem present

/-- Up to its first transaction a povs job writes nothing; from then on it writes for those it has
read. -/
theorem quiet_generatePovs {guarantee : Database → Tx → Database → Database → Prop}
    (steps : ∀ db, ArtifactSteps env session .povs (· ∈ (view db session).participants) rely
      (guarantee db)) :
    (Jobs.generatePovs env session).QuietUntil (Tx.writes · = []) Tx.loadParticipants
      fun db rest => rest.Guarantees rely (guarantee db) := by
  rw [generatePovs_eq]
  apply QuietUntil.reading_mark (by rfl)
  intro db
  cases read : Jobs.loadParticipants session db with
  | error e => exact True.intro
  | ok loaded =>
      apply (steps db).povsAfter
      intro pair present
      rw [← (loadParticipants_ok read).1]
      exact List.mem_map_of_mem present

theorem jobProgram (steps : ArtifactSteps env session kind pjs rely guarantee)
    (artifact : kind.isArtifact)
    (within : ∀ db, rely db → ∀ pj ∈ (view db session).participants, pjs pj) :
    (Kaeyris.jobProgram env kind session).Guarantees rely guarantee := by
  cases kind with
  | transcription => cases artifact
  | narrative => exact steps.generateSingle (by decide) _ _ _ _ rfl
  | elements => exact steps.generateSingle (by decide) _ _ _ _ rfl
  | povs => exact steps.generatePovs within
  | summary => exact steps.generateSummary rfl

end ArtifactSteps

end Kaeyris.Proof
