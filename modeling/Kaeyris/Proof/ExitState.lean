import Kaeyris.Proof.TranscriptionRuns

/-!
# The state in which the transcription job leaves its session

Every failure after the first commit has to be undone by hand. The source does so at six points; a
failure anywhere else leaves the session in `transcribing`.
-/

namespace Kaeyris.Proof
open Lib Jobs Process

def OutputStored (settings : Settings) (session : Uuid) (mode : TranscriptionMode)
    (result : TranscriptionResult) (db : Database) : Prop :=
  match mode with
  | .diarised => TranscriptionRepository.getForSession db session =
      some ⟨session, result.segments, result.language, result.modelUsed, result.provider⟩
  | .nonDiarised => ∀ i content, (chunksOf settings result)[i]? = some content →
      ∃ chunk ∈ db.chunks.rows, chunk.sessionId = session ∧ chunk.ordre = i ∧
        chunk.text = content ∧ chunk.summaryText = none

structure ExitLaw (env : Environment) (r : Reaction effects) (session : Uuid) (reports : Bool)
    (db : Database) : Prop where
  raises : ∀ started db₁ e, r.fails .begin = none →
    beginTranscription session db = .ok (started, db₁) →
    ((transcribeSession env session reports).run r db).result = .error e →
    stateOf ((transcribeSession env session reports).run r db).state session =
        some (exitState e) ∧
      (phases ((transcribeSession env session reports).run r db).events ≠ [] →
        (phases ((transcribeSession env session reports).run r db).events).getLast? = some .failed)
  returns : ((transcribeSession env session reports).run r db).result = .ok () →
    stateOf ((transcribeSession env session reports).run r db).state session = some .transcribed ∧
      ∃ started db₁ result db₂, beginTranscription session db = .ok (started, db₁) ∧
        met env r session started db₁ = .ok (result, db₂) ∧
        OutputStored env.settings session started.mode result
          ((transcribeSession env session reports).run r db).state

/-- Once the job has begun, the first step to fail, if any does, is one with a handler. -/
def OnlyHandledFailures (env : Environment) (r : Reaction effects) (session : Uuid)
    (db : Database) : Prop :=
  ∀ started db₁, r.fails .begin = none → beginTranscription session db = .ok (started, db₁) →
    ∀ obstacle, (do
      let (result, db₂) ← met env r session started db₁
      stored env r session started.mode result db₂) = .error obstacle → obstacle.handled

theorem beginTranscription_state {session : Uuid} {db db₁ : Database} {started : Started}
    (begins : beginTranscription session db = .ok (started, db₁)) :
    stateOf db₁ session = some .transcribing := by
  obtain ⟨row, -, stored, -, -, -, rfl⟩ := beginTranscription_ok begins
  rw [stateOf_updateState]
  unfold stateOf
  rw [stored]
  rfl

theorem exitState_ne_transcribing (e : Exn) : exitState e ≠ .transcribing := by
  cases e <;> exact fun same => by cases same

theorem stored_error {env : Environment} {r : Reaction effects} {session : Uuid}
    {mode : TranscriptionMode} {result : TranscriptionResult} {db : Database} {obstacle : Obstacle}
    (failed : stored env r session mode result db = .error obstacle) : obstacle.handled = false := by
  unfold stored at failed
  split at failed
  · cases failed
    rfl
  · split at failed
    · cases failed
      rfl
    · cases failed

theorem newRows_getElem? {first session : Uuid} {texts : List Text} {i : Nat} {content : Text}
    (present : texts[i]? = some content) :
    (⟨first + i, session, i, content, none⟩ : Chunk) ∈
      ChunkRepository.newRows first session texts := by
  rw [ChunkRepository.newRows, List.mem_mapIdx]
  obtain ⟨bound, same⟩ := List.getElem?_eq_some_iff.mp present
  exact ⟨i, bound, by rw [same]⟩

theorem persistOutput_ok {settings : Settings} {session drawn : Uuid} {mode : TranscriptionMode}
    {result : TranscriptionResult} {db after : Database} {u : Unit}
    (persisted : persistOutput settings session mode drawn result db = .ok (u, after)) :
    stateOf after session = (stateOf db session).map (fun _ => .transcribed) ∧
      OutputStored settings session mode result after := by
  cases mode with
  | diarised =>
      cases persisted
      refine ⟨stateOf_updateState _ _ _, ?_⟩
      have found := Table.get?_put db.transcriptions
        ⟨session, result.segments, result.language, result.modelUsed, result.provider⟩ session
      rw [if_pos rfl] at found
      exact found
  | nonDiarised =>
      unfold persistOutput at persisted
      cases inserted : ChunkRepository.bulkCreateForSession db session
          (chunksOf settings result) drawn with
      | none => simp [inserted] at persisted
      | some db' =>
          simp only [inserted, Except.ok.injEq, Prod.mk.injEq, true_and] at persisted
          subst persisted
          unfold ChunkRepository.bulkCreateForSession at inserted
          obtain ⟨chunks, rows, rfl⟩ := Option.map_eq_some_iff.mp inserted
          refine ⟨stateOf_updateState _ _ _, fun i content present => ?_⟩
          have added := Indexed.insertAll?_eq_some.mp rows
          refine ⟨⟨ChunkRepository.firstId db drawn + i, session, i, content, none⟩, ?_, rfl, rfl,
            rfl, rfl⟩
          change _ ∈ chunks.rows
          rw [added]
          exact List.mem_append_right _ (newRows_getElem? present)

theorem stored_ok {env : Environment} {r : Reaction effects} {session : Uuid}
    {mode : TranscriptionMode} {result : TranscriptionResult} {db after : Database} {u : Unit}
    (written : stored env r session mode result db = .ok (u, after)) :
    persistOutput env.settings session mode (drawnId r mode) result db = .ok ((), after) := by
  unfold stored at written
  split at written
  · cases written
  · split at written
    · cases written
    · cases written
      assumption

theorem transcribeSession_begun {env : Environment} {r : Reaction effects} {session : Uuid}
    {reports : Bool} {db : Database}
    (returned : ((transcribeSession env session reports).run r db).result = .ok ()) :
    r.fails .begin = none ∧
      ∃ started db₁, beginTranscription session db = .ok (started, db₁) := by
  rw [transcribeSession_eq] at returned
  have first := run_atomically r Tx.begin (beginTranscription session) db
  cases aborted : r.fails .begin with
  | some e =>
      rw [aborted] at first
      have raised := (run_bind_error (congrArg Outcome.result first) fun started =>
        (locateAudio session started).bind fun path => (chooseAdapter env session).bind fun adapter =>
          transcribeAndStore env session reports started.mode path adapter).1
      cases raised.symm.trans returned
  | none =>
      cases begins : beginTranscription session db with
      | error e =>
          rw [aborted, begins] at first
          have raised := (run_bind_error (congrArg Outcome.result first) fun started =>
            (locateAudio session started).bind fun path =>
              (chooseAdapter env session).bind fun adapter =>
                transcribeAndStore env session reports started.mode path adapter).1
          cases raised.symm.trans returned
      | ok pair => exact ⟨rfl, pair.1, pair.2, rfl⟩

/-- Provided the failure transitions themselves can be written, the law holds of exactly the runs
in which nothing fails outside the handlers. -/
theorem exitLaw_iff {env : Environment} {r : Reaction effects} {session : Uuid} {reports : Bool}
    {db : Database} (writable : r.fails .markSessionFailed = none)
    (restorable : r.fails .restoreSessionState = none) :
    ExitLaw env r session reports db ↔ OnlyHandledFailures env r session db := by
  constructor
  · intro law started db₁ begun begins obstacle obstructed
    obtain ⟨ends, -⟩ := ends_transcribeSession writable restorable env reports begun begins
    rw [obstructed] at ends
    by_contra unhandled
    have left := (law.raises started db₁ _ begun begins ends.1).1
    have stuck := ends.2
    rw [if_neg unhandled, beginTranscription_state begins, left] at stuck
    exact exitState_ne_transcribing _ (Option.some.inj stuck)
  · intro handled
    constructor
    · intro started db₁ e begun begins raised
      obtain ⟨ends, reported⟩ := ends_transcribeSession writable restorable env reports begun begins
      cases reached : met env r session started db₁ with
      | error obstacle =>
          rw [reached] at ends
          have covered : obstacle.handled := by
            apply handled started db₁ begun begins
            rw [reached]
            rfl
          have same : obstacle.exn = e := Except.error.inj (ends.1.symm.trans raised)
          have left := ends.2
          rw [if_pos covered, beginTranscription_state begins, same] at left
          refine ⟨left, fun noted => ?_⟩
          rcases reported obstacle reached covered with silent | failure
          · exact (noted silent).elim
          · cases reports with
            | true => exact failure
            | false => exact (noted failure).elim
      | ok pair =>
          obtain ⟨result, db₂⟩ := pair
          rw [reached] at ends
          change Ends session db₁ _ (stored env r session started.mode result db₂) at ends
          cases written : stored env r session started.mode result db₂ with
          | error obstacle =>
              have covered : obstacle.handled := by
                apply handled started db₁ begun begins
                rw [reached]
                exact written
              rw [stored_error written] at covered
              cases covered
          | ok done =>
              rw [written] at ends
              cases ends.1.symm.trans raised
    · intro returned
      obtain ⟨begun, started, db₁, begins⟩ := transcribeSession_begun returned
      obtain ⟨ends, -⟩ := ends_transcribeSession writable restorable env reports begun begins
      cases reached : met env r session started db₁ with
      | error obstacle =>
          rw [reached] at ends
          cases ends.1.symm.trans returned
      | ok pair =>
          obtain ⟨result, db₂⟩ := pair
          rw [reached] at ends
          change Ends session db₁ _ (stored env r session started.mode result db₂) at ends
          cases written : stored env r session started.mode result db₂ with
          | error obstacle =>
              rw [written] at ends
              cases ends.1.symm.trans returned
          | ok pair' =>
              obtain ⟨_, db₃⟩ := pair'
              rw [written] at ends
              obtain ⟨state, output⟩ := persistOutput_ok (stored_ok written)
              obtain ⟨audios, rfl⟩ := met_ok reached
              have before := beginTranscription_state begins
              change _ = (stateOf db₁ session).map _ at state
              rw [before] at state
              rw [ends.2]
              exact ⟨state, started, db₁, result, _, begins, reached, output⟩

/-! ## Two concrete runs -/

def uploadedSession : Session where
  id := 1
  gmKeyId := 7
  campaignId := none
  state := .audioUploaded
  transcriptionMode := .nonDiarised
  campaignContext := none
  editedTranscriptMd := none
  currentJobId := none

def localSettings : ModelSettings where
  userId := 5
  transcriptionProvider := some .localModel
  summaryProvider := none
  transcriptionLocalPath := none
  summaryLocalPath := none
  transcriptionCloudModel := none
  summaryCloudModel := none
  ollamaModel := none
  transcriptionLocalValidationHash := none
  summaryLocalValidationHash := none
  deepinfraApiKey := none

def uploadedDatabase : Database :=
  { Database.empty with
    users := ⟨[⟨5, some 7⟩], by decide⟩
    sessions := ⟨[uploadedSession], by decide⟩
    audioSources := ⟨[⟨1, .raw 1, [], 1, none, none⟩], by decide⟩ }

def unavailable : Reaction effects :=
  { obliging with
    answer
      | .chunkedAudio _ _ => .error (.transientTranscription "503")
      | query => obliging.answer query }

theorem exitLaw_unavailable : ExitLaw sampleEnvironment unavailable 1 true uploadedDatabase := by
  apply (exitLaw_iff rfl rfl).mpr
  intro started db₁ _ begins obstacle obstructed
  cases begins
  cases obstructed
  rfl

/-- Building the adapter fails after the state was committed, and nothing restores it. -/
theorem localSettings_stuck : ¬ExitLaw sampleEnvironment obliging 1 true
    { uploadedDatabase with modelSettings := ⟨[localSettings], by decide⟩ } := by
  intro law
  have left := (law.raises _ _ _ rfl rfl rfl).1
  cases left

end Kaeyris.Proof
