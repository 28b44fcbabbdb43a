import Kaeyris.Proof.JobRuns

/-!
# A run of the transcription job

The run is cut at the points where something outside it can go wrong. Each part is compared with
what the reaction prepares for it: a value, or an obstacle that the source handles or does not.
-/

namespace Kaeyris.Proof
open Lib Jobs Process

/-- Something that makes the job raise `exn`. It is `handled` where the source writes a failure
transition before it raises. -/
structure Obstacle where
  exn : Exn
  handled : Bool

def stateOf (db : Database) (session : Uuid) : Option SessionState :=
  (db.sessions.get? session).map Session.state

/-! ## The reported phases -/

def phaseOf : Event effects → Option Phase
  | .called (.report phase _) => some phase
  | _ => none

def phases (events : List (Event effects)) : List Phase := events.filterMap phaseOf

@[simp] theorem phases_nil : phases [] = [] := rfl

@[simp] theorem phases_append (first second : List (Event effects)) :
    phases (first ++ second) = phases first ++ phases second := List.filterMap_append

theorem run_report (reports : Bool) (phase : Phase) (percent : Option Int) (r : Reaction effects)
    (db : Database) :
    ((report reports phase percent).run r db).result = .ok () ∧
      ((report reports phase percent).run r db).state = db ∧
      phases ((report reports phase percent).run r db).events = if reports then [phase] else [] := by
  cases reports with
  | true => exact ⟨rfl, rfl, rfl⟩
  | false => exact ⟨rfl, rfl, rfl⟩

theorem beginTranscription_ok {session : Uuid} {db db₁ : Database} {started : Started}
    (begins : beginTranscription session db = .ok (started, db₁)) :
    ∃ row audio, db.sessions.get? session = some row ∧
      SessionRepository.getAudioSource db session = some audio ∧ audio.purgedAt = none ∧
      started = ⟨audio.path, audio.durationSeconds, row.transcriptionMode⟩ ∧
      db₁ = SessionRepository.updateState db session .transcribing := by
  unfold beginTranscription at begins
  split at begins
  · cases begins
  · cases begins
  · rename_i row audio stored present
    split at begins
    · cases begins
    · rename_i unpurged
      cases begins
      exact ⟨row, audio, stored, present, by simpa using unpurged, rfl, rfl⟩

/-! ## Failure transitions -/

theorem stateOf_updateState (db : Database) (session : Uuid) (state : SessionState) :
    stateOf (SessionRepository.updateState db session state) session =
      (stateOf db session).map fun _ => state := by
  unfold stateOf SessionRepository.updateState
  rw [Table.get?_update]
  cases found : db.sessions.get? session with
  | none => rfl
  | some row =>
      have same : row.id = session := Table.key_of_get? found
      simp [same]

theorem stateOf_markFailed (db : Database) (session : Uuid) (reason : Option String) :
    stateOf (markFailed db session reason) session =
      (stateOf db session).map fun _ => .transcriptionFailed := by
  rw [← stateOf_updateState]
  unfold markFailed
  dsimp only
  split <;> rfl

def exitState : Exn → SessionState
  | .transientJob _ => .audioUploaded
  | _ => .transcriptionFailed

def Ends {α : Type} (session : Uuid) (before : Database) (o : Outcome effects α) :
    Except Obstacle (α × Database) → Prop
  | .ok (a, db) => o.result = .ok a ∧ o.state = db
  | .error obstacle =>
      o.result = .error obstacle.exn ∧
        stateOf o.state session =
          if obstacle.handled then (stateOf before session).map fun _ => exitState obstacle.exn
          else stateOf before session

theorem Ends.congr {α : Type} {session : Uuid} {before : Database} {o o' : Outcome effects α}
    {x : Except Obstacle (α × Database)} (result : o.result = o'.result)
    (state : o.state = o'.state) (ends : Ends session before o' x) : Ends session before o x := by
  cases x with
  | error obstacle =>
      refine ⟨result.trans ends.1, ?_⟩
      rw [state]
      exact ends.2
  | ok pair => exact ⟨result.trans ends.1, state.trans ends.2⟩

theorem Ends.after {α β : Type} {session : Uuid} {r : Reaction effects} {p : JobBody α}
    {f : α → JobBody β} {s t : Database} {a : α} {x : Except Obstacle (β × Database)}
    (returned : (p.run r s).result = .ok a) (state : (p.run r s).state = t)
    (same : stateOf t session = stateOf s session) (rest : Ends session t ((f a).run r t) x) :
    Ends session s ((p.bind f).run r s) x := by
  have result := (run_bind_ok returned f).1
  have final := (run_bind_ok returned f).2
  rw [state] at result final
  cases x with
  | error obstacle =>
      refine ⟨result.trans rest.1, ?_⟩
      rw [final, rest.2, same]
  | ok pair => exact ⟨result.trans rest.1, final.trans rest.2⟩

theorem Ends.stop {α β : Type} {session : Uuid} {r : Reaction effects} {p : JobBody α}
    (f : α → JobBody β) {s : Database} {obstacle : Obstacle}
    (first : Ends session s (p.run r s) (.error obstacle)) :
    Ends session s ((p.bind f).run r s) (.error obstacle) := by
  refine ⟨(run_bind_error first.1 f).1, ?_⟩
  rw [(run_bind_error first.1 f).2]
  exact first.2

/-! ## Locating the audio -/

def located (r : Reaction effects) (session : Uuid) (started : Started) (db : Database) :
    Except Obstacle (AudioPath × Database) :=
  match r.answer (.pathExists started.path) with
  | .error e => .error ⟨e, false⟩
  | .ok false => .error ⟨.permanentJob s!"Audio file missing on disk: {repr started.path}", true⟩
  | .ok true =>
      if isTransientRawAudioPath started.path then
        match r.answer (.prepareAudio started.path (.prepared session)) with
        | .error (.audioReduce detail) =>
            .error ⟨.permanentJob s!"Audio reduce failed: {detail}", true⟩
        | .error e => .error ⟨e, false⟩
        | .ok prepared =>
            match r.fails .updateAudio with
            | some e => .error ⟨e, false⟩
            | none =>
                match storePreparedAudio session prepared started.durationSeconds db with
                | (true, db') => .ok (prepared.path, db')
                | (false, _) => .error ⟨.permanentJob
                    s!"Session {session} has no audio source row after preparation.", true⟩
      else .ok (started.path, db)

theorem run_markSessionFailed {r : Reaction effects} (writable : r.fails .markSessionFailed = none)
    (session : Uuid) (reason : Option String) (db : Database) :
    (markSessionFailed session reason).run r db =
      ⟨.ok (), markFailed db session reason, [.committed .markSessionFailed]⟩ := by
  rw [markSessionFailed, run_atomically, writable]

theorem run_restoreSessionState {r : Reaction effects}
    (writable : r.fails .restoreSessionState = none) (session : Uuid) (state : SessionState)
    (db : Database) :
    (restoreSessionState session state).run r db =
      ⟨.ok (), SessionRepository.updateState db session state,
        [.committed .restoreSessionState]⟩ := by
  rw [restoreSessionState, run_atomically, writable]

theorem ends_failure {α : Type} {r : Reaction effects}
    (writable : r.fails .markSessionFailed = none) (session : Uuid) (reason : Option String)
    (detail : String) (db : Database) :
    Ends session db
      (((markSessionFailed session reason).bind fun _ =>
        (Process.raise (.permanentJob detail) : JobBody α)).run r db)
      (.error ⟨.permanentJob detail, true⟩) := by
  have marked := run_markSessionFailed writable session reason db
  rw [run_bind, marked]
  exact ⟨rfl, stateOf_markFailed db session reason⟩

theorem ends_prepareRawAudio {r : Reaction effects} (writable : r.fails .markSessionFailed = none)
    (session : Uuid) (source : AudioPath) (db : Database) :
    Ends session db ((prepareRawAudio session source).run r db)
      (match r.answer (.prepareAudio source (.prepared session)) with
        | .error (.audioReduce detail) =>
            .error ⟨.permanentJob s!"Audio reduce failed: {detail}", true⟩
        | .error e => .error ⟨e, false⟩
        | .ok prepared => .ok (prepared, db)) := by
  unfold prepareRawAudio
  rw [tryCatch_eq, run_rescue, run_ask]
  cases answer : r.answer (.prepareAudio source (.prepared session)) with
  | ok prepared => exact ⟨rfl, rfl⟩
  | error e =>
      cases e
      case audioReduce detail =>
        exact ends_failure writable session _ _ db
      all_goals exact ⟨rfl, rfl⟩

theorem storePreparedAudio_eq {session : Uuid} {prepared : PreparedAudioResult}
    {durationSeconds : Option Int} {db : Database} {stored : Bool × Database}
    (outcome : storePreparedAudio session prepared durationSeconds db = stored) :
    ∃ audios, stored.2 = { db with audioSources := audios } := by
  subst outcome
  unfold storePreparedAudio SessionRepository.updateAudioSourceFile
  cases SessionRepository.getAudioSource db session with
  | none => exact ⟨db.audioSources, rfl⟩
  | some audio => exact ⟨_, rfl⟩

theorem ends_locateAudio {r : Reaction effects} (writable : r.fails .markSessionFailed = none)
    (session : Uuid) (started : Started) (db : Database) :
    Ends session db ((locateAudio session started).run r db) (located r session started db) := by
  unfold locateAudio located
  cases found : r.answer (.pathExists started.path) with
  | error e =>
      apply Ends.stop
      rw [run_ask, found]
      exact ⟨rfl, rfl⟩
  | ok present =>
      have answered : ((Jobs.ask (.pathExists started.path)).run r db).result = .ok present := by
        rw [run_ask, found]
      apply Ends.after answered (Silent.ask _ r db) rfl
      cases present with
      | false => exact ends_failure writable session none _ db
      | true =>
          by_cases raw : isTransientRawAudioPath started.path
          · simp only [raw, Bool.not_true, Bool.false_eq_true, if_false, if_true]
            have prepared := ends_prepareRawAudio writable session started.path db
            cases answer : r.answer (.prepareAudio started.path (.prepared session)) with
            | error e =>
                rw [answer] at prepared
                cases e
                all_goals exact Ends.stop _ prepared
            | ok file =>
                rw [answer] at prepared
                dsimp only
                apply Ends.after prepared.1 prepared.2 rfl
                cases aborted : r.fails .updateAudio with
                | some e =>
                    apply Ends.stop
                    rw [run_atomically, aborted]
                    exact ⟨rfl, rfl⟩
                | none =>
                    cases outcome : storePreparedAudio session file started.durationSeconds db with
                    | mk present after =>
                        have same : stateOf after session = stateOf db session := by
                          obtain ⟨audios, changed⟩ := storePreparedAudio_eq outcome
                          dsimp only at changed
                          rw [changed]
                          rfl
                        have update : (atomically Tx.updateAudio fun db =>
                            .ok (storePreparedAudio session file started.durationSeconds db)).run r
                              db = ⟨.ok present, after, [.committed .updateAudio]⟩ := by
                          rw [run_atomically, aborted, outcome]
                        apply Ends.after (congrArg _ update) (congrArg _ update) same
                        cases present with
                        | true => exact ⟨rfl, rfl⟩
                        | false => exact ends_failure writable session _ _ after
          · simp only [raw, Bool.not_true, Bool.false_eq_true, if_false]
            exact ⟨rfl, rfl⟩

/-! ## Choosing the adapter -/

def built (env : Environment) (r : Reaction effects) (row : Option ModelSettings) (db : Database) :
    Except Obstacle (TranscriptionChoice × Database) :=
  match transcriptionChoiceForUser env.settings row with
  | .error e => .error ⟨e, false⟩
  | .ok choice =>
      match r.answer (.buildTranscriptionAdapter choice) with
      | .error e => .error ⟨e, false⟩
      | .ok _ => .ok (choice, db)

def chosen (env : Environment) (r : Reaction effects) (session : Uuid) (db : Database) :
    Except Obstacle (TranscriptionChoice × Database) :=
  match r.fails .resolveOwner with
  | some e => .error ⟨e, false⟩
  | none =>
      match resolveSessionOwnerId db session with
      | none => built env r none db
      | some user =>
          match r.fails .loadModelSettings with
          | some e => .error ⟨e, false⟩
          | none => built env r (ModelSettingsRepository.getForUser db user) db

def chooseAdapter (env : Environment) (session : Uuid) : JobBody TranscriptionChoice := do
  let row ← loadSessionModelSettings session
  buildTranscriptionAdapterForUser env.settings row

theorem ends_built (env : Environment) (r : Reaction effects) (row : Option ModelSettings)
    (session : Uuid) (db : Database) :
    Ends session db ((buildTranscriptionAdapterForUser env.settings row).run r db)
      (built env r row db) := by
  unfold buildTranscriptionAdapterForUser built
  cases resolved : transcriptionChoiceForUser env.settings row with
  | error e => exact ⟨rfl, rfl⟩
  | ok choice =>
      have bound : ((Process.ofExcept (.ok choice) : JobBody TranscriptionChoice).run r db).result =
          .ok choice := rfl
      apply Ends.after bound rfl rfl
      dsimp only
      cases answer : r.answer (.buildTranscriptionAdapter choice) with
      | error e =>
          apply Ends.stop
          rw [run_ask, answer]
          exact ⟨rfl, rfl⟩
      | ok built =>
          have answered : ((Jobs.ask (.buildTranscriptionAdapter choice)).run r db).result =
              .ok built := by rw [run_ask, answer]
          exact Ends.after answered (Silent.ask _ r db) rfl ⟨rfl, rfl⟩

theorem ends_chooseAdapter (env : Environment) (r : Reaction effects) (session : Uuid)
    (db : Database) :
    Ends session db ((chooseAdapter env session).run r db) (chosen env r session db) := by
  unfold chooseAdapter loadSessionModelSettings chosen
  rw [bind_eq, bind_eq, Process.bind_assoc]
  cases owned : r.fails .resolveOwner with
  | some e =>
      apply Ends.stop
      rw [run_reading, owned]
      exact ⟨rfl, rfl⟩
  | none =>
      have read : ((reading Tx.resolveOwner fun db =>
          .ok (resolveSessionOwnerId db session)).run r db) =
            ⟨.ok (resolveSessionOwnerId db session), db, [.committed .resolveOwner]⟩ := by
        rw [run_reading, owned]
      apply Ends.after (congrArg _ read) (congrArg _ read) rfl
      dsimp only
      cases resolveSessionOwnerId db session with
      | none => exact ends_built env r none session db
      | some user =>
          dsimp only
          cases loaded : r.fails .loadModelSettings with
          | some e =>
              apply Ends.stop
              rw [run_reading, loaded]
              exact ⟨rfl, rfl⟩
          | none =>
              have row : ((reading Tx.loadModelSettings fun db =>
                  .ok (ModelSettingsRepository.getForUser db user)).run r db) =
                    ⟨.ok (ModelSettingsRepository.getForUser db user), db,
                      [.committed .loadModelSettings]⟩ := by
                rw [run_reading, loaded]
              apply Ends.after (congrArg _ row) (congrArg _ row) rfl
              exact ends_built env r _ session db

/-! ## Transcribing -/

def pieceResults (r : Reaction effects) (adapter : TranscriptionChoice)
    (languageHint : Option Text) :
    Nat → TranscriptionResult → List (ℚ × Text) → Except Exn TranscriptionResult
  | _, stitched, [] => .ok stitched
  | index, stitched, (offset, path) :: rest =>
      match r.answer (.transcribe adapter index (.piece path) languageHint) with
      | .error e => .error e
      | .ok piece => pieceResults r adapter languageHint (index + 1) (stitched.stitch offset piece) rest

def adapterResult (env : Environment) (r : Reaction effects) (adapter : TranscriptionChoice)
    (path : AudioPath) (languageHint : Option Text) : Except Exn TranscriptionResult :=
  if env.settings.transcriptionChunkDurationSeconds ≤ 0 then
    r.answer (.transcribe adapter 0 (.stored path) languageHint)
  else
    match r.answer (.chunkedAudio path env.settings.transcriptionChunkDurationSeconds) with
    | .error e => .error e
    | .ok pieces => pieceResults r adapter languageHint 0 ⟨[], [], [], []⟩ pieces

def transcriptionObstacle : Exn → Obstacle
  | .transientTranscription detail => ⟨.transientJob detail, true⟩
  | .permanentTranscription detail => ⟨.permanentJob detail, true⟩
  | .audioChunking detail => ⟨.permanentJob s!"Audio chunking failed: {detail}", true⟩
  | other => ⟨other, false⟩

theorem silent_report (reports : Bool) (phase : Phase) (percent : Option Int) :
    (report reports phase percent).Silent := by
  cases reports with
  | true => exact Silent.tell _
  | false => exact Silent.done ()

theorem silent_onChunk (env : Environment) (reports : Bool) (done total : Nat) :
    (onChunk env reports done total).Silent := by
  unfold onChunk
  split
  · exact Silent.done ()
  · exact silent_report _ _ _

theorem result_onChunk (env : Environment) (reports : Bool) (done total : Nat)
    (r : Reaction effects) (db : Database) :
    ((onChunk env reports done total).run r db).result = .ok () := by
  unfold onChunk
  split
  · rfl
  · exact (run_report _ _ _ r db).1

theorem silent_transcribePieces (env : Environment) (reports : Bool)
    (adapter : TranscriptionChoice) (languageHint : Option Text) (total index : Nat)
    (stitched : TranscriptionResult) (pieces : List (ℚ × Text)) :
    (transcribePieces env reports adapter languageHint total index stitched pieces).Silent := by
  induction pieces generalizing index stitched with
  | nil => exact Silent.done _
  | cons head rest ih =>
      obtain ⟨offset, path⟩ := head
      apply Silent.bind
      · exact Silent.ask _
      · intro piece
        apply Silent.bind
        · exact silent_onChunk env reports _ _
        · exact fun _ => ih _ _

theorem result_transcribePieces (env : Environment) (reports : Bool)
    (adapter : TranscriptionChoice) (languageHint : Option Text) (total index : Nat)
    (stitched : TranscriptionResult) (pieces : List (ℚ × Text)) (r : Reaction effects)
    (db : Database) :
    ((transcribePieces env reports adapter languageHint total index stitched pieces).run r
      db).result = pieceResults r adapter languageHint index stitched pieces := by
  induction pieces generalizing index stitched with
  | nil => rfl
  | cons head rest ih =>
      obtain ⟨offset, path⟩ := head
      unfold transcribePieces pieceResults
      have asked : ((Jobs.ask (.transcribe adapter index (.piece path) languageHint)).run r
          db).result = r.answer (.transcribe adapter index (.piece path) languageHint) := by
        rw [run_ask]
      cases answer : r.answer (.transcribe adapter index (.piece path) languageHint) with
      | error e =>
          rw [answer] at asked
          exact (run_bind_error asked _).1
      | ok piece =>
          rw [answer] at asked
          have noted := result_onChunk env reports (index + 1) total r db
          rw [bind_eq, (run_bind_ok asked _).1, Silent.ask, bind_eq, (run_bind_ok noted _).1,
            silent_onChunk]
          exact ih _ _

theorem silent_transcribeWithOptionalChunking (env : Environment) (reports : Bool)
    (adapter : TranscriptionChoice) (path : AudioPath) (languageHint : Option Text) (duration : Int) :
    (transcribeWithOptionalChunking env reports adapter path languageHint duration).Silent := by
  unfold transcribeWithOptionalChunking
  split
  · exact Silent.ask _
  · apply Silent.bind
    · exact Silent.ask _
    · exact fun pieces => silent_transcribePieces _ _ _ _ _ _ _ _

theorem result_transcribeWithOptionalChunking (env : Environment) (reports : Bool)
    (adapter : TranscriptionChoice) (path : AudioPath) (languageHint : Option Text)
    (r : Reaction effects) (db : Database) :
    ((transcribeWithOptionalChunking env reports adapter path languageHint
      env.settings.transcriptionChunkDurationSeconds).run r db).result =
        adapterResult env r adapter path languageHint := by
  unfold transcribeWithOptionalChunking adapterResult
  split
  · rw [run_ask]
  · have asked : ((Jobs.ask (.chunkedAudio path
        env.settings.transcriptionChunkDurationSeconds)).run r db).result =
          r.answer (.chunkedAudio path env.settings.transcriptionChunkDurationSeconds) := by
      rw [run_ask]
    cases answer : r.answer (.chunkedAudio path
        env.settings.transcriptionChunkDurationSeconds) with
    | error e =>
        rw [answer] at asked
        exact (run_bind_error asked _).1
    | ok pieces =>
        rw [answer] at asked
        rw [bind_eq, (run_bind_ok asked _).1, Silent.ask]
        exact result_transcribePieces _ _ _ _ _ _ _ _ _ _

/-- The last report is a failure; without a reporter there is none. -/
def ReportsFailure (reports : Bool) (events : List (Event effects)) : Prop :=
  if reports then (phases events).getLast? = some .failed else phases events = []

def Mute {α : Type} (p : JobBody α) : Prop := p.Emits fun event => phaseOf event = none

theorem Mute.phases_eq {α : Type} {p : JobBody α} (mute : Mute p) (r : Reaction effects)
    (db : Database) : phases (p.run r db).events = [] :=
  List.filterMap_eq_nil_iff.mpr fun event member => mute r db event member

theorem mute_report (phase : Phase) (percent : Option Int) : Mute (report false phase percent) :=
  Emits.done ()

theorem mute_transcribePieces (env : Environment) (adapter : TranscriptionChoice)
    (languageHint : Option Text) (total index : Nat) (stitched : TranscriptionResult)
    (pieces : List (ℚ × Text)) :
    Mute (transcribePieces env false adapter languageHint total index stitched pieces) := by
  induction pieces generalizing index stitched with
  | nil => exact Emits.done _
  | cons head rest ih =>
      obtain ⟨offset, path⟩ := head
      apply Emits.bind
      · exact Emits.ask rfl
      · intro piece
        apply Emits.bind
        · unfold onChunk
          split
          · exact Emits.done ()
          · exact mute_report _ _
        · exact fun _ => ih _ _

theorem mute_transcribeWithOptionalChunking (env : Environment) (adapter : TranscriptionChoice)
    (path : AudioPath) (languageHint : Option Text) (duration : Int) :
    Mute (transcribeWithOptionalChunking env false adapter path languageHint duration) := by
  unfold transcribeWithOptionalChunking
  split
  · exact Emits.ask rfl
  · apply Emits.bind
    · exact Emits.ask rfl
    · exact fun pieces => mute_transcribePieces _ _ _ _ _ _ _

theorem ends_reportedFailure (α : Type) {r : Reaction effects} {transition : JobBody Unit}
    {session : Uuid} {before after : Database} {label : Tx} (reports : Bool) (e : Exn)
    (written : transition.run r before = ⟨.ok (), after, [.committed label]⟩)
    (state : stateOf after session = (stateOf before session).map fun _ => exitState e) :
    Ends session before
      ((transition.bind fun _ => (report reports .failed none).bind fun _ =>
        (Process.raise e : JobBody α)).run r before) (.error ⟨e, true⟩) ∧
      phases ((transition.bind fun _ => (report reports .failed none).bind fun _ =>
        (Process.raise e : JobBody α)).run r before).events =
          if reports then [.failed] else [] := by
  rw [run_bind, written, Outcome.andThen_ok]
  cases reports with
  | true => exact ⟨⟨rfl, state⟩, rfl⟩
  | false => exact ⟨⟨rfl, state⟩, rfl⟩

theorem ends_transcriptionFailed {r : Reaction effects}
    (writable : r.fails .markSessionFailed = none)
    (restorable : r.fails .restoreSessionState = none) (session : Uuid) (reports : Bool) (e : Exn)
    (db : Database) :
    Ends session db ((transcriptionFailed session reports e).run r db)
        (.error (transcriptionObstacle e)) ∧
      ((transcriptionObstacle e).handled →
        phases ((transcriptionFailed session reports e).run r db).events =
          if reports then [.failed] else []) := by
  cases e
  case transientTranscription detail =>
    have failure := ends_reportedFailure TranscriptionResult reports (.transientJob detail)
      (run_restoreSessionState restorable session .audioUploaded db)
      (stateOf_updateState db session .audioUploaded)
    exact ⟨failure.1, fun _ => failure.2⟩
  case permanentTranscription detail =>
    have failure := ends_reportedFailure TranscriptionResult reports (.permanentJob detail)
      (run_markSessionFailed writable session none db) (stateOf_markFailed db session none)
    exact ⟨failure.1, fun _ => failure.2⟩
  case audioChunking detail =>
    have failure := ends_reportedFailure TranscriptionResult reports
      (.permanentJob s!"Audio chunking failed: {detail}")
      (run_markSessionFailed writable session none db) (stateOf_markFailed db session none)
    exact ⟨failure.1, fun _ => failure.2⟩
  all_goals
    refine ⟨⟨rfl, rfl⟩, fun handled => ?_⟩
    cases handled

def awaited (env : Environment) (r : Reaction effects) (adapter : TranscriptionChoice)
    (path : AudioPath) (languageHint : Option Text) (db : Database) :
    Except Obstacle (TranscriptionResult × Database) :=
  match adapterResult env r adapter path languageHint with
  | .error e => .error (transcriptionObstacle e)
  | .ok result => .ok (result, db)

theorem ends_transcription {r : Reaction effects} (writable : r.fails .markSessionFailed = none)
    (restorable : r.fails .restoreSessionState = none) (env : Environment) (session : Uuid)
    (reports : Bool) (adapter : TranscriptionChoice) (path : AudioPath)
    (languageHint : Option Text) (db : Database) :
    let p := (transcribeWithOptionalChunking env reports adapter path languageHint
      env.settings.transcriptionChunkDurationSeconds).rescue (transcriptionFailed session reports)
    Ends session db (p.run r db) (awaited env r adapter path languageHint db) ∧
      ∀ e, adapterResult env r adapter path languageHint = .error e →
        (transcriptionObstacle e).handled → ReportsFailure reports (p.run r db).events := by
  intro p
  have result := result_transcribeWithOptionalChunking env reports adapter path languageHint r db
  have quiet := silent_transcribeWithOptionalChunking env reports adapter path languageHint
    env.settings.transcriptionChunkDurationSeconds r db
  unfold awaited
  simp only [p, run_rescue, Outcome.orElse, result, quiet]
  cases answer : adapterResult env r adapter path languageHint with
  | ok value => exact ⟨⟨rfl, rfl⟩, fun e failed => by cases failed⟩
  | error e =>
      obtain ⟨ends, phase⟩ := ends_transcriptionFailed writable restorable session reports e db
      refine ⟨ends, fun e' failed handled => ?_⟩
      cases failed
      have last := phase handled
      unfold ReportsFailure
      simp only [phases_append, last]
      cases reports with
      | true => simp [List.getLast?_append]
      | false =>
          have mute := (mute_transcribeWithOptionalChunking env adapter path languageHint
            env.settings.transcriptionChunkDurationSeconds).phases_eq r db
          simp [mute]

/-! ## The whole job -/

def drawnId (r : Reaction effects) : TranscriptionMode → Uuid
  | .nonDiarised => (r.answer .chunkId).toOption.getD 0
  | .diarised => 0

theorem run_drawChunkId (r : Reaction effects) (mode : TranscriptionMode) (db : Database) :
    ((drawChunkId mode).run r db).result = .ok (drawnId r mode) ∧
      ((drawChunkId mode).run r db).state = db := by
  cases mode with
  | diarised => exact ⟨rfl, rfl⟩
  | nonDiarised =>
      unfold drawChunkId drawnId
      simp only [Process.run]
      cases r.answer .chunkId <;> exact ⟨rfl, rfl⟩

def stored (env : Environment) (r : Reaction effects) (session : Uuid) (mode : TranscriptionMode)
    (result : TranscriptionResult) (db : Database) : Except Obstacle (Unit × Database) :=
  match r.fails .persist with
  | some e => .error ⟨e, false⟩
  | none =>
      match persistOutput env.settings session mode (drawnId r mode) result db with
      | .error e => .error ⟨e, false⟩
      | .ok (_, db') => .ok ((), db')

def hint (env : Environment) : Option Text :=
  if env.settings.transcriptionLanguageHint = [] then none
  else some env.settings.transcriptionLanguageHint

def transcribeAndStore (env : Environment) (session : Uuid) (reports : Bool)
    (mode : TranscriptionMode) (path : AudioPath) (adapter : TranscriptionChoice) :
    JobBody Unit := do
  report reports
    (if 0 < env.settings.transcriptionChunkDurationSeconds then .reducing else .transcribing)
    (some 0)
  let result ← tryCatch
    (transcribeWithOptionalChunking env reports adapter path (hint env)
      env.settings.transcriptionChunkDurationSeconds)
    (transcriptionFailed session reports)
  storeOutput env session mode result
  report reports .done (some 100)

theorem transcribeSession_eq (env : Environment) (session : Uuid) (reports : Bool) :
    transcribeSession env session reports =
      (atomically Tx.begin (beginTranscription session)).bind fun started =>
        (locateAudio session started).bind fun path =>
          (chooseAdapter env session).bind fun adapter =>
            transcribeAndStore env session reports started.mode path adapter := by
  unfold transcribeSession chooseAdapter transcribeAndStore hint
  simp only [bind_eq, Process.bind_assoc]

def met (env : Environment) (r : Reaction effects) (session : Uuid) (started : Started)
    (db : Database) : Except Obstacle (TranscriptionResult × Database) := do
  let (path, db₁) ← located r session started db
  let (adapter, db₂) ← chosen env r session db₁
  awaited env r adapter path (hint env) db₂

theorem awaited_ok {env : Environment} {r : Reaction effects} {adapter : TranscriptionChoice}
    {path : AudioPath} {languageHint : Option Text} {db after : Database}
    {result : TranscriptionResult}
    (outcome : awaited env r adapter path languageHint db = .ok (result, after)) : db = after := by
  unfold awaited at outcome
  split at outcome
  · cases outcome
  · cases outcome
    rfl

theorem ends_store (env : Environment) (r : Reaction effects) (session : Uuid) (reports : Bool)
    (mode : TranscriptionMode) (result : TranscriptionResult) (db : Database) :
    Ends session db
      (((storeOutput env session mode result).bind fun _ =>
        report reports .done (some 100)).run r db) (stored env r session mode result db) := by
  obtain ⟨id, same⟩ := run_drawChunkId r mode db
  unfold storeOutput stored
  rw [bind_eq, Process.bind_assoc]
  apply Ends.after id same rfl
  cases aborted : r.fails .persist with
  | some e =>
      apply Ends.stop
      rw [run_atomically, aborted]
      exact ⟨rfl, rfl⟩
  | none =>
      cases written : persistOutput env.settings session mode (drawnId r mode) result db with
      | error e =>
          apply Ends.stop
          rw [run_atomically, aborted, written]
          exact ⟨rfl, rfl⟩
      | ok pair =>
          obtain ⟨_, after⟩ := pair
          have commit : ((atomically Tx.persist
              (persistOutput env.settings session mode (drawnId r mode) result)).run r db) =
                ⟨.ok (), after, [.committed .persist]⟩ := by
            rw [run_atomically, aborted, written]
          obtain ⟨last, unchanged, _⟩ := run_report reports .done (some 100) r after
          refine ⟨?_, ?_⟩
          · rw [(run_bind_ok (congrArg _ commit) _).1, commit, last]
          · rw [(run_bind_ok (congrArg _ commit) _).2, commit, unchanged]

theorem ends_transcribeAndStore {r : Reaction effects}
    (writable : r.fails .markSessionFailed = none)
    (restorable : r.fails .restoreSessionState = none) (env : Environment) (session : Uuid)
    (reports : Bool) (mode : TranscriptionMode) (path : AudioPath) (adapter : TranscriptionChoice)
    (db : Database) :
    let p := transcribeAndStore env session reports mode path adapter
    Ends session db (p.run r db) (do
      let (result, db') ← awaited env r adapter path (hint env) db
      stored env r session mode result db') ∧
    ∀ obstacle, awaited env r adapter path (hint env) db = .error obstacle → obstacle.handled →
      ReportsFailure reports (p.run r db).events := by
  intro p
  obtain ⟨first, unchanged, opening⟩ := run_report reports
    (if 0 < env.settings.transcriptionChunkDurationSeconds then .reducing else .transcribing)
    (some 0) r db
  obtain ⟨ends, failure⟩ := ends_transcription writable restorable env session reports adapter path
    (hint env) db
  constructor
  · apply Ends.after first unchanged rfl
    cases outcome : awaited env r adapter path (hint env) db with
    | error obstacle =>
        rw [outcome] at ends
        exact Ends.stop _ ends
    | ok pair =>
        obtain ⟨result, after⟩ := pair
        rw [outcome] at ends
        obtain rfl := awaited_ok outcome
        apply Ends.after ends.1 ends.2 rfl
        exact ends_store env r session reports mode result db
  · intro obstacle outcome handled
    rw [outcome] at ends
    have failed : ∃ e, adapterResult env r adapter path (hint env) = .error e ∧
        transcriptionObstacle e = obstacle := by
      unfold awaited at outcome
      cases answer : adapterResult env r adapter path (hint env) with
      | ok value => simp [answer] at outcome
      | error e => exact ⟨e, rfl, by simpa [answer] using outcome⟩
    obtain ⟨e, raised, rfl⟩ := failed
    have last := failure e raised handled
    have events : (p.run r db).events = ((report reports
        (if 0 < env.settings.transcriptionChunkDurationSeconds then .reducing else .transcribing)
        (some 0)).run r db).events ++ (((transcribeWithOptionalChunking env reports adapter path
          (hint env) env.settings.transcriptionChunkDurationSeconds).rescue
            (transcriptionFailed session reports)).run r db).events := by
      unfold p transcribeAndStore
      rw [bind_eq, events_bind_ok first, unchanged]
      exact congrArg _ (events_bind_error ends.1 _)
    unfold ReportsFailure at last ⊢
    simp only [events, phases_append, opening]
    cases reports with
    | true =>
        rw [if_pos rfl] at last ⊢
        simp only [if_true, List.cons_append, List.nil_append]
        rw [List.getLast?_cons, last]
        rfl
    | false =>
        rw [if_neg Bool.false_ne_true] at last ⊢
        rw [last]
        rfl

/-! ## Nothing is reported before the adapter is chosen -/

theorem mute_markSessionFailed (session : Uuid) (reason : Option String) :
    Mute (markSessionFailed session reason) := Emits.atomically (by rfl) (by rfl) _

theorem mute_prepareRawAudio (session : Uuid) (source : AudioPath) :
    Mute (prepareRawAudio session source) := by
  apply Emits.rescue
  · exact Emits.ask rfl
  · intro e
    cases e
    case audioReduce detail =>
      apply Emits.bind
      · exact Emits.tell rfl
      · intro _
        apply Emits.bind
        · exact mute_markSessionFailed _ _
        · exact fun _ => Emits.raise _
    all_goals exact Emits.raise _

theorem mute_locateAudio (session : Uuid) (started : Started) :
    Mute (locateAudio session started) := by
  have failure (reason : Option String) (detail : String) :
      Mute ((markSessionFailed session reason).bind fun _ =>
        (Process.raise (.permanentJob detail) : JobBody AudioPath)) := by
    apply Emits.bind
    · exact mute_markSessionFailed _ _
    · exact fun _ => Emits.raise _
  apply Emits.bind
  · exact Emits.ask rfl
  · intro present
    split
    · exact failure none _
    · split
      · apply Emits.bind
        · exact mute_prepareRawAudio _ _
        · intro prepared
          apply Emits.bind
          · exact Emits.atomically (by rfl) (by rfl) _
          · intro updated
            split
            · exact failure (some _) _
            · apply Emits.bind
              · exact Emits.tell rfl
              · exact fun _ => Emits.done _
      · exact Emits.done _

theorem mute_chooseAdapter (env : Environment) (session : Uuid) :
    Mute (chooseAdapter env session) := by
  apply Emits.bind
  · exact emits_loadSessionModelSettings session (fun _ => rfl) (fun _ => rfl)
  · intro row
    apply Emits.bind
    · exact Emits.ofExcept _
    · intro choice
      apply Emits.bind
      · exact Emits.ask rfl
      · exact fun _ => Emits.done _

/-! ## From the first transaction on -/

theorem located_ok {r : Reaction effects} {session : Uuid} {started : Started}
    {db after : Database} {path : AudioPath}
    (outcome : located r session started db = .ok (path, after)) :
    ∃ audios, after = { db with audioSources := audios } := by
  unfold located at outcome
  split at outcome
  · cases outcome
  · cases outcome
  · split at outcome
    · split at outcome
      · cases outcome
      · cases outcome
      · split at outcome
        · cases outcome
        · split at outcome
          · cases outcome
            exact storePreparedAudio_eq ‹_›
          · cases outcome
    · cases outcome
      exact ⟨db.audioSources, rfl⟩

theorem chosen_ok {env : Environment} {r : Reaction effects} {session : Uuid}
    {db after : Database} {adapter : TranscriptionChoice}
    (outcome : chosen env r session db = .ok (adapter, after)) : db = after := by
  have built_ok (row : Option ModelSettings)
      (outcome : built env r row db = .ok (adapter, after)) : db = after := by
    unfold built at outcome
    split at outcome
    · cases outcome
    · split at outcome
      · cases outcome
      · cases outcome
        rfl
  unfold chosen at outcome
  split at outcome
  · cases outcome
  · split at outcome
    · exact built_ok none outcome
    · split at outcome
      · cases outcome
      · exact built_ok _ outcome

theorem met_ok {env : Environment} {r : Reaction effects} {session : Uuid} {started : Started}
    {db after : Database} {result : TranscriptionResult}
    (reached : met env r session started db = .ok (result, after)) :
    ∃ audios, after = { db with audioSources := audios } := by
  unfold met at reached
  cases audio : located r session started db with
  | error obstacle =>
      rw [audio] at reached
      cases reached
  | ok pair =>
      obtain ⟨path, db₁⟩ := pair
      rw [audio] at reached
      change (chosen env r session db₁ >>= _) = _ at reached
      cases choice : chosen env r session db₁ with
      | error obstacle =>
          rw [choice] at reached
          cases reached
      | ok pair =>
          obtain ⟨adapter, db₂⟩ := pair
          rw [choice] at reached
          obtain rfl := chosen_ok choice
          obtain rfl := awaited_ok reached
          exact located_ok audio

theorem phases_after_mute {α β : Type} {p : JobBody α} (mute : Mute p) {r : Reaction effects}
    {db : Database} {a : α} (returned : (p.run r db).result = .ok a) (f : α → JobBody β) :
    phases ((p.bind f).run r db).events = phases ((f a).run r (p.run r db).state).events := by
  rw [events_bind_ok returned, phases_append, mute.phases_eq, List.nil_append]

theorem phases_stopped {α β : Type} {p : JobBody α} (mute : Mute p) {r : Reaction effects}
    {db : Database} {e : Exn} (raised : (p.run r db).result = .error e) (f : α → JobBody β) :
    phases ((p.bind f).run r db).events = [] := by
  rw [events_bind_error raised, mute.phases_eq]

theorem ends_transcribeSession {r : Reaction effects}
    (writable : r.fails .markSessionFailed = none)
    (restorable : r.fails .restoreSessionState = none) (env : Environment) {session : Uuid}
    (reports : Bool) {started : Started} {db db₁ : Database} (begun : r.fails .begin = none)
    (begins : beginTranscription session db = .ok (started, db₁)) :
    let o := (transcribeSession env session reports).run r db
    Ends session db₁ o (do
      let (result, db') ← met env r session started db₁
      stored env r session started.mode result db') ∧
    ∀ obstacle, met env r session started db₁ = .error obstacle → obstacle.handled →
      phases o.events = [] ∨ ReportsFailure reports o.events := by
  intro o
  have commit : (atomically Tx.begin (beginTranscription session)).run r db =
      ⟨.ok started, db₁, [.committed .begin]⟩ := by
    rw [run_atomically, begun, begins]
  have mute : Mute (atomically Tx.begin (beginTranscription session)) :=
    Emits.atomically (by rfl) (by rfl) _
  have returned := congrArg Outcome.result commit
  have result := (run_bind_ok returned fun started =>
    (locateAudio session started).bind fun path => (chooseAdapter env session).bind fun adapter =>
      transcribeAndStore env session reports started.mode path adapter).1
  have final := (run_bind_ok returned fun started =>
    (locateAudio session started).bind fun path => (chooseAdapter env session).bind fun adapter =>
      transcribeAndStore env session reports started.mode path adapter).2
  have noted := phases_after_mute mute returned fun started =>
    (locateAudio session started).bind fun path => (chooseAdapter env session).bind fun adapter =>
      transcribeAndStore env session reports started.mode path adapter
  rw [← transcribeSession_eq, commit] at result final noted
  have audio := ends_locateAudio writable session started db₁
  have kept {path : AudioPath} {db₂ : Database}
      (outcome : located r session started db₁ = .ok (path, db₂)) :
      stateOf db₂ session = stateOf db₁ session := by
    obtain ⟨audios, rfl⟩ := located_ok outcome
    rfl
  cases outcome : located r session started db₁ with
  | error other =>
      have decided : met env r session started db₁ = .error other := by
        unfold met
        rw [outcome]
        rfl
      rw [decided]
      rw [outcome] at audio
      refine ⟨Ends.congr result final (Ends.stop _ audio), fun _ _ _ => .inl ?_⟩
      rw [noted]
      exact phases_stopped (mute_locateAudio session started) audio.1 _
  | ok pair =>
      obtain ⟨path, db₂⟩ := pair
      rw [outcome] at audio
      have choice := ends_chooseAdapter env r session db₂
      rw [phases_after_mute (mute_locateAudio session started) audio.1, audio.2] at noted
      cases outcome' : chosen env r session db₂ with
      | error other =>
          have decided : met env r session started db₁ = .error other := by
            unfold met
            rw [outcome]
            change (chosen env r session db₂ >>= _) = _
            rw [outcome']
            rfl
          rw [decided]
          rw [outcome'] at choice
          refine ⟨Ends.congr result final ?_, fun _ _ _ => .inl ?_⟩
          · exact Ends.after audio.1 audio.2 (kept outcome) (Ends.stop _ choice)
          · rw [noted]
            exact phases_stopped (mute_chooseAdapter env session) choice.1 _
      | ok pair =>
          obtain ⟨adapter, db₃⟩ := pair
          have decided : met env r session started db₁ = awaited env r adapter path (hint env) db₃ := by
            unfold met
            rw [outcome]
            change (chosen env r session db₂ >>= _) = _
            rw [outcome']
            rfl
          rw [decided]
          rw [outcome'] at choice
          obtain rfl := chosen_ok outcome'
          have tail := ends_transcribeAndStore writable restorable env session reports started.mode
            path adapter db₂
          refine ⟨Ends.congr result final ?_, fun obstacle obstructed handled => .inr ?_⟩
          · exact Ends.after audio.1 audio.2 (kept outcome)
              (Ends.after choice.1 choice.2 rfl tail.1)
          · unfold ReportsFailure
            rw [noted, phases_after_mute (mute_chooseAdapter env session) choice.1, choice.2]
            exact tail.2 obstacle obstructed handled

end Kaeyris.Proof
