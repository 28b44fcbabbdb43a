import Kaeyris.Proof.ExitState

/-!
# Running the transcription job twice

RQ may deliver a job again after its last commit. In diarised mode the second run overwrites the
first; in non-diarised mode the chunks of the first run are in its way.
-/

namespace Kaeyris.Proof
open Lib Jobs Process

/-! ## The stored output -/

inductive StoredOutput
  | transcription (row : Option Transcription)
  | chunks (rows : List (Nat × Text × Option Text))
  deriving DecidableEq

/-- The output by which a mode is served; the identifiers of chunks are drawn at random. -/
def storedOutput (db : Database) (session : Uuid) : TranscriptionMode → StoredOutput
  | .diarised => .transcription (TranscriptionRepository.getForSession db session)
  | .nonDiarised => .chunks ((ChunkRepository.listForSession db session).map fun chunk =>
      (chunk.ordre, chunk.text, chunk.summaryText))

/-- Nothing fails on the way to the last transaction, and the adapter delivers `result`. -/
structure Delivers (env : Environment) (r : Reaction effects) (session : Uuid) (db : Database)
    (result : TranscriptionResult) : Prop where
  available : ∀ label, r.fails label = none
  reached : ∃ started db₁ db₂, beginTranscription session db = .ok (started, db₁) ∧
    met env r session started db₁ = .ok (result, db₂)

def modeOf (db : Database) (session : Uuid) : Option TranscriptionMode :=
  (db.sessions.get? session).map Session.transcriptionMode

structure FreshSession (db : Database) (session : Uuid) (mode : TranscriptionMode) : Prop where
  stored : modeOf db session = some mode
  transcription : TranscriptionRepository.getForSession db session = none
  chunks : ChunkRepository.listForSession db session = []

def transcribedBy (env : Environment) (reports : Bool) (r : Reaction effects) (session : Uuid)
    (db : Database) : Database := ((transcribeSession env session reports).run r db).state

theorem beginTranscription_mode {session : Uuid} {db db₁ : Database} {started : Started}
    (begins : beginTranscription session db = .ok (started, db₁)) :
    modeOf db session = some started.mode ∧
      db₁ = SessionRepository.updateState db session .transcribing := by
  obtain ⟨row, audio, stored, -, -, rfl, rfl⟩ := beginTranscription_ok begins
  unfold modeOf
  rw [stored]
  exact ⟨rfl, rfl⟩

theorem modeOf_updateState (db : Database) (session : Uuid) (state : SessionState) :
    modeOf (SessionRepository.updateState db session state) session = modeOf db session := by
  unfold modeOf SessionRepository.updateState
  rw [Table.get?_update, Option.map_map]
  congr 1
  funext row
  dsimp only [Function.comp_apply]
  split <;> rfl

theorem ends_delivered {env : Environment} {r : Reaction effects} {session : Uuid}
    {db db₁ db₂ : Database} {started : Started} {result : TranscriptionResult}
    (available : ∀ label, r.fails label = none)
    (begins : beginTranscription session db = .ok (started, db₁))
    (reached : met env r session started db₁ = .ok (result, db₂)) (reports : Bool) :
    match persistOutput env.settings session started.mode (drawnId r started.mode) result db₂ with
    | .ok (_, after) => ((transcribeSession env session reports).run r db).result = .ok () ∧
        transcribedBy env reports r session db = after
    | .error e => ((transcribeSession env session reports).run r db).result = .error e ∧
        stateOf (transcribedBy env reports r session db) session = some .transcribing := by
  obtain ⟨ends, -⟩ := ends_transcribeSession (available _) (available _) env reports (available _)
    begins
  rw [reached] at ends
  change Ends session db₁ _ (Proof.stored env r session started.mode result db₂) at ends
  unfold Proof.stored at ends
  rw [available] at ends
  dsimp only at ends ⊢
  cases persisted : persistOutput env.settings session started.mode (drawnId r started.mode) result
      db₂ with
  | ok pair =>
      rw [persisted] at ends
      exact ends
  | error e =>
      rw [persisted] at ends
      exact ⟨ends.1, ends.2.trans (beginTranscription_state begins)⟩

theorem Delivers.outcome {env : Environment} {r : Reaction effects} {session : Uuid}
    {db : Database} {result : TranscriptionResult} (delivers : Delivers env r session db result)
    (reports : Bool) {mode : TranscriptionMode} (stored : modeOf db session = some mode) :
    ∃ audios, let before := { SessionRepository.updateState db session .transcribing with
        audioSources := audios }
      match persistOutput env.settings session mode (drawnId r mode) result before with
      | .ok (_, after) => ((transcribeSession env session reports).run r db).result = .ok () ∧
          transcribedBy env reports r session db = after
      | .error e => ((transcribeSession env session reports).run r db).result = .error e ∧
          stateOf (transcribedBy env reports r session db) session = some .transcribing := by
  obtain ⟨started, db₁, db₂, begins, reached⟩ := delivers.reached
  obtain ⟨same, rfl⟩ := beginTranscription_mode begins
  obtain rfl : started.mode = mode := Option.some.inj (same.symm.trans stored)
  have ends := ends_delivered delivers.available begins reached reports
  obtain ⟨audios, rfl⟩ := met_ok reached
  exact ⟨audios, ends⟩

/-! ## Inserting chunks -/

theorem newRows_strict (first session : Uuid) (texts : List Text) :
    (ChunkRepository.newRows first session texts).Pairwise fun a b =>
      a.id < b.id ∧ a.ordre < b.ordre := by
  rw [List.pairwise_iff_getElem]
  intro i j boundI boundJ before
  simp only [ChunkRepository.newRows, List.getElem_mapIdx]
  exact ⟨Nat.add_lt_add_left before first, before⟩

theorem mem_newRows {first session : Uuid} {texts : List Text} {row : Chunk}
    (member : row ∈ ChunkRepository.newRows first session texts) :
    first ≤ row.id ∧ row.sessionId = session := by
  obtain ⟨i, _, rfl⟩ := List.mem_mapIdx.mp member
  exact ⟨Nat.le_add_right _ _, rfl⟩

theorem lt_firstId {db : Database} {id : Uuid} (old : id ∈ db.chunks.rows.map Chunk.id)
    (drawn : Uuid) : id < ChunkRepository.firstId db drawn :=
  (lt_fresh old).trans_le (le_max_right _ _)

theorem bulkCreate_of_free {db : Database} {session : Uuid}
    (free : ChunkRepository.listForSession db session = []) (texts : List Text) (drawn : Uuid) :
    ∃ after, ChunkRepository.bulkCreateForSession db session texts drawn = some after := by
  have absent : ∀ row ∈ db.chunks.rows, row.sessionId ≠ session := by
    have none := Table.insertionSort_eq_nil.mp free
    simpa [Table.select, List.filter_eq_nil_iff] using none
  have strict := newRows_strict (ChunkRepository.firstId db drawn) session texts
  cases created : ChunkRepository.bulkCreateForSession db session texts drawn with
  | some after => exact ⟨after, rfl⟩
  | none =>
      unfold ChunkRepository.bulkCreateForSession at created
      rw [Option.map_eq_none_iff, Indexed.insertAll?_eq_none] at created
      exfalso
      apply created
      constructor
      · rw [List.map_append, List.nodup_append']
        refine ⟨db.chunks.unique, ?_, ?_⟩
        · rw [List.Nodup, List.pairwise_map]
          exact strict.imp fun less => less.1.ne
        · intro id old new
          obtain ⟨row, member, rfl⟩ := List.mem_map.mp new
          exact (lt_firstId old drawn).not_ge (mem_newRows member).1
      · rw [List.map_append, List.nodup_append']
        refine ⟨db.chunks.uniqueIndex, ?_, ?_⟩
        · rw [List.Nodup, List.pairwise_map]
          exact strict.imp fun less same => less.2.ne (congrArg Prod.snd same)
        · intro place old new
          obtain ⟨row, member, rfl⟩ := List.mem_map.mp new
          obtain ⟨other, present, same⟩ := List.mem_map.mp old
          exact absent other present ((congrArg Prod.fst same).trans (mem_newRows member).2)

theorem select_append {db after : Database} {session first : Uuid} {texts : List Text}
    (rows : after.chunks.rows = db.chunks.rows ++ ChunkRepository.newRows first session texts) :
    (after.chunks.toTable.select fun row => row.sessionId = session) =
      (db.chunks.toTable.select fun row => row.sessionId = session) ++
        ChunkRepository.newRows first session texts := by
  unfold Table.select
  rw [rows, List.filter_append]
  congr 1
  rw [List.filter_eq_self]
  intro row member
  simpa using (mem_newRows member).2

theorem listForSession_length {db after : Database} {session first : Uuid} {texts : List Text}
    (rows : after.chunks.rows = db.chunks.rows ++ ChunkRepository.newRows first session texts) :
    (ChunkRepository.listForSession after session).length =
      (ChunkRepository.listForSession db session).length + texts.length := by
  unfold ChunkRepository.listForSession
  rw [List.length_insertionSort, List.length_insertionSort, select_append rows,
    List.length_append, ChunkRepository.newRows, List.length_mapIdx]

theorem storedOutput_created {db after : Database} {session first : Uuid} {texts : List Text}
    (free : ChunkRepository.listForSession db session = [])
    (rows : after.chunks.rows = db.chunks.rows ++ ChunkRepository.newRows first session texts) :
    storedOutput after session .nonDiarised =
      .chunks (texts.mapIdx fun ordre text => (ordre, text, none)) := by
  have none := Table.insertionSort_eq_nil.mp free
  have sorted : (ChunkRepository.newRows first session texts).insertionSort
      (fun a b => a.ordre ≤ b.ordre) = ChunkRepository.newRows first session texts := by
    apply List.Pairwise.insertionSort_eq
    exact (newRows_strict first session texts).imp fun less => less.2.le
  dsimp only [storedOutput, ChunkRepository.listForSession]
  rw [select_append rows, none, List.nil_append, sorted, ChunkRepository.newRows]
  simp [List.mapIdx_eq_zipIdx_map]

/-! ## Two runs against one -/

theorem persistOutput_chunks {settings : Settings} {session drawn : Uuid} {result : TranscriptionResult}
    {db after : Database} {u : Unit}
    (persisted : persistOutput settings session .nonDiarised drawn result db = .ok (u, after)) :
    ∃ chunks first, after =
        SessionRepository.updateState { db with chunks := chunks } session .transcribed ∧
      chunks.rows =
        db.chunks.rows ++ ChunkRepository.newRows first session (chunksOf settings result) := by
  unfold persistOutput at persisted
  cases created : ChunkRepository.bulkCreateForSession db session (chunksOf settings result)
      drawn with
  | none => simp [created] at persisted
  | some db' =>
      simp only [created, Except.ok.injEq, Prod.mk.injEq, true_and] at persisted
      subst persisted
      unfold ChunkRepository.bulkCreateForSession at created
      obtain ⟨chunks, inserted, rfl⟩ := Option.map_eq_some_iff.mp created
      exact ⟨chunks, _, rfl, Indexed.insertAll?_eq_some.mp inserted⟩

theorem persistOutput_mode {settings : Settings} {session drawn : Uuid} {mode : TranscriptionMode}
    {result : TranscriptionResult} {db after : Database} {u : Unit}
    (persisted : persistOutput settings session mode drawn result db = .ok (u, after)) :
    modeOf after session = modeOf db session := by
  cases mode with
  | diarised =>
      cases persisted
      exact modeOf_updateState _ _ _
  | nonDiarised =>
      obtain ⟨chunks, first, rfl, -⟩ := persistOutput_chunks persisted
      exact modeOf_updateState _ _ _

theorem state_transcribing {db : Database} {session : Uuid} {mode : TranscriptionMode}
    (stored : modeOf db session = some mode) (state : SessionState) :
    (stateOf (SessionRepository.updateState db session .transcribing) session).map
      (fun _ => state) = some state := by
  rw [stateOf_updateState]
  unfold modeOf at stored
  unfold stateOf
  cases found : db.sessions.get? session with
  | none => simp [found] at stored
  | some row => rfl

section Deliver
variable {env : Environment} {r : Reaction effects} {session : Uuid} {db : Database}
  {result : TranscriptionResult}

theorem Delivers.completed (delivers : Delivers env r session db result) {reports : Bool}
    {mode : TranscriptionMode} (stored : modeOf db session = some mode)
    (completed : ((transcribeSession env session reports).run r db).result = .ok ()) :
    modeOf (transcribedBy env reports r session db) session = some mode ∧
      stateOf (transcribedBy env reports r session db) session = some .transcribed := by
  obtain ⟨audios, ends⟩ := delivers.outcome reports stored
  dsimp only at ends
  split at ends
  case h_1 persisted =>
    rw [ends.2, persistOutput_mode persisted]
    constructor
    · exact (modeOf_updateState db session .transcribing).trans stored
    · exact (persistOutput_ok persisted).1.trans (state_transcribing stored _)
  case h_2 => cases ends.1.symm.trans completed

theorem Delivers.diarised (delivers : Delivers env r session db result) (reports : Bool)
    (stored : modeOf db session = some .diarised) :
    stateOf (transcribedBy env reports r session db) session = some .transcribed ∧
      storedOutput (transcribedBy env reports r session db) session .diarised =
        .transcription
          (some ⟨session, result.segments, result.language, result.modelUsed, result.provider⟩) := by
  obtain ⟨audios, ends⟩ := delivers.outcome reports stored
  dsimp only at ends
  split at ends
  case h_1 persisted =>
    obtain ⟨state, output⟩ := persistOutput_ok persisted
    rw [ends.2]
    constructor
    · rw [state]
      exact state_transcribing stored _
    · exact congrArg StoredOutput.transcription output
  case h_2 persisted => cases persisted

theorem Delivers.nonDiarised (delivers : Delivers env r session db result) (reports : Bool)
    (stored : modeOf db session = some .nonDiarised) :
    (ChunkRepository.listForSession db session = [] →
      stateOf (transcribedBy env reports r session db) session = some .transcribed) ∧
    (stateOf (transcribedBy env reports r session db) session = some .transcribed →
      ∃ first, (transcribedBy env reports r session db).chunks.rows =
        db.chunks.rows ++
          ChunkRepository.newRows first session (chunksOf env.settings result)) := by
  obtain ⟨audios, ends⟩ := delivers.outcome reports stored
  dsimp only at ends
  split at ends
  case h_1 persisted =>
    obtain ⟨state, -⟩ := persistOutput_ok persisted
    rw [ends.2]
    obtain ⟨chunks, first, rfl, rows⟩ := persistOutput_chunks persisted
    exact ⟨fun _ => state.trans (state_transcribing stored _), fun _ => ⟨first, rows⟩⟩
  case h_2 persisted =>
    rw [ends.2]
    refine ⟨fun free => ?_, fun same => by cases same⟩
    have free' : ChunkRepository.listForSession
        { SessionRepository.updateState db session .transcribing with audioSources := audios }
        session = [] := free
    obtain ⟨after, created⟩ := bulkCreate_of_free free' (chunksOf env.settings result)
      (drawnId r .nonDiarised)
    simp [persistOutput, created] at persisted

end Deliver

theorem redelivery_nothing {env : Environment} {session : Uuid} {a b c : Reaction effects}
    {db blank : Database} {r₁ r₂ : TranscriptionResult} {reports : Bool}
    (stored : modeOf db session = some .nonDiarised) (first : Delivers env a session db r₁)
    (completed : ((transcribeSession env session reports).run a db).result = .ok ())
    (second : Delivers env b session (transcribedBy env reports a session db) r₂)
    (fresh : FreshSession blank session .nonDiarised) (single : Delivers env c session blank r₂)
    (state : stateOf (transcribedBy env reports b session (transcribedBy env reports a session db))
      session = some .transcribed)
    (same : storedOutput
        (transcribedBy env reports b session (transcribedBy env reports a session db)) session
          .nonDiarised =
      storedOutput (transcribedBy env reports c session blank) session .nonDiarised) :
    ChunkRepository.listForSession db session = [] ∧ (fullText r₁).Blank := by
  obtain ⟨kept, done⟩ := first.completed stored completed
  obtain ⟨i, before⟩ := (first.nonDiarised reports stored).2 done
  obtain ⟨j, after⟩ := (second.nonDiarised reports kept).2 state
  obtain ⟨transcribes, created⟩ := single.nonDiarised reports fresh.stored
  obtain ⟨k, alone⟩ := created (transcribes fresh.chunks)
  have length := listForSession_length before
  have total := listForSession_length after
  have equal := congrArg (fun output => match output with
    | .transcription _ => 0
    | .chunks rows => rows.length) (same.trans (storedOutput_created fresh.chunks alone))
  simp only [storedOutput, List.length_map, List.length_mapIdx] at equal
  constructor
  · rw [← List.length_eq_zero_iff]
    omega
  · have none : chunksOf env.settings r₁ = [] := by
      rw [← List.length_eq_zero_iff]
      omega
    exact TextChunker.chunkText_eq_nil.mp none

/-- A redelivered job leaves what a single run would have left exactly when the session is diarised
or when the earlier run had nothing to store and found nothing. -/
theorem redelivery_iff {env : Environment} {session : Uuid} {a b c : Reaction effects}
    {db blank : Database} {r₁ r₂ : TranscriptionResult} {mode : TranscriptionMode}
    (reports : Bool) (stored : modeOf db session = some mode) (first : Delivers env a session db r₁)
    (completed : ((transcribeSession env session reports).run a db).result = .ok ())
    (second : Delivers env b session (transcribedBy env reports a session db) r₂)
    (fresh : FreshSession blank session mode) (single : Delivers env c session blank r₂) :
    (stateOf (transcribedBy env reports b session (transcribedBy env reports a session db)) session
        = some .transcribed ∧
      storedOutput (transcribedBy env reports b session (transcribedBy env reports a session db))
          session mode =
        storedOutput (transcribedBy env reports c session blank) session mode) ↔
      mode = .diarised ∨
        (ChunkRepository.listForSession db session = [] ∧ (fullText r₁).Blank) := by
  obtain ⟨kept, done⟩ := first.completed stored completed
  cases mode with
  | diarised =>
      obtain ⟨state, output⟩ := second.diarised reports kept
      obtain ⟨-, expected⟩ := single.diarised reports fresh.stored
      exact iff_of_true ⟨state, output.trans expected.symm⟩ (.inl rfl)
  | nonDiarised =>
      constructor
      · rintro ⟨state, same⟩
        exact .inr (redelivery_nothing stored first completed second fresh single state same)
      · rintro (other | ⟨free, blankText⟩)
        · cases other
        · have empty : chunksOf env.settings r₁ = [] := TextChunker.chunkText_eq_nil.mpr blankText
          obtain ⟨i, before⟩ := (first.nonDiarised reports stored).2 done
          have free' : ChunkRepository.listForSession
              (transcribedBy env reports a session db) session = [] := by
            rw [← List.length_eq_zero_iff, listForSession_length before, free, empty]
            rfl
          obtain ⟨transcribes, created⟩ := second.nonDiarised reports kept
          obtain ⟨transcribes', created'⟩ := single.nonDiarised reports fresh.stored
          obtain ⟨j, after⟩ := created (transcribes free')
          obtain ⟨k, alone⟩ := created' (transcribes' fresh.chunks)
          have expected := storedOutput_created fresh.chunks alone
          exact ⟨transcribes free', (storedOutput_created free' after).trans expected.symm⟩

/-! ## Two concrete redeliveries -/

def spoken (content : Text) : TranscriptionResult := ⟨[⟨[], 0, 1, content⟩], [], [], []⟩

def hearing (content : Text) : Reaction effects :=
  { obliging with
    answer
      | .chunkedAudio _ _ => .ok [(0, [])]
      | .transcribe _ _ _ _ => .ok (spoken content)
      | query => obliging.answer query }

def heard (content : Text) : TranscriptionResult :=
  (⟨[], [], [], []⟩ : TranscriptionResult).stitch 0 (spoken content)

def uploadedIn (mode : TranscriptionMode) : Database :=
  { uploadedDatabase with
    sessions := ⟨[{ uploadedSession with transcriptionMode := mode }], List.nodup_singleton _⟩ }

theorem delivers_hearing (mode : TranscriptionMode) (content : Text) :
    Delivers sampleEnvironment (hearing content) 1 (uploadedIn mode) (heard content) :=
  ⟨fun _ => rfl, _, _, _, rfl, rfl⟩

theorem uploadedIn_fresh (mode : TranscriptionMode) : FreshSession (uploadedIn mode) 1 mode :=
  ⟨rfl, rfl, rfl⟩

theorem redelivery_diarised :
    stateOf (transcribedBy sampleEnvironment true (hearing ['b']) 1
        (transcribedBy sampleEnvironment true (hearing ['a']) 1 (uploadedIn .diarised))) 1 =
      some .transcribed ∧
    storedOutput (transcribedBy sampleEnvironment true (hearing ['b']) 1
        (transcribedBy sampleEnvironment true (hearing ['a']) 1 (uploadedIn .diarised))) 1
          .diarised =
      storedOutput (transcribedBy sampleEnvironment true (hearing ['b']) 1 (uploadedIn .diarised))
        1 .diarised :=
  (redelivery_iff true rfl (delivers_hearing .diarised ['a']) rfl
    ⟨fun _ => rfl, _, _, _, rfl, rfl⟩ (uploadedIn_fresh .diarised)
    (delivers_hearing .diarised ['b'])).mpr (.inl rfl)

/-- The first run stores one chunk; the second meets it and stays in `transcribing`. -/
theorem redelivery_blocked :
    ¬(stateOf (transcribedBy sampleEnvironment true (hearing ['a']) 1
          (transcribedBy sampleEnvironment true (hearing ['a']) 1 (uploadedIn .nonDiarised))) 1 =
        some .transcribed ∧
      storedOutput (transcribedBy sampleEnvironment true (hearing ['a']) 1
          (transcribedBy sampleEnvironment true (hearing ['a']) 1 (uploadedIn .nonDiarised))) 1
            .nonDiarised =
        storedOutput
          (transcribedBy sampleEnvironment true (hearing ['a']) 1 (uploadedIn .nonDiarised)) 1
            .nonDiarised) := by
  rintro ⟨state, same⟩
  have first := delivers_hearing .nonDiarised ['a']
  have fresh := uploadedIn_fresh .nonDiarised
  have done := (first.nonDiarised true fresh.stored).1 fresh.chunks
  obtain ⟨started, db₁, db₂, begins, reached⟩ := first.reached
  have ends := ends_delivered first.available begins reached true
  cases begins
  cases reached
  split at ends
  case h_1 persisted =>
    obtain ⟨chunks, i, rfl, -⟩ := persistOutput_chunks persisted
    have second : Delivers sampleEnvironment (hearing ['a']) 1
        (transcribedBy sampleEnvironment true (hearing ['a']) 1 (uploadedIn .nonDiarised))
        (heard ['a']) := by
      rw [ends.2]
      exact ⟨fun _ => rfl, _, _, _, rfl, rfl⟩
    obtain ⟨-, silent⟩ := redelivery_nothing fresh.stored first ends.1 second fresh first state same
    have spokenText : ¬(fullText (heard ['a'])).Blank := by decide
    exact spokenText silent
  case h_2 =>
    cases ends.2.symm.trans done

end Kaeyris.Proof
