import Kaeyris.Proof.Frame
import Kaeyris.Proof.JobRuns

/-!
# The global summary is all or nothing

`_generate_summary` calls the language model once for each chunk and once more to combine the
partial summaries, and only then writes. The map loop is followed by induction on the chunks.
-/

namespace Kaeyris.Proof
open Lib Jobs Process

/-! ## What the model answers -/

def mapOutputs (env : Environment) (r : Reaction effects) (adapter : LlmAdapter) :
    Nat → List ChunkDatum → Except Exn (List Text)
  | _, [] => .ok []
  | ordinal, datum :: rest =>
      match completion env r adapter ordinal .summaryMap datum.text with
      | .error e => .error e
      | .ok output => (mapOutputs env r adapter (ordinal + 1) rest).map (output :: ·)

def reduceOutput (env : Environment) (r : Reaction effects) (adapter : LlmAdapter) :
    List Text → Except Exn Text
  | [only] => .ok only
  | partials =>
      completion env r adapter partials.length .summaryReduce
        (Text.join summaryChunkSeparator partials)

def obtainAdapter (env : Environment) (session : Uuid) : JobBody LlmAdapter := do
  let row ← loadSessionModelSettings session
  buildLlmAdapterForUser env.settings row

def summarise (env : Environment) (session : Uuid) (data : List ChunkDatum)
    (adapter : LlmAdapter) : JobBody Unit := do
  let partials ← summariseChunks env adapter 0 data
  let final ← reduceSummaries env adapter partials
  atomically (Tx.writeArtifacts [.summary]) fun db =>
    .ok ((), swapSummary session data partials final (llmModelUsed env.settings adapter) db)

theorem generateSummary_eq (env : Environment) (session : Uuid) :
    generateSummary env session =
      (reading Tx.loadSource (loadChunkData env session)).bind fun data =>
        (obtainAdapter env session).bind fun adapter => summarise env session data adapter := by
  unfold generateSummary obtainAdapter summarise
  simp only [bind_eq, Process.bind_assoc]

theorem silent_obtainAdapter (env : Environment) (session : Uuid) :
    (obtainAdapter env session).Silent := by
  apply Silent.bind
  · exact silent_loadSessionModelSettings session
  · exact fun row => silent_buildLlmAdapterForUser env.settings row

theorem silent_summariseChunks (env : Environment) (adapter : LlmAdapter) (ordinal : Nat)
    (data : List ChunkDatum) : (summariseChunks env adapter ordinal data).Silent := by
  induction data generalizing ordinal with
  | nil => exact Silent.done _
  | cons datum rest ih =>
      apply Silent.bind
      · exact silent_complete env adapter ordinal .summaryMap datum.text
      · intro output
        apply Silent.bind
        · exact ih (ordinal + 1)
        · exact fun later => Silent.done _

theorem silent_reduceSummaries (env : Environment) (adapter : LlmAdapter) (partials : List Text) :
    (reduceSummaries env adapter partials).Silent := by
  unfold reduceSummaries
  split
  · exact Silent.done _
  · exact silent_complete _ _ _ _ _

theorem result_summariseChunks (env : Environment) (r : Reaction effects) (adapter : LlmAdapter)
    (ordinal : Nat) (data : List ChunkDatum) (db : Database) :
    ((summariseChunks env adapter ordinal data).run r db).result =
      (mapOutputs env r adapter ordinal data).mapError llmExn := by
  induction data generalizing ordinal with
  | nil => rfl
  | cons datum rest ih =>
      have first := result_complete env r adapter ordinal .summaryMap datum.text db
      have unchanged := silent_complete env adapter ordinal .summaryMap datum.text r db
      unfold summariseChunks mapOutputs
      cases answer : completion env r adapter ordinal .summaryMap datum.text with
      | error e =>
          rw [answer] at first
          exact (run_bind_error first _).1
      | ok output =>
          rw [answer] at first
          rw [bind_eq, (run_bind_ok first _).1, unchanged, bind_eq]
          cases later : mapOutputs env r adapter (ordinal + 1) rest with
          | error e =>
              have second := ih (ordinal + 1)
              rw [later] at second
              exact (run_bind_error second _).1
          | ok outputs =>
              have second := ih (ordinal + 1)
              rw [later] at second
              exact (run_bind_ok second _).1

theorem result_reduceSummaries (env : Environment) (r : Reaction effects) (adapter : LlmAdapter)
    (partials : List Text) (db : Database) :
    ((reduceSummaries env adapter partials).run r db).result =
      (reduceOutput env r adapter partials).mapError llmExn := by
  match partials with
  | [] => exact result_complete env r adapter _ _ _ db
  | [only] => rfl
  | first :: second :: rest => exact result_complete env r adapter _ _ _ db

theorem allOrNothing_generateSummary (env : Environment) (session : Uuid) :
    (generateSummary env session).AllOrNothing := by
  rw [generateSummary_eq]
  apply AllOrNothing.bind
  · exact Silent.reading _ _
  · intro data
    apply AllOrNothing.bind
    · exact silent_obtainAdapter env session
    · intro adapter
      apply AllOrNothing.bind
      · exact silent_summariseChunks env adapter 0 data
      · intro partials
        apply AllOrNothing.bind
        · exact silent_reduceSummaries env adapter partials
        · exact fun final => AllOrNothing.atomically _ _

/-! ## The swap -/

def assign (row : Chunk) : List (ChunkDatum × Text) → Chunk
  | [] => row
  | (datum, output) :: rest =>
      assign (if datum.id = some row.id then { row with summaryText := some output } else row) rest

theorem assign_keeps (row : Chunk) (pairs : List (ChunkDatum × Text)) :
    (assign row pairs).id = row.id ∧ (assign row pairs).sessionId = row.sessionId ∧
      (assign row pairs).ordre = row.ordre := by
  induction pairs generalizing row with
  | nil => exact ⟨rfl, rfl, rfl⟩
  | cons pair rest ih =>
      obtain ⟨datum, output⟩ := pair
      unfold assign
      have later := ih (if datum.id = some row.id then { row with summaryText := some output } else row)
      split at later
      · rw [if_pos ‹_›]
        exact later
      · rw [if_neg ‹_›]
        exact later

theorem assign_of_unnamed (row : Chunk) (pairs : List (ChunkDatum × Text))
    (unnamed : ∀ pair ∈ pairs, pair.1.id ≠ some row.id) : assign row pairs = row := by
  induction pairs with
  | nil => rfl
  | cons pair rest ih =>
      obtain ⟨datum, output⟩ := pair
      rw [assign, if_neg (unnamed _ List.mem_cons_self)]
      exact ih fun pair member => unnamed pair (List.mem_cons_of_mem _ member)

theorem storePartials_chunks (db : Database) (pairs : List (ChunkDatum × Text)) :
    (storePartials db pairs).chunks.rows = db.chunks.rows.map fun row => assign row pairs := by
  induction pairs generalizing db with
  | nil => exact (List.map_id' _).symm
  | cons pair rest ih =>
      obtain ⟨datum, output⟩ := pair
      unfold storePartials
      cases named : datum.id with
      | none => simp [assign, named, ih]
      | some chunk =>
          simp only [ih, ChunkRepository.updateSummaryText, Indexed.rows_update, List.map_map]
          apply List.map_congr_left
          intro row _
          simp only [Function.comp_apply, assign, named, decide_eq_true_eq, Option.some.injEq]
          by_cases same : row.id = chunk
          · rw [if_pos same, if_pos same.symm]
          · rw [if_neg same, if_neg fun h => same h.symm]

theorem storePartials_others (db : Database) (pairs : List (ChunkDatum × Text)) :
    ∃ chunks, storePartials db pairs = { db with chunks := chunks } := by
  induction pairs generalizing db with
  | nil => exact ⟨db.chunks, rfl⟩
  | cons pair rest ih =>
      obtain ⟨datum, output⟩ := pair
      unfold storePartials
      cases datum.id with
      | none => exact ih db
      | some chunk =>
          obtain ⟨chunks, same⟩ := ih (ChunkRepository.updateSummaryText db chunk output)
          exact ⟨chunks, same⟩

theorem listForSession_map {db db' : Database} {f : Chunk → Chunk} (session : Uuid)
    (rows : db'.chunks.rows = db.chunks.rows.map f)
    (keeps : ∀ row, (f row).sessionId = row.sessionId ∧ (f row).ordre = row.ordre) :
    ChunkRepository.listForSession db' session =
      (ChunkRepository.listForSession db session).map f := by
  have sorted := List.map_insertionSort (fun a b : Chunk => a.ordre ≤ b.ordre)
    (fun a b : Chunk => a.ordre ≤ b.ordre) f (db.chunks.toTable.select fun row =>
      row.sessionId = session) (by simp [keeps])
  unfold ChunkRepository.listForSession
  rw [sorted]
  congr 1
  unfold Table.select
  rw [rows, List.filter_map]
  congr 1
  apply List.filter_congr
  intro row _
  simp [keeps]

def datumOf (chunk : Chunk) : ChunkDatum := ⟨some chunk.id, chunk.ordre, chunk.text⟩

theorem assign_zip (chunks : List Chunk) (outputs : List Text)
    (distinct : (chunks.map Chunk.id).Nodup) (same : outputs.length = chunks.length) :
    chunks.map (fun row => assign { row with summaryText := none }
        ((chunks.map datumOf).zip outputs)) =
      List.zipWith (fun row output => { row with summaryText := some output }) chunks outputs := by
  induction chunks generalizing outputs with
  | nil => rfl
  | cons chunk rest ih =>
      cases outputs with
      | nil => cases same
      | cons output later =>
          rw [List.map_cons, List.nodup_cons] at distinct
          have names : ∀ pair ∈ (rest.map datumOf).zip later, ∃ other ∈ rest,
              pair.1.id = some other.id := by
            intro pair member
            obtain ⟨other, present, named⟩ := List.mem_map.mp (List.of_mem_zip member).1
            exact ⟨other, present, named ▸ rfl⟩
          rw [List.map_cons, List.map_cons, List.zip_cons_cons, List.zipWith_cons_cons]
          congr 1
          · simp only [assign, datumOf, if_true]
            apply assign_of_unnamed
            intro pair member named
            obtain ⟨other, present, own⟩ := names pair member
            have clash : other.id = chunk.id := Option.some.inj (own.symm.trans named)
            exact distinct.1 (clash ▸ List.mem_map_of_mem present)
          · rw [← ih later distinct.2 (Nat.succ.inj same)]
            apply List.map_congr_left
            intro row member
            have apart : chunk.id ≠ row.id := fun clash =>
              distinct.1 (clash ▸ List.mem_map_of_mem member)
            rw [assign, if_neg (by simpa [datumOf] using apart)]

theorem mapOutputs_length {env : Environment} {r : Reaction effects} {adapter : LlmAdapter}
    {ordinal : Nat} {data : List ChunkDatum} {outputs : List Text}
    (mapped : mapOutputs env r adapter ordinal data = .ok outputs) :
    outputs.length = data.length := by
  induction data generalizing ordinal outputs with
  | nil =>
      cases mapped
      rfl
  | cons datum rest ih =>
      unfold mapOutputs at mapped
      cases answer : completion env r adapter ordinal .summaryMap datum.text with
      | error e =>
          rw [answer] at mapped
          cases mapped
      | ok output =>
          rw [answer] at mapped
          cases later : mapOutputs env r adapter (ordinal + 1) rest with
          | error e =>
              rw [later] at mapped
              cases mapped
          | ok outputs =>
              rw [later] at mapped
              cases mapped
              rw [List.length_cons, List.length_cons, ih later]

theorem mem_listForSession {db : Database} {session : Uuid} {row : Chunk} :
    row ∈ ChunkRepository.listForSession db session ↔
      row ∈ db.chunks.rows ∧ row.sessionId = session := by
  simp [ChunkRepository.listForSession, Table.select]

theorem listForSession_ids (db : Database) (session : Uuid) :
    ((ChunkRepository.listForSession db session).map Chunk.id).Nodup := by
  have sorted := List.perm_insertionSort (fun a b : Chunk => a.ordre ≤ b.ordre)
    (db.chunks.toTable.select fun row => row.sessionId = session)
  rw [ChunkRepository.listForSession, (sorted.map Chunk.id).nodup_iff]
  exact db.chunks.unique.sublist (List.filter_sublist.map Chunk.id)

def swapped (session : Uuid) (pairs : List (ChunkDatum × Text)) (row : Chunk) : Chunk :=
  assign (if row.sessionId = session then { row with summaryText := none } else row) pairs

theorem swapSummary_rows (session : Uuid) (data : List ChunkDatum) (partials : List Text)
    (final modelUsed : Text) (db : Database) :
    (swapSummary session data partials final modelUsed db).chunks.rows =
      db.chunks.rows.map (swapped session (data.zip partials)) := by
  have stored := storePartials_chunks (ChunkRepository.resetSummaryTexts db session)
    (data.zip partials)
  refine stored.trans ?_
  simp only [ChunkRepository.resetSummaryTexts, Indexed.rows_update, List.map_map]
  apply List.map_congr_left
  intro row _
  simp [swapped]

theorem swapped_keeps (session : Uuid) (pairs : List (ChunkDatum × Text)) (row : Chunk) :
    (swapped session pairs row).sessionId = row.sessionId ∧
      (swapped session pairs row).ordre = row.ordre := by
  unfold swapped
  split
  · exact (assign_keeps _ pairs).2
  · exact (assign_keeps _ pairs).2

theorem swapSummary_list (session : Uuid) (data : List ChunkDatum) (partials : List Text)
    (final modelUsed : Text) (db : Database) :
    ChunkRepository.listForSession (swapSummary session data partials final modelUsed db) session =
      (ChunkRepository.listForSession db session).map fun row =>
        assign { row with summaryText := none } (data.zip partials) := by
  rw [listForSession_map session (swapSummary_rows session data partials final modelUsed db)
    (swapped_keeps session _)]
  apply List.map_congr_left
  intro row member
  rw [swapped, if_pos (mem_listForSession.mp member).2]

def isDerived (session : Uuid) (row : Artifact) : Bool :=
  row.sessionId = session && ([ArtifactKind.narrative, .elements].contains row.kind || row.isPov)

theorem swapSummary_eq (session : Uuid) (data : List ChunkDatum) (partials : List Text)
    (final modelUsed : Text) (db : Database) :
    ∃ chunks, swapSummary session data partials final modelUsed db =
      { db with
        chunks := chunks
        artifacts := (db.artifacts.delete (isDerived session)).put
          ⟨session, .summary, .text final, modelUsed, false, none⟩ } := by
  obtain ⟨chunks, stored⟩ := storePartials_others (ChunkRepository.resetSummaryTexts db session)
    (data.zip partials)
  refine ⟨chunks, ?_⟩
  have both : ((db.artifacts.delete fun row => row.sessionId = session &&
      [ArtifactKind.narrative, .elements].contains row.kind).delete fun row =>
        row.sessionId = session && row.isPov) = db.artifacts.delete (isDerived session) := by
    apply Table.ext
    simp only [Table.rows_delete, List.filter_filter]
    apply List.filter_congr
    intro row _
    unfold isDerived
    cases decide (row.sessionId = session) <;>
      cases [ArtifactKind.narrative, .elements].contains row.kind <;> cases row.isPov <;> rfl
  unfold swapSummary ArtifactRepository.upsert
  simp only [stored]
  rw [← both]
  rfl

def OwnData (session : Uuid) (data : List ChunkDatum) (db : Database) : Prop :=
  ∀ datum ∈ data, ∀ row ∈ db.chunks.rows, datum.id = some row.id → row.sessionId = session

theorem others_swapSummary {session : Uuid} {data : List ChunkDatum} {db : Database}
    (own : OwnData session data db) (partials : List Text) (final modelUsed : Text) :
    (swapSummary session data partials final modelUsed db).others session = db.others session := by
  have chunks : (swapSummary session data partials final modelUsed db).chunks.rows.filter
      (fun row => row.sessionId ≠ session) =
        db.chunks.rows.filter fun row => row.sessionId ≠ session := by
    rw [swapSummary_rows, List.filter_map]
    have same : (fun row : Chunk => decide (row.sessionId ≠ session)) ∘
        swapped session (data.zip partials) = fun row => decide (row.sessionId ≠ session) := by
      funext row
      simp [swapped_keeps]
    rw [same]
    apply (List.map_congr_left _).trans (List.map_id _)
    intro row member
    obtain ⟨present, foreign⟩ := List.mem_filter.mp member
    have apart : row.sessionId ≠ session := by simpa using foreign
    rw [swapped, if_neg apart]
    apply assign_of_unnamed
    intro pair paired named
    exact apart (own pair.1 (List.of_mem_zip paired).1 row present named)
  obtain ⟨table, same⟩ := swapSummary_eq session data partials final modelUsed db
  rw [same] at chunks ⊢
  have artifacts : ((db.artifacts.delete (isDerived session)).put
      ⟨session, .summary, .text final, modelUsed, false, none⟩).rows.filter
        (fun row => row.sessionId ≠ session) =
          db.artifacts.rows.filter fun row => row.sessionId ≠ session := by
    rw [Table.filter_put, Table.filter_delete]
    · intro row deleted
      simp only [isDerived, Bool.and_eq_true, decide_eq_true_eq] at deleted
      simpa using deleted.1
    · simp
    · intro old _ clash
      have owner : old.sessionId = session := congrArg Prod.fst clash
      simpa using owner
  exact congrArg₂ (fun c a => { db.others session with chunks := c, artifacts := a }) chunks
    artifacts

/-! ## A run that succeeds -/

/-- What a successful run leaves behind, for the partial summaries and the final text. -/
structure Summarised (session : Uuid) (row : Session) (before after : Database)
    (partials : List Text) (final modelUsed : Text) : Prop where
  /-- The chunks hold the map outputs, in `ordre` order; none when an edited text was used. -/
  chunks : ChunkRepository.listForSession after session =
    match editedTranscriptSource row with
    | none => List.zipWith (fun chunk output => { chunk with summaryText := some output })
        (ChunkRepository.listForSession before session) partials
    | some _ => (ChunkRepository.listForSession before session).map fun chunk =>
        { chunk with summaryText := none }
  complete : editedTranscriptSource row = none →
    partials.length = (ChunkRepository.listForSession before session).length
  derived : ∀ kind, kind ≠ .summary → ArtifactRepository.get after session kind = none
  summary : ArtifactRepository.get after session .summary =
    some ⟨session, .summary, .text final, modelUsed, false, none⟩
  others : after.others session = before.others session

theorem swapSummary_artifact (session : Uuid) (data : List ChunkDatum) (partials : List Text)
    (final modelUsed : Text) (db : Database) (kind : ArtifactKind) :
    ArtifactRepository.get (swapSummary session data partials final modelUsed db) session kind =
      if kind = .summary then some ⟨session, .summary, .text final, modelUsed, false, none⟩
      else none := by
  obtain ⟨table, same⟩ := swapSummary_eq session data partials final modelUsed db
  rw [same, ArtifactRepository.get, Table.get?_put]
  by_cases summary : kind = .summary
  · rw [if_pos summary, summary, if_pos rfl]
  · rw [if_neg summary, if_neg fun clash => summary (congrArg Prod.snd clash).symm,
      Table.get?_delete]
    cases found : db.artifacts.get? (session, kind) with
    | none => rfl
    | some row =>
        have key := Table.key_of_get? found
        have owner : row.sessionId = session := congrArg Prod.fst key
        have named : row.kind = kind := congrArg Prod.snd key
        have derived : isDerived session row = true := by
          unfold isDerived Artifact.isPov
          cases kind with
          | summary => exact (summary rfl).elim
          | narrative => simp [owner, named]
          | elements => simp [owner, named]
          | pov pj => simp [owner, named]
        simp [derived]

inductive LoadedData (env : Environment) (session : Uuid) (row : Session) (db : Database) :
    List ChunkDatum → Prop
  | edited (content : Text) (source : editedTranscriptSource row = some content) :
      LoadedData env session row db
        ((TextChunker.chunkText content env.settings.chunkMaxChars
          env.settings.chunkMaxChars_pos).mapIdx fun ordre piece => ⟨none, ordre, piece⟩)
  | stored (source : editedTranscriptSource row = none) :
      LoadedData env session row db ((ChunkRepository.listForSession db session).map datumOf)

theorem editedTranscriptSource_content {row : Session} {content : Text}
    (source : editedTranscriptSource row = some content) : ¬content.Blank := by
  unfold editedTranscriptSource at source
  have kept := Option.filter_eq_some_iff.mp source
  intro blank
  simpa [Text.strip_eq_nil.mpr blank] using kept.2

theorem loadChunkData_ok (env : Environment) {session : Uuid} {db : Database} {row : Session}
    (stored : db.sessions.get? session = some row) (mode : row.transcriptionMode = .nonDiarised)
    (state : row.state = .transcribed)
    (source : editedTranscriptSource row ≠ none ∨ ChunkRepository.listForSession db session ≠ []) :
    ∃ data, loadChunkData env session db = .ok data ∧ LoadedData env session row db data := by
  unfold loadChunkData
  simp only [stored, mode, state, ne_eq, not_true_eq_false, if_false]
  cases edited : editedTranscriptSource row with
  | some content =>
      have pieces : TextChunker.chunkText content env.settings.chunkMaxChars
          env.settings.chunkMaxChars_pos ≠ [] := fun none =>
        editedTranscriptSource_content edited (TextChunker.chunkText_eq_nil.mp none)
      exact ⟨_, if_neg pieces, .edited content edited⟩
  | none =>
      have chunks : ChunkRepository.listForSession db session ≠ [] := by
        rcases source with present | chunks
        · exact (present edited).elim
        · exact chunks
      exact ⟨_, if_neg chunks, .stored edited⟩

theorem loadChunkData_row {env : Environment} {session : Uuid} {db : Database}
    {data : List ChunkDatum} (read : loadChunkData env session db = .ok data) :
    ∃ row, db.sessions.get? session = some row ∧ row.transcriptionMode = .nonDiarised ∧
      row.state = .transcribed := by
  unfold loadChunkData at read
  split at read
  · cases read
  · rename_i row stored
    split at read
    · cases read
    · rename_i mode
      split at read
      · cases read
      · rename_i transcribed
        exact ⟨row, stored, not_not.mp mode, not_not.mp transcribed⟩

theorem LoadedData.own {env : Environment} {session : Uuid} {db : Database} {row : Session}
    {data : List ChunkDatum} (loaded : LoadedData env session row db data) :
    OwnData session data db := by
  cases loaded with
  | edited content source =>
      intro datum member row' _ named
      obtain ⟨i, _, rfl⟩ := List.mem_mapIdx.mp member
      cases named
  | stored source =>
      intro datum member row' present named
      obtain ⟨chunk, listed, rfl⟩ := List.mem_map.mp member
      obtain ⟨own, owner⟩ := mem_listForSession.mp listed
      have same : chunk.id = row'.id := Option.some.inj named
      have first := Table.get?_self own
      rw [same] at first
      have second := Table.get?_self present
      rw [first] at second
      exact Option.some.inj second ▸ owner

theorem swapSummary_summarised {env : Environment} {session : Uuid} {db : Database}
    {row : Session} {data : List ChunkDatum} (loaded : LoadedData env session row db data)
    {partials : List Text} (same : partials.length = data.length) (final modelUsed : Text) :
    Summarised session row db (swapSummary session data partials final modelUsed db) partials
      final modelUsed where
  chunks := by
    rw [swapSummary_list]
    cases loaded with
    | edited content source =>
        rw [source]
        apply List.map_congr_left
        intro chunk _
        apply assign_of_unnamed
        intro pair paired named
        obtain ⟨i, _, origin⟩ := List.mem_mapIdx.mp (List.of_mem_zip paired).1
        rw [← origin] at named
        cases named
    | stored source =>
        rw [source]
        apply assign_zip
        · exact listForSession_ids db session
        · rw [same, List.length_map]
  complete := by
    intro automatic
    cases loaded with
    | edited content source => cases source.symm.trans automatic
    | stored source => rw [same, List.length_map]
  derived := fun kind other => by rw [swapSummary_artifact, if_neg other]
  summary := by rw [swapSummary_artifact, if_pos rfl]
  others := others_swapSummary loaded.own partials final modelUsed

theorem summarise_llm_failed {env : Environment} {session : Uuid} {data : List ChunkDatum}
    {adapter : LlmAdapter} {r : Reaction effects} {db : Database} {e : Exn}
    (failed : (mapOutputs env r adapter 0 data).bind (reduceOutput env r adapter) = .error e) :
    ((summarise env session data adapter).run r db).result = .error (llmExn e) := by
  have quiet := silent_summariseChunks env adapter 0 data r db
  have mapped := result_summariseChunks env r adapter 0 data db
  unfold summarise
  rw [bind_eq]
  cases outputs : mapOutputs env r adapter 0 data with
  | error e' =>
      rw [outputs] at failed mapped
      cases failed
      exact (run_bind_error mapped _).1
  | ok partials =>
      rw [outputs] at failed mapped
      have reduced := result_reduceSummaries env r adapter partials db
      have failure : reduceOutput env r adapter partials = .error e := failed
      rw [failure] at reduced
      rw [(run_bind_ok mapped _).1, quiet, bind_eq]
      exact (run_bind_error reduced _).1

theorem summarise_succeeded {env : Environment} (session : Uuid) {data : List ChunkDatum}
    {adapter : LlmAdapter} {r : Reaction effects} (db : Database) {partials : List Text}
    {final : Text} (mapped : mapOutputs env r adapter 0 data = .ok partials)
    (reduced : reduceOutput env r adapter partials = .ok final)
    (written : r.fails (Tx.writeArtifacts [.summary]) = none) :
    ((summarise env session data adapter).run r db).result = .ok () ∧
      ((summarise env session data adapter).run r db).state =
        swapSummary session data partials final (llmModelUsed env.settings adapter) db := by
  have quiet := silent_summariseChunks env adapter 0 data r db
  have quiet' := silent_reduceSummaries env adapter partials r db
  have first := result_summariseChunks env r adapter 0 data db
  rw [mapped] at first
  have second := result_reduceSummaries env r adapter partials db
  rw [reduced] at second
  unfold summarise
  rw [bind_eq, (run_bind_ok first _).1, (run_bind_ok first _).2, quiet, bind_eq,
    (run_bind_ok second _).1, (run_bind_ok second _).2, quiet', run_atomically, written]
  exact ⟨rfl, rfl⟩

/-- The job either leaves the database exactly as it was, which it does whenever a map or reduce
call fails, or replaces the summary, the chunk summaries and the derived artifacts together. -/
theorem generateSummary_allOrNothing (env : Environment) {session : Uuid} {db : Database}
    {row : Session} (stored : db.sessions.get? session = some row)
    (mode : row.transcriptionMode = .nonDiarised) (state : row.state = .transcribed)
    (source : editedTranscriptSource row ≠ none ∨ ChunkRepository.listForSession db session ≠ [])
    (r : Reaction effects) :
    (∀ e, ((generateSummary env session).run r db).result = .error e →
      ((generateSummary env session).run r db).state = db) ∧
    ∃ data, loadChunkData env session db = .ok data ∧ LoadedData env session row db data ∧
      ∀ adapter, r.fails .loadSource = none →
        ((obtainAdapter env session).run r db).result = .ok adapter →
        (∀ e, (mapOutputs env r adapter 0 data).bind (reduceOutput env r adapter) = .error e →
          ((generateSummary env session).run r db).result = .error (llmExn e) ∧
            ((generateSummary env session).run r db).state = db) ∧
        ∀ partials final, mapOutputs env r adapter 0 data = .ok partials →
          reduceOutput env r adapter partials = .ok final →
          r.fails (.writeArtifacts [.summary]) = none →
          ((generateSummary env session).run r db).result = .ok () ∧
            Summarised session row db ((generateSummary env session).run r db).state partials
              final (llmModelUsed env.settings adapter) := by
  refine ⟨fun e raised => allOrNothing_generateSummary env session r db e raised, ?_⟩
  obtain ⟨data, loaded, shape⟩ := loadChunkData_ok env stored mode state source
  refine ⟨data, loaded, shape, fun adapter readable obtained => ?_⟩
  have read : ((reading Tx.loadSource (loadChunkData env session)).run r db).result = .ok data := by
    rw [run_reading, readable]
    exact loaded
  have still := Silent.reading Tx.loadSource (loadChunkData env session) r db
  have still' := silent_obtainAdapter env session r db
  constructor
  · intro e failed
    have raised : ((generateSummary env session).run r db).result = .error (llmExn e) := by
      rw [generateSummary_eq, (run_bind_ok read _).1, still, (run_bind_ok obtained _).1, still']
      exact summarise_llm_failed failed
    exact ⟨raised, allOrNothing_generateSummary env session r db _ raised⟩
  · intro partials final mapped reduced written
    obtain ⟨returned, swapped⟩ := summarise_succeeded session db mapped reduced written
    rw [generateSummary_eq, (run_bind_ok read _).1, (run_bind_ok read _).2, still,
      (run_bind_ok obtained _).1, (run_bind_ok obtained _).2, still', returned, swapped]
    exact ⟨rfl, swapSummary_summarised shape (mapOutputs_length mapped) _ _⟩

def transcribedSession : Session where
  id := 1
  gmKeyId := 7
  campaignId := none
  state := .transcribed
  transcriptionMode := .nonDiarised
  campaignContext := none
  editedTranscriptMd := none
  currentJobId := none

def transcribedDatabase : Database :=
  { Database.empty with
    sessions := ⟨[transcribedSession, { transcribedSession with id := 2 }], by decide⟩
    chunks := ⟨⟨[⟨3, 1, 0, ['a'], some ['o']⟩, ⟨5, 2, 0, ['c'], some ['q']⟩,
      ⟨4, 1, 1, ['b'], some ['p']⟩], by decide⟩, by decide⟩
    artifacts := ⟨[⟨1, .summary, .text ['o'], ['m'], true, some 7⟩,
      ⟨1, .narrative, .text ['n'], ['m'], false, none⟩,
      ⟨2, .narrative, .text ['r'], ['m'], false, none⟩,
      ⟨1, .pov 8, .text ['v'], ['m'], true, some 7⟩], by decide⟩ }

def speechless : Reaction effects :=
  { obliging with
    answer
      | .complete _ 2 _ _ _ => .error (.transientLLM "503")
      | query => obliging.answer query }

theorem generateSummary_twoChunks :
    ((generateSummary sampleEnvironment 1).run speechless transcribedDatabase).state =
        transcribedDatabase ∧
      Summarised 1 transcribedSession transcribedDatabase
        ((generateSummary sampleEnvironment 1).run obliging transcribedDatabase).state
        [['a'], ['b']] (Text.join summaryChunkSeparator [['a'], ['b']])
        (llmModelUsed Settings.default ⟨none, none⟩) := by
  have read : loadChunkData sampleEnvironment 1 transcribedDatabase =
      .ok [⟨some 3, 0, ['a']⟩, ⟨some 4, 1, ['b']⟩] := by rfl
  have outcome := @generateSummary_allOrNothing sampleEnvironment 1 transcribedDatabase
    transcribedSession rfl rfl rfl (.inr (by decide))
  constructor
  · obtain ⟨-, data, loaded, -, runs⟩ := outcome speechless
    obtain rfl := Except.ok.inj (read.symm.trans loaded)
    exact ((runs ⟨none, none⟩ rfl rfl).1 _ rfl).2
  · obtain ⟨-, data, loaded, -, runs⟩ := outcome obliging
    obtain rfl := Except.ok.inj (read.symm.trans loaded)
    exact ((runs ⟨none, none⟩ rfl rfl).2 [['a'], ['b']] _ rfl rfl rfl).2

end Kaeyris.Proof
