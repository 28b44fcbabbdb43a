import Kaeyris.Lib.Seclusion
import Kaeyris.Proof.Ownership
import Kaeyris.Proof.Redelivery

/-!
# A job runs as if it were alone

A job reads the rows of its session, the model settings of the session's owner and the characters
that take part. As long as the others leave these alone, it makes the calls and leaves the rows that
it would make and leave alone, however its transactions and theirs are interleaved.
-/

namespace Kaeyris.Proof
open Lib Jobs Process Platform Router

/-! ## What a job sees -/

def chunkTexts (rows : Others) : List (Nat × Text × Option Text) :=
  rows.chunks.map fun row => (row.ordre, row.text, row.summaryText)

/-- The same rows. A transcription draws identifiers for its chunks, which may differ. -/
structure Matches (kind : JobKind) (rows rows' : Others) : Prop where
  stored : { rows with chunks := [] } = { rows' with chunks := [] }
  texts : chunkTexts rows = chunkTexts rows'
  chunks : kind ≠ .transcription → rows.chunks = rows'.chunks

/-- A character that a row of the session names. -/
def takesPart (db : Database) (session pj : Uuid) : Bool :=
  ((Database.rowsOf db session).mappings.map SessionPjMapping.pjId ++
    (Database.rowsOf db session).players.map SessionPlayer.pjId).contains pj

def charactersOf (db : Database) (session : Uuid) : List Pj :=
  db.pjs.rows.filter fun pj => takesPart db session pj.id

/-- Two databases that a job of the session does not tell apart. -/
structure AlikeTo (kind : JobKind) (user : Option Uuid) (session : Uuid) (db db' : Database) :
    Prop where
  rows : Matches kind (Database.rowsOf db session) (Database.rowsOf db' session)
  owner : resolveSessionOwnerId db session = user ∧ resolveSessionOwnerId db' session = user
  settings : ∀ id ∈ user,
    ModelSettingsRepository.getForUser db id = ModelSettingsRepository.getForUser db' id
  characters : charactersOf db session = charactersOf db' session

section AlikeTo
variable {kind : JobKind} {user : Option Uuid} {session : Uuid} {db db' db'' : Database}

theorem Matches.refl (kind : JobKind) (rows : Others) : Matches kind rows rows :=
  ⟨rfl, rfl, fun _ => rfl⟩

theorem Matches.symm {rows rows' : Others} (same : Matches kind rows rows') :
    Matches kind rows' rows :=
  ⟨same.stored.symm, same.texts.symm, fun other => (same.chunks other).symm⟩

theorem Matches.trans {rows rows' rows'' : Others} (same : Matches kind rows rows')
    (same' : Matches kind rows' rows'') : Matches kind rows rows'' :=
  ⟨same.stored.trans same'.stored, same.texts.trans same'.texts,
    fun other => (same.chunks other).trans (same'.chunks other)⟩

theorem AlikeTo.refl (kind : JobKind) (session : Uuid) (db : Database) :
    AlikeTo kind (resolveSessionOwnerId db session) session db db :=
  ⟨.refl kind _, ⟨rfl, rfl⟩, fun _ _ => rfl, rfl⟩

theorem AlikeTo.symm (same : AlikeTo kind user session db db') : AlikeTo kind user session db' db :=
  ⟨same.rows.symm, same.owner.symm, fun id named => (same.settings id named).symm,
    same.characters.symm⟩

theorem AlikeTo.trans (same : AlikeTo kind user session db db')
    (same' : AlikeTo kind user session db' db'') : AlikeTo kind user session db db'' :=
  ⟨same.rows.trans same'.rows, ⟨same.owner.1, same'.owner.2⟩,
    fun id named => (same.settings id named).trans (same'.settings id named),
    same.characters.trans same'.characters⟩

theorem AlikeTo.row (same : AlikeTo kind user session db db') :
    db.sessions.get? session = db'.sessions.get? session :=
  Table.part_get? (congrArg Others.sessions same.rows.stored) fun _ named => by simp [named]

theorem AlikeTo.audio (same : AlikeTo kind user session db db') :
    SessionRepository.getAudioSource db session = SessionRepository.getAudioSource db' session :=
  Table.part_get? (congrArg Others.audioSources same.rows.stored) fun _ named => by simp [named]

theorem AlikeTo.transcription (same : AlikeTo kind user session db db') :
    TranscriptionRepository.getForSession db session =
      TranscriptionRepository.getForSession db' session :=
  Table.part_get? (congrArg Others.transcriptions same.rows.stored) fun _ named => by simp [named]

theorem AlikeTo.mappings (same : AlikeTo kind user session db db') :
    MappingRepository.getForSession db session = MappingRepository.getForSession db' session := by
  have rows := congrArg Others.mappings same.rows.stored
  exact congrArg (List.insertionSort fun a b => a.speakerLabel ≤ b.speakerLabel) rows

theorem AlikeTo.players (same : AlikeTo kind user session db db') :
    SessionPlayerRepository.listForSession db session =
      SessionPlayerRepository.listForSession db' session :=
  congrArg Others.players same.rows.stored

theorem AlikeTo.chunks (same : AlikeTo kind user session db db') (other : kind ≠ .transcription) :
    ChunkRepository.listForSession db session = ChunkRepository.listForSession db' session := by
  have rows := same.rows.chunks other
  exact congrArg (List.insertionSort fun a b => a.ordre ≤ b.ordre) rows

theorem AlikeTo.pjs (same : AlikeTo kind user session db db') {ids : List Uuid}
    (named : ∀ pj ∈ ids, takesPart db session pj = true ∧ takesPart db' session pj = true) :
    (db.pjs.rows.filter fun pj => pj.id ∈ ids) = db'.pjs.rows.filter fun pj => pj.id ∈ ids := by
  have within {db : Database} (named : ∀ pj ∈ ids, takesPart db session pj = true) :
      (db.pjs.rows.filter fun pj => pj.id ∈ ids) =
        (charactersOf db session).filter fun pj => pj.id ∈ ids := by
    unfold charactersOf
    rw [List.filter_filter]
    apply List.filter_congr
    intro pj _
    by_cases wanted : pj.id ∈ ids
    · simp [wanted, named pj.id wanted]
    · simp [wanted]
  rw [within fun pj member => (named pj member).1, within fun pj member => (named pj member).2,
    same.characters]

/-! ## What a job writes -/

theorem resolveSessionOwnerId_congr {after : Database}
    (columns : (after.sessions.get? session).map fixedColumns =
      (db.sessions.get? session).map fixedColumns)
    (accounts : Database.accounts after = Database.accounts db) :
    resolveSessionOwnerId after session = resolveSessionOwnerId db session := by
  have campaigns := congrArg Accounts.campaigns accounts
  have users := congrArg Accounts.users accounts
  unfold resolveSessionOwnerId CampaignRepository.get
  change after.campaigns = db.campaigns at campaigns
  change after.users = db.users at users
  rw [campaigns, users]
  cases before : db.sessions.get? session with
  | none =>
      rw [before] at columns
      rw [Option.map_eq_none_iff.mp columns]
  | some row =>
      rw [before] at columns
      obtain ⟨row', found, same⟩ := Option.map_eq_some_iff.mp columns
      have key : row'.gmKeyId = row.gmKeyId := congrArg Prod.fst same
      have campaign : row'.campaignId = row.campaignId := congrArg (fun c => c.2.1) same
      rw [found]
      dsimp only
      rw [key, campaign]

structure LeavesAlone (session : Uuid) (db after : Database) : Prop where
  columns : (after.sessions.get? session).map fixedColumns =
    (db.sessions.get? session).map fixedColumns
  accounts : Database.accounts after = Database.accounts db
  pjs : after.pjs = db.pjs
  mappings : after.mappings = db.mappings
  players : after.players = db.players

theorem LeavesAlone.characters {after : Database} (leaves : LeavesAlone session db after) :
    charactersOf after session = charactersOf db session := by
  unfold charactersOf takesPart Database.rowsOf
  rw [leaves.pjs, leaves.mappings, leaves.players]

theorem AlikeTo.change {after after' : Database} (same : AlikeTo kind user session db db')
    (left : LeavesAlone session db after) (right : LeavesAlone session db' after')
    (rows : Matches kind (Database.rowsOf after session) (Database.rowsOf after' session)) :
    AlikeTo kind user session after after' where
  rows := rows
  owner := ⟨(resolveSessionOwnerId_congr left.columns left.accounts).trans same.owner.1,
    (resolveSessionOwnerId_congr right.columns right.accounts).trans same.owner.2⟩
  settings := fun id named => by
    unfold ModelSettingsRepository.getForUser
    have own := congrArg Accounts.modelSettings left.accounts
    have own' := congrArg Accounts.modelSettings right.accounts
    change after.modelSettings = db.modelSettings at own
    change after'.modelSettings = db'.modelSettings at own'
    rw [own, own']
    exact same.settings id named
  characters := (left.characters.trans same.characters).trans right.characters.symm

theorem LeavesAlone.updateState (db : Database) (session : Uuid) (state : SessionState) :
    LeavesAlone session db (SessionRepository.updateState db session state) := by
  refine ⟨?_, rfl, rfl, rfl, rfl⟩
  unfold SessionRepository.updateState
  rw [Table.get?_update_key, if_pos rfl, Option.map_map]
  rfl

theorem AlikeTo.updateState (same : AlikeTo kind user session db db') (state : SessionState) :
    AlikeTo kind user session (SessionRepository.updateState db session state)
      (SessionRepository.updateState db' session state) := by
  refine same.change (.updateState db session state) (.updateState db' session state)
    ⟨?_, same.rows.texts, same.rows.chunks⟩
  have part := Table.part_update (congrArg Others.sessions same.rows.stored)
    (p := fun row => row.id = session) (f := fun row => { row with state := state })
    (fun _ => rfl) fun _ => rfl
  exact congrArg₂ (fun (rows : Others) sessions => { rows with sessions := sessions })
    same.rows.stored part

theorem AlikeTo.markFailed (same : AlikeTo kind user session db db') (reason : Option String) :
    AlikeTo kind user session (Jobs.markFailed db session reason)
      (Jobs.markFailed db' session reason) := by
  unfold Jobs.markFailed
  rw [same.row]
  dsimp only
  split
  · exact same.updateState _
  · rename_i job _
    have failed := same.updateState .transcriptionFailed
    refine failed.change ⟨rfl, rfl, rfl, rfl, rfl⟩ ⟨rfl, rfl, rfl, rfl, rfl⟩
      ⟨?_, failed.rows.texts, failed.rows.chunks⟩
    have part := Table.part_update (congrArg Others.jobs failed.rows.stored)
      (p := fun row => row.id = job)
      (f := fun row => { row with status := .failed, failureReason := reason })
      (fun _ => rfl) fun _ => rfl
    exact congrArg₂ (fun (rows : Others) jobs => { rows with jobs := jobs }) failed.rows.stored part

theorem AlikeTo.begin (same : AlikeTo kind user session db db') :
    Alike (E := effects) (AlikeTo kind user session) (beginTranscription session db)
      (beginTranscription session db') := by
  unfold beginTranscription
  rw [same.row, same.audio]
  split
  · exact .error _
  · exact .error _
  · split
    · exact .error _
    · exact .ok _ (same.updateState .transcribing)

theorem AlikeTo.storePreparedAudio (same : AlikeTo kind user session db db')
    (prepared : PreparedAudioResult) (duration : Option Int) :
    Alike (E := effects) (AlikeTo kind user session)
      (.ok (Jobs.storePreparedAudio session prepared duration db))
      (.ok (Jobs.storePreparedAudio session prepared duration db')) := by
  unfold Jobs.storePreparedAudio SessionRepository.updateAudioSourceFile
  rw [same.audio]
  cases SessionRepository.getAudioSource db' session with
  | none => exact .ok false same
  | some _ =>
      refine .ok true (same.change ⟨rfl, rfl, rfl, rfl, rfl⟩ ⟨rfl, rfl, rfl, rfl, rfl⟩
        ⟨?_, same.rows.texts, same.rows.chunks⟩)
      have part := Table.part_update (congrArg Others.audioSources same.rows.stored)
        (p := fun row => row.sessionId = session)
        (f := fun row =>
          { row with
            path := prepared.path
            sha256 := prepared.sha256
            sizeBytes := prepared.sizeBytes
            durationSeconds := duration })
        (fun _ => rfl) fun _ => rfl
      exact congrArg₂ (fun (rows : Others) audio => { rows with audioSources := audio })
        same.rows.stored part

theorem bulkCreate_isSome (db : Database) (session : Uuid) (texts : List Text) (drawn : Uuid) :
    (ChunkRepository.bulkCreateForSession db session texts drawn).isSome = true ↔
      ∀ text ∈ chunkTexts (Database.rowsOf db session), texts.length ≤ text.1 := by
  have strict := newRows_strict (ChunkRepository.firstId db drawn) session texts
  have keyed : ((db.chunks.rows ++ ChunkRepository.newRows (ChunkRepository.firstId db drawn)
      session texts).map Chunk.id).Nodup := by
    rw [List.map_append, List.nodup_append']
    refine ⟨db.chunks.unique, ?_, ?_⟩
    · rw [List.Nodup, List.pairwise_map]
      exact strict.imp fun less => less.1.ne
    · intro id old new
      obtain ⟨row, member, rfl⟩ := List.mem_map.mp new
      exact (lt_firstId old drawn).not_ge (mem_newRows member).1
  have distinct : ((ChunkRepository.newRows (ChunkRepository.firstId db drawn) session
      texts).map Chunk.place).Nodup := by
    rw [List.Nodup, List.pairwise_map]
    exact strict.imp fun less same => less.2.ne (congrArg Prod.snd same)
  unfold ChunkRepository.bulkCreateForSession
  rw [Option.isSome_map, Option.isSome_iff_ne_none, Ne, Indexed.insertAll?_eq_none, not_not,
    and_iff_right keyed, List.map_append, List.nodup_append', and_iff_right db.chunks.uniqueIndex,
    and_iff_right distinct]
  constructor
  · intro disjoint text held
    obtain ⟨row, member, rfl⟩ := List.mem_map.mp held
    obtain ⟨stored, own⟩ := List.mem_filter.mp member
    by_contra short
    refine disjoint (List.mem_map_of_mem stored) (List.mem_map.mpr
      ⟨⟨ChunkRepository.firstId db drawn + row.ordre, session, row.ordre,
        texts.get ⟨row.ordre, not_le.mp short⟩, none⟩, ?_, ?_⟩)
    · exact List.mem_mapIdx.mpr ⟨row.ordre, not_le.mp short, rfl⟩
    · exact congrArg (fun id => (id, row.ordre)) (of_decide_eq_true own).symm
  · intro later place old new
    obtain ⟨row, stored, rfl⟩ := List.mem_map.mp old
    obtain ⟨added, member, taken⟩ := List.mem_map.mp new
    obtain ⟨i, bound, rfl⟩ := List.mem_mapIdx.mp member
    have own : session = row.sessionId := congrArg Prod.fst taken
    have number : i = row.ordre := congrArg Prod.snd taken
    have held : row ∈ (Database.rowsOf db session).chunks :=
      List.mem_filter.mpr ⟨stored, by simp [own]⟩
    have after := later (row.ordre, row.text, row.summaryText) (List.mem_map.mpr ⟨row, held, rfl⟩)
    dsimp only at after
    omega

theorem chunkTexts_created {db after : Database} {session drawn : Uuid} {texts : List Text}
    (created : ChunkRepository.bulkCreateForSession db session texts drawn = some after) :
    LeavesAlone session db after ∧
      { Database.rowsOf after session with chunks := [] } =
        { Database.rowsOf db session with chunks := [] } ∧
      chunkTexts (Database.rowsOf after session) =
        chunkTexts (Database.rowsOf db session) ++ texts.mapIdx fun i text => (i, text, none) := by
  unfold ChunkRepository.bulkCreateForSession at created
  obtain ⟨chunks, inserted, rfl⟩ := Option.map_eq_some_iff.mp created
  refine ⟨⟨rfl, rfl, rfl, rfl, rfl⟩, rfl, ?_⟩
  have rows := Indexed.insertAll?_eq_some.mp inserted
  have held := @select_append db { db with chunks := chunks } session _ texts rows
  change List.map _ (List.filter _ chunks.rows) = _
  change chunks.rows.filter _ = db.chunks.rows.filter _ ++ _ at held
  rw [held, List.map_append]
  unfold chunkTexts ChunkRepository.newRows
  rw [List.mapIdx_eq_zipIdx_map, List.mapIdx_eq_zipIdx_map, List.map_map]
  rfl

theorem AlikeTo.persist (same : AlikeTo .transcription user session db db') (settings : Settings)
    (mode : TranscriptionMode) (drawn : Uuid) (result : TranscriptionResult) :
    Alike (E := effects) (AlikeTo .transcription user session)
      (persistOutput settings session mode drawn result db)
      (persistOutput settings session mode drawn result db') := by
  cases mode with
  | nonDiarised =>
      unfold persistOutput
      have both :
          (ChunkRepository.bulkCreateForSession db session (chunksOf settings result) drawn).isSome =
            (ChunkRepository.bulkCreateForSession db' session (chunksOf settings result)
              drawn).isSome := by
        rw [Bool.eq_iff_iff, bulkCreate_isSome, bulkCreate_isSome, same.rows.texts]
      cases created : ChunkRepository.bulkCreateForSession db session (chunksOf settings result)
          drawn with
      | none =>
          cases created' : ChunkRepository.bulkCreateForSession db' session
              (chunksOf settings result) drawn with
          | none => exact .error _
          | some after' =>
              rw [created, created'] at both
              cases both
      | some after =>
          cases created' : ChunkRepository.bulkCreateForSession db' session
              (chunksOf settings result) drawn with
          | none =>
              rw [created, created'] at both
              cases both
          | some after' =>
              obtain ⟨left, stored, texts⟩ := chunkTexts_created created
              obtain ⟨right, stored', texts'⟩ := chunkTexts_created created'
              have changed : AlikeTo .transcription user session after after' := by
                refine same.change left right ⟨?_, ?_, fun other => (other rfl).elim⟩
                · exact stored.trans (same.rows.stored.trans stored'.symm)
                · rw [texts, texts', same.rows.texts]
              exact .ok () (changed.updateState .transcribed)
  | diarised =>
      have part := Table.part_put (congrArg Others.transcriptions same.rows.stored)
        (r := ⟨session, result.segments, result.language, result.modelUsed, result.provider⟩)
        (by simp) fun o clash => by simpa using clash
      have changed : AlikeTo .transcription user session
          (TranscriptionRepository.upsert db session result.segments result.language
            result.modelUsed result.provider)
          (TranscriptionRepository.upsert db' session result.segments result.language
            result.modelUsed result.provider) :=
        same.change ⟨rfl, rfl, rfl, rfl, rfl⟩ ⟨rfl, rfl, rfl, rfl, rfl⟩
          ⟨congrArg₂ (fun (rows : Others) kept => { rows with transcriptions := kept })
            same.rows.stored part, same.rows.texts, same.rows.chunks⟩
      exact .ok () (changed.updateState .transcribed)

theorem AlikeTo.withArtifacts (same : AlikeTo kind user session db db')
    {artifacts artifacts' : Table (Uuid × ArtifactKind) Artifact Artifact.key}
    (part : (artifacts.rows.filter fun row => row.sessionId = session) =
      artifacts'.rows.filter fun row => row.sessionId = session) :
    AlikeTo kind user session { db with artifacts := artifacts }
      { db' with artifacts := artifacts' } :=
  same.change ⟨rfl, rfl, rfl, rfl, rfl⟩ ⟨rfl, rfl, rfl, rfl, rfl⟩
    ⟨congrArg₂ (fun (rows : Others) kept => { rows with artifacts := kept }) same.rows.stored part,
      same.rows.texts, same.rows.chunks⟩

theorem AlikeTo.upsert (same : AlikeTo kind user session db db') (target : ArtifactKind)
    (content : ArtifactContent) (modelUsed : Text) :
    AlikeTo kind user session (ArtifactRepository.upsert db session target content modelUsed)
      (ArtifactRepository.upsert db' session target content modelUsed) := by
  apply same.withArtifacts
  have rows := congrArg Others.artifacts same.rows.stored
  exact Table.part_put rows (by simp) fun o clash => by simpa using congrArg Prod.fst clash

theorem AlikeTo.upsertAll (same : AlikeTo kind user session db db') (modelUsed : Text)
    (artifacts : List (ArtifactKind × ArtifactContent)) :
    AlikeTo kind user session (Jobs.upsertAll session modelUsed db artifacts)
      (Jobs.upsertAll session modelUsed db' artifacts) := by
  induction artifacts generalizing db db' with
  | nil => exact same
  | cons head rest ih => exact ih (same.upsert head.1 head.2 modelUsed)

theorem AlikeTo.withChunks (same : AlikeTo kind user session db db') (other : kind ≠ .transcription)
    {p : Chunk → Bool} {f : Chunk → Chunk} (keeps : ∀ row, (f row).id = row.id)
    (keepsPlace : ∀ row, (f row).place = row.place) :
    AlikeTo kind user session { db with chunks := db.chunks.update p f keeps keepsPlace }
      { db' with chunks := db'.chunks.update p f keeps keepsPlace } := by
  have own (row : Chunk) : decide ((f row).sessionId = session) = decide (row.sessionId = session) :=
    congrArg (fun place => decide (place.1 = session)) (keepsPlace row)
  have part := Table.part_update (t := db.chunks.toTable) (u := db'.chunks.toTable)
    (same.rows.chunks other) (p := p) keeps own
  refine same.change ⟨rfl, rfl, rfl, rfl, rfl⟩ ⟨rfl, rfl, rfl, rfl, rfl⟩
    ⟨same.rows.stored, ?_, fun _ => part⟩
  exact congrArg (List.map fun row => (row.ordre, row.text, row.summaryText)) part

theorem AlikeTo.storePartials (same : AlikeTo kind user session db db')
    (other : kind ≠ .transcription) (partials : List (ChunkDatum × Text)) :
    AlikeTo kind user session (Jobs.storePartials db partials)
      (Jobs.storePartials db' partials) := by
  induction partials generalizing db db' with
  | nil => exact same
  | cons head rest ih =>
      obtain ⟨datum, partialSummary⟩ := head
      unfold Jobs.storePartials
      split
      · exact ih (same.withChunks other _ _)
      · exact ih same

theorem AlikeTo.swapSummary (same : AlikeTo kind user session db db')
    (other : kind ≠ .transcription) (data : List ChunkDatum) (partials : List Text)
    (final modelUsed : Text) :
    AlikeTo kind user session (Jobs.swapSummary session data partials final modelUsed db)
      (Jobs.swapSummary session data partials final modelUsed db') := by
  have reset : AlikeTo kind user session (ChunkRepository.resetSummaryTexts db session)
      (ChunkRepository.resetSummaryTexts db' session) :=
    same.withChunks other _ _
  have stored := reset.storePartials other (data.zip partials)
  have first := stored.withArtifacts (Table.part_delete
    (congrArg Others.artifacts stored.rows.stored) fun row =>
      row.sessionId = session && [ArtifactKind.narrative, .elements].contains row.kind)
  have second := first.withArtifacts (Table.part_delete
    (congrArg Others.artifacts first.rows.stored) fun row => row.sessionId = session && row.isPov)
  exact second.upsert .summary (.text final) modelUsed

theorem AlikeTo.sourceDocument (same : AlikeTo kind user session db db')
    (other : kind ≠ .transcription) (env : Environment) (label : String) :
    Jobs.sourceDocument env session label db = Jobs.sourceDocument env session label db' := by
  unfold Jobs.sourceDocument
  rw [same.row, same.chunks other, same.transcription]

theorem AlikeTo.loadChunkData (same : AlikeTo kind user session db db')
    (other : kind ≠ .transcription) (env : Environment) :
    Jobs.loadChunkData env session db = Jobs.loadChunkData env session db' := by
  unfold Jobs.loadChunkData
  rw [same.row, same.chunks other]

theorem takesPart_mapping {db : Database} {row : SessionPjMapping}
    (member : row ∈ MappingRepository.getForSession db session) :
    takesPart db session row.pjId = true := by
  have held : row ∈ (Database.rowsOf db session).mappings := (List.mem_insertionSort _).mp member
  unfold takesPart
  rw [List.contains_iff_mem, List.mem_append]
  exact .inl (List.mem_map_of_mem held)

theorem takesPart_player {db : Database} {row : SessionPlayer}
    (member : row ∈ SessionPlayerRepository.listForSession db session) :
    takesPart db session row.pjId = true := by
  unfold takesPart
  rw [List.contains_iff_mem, List.mem_append]
  exact .inr (List.mem_map_of_mem member)

theorem AlikeTo.loadParticipants (same : AlikeTo kind user session db db') :
    Jobs.loadParticipants session db = Jobs.loadParticipants session db' := by
  have rows (pairs : List PjPair)
      (named : ∀ pair ∈ pairs, takesPart db session pair.pjId = true ∧
        takesPart db' session pair.pjId = true) :
      (db.pjs.rows.filter fun pj => pj.id ∈ pairs.map PjPair.pjId) =
        db'.pjs.rows.filter fun pj => pj.id ∈ pairs.map PjPair.pjId := by
    apply same.pjs
    intro pj member
    obtain ⟨pair, listed, rfl⟩ := List.mem_map.mp member
    exact named pair listed
  unfold Jobs.loadParticipants
  rw [same.row]
  split
  · rfl
  · split
    · rfl
    · rw [same.players, same.mappings]
      dsimp only
      split
      · rw [rows]
        intro pair member
        obtain ⟨player, listed, rfl⟩ := List.mem_map.mp member
        exact ⟨takesPart_player (same.players ▸ listed), takesPart_player listed⟩
      · rw [rows]
        intro pair member
        obtain ⟨mapping, listed, rfl⟩ := List.mem_map.mp member
        exact ⟨takesPart_mapping (same.mappings ▸ listed), takesPart_mapping listed⟩

end AlikeTo

/-! ## The programs -/

section Programs
variable {kind : JobKind} {user : Option Uuid} {session : Uuid}

theorem blind_loadSessionModelSettings :
    (loadSessionModelSettings session).Blind (AlikeTo kind user session) := by
  apply Blind.reading_bind
  · intro db db' same
    exact congrArg Except.ok (same.owner.1.trans same.owner.2.symm)
  · intro db found valid read
    cases found with
    | none => exact True.intro
    | some id =>
        have named : user = some id := valid.owner.1.symm.trans (Except.ok.inj read)
        apply Blind.reading
        intro db db' same
        exact congrArg Except.ok (same.settings id (Option.mem_def.mpr named))

theorem blind_obtainAdapter (env : Environment) :
    (obtainAdapter env session).Blind (AlikeTo kind user session) := by
  apply Blind.bind
  · exact blind_loadSessionModelSettings
  · intro row
    apply Blind.bind
    · exact Blind.ofExcept _
    · exact fun choice => Blind.ask _

theorem blind_chooseAdapter (env : Environment) :
    (chooseAdapter env session).Blind (AlikeTo kind user session) := by
  apply Blind.bind
  · exact blind_loadSessionModelSettings
  · intro row
    apply Blind.bind
    · exact Blind.ofExcept _
    · intro choice
      apply Blind.bind
      · exact Blind.ask _
      · exact fun _ => True.intro

theorem blind_report (reports : Bool) (phase : Phase) (percent : Option Int) :
    (report reports phase percent).Blind (AlikeTo kind user session) :=
  .of_calls (guarantees_report reports phase percent)

theorem blind_complete (env : Environment) (adapter : LlmAdapter) (ordinal : Nat)
    (system : SystemPrompt) (prompt : Text) :
    (complete env adapter ordinal system prompt).Blind (AlikeTo kind user session) :=
  .of_calls (guarantees_complete env adapter ordinal system prompt)

theorem blind_markSessionFailed (reason : Option String) :
    (markSessionFailed session reason).Blind (AlikeTo kind user session) :=
  .atomically fun _ _ same => .ok () (same.markFailed reason)

theorem blind_locateAudio (started : Started) :
    (locateAudio session started).Blind (AlikeTo kind user session) := by
  have failure (reason : Option String) (detail : String) :
      ((markSessionFailed session reason).bind fun _ =>
        (Process.raise (.permanentJob detail) : JobBody AudioPath)).Blind
          (AlikeTo kind user session) := by
    apply Blind.bind
    · exact blind_markSessionFailed reason
    · exact fun _ => True.intro
  apply Blind.bind
  · exact Blind.ask _
  · intro present
    split
    · exact failure none _
    · split
      · apply Blind.bind
        · apply Blind.rescue
          · exact Blind.ask _
          · intro e
            cases e
            case audioReduce detail =>
              apply Blind.bind
              · exact Blind.tell _
              · intro _
                apply Blind.bind
                · exact blind_markSessionFailed _
                · exact fun _ => True.intro
            all_goals exact True.intro
        · intro prepared
          apply Blind.bind
          · exact Blind.atomically fun _ _ same => same.storePreparedAudio prepared _
          · intro updated
            split
            · exact failure (some _) _
            · apply Blind.bind
              · exact Blind.tell _
              · exact fun _ => True.intro
      · exact True.intro

theorem blind_transcriptionFailed (reports : Bool) (e : Exn) :
    (transcriptionFailed session reports e).Blind (AlikeTo kind user session) := by
  have failure (transition : JobBody Unit) (e : Exn)
      (blind : transition.Blind (AlikeTo kind user session)) :
      (transition.bind fun _ => (report reports .failed none).bind fun _ =>
        (Process.raise e : JobBody TranscriptionResult)).Blind (AlikeTo kind user session) := by
    apply Blind.bind blind
    intro _
    apply Blind.bind
    · exact blind_report _ _ _
    · exact fun _ => True.intro
  have restored : (restoreSessionState session .audioUploaded).Blind
      (AlikeTo kind user session) :=
    .atomically fun _ _ same => .ok () (same.updateState .audioUploaded)
  cases e
  case transientTranscription detail => exact failure _ _ restored
  case permanentTranscription detail => exact failure _ _ (blind_markSessionFailed _)
  case audioChunking detail => exact failure _ _ (blind_markSessionFailed _)
  all_goals exact True.intro

theorem blind_transcribeSession (env : Environment) (reports : Bool) :
    (transcribeSession env session reports).Blind (AlikeTo .transcription user session) := by
  rw [transcribeSession_eq]
  apply Blind.bind
  · exact Blind.atomically fun _ _ same => same.begin
  · intro started
    apply Blind.bind
    · exact blind_locateAudio started
    · intro path
      apply Blind.bind
      · exact blind_chooseAdapter env
      · intro adapter
        apply Blind.bind
        · exact blind_report _ _ _
        · intro _
          apply Blind.bind
          · apply Blind.rescue
            · unfold transcribeWithOptionalChunking
              split
              · exact Blind.ask _
              · apply Blind.bind
                · exact Blind.ask _
                · exact fun pieces => .of_calls (guarantees_transcribePieces _ _ _ _ _ _ _ _)
            · exact blind_transcriptionFailed reports
          · intro result
            apply Blind.bind
            · apply Blind.bind
              · exact .of_calls (guarantees_drawChunkId _)
              · exact fun drawn => Blind.atomically fun _ _ same =>
                  same.persist env.settings started.mode drawn result
            · exact fun _ => blind_report _ _ _

theorem blind_writeArtifacts (modelUsed : Text) (artifacts : List (ArtifactKind × ArtifactContent)) :
    (writeArtifacts session modelUsed artifacts).Blind (AlikeTo kind user session) :=
  .atomically fun _ _ same => .ok () (same.upsertAll modelUsed artifacts)

theorem blind_generateSingle (other : kind ≠ .transcription) (env : Environment) (label : String)
    (system : SystemPrompt) (target : ArtifactKind) (content : Text → Except Exn ArtifactContent) :
    (generateSingle env session label system target content).Blind
      (AlikeTo kind user session) := by
  rw [generateSingle_eq]
  apply Blind.bind
  · exact Blind.reading fun _ _ same => same.sourceDocument other env label
  · intro source
    apply Blind.bind
    · exact blind_obtainAdapter env
    · intro adapter
      apply Blind.bind
      · exact blind_complete _ _ _ _ _
      · intro reply
        apply Blind.bind
        · exact .ofExcept _
        · exact fun made => blind_writeArtifacts _ _

theorem blind_generatePovs (other : kind ≠ .transcription) (env : Environment) :
    (generatePovs env session).Blind (AlikeTo kind user session) := by
  rw [generatePovs_eq]
  apply Blind.bind
  · exact Blind.reading fun _ _ same => same.loadParticipants
  · intro participants
    apply Blind.bind
    · exact Blind.reading fun _ _ same => same.sourceDocument other env "povs"
    · intro source
      apply Blind.bind
      · exact blind_obtainAdapter env
      · intro adapter
        apply Blind.bind
        · exact .of_calls (guarantees_completePovs _ _ _ _ _ _)
        · exact fun results => blind_writeArtifacts _ _

theorem blind_generateSummary (other : kind ≠ .transcription) (env : Environment) :
    (generateSummary env session).Blind (AlikeTo kind user session) := by
  rw [generateSummary_eq]
  apply Blind.bind
  · exact Blind.reading fun _ _ same => same.loadChunkData other env
  · intro data
    apply Blind.bind
    · exact blind_obtainAdapter env
    · intro adapter
      apply Blind.bind
      · exact .of_calls (guarantees_summariseChunks _ _ _ _)
      · intro partials
        apply Blind.bind
        · unfold reduceSummaries
          split
          · exact True.intro
          · exact blind_complete _ _ _ _ _
        · intro final
          exact Blind.atomically fun _ _ same =>
            .ok () (same.swapSummary other data partials final _)

theorem blind_jobProgram (env : Environment) (kind : JobKind) :
    (jobProgram env kind session).Blind (AlikeTo kind user session) := by
  cases kind with
  | transcription => exact blind_transcribeSession env true
  | narrative => exact blind_generateSingle (by decide) env _ _ _ _
  | elements => exact blind_generateSingle (by decide) env _ _ _ _
  | povs => exact blind_generatePovs (by decide) env
  | summary => exact blind_generateSummary (by decide) env

end Programs

end Kaeyris.Proof
