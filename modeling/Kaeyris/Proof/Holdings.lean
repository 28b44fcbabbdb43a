import Kaeyris.Proof.JobMoves

/-!
# What a session holds

Chunks, players and a summary belong to one transcription mode; a transcription and a speaker
mapping to the other. Each request and each transaction of a job is given here the kinds of rows
that it may add, all of its own session. None changes the owner, the campaign or the mode of a
session, or a character.
-/

namespace Kaeyris.Proof
open Lib Jobs Process Logic Router

inductive Holding
  | chunks
  | transcription
  | mapping (pj : Uuid)
  | player (pj : Uuid)
  | artifact (kind : ArtifactKind)

def Has (db : Database) (session : Uuid) : Holding → Prop
  | .chunks => ∃ row ∈ db.chunks.rows, row.sessionId = session
  | .transcription => ∃ row ∈ db.transcriptions.rows, row.sessionId = session
  | .mapping pj => ∃ row ∈ db.mappings.rows, row.sessionId = session ∧ row.pjId = pj
  | .player pj => ∃ row ∈ db.players.rows, row.sessionId = session ∧ row.pjId = pj
  | .artifact kind => ∃ row ∈ db.artifacts.rows, row.sessionId = session ∧ row.kind = kind

def fixedColumns (row : Session) : Uuid × Option Uuid × TranscriptionMode :=
  (row.gmKeyId, row.campaignId, row.transcriptionMode)

/-- What is added belongs to the session and is allowed by `adds`. The transcription of the session
is lost only if `drops`. -/
structure AddsOnly (adds : Holding → Prop) (drops : Prop) (session : Uuid) (db db' : Database) :
    Prop where
  pjs : db'.pjs = db.pjs
  sessions : ∀ id, (db'.sessions.get? id).map fixedColumns = (db.sessions.get? id).map fixedColumns
  holdings : ∀ id holding, Has db' id holding → Has db id holding ∨ id = session ∧ adds holding
  transcription : ∀ id, Has db id .transcription → Has db' id .transcription ∨ id = session ∧ drops

namespace AddsOnly
variable {adds adds' : Holding → Prop} {drops drops' : Prop} {session : Uuid}
  {db db' db'' : Database}

theorem refl (db : Database) : AddsOnly adds drops session db db :=
  ⟨rfl, fun _ => rfl, fun _ _ held => .inl held, fun _ held => .inl held⟩

theorem trans (first : AddsOnly adds drops session db db')
    (second : AddsOnly adds drops session db' db'') : AddsOnly adds drops session db db'' where
  pjs := second.pjs.trans first.pjs
  sessions := fun id => (second.sessions id).trans (first.sessions id)
  holdings := fun id holding held => by
    rcases second.holdings id holding held with before | added
    · exact first.holdings id holding before
    · exact .inr added
  transcription := fun id held => by
    rcases first.transcription id held with kept | dropped
    · exact second.transcription id kept
    · exact .inr dropped

theorem weaken (step : AddsOnly adds drops session db db') (wider : ∀ holding, adds holding →
    adds' holding) (looser : drops → drops') : AddsOnly adds' drops' session db db' where
  pjs := step.pjs
  sessions := step.sessions
  holdings := fun id holding held => (step.holdings id holding held).imp_right fun added =>
    ⟨added.1, wider holding added.2⟩
  transcription := fun id held => (step.transcription id held).imp_right fun dropped =>
    ⟨dropped.1, looser dropped.2⟩

theorem updateSession (target : Uuid) (f : Session → Session) (keeps : ∀ row, (f row).id = row.id)
    (fixed : ∀ row, fixedColumns (f row) = fixedColumns row) :
    AddsOnly adds drops session db
      { db with sessions := db.sessions.update (fun row => row.id = target) f keeps } where
  pjs := rfl
  sessions := fun id => by
    rw [Table.get?_update_key]
    split
    · cases db.sessions.get? id with
      | none => rfl
      | some row => exact congrArg some (fixed row)
    · rfl
  holdings := fun id holding held => by cases holding <;> exact .inl held
  transcription := fun id held => .inl held

theorem updateState (target : Uuid) (state : SessionState) :
    AddsOnly adds drops session db (SessionRepository.updateState db target state) :=
  updateSession target _ _ fun _ => rfl

theorem setCurrentJobId (target : Uuid) (job : Option JobId) :
    AddsOnly adds drops session db (SessionRepository.setCurrentJobId db target job) :=
  updateSession target _ _ fun _ => rfl

theorem clearEditedTranscript (target : Uuid) :
    AddsOnly adds drops session db (SessionRepository.clearEditedTranscript db target) :=
  updateSession target _ _ fun _ => rfl

theorem audioSources (rows : Table Uuid AudioSource AudioSource.sessionId) :
    AddsOnly adds drops session db { db with audioSources := rows } where
  pjs := rfl
  sessions := fun _ => rfl
  holdings := fun id holding held => by cases holding <;> exact .inl held
  transcription := fun id held => .inl held

theorem jobs (rows : Table JobId Kaeyris.Job Kaeyris.Job.id) :
    AddsOnly adds drops session db { db with jobs := rows } where
  pjs := rfl
  sessions := fun _ => rfl
  holdings := fun id holding held => by cases holding <;> exact .inl held
  transcription := fun id held => .inl held

theorem artifacts {rows : Table (Uuid × ArtifactKind) Artifact Artifact.key}
    (from_ : ∀ row' ∈ rows.rows, (∃ row ∈ db.artifacts.rows, row.key = row'.key) ∨
      row'.sessionId = session ∧ adds (.artifact row'.kind)) :
    AddsOnly adds drops session db { db with artifacts := rows } where
  pjs := rfl
  sessions := fun _ => rfl
  holdings := fun id holding held => by
    cases holding with
    | artifact kind =>
        obtain ⟨row', member, rfl, rfl⟩ := held
        refine (from_ row' member).imp_left fun ⟨row, before, same⟩ => ?_
        exact ⟨row, before, congrArg Prod.fst same, congrArg Prod.snd same⟩
    | _ => exact .inl held
  transcription := fun id held => .inl held

theorem deleteArtifacts (p : Artifact → Bool) :
    AddsOnly adds drops session db { db with artifacts := db.artifacts.delete p } :=
  artifacts fun row member => .inl ⟨row, List.mem_of_mem_filter member, rfl⟩

theorem upsertArtifact {kind : ArtifactKind} (allowed : adds (.artifact kind))
    (content : ArtifactContent) (modelUsed : Text) :
    AddsOnly adds drops session db
      (ArtifactRepository.upsert db session kind content modelUsed) := by
  apply artifacts
  intro row member
  rcases Table.mem_put member with rfl | before
  · exact .inr ⟨rfl, allowed⟩
  · exact .inl ⟨row, before, rfl⟩

theorem updateContent {target : Uuid} {kind : ArtifactKind} {content : ArtifactContent}
    {editor : Uuid}
    (updated : ArtifactRepository.updateContent db target kind content editor = some db') :
    AddsOnly adds drops session db db' := by
  unfold ArtifactRepository.updateContent at updated
  obtain ⟨_, _, rfl⟩ := Option.map_eq_some_iff.mp updated
  apply artifacts
  intro row' member
  obtain ⟨row, before, rfl⟩ := List.mem_map.mp member
  refine .inl ⟨row, before, ?_⟩
  split <;> rfl

theorem chunks {rows : Indexed Uuid (Uuid × Nat) Chunk Chunk.id Chunk.place}
    (from_ : ∀ row' ∈ rows.rows, (∃ row ∈ db.chunks.rows, row.sessionId = row'.sessionId) ∨
      row'.sessionId = session ∧ adds .chunks) :
    AddsOnly adds drops session db { db with chunks := rows } where
  pjs := rfl
  sessions := fun _ => rfl
  holdings := fun id holding held => by
    cases holding with
    | chunks =>
        obtain ⟨row', member, rfl⟩ := held
        exact from_ row' member
    | _ => exact .inl held
  transcription := fun id held => .inl held

theorem updateChunks (p : Chunk → Bool) (f : Chunk → Chunk) (keeps : ∀ row, (f row).id = row.id)
    (place : ∀ row, (f row).place = row.place) :
    AddsOnly adds drops session db { db with chunks := db.chunks.update p f keeps place } := by
  apply chunks
  intro row' member
  obtain ⟨row, before, rfl⟩ := List.mem_map.mp member
  refine .inl ⟨row, before, ?_⟩
  split
  · exact (congrArg Prod.fst (place row)).symm
  · rfl

theorem updateSummaryText (chunk : Uuid) (summary : Text) :
    AddsOnly adds drops session db (ChunkRepository.updateSummaryText db chunk summary) :=
  updateChunks (fun row => row.id = chunk) (fun row => { row with summaryText := some summary })
    (fun _ => rfl) fun _ => rfl

theorem resetSummaryTexts (target : Uuid) :
    AddsOnly adds drops session db (ChunkRepository.resetSummaryTexts db target) :=
  updateChunks (fun row => row.sessionId = target) (fun row => { row with summaryText := none })
    (fun _ => rfl) fun _ => rfl

theorem storePartials (pairs : List (ChunkDatum × Text)) :
    AddsOnly adds drops session db (Jobs.storePartials db pairs) := by
  induction pairs generalizing db with
  | nil => exact refl db
  | cons pair rest ih =>
      unfold Jobs.storePartials
      split
      · exact (updateSummaryText _ _).trans ih
      · exact ih

theorem deleteTranscription :
    AddsOnly adds True session db (TranscriptionRepository.deleteForSession db session) where
  pjs := rfl
  sessions := fun _ => rfl
  holdings := fun id holding held => by
    cases holding with
    | transcription =>
        obtain ⟨row, member, rfl⟩ := held
        exact .inl ⟨row, List.mem_of_mem_filter member, rfl⟩
    | _ => exact .inl held
  transcription := fun id ⟨row, member, owner⟩ => by
    by_cases own : id = session
    · exact .inr ⟨own, trivial⟩
    · refine .inl ⟨row, List.mem_filter.mpr ⟨member, ?_⟩, owner⟩
      simpa [owner] using own

theorem upsertTranscription (allowed : adds .transcription) (segments : List TranscriptionSegment)
    (language modelUsed provider : Text) :
    AddsOnly adds drops session db
      (TranscriptionRepository.upsert db session segments language modelUsed provider) where
  pjs := rfl
  sessions := fun _ => rfl
  holdings := fun id holding held => by
    cases holding with
    | transcription =>
        obtain ⟨row, member, rfl⟩ := held
        rcases Table.mem_put member with rfl | before
        · exact .inr ⟨rfl, allowed⟩
        · exact .inl ⟨row, before, rfl⟩
    | _ => exact .inl held
  transcription := fun id held => .inl (Table.exists_key_put.mpr (.inr held))

theorem deleteMappings (target : Uuid) :
    AddsOnly adds drops session db (MappingRepository.deleteForSession db target) where
  pjs := rfl
  sessions := fun _ => rfl
  holdings := fun id holding held => by
    cases holding with
    | mapping pj =>
        obtain ⟨row, member, named⟩ := held
        exact .inl ⟨row, List.mem_of_mem_filter member, named⟩
    | _ => exact .inl held
  transcription := fun id held => .inl held

theorem deleteChunks (target : Uuid) :
    AddsOnly adds drops session db (ChunkRepository.deleteForSession db target) :=
  chunks fun row member => .inl ⟨row, List.mem_of_mem_filter member, rfl⟩

theorem upsertStatus (job : JobId) (kind : JobKind) (target : Uuid) (status : JobStatus)
    (reason : Option String) :
    AddsOnly adds drops session db (JobRepository.upsertStatus db job kind target status reason) :=
  jobs _

theorem enqueueSessionJob (rq : Rq) (target : Uuid) (kind : JobKind) :
    AddsOnly adds drops session db (Logic.enqueueSessionJob db rq target kind).2.1 :=
  (upsertStatus _ kind target .queued none).trans (setCurrentJobId target _)

theorem markFailed (target : Uuid) (reason : Option String) :
    AddsOnly adds drops session db (Jobs.markFailed db target reason) := by
  unfold Jobs.markFailed
  dsimp only
  split
  · exact updateState target _
  · exact (updateState target _).trans (jobs _)

end AddsOnly

/-! ## Requests -/

def Request.adds : Request → Holding → Prop
  | .putSessionMapping mapping, .mapping pj => pj ∈ mapping.rows.map Prod.snd
  | .postSessionPlayers payload, .player pj => pj ∈ payload.pjIds
  | _, _ => False

/-- The mode a row of a kind belongs to; most artifacts belong to both. -/
def Holding.suits (mode : TranscriptionMode) : Holding → Prop
  | .chunks | .player _ | .artifact .summary => mode = .nonDiarised
  | .transcription | .mapping _ => mode = .diarised
  | .artifact _ => True

def Holding.names (pj : Uuid) : Holding → Prop
  | .mapping named | .player named | .artifact (.pov named) => named = pj
  | _ => False

def Owns (row : Session) (character : Pj) : Prop :=
  character.ownerGmKeyId = row.gmKeyId ∧ ∀ campaign, row.campaignId = some campaign →
    character.campaignId = campaign

def Owned (db : Database) (row : Session) (pj : Uuid) : Prop :=
  ∃ character, db.pjs.get? pj = some character ∧ Owns row character

/-- A row may be added to a session: it suits its mode, and whom it names its game master owns. -/
structure Fits (db : Database) (row : Session) (holding : Holding) : Prop where
  suits : holding.suits row.transcriptionMode
  named : ∀ pj, holding.names pj → Owned db row pj

theorem owns_of_missing {db : Database} {pjIds : List Uuid} {row : Session}
    (none : missingPjs db pjIds row.gmKeyId row.campaignId = []) {pj : Uuid} (member : pj ∈ pjIds) :
    Owned db row pj := by
  unfold missingPjs at none
  have found := List.filter_eq_nil_iff.mp none pj member
  rw [Option.isNone_iff_eq_none] at found
  obtain ⟨character, owned⟩ := Option.ne_none_iff_exists'.mp found
  unfold PjRepository.findByIdOwnedBy at owned
  obtain ⟨stored, kept⟩ := Option.filter_eq_some_iff.mp owned
  simp only [Bool.and_eq_true, decide_eq_true_eq, Option.all_eq_true] at kept
  exact ⟨character, stored, kept.1, fun campaign inside => kept.2 campaign inside⟩

theorem adds_purgedAudio {adds : Holding → Prop} {drops : Prop} {session : Uuid} (db : Database)
    (target : Uuid) (now : Timestamp) :
    AddsOnly adds drops session db (purgedAudio db target now) := by
  unfold purgedAudio
  split
  · split
    · exact .audioSources _
    · exact .refl db
  · exact .refl db

theorem adds_droppedOutputs {adds : Holding → Prop} (db : Database) (session : Uuid) :
    AddsOnly adds True session db (droppedOutputs db session) :=
  AddsOnly.deleteTranscription |>.trans (.deleteChunks session) |>.trans (.deleteArtifacts _)
    |>.trans (.clearEditedTranscript session) |>.trans (.setCurrentJobId session none)
    |>.trans (.updateState session .created)

theorem adds_deleteTranscriptionOutputs {adds : Holding → Prop} (db : Database) (session : Uuid) :
    AddsOnly adds True session db (deleteTranscriptionOutputsForRestart db session) :=
  AddsOnly.deleteTranscription |>.trans (.deleteChunks session) |>.trans (.deleteMappings session)
    |>.trans (.deleteArtifacts _) |>.trans (.clearEditedTranscript session)

theorem adds_putSessionMapping {mapping : Table Text (Text × Uuid) Prod.fst} {db after : Database}
    {drops : Prop} {session : Uuid}
    (saved : MappingRepository.replaceForSession db session mapping = some after) :
    AddsOnly (Request.adds (.putSessionMapping mapping)) drops session db
      (ArtifactRepository.invalidatePovArtifacts after session) := by
  unfold MappingRepository.replaceForSession at saved
  obtain ⟨rows, inserted, rfl⟩ := Option.map_eq_some_iff.mp saved
  refine AddsOnly.trans ?_ (.deleteArtifacts _)
  refine ⟨rfl, fun _ => rfl, fun id holding held => ?_, fun _ held => .inl held⟩
  cases holding with
  | mapping pj =>
      obtain ⟨row, member, rfl, rfl⟩ := held
      rw [Table.insertAll?_eq_some.mp inserted, List.mem_append] at member
      rcases member with before | added
      · exact .inl ⟨row, List.mem_of_mem_filter before, rfl, rfl⟩
      · obtain ⟨item, listed, rfl⟩ := List.mem_map.mp added
        exact .inr ⟨rfl, List.mem_map_of_mem listed⟩
  | _ => exact .inl held

theorem adds_postSessionPlayers {payload : SessionPlayersIn} {db after : Database} {drops : Prop}
    {session : Uuid}
    (saved : SessionPlayerRepository.replaceForSession db session payload.pjIds = some after) :
    AddsOnly (Request.adds (.postSessionPlayers payload)) drops session db after := by
  unfold SessionPlayerRepository.replaceForSession at saved
  obtain ⟨rows, inserted, rfl⟩ := Option.map_eq_some_iff.mp saved
  refine ⟨rfl, fun _ => rfl, fun id holding held => ?_, fun _ held => .inl held⟩
  cases holding with
  | player pj =>
      obtain ⟨row, member, rfl, rfl⟩ := held
      rw [Table.insertAll?_eq_some.mp inserted, List.mem_append] at member
      rcases member with before | added
      · exact .inl ⟨row, List.mem_of_mem_filter before, rfl, rfl⟩
      · obtain ⟨pj, listed, rfl⟩ := List.mem_map.mp added
        exact .inr ⟨rfl, (mem_uniqueIds.mp listed).1⟩
  | _ => exact .inl held

section Handle
variable {env : Environment} {db after : Database} {rq : Rq} {auth : AuthenticatedKey}
  {session : Uuid}

theorem putSessionMapping_adds {mapping : Table Text (Text × Uuid) Prod.fst} {drops : Prop}
    (accepted : Router.putSessionMapping mapping db auth session = .ok after) :
    AddsOnly (Request.adds (.putSessionMapping mapping)) drops session db after ∧
      ∃ row, db.sessions.get? session = some row ∧
        ∀ holding, Request.adds (.putSessionMapping mapping) holding → Fits db row holding := by
  obtain ⟨row, db', stored, diarised, owned, replaced, rfl⟩ := putSessionMapping_ok accepted
  refine ⟨adds_putSessionMapping replaced, row, stored, fun holding added => ?_⟩
  cases holding with
  | mapping pj =>
      refine ⟨diarised, fun named same => ?_⟩
      obtain rfl : pj = named := same
      exact owns_of_missing owned added
  | _ => exact added.elim

theorem postSessionPlayers_adds {payload : SessionPlayersIn} {drops : Prop}
    (accepted : Router.postSessionPlayers payload db auth session = .ok after) :
    AddsOnly (Request.adds (.postSessionPlayers payload)) drops session db after ∧
      ∃ row, db.sessions.get? session = some row ∧
        ∀ holding, Request.adds (.postSessionPlayers payload) holding → Fits db row holding := by
  obtain ⟨row, stored, nonDiarised, owned, replaced⟩ := postSessionPlayers_ok accepted
  refine ⟨adds_postSessionPlayers replaced, row, stored, fun holding added => ?_⟩
  cases holding with
  | player pj =>
      refine ⟨nonDiarised, fun named same => ?_⟩
      obtain rfl : pj = named := same
      exact owns_of_missing owned added
  | _ => exact added.elim

def Plain (request : Request) (db after : Database) (session : Uuid) : Prop :=
  AddsOnly (fun _ => False) (request.resets = true) session db after ∧
    ∃ row, db.sessions.get? session = some row

theorem postArtifact_plain {kind : JobKind} {checks : Database → Session → Except AppError Unit}
    {guarded : Guarded} {force : Bool} {result : JobId × Database × Rq} {request : Request}
    (accepted : postArtifact kind checks guarded db rq auth session force = .ok result) :
    Plain request db result.2.1 session := by
  obtain ⟨row, stored, -, -, rfl⟩ := postArtifact_ok accepted
  exact ⟨.enqueueSessionJob rq session kind, row, stored⟩

theorem editArtifact_plain {kind : ArtifactKind} {content : ArtifactContent}
    {checks : Database → Session → Except AppError Unit} {validate : Except AppError Unit}
    {absent : AppError} {request : Request}
    (accepted : editArtifact kind content checks validate absent db rq auth session = .ok after) :
    Plain request db after session := by
  obtain ⟨row, found, accepted⟩ := except_bind_ok accepted
  obtain ⟨_, _, accepted⟩ := except_bind_ok accepted
  obtain ⟨_, _, accepted⟩ := except_bind_ok accepted
  obtain ⟨_, _, accepted⟩ := except_bind_ok accepted
  split at accepted
  case h_1 updated =>
    cases accepted
    exact ⟨.updateContent updated, row, requireSession_ok found⟩
  case h_2 => cases accepted

theorem postAudio_plain {sha256 : Bytes → Text} {settings : Settings} {upload : UploadFile}
    {duration : Option Int} {stores stores' : Stores} {job : JobId} {request : Request}
    (accepted : postAudio settings sha256 upload duration stores auth session =
      .ok (job, stores')) : Plain request stores.db stores'.db session := by
  obtain ⟨row, found, received⟩ := except_bind_ok accepted
  have stored := requireSession_ok found
  obtain rfl : row.id = session := Table.key_of_get? stored
  obtain ⟨_, _, audios, -, -, result⟩ := storeAudioSourceForSession_ok (except_mapError_ok received)
  have db : stores'.db = _ := congrArg (fun r => r.2.1) result
  rw [db]
  exact ⟨AddsOnly.audioSources audios |>.trans (.updateState row.id .audioUploaded)
    |>.trans (.enqueueSessionJob stores.rq row.id .transcription), row, stored⟩

theorem deleteAudio_plain {now : Timestamp} {unlinked : Bool} {disk disk' : Disk}
    (accepted : deleteAudio now unlinked disk db auth session = .ok (disk', after)) :
    Plain (.deleteAudio now) db after session := by
  obtain ⟨row, found, purged⟩ := except_bind_ok accepted
  have stored := requireSession_ok found
  obtain rfl : row.id = session := Table.key_of_get? stored
  obtain ⟨-, rfl⟩ := purgeAudioForSession_ok (except_mapError_ok purged)
  refine ⟨(adds_purgedAudio db row.id now).trans ?_, row, stored⟩
  exact (adds_droppedOutputs _ row.id).weaken (fun _ => id) fun _ => rfl

theorem recoverStuckTranscription_plain {request : Request}
    (accepted : Router.recoverStuckTranscription db rq auth session = .ok after) :
    Plain request db after session := by
  obtain ⟨row, found, recovered⟩ := except_bind_ok accepted
  have done := except_mapError_ok recovered
  unfold Logic.recoverStuckTranscription at done
  split at done
  · cases done
  · split at done
    · cases done
    · dsimp only at done
      refine ⟨?_, row, requireSession_ok found⟩
      split at done
      · cases done
        exact .updateState row.id _
      · cases done
        exact (AddsOnly.updateState row.id _).trans (.upsertStatus _ _ _ _ _)

theorem restartTranscription_plain {result : JobId × Database × Rq}
    (accepted : Router.restartTranscription db rq auth session = .ok result) :
    Plain .restartTranscription db result.2.1 session := by
  obtain ⟨row, found, restarted⟩ := except_bind_ok accepted
  have stored := requireSession_ok found
  obtain rfl : row.id = session := Table.key_of_get? stored
  obtain ⟨-, -, rfl⟩ := restartTranscriptionForSession_ok (except_mapError_ok restarted)
  refine ⟨AddsOnly.trans ?_ (.enqueueSessionJob rq row.id .transcription), row, stored⟩
  refine AddsOnly.trans ?_ (.updateState row.id .audioUploaded)
  exact (adds_deleteTranscriptionOutputs db row.id).weaken (fun _ => id) fun _ => rfl

theorem putTranscriptionEdit_plain {payload : TranscriptionEditIn} {request : Request}
    (accepted : Router.putTranscriptionEdit payload db auth session = .ok after) :
    Plain request db after session := by
  obtain ⟨row, stored, rfl⟩ := putTranscriptionEdit_ok accepted
  exact ⟨.updateSession _ _ _ fun _ => rfl, row, stored⟩

/-- An accepted request adds to its own session only, and only what fits there. -/
theorem handle_adds {request : Request} {accepted : Accepted}
    (handled : request.handle env db rq auth session = .ok accepted) :
    AddsOnly (Request.adds request) (request.resets = true) session db accepted.db ∧
      ∃ row, db.sessions.get? session = some row ∧
        ∀ holding, Request.adds request holding → Fits db row holding := by
  have plain (nothing : ∀ holding, ¬Request.adds request holding)
      (done : Plain request db accepted.db session) :
      AddsOnly (Request.adds request) (request.resets = true) session db accepted.db ∧
        ∃ row, db.sessions.get? session = some row ∧
          ∀ holding, Request.adds request holding → Fits db row holding := by
    obtain ⟨step, row, stored⟩ := done
    exact ⟨step.weaken (fun _ => False.elim) id, row, stored,
      fun holding added => (nothing holding added).elim⟩
  cases request with
  | putSessionMapping mapping =>
      obtain ⟨after, done, rfl⟩ := except_map_ok handled
      exact putSessionMapping_adds done
  | postSessionPlayers payload =>
      obtain ⟨after, done, rfl⟩ := except_map_ok handled
      exact postSessionPlayers_adds done
  | postAudio upload duration =>
      obtain ⟨⟨job, stores⟩, done, rfl⟩ := except_map_ok handled
      exact plain (fun holding added => by cases holding <;> exact added) (postAudio_plain done)
  | deleteAudio now =>
      obtain ⟨⟨disk, after⟩, done, rfl⟩ := except_map_ok handled
      exact plain (fun holding added => by cases holding <;> exact added) (deleteAudio_plain done)
  | recoverStuckTranscription =>
      obtain ⟨after, done, rfl⟩ := except_map_ok handled
      exact plain (fun holding added => by cases holding <;> exact added)
        (recoverStuckTranscription_plain done)
  | restartTranscription =>
      obtain ⟨result, done, rfl⟩ := except_map_ok handled
      exact plain (fun holding added => by cases holding <;> exact added)
        (restartTranscription_plain done)
  | putTranscriptionEdit payload =>
      obtain ⟨after, done, rfl⟩ := except_map_ok handled
      exact plain (fun holding added => by cases holding <;> exact added)
        (putTranscriptionEdit_plain done)
  | postNarrative force | postElements force | postPovs force | postSummary force =>
      obtain ⟨result, done, rfl⟩ := except_map_ok handled
      exact plain (fun holding added => by cases holding <;> exact added) (postArtifact_plain done)
  | patchSummary payload | patchNarrative payload | patchPov pj payload | putElements elements c =>
      obtain ⟨after, done, rfl⟩ := except_map_ok handled
      exact plain (fun holding added => by cases holding <;> exact added) (editArtifact_plain done)

end Handle

/-! ## Jobs -/

def InMode (mode : TranscriptionMode) (session : Uuid) (db : Database) : Prop :=
  ∀ row, db.sessions.get? session = some row → row.transcriptionMode = mode

def JobKind.adds (kind : JobKind) (mode : TranscriptionMode) (pjs : Uuid → Prop) : Holding → Prop
  | .chunks => kind = .transcription ∧ mode = .nonDiarised
  | .transcription => kind = .transcription ∧ mode = .diarised
  | .artifact target => kind.produces pjs target ∧ (target = .summary → mode = .nonDiarised)
  | _ => False

/-- A transaction of a job adds as its kind may. The last one of a transcription job leaves a
transcription behind when the session is diarised. -/
def jobAdds (kind : JobKind) (mode : TranscriptionMode) (pjs : Uuid → Prop) (session : Uuid)
    (tx : Tx) (db db' : Database) : Prop :=
  AddsOnly (JobKind.adds kind mode pjs) False session db db' ∧
    (tx = .persist → mode = .diarised → Has db' session .transcription ∨ db' = db)

section Jobs
variable {kind : JobKind} {mode : TranscriptionMode} {pjs : Uuid → Prop} {session : Uuid} {tx : Tx}
  {db db' : Database}

theorem jobAdds_same (db : Database) : jobAdds kind mode pjs session tx db db :=
  ⟨.refl db, fun _ _ => .inr rfl⟩

theorem jobAdds_of_other (step : AddsOnly (JobKind.adds kind mode pjs) False session db db')
    (other : tx ≠ .persist) : jobAdds kind mode pjs session tx db db' :=
  ⟨step, fun same => (other same).elim⟩

theorem jobAdds_persist {settings : Settings} {drawn : Uuid} {result : TranscriptionResult}
    (persisted : persistOutput settings session mode drawn result db = .ok ((), db')) :
    jobAdds .transcription mode pjs session .persist db db' := by
  cases mode with
  | diarised =>
      cases persisted
      refine ⟨AddsOnly.trans (.upsertTranscription ⟨rfl, rfl⟩ _ _ _ _) (.updateState session _),
        fun _ _ => .inl (Table.exists_key_put.mpr (.inl rfl))⟩
  | nonDiarised =>
      refine ⟨?_, fun _ diarised => by cases diarised⟩
      unfold persistOutput at persisted
      cases created : ChunkRepository.bulkCreateForSession db session
          (chunksOf settings result) drawn with
      | none => simp [created] at persisted
      | some after =>
          simp only [created, Except.ok.injEq, Prod.mk.injEq, true_and] at persisted
          subst persisted
          unfold ChunkRepository.bulkCreateForSession at created
          obtain ⟨rows, inserted, rfl⟩ := Option.map_eq_some_iff.mp created
          refine AddsOnly.trans (.chunks fun row member => ?_) (.updateState session .transcribed)
          rw [Indexed.insertAll?_eq_some.mp inserted, List.mem_append] at member
          refine member.imp (fun before => ⟨row, before, rfl⟩) fun added => ?_
          obtain ⟨i, small, rfl⟩ := List.mem_mapIdx.mp added
          exact ⟨rfl, rfl, rfl⟩

theorem transcriptionSteps_adds (env : Environment) :
    TranscriptionSteps env session (InMode mode session) (· = mode)
      (jobAdds .transcription mode pjs session) where
  reads := fun _ db _ _ => jobAdds_same db
  fails := fun _ reason _ => jobAdds_of_other (.markFailed session reason) (by decide)
  restores := fun _ _ => jobAdds_of_other (.updateState session _) (by decide)
  begins := fun db started db' inMode begins => by
    obtain ⟨row, audio, stored, -, -, rfl, rfl⟩ := beginTranscription_ok begins
    exact ⟨jobAdds_of_other (.updateState session _) (by decide), inMode row stored⟩
  updates := fun db prepared duration _ => by
    unfold storePreparedAudio
    split
    · rename_i updated
      unfold SessionRepository.updateAudioSourceFile at updated
      obtain ⟨_, _, rfl⟩ := Option.map_eq_some_iff.mp updated
      exact jobAdds_of_other (.audioSources _) (by decide)
    · exact jobAdds_same db
  persists := fun _ _ _ _ _ _ known persisted => jobAdds_persist (known ▸ persisted)

theorem adds_upsertAll {adds : Holding → Prop} {drops : Prop} (modelUsed : Text)
    (artifacts : List (ArtifactKind × ArtifactContent))
    (allowed : ∀ target ∈ artifacts.map Prod.fst, adds (.artifact target)) :
    AddsOnly adds drops session db (upsertAll session modelUsed db artifacts) := by
  induction artifacts generalizing db with
  | nil => exact .refl db
  | cons head rest ih =>
      have first : adds (.artifact head.1) := allowed head.1 List.mem_cons_self
      refine (AddsOnly.upsertArtifact first head.2 modelUsed).trans (ih fun target member => ?_)
      exact allowed target (List.mem_cons_of_mem _ member)

theorem adds_swapSummary {adds : Holding → Prop} {drops : Prop} (allowed : adds (.artifact .summary))
    (data : List ChunkDatum) (partials : List Text) (final modelUsed : Text) :
    AddsOnly adds drops session db (swapSummary session data partials final modelUsed db) :=
  AddsOnly.resetSummaryTexts session |>.trans (.storePartials _) |>.trans (.deleteArtifacts _)
    |>.trans (.deleteArtifacts _) |>.trans (.upsertArtifact allowed _ modelUsed)

theorem artifactSteps_adds (env : Environment) :
    ArtifactSteps env session kind pjs (InMode mode session) (jobAdds kind mode pjs session) where
  reads := fun _ db _ _ => jobAdds_same db
  writes := fun db modelUsed artifacts other _ allowed => by
    refine jobAdds_of_other (adds_upsertAll modelUsed artifacts fun target member => ?_) (by simp)
    refine ⟨allowed target member, fun same => ?_⟩
    have produced := allowed target member
    rw [same] at produced
    cases kind with
    | summary => exact (other rfl).elim
    | _ => cases produced
  swaps := fun before data summary inMode read db partials final modelUsed _ => by
    obtain ⟨row, stored, mode', -⟩ := loadChunkData_row read
    subst summary
    refine jobAdds_of_other (adds_swapSummary ⟨rfl, fun _ => ?_⟩ data partials final modelUsed)
      (by simp)
    exact (inMode row stored).symm.trans mode'

theorem guarantees_jobAdds (env : Environment) (other : kind ≠ .povs) :
    (jobProgram env kind session).Guarantees (InMode mode session)
      (jobAdds kind mode pjs session) := by
  cases kind with
  | transcription => exact (transcriptionSteps_adds env).transcribeSession true
  | narrative => exact (artifactSteps_adds env).generateSingle (by decide) _ _ _ _ rfl
  | elements => exact (artifactSteps_adds env).generateSingle (by decide) _ _ _ _ rfl
  | summary => exact (artifactSteps_adds env).generateSummary rfl
  | povs => exact (other rfl).elim

end Jobs

end Kaeyris.Proof
