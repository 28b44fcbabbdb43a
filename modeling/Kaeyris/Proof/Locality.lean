import Kaeyris.Lifecycle
import Kaeyris.Proof.Holdings

/-!
# Each change stays within one session

Whatever a request or a transaction of a job writes, it writes for the one session it is about. A
job's failure is recorded under the session's current job, so this rests on every job record
belonging to the session that points at it.
-/

namespace Kaeyris.Proof
open Lib Jobs Process Logic Router

def Database.accounts (db : Database) : Platform.Accounts :=
  ⟨db.users, db.campaigns, db.campaignMembers, db.modelSettings⟩

/-- The rows of every other session are the same, and so is what belongs to none. -/
structure Local (session : Uuid) (db db' : Database) : Prop where
  others : db'.others session = db.others session
  accounts : Database.accounts db' = Database.accounts db
  pjs : db'.pjs = db.pjs

/-- No two sessions point at one job, and a job record belongs to the session that points at it. -/
def JobsOwned (db : Database) : Prop :=
  ∃ owner : JobId → Uuid,
    (∀ row ∈ db.sessions.rows, ∀ job, row.currentJobId = some job → owner job = row.id) ∧
    ∀ row ∈ db.jobs.rows, owner row.id = row.sessionId

def Confined (session : Uuid) (db db' : Database) : Prop :=
  JobsOwned db → Local session db db' ∧ JobsOwned db'

/-- `owner` tells for which session a chunk identifier was drawn. -/
def Draws (owner : Uuid → Uuid) (db : Database) : Prop :=
  ∀ row ∈ db.chunks.rows, owner row.id = row.sessionId

theorem jobsOwned_empty : JobsOwned .empty :=
  ⟨id, fun _ member => (List.not_mem_nil member).elim,
    fun _ member => (List.not_mem_nil member).elim⟩

theorem Local.refl (session : Uuid) (db : Database) : Local session db db := ⟨rfl, rfl, rfl⟩

theorem Local.trans {session : Uuid} {db db' db'' : Database} (first : Local session db db')
    (second : Local session db' db'') : Local session db db'' :=
  ⟨second.others.trans first.others, second.accounts.trans first.accounts,
    second.pjs.trans first.pjs⟩

theorem filter_map_of_mem {α : Type} {l : List α} {f : α → α} {q : α → Bool}
    (apart : ∀ a ∈ l, f a = a ∨ q a = false ∧ q (f a) = false) :
    (l.map f).filter q = l.filter q := by
  induction l with
  | nil => rfl
  | cons head tail ih =>
      have rest := ih fun a member => apart a (List.mem_cons_of_mem head member)
      rw [List.map_cons, List.filter_cons, List.filter_cons, rest]
      rcases apart head List.mem_cons_self with same | ⟨before, after⟩
      · rw [same]
      · simp [before, after]

namespace Confined
variable {session : Uuid} {db db' db'' : Database}

theorem refl (session : Uuid) (db : Database) : Confined session db db :=
  fun owned => ⟨.refl session db, owned⟩

theorem trans (first : Confined session db db') (second : Confined session db' db'') :
    Confined session db db'' := by
  intro owned
  obtain ⟨local₁, owned'⟩ := first owned
  obtain ⟨local₂, owned''⟩ := second owned'
  exact ⟨local₁.trans local₂, owned''⟩

theorem of_local (step : Local session db db') (sessions : db'.sessions = db.sessions)
    (jobs : db'.jobs = db.jobs) : Confined session db db' := by
  intro owned
  refine ⟨step, ?_⟩
  unfold JobsOwned
  rw [sessions, jobs]
  exact owned

theorem updateSession (f : Session → Session) (keeps : ∀ row, (f row).id = row.id)
    (current : ∀ row job, (f row).currentJobId = some job → row.currentJobId = some job) :
    Confined session db
      { db with sessions := db.sessions.update (fun row => row.id = session) f keeps } := by
  rintro ⟨owner, owned, recorded⟩
  refine ⟨⟨Database.others_updateSession db session f keeps, rfl, rfl⟩, owner, ?_, recorded⟩
  intro row' member job pointed
  obtain ⟨row, before, rfl⟩ := List.mem_map.mp member
  split at pointed
  · rename_i own
    rw [if_pos own, keeps]
    exact owned row before job (current row job pointed)
  · rename_i apart
    rw [if_neg apart]
    exact owned row before job pointed

theorem updateState (state : SessionState) :
    Confined session db (SessionRepository.updateState db session state) :=
  updateSession _ _ fun _ _ => id

theorem clearEditedTranscript :
    Confined session db (SessionRepository.clearEditedTranscript db session) :=
  updateSession _ _ fun _ _ => id

theorem clearCurrentJobId : Confined session db (SessionRepository.clearCurrentJobId db session) :=
  updateSession _ _ fun _ _ impossible => by cases impossible

theorem audioSources {rows : Table Uuid AudioSource AudioSource.sessionId}
    (kept : rows.rows.filter (fun row => row.sessionId ≠ session) =
      db.audioSources.rows.filter fun row => row.sessionId ≠ session) :
    Confined session db { db with audioSources := rows } :=
  of_local ⟨congrArg (fun rows => { db.others session with audioSources := rows }) kept, rfl, rfl⟩
    rfl rfl

theorem transcriptions {rows : Table Uuid Transcription Transcription.sessionId}
    (kept : rows.rows.filter (fun row => row.sessionId ≠ session) =
      db.transcriptions.rows.filter fun row => row.sessionId ≠ session) :
    Confined session db { db with transcriptions := rows } :=
  of_local ⟨congrArg (fun rows => { db.others session with transcriptions := rows }) kept, rfl, rfl⟩
    rfl rfl

theorem mappings {rows : Table (Uuid × Text) SessionPjMapping SessionPjMapping.key}
    (kept : rows.rows.filter (fun row => row.sessionId ≠ session) =
      db.mappings.rows.filter fun row => row.sessionId ≠ session) :
    Confined session db { db with mappings := rows } :=
  of_local ⟨congrArg (fun rows => { db.others session with mappings := rows }) kept, rfl, rfl⟩
    rfl rfl

theorem players {rows : Table (Uuid × Uuid) SessionPlayer SessionPlayer.key}
    (kept : rows.rows.filter (fun row => row.sessionId ≠ session) =
      db.players.rows.filter fun row => row.sessionId ≠ session) :
    Confined session db { db with players := rows } :=
  of_local ⟨congrArg (fun rows => { db.others session with players := rows }) kept, rfl, rfl⟩
    rfl rfl

theorem artifacts {rows : Table (Uuid × ArtifactKind) Artifact Artifact.key}
    (kept : rows.rows.filter (fun row => row.sessionId ≠ session) =
      db.artifacts.rows.filter fun row => row.sessionId ≠ session) :
    Confined session db { db with artifacts := rows } :=
  of_local ⟨congrArg (fun rows => { db.others session with artifacts := rows }) kept, rfl, rfl⟩
    rfl rfl

theorem chunks {rows : Indexed Uuid (Uuid × Nat) Chunk Chunk.id Chunk.place}
    (kept : rows.rows.filter (fun row => row.sessionId ≠ session) =
      db.chunks.rows.filter fun row => row.sessionId ≠ session) :
    Confined session db { db with chunks := rows } :=
  of_local ⟨congrArg (fun rows => { db.others session with chunks := rows }) kept, rfl, rfl⟩
    rfl rfl

theorem deleteTranscription :
    Confined session db (TranscriptionRepository.deleteForSession db session) :=
  of_local ⟨Database.others_deleteTranscription db session, rfl, rfl⟩ rfl rfl

theorem deleteChunks : Confined session db (ChunkRepository.deleteForSession db session) :=
  of_local ⟨Database.others_deleteChunks db session, rfl, rfl⟩ rfl rfl

theorem deleteMappings : Confined session db (MappingRepository.deleteForSession db session) :=
  of_local ⟨Database.others_deleteMappings db session, rfl, rfl⟩ rfl rfl

theorem deleteArtifacts : Confined session db (ArtifactRepository.deleteForSession db session) :=
  of_local ⟨Database.others_deleteArtifacts db session, rfl, rfl⟩ rfl rfl

theorem upsertArtifact (kind : ArtifactKind) (content : ArtifactContent) (modelUsed : Text) :
    Confined session db (ArtifactRepository.upsert db session kind content modelUsed) :=
  of_local ⟨Database.others_upsertArtifact db session kind content modelUsed, rfl, rfl⟩ rfl rfl

theorem upsertTranscription (segments : List TranscriptionSegment)
    (language modelUsed provider : Text) :
    Confined session db
      (TranscriptionRepository.upsert db session segments language modelUsed provider) := by
  apply transcriptions
  apply Table.filter_put
  · simp
  · intro old _ same
    have owner : old.sessionId = session := same
    simpa using owner

theorem updateContent {kind : ArtifactKind} {content : ArtifactContent} {editor : Uuid}
    (updated : ArtifactRepository.updateContent db session kind content editor = some db') :
    Confined session db db' := by
  unfold ArtifactRepository.updateContent at updated
  obtain ⟨_, _, rfl⟩ := Option.map_eq_some_iff.mp updated
  apply artifacts
  apply Table.filter_update
  · intro row own
    simp only [Bool.and_eq_true, decide_eq_true_eq] at own
    simpa using own.1
  · intro row own
    simp only [Bool.and_eq_true, decide_eq_true_eq] at own
    simpa using own.1

theorem storeAudioSource {path : AudioPath} {sha256 : Text} {sizeBytes : Nat}
    {durationSeconds : Option Int}
    (stored : SessionRepository.storeAudioSource db session path sha256 sizeBytes durationSeconds =
      some db') : Confined session db db' := by
  unfold SessionRepository.storeAudioSource at stored
  obtain ⟨rows, inserted, rfl⟩ := Option.map_eq_some_iff.mp stored
  apply audioSources
  rw [Table.insert?_eq_some.mp inserted |>.2, List.filter_append]
  simp

theorem updateAudioSourceFile {path : AudioPath} {sha256 : Text} {sizeBytes : Nat}
    {durationSeconds : Option Int}
    (updated : SessionRepository.updateAudioSourceFile db session path sha256 sizeBytes
      durationSeconds = some db') : Confined session db db' := by
  unfold SessionRepository.updateAudioSourceFile at updated
  obtain ⟨_, _, rfl⟩ := Option.map_eq_some_iff.mp updated
  apply audioSources
  apply Table.filter_update
  · simp
  · simp

theorem replaceMapping {mapping : Table Text (Text × Uuid) Prod.fst}
    (saved : MappingRepository.replaceForSession db session mapping = some db') :
    Confined session db db' := by
  unfold MappingRepository.replaceForSession at saved
  obtain ⟨rows, inserted, rfl⟩ := Option.map_eq_some_iff.mp saved
  refine deleteMappings.trans (mappings ?_)
  apply Table.filter_insertAll? inserted
  intro row added
  obtain ⟨item, _, rfl⟩ := List.mem_map.mp added
  simp

theorem replacePlayers {pjIds : List Uuid}
    (saved : SessionPlayerRepository.replaceForSession db session pjIds = some db') :
    Confined session db db' := by
  unfold SessionPlayerRepository.replaceForSession at saved
  obtain ⟨rows, inserted, rfl⟩ := Option.map_eq_some_iff.mp saved
  apply players
  refine (Table.filter_insertAll? inserted _ fun row added => ?_).trans ?_
  · obtain ⟨pj, _, rfl⟩ := List.mem_map.mp added
    simp
  · exact Table.filter_delete _ (by simp)

theorem bulkCreate {texts : List Text} {drawn : Uuid}
    (created : ChunkRepository.bulkCreateForSession db session texts drawn = some db') :
    Confined session db db' := by
  unfold ChunkRepository.bulkCreateForSession at created
  obtain ⟨rows, inserted, rfl⟩ := Option.map_eq_some_iff.mp created
  apply chunks
  have new : (ChunkRepository.newRows (ChunkRepository.firstId db drawn) session texts).filter
      (fun row => row.sessionId ≠ session) = [] := by
    rw [List.filter_eq_nil_iff]
    intro row added
    obtain ⟨i, small, rfl⟩ := List.mem_mapIdx.mp added
    simp
  rw [Indexed.insertAll?_eq_some.mp inserted, List.filter_append, new, List.append_nil]

theorem purgedAudio (now : Timestamp) : Confined session db (Proof.purgedAudio db session now) := by
  unfold Proof.purgedAudio
  split
  · split
    · exact of_local ⟨Database.others_markAudioPurged db session now, rfl, rfl⟩ rfl rfl
    · exact refl session db
  · exact refl session db

theorem recordJob {rows : Table JobId Kaeyris.Job Kaeyris.Job.id} {job : JobId}
    (pointed : ∃ row ∈ db.sessions.rows, row.id = session ∧ row.currentJobId = some job)
    (from_ : ∀ record' ∈ rows.rows, record'.id = job ∧ record'.sessionId = session ∨
      ∃ record ∈ db.jobs.rows, record.id = record'.id ∧ record.sessionId = record'.sessionId)
    (kept : (∀ record ∈ db.jobs.rows, record.id = job → record.sessionId = session) →
      rows.rows.filter (fun record => record.sessionId ≠ session) =
        db.jobs.rows.filter fun record => record.sessionId ≠ session) :
    Confined session db { db with jobs := rows } := by
  rintro ⟨owner, owned, recorded⟩
  obtain ⟨row, member, rfl, points⟩ := pointed
  have own : ∀ record ∈ db.jobs.rows, record.id = job → record.sessionId = row.id := by
    intro record present same
    rw [← recorded record present, same, owned row member job points]
  refine ⟨⟨?_, rfl, rfl⟩, owner, owned, ?_⟩
  · exact congrArg (fun rows => { db.others row.id with jobs := rows }) (kept own)
  · intro record' present
    rcases from_ record' present with ⟨same, session⟩ | ⟨record, before, same, session⟩
    · rw [same, session, owned row member job points]
    · rw [← same, ← session, recorded record before]

theorem upsertStatus {job : JobId} (kind : JobKind) (status : JobStatus) (reason : Option String)
    (pointed : ∃ row ∈ db.sessions.rows, row.id = session ∧ row.currentJobId = some job) :
    Confined session db (JobRepository.upsertStatus db job kind session status reason) := by
  apply recordJob pointed
  · intro record' member
    rcases Table.mem_put member with rfl | before
    · exact .inl ⟨rfl, rfl⟩
    · exact .inr ⟨record', before, rfl, rfl⟩
  · intro own
    apply Table.filter_put
    · simp
    · intro old member same
      simpa using own old member same

theorem markFailed (reason : Option String) :
    Confined session db (Jobs.markFailed db session reason) := by
  unfold Jobs.markFailed
  dsimp only
  split
  · exact updateState .transcriptionFailed
  · rename_i job current
    refine (updateState .transcriptionFailed).trans (@recordJob _ _ _ job ?_ ?_ ?_)
    · obtain ⟨row, stored, points⟩ := Option.bind_eq_some_iff.mp current
      have id : row.id = session := Table.key_of_get? stored
      refine ⟨{ row with state := .transcriptionFailed }, ?_, id, points⟩
      refine List.mem_map.mpr ⟨row, Table.mem_of_get? stored, ?_⟩
      rw [if_pos (by simpa using id)]
    · intro record' member
      obtain ⟨record, before, rfl⟩ := List.mem_map.mp member
      refine .inr ⟨record, before, ?_⟩
      split <;> exact ⟨rfl, rfl⟩
    · intro own
      refine filter_map_of_mem fun record member => ?_
      by_cases named : record.id = job
      · right
        rw [if_pos (by simpa using named)]
        simp [own record member named]
      · left
        rw [if_neg (by simpa using named)]

theorem enqueueSessionJob (rq : Rq) (kind : JobKind) :
    Confined session db (Logic.enqueueSessionJob db rq session kind).2.1 := by
  have new := enqueueSessionJob_fresh db rq session kind
  rintro ⟨owner, owned, recorded⟩
  refine ⟨⟨others_enqueueSessionJob db rq session kind, rfl, rfl⟩, ?_⟩
  unfold Logic.enqueueSessionJob at new ⊢
  dsimp only at new ⊢
  generalize (rq.enqueueJob (knownJobs db) kind session).1 = id at new
  unfold knownJobs at new
  have unpointed : ∀ row ∈ db.sessions.rows, row.currentJobId ≠ some id := fun row member points =>
    new (List.mem_append_right _ (List.mem_append_right _
      (List.mem_filterMap.mpr ⟨row, member, points⟩)))
  have unrecorded : ∀ record ∈ db.jobs.rows, record.id ≠ id := fun record member same =>
    new (List.mem_append_right _ (List.mem_append_left _ (List.mem_map.mpr ⟨record, member, same⟩)))
  refine ⟨fun other => if other = id then session else owner other, ?_, ?_⟩
  · intro row' member job points
    obtain ⟨row, before, rfl⟩ := List.mem_map.mp member
    by_cases own : row.id = session
    · rw [if_pos (by simpa using own)] at points ⊢
      cases points
      exact (if_pos rfl).trans own.symm
    · rw [if_neg (by simpa using own)] at points ⊢
      have other : job ≠ id := by
        rintro rfl
        exact unpointed row before points
      exact (if_neg other).trans (owned row before job points)
  · intro record' member
    rcases Table.mem_put member with rfl | before
    · exact if_pos rfl
    · exact (if_neg (unrecorded record' before)).trans (recorded record' before)

end Confined

/-! ## Requests -/

theorem confined_droppedOutputs (db : Database) (session : Uuid) :
    Confined session db (droppedOutputs db session) :=
  Confined.deleteTranscription |>.trans .deleteChunks |>.trans .deleteArtifacts
    |>.trans .clearEditedTranscript |>.trans .clearCurrentJobId |>.trans (.updateState .created)

theorem confined_deleteTranscriptionOutputs (db : Database) (session : Uuid) :
    Confined session db (deleteTranscriptionOutputsForRestart db session) :=
  Confined.deleteTranscription |>.trans .deleteChunks |>.trans .deleteMappings
    |>.trans .deleteArtifacts |>.trans .clearEditedTranscript

section Handle
variable {env : Environment} {db after : Database} {rq : Rq} {auth : AuthenticatedKey}
  {session : Uuid}

theorem putSessionMapping_confined {mapping : Table Text (Text × Uuid) Prod.fst}
    (accepted : Router.putSessionMapping mapping db auth session = .ok after) :
    Confined session db after := by
  obtain ⟨row, db', -, -, -, replaced, rfl⟩ := putSessionMapping_ok accepted
  refine (Confined.replaceMapping replaced).trans ?_
  have own : ∀ row : Artifact, (row.sessionId = session && row.isPov) = true →
      row.sessionId = session := by
    intro row deleted
    simp only [Bool.and_eq_true, decide_eq_true_eq] at deleted
    exact deleted.1
  exact .of_local ⟨Database.others_removeArtifacts own, rfl, rfl⟩ rfl rfl

theorem editArtifact_confined {kind : ArtifactKind} {content : ArtifactContent}
    {checks : Database → Session → Except AppError Unit} {validate : Except AppError Unit}
    {absent : AppError}
    (accepted : editArtifact kind content checks validate absent db rq auth session = .ok after) :
    Confined session db after := by
  obtain ⟨_, _, accepted⟩ := except_bind_ok accepted
  obtain ⟨_, _, accepted⟩ := except_bind_ok accepted
  obtain ⟨_, _, accepted⟩ := except_bind_ok accepted
  obtain ⟨_, _, accepted⟩ := except_bind_ok accepted
  split at accepted
  case h_1 updated =>
    cases accepted
    exact .updateContent updated
  case h_2 => cases accepted

theorem postAudio_confined {sha256 : Bytes → Text} {settings : Settings} {upload : UploadFile}
    {duration : Option Int} {stores stores' : Stores} {job : JobId}
    (accepted : postAudio settings sha256 upload duration stores auth session =
      .ok (job, stores')) : Confined session stores.db stores'.db := by
  obtain ⟨row, found, received⟩ := except_bind_ok accepted
  obtain rfl : row.id = session := Table.key_of_get? (requireSession_ok found)
  obtain ⟨_, content, audios, _, inserted, result⟩ :=
    storeAudioSourceForSession_ok (except_mapError_ok received)
  have db : stores'.db = _ := congrArg (fun r => r.2.1) result
  have source : SessionRepository.storeAudioSource stores.db row.id (.raw row.id) (sha256 content)
      content.length duration = some { stores.db with audioSources := audios } := by
    unfold SessionRepository.storeAudioSource
    rw [inserted]
    rfl
  rw [db]
  exact (Confined.storeAudioSource source).trans (.updateState .audioUploaded)
    |>.trans (.enqueueSessionJob stores.rq .transcription)

theorem deleteAudio_confined {now : Timestamp} {unlinked : Bool} {disk disk' : Disk}
    (accepted : deleteAudio now unlinked disk db auth session = .ok (disk', after)) :
    Confined session db after := by
  obtain ⟨row, found, purged⟩ := except_bind_ok accepted
  obtain rfl : row.id = session := Table.key_of_get? (requireSession_ok found)
  obtain ⟨-, rfl⟩ := purgeAudioForSession_ok (except_mapError_ok purged)
  exact (Confined.purgedAudio now).trans (confined_droppedOutputs _ row.id)

theorem recoverStuckTranscription_confined
    (accepted : Router.recoverStuckTranscription db rq auth session = .ok after) :
    Confined session db after := by
  obtain ⟨row, found, recovered⟩ := except_bind_ok accepted
  have stored := requireSession_ok found
  obtain rfl : row.id = session := Table.key_of_get? stored
  have done := except_mapError_ok recovered
  unfold Logic.recoverStuckTranscription at done
  split at done
  · cases done
  · split at done
    · cases done
    · dsimp only at done
      split at done
      · cases done
        exact .updateState _
      · rename_i job points
        cases done
        refine (Confined.updateState _).trans (.upsertStatus _ _ _ ?_)
        refine ⟨{ row with state := .transcriptionFailed }, ?_, rfl, points⟩
        refine List.mem_map.mpr ⟨row, Table.mem_of_get? stored, ?_⟩
        rw [if_pos (by simp)]

theorem restartTranscription_confined {result : JobId × Database × Rq}
    (accepted : Router.restartTranscription db rq auth session = .ok result) :
    Confined session db result.2.1 := by
  obtain ⟨row, found, restarted⟩ := except_bind_ok accepted
  obtain rfl : row.id = session := Table.key_of_get? (requireSession_ok found)
  obtain ⟨-, -, rfl⟩ := restartTranscriptionForSession_ok (except_mapError_ok restarted)
  refine Confined.trans ?_ (.enqueueSessionJob rq .transcription)
  exact (confined_deleteTranscriptionOutputs db row.id).trans (.updateState .audioUploaded)

theorem handle_confined {request : Request} {accepted : Accepted}
    (handled : request.handle env db rq auth session = .ok accepted) :
    Confined session db accepted.db := by
  cases request with
  | putSessionMapping mapping =>
      obtain ⟨after, done, rfl⟩ := except_map_ok handled
      exact putSessionMapping_confined done
  | postSessionPlayers payload =>
      obtain ⟨after, done, rfl⟩ := except_map_ok handled
      obtain ⟨_, _, _, _, replaced⟩ := postSessionPlayers_ok done
      exact .replacePlayers replaced
  | postAudio upload duration =>
      obtain ⟨⟨job, stores⟩, done, rfl⟩ := except_map_ok handled
      exact postAudio_confined done
  | deleteAudio now =>
      obtain ⟨⟨disk, after⟩, done, rfl⟩ := except_map_ok handled
      exact deleteAudio_confined done
  | recoverStuckTranscription =>
      obtain ⟨after, done, rfl⟩ := except_map_ok handled
      exact recoverStuckTranscription_confined done
  | restartTranscription =>
      obtain ⟨result, done, rfl⟩ := except_map_ok handled
      exact restartTranscription_confined done
  | putTranscriptionEdit payload =>
      obtain ⟨after, done, rfl⟩ := except_map_ok handled
      obtain ⟨_, _, rfl⟩ := putTranscriptionEdit_ok done
      exact .updateSession _ _ fun _ _ => id
  | postNarrative force | postElements force | postPovs force | postSummary force =>
      obtain ⟨result, done, rfl⟩ := except_map_ok handled
      obtain ⟨_, _, _, _, rfl⟩ := postArtifact_ok done
      exact .enqueueSessionJob rq _
  | patchSummary payload | patchNarrative payload | patchPov pj payload | putElements elements c =>
      obtain ⟨after, done, rfl⟩ := except_map_ok handled
      exact editArtifact_confined done

end Handle

/-! ## Jobs -/

section Jobs
variable {owner : Uuid → Uuid} {kind : JobKind} {pjs : Uuid → Prop} {session : Uuid}
  {db db' : Database}

theorem confined_persist {settings : Settings} {mode : TranscriptionMode} {drawn : Uuid}
    {result : TranscriptionResult}
    (persisted : persistOutput settings session mode drawn result db = .ok ((), db')) :
    Confined session db db' := by
  cases mode with
  | diarised =>
      cases persisted
      exact (Confined.upsertTranscription _ _ _ _).trans (.updateState .transcribed)
  | nonDiarised =>
      unfold persistOutput at persisted
      cases created : ChunkRepository.bulkCreateForSession db session
          (chunksOf settings result) drawn with
      | none => simp [created] at persisted
      | some after =>
          simp only [created, Except.ok.injEq, Prod.mk.injEq, true_and] at persisted
          subst persisted
          exact (Confined.bulkCreate created).trans (.updateState .transcribed)

theorem transcriptionSteps_confined (env : Environment) :
    TranscriptionSteps env session (Draws owner) (fun _ => True)
      (fun _ => Confined session) where
  reads := fun _ db _ _ => .refl session db
  fails := fun _ reason _ => .markFailed reason
  restores := fun _ _ => .updateState _
  begins := fun db started db' _ begins => by
    obtain ⟨row, audio, -, -, -, -, rfl⟩ := beginTranscription_ok begins
    exact ⟨.updateState _, trivial⟩
  updates := fun db prepared duration _ => by
    unfold storePreparedAudio
    split
    · rename_i updated
      exact .updateAudioSourceFile updated
    · exact .refl session db
  persists := fun _ _ _ _ _ _ _ persisted => confined_persist persisted

theorem confined_upsertAll (modelUsed : Text) (artifacts : List (ArtifactKind × ArtifactContent)) :
    Confined session db (upsertAll session modelUsed db artifacts) := by
  induction artifacts generalizing db with
  | nil => exact .refl session db
  | cons head rest ih => exact (Confined.upsertArtifact head.1 head.2 modelUsed).trans ih

theorem chunk_of_datum {env : Environment} {data : List ChunkDatum}
    (read : loadChunkData env session db = .ok data) {datum : ChunkDatum} (member : datum ∈ data)
    {id : Uuid} (named : datum.id = some id) :
    ∃ chunk ∈ db.chunks.rows, chunk.id = id ∧ chunk.sessionId = session := by
  obtain ⟨row, stored, mode, state⟩ := loadChunkData_row read
  unfold loadChunkData at read
  simp only [stored, mode, state, ne_eq, not_true_eq_false, if_false] at read
  cases edited : editedTranscriptSource row with
  | some content =>
      simp only [edited] at read
      split at read
      · cases read
      · cases read
        obtain ⟨i, small, rfl⟩ := List.mem_mapIdx.mp member
        cases named
  | none =>
      simp only [edited] at read
      split at read
      · cases read
      · cases read
        obtain ⟨chunk, listed, rfl⟩ := List.mem_map.mp member
        cases named
        obtain ⟨present, own⟩ := mem_listForSession.mp listed
        exact ⟨chunk, present, rfl, own⟩

/-- The chunks that a summary job has read are still those of its session. -/
theorem confined_swapSummary {env : Environment} {before : Database} {data : List ChunkDatum}
    (read : loadChunkData env session before = .ok data) (drawn : Draws owner before)
    (drawn' : Draws owner db) (partials : List Text) (final modelUsed : Text) :
    Confined session db (swapSummary session data partials final modelUsed db) := by
  have own : OwnData session data db := by
    intro datum member row present named
    obtain ⟨chunk, listed, same, own⟩ := chunk_of_datum read member named
    rw [← drawn' row present, ← same, drawn chunk listed, own]
  have others := others_swapSummary own partials final modelUsed
  obtain ⟨chunks, swapped⟩ := swapSummary_eq session data partials final modelUsed db
  rw [swapped] at others ⊢
  exact .of_local ⟨others, rfl, rfl⟩ rfl rfl

theorem artifactSteps_confined (env : Environment) :
    ArtifactSteps env session kind pjs (Draws owner) (fun _ => Confined session) where
  reads := fun _ db _ _ => .refl session db
  writes := fun _ modelUsed artifacts _ _ _ => confined_upsertAll modelUsed artifacts
  swaps := fun _ _ _ drawn read _ partials final modelUsed drawn' =>
    confined_swapSummary read drawn drawn' partials final modelUsed

theorem jobProgram_confined (env : Environment) :
    (jobProgram env kind session).Guarantees (Draws owner) (fun _ => Confined session) := by
  by_cases artifact : kind.isArtifact
  · have steps : ArtifactSteps env session kind (fun _ => True) (Draws owner) fun _ =>
        Confined session := artifactSteps_confined env
    exact steps.jobProgram artifact fun _ _ _ _ => trivial
  · cases kind with
    | transcription => exact (transcriptionSteps_confined env).transcribeSession true
    | _ => exact (artifact rfl).elim

end Jobs

/-! ## Sessions and characters -/

theorem patchSession_ok {payload : SessionUpdate} {db after : Database} {auth : AuthenticatedKey}
    {session : Uuid} (patched : Router.patchSession payload db auth session = .ok after) :
    (∃ row, db.sessions.get? session = some row ∧ row.gmKeyId = auth.id) ∧
      (after = db ∨
        ∃ context, after = SessionRepository.updateCampaignContext db session context) := by
  obtain ⟨_, -, opened⟩ := except_bind_ok patched
  obtain ⟨row, found, saved⟩ := except_bind_ok opened
  have stored := requireSession_ok found
  refine ⟨⟨row, stored, requireSession_owned found⟩, ?_⟩
  have same : row.id = session := Table.key_of_get? stored
  split at saved
  · cases saved
    exact .inl rfl
  · cases saved
    rw [same]
    exact .inr ⟨_, rfl⟩

theorem confined_patch {db after : Database} {session : Uuid}
    (changed : after = db ∨
      ∃ context, after = SessionRepository.updateCampaignContext db session context) :
    Confined session db after := by
  rcases changed with rfl | ⟨context, rfl⟩
  · exact .refl session _
  · exact .updateSession _ _ fun _ _ => id

theorem confined_delete (db : Database) (session : Uuid) :
    Confined session db (SessionRepository.delete db session) := by
  rintro ⟨owner, owned, recorded⟩
  have kept {ρ : Type} (rows : List ρ) (of : ρ → Uuid) :
      (rows.filter fun row => !decide (of row = session)).filter (fun row => of row ≠ session) =
        rows.filter fun row => of row ≠ session := by
    rw [List.filter_filter]
    apply List.filter_congr
    intro row _
    by_cases own : of row = session
    · simp [own]
    · simp [own]
  refine ⟨⟨?_, rfl, rfl⟩, owner, fun row member => ?_, fun row member => ?_⟩
  · simp only [Database.others, SessionRepository.delete, Table.rows_delete, Indexed.rows_delete,
      kept]
  · exact owned row (List.mem_of_mem_filter member)
  · exact recorded row (List.mem_of_mem_filter member)

theorem deleteSession_ok {db after : Database} {rq rq' : Rq} {auth : AuthenticatedKey}
    {session : Uuid} {stopped : Option JobId}
    (deleted : Router.deleteSession db rq auth session = .ok (after, rq', stopped)) :
    ∃ row, db.sessions.get? session = some row ∧ row.gmKeyId = auth.id ∧
      after = SessionRepository.delete db session ∧
        (rq', stopped) = Logic.abortActiveSessionJob rq row := by
  obtain ⟨row, found, answer⟩ := except_bind_ok deleted
  have stored := requireSession_ok found
  obtain rfl : row.id = session := Table.key_of_get? stored
  cases answer
  exact ⟨row, stored, requireSession_owned found, rfl, rfl⟩

theorem createSession_ok {session : Uuid} {payload : SessionCreate} {db after : Database}
    {auth : AuthenticatedKey} (created : Router.createSession session payload db auth = .ok after) :
    ∃ sessions, db.sessions.insert? (payload.row session auth.id) = some sessions ∧
      after = { db with sessions := sessions } := by
  obtain ⟨_, -, created⟩ := except_bind_ok created
  split at created
  · rename_i inserted
    cases created
    unfold SessionRepository.create at inserted
    obtain ⟨sessions, added, rfl⟩ := Option.map_eq_some_iff.mp inserted
    exact ⟨sessions, added, rfl⟩
  · cases created

theorem confined_create {session : Uuid} {payload : SessionCreate} {db after : Database}
    {auth : AuthenticatedKey} (created : Router.createSession session payload db auth = .ok after) :
    Confined session db after := by
  obtain ⟨sessions, added, rfl⟩ := createSession_ok created
  obtain ⟨free, rows⟩ := Table.insert?_eq_some.mp added
  rintro ⟨owner, owned, recorded⟩
  have kept : sessions.rows.filter (fun row => row.id ≠ session) =
      db.sessions.rows.filter fun row => row.id ≠ session := by
    rw [rows, List.filter_append]
    simp [SessionCreate.row]
  refine ⟨⟨congrArg (fun rows => { db.others session with sessions := rows }) kept, rfl, rfl⟩,
    owner,
    fun row member => ?_, recorded⟩
  dsimp only at member
  rw [rows, List.mem_append, List.mem_singleton] at member
  rcases member with before | rfl
  · exact owned row before
  · exact fun job impossible => by cases impossible

theorem createPj_ok {pj : Uuid} {payload : PjCreate} {defaultCampaign : Option Uuid}
    {db after : Database} {auth : AuthenticatedKey}
    (created : Router.createPj pj payload defaultCampaign db auth = .ok after) :
    ∃ campaign pjs, db.pjs.insertAll? [⟨pj, payload.name, auth.id, campaign⟩] = some pjs ∧
      after = { db with pjs := pjs } := by
  have done := except_mapError_ok created
  obtain ⟨campaign, -, assigned⟩ := except_bind_ok done
  obtain ⟨_, -, inserted⟩ := except_bind_ok assigned
  split at inserted
  · rename_i added
    cases inserted
    unfold PjRepository.create at added
    obtain ⟨pjs, fits, rfl⟩ := Option.map_eq_some_iff.mp added
    exact ⟨campaign, pjs, fits, rfl⟩
  · cases inserted

theorem updatePj_ok {pj : Uuid} {payload : PjUpdate} {db after : Database} {auth : AuthenticatedKey}
    (updated : Router.updatePj pj payload db auth = .ok after) :
    ∃ row name pjs, db.pjs.get? pj = some row ∧ row.ownerGmKeyId = auth.id ∧
      db.pjs.update? (fun row => row.id = pj) (fun row => { row with name := name }) = some pjs ∧
        after = { db with pjs := pjs } := by
  obtain ⟨result, updated', answer⟩ := except_bind_ok updated
  have done := except_mapError_ok updated'
  unfold Logic.updatePj at done
  split at done
  · cases done
    cases answer
  · rename_i row owned
    obtain ⟨_, -, assigned⟩ := except_bind_ok done
    obtain ⟨_, -, flushed⟩ := except_bind_ok assigned
    dsimp only at flushed
    split at flushed
    · rename_i renamed
      cases flushed
      cases answer
      unfold PjRepository.flushUpdate at renamed
      obtain ⟨pjs, fits, rfl⟩ := Option.map_eq_some_iff.mp renamed
      obtain ⟨stored, wanted⟩ := Option.filter_eq_some_iff.mp owned
      exact ⟨row, _, pjs, stored, by simpa using wanted, fits, rfl⟩
    · cases flushed

end Kaeyris.Proof
