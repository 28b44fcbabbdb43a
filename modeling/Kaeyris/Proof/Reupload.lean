import Kaeyris.Proof.Reset

/-!
# Uploading after a purge

The upload refuses a session that has an audio row; the purge only marks that row.
-/

namespace Kaeyris.Proof
open Lib Logic

theorem receive_eq (limit : Nat) (received body : Bytes) (within : received.length ≤ limit) :
    receive limit received body =
      if (received ++ body).length ≤ limit then some (received ++ body) else none := by
  induction received, body using receive.induct limit with
  | case1 received => rw [receive, if_pos rfl, List.append_nil, if_pos within]
  | case2 received body content size tooLarge =>
      rw [receive, if_neg content, if_pos tooLarge, if_neg]
      rw [List.length_append]
      have part : (body.take chunkSize).length ≤ body.length := List.length_take_le' _ _
      have : limit < received.length + (body.take chunkSize).length := tooLarge
      omega
  | case3 received body content size fits ih =>
      rw [receive, if_neg content, if_neg fits]
      have next : (received ++ body.take chunkSize).length ≤ limit := by
        rw [List.length_append]
        exact not_lt.mp fits
      rw [ih next, List.append_assoc, List.take_append_drop]

theorem receive_within {limit : Nat} {body : Bytes} (size : body.length ≤ limit) :
    receive limit [] body = some body := by
  rw [receive_eq _ _ _ (Nat.zero_le _), List.nil_append, if_pos size]

theorem storeAudioSourceForSession_ok {settings : Settings} {sha256 : Bytes → Text}
    {stores after : Stores} {row : Session} {upload : UploadFile} {duration : Option Int}
    {job : JobId}
    (accepted : storeAudioSourceForSession settings sha256 stores row upload duration =
      .ok (job, after)) :
    SessionRepository.getAudioSource stores.db row.id = none ∧
    ∃ content audios, receive settings.audioMaxUploadBytes [] upload.body = some content ∧
      stores.db.audioSources.insert? ⟨row.id, .raw row.id, sha256 content, content.length,
        duration, none⟩ = some audios ∧
      (job, after.db, after.rq) = enqueueSessionJob
        (SessionRepository.updateState { stores.db with audioSources := audios } row.id
          .audioUploaded) stores.rq row.id .transcription := by
  unfold storeAudioSourceForSession at accepted
  dsimp only at accepted
  split at accepted
  case isTrue => cases accepted
  case isFalse =>
    split at accepted
    case isTrue => cases accepted
    case isFalse free =>
      refine ⟨by simpa using free, ?_⟩
      cases received : receive settings.audioMaxUploadBytes [] upload.body with
      | none =>
          rw [received] at accepted
          cases accepted
      | some content =>
          rw [received] at accepted
          dsimp only at accepted
          unfold SessionRepository.storeAudioSource at accepted
          cases inserted : stores.db.audioSources.insert? ⟨row.id, .raw row.id, sha256 content,
              content.length, duration, none⟩ with
          | none =>
              rw [inserted] at accepted
              cases accepted
          | some audios =>
              rw [inserted] at accepted
              cases accepted
              exact ⟨content, audios, rfl, inserted, rfl⟩

theorem storeAudioSourceForSession_accepts (settings : Settings) (sha256 : Bytes → Text)
    (stores : Stores) (row : Session) (upload : UploadFile) (duration : Option Int)
    (free : SessionRepository.getAudioSource stores.db row.id = none)
    (mime : upload.contentType.any (· ∈ acceptedAudioMimes) = true)
    (size : upload.body.length ≤ settings.audioMaxUploadBytes) :
    ∃ job after, storeAudioSourceForSession settings sha256 stores row upload duration =
      .ok (job, after) := by
  have received := receive_within size
  have absent : (SessionRepository.getAudioSource stores.db row.id).isSome ≠ true := by
    simp [free]
  obtain ⟨audios, inserted, -⟩ : ∃ audios, stores.db.audioSources.insert? ⟨row.id, .raw row.id,
      sha256 upload.body, upload.body.length, duration, none⟩ = some audios ∧ _ :=
    Table.insert?_of_free free
  unfold storeAudioSourceForSession
  dsimp only
  rw [mime, Bool.not_true, if_neg Bool.false_ne_true, if_neg absent, received]
  simp only [SessionRepository.storeAudioSource, inserted, Option.map_some]
  exact ⟨_, _, rfl⟩

def Uploaded (settings : Settings) (sha256 : Bytes → Text) (stores : Stores) (session : Uuid)
    (upload : UploadFile) (duration : Option Int) : Prop :=
  ∃ row job after, stores.db.sessions.get? session = some row ∧
    storeAudioSourceForSession settings sha256 stores row upload duration = .ok (job, after) ∧
    (∃ row', after.db.sessions.get? session = some row' ∧ row'.state = .audioUploaded) ∧
    ∃ audio, SessionRepository.getAudioSource after.db session = some audio ∧
      audio.purgedAt = none ∧ audio.sizeBytes = upload.body.length ∧
      audio.sha256 = sha256 upload.body

theorem not_uploaded {settings : Settings} {sha256 : Bytes → Text} {stores : Stores}
    {session : Uuid} {upload : UploadFile} {duration : Option Int}
    (taken : SessionRepository.getAudioSource stores.db session ≠ none) :
    ¬Uploaded settings sha256 stores session upload duration := by
  rintro ⟨row, job, after, stored, accepted, -⟩
  have same : row.id = session := Table.key_of_get? stored
  have free := (storeAudioSourceForSession_ok accepted).1
  exact taken (same ▸ free)

theorem uploaded_of_free {settings : Settings} {sha256 : Bytes → Text} {stores : Stores}
    {session : Uuid} {row : Session} {upload : UploadFile} (duration : Option Int)
    (stored : stores.db.sessions.get? session = some row)
    (free : SessionRepository.getAudioSource stores.db session = none)
    (mime : upload.contentType.any (· ∈ acceptedAudioMimes) = true)
    (size : upload.body.length ≤ settings.audioMaxUploadBytes) :
    Uploaded settings sha256 stores session upload duration := by
  obtain rfl : row.id = session := Table.key_of_get? stored
  obtain ⟨job, after, accepted⟩ :=
    storeAudioSourceForSession_accepts settings sha256 stores row upload duration free mime size
  obtain ⟨-, content, audios, received, inserted, result⟩ := storeAudioSourceForSession_ok accepted
  have whole : content = upload.body := by
    rw [receive_within size] at received
    exact (Option.some.inj received).symm
  subst whole
  have db : after.db = (enqueueSessionJob (SessionRepository.updateState
      { stores.db with audioSources := audios } row.id .audioUploaded) stores.rq row.id
        .transcription).2.1 := congrArg (fun r => r.2.1) result
  refine ⟨row, job, after, stored, accepted, ?_, ?_⟩
  · refine ⟨{ row with state := .audioUploaded, currentJobId := some job }, ?_, rfl⟩
    have id : job = (enqueueSessionJob (SessionRepository.updateState
        { stores.db with audioSources := audios } row.id .audioUploaded) stores.rq row.id
          .transcription).1 := congrArg Prod.fst result
    rw [db, id]
    simp [enqueueSessionJob, SessionRepository.setCurrentJobId, SessionRepository.updateState,
      JobRepository.upsertStatus, Table.get?_update, stored]
  · refine ⟨⟨row.id, .raw row.id, sha256 upload.body, upload.body.length, duration, none⟩, ?_,
      rfl, rfl, rfl⟩
    have found := Table.get?_insert? inserted row.id
    rw [if_pos rfl] at found
    rw [db]
    exact found

theorem purgedAudio_isNone (db : Database) (session : Uuid) (now : Timestamp) :
    SessionRepository.getAudioSource (purgedAudio db session now) session = none ↔
      SessionRepository.getAudioSource db session = none := by
  unfold purgedAudio
  split
  · split
    · simp [SessionRepository.markAudioPurged, SessionRepository.getAudioSource,
        Table.get?_update]
    · exact Iff.rfl
  · exact Iff.rfl

theorem droppedOutputs_session {db : Database} {session : Uuid} {row : Session}
    (stored : db.sessions.get? session = some row) :
    (droppedOutputs db session).sessions.get? session =
      some { row with state := .created, currentJobId := none, editedTranscriptMd := none } := by
  have same : row.id = session := Table.key_of_get? stored
  have kept : (ArtifactRepository.deleteForSession (ChunkRepository.deleteForSession
      (TranscriptionRepository.deleteForSession db session) session)
        session).sessions.get? session = some row := stored
  simp [droppedOutputs, SessionRepository.updateState, SessionRepository.clearCurrentJobId,
    SessionRepository.setCurrentJobId, SessionRepository.clearEditedTranscript,
    Table.get?_update, kept, same]

/-- After a successful purge an acceptable file can be uploaded exactly when there had been no
audio row before it. -/
theorem upload_after_purge_iff {settings : Settings} {sha256 : Bytes → Text}
    {disk disk' : Disk} {db db' : Database} {rq : Rq} {row : Session} {now : Timestamp}
    {unlinked : Bool} {upload : UploadFile} {duration : Option Int}
    (stored : db.sessions.get? row.id = some row)
    (purged : purgeAudioForSession disk db row now unlinked = .ok (disk', db'))
    (mime : upload.contentType.any (· ∈ acceptedAudioMimes) = true)
    (size : upload.body.length ≤ settings.audioMaxUploadBytes) :
    Uploaded settings sha256 ⟨disk', db', rq⟩ row.id upload duration ↔
      SessionRepository.getAudioSource db row.id = none := by
  obtain ⟨-, rfl⟩ := purgeAudioForSession_ok purged
  have audio : SessionRepository.getAudioSource (droppedOutputs (purgedAudio db row.id now) row.id)
      row.id = none ↔ SessionRepository.getAudioSource db row.id = none := by
    unfold SessionRepository.getAudioSource
    rw [(droppedOutputs_keeps _ _).2]
    exact purgedAudio_isNone db row.id now
  constructor
  · intro uploaded
    by_contra taken
    exact not_uploaded (mt audio.mp taken) uploaded
  · intro free
    rw [← purgedAudio_sessions db row.id now] at stored
    exact uploaded_of_free duration (droppedOutputs_session stored) (audio.mpr free) mime size

def createdSession : Session where
  id := 1
  gmKeyId := 7
  campaignId := none
  state := .created
  transcriptionMode := .diarised
  campaignContext := none
  editedTranscriptMd := none
  currentJobId := none

def createdDatabase : Database := { Database.empty with sessions := ⟨[createdSession], by decide⟩ }

def smallUpload : UploadFile := ⟨some "audio/mp4", [0]⟩

theorem upload_after_purge_created : ∃ disk' db',
    purgeAudioForSession (fun _ => none) createdDatabase createdSession 0 true =
      .ok (disk', db') ∧
    (Uploaded Settings.default (fun _ => []) ⟨disk', db', .empty⟩ createdSession.id smallUpload
      none ↔ SessionRepository.getAudioSource createdDatabase createdSession.id = none) := by
  obtain ⟨disk', purged⟩ := purgeAudioForSession_accepts (fun _ => none) createdDatabase
    createdSession 0 true (by decide)
  exact ⟨disk', _, purged,
    upload_after_purge_iff (by decide) purged (by decide) (by decide)⟩

/-- The first upload of a session goes through; the session can be purged, and takes no second. -/
theorem upload_purge_upload_refused : ∃ job after row disk' db',
    storeAudioSourceForSession Settings.default (fun _ => [])
      ⟨fun _ => none, createdDatabase, .empty⟩ createdSession smallUpload none =
        .ok (job, after) ∧
    after.db.sessions.get? 1 = some row ∧ row.state ≠ .transcribing ∧
    purgeAudioForSession after.disk after.db row 0 true = .ok (disk', db') ∧
    ¬Uploaded Settings.default (fun _ => []) ⟨disk', db', after.rq⟩ 1 smallUpload none := by
  have uploaded : Uploaded Settings.default (fun _ => [])
      ⟨fun _ => none, createdDatabase, .empty⟩ 1 smallUpload none :=
    uploaded_of_free none (rfl : _ = some createdSession) rfl (by decide) (by decide)
  obtain ⟨created, job, after, stored, accepted, ⟨row, found, state⟩, audio, present, -⟩ := uploaded
  obtain rfl : createdSession = created := Option.some.inj stored
  have id : row.id = 1 := Table.key_of_get? found
  obtain ⟨disk', purged⟩ := purgeAudioForSession_accepts after.disk after.db row 0 true
    (by rw [state]; decide)
  refine ⟨job, after, row, disk', _, accepted, found, by rw [state]; decide, purged, ?_⟩
  rw [id]
  apply not_uploaded
  unfold SessionRepository.getAudioSource
  rw [(droppedOutputs_keeps _ _).2]
  exact (purgedAudio_isNone after.db 1 0).not.mpr (by simp [present])

end Kaeyris.Proof
