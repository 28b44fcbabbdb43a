import Kaeyris.Proof.Reupload
import Kaeyris.Proof.Views

/-!
# What an accepted request changes

Each handler is inverted once. The result is `Request.handle_ok`: one session changes as
`Request.changes` allows, and the queue receives at most one new job.
-/

namespace Kaeyris.Proof
open Lib Jobs Logic Router

/-! ## Errors as values -/

theorem except_bind_ok {ε α β : Type} {x : Except ε α} {f : α → Except ε β} {b : β}
    (returned : (x >>= f) = .ok b) : ∃ a, x = .ok a ∧ f a = .ok b := by
  cases x with
  | error e => cases returned
  | ok a => exact ⟨a, rfl, returned⟩

theorem except_toOption_some {ε α : Type} {x : Except ε α} {a : α}
    (done : x.toOption = some a) : x = .ok a := by
  cases x with
  | error e => cases done
  | ok b =>
      cases done
      rfl

theorem except_map_ok {ε α β : Type} {x : Except ε α} {f : α → β} {b : β}
    (returned : x.map f = .ok b) : ∃ a, x = .ok a ∧ f a = b := by
  cases x with
  | error e => cases returned
  | ok a => exact ⟨a, rfl, Except.ok.inj returned⟩

theorem except_mapError_ok {ε ε' α : Type} {x : Except ε α} {f : ε → ε'} {a : α}
    (returned : x.mapError f = .ok a) : x = .ok a := by
  cases x with
  | error e => cases returned
  | ok a' =>
      cases returned
      rfl

theorem require_ok {condition : Bool} {error : AppError} {u : Unit}
    (passed : require condition error = .ok u) : condition = true := by
  unfold require at passed
  split at passed
  · assumption
  · cases passed

/-! ## The checks of the handlers -/

theorem resolveSessionForGm_getForGm {db : Database} {session : Uuid} {auth : AuthenticatedKey}
    {gmRole : Bool} {row : Session} (resolved : resolveSessionForGm db session auth gmRole = some row) :
    SessionRepository.getForGm db session auth.id none = some row := by
  unfold resolveSessionForGm at resolved
  split at resolved
  · cases resolved
  · split at resolved
    · split at resolved
      · cases resolved
      · split at resolved
        · cases resolved
        · cases resolved
          assumption
    · cases resolved
      assumption

theorem requireSession_getForGm {db : Database} {session : Uuid} {auth : AuthenticatedKey}
    {row : Session} (found : requireSession db session auth = .ok row) :
    SessionRepository.getForGm db session auth.id none = some row := by
  unfold requireSession at found
  split at found
  · cases found
    exact resolveSessionForGm_getForGm (by assumption)
  · cases found

theorem requireSession_ok {db : Database} {session : Uuid} {auth : AuthenticatedKey}
    {row : Session} (found : requireSession db session auth = .ok row) :
    db.sessions.get? session = some row :=
  (Option.filter_eq_some_iff.mp (requireSession_getForGm found)).1

theorem requireSession_owned {db : Database} {session : Uuid} {auth : AuthenticatedKey}
    {row : Session} (found : requireSession db session auth = .ok row) : row.gmKeyId = auth.id := by
  simpa using (Option.filter_eq_some_iff.mp (requireSession_getForGm found)).2

theorem view_row {db : Database} {session : Uuid} {row : Session}
    (stored : db.sessions.get? session = some row) :
    (view db session).state = some row.state ∧
      (view db session).mode = some row.transcriptionMode ∧
      (view db session).current = row.currentJobId := by
  unfold view
  rw [stored]
  exact ⟨rfl, rfl, rfl⟩

theorem guardRegenerationNotEdited_ok {db : Database} {session : Uuid} {guarded : Guarded} {u : Unit}
    (passed : guardRegenerationNotEdited db session false guarded = .ok u) {target : ArtifactKind}
    {row : Artifact} (present : (view db session).artifact target = some row)
    (covered : guarded.covers target = true) : row.isEdited = false := by
  have member : row ∈ db.artifacts.rows := Table.mem_of_get? present
  have key := Table.key_of_get? present
  have owner : row.sessionId = session := congrArg Prod.fst key
  have named : row.kind = target := congrArg Prod.snd key
  unfold guardRegenerationNotEdited at passed
  simp only [Bool.false_eq_true, if_false] at passed
  split at passed
  case isTrue none =>
    rw [List.map_eq_nil_iff, List.filter_eq_nil_iff] at none
    have listed : row ∈ ArtifactRepository.listForSession db session :=
      List.mem_filter.mpr ⟨member, by simpa using owner⟩
    simpa [named, covered] using none row listed
  case isFalse => cases passed

theorem guardArtifactEditNotBusy_ok {db : Database} {rq : Rq} {session : Uuid} {row : Session}
    {u : Unit} (stored : db.sessions.get? session = some row)
    (passed : guardArtifactEditNotBusy rq row = .ok u) : ¬Busy rq session (view db session) := by
  rintro ⟨job, current, owner, artifact, running⟩
  have id : row.id = session := Table.key_of_get? stored
  rw [(view_row stored).2.2] at current
  unfold guardArtifactEditNotBusy at passed
  rw [current] at passed
  simp [owner, id, artifact, running] at passed

theorem enqueueSessionJob_view (db : Database) (rq : Rq) (session : Uuid) (kind : JobKind)
    (other : Uuid) :
    view (enqueueSessionJob db rq session kind).2.1 other =
      if other = session then
        { view db other with
          current := (view db other).state.bind fun _ =>
            some (enqueueSessionJob db rq session kind).1 }
      else view db other := by
  unfold enqueueSessionJob
  exact view_setCurrentJobId _ session other _

theorem enqueueSessionJob_enqueues (db : Database) (rq : Rq) (session : Uuid) (kind : JobKind) :
    Enqueues db rq session (some kind) (some (enqueueSessionJob db rq session kind).1)
      (enqueueSessionJob db rq session kind).2.2 := by
  have new := enqueueSessionJob_fresh db rq session kind
  refine ⟨_, rfl, ?_, ?_, rfl⟩
  · rw [Table.get?_eq_none]
    intro row member same
    apply new
    rw [← same]
    exact List.mem_append_left _ (List.mem_map_of_mem member)
  · intro other current
    obtain ⟨row, found, id⟩ := Option.bind_eq_some_iff.mp current
    apply new
    apply List.mem_append_right
    apply List.mem_append_right
    exact List.mem_filterMap.mpr ⟨row, Table.mem_of_get? found, id⟩

theorem Enqueues.congr {db db' : Database} {rq rq' : Rq} {session : Uuid} {kind : Option JobKind}
    {job : Option JobId} (same : ∀ other, (view db' other).current = (view db other).current)
    (enqueues : Enqueues db' rq session kind job rq') : Enqueues db rq session kind job rq' := by
  cases kind with
  | none => exact enqueues
  | some kind =>
      obtain ⟨id, assigned, free, unknown, put⟩ := enqueues
      refine ⟨id, assigned, free, fun other => ?_, put⟩
      rw [← same]
      exact unknown other

/-! ## Generation requests -/

theorem postArtifact_ok {kind : JobKind} {checks : Database → Session → Except AppError Unit}
    {guarded : Guarded} {db : Database} {rq : Rq} {auth : AuthenticatedKey} {session : Uuid}
    {force : Bool} {result : JobId × Database × Rq}
    (accepted : postArtifact kind checks guarded db rq auth session force = .ok result) :
    ∃ row, db.sessions.get? session = some row ∧ checks db row = .ok () ∧
      guardRegenerationNotEdited db session force guarded = .ok () ∧
      result = enqueueSessionJob db rq session kind := by
  obtain ⟨row, found, accepted⟩ := except_bind_ok accepted
  obtain ⟨_, checked, accepted⟩ := except_bind_ok accepted
  obtain ⟨_, unguarded, accepted⟩ := except_bind_ok accepted
  exact ⟨row, requireSession_ok found, checked, unguarded, (Except.ok.inj accepted).symm⟩

theorem postArtifact_changes {kind : JobKind}
    {checks : Database → Session → Except AppError Unit} {guarded : Guarded} {db : Database}
    {rq : Rq} {auth : AuthenticatedKey} {session : Uuid} {force : Bool}
    {result : JobId × Database × Rq}
    (accepted : postArtifact kind checks guarded db rq auth session force = .ok result)
    (transcribed : ∀ row, checks db row = .ok () → row.state = .transcribed)
    (covers : ∀ target, kind.replaces (fun _ => True) target → guarded.covers target = true) :
    OnSession session (Generates kind force (some result.1)) db result.2.1 ∧
      Enqueues db rq session (some kind) (some result.1) result.2.2 := by
  obtain ⟨row, stored, checked, unguarded, rfl⟩ := postArtifact_ok accepted
  have state := (view_row stored).1
  rw [transcribed row checked] at state
  refine ⟨⟨fun other apart => ?_, state, ?_, _, rfl, ?_⟩, enqueueSessionJob_enqueues _ _ _ _⟩
  · rw [enqueueSessionJob_view, if_neg apart]
  · rintro rfl target artifact present replaced
    exact guardRegenerationNotEdited_ok unguarded present (covers target replaced)
  · rw [enqueueSessionJob_view, if_pos rfl, state]
    rfl

theorem requireTranscribed_ok {row : Session} {purpose : String} {u : Unit}
    (passed : requireTranscribed row purpose = .ok u) : row.state = .transcribed := by
  simpa using require_ok passed

theorem transcribed_of_checks {row : Session} {purpose : String} {β : Type}
    {others : Unit → Except AppError β} {b : β}
    (checked : (requireTranscribed row purpose >>= others) = .ok b) : row.state = .transcribed := by
  obtain ⟨_, first, -⟩ := except_bind_ok checked
  exact requireTranscribed_ok first

theorem editArtifact_changes {kind : ArtifactKind} {content : ArtifactContent}
    {checks : Database → Session → Except AppError Unit} {validate : Except AppError Unit}
    {absent : AppError} {db after : Database} {rq : Rq} {auth : AuthenticatedKey} {session : Uuid}
    (accepted : editArtifact kind content checks validate absent db rq auth session = .ok after) :
    OnSession session (Edits rq session kind) db after := by
  obtain ⟨row, found, accepted⟩ := except_bind_ok accepted
  obtain ⟨_, _, accepted⟩ := except_bind_ok accepted
  obtain ⟨_, idle, accepted⟩ := except_bind_ok accepted
  obtain ⟨_, _, accepted⟩ := except_bind_ok accepted
  have stored := requireSession_ok found
  split at accepted
  case h_1 updated =>
    cases accepted
    obtain ⟨artifact, present, changed⟩ := view_updateContent db session session updated
    refine ⟨fun other apart => ?_, guardArtifactEditNotBusy_ok stored idle, artifact, content,
      auth.id, present, ?_⟩
    · obtain ⟨_, _, kept⟩ := view_updateContent db session other updated
      rw [kept, if_neg apart]
    · rw [changed, if_pos rfl]
  case h_2 => cases accepted

/-! ## Audio -/

theorem postAudio_changes {settings : Settings} {sha256 : Bytes → Text} {upload : UploadFile}
    {duration : Option Int} {stores after : Stores} {auth : AuthenticatedKey} {session : Uuid}
    {job : JobId}
    (accepted : postAudio settings sha256 upload duration stores auth session = .ok (job, after)) :
    OnSession session (fun v v' => v.audio = none ∧ ∃ id, some job = some id ∧ v' = v.uploaded id)
      stores.db after.db ∧
      Enqueues stores.db stores.rq session (some .transcription) (some job) after.rq := by
  obtain ⟨row, found, received⟩ := except_bind_ok accepted
  have stored := requireSession_ok found
  obtain rfl : row.id = session := Table.key_of_get? stored
  obtain ⟨free, content, audios, -, inserted, result⟩ :=
    storeAudioSourceForSession_ok (except_mapError_ok received)
  have write : SessionRepository.storeAudioSource stores.db row.id (.raw row.id) (sha256 content)
      content.length duration = some { stores.db with audioSources := audios } := by
    rw [SessionRepository.storeAudioSource, inserted]
    rfl
  have steps (other : Uuid) := (view_updateState { stores.db with audioSources := audios } row.id
    other .audioUploaded).trans (by rw [view_storeAudioSource stores.db row.id other write])
  have db := congrArg (fun r => r.2.1) result
  have rq := congrArg (fun r => r.2.2) result
  have id := congrArg Prod.fst result
  dsimp only at db rq id
  have state := (view_row stored).1
  have absent : (view stores.db row.id).audio = none := congrArg (Option.map _) free
  refine ⟨⟨fun other apart => ?_, absent, job, rfl, ?_⟩, ?_⟩
  · rw [db, enqueueSessionJob_view, if_neg apart, steps, if_neg apart]
    simp [apart]
  · rw [db, enqueueSessionJob_view, if_pos rfl, steps, if_pos rfl, if_pos rfl, ← id]
    simp [View.inState, View.uploaded, state]
  · rw [rq, id]
    refine Enqueues.congr (fun other => ?_) (enqueueSessionJob_enqueues _ _ _ _)
    rw [steps]
    by_cases same : other = row.id
    · simp [same, View.inState]
    · simp [same]

theorem view_purgedAudio (db : Database) (session : Uuid) (now : Timestamp) (other : Uuid) :
    view (purgedAudio db session now) other =
      if other = session then
        { view db other with
          audio := (view db other).audio.map fun purgedAt => some (purgedAt.getD now) }
      else view db other := by
  unfold purgedAudio
  cases found : SessionRepository.getAudioSource db session with
  | none =>
      dsimp only
      split
      · rename_i same
        have none : (view db other).audio = none := same ▸ congrArg (Option.map _) found
        rw [none]
        exact View.ext rfl rfl rfl none rfl rfl rfl
      · rfl
  | some audio =>
      have present : (view db session).audio = some audio.purgedAt :=
        congrArg (Option.map _) found
      dsimp only
      cases purged : audio.purgedAt with
      | none =>
          rw [if_pos (by rfl), view_markAudioPurged]
          split
          · rename_i same
            rw [same, present, purged]
            rfl
          · rfl
      | some time =>
          rw [if_neg (by simp)]
          split
          · rename_i same
            rw [purged] at present
            subst same
            rw [present]
            exact View.ext rfl rfl rfl present rfl rfl rfl
          · rfl

theorem view_droppedOutputs (db : Database) (session other : Uuid) :
    view (droppedOutputs db session) other =
      if other = session then
        { view db other with
          state := (view db other).state.map fun _ => .created
          current := none
          artifact := fun _ => none }
      else view db other := by
  unfold droppedOutputs SessionRepository.clearCurrentJobId
  dsimp only
  rw [view_updateState, view_setCurrentJobId, view_clearEditedTranscript, view_deleteArtifacts]
  by_cases same : other = session
  · simp only [if_pos same, Option.bind_fun_none]
    rfl
  · simp only [if_neg same]
    rfl

theorem deleteAudio_changes {now : Timestamp} {unlinked : Bool} {disk disk' : Disk}
    {db after : Database} {auth : AuthenticatedKey} {session : Uuid}
    (accepted : deleteAudio now unlinked disk db auth session = .ok (disk', after)) :
    OnSession session (fun v v' => v.state ≠ some .transcribing ∧ v' = v.purged now) db after := by
  obtain ⟨row, found, purged⟩ := except_bind_ok accepted
  have stored := requireSession_ok found
  obtain rfl : row.id = session := Table.key_of_get? stored
  obtain ⟨allowed, rfl⟩ := purgeAudioForSession_ok (except_mapError_ok purged)
  have state := (view_row stored).1
  refine ⟨fun other apart => ?_, ?_, ?_⟩
  · rw [view_droppedOutputs, if_neg apart, view_purgedAudio, if_neg apart]
  · rw [state]
    exact fun same => allowed (Option.some.inj same)
  · rw [view_droppedOutputs, if_pos rfl, view_purgedAudio, if_pos rfl]
    simp [View.purged, state]

theorem recoverStuckTranscription_changes {db after : Database} {rq : Rq}
    {auth : AuthenticatedKey} {session : Uuid}
    (accepted : Router.recoverStuckTranscription db rq auth session = .ok after) :
    OnSession session (fun v v' => v.state = some .transcribing ∧
      v.current.any (isRqJobActive rq) = false ∧ v' = v.recovered) db after := by
  obtain ⟨row, found, recovered⟩ := except_bind_ok accepted
  have stored := requireSession_ok found
  obtain rfl : row.id = session := Table.key_of_get? stored
  obtain ⟨state, -, current⟩ := view_row stored
  have done := except_mapError_ok recovered
  unfold Logic.recoverStuckTranscription at done
  split at done
  case isTrue => cases done
  case isFalse stuck =>
    split at done
    case isTrue => cases done
    case isFalse idle =>
      have same (other : Uuid) : view after other =
          view (SessionRepository.updateState db row.id .transcriptionFailed) other := by
        dsimp only at done
        split at done
        · cases done
          rfl
        · cases done
          rfl
      rw [not_not] at stuck
      refine ⟨fun other apart => ?_, ?_, ?_, ?_⟩
      · rw [same, view_updateState, if_neg apart]
      · rw [state, stuck]
      · rw [current]
        simpa using idle
      · rw [same, view_updateState, if_pos rfl]
        simp [View.inState, View.recovered, state]

theorem view_deleteTranscriptionOutputsForRestart (db : Database) (session other : Uuid) :
    view (deleteTranscriptionOutputsForRestart db session) other =
      if other = session then
        { view db other with
          speakers := []
          artifact := fun _ => none }
      else view db other := by
  have base (other : Uuid) : view (ChunkRepository.deleteForSession
      (TranscriptionRepository.deleteForSession db session) session) other = view db other := rfl
  unfold deleteTranscriptionOutputsForRestart
  dsimp only
  rw [view_clearEditedTranscript, view_deleteArtifacts, view_deleteMappings, base]
  by_cases same : other = session
  · simp only [if_pos same]
  · simp only [if_neg same]

theorem restartTranscription_changes {db : Database} {rq : Rq} {auth : AuthenticatedKey}
    {session : Uuid} {result : JobId × Database × Rq}
    (accepted : Router.restartTranscription db rq auth session = .ok result) :
    OnSession session (fun v v' => v.state.any restartable = true ∧ v.audio = some none ∧
        ∃ id, some result.1 = some id ∧ v' = v.restarted id) db result.2.1 ∧
      Enqueues db rq session (some .transcription) (some result.1) result.2.2 := by
  obtain ⟨row, found, restarted⟩ := except_bind_ok accepted
  have stored := requireSession_ok found
  obtain rfl : row.id = session := Table.key_of_get? stored
  obtain ⟨allowed, usable, rfl⟩ :=
    restartTranscriptionForSession_ok (except_mapError_ok restarted)
  have state := (view_row stored).1
  have audio : (view db row.id).audio = some none := by
    unfold usableAudio at usable
    unfold view
    cases present : SessionRepository.getAudioSource db row.id with
    | none => simp [present] at usable
    | some audio =>
        have unpurged : audio.purgedAt = none := by simpa [present] using usable
        unfold SessionRepository.getAudioSource at present
        rw [present, Option.map_some, unpurged]
  refine ⟨⟨fun other apart => ?_, ?_, audio, _, rfl, ?_⟩, ?_⟩
  · rw [enqueueSessionJob_view, if_neg apart, view_updateState, if_neg apart,
      view_deleteTranscriptionOutputsForRestart, if_neg apart]
  · rw [state]
    exact allowed
  · rw [enqueueSessionJob_view, if_pos rfl, view_updateState, if_pos rfl,
      view_deleteTranscriptionOutputsForRestart, if_pos rfl]
    simp [View.inState, View.restarted, state]
  · refine Enqueues.congr (fun other => ?_) (enqueueSessionJob_enqueues _ _ _ _)
    rw [view_updateState, view_deleteTranscriptionOutputsForRestart]
    by_cases same : other = row.id
    · simp [same, View.inState]
    · simp [same]

/-! ## Participants -/

theorem mem_uniqueIds {seen ids : List Uuid} {pj : Uuid} :
    pj ∈ SessionPlayerRepository.uniqueIds seen ids ↔ pj ∈ ids ∧ pj ∉ seen := by
  induction ids generalizing seen with
  | nil => simp [SessionPlayerRepository.uniqueIds]
  | cons head rest ih =>
      unfold SessionPlayerRepository.uniqueIds
      split
      · rename_i known
        rw [ih, List.mem_cons]
        constructor
        · exact fun both => ⟨.inr both.1, both.2⟩
        · rintro ⟨rfl | later, fresh⟩
          · exact (fresh known).elim
          · exact ⟨later, fresh⟩
      · rename_i unknown
        rw [List.mem_cons, ih, List.mem_cons, List.mem_cons]
        by_cases same : pj = head
        · simp [same, unknown]
        · simp [same]

theorem view_replaceMapping {db after : Database} {session : Uuid}
    {mapping : Table Text (Text × Uuid) Prod.fst}
    (replaced : MappingRepository.replaceForSession db session mapping = some after)
    (other : Uuid) :
    view after other =
      if other = session then
        { view db other with
          speakers := (MappingRepository.getForSession after session).map SessionPjMapping.pjId }
      else view db other := by
  unfold MappingRepository.replaceForSession at replaced
  obtain ⟨rows, inserted, rfl⟩ := Option.map_eq_some_iff.mp replaced
  by_cases same : other = session
  · subst same
    rw [if_pos rfl]
    rfl
  · rw [if_neg same]
    have kept : MappingRepository.getForSession
        { MappingRepository.deleteForSession db session with mappings := rows } other =
          MappingRepository.getForSession db other := by
      unfold MappingRepository.getForSession Table.select
      congr 1
      rw [Table.filter_insertAll? inserted]
      · apply Table.filter_delete
        intro row deleted
        have owner : row.sessionId = session := by simpa using deleted
        simp [owner, Ne.symm same]
      · intro row added
        obtain ⟨item, _, rfl⟩ := List.mem_map.mp added
        simp [Ne.symm same]
    unfold view
    rw [kept]
    rfl

theorem mem_replaceMapping {db after : Database} {session : Uuid}
    {mapping : Table Text (Text × Uuid) Prod.fst}
    (replaced : MappingRepository.replaceForSession db session mapping = some after) (pj : Uuid) :
    pj ∈ (MappingRepository.getForSession after session).map SessionPjMapping.pjId ↔
      pj ∈ mapping.rows.map Prod.snd := by
  unfold MappingRepository.replaceForSession at replaced
  obtain ⟨rows, inserted, rfl⟩ := Option.map_eq_some_iff.mp replaced
  have added := Table.insertAll?_eq_some.mp inserted
  have cleared : ((MappingRepository.deleteForSession db session).mappings.rows.filter fun row =>
      row.sessionId = session) = [] := Table.select_delete_self _ _
  have listed : (rows.rows.filter fun row => row.sessionId = session) =
      mapping.rows.map fun item => ⟨session, item.1, item.2⟩ := by
    rw [added, List.filter_append, cleared, List.nil_append, List.filter_eq_self]
    intro row member
    obtain ⟨item, _, rfl⟩ := List.mem_map.mp member
    simp
  unfold MappingRepository.getForSession Table.select
  dsimp only
  rw [listed]
  simp [List.mem_insertionSort]

theorem putSessionMapping_ok {mapping : Table Text (Text × Uuid) Prod.fst} {db after : Database}
    {auth : AuthenticatedKey} {session : Uuid}
    (accepted : Router.putSessionMapping mapping db auth session = .ok after) :
    ∃ row db', db.sessions.get? session = some row ∧ row.transcriptionMode = .diarised ∧
      missingPjs db (mapping.rows.map Prod.snd) row.gmKeyId row.campaignId = [] ∧
      MappingRepository.replaceForSession db session mapping = some db' ∧
      after = ArtifactRepository.invalidatePovArtifacts db' session := by
  obtain ⟨row, found, checked⟩ := except_bind_ok accepted
  obtain ⟨_, mode, checked'⟩ := except_bind_ok checked
  obtain ⟨_, _, saved⟩ := except_bind_ok checked'
  have stored := requireSession_ok found
  obtain rfl : row.id = session := Table.key_of_get? stored
  have diarised : row.transcriptionMode = .diarised := by
    have other := require_ok mode
    cases same : row.transcriptionMode with
    | diarised => rfl
    | nonDiarised => simp [same] at other
  have done := except_mapError_ok saved
  rw [← requireSession_owned found] at done
  unfold setSessionMapping at done
  split at done
  · rename_i owned
    split at done
    case h_1 db' replaced =>
      cases done
      exact ⟨row, db', stored, diarised, owned, replaced, rfl⟩
    case h_2 => cases done
  · cases done

theorem putSessionMapping_changes {mapping : Table Text (Text × Uuid) Prod.fst}
    {db after : Database} {auth : AuthenticatedKey} {session : Uuid}
    (accepted : Router.putSessionMapping mapping db auth session = .ok after) :
    OnSession session (fun v v' => v.mode = some .diarised ∧
      ∃ pjs, (∀ pj, pj ∈ pjs ↔ pj ∈ mapping.rows.map Prod.snd) ∧ v' = v.mapped pjs) db after := by
  obtain ⟨row, db', stored, diarised, -, replaced, rfl⟩ := putSessionMapping_ok accepted
  refine ⟨fun other apart => ?_, ?_, _, mem_replaceMapping replaced, ?_⟩
  · rw [view_invalidatePovArtifacts, if_neg apart, view_replaceMapping replaced, if_neg apart]
  · rw [(view_row stored).2.1, diarised]
  · rw [view_invalidatePovArtifacts, if_pos rfl, view_replaceMapping replaced, if_pos rfl]
    rfl

theorem postSessionPlayers_ok {payload : SessionPlayersIn} {db after : Database}
    {auth : AuthenticatedKey} {session : Uuid}
    (accepted : Router.postSessionPlayers payload db auth session = .ok after) :
    ∃ row, db.sessions.get? session = some row ∧ row.transcriptionMode = .nonDiarised ∧
      missingPjs db payload.pjIds row.gmKeyId row.campaignId = [] ∧
      SessionPlayerRepository.replaceForSession db session payload.pjIds = some after := by
  obtain ⟨row, found, checked⟩ := except_bind_ok accepted
  obtain ⟨_, mode, saved⟩ := except_bind_ok checked
  have stored := requireSession_ok found
  obtain rfl : row.id = session := Table.key_of_get? stored
  have nonDiarised : row.transcriptionMode = .nonDiarised := by simpa using require_ok mode
  have done := except_mapError_ok saved
  rw [← requireSession_owned found] at done
  unfold setSessionPlayers at done
  split at done
  · rename_i owned
    split at done
    case h_1 db' replaced =>
      cases done
      exact ⟨row, stored, nonDiarised, owned, replaced⟩
    case h_2 => cases done
  · cases done

theorem postSessionPlayers_changes {payload : SessionPlayersIn} {db after : Database}
    {auth : AuthenticatedKey} {session : Uuid}
    (accepted : Router.postSessionPlayers payload db auth session = .ok after) :
    OnSession session (fun v v' => v.mode = some .nonDiarised ∧
      v' = v.played (SessionPlayerRepository.uniqueIds [] payload.pjIds)) db after := by
  obtain ⟨row, stored, nonDiarised, -, replaced⟩ := postSessionPlayers_ok accepted
  unfold SessionPlayerRepository.replaceForSession at replaced
  obtain ⟨rows, inserted, rfl⟩ := Option.map_eq_some_iff.mp replaced
  have players (other : Uuid) : rows.rows.filter (fun row => row.sessionId = other) =
      if other = session then (SessionPlayerRepository.uniqueIds [] payload.pjIds).map
        fun pj => ⟨session, pj⟩
      else db.players.rows.filter fun row => row.sessionId = other := by
    by_cases same : other = session
    · rw [same]
      have cleared : ((db.players.delete fun player => player.sessionId = session).rows.filter
          fun player => player.sessionId = session) = [] := Table.select_delete_self _ _
      rw [if_pos rfl, Table.insertAll?_eq_some.mp inserted, List.filter_append, cleared,
        List.nil_append, List.filter_eq_self]
      intro player member
      obtain ⟨pj, _, rfl⟩ := List.mem_map.mp member
      simp
    · rw [if_neg same, Table.filter_insertAll? inserted]
      · apply Table.filter_delete
        intro player deleted
        have owner : player.sessionId = session := by simpa using deleted
        simp [owner, Ne.symm same]
      · intro player added
        obtain ⟨pj, _, rfl⟩ := List.mem_map.mp added
        simp [Ne.symm same]
  refine ⟨fun other apart => ?_, ?_, ?_⟩
  · have kept := players other
    rw [if_neg apart] at kept
    unfold view SessionPlayerRepository.listForSession Table.select
    dsimp only
    rw [kept]
    rfl
  · rw [(view_row stored).2.1, nonDiarised]
  · have new := players session
    rw [if_pos rfl] at new
    unfold view SessionPlayerRepository.listForSession Table.select View.played
    dsimp only
    rw [new, List.map_map]
    congr 1
    exact List.map_id _

theorem putTranscriptionEdit_ok {payload : TranscriptionEditIn} {db after : Database}
    {auth : AuthenticatedKey} {session : Uuid}
    (accepted : Router.putTranscriptionEdit payload db auth session = .ok after) :
    ∃ row, db.sessions.get? session = some row ∧
      after = SessionRepository.updateEditedTranscript db session payload.contentMd := by
  obtain ⟨row, found, saved⟩ := except_bind_ok accepted
  have stored := requireSession_ok found
  obtain rfl : row.id = session := Table.key_of_get? stored
  have done := except_mapError_ok saved
  unfold saveSessionTranscriptionEdit at done
  split at done
  · cases done
  · cases done
    exact ⟨row, stored, rfl⟩

theorem putTranscriptionEdit_changes {payload : TranscriptionEditIn} {db after : Database}
    {auth : AuthenticatedKey} {session : Uuid}
    (accepted : Router.putTranscriptionEdit payload db auth session = .ok after) :
    OnSession session (fun v v' => v' = v) db after := by
  obtain ⟨row, -, rfl⟩ := putTranscriptionEdit_ok accepted
  exact ⟨fun other _ => view_updateEditedTranscript _ _ _ _, view_updateEditedTranscript _ _ _ _⟩

theorem handle_ok {env : Environment} {db : Database} {rq : Rq} {auth : AuthenticatedKey}
    {session : Uuid} {request : Request} {accepted : Accepted}
    (handled : request.handle env db rq auth session = .ok accepted) :
    OnSession session (fun v v' => request.changes rq session accepted.job v v') db accepted.db ∧
      Enqueues db rq session request.enqueues accepted.job accepted.rq := by
  cases request with
  | postAudio upload duration =>
      obtain ⟨⟨job, stores⟩, done, rfl⟩ := except_map_ok handled
      exact postAudio_changes done
  | deleteAudio now =>
      obtain ⟨⟨disk, after⟩, done, rfl⟩ := except_map_ok handled
      exact ⟨deleteAudio_changes done, rfl, rfl⟩
  | recoverStuckTranscription =>
      obtain ⟨after, done, rfl⟩ := except_map_ok handled
      exact ⟨recoverStuckTranscription_changes done, rfl, rfl⟩
  | restartTranscription =>
      obtain ⟨result, done, rfl⟩ := except_map_ok handled
      exact restartTranscription_changes done
  | putTranscriptionEdit payload =>
      obtain ⟨after, done, rfl⟩ := except_map_ok handled
      exact ⟨putTranscriptionEdit_changes done, rfl, rfl⟩
  | putSessionMapping mapping =>
      obtain ⟨after, done, rfl⟩ := except_map_ok handled
      exact ⟨putSessionMapping_changes done, rfl, rfl⟩
  | postSessionPlayers payload =>
      obtain ⟨after, done, rfl⟩ := except_map_ok handled
      exact ⟨postSessionPlayers_changes done, rfl, rfl⟩
  | postNarrative force =>
      obtain ⟨result, done, rfl⟩ := except_map_ok handled
      refine postArtifact_changes done ?_ ?_
      · exact fun row checked => transcribed_of_checks checked
      · rintro target rfl
        rfl
  | postElements force =>
      obtain ⟨result, done, rfl⟩ := except_map_ok handled
      refine postArtifact_changes done ?_ ?_
      · exact fun row checked => transcribed_of_checks checked
      · rintro target rfl
        rfl
  | postPovs force =>
      obtain ⟨result, done, rfl⟩ := except_map_ok handled
      refine postArtifact_changes done ?_ ?_
      · exact fun row checked => transcribed_of_checks checked
      · intro target replaced
        cases target with
        | pov pj => rfl
        | _ => cases replaced
  | postSummary force =>
      obtain ⟨result, done, rfl⟩ := except_map_ok handled
      refine postArtifact_changes done ?_ ?_
      · intro row checked
        obtain ⟨_, _, rest⟩ := except_bind_ok checked
        obtain ⟨_, second, _⟩ := except_bind_ok rest
        exact requireTranscribed_ok second
      · intro target _
        cases target <;> rfl
  | patchSummary payload =>
      obtain ⟨after, done, rfl⟩ := except_map_ok handled
      exact ⟨editArtifact_changes done, rfl, rfl⟩
  | patchNarrative payload =>
      obtain ⟨after, done, rfl⟩ := except_map_ok handled
      exact ⟨editArtifact_changes done, rfl, rfl⟩
  | patchPov pj payload =>
      obtain ⟨after, done, rfl⟩ := except_map_ok handled
      exact ⟨editArtifact_changes done, rfl, rfl⟩
  | putElements elements confirmEmpty =>
      obtain ⟨after, done, rfl⟩ := except_map_ok handled
      exact ⟨editArtifact_changes done, rfl, rfl⟩

end Kaeyris.Proof
