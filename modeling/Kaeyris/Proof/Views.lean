import Kaeyris.View

/-!
# What the repositories do to a view
-/

namespace Kaeyris.Proof
open Lib Jobs

section Repositories
variable (db : Database) (session other : Uuid)

theorem view_updateState (state : SessionState) :
    view (SessionRepository.updateState db session state) other =
      if other = session then (view db other).inState state else view db other := by
  have row := Table.get?_update_key db.sessions session (fun row => { row with state := state })
    (fun _ => rfl) other
  unfold view
  simp only [SessionRepository.updateState, row]
  split
  · cases db.sessions.get? other <;> rfl
  · rfl

theorem view_setCurrentJobId (job : Option JobId) :
    view (SessionRepository.setCurrentJobId db session job) other =
      if other = session then { view db other with current := (view db other).state.bind fun _ => job }
      else view db other := by
  have row := Table.get?_update_key db.sessions session (fun row => { row with currentJobId := job })
    (fun _ => rfl) other
  unfold view
  simp only [SessionRepository.setCurrentJobId, row]
  split
  · cases db.sessions.get? other <;> rfl
  · rfl

theorem view_updateEditedTranscript (content : Text) :
    view (SessionRepository.updateEditedTranscript db session content) other = view db other := by
  have row := Table.get?_update_key db.sessions session (fun row => { row with editedTranscriptMd := content })
    (fun _ => rfl) other
  unfold view
  simp only [SessionRepository.updateEditedTranscript, row]
  split
  · cases db.sessions.get? other <;> rfl
  · rfl

theorem view_clearEditedTranscript :
    view (SessionRepository.clearEditedTranscript db session) other = view db other := by
  have row := Table.get?_update_key db.sessions session (fun row => { row with editedTranscriptMd := none })
    (fun _ => rfl) other
  unfold view
  simp only [SessionRepository.clearEditedTranscript, row]
  split
  · cases db.sessions.get? other <;> rfl
  · rfl

theorem view_markAudioPurged (now : Timestamp) :
    view (SessionRepository.markAudioPurged db session now) other =
      if other = session then
        { view db other with audio := (view db other).audio.map fun _ => some now }
      else view db other := by
  have row := Table.get?_update_key db.audioSources session
    (fun row => { row with purgedAt := some now }) (fun _ => rfl) other
  unfold view
  simp only [SessionRepository.markAudioPurged, row]
  split
  · cases db.audioSources.get? other <;> rfl
  · rfl

theorem view_updateAudioSourceFile {after : Database} {path : AudioPath} {sha256 : Text}
    {sizeBytes : Nat} {durationSeconds : Option Int}
    (updated : SessionRepository.updateAudioSourceFile db session path sha256 sizeBytes
      durationSeconds = some after) : view after other = view db other := by
  unfold SessionRepository.updateAudioSourceFile at updated
  obtain ⟨audio, -, rfl⟩ := Option.map_eq_some_iff.mp updated
  have row := Table.get?_update_key db.audioSources session (fun row =>
    { row with
      path := path
      sha256 := sha256
      sizeBytes := sizeBytes
      durationSeconds := durationSeconds }) (fun _ => rfl) other
  unfold view
  simp only [row]
  split
  · cases db.audioSources.get? other <;> rfl
  · rfl

theorem view_storeAudioSource {after : Database} {path : AudioPath} {sha256 : Text}
    {sizeBytes : Nat} {durationSeconds : Option Int}
    (stored : SessionRepository.storeAudioSource db session path sha256 sizeBytes durationSeconds =
      some after) :
    view after other =
      if other = session then { view db other with audio := some none } else view db other := by
  unfold SessionRepository.storeAudioSource at stored
  obtain ⟨audios, inserted, rfl⟩ := Option.map_eq_some_iff.mp stored
  have row := Table.get?_insert? inserted other
  by_cases same : other = session
  · rw [if_pos same.symm] at row
    rw [if_pos same]
    unfold view
    simp only [row]
    rfl
  · rw [if_neg (Ne.symm same)] at row
    rw [if_neg same]
    unfold view
    simp only [row]
    rfl

theorem view_deleteMappings :
    view (MappingRepository.deleteForSession db session) other =
      if other = session then { view db other with speakers := [] } else view db other := by
  unfold view
  by_cases same : other = session
  · subst same
    have none : MappingRepository.getForSession (MappingRepository.deleteForSession db other)
        other = [] := Table.insertionSort_eq_nil.mpr (Table.select_delete_self _ _)
    rw [none, if_pos rfl]
    rfl
  · have kept : MappingRepository.getForSession (MappingRepository.deleteForSession db session)
        other = MappingRepository.getForSession db other := by
      unfold MappingRepository.getForSession MappingRepository.deleteForSession Table.select
      dsimp only
      rw [Table.filter_delete]
      intro row deleted
      have owner : row.sessionId = session := by simpa using deleted
      simp [owner, Ne.symm same]
    rw [kept, if_neg same]
    rfl

theorem view_deleteArtifacts :
    view (ArtifactRepository.deleteForSession db session) other =
      if other = session then { view db other with artifact := fun _ => none }
      else view db other := by
  have row (kind : ArtifactKind) :
      ArtifactRepository.get (ArtifactRepository.deleteForSession db session) other kind =
        if other = session then none else ArtifactRepository.get db other kind := by
    have deleted := Table.get?_delete_key db.artifacts (fun row => row.sessionId = session)
      (fun key => key.1 = session) (fun _ => rfl) (other, kind)
    simp only [decide_eq_true_eq] at deleted
    exact deleted
  apply View.ext
  all_goals split
  all_goals first
    | rfl
    | skip
  · funext kind
    exact (row kind).trans (if_pos ‹_›)
  · funext kind
    exact (row kind).trans (if_neg ‹_›)

theorem view_invalidatePovArtifacts :
    view (ArtifactRepository.invalidatePovArtifacts db session) other =
      if other = session then
        { view db other with
          artifact := fun kind =>
            if Router.ArtifactKind.isPov kind then none else (view db other).artifact kind }
      else view db other := by
  have row (kind : ArtifactKind) :
      ArtifactRepository.get (ArtifactRepository.invalidatePovArtifacts db session) other kind =
        if other = session ∧ Router.ArtifactKind.isPov kind then none
        else ArtifactRepository.get db other kind := by
    have deleted := Table.get?_delete_key db.artifacts
      (fun row => row.sessionId = session && row.isPov)
      (fun key => key.1 = session && Router.ArtifactKind.isPov key.2)
      (fun row => by cases row with | mk _ kind => cases kind <;> rfl) (other, kind)
    simp only [Bool.and_eq_true, decide_eq_true_eq] at deleted
    exact deleted
  apply View.ext
  all_goals split
  all_goals first
    | rfl
    | skip
  · rename_i same
    funext kind
    have result := row kind
    simp only [same, true_and] at result ⊢
    exact result
  · rename_i apart
    funext kind
    exact (row kind).trans (if_neg fun both => apart both.1)

theorem view_updateContent {after : Database} {kind : ArtifactKind} {content : ArtifactContent}
    {editor : Uuid}
    (updated : ArtifactRepository.updateContent db session kind content editor = some after) :
    ∃ row, (view db session).artifact kind = some row ∧
      view after other =
        if other = session then
          (view db other).withArtifact kind
            { row with contentJson := content, isEdited := true, editedBy := some editor }
        else view db other := by
  unfold ArtifactRepository.updateContent at updated
  obtain ⟨row, found, rfl⟩ := Option.map_eq_some_iff.mp updated
  refine ⟨row, found, ?_⟩
  have cell (target : ArtifactKind) :
      (db.artifacts.update (fun row => row.sessionId = session && row.kind = kind)
        (fun row => { row with contentJson := content, isEdited := true, editedBy := some editor })
        (fun _ => rfl)).get? (other, target) =
      if other = session ∧ target = kind then
        some { row with contentJson := content, isEdited := true, editedBy := some editor }
      else db.artifacts.get? (other, target) := by
    rw [Table.get?_update]
    by_cases same : other = session ∧ target = kind
    · obtain ⟨rfl, rfl⟩ := same
      have key := Table.key_of_get? found
      have owner : row.sessionId = other := congrArg Prod.fst key
      have named : row.kind = target := congrArg Prod.snd key
      unfold ArtifactRepository.get at found
      rw [found]
      simp [owner, named]
    · rw [if_neg same]
      cases present : db.artifacts.get? (other, target) with
      | none => rfl
      | some old =>
          have key := Table.key_of_get? present
          have owner : old.sessionId = other := congrArg Prod.fst key
          have named : old.kind = target := congrArg Prod.snd key
          have apart : ¬((decide (old.sessionId = session) && decide (old.kind = kind)) = true) := by
            simpa [owner, named] using same
          rw [Option.map_some, if_neg apart]
  apply View.ext
  all_goals split
  all_goals first
    | rfl
    | skip
  · rename_i same
    funext target
    have result := cell target
    simp only [same, true_and] at result ⊢
    exact result
  · rename_i apart
    funext target
    exact (cell target).trans (if_neg fun both => apart both.1)

end Repositories

end Kaeyris.Proof
