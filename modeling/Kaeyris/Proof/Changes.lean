import Kaeyris.View

/-!
# What requests make of a session

Four requests move a session to another state. The others leave its state and its audio alone, and
what they leave of its artifacts was there before, or is the one they edit.
-/

namespace Kaeyris.Proof

def Request.moves : Request → Bool
  | .postAudio _ _ | .deleteAudio _ | .recoverStuckTranscription | .restartTranscription => true
  | _ => false

def Request.regroups : Request → Bool
  | .putSessionMapping _ | .postSessionPlayers _ | .restartTranscription => true
  | _ => false

def Request.edits : Request → Option ArtifactKind
  | .patchSummary _ => some .summary
  | .patchNarrative _ => some .narrative
  | .patchPov pj _ => some (.pov pj)
  | .putElements _ _ => some .elements
  | _ => none

section Changes
variable {rq : Rq} {session : Uuid} {job : Option JobId} {v v' : View} {request : Request}
  (changes : request.changes rq session job v v')
include changes

theorem changes_still (still : Request.moves request = false) :
    v'.state = v.state ∧ v'.audio = v.audio := by
  cases request with
  | postAudio upload duration => cases still
  | deleteAudio now => cases still
  | recoverStuckTranscription => cases still
  | restartTranscription => cases still
  | putTranscriptionEdit payload =>
      obtain rfl := changes
      exact ⟨rfl, rfl⟩
  | putSessionMapping mapping =>
      obtain ⟨-, pjs, -, rfl⟩ := changes
      exact ⟨rfl, rfl⟩
  | postSessionPlayers payload =>
      obtain ⟨-, rfl⟩ := changes
      exact ⟨rfl, rfl⟩
  | postNarrative force | postElements force | postPovs force | postSummary force =>
      obtain ⟨-, -, id, -, rfl⟩ := changes
      exact ⟨rfl, rfl⟩
  | patchSummary payload | patchNarrative payload | patchPov pj payload | putElements elements c =>
      obtain ⟨-, row, content, editor, -, rfl⟩ := changes
      exact ⟨rfl, rfl⟩

theorem changes_audio (before : v.audio ≠ none) : v'.audio ≠ none := by
  cases request with
  | postAudio upload duration =>
      obtain ⟨-, id, -, rfl⟩ := changes
      exact Option.some_ne_none none
  | deleteAudio now =>
      obtain ⟨-, rfl⟩ := changes
      simpa [View.purged] using before
  | recoverStuckTranscription =>
      obtain ⟨-, -, rfl⟩ := changes
      exact before
  | restartTranscription =>
      obtain ⟨-, -, id, -, rfl⟩ := changes
      exact before
  | _ =>
      rw [(changes_still changes rfl).2]
      exact before

theorem changes_transcription (enqueued : request.enqueues = some .transcription) :
    v'.audio = some none := by
  cases request with
  | postAudio upload duration =>
      obtain ⟨-, id, -, rfl⟩ := changes
      rfl
  | restartTranscription =>
      obtain ⟨-, audio, id, -, rfl⟩ := changes
      exact audio
  | _ => cases enqueued

theorem changes_transcribed (transcribed : v.state = some .transcribed) (audio : v.audio ≠ none)
    (standing : request.resets = false) : v'.state = some .transcribed := by
  cases request with
  | postAudio upload duration => exact (audio changes.1).elim
  | deleteAudio now => cases standing
  | restartTranscription => cases standing
  | recoverStuckTranscription =>
      rw [changes.1] at transcribed
      cases transcribed
  | _ =>
      rw [(changes_still changes rfl).1]
      exact transcribed

theorem changes_to_transcribed (transcribed : v'.state = some .transcribed) :
    v.state = some .transcribed := by
  cases request with
  | postAudio upload duration =>
      obtain ⟨-, id, -, rfl⟩ := changes
      cases transcribed
  | deleteAudio now =>
      obtain ⟨-, rfl⟩ := changes
      cases transcribed
  | recoverStuckTranscription =>
      obtain ⟨-, -, rfl⟩ := changes
      cases transcribed
  | restartTranscription =>
      obtain ⟨-, -, id, -, rfl⟩ := changes
      cases transcribed
  | _ =>
      rw [(changes_still changes rfl).1] at transcribed
      exact transcribed

theorem changes_reset (resets : request.resets = true) : v'.state ≠ some .transcribed := by
  cases request with
  | deleteAudio now =>
      obtain ⟨-, rfl⟩ := changes
      exact fun transcribed => by cases transcribed
  | restartTranscription =>
      obtain ⟨-, -, id, -, rfl⟩ := changes
      exact fun transcribed => by cases transcribed
  | _ => cases resets

theorem changes_artifact {kind : ArtifactKind} {row : Artifact}
    (stored : v'.artifact kind = some row) :
    request.resets = false ∧ (v.artifact kind = some row ∨
      Request.edits request = some kind ∧ v.artifact kind ≠ none) := by
  cases request with
  | postAudio upload duration =>
      obtain ⟨-, id, -, rfl⟩ := changes
      exact ⟨rfl, .inl stored⟩
  | deleteAudio now =>
      obtain ⟨-, rfl⟩ := changes
      cases stored
  | recoverStuckTranscription =>
      obtain ⟨-, -, rfl⟩ := changes
      exact ⟨rfl, .inl stored⟩
  | restartTranscription =>
      obtain ⟨-, -, id, -, rfl⟩ := changes
      cases stored
  | putTranscriptionEdit payload =>
      obtain rfl := changes
      exact ⟨rfl, .inl stored⟩
  | putSessionMapping mapping =>
      obtain ⟨-, pjs, -, rfl⟩ := changes
      unfold View.mapped at stored
      dsimp only at stored
      split at stored
      · cases stored
      · exact ⟨rfl, .inl stored⟩
  | postSessionPlayers payload =>
      obtain ⟨-, rfl⟩ := changes
      exact ⟨rfl, .inl stored⟩
  | postNarrative force | postElements force | postPovs force | postSummary force =>
      obtain ⟨-, -, id, -, rfl⟩ := changes
      exact ⟨rfl, .inl stored⟩
  | patchSummary payload | patchNarrative payload | patchPov pj payload | putElements elements c =>
      obtain ⟨-, old, content, editor, present, rfl⟩ := changes
      refine ⟨rfl, ?_⟩
      unfold View.withArtifact at stored
      dsimp only at stored
      split at stored
      · rename_i same
        rw [same, present]
        exact .inr ⟨rfl, Option.some_ne_none old⟩
      · exact .inl stored

theorem changes_stored {kind : ArtifactKind} (stored : v'.artifact kind ≠ none) :
    v.artifact kind ≠ none ∧ request.resets = false := by
  obtain ⟨row, found⟩ := Option.ne_none_iff_exists'.mp stored
  obtain ⟨standing, before | ⟨-, before⟩⟩ := changes_artifact changes found
  · rw [before]
    exact ⟨Option.some_ne_none row, standing⟩
  · exact ⟨before, standing⟩

/-- The guard of a generation request finds nothing edited that the job would replace. -/
theorem changes_guarded {kind : JobKind} (enqueued : request.enqueues = some kind)
    (unforced : request.force = false) {target : ArtifactKind} {row : Artifact}
    (stored : v'.artifact target = some row) (edited : row.isEdited = true) :
    ¬kind.replaces (fun _ => True) target := by
  intro replaced
  have generate {force : Bool} (generates : Generates kind force job v v')
      (unasked : force = false) : False := by
    obtain ⟨-, guard, id, -, rfl⟩ := generates
    have unedited := guard unasked target row stored replaced
    rw [edited] at unedited
    cases unedited
  cases request with
  | postNarrative force | postElements force | postPovs force | postSummary force =>
      cases enqueued
      exact generate changes unforced
  | postAudio upload duration | restartTranscription =>
      cases enqueued
      exact replaced
  | _ => cases enqueued

theorem changes_participants (kept : Request.regroups request = false) :
    v'.participants = v.participants := by
  cases request with
  | putSessionMapping mapping => cases kept
  | postSessionPlayers payload => cases kept
  | restartTranscription => cases kept
  | postAudio upload duration =>
      obtain ⟨-, id, -, rfl⟩ := changes
      rfl
  | deleteAudio now =>
      obtain ⟨-, rfl⟩ := changes
      rfl
  | recoverStuckTranscription =>
      obtain ⟨-, -, rfl⟩ := changes
      rfl
  | putTranscriptionEdit payload => exact congrArg View.participants changes
  | postNarrative force | postElements force | postPovs force | postSummary force =>
      obtain ⟨-, -, id, -, rfl⟩ := changes
      rfl
  | patchSummary payload | patchNarrative payload | patchPov pj payload | putElements elements c =>
      obtain ⟨-, row, content, editor, -, rfl⟩ := changes
      rfl

end Changes

end Kaeyris.Proof
