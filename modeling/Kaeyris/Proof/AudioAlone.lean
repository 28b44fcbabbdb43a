import Kaeyris.Proof.AudioFiles

/-!
# Operations that nothing comes between

Taken in one go, and with nothing failing, the steps of an upload are
`storeAudioSourceForSession`, those of a preparation `storePreparedAudio` on what ffmpeg wrote,
those of a purge `purgeAudioForSession`, and those of a deletion `deleteSession`.
-/

namespace Kaeyris.Proof
open Lib Jobs Logic

/-- Alone, the operation comes to its end and leaves this behind. -/
def EndsAs (env : Environment) (reaction : AudioReaction) (id : Nat) (s : AudioService)
    (db : Database) (rq : Rq) (disk : Disk) : Prop :=
  ∃ n, ∃ t, t = final (AudioService.step env) s (List.replicate n (.advance id reaction)) ∧
    t.operations.get? id = none ∧ t.db = db ∧ t.rq = rq ∧ t.files.read = disk

section Ends
variable {env : Environment} {reaction : AudioReaction} {id : Nat} {s : AudioService}
  {db : Database} {rq : Rq} {disk : Disk}

theorem EndsAs.next {running : AudioOperation} (found : s.operations.get? id = some running)
    (rest : EndsAs env reaction id (s.advance env running reaction) db rq disk) :
    EndsAs env reaction id s db rq disk := by
  obtain ⟨n, t, reached, ended⟩ := rest
  have taken : s.step env (.advance id reaction) = s.advance env running reaction := by
    rw [AudioService.step, found]
  refine ⟨n + 1, t, ?_, ended⟩
  rw [List.replicate_succ, final, List.foldl_cons, taken]
  exact reached

theorem EndsAs.none (absent : s.operations.get? id = none) :
    EndsAs env reaction id s s.db s.rq s.files.read :=
  ⟨0, s, rfl, absent, rfl, rfl, rfl⟩

theorem EndsAs.left (s : AudioService) :
    EndsAs env reaction id (s.leave id) s.db s.rq s.files.read :=
  EndsAs.none (s := s.leave id) ((get?_leave s id id).trans (if_pos rfl))

theorem get?_entered (s : AudioService) (id : Nat) (session : Uuid) (stage : AudioStage) :
    (s.enter id session stage).operations.get? id = some ⟨id, session, stage⟩ :=
  (get?_enter s id session stage id).trans (if_pos rfl)

end Ends

/-! ## The disk -/

section Disk
variable (files : Files AudioPath) {disk disk' : Disk} {path : AudioPath}

theorem read_unlink_eq (path : AudioPath) :
    (files.unlink path).read = Disk.unlink files.read path := by
  funext other
  unfold Disk.unlink
  split
  · rename_i same
    rw [same]
    exact files.read_unlink path
  · rename_i apart
    exact (files.unchanged_unlink apart).2

theorem write_congr (same : ∀ other, other ≠ path → disk other = disk' other) (content : Bytes) :
    disk.write path content = disk'.write path content := by
  funext other
  unfold Disk.write
  split
  · rfl
  · rename_i apart
    exact same other apart

theorem unlink_congr (same : ∀ other, other ≠ path → disk other = disk' other) :
    disk.unlink path = disk'.unlink path := by
  funext other
  unfold Disk.unlink
  split
  · rfl
  · rename_i apart
    exact same other apart

theorem unlink_again (disk : Disk) (path : AudioPath) :
    (disk.unlink path).unlink path = disk.unlink path := by
  refine unlink_congr fun other apart => ?_
  rw [Disk.unlink, if_neg apart]

theorem write_read {content : Bytes} (read : disk path = some content) :
    disk.write path content = disk := by
  funext other
  unfold Disk.write
  split
  · rename_i same
    rw [same, read]
  · rfl

end Disk

section Commit
variable (env : Environment) (s : AudioService) (id : Nat) (session : Uuid) (content : Bytes)
  (duration : Option Int)

theorem commitUpload_enter (files : Files AudioPath) (stage : AudioStage) :
    let t := { s with files := files }.enter id session stage
    (t.commitUpload env session content duration).db =
        (s.commitUpload env session content duration).db ∧
      (t.commitUpload env session content duration).rq =
        (s.commitUpload env session content duration).rq := by
  simp only [AudioService.commitUpload, AudioService.enter]
  split <;> exact ⟨rfl, rfl⟩

theorem commitUpload_files :
    (s.commitUpload env session content duration).files = s.files := by
  unfold AudioService.commitUpload
  split <;> rfl

end Commit

def UploadEnds (env : Environment) (reaction : AudioReaction) (id : Nat) (session : Uuid)
    (s : AudioService) : Option Bytes → Prop
  | none => EndsAs env reaction id s s.db s.rq (Disk.unlink s.files.read (.raw session))
  | some content =>
      let done := s.commitUpload env session content reaction.durationSeconds
      EndsAs env reaction id s done.db done.rq (Disk.write s.files.read (.raw session) content)

theorem UploadEnds.next {env : Environment} {reaction : AudioReaction} {id : Nat} {session : Uuid}
    {s : AudioService} {files : Files AudioPath} {stage stage' : AudioStage}
    (found : s.operations.get? id = some ⟨id, session, stage⟩)
    (step : s.advance env ⟨id, session, stage⟩ reaction =
      { s with files := files }.enter id session stage')
    (same : ∀ other, other ≠ .raw session → Files.Unchanged s.files files other)
    {outcome : Option Bytes}
    (rest : UploadEnds env reaction id session ({ s with files := files }.enter id session stage')
      outcome) : UploadEnds env reaction id session s outcome := by
  cases outcome with
  | none =>
      refine EndsAs.next found ?_
      rw [step, unlink_congr fun other apart => (same other apart).2.symm]
      exact rest
  | some content =>
      obtain ⟨db, rq⟩ := commitUpload_enter env s id session content reaction.durationSeconds files
        stage'
      refine EndsAs.next found ?_
      rw [step, write_congr (fun other apart => (same other apart).2.symm) content, ← db, ← rq]
      exact rest

section Alone
variable (env : Environment) {reaction : AudioReaction} (succeeds : reaction.succeeds = true)
  {id : Nat} {session : Uuid}
include succeeds

theorem discarding_alone (paths : List AudioPath) {s : AudioService}
    (found : s.operations.get? id = some ⟨id, session, .discarding paths none⟩) :
    EndsAs env reaction id s s.db s.rq (paths.foldl Disk.unlink s.files.read) := by
  induction paths generalizing s with
  | nil => exact .next found (.left s)
  | cons path paths ih =>
      refine .next found ?_
      simp only [AudioService.advance, succeeds, if_true]
      rw [List.foldl_cons, ← read_unlink_eq]
      exact ih (get?_entered _ _ _ _)

theorem removing_alone {removal : Removal} (paths : List AudioPath) {s : AudioService}
    (found : s.operations.get? id = some ⟨id, session, .removing removal paths⟩) :
    EndsAs env reaction id s (AudioService.commitRemoval s.db session reaction.now removal) s.rq
      (paths.foldl Disk.unlink s.files.read) := by
  induction paths generalizing s with
  | nil =>
      refine .next found ?_
      simp only [AudioService.advance, succeeds, if_true]
      exact .left _
  | cons path paths ih =>
      refine .next found ?_
      simp only [AudioService.advance, succeeds, if_true]
      rw [List.foldl_cons, ← read_unlink_eq]
      exact ih (get?_entered _ _ _ _)

theorem received_alone {s : AudioService} {content : Bytes}
    (found : s.operations.get? id = some ⟨id, session, .received content⟩)
    (written : s.files.read (.raw session) = some content) :
    UploadEnds env reaction id session s (some content) := by
  refine EndsAs.next found ?_
  simp only [AudioService.advance, succeeds, if_true]
  rw [write_read written, ← commitUpload_files env s session content reaction.durationSeconds]
  exact .left _

theorem receiving_alone {received rest : Bytes} {s : AudioService} {handle : Nat}
    (found : s.operations.get? id = some ⟨id, session, .receiving handle received rest⟩)
    (file : s.files.file (.raw session) = some handle)
    (content : s.files.content handle = received) :
    UploadEnds env reaction id session s
      (receive env.settings.audioMaxUploadBytes received rest) := by
  have untouched (t : AudioService) : ∀ other, other ≠ AudioPath.raw session →
      Files.Unchanged t.files t.files other := fun other _ => t.files.unchanged_refl other
  induction received, rest using receive.induct env.settings.audioMaxUploadBytes
    generalizing s with
  | case1 received =>
      rw [receive, if_pos rfl]
      have written : s.files.read (.raw session) = some received :=
        s.files.read_eq_some.mpr ⟨handle, file, content⟩
      have step : s.advance env ⟨id, session, .receiving handle received []⟩ reaction =
          { s with files := s.files }.enter id session (.received received) := by
        simp only [AudioService.advance, if_true]
      refine .next found step (untouched s) ?_
      exact received_alone env succeeds (get?_entered _ _ _ _) written
  | case2 received rest more size =>
      rename_i tooLarge
      rw [receive, if_neg more, if_pos tooLarge]
      have step : s.advance env ⟨id, session, .receiving handle received rest⟩ reaction =
          { s with files := s.files }.enter id session
            (.discarding [.raw session, .raw session] none) := by
        simp only [AudioService.advance, if_neg more]
        exact if_pos tooLarge
      refine .next found step (untouched s) ?_
      have ends := discarding_alone env succeeds [.raw session, .raw session]
        (get?_entered { s with files := s.files } id session _)
      rw [List.foldl_cons, List.foldl_cons, List.foldl_nil, unlink_again] at ends
      exact ends
  | case3 received rest more size fits =>
      rename_i ih
      rw [receive, if_neg more, if_neg fits]
      have step : s.advance env ⟨id, session, .receiving handle received rest⟩ reaction =
          { s with files := s.files.write handle received.length (rest.take chunkSize) }.enter
            id session
            (.receiving handle (received ++ rest.take chunkSize) (rest.drop chunkSize)) := by
        simp only [AudioService.advance, if_neg more]
        exact if_neg fits
      have appended := s.files.write_eq_fill handle received.length (rest.take chunkSize)
      rw [content, Files.overwrite_end] at appended
      refine .next found step (fun other apart => ?_) (ih (get?_entered _ _ _ _) file ?_)
      · rw [appended]
        exact s.files.unchanged_fill file _ apart
      · show (s.files.write handle received.length (rest.take chunkSize)).content handle = _
        rw [appended]
        exact Function.update_self _ _ _

theorem checked_alone {body : Bytes} {s : AudioService}
    (found : s.operations.get? id = some ⟨id, session, .checked body⟩) :
    UploadEnds env reaction id session s
      (receive env.settings.audioMaxUploadBytes [] body) := by
  have step : s.advance env ⟨id, session, .checked body⟩ reaction =
      { s with files := (s.files.create (.raw session)).1 }.enter id session
        (.receiving (s.files.create (.raw session)).2 [] body) := rfl
  refine .next found step (fun other apart => s.files.unchanged_create apart) ?_
  exact receiving_alone env succeeds (get?_entered _ _ _ _) (s.files.file_create _)
    (s.files.content_create _)

/-! ## Preparations -/

section Encoded
variable {duration : Option Int} {db : Database} {first : UInt8} {rest : Bytes} {s : AudioService}
  (read : s.files.read (.prepared session) = some (first :: rest))
  (stored : storePreparedAudio session
    ⟨.prepared session, env.sha256 (first :: rest), (first :: rest).length⟩ duration s.db =
      (true, db))
include stored

theorem measured_alone (found : s.operations.get? id = some ⟨id, session, .measured duration
      ⟨.prepared session, env.sha256 (first :: rest), (first :: rest).length⟩⟩) :
    EndsAs env reaction id s db s.rq (Disk.unlink s.files.read (.raw session)) := by
  refine .next found ?_
  simp only [AudioService.advance, succeeds, if_true, stored]
  exact discarding_alone env succeeds [.raw session] (get?_entered { s with db := db } id session _)

include read

theorem hashed_alone (found : s.operations.get? id =
      some ⟨id, session, .hashed duration (env.sha256 (first :: rest))⟩) :
    EndsAs env reaction id s db s.rq (Disk.unlink s.files.read (.raw session)) := by
  refine .next found ?_
  simp only [AudioService.advance, read]
  exact measured_alone env succeeds stored (get?_entered s id session _)

theorem encoded_alone (found : s.operations.get? id = some ⟨id, session, .encoded duration⟩) :
    EndsAs env reaction id s db s.rq (Disk.unlink s.files.read (.raw session)) := by
  refine .next found ?_
  simp only [AudioService.advance, read]
  exact hashed_alone env succeeds read stored (get?_entered s id session _)

end Encoded

theorem begun_alone {started : Started} {db : Database} {first : UInt8} {rest : Bytes}
    {s : AudioService} (found : s.operations.get? id = some ⟨id, session, .begun started⟩)
    (present : (s.files.read started.path).isSome = true)
    (transient : isTransientRawAudioPath started.path = true)
    (output : reaction.output = some (first :: rest))
    (stored : storePreparedAudio session
      ⟨.prepared session, env.sha256 (first :: rest), (first :: rest).length⟩
      started.durationSeconds s.db = (true, db)) :
    EndsAs env reaction id s db s.rq
      ((Disk.write s.files.read (.prepared session) (first :: rest)).unlink (.raw session)) := by
  have there : ¬(s.files.read started.path).isNone = true := by
    rw [Option.isNone_iff_eq_none]
    exact Option.isSome_iff_ne_none.mp present
  have created := s.files.file_create (.prepared session)
  have read := Files.read_fill _ created (first :: rest)
  have disk : ((s.files.create (.prepared session)).1.fill (s.files.create (.prepared session)).2
      (first :: rest)).read = Disk.write s.files.read (.prepared session) (first :: rest) := by
    refine (write_read read).symm.trans (write_congr (fun other apart => ?_) _)
    rw [(Files.unchanged_fill _ created _ apart).2, (s.files.unchanged_create apart).2]
  refine .next found ?_
  simp only [AudioService.advance, if_neg there, transient, succeeds, if_true]
  refine .next (get?_entered _ _ _ _) ?_
  simp only [AudioService.advance, output]
  rw [← disk]
  exact encoded_alone env succeeds read stored (get?_entered _ _ _ _)

/-! ## Whole operations -/

variable {s : AudioService} (idle : s.operations.get? id = none)
include idle

/-- ffmpeg writes something, and the row is still there: it gets what is measured of the output. -/
theorem preparation_alone {started : Started} {db db' : Database} {first : UInt8} {rest : Bytes}
    (begun : beginTranscription session s.db = .ok (started, db))
    (present : (s.files.read started.path).isSome = true)
    (transient : isTransientRawAudioPath started.path = true)
    (output : reaction.output = some (first :: rest))
    (stored : storePreparedAudio session
      ⟨.prepared session, env.sha256 (first :: rest), (first :: rest).length⟩
      started.durationSeconds db = (true, db')) :
    EndsAs env reaction id (s.step env (.prepare id session)) db' s.rq
      ((Disk.write s.files.read (.prepared session) (first :: rest)).unlink (.raw session)) := by
  simp only [AudioService.step, idle, Option.isSome_none, AudioService.beginPreparation, begun,
    Bool.false_eq_true, if_false]
  exact begun_alone env succeeds (get?_entered { s with db := db } id session _) present transient
    output stored

variable (auth : AuthenticatedKey) {row : Session}
  (found : Router.requireSession s.db session auth = .ok row)
include found

theorem upload_alone (upload : UploadFile) :
    let started := s.step env (.upload id auth session upload)
    match storeAudioSourceForSession env.settings env.sha256 ⟨s.files.read, s.db, s.rq⟩ row upload
      reaction.durationSeconds with
    | .ok (_, stores) => EndsAs env reaction id started stores.db stores.rq stores.disk
    | .error (_, disk) => EndsAs env reaction id started s.db s.rq disk := by
  have refused : EndsAs env reaction id s s.db s.rq s.files.read := .none idle
  simp only [AudioService.step, idle, Option.isSome_none, AudioService.beginUpload, found,
    Bool.false_eq_true, if_false, storeAudioSourceForSession]
  by_cases mime : (!upload.contentType.any (· ∈ acceptedAudioMimes)) = true
  · rw [if_pos mime, if_pos mime]
    exact refused
  · rw [if_neg mime, if_neg mime]
    by_cases taken : (SessionRepository.getAudioSource s.db row.id).isSome = true
    · rw [if_pos taken, if_pos taken]
      exact refused
    · rw [if_neg taken, if_neg taken]
      have ends := checked_alone env succeeds (get?_entered s id row.id (.checked upload.body))
      cases received : receive env.settings.audioMaxUploadBytes [] upload.body with
      | none =>
          rw [received] at ends
          exact ends
      | some content =>
          rw [received] at ends
          simp only [UploadEnds, AudioService.commitUpload, AudioService.enter] at ends
          dsimp only
          cases stored : SessionRepository.storeAudioSource s.db row.id (.raw row.id)
              (env.sha256 content) content.length reaction.durationSeconds with
          | none =>
              rw [stored] at ends
              exact ends
          | some db =>
              rw [stored] at ends
              exact ends

theorem purge_alone :
    let started := s.step env (.purge id auth session)
    match purgeAudioForSession s.files.read s.db row reaction.now true with
    | .ok (disk, db) => EndsAs env reaction id started db s.rq disk
    | .error _ => EndsAs env reaction id started s.db s.rq s.files.read := by
  simp only [AudioService.step, idle, Option.isSome_none, AudioService.beginPurge, found,
    Bool.false_eq_true, if_false, purgeAudioForSession]
  by_cases busy : row.state = .transcribing
  · rw [if_pos busy, if_pos busy]
    exact .none idle
  · rw [if_neg busy, if_neg busy]
    have ends := removing_alone env succeeds _ (get?_entered s id row.id
      (.removing (.purge (AudioService.keptPath s.db row.id).isSome)
        ((AudioService.keptPath s.db row.id).toList ++ [AudioPath.raw row.id])))
    cases audio : SessionRepository.getAudioSource s.db row.id with
    | none =>
        have kept : AudioService.keptPath s.db row.id = none := by
          rw [AudioService.keptPath, audio]
          rfl
        rw [kept] at ends ⊢
        exact ends
    | some source =>
        by_cases stays : source.purgedAt.isNone = true
        · have kept : AudioService.keptPath s.db row.id = some source.path := by
            rw [AudioService.keptPath, audio, Option.filter_some, if_pos stays]
            rfl
          rw [kept] at ends ⊢
          simp only [if_pos stays]
          exact ends
        · have kept : AudioService.keptPath s.db row.id = none := by
            rw [AudioService.keptPath, audio, Option.filter_some, if_neg stays]
            rfl
          rw [kept] at ends ⊢
          simp only [if_neg stays]
          exact ends

theorem deletion_alone :
    let started := s.step env (.delete id auth session)
    let paths := (AudioService.keptPath s.db row.id).toList ++ [AudioPath.raw row.id]
    ∃ stopped, Router.deleteSession s.db s.rq auth session =
        .ok (SessionRepository.delete s.db row.id, started.rq, stopped) ∧
      EndsAs env reaction id started (SessionRepository.delete s.db row.id) started.rq
        (paths.foldl Disk.unlink s.files.read) := by
  simp only [AudioService.step, idle, Option.isSome_none, AudioService.beginDeletion, found,
    Bool.false_eq_true, if_false]
  refine ⟨(abortActiveSessionJob s.rq row).2, ?_, ?_⟩
  · rw [Router.deleteSession, found]
    rfl
  · exact removing_alone env succeeds _ (get?_entered
      { s with rq := (abortActiveSessionJob s.rq row).1 } id row.id _)

end Alone

end Kaeyris.Proof
