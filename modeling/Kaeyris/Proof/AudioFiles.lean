import Kaeyris.AudioFiles
import Kaeyris.Lib.Transition
import Kaeyris.Proof.Reupload
import Kaeyris.Proof.Steps

/-!
# The audio row and its file

An operation relies on a file from the time it opens it until it has recorded what it measured. As
long as no other operation changes the file meanwhile, and none changes a file that a committed row
designates, the row that is committed describes its file.
-/

namespace Kaeyris

def AudioPath.session : AudioPath → Uuid
  | .raw session | .prepared session => session

def Removal.retires : Removal → Bool
  | .purge marks => marks
  | .deletion => true

namespace AudioStage

/-- The audio row of the session is no longer kept once this operation commits. -/
def retires : AudioStage → Bool
  | .removing removal _ => removal.retires
  | _ => false

/-- The file that an operation is writing or measuring. -/
def uses (session : Uuid) : AudioStage → Option AudioPath
  | .receiving _ _ _ | .received _ => some (.raw session)
  | .encoding _ _ | .encoded _ | .hashed _ _ | .measured _ _ => some (.prepared session)
  | _ => none

/-- The file that the next step of an operation creates, truncates, writes or removes. -/
def touches (session : Uuid) (files : Lib.Files AudioPath) (reaction : AudioReaction) :
    AudioStage → Option AudioPath
  | .checked _ | .receiving _ _ _ => some (.raw session)
  | .begun started =>
      if (files.read started.path).isSome && Jobs.isTransientRawAudioPath started.path &&
        reaction.succeeds then some (.prepared session) else none
  | .encoding _ _ => if reaction.output.isSome then some (.prepared session) else none
  | .discarding (path :: _) _ | .removing _ (path :: _) =>
      if reaction.succeeds && (files.read path).isSome then some path else none
  | _ => none

/-- A removal of a row's file that ends without its commit. -/
def abandons (reaction : AudioReaction) : AudioStage → Bool
  | .removing removal [] => !reaction.succeeds && removal.retires
  | _ => false

end AudioStage

namespace Proof
open Lib Jobs Process

def Agrees (env : Environment) (files : Files AudioPath) (row : AudioSource) : Prop :=
  ∃ content, files.read row.path = some content ∧ content.length = row.sizeBytes ∧
    env.sha256 content = row.sha256

def AudioAgrees (env : Environment) (s : AudioService) : Prop :=
  ∀ session row, s.db.audioSources.get? session = some row → row.purgedAt = none →
    (∀ operation ∈ s.operations.rows, operation.session ≠ session) → Agrees env s.files row

/-- No other operation uses the file, and no row that is kept designates it. -/
def Undisturbed (s : AudioService) (operation : AudioOperation) (path : AudioPath) : Prop :=
  (∀ other ∈ s.operations.rows, other.id ≠ operation.id →
    other.stage.uses other.session ≠ some path) ∧
  ∀ row ∈ s.db.audioSources.rows, row.purgedAt = none → row.path = path →
    operation.stage.retires = true

/-- An operation that was to retire the audio row has not removed the file of a row that stays. -/
def Restorable (s : AudioService) (operation : AudioOperation) : Prop :=
  ∀ row ∈ s.db.audioSources.rows, row.sessionId = operation.session → row.purgedAt = none →
    (s.files.read row.path).isSome = true ∨
      ∃ other ∈ s.operations.rows, other.id ≠ operation.id ∧ other.session = row.sessionId ∧
        other.stage.retires = true

def Careful (s : AudioService) : AudioLabel → Prop
  | .advance operation reaction => ∀ running ∈ s.operations.get? operation,
      (∀ path ∈ running.stage.touches running.session s.files reaction,
        Undisturbed s running path) ∧
      (running.stage.abandons reaction = true → Restorable s running)
  | .abort operation => ∀ running ∈ s.operations.get? operation,
      running.stage.retires = true → Restorable s running
  | _ => True

/-! ## The invariant -/

/-- What an operation may take for granted about the file that it uses. -/
def StageHolds (env : Environment) (files : Files AudioPath) (session : Uuid) : AudioStage → Prop
  | .receiving handle received _ =>
      files.file (.raw session) = some handle ∧ files.content handle = received
  | .received content => files.read (.raw session) = some content
  | .encoding _ handle => files.file (.prepared session) = some handle
  | .hashed _ sha256 => ∃ content, files.read (.prepared session) = some content ∧
      env.sha256 content = sha256
  | .measured _ prepared => prepared.path = .prepared session ∧
      ∃ content, files.read (.prepared session) = some content ∧
        content.length = prepared.sizeBytes ∧ env.sha256 content = prepared.sha256
  | .discarding paths _ | .removing _ paths => ∀ path ∈ paths, path.session = session
  | _ => True

structure Kept (env : Environment) (s : AudioService) : Prop where
  placed : ∀ row ∈ s.db.audioSources.rows, row.path.session = row.sessionId
  backed : ∀ row ∈ s.db.audioSources.rows, row.purgedAt = none → Agrees env s.files row ∨
    s.files.read row.path = none ∧ ∃ id operation, s.operations.get? id = some operation ∧
      operation.session = row.sessionId ∧ operation.stage.retires = true
  stages : ∀ id operation, s.operations.get? id = some operation →
    StageHolds env s.files operation.session operation.stage

theorem kept_initial (env : Environment) : Kept env .initial where
  placed := fun _ member => by cases member
  backed := fun _ member => by cases member
  stages := fun _ _ found => by cases found

theorem Kept.audioAgrees {env : Environment} {s : AudioService} (kept : Kept env s) :
    AudioAgrees env s := by
  intro session row found stays idle
  rcases kept.backed row (Table.mem_of_get? found) stays with agrees | ⟨-, id, operation, present, own, -⟩
  · exact agrees
  · have key : row.sessionId = session := Table.key_of_get? found
    exact (idle operation (Table.mem_of_get? present) (own.trans key)).elim

theorem stageHolds_congr {env : Environment} {files files' : Files AudioPath} {session : Uuid}
    {stage : AudioStage}
    (same : ∀ path, stage.uses session = some path → Files.Unchanged files files' path)
    (holds : StageHolds env files session stage) : StageHolds env files' session stage := by
  cases stage with
  | receiving handle received rest =>
      obtain ⟨file, content⟩ := holds
      obtain ⟨file', read⟩ := same _ rfl
      refine ⟨file'.trans file, ?_⟩
      rw [Files.read, Files.read, file', file] at read
      exact (Option.some.inj read).trans content
  | received content => exact (same _ rfl).2.trans holds
  | encoding duration handle => exact (same _ rfl).1.trans holds
  | hashed duration sha256 =>
      obtain ⟨content, read, sha⟩ := holds
      exact ⟨content, (same _ rfl).2.trans read, sha⟩
  | measured duration prepared =>
      obtain ⟨path, content, read, facts⟩ := holds
      exact ⟨path, content, (same _ rfl).2.trans read, facts⟩
  | _ => exact holds

/-! ## Moves -/

theorem get?_enter (s : AudioService) (id : Nat) (session : Uuid) (stage : AudioStage)
    (other : Nat) :
    (s.enter id session stage).operations.get? other =
      if id = other then some ⟨id, session, stage⟩ else s.operations.get? other :=
  Table.get?_put s.operations ⟨id, session, stage⟩ other

theorem get?_leave (s : AudioService) (id other : Nat) :
    (s.leave id).operations.get? other = if other = id then none else s.operations.get? other := by
  have deleted := Table.get?_delete_key s.operations (fun other => other.id = id)
    (fun key => key = id) (fun _ => rfl) other
  simp only [decide_eq_true_eq] at deleted
  exact deleted

section Moves
variable {env : Environment} {s : AudioService} (kept : Kept env s)
include kept

theorem Kept.rows {db : Database} {rq : Rq}
    (from_ : ∀ row ∈ db.audioSources.rows, row ∈ s.db.audioSources.rows ∨
      row.path.session = row.sessionId ∧ (row.purgedAt = none → Agrees env s.files row)) :
    Kept env { s with db := db, rq := rq } where
  placed := fun row member => (from_ row member).elim (kept.placed row) And.left
  backed := fun row member stays => by
    rcases from_ row member with old | ⟨-, agrees⟩
    · exact kept.backed row old stays
    · exact .inl (agrees stays)
  stages := kept.stages

theorem Kept.enter {id : Nat} {session : Uuid} {stage : AudioStage} {files' : Files AudioPath}
    {touched : Option AudioPath}
    (goesOn : ∀ operation, s.operations.get? id = some operation →
      operation.session = session ∧ (operation.stage.retires = true → stage.retires = true))
    (same : ∀ path, touched ≠ some path → Files.Unchanged s.files files' path)
    (unused : ∀ path, touched = some path → ∀ other ∈ s.operations.rows, other.id ≠ id →
      other.stage.uses other.session ≠ some path)
    (designated : ∀ row ∈ s.db.audioSources.rows, row.purgedAt = none →
      touched = some row.path → files'.read row.path = none ∧ session = row.sessionId ∧
        stage.retires = true)
    (holds : StageHolds env files' session stage) :
    Kept env ({ s with files := files' }.enter id session stage) where
  placed := kept.placed
  backed := fun row member stays => by
    have self : ({ s with files := files' }.enter id session stage).operations.get? id =
        some ⟨id, session, stage⟩ := (get?_enter _ _ _ _ _).trans (if_pos rfl)
    by_cases changed : touched = some row.path
    · obtain ⟨gone, own, retires⟩ := designated row member stays changed
      exact .inr ⟨gone, id, _, self, own, retires⟩
    · obtain ⟨-, read⟩ := same row.path changed
      rcases kept.backed row member stays with ⟨content, found, facts⟩ |
        ⟨gone, other, operation, found, own, retires⟩
      · exact .inl ⟨content, read.trans found, facts⟩
      · refine .inr ⟨read.trans gone, ?_⟩
        by_cases again : id = other
        · subst again
          obtain ⟨own', goes⟩ := goesOn operation found
          exact ⟨id, _, self, own'.symm.trans own, goes retires⟩
        · refine ⟨other, operation, ?_, own, retires⟩
          exact (get?_enter _ _ _ _ _).trans ((if_neg again).trans found)
  stages := fun other operation found => by
    rw [get?_enter] at found
    split at found
    · cases found
      exact holds
    · rename_i apart
      refine stageHolds_congr (fun path uses => same path fun changed => ?_)
        (kept.stages other operation found)
      have key : operation.id = other := Table.key_of_get? found
      exact unused path changed operation (Table.mem_of_get? found)
        (fun clash => apart (clash.symm.trans key)) uses

theorem Kept.leave {id : Nat} (restorable : ∀ operation, s.operations.get? id = some operation →
      operation.stage.retires = true → Restorable s operation) : Kept env (s.leave id) where
  placed := kept.placed
  backed := fun row member stays => by
    have others {other : Nat} {operation : AudioOperation}
        (found : s.operations.get? other = some operation) (apart : other ≠ id) :
        (s.leave id).operations.get? other = some operation :=
      (get?_leave s id other).trans ((if_neg apart).trans found)
    rcases kept.backed row member stays with agrees |
      ⟨gone, other, operation, found, own, retires⟩
    · exact .inl agrees
    · refine .inr ⟨gone, ?_⟩
      by_cases apart : other = id
      · subst apart
        rcases restorable operation found retires row member own.symm stays with there |
          ⟨second, listed, distinct, own', retires'⟩
        · rw [show s.files.read row.path = none from gone] at there
          cases there
        · have key : operation.id = other := Table.key_of_get? found
          exact ⟨second.id, second, others (Table.get?_self listed) (key ▸ distinct), own', retires'⟩
      · exact ⟨other, operation, others found apart, own, retires⟩
  stages := fun other operation found => by
    rw [get?_leave] at found
    split at found
    · cases found
    · exact kept.stages other operation found

/-- A running operation goes on. A row whose file it touches is one that it retires, by removing the
file. -/
theorem Kept.onward {running : AudioOperation}
    (found : s.operations.get? running.id = some running) {stage : AudioStage}
    {files' : Files AudioPath} {touched : Option AudioPath}
    (undisturbed : ∀ path ∈ touched, Undisturbed s running path)
    (same : ∀ path, touched ≠ some path → Files.Unchanged s.files files' path)
    (retires : running.stage.retires = true → stage.retires = true)
    (gone : running.stage.retires = true → ∀ path, touched = some path →
      files'.read path = none ∧ path.session = running.session)
    (holds : StageHolds env files' running.session stage) :
    Kept env ({ s with files := files' }.enter running.id running.session stage) := by
  refine kept.enter (fun operation present => ?_) same (fun path changed => ?_)
    (fun row member stays changed => ?_) holds
  · obtain rfl : running = operation := Option.some.inj (found.symm.trans present)
    exact ⟨rfl, retires⟩
  · exact (undisturbed path changed).1
  · have retiring := (undisturbed row.path changed).2 row member stays rfl
    obtain ⟨removed, own⟩ := gone retiring row.path changed
    exact ⟨removed, own.symm.trans (kept.placed row member), retires retiring⟩

section Keeps
variable {running : AudioOperation} (found : s.operations.get? running.id = some running)
  (keeps : running.stage.retires = false)
include found keeps

theorem Kept.writes {stage : AudioStage} {files' : Files AudioPath} {path : AudioPath}
    (undisturbed : Undisturbed s running path)
    (same : ∀ other, other ≠ path → Files.Unchanged s.files files' other)
    (holds : StageHolds env files' running.session stage) :
    Kept env ({ s with files := files' }.enter running.id running.session stage) := by
  have idle : running.stage.retires = true → False := by simp [keeps]
  have alone : ∀ other ∈ some path, Undisturbed s running other := by
    intro other touched
    cases touched
    exact undisturbed
  refine kept.onward found alone (fun other apart => same other fun clash => ?_)
    (fun retires => (idle retires).elim) (fun retires => (idle retires).elim) holds
  exact apart (congrArg some clash.symm)

theorem Kept.proceed {stage : AudioStage} (holds : StageHolds env s.files running.session stage) :
    Kept env (s.enter running.id running.session stage) := by
  have untouched : ∀ path, (none : Option AudioPath) ≠ some path →
      Files.Unchanged s.files s.files path := fun path _ => Files.unchanged_refl s.files path
  exact kept.onward found (fun path none => by cases none) untouched
    (fun retires => by simp [keeps] at retires) (fun _ path none => by cases none) holds

theorem Kept.finish : Kept env (s.leave running.id) := by
  refine kept.leave fun operation present retires => ?_
  obtain rfl : running = operation := Option.some.inj (found.symm.trans present)
  rw [keeps] at retires
  cases retires

end Keeps

theorem Kept.markFailed (session : Uuid) (reason : Option String) :
    Kept env { s with db := markFailed s.db session reason } := by
  have same : (Jobs.markFailed s.db session reason).audioSources = s.db.audioSources := by
    unfold Jobs.markFailed
    dsimp only
    split <;> rfl
  exact kept.rows fun row member => .inl (same ▸ member)

theorem Kept.begins {id : Nat} {session : Uuid} {stage : AudioStage}
    (fresh : ¬(s.operations.get? id).isSome = true)
    (holds : StageHolds env s.files session stage) : Kept env (s.enter id session stage) := by
  have absent : s.operations.get? id = none := by simpa using fresh
  refine kept.enter (fun operation found => ?_) (fun path _ => Files.unchanged_refl s.files path)
    (fun path none => by cases (none : Option.none = some path))
    (fun row _ _ none => by cases (none : Option.none = some row.path)) holds
  rw [absent] at found
  cases found

theorem keptPath_session {session : Uuid} {path : AudioPath}
    (member : path ∈ (AudioService.keptPath s.db session).toList ++ [AudioPath.raw session]) :
    path.session = session := by
  rcases List.mem_append.mp member with old | raw
  · obtain ⟨row, stays, rfl⟩ := Option.map_eq_some_iff.mp (Option.mem_toList.mp old)
    obtain ⟨found, -⟩ := Option.filter_eq_some_iff.mp stays
    obtain ⟨listed, own⟩ := Table.get?_eq_some.mp found
    exact (kept.placed row listed).trans own
  · rw [List.mem_singleton.mp raw]
    rfl

end Moves

/-! ## Beginnings -/

section Begin
variable {env : Environment} {s : AudioService} (kept : Kept env s) {id : Nat}
  (fresh : ¬(s.operations.get? id).isSome = true) {auth : AuthenticatedKey} {session : Uuid}
include kept fresh

theorem kept_beginUpload (file : Logic.UploadFile) :
    Kept env (s.beginUpload id auth session file) := by
  unfold AudioService.beginUpload
  split
  · exact kept
  · split
    · exact kept
    · split
      · exact kept
      · exact kept.begins fresh trivial

theorem kept_beginPreparation : Kept env (s.beginPreparation id session) := by
  unfold AudioService.beginPreparation
  split
  · exact kept
  · rename_i started db begun
    have same : db.audioSources = s.db.audioSources := by
      obtain ⟨-, -, -, -, -, -, rfl⟩ := beginTranscription_ok begun
      rfl
    have moved : Kept env { s with db := db } := kept.rows fun row member => .inl (same ▸ member)
    exact moved.begins fresh trivial

theorem kept_beginPurge : Kept env (s.beginPurge id auth session) := by
  unfold AudioService.beginPurge
  split
  · exact kept
  · split
    · exact kept
    · exact kept.begins fresh fun path member => keptPath_session kept member

theorem kept_beginDeletion : Kept env (s.beginDeletion id auth session) := by
  unfold AudioService.beginDeletion
  split
  · exact kept
  · rename_i row _
    have moved : Kept env { s with rq := (Logic.abortActiveSessionJob s.rq row).1 } :=
      kept.rows fun row member => .inl member
    exact moved.begins fresh fun path member => keptPath_session kept member

end Begin

/-! ## Steps -/

section Advance
variable {env : Environment} {s : AudioService} (kept : Kept env s) {running : AudioOperation}
  (found : s.operations.get? running.id = some running) (reaction : AudioReaction)
include kept found

theorem kept_reduceFailed (keeps : running.stage.retires = false) :
    Kept env (s.enter running.id running.session
      (AudioService.reduceFailed running.session reaction)) := by
  refine kept.proceed found keeps fun path member => ?_
  rcases List.mem_pair.mp member with rfl | rfl <;> rfl

theorem kept_commitUpload {content : Bytes} (stage : running.stage = .received content) :
    Kept env ((s.commitUpload env running.session content reaction.durationSeconds).leave
      running.id) := by
  have read : s.files.read (.raw running.session) = some content := by
    have holds := kept.stages running.id running found
    rw [stage] at holds
    exact holds
  have keeps : running.stage.retires = false := by rw [stage]; rfl
  unfold AudioService.commitUpload
  split
  · exact kept.finish found keeps
  · rename_i db stored
    unfold SessionRepository.storeAudioSource at stored
    obtain ⟨audios, inserted, rfl⟩ := Option.map_eq_some_iff.mp stored
    refine Kept.finish ?_ found keeps
    refine kept.rows fun row member => ?_
    have listed : row ∈ audios.rows := member
    rw [(Table.insert?_eq_some.mp inserted).2, List.mem_append] at listed
    refine listed.imp_right fun added => ?_
    rw [List.mem_singleton.mp added]
    exact ⟨rfl, fun _ => ⟨content, read, rfl, rfl⟩⟩

theorem kept_storePrepared {durationSeconds : Option Int} {prepared : PreparedAudioResult}
    (stage : running.stage = .measured durationSeconds prepared) {updated : Bool} {db : Database}
    (stored : storePreparedAudio running.session prepared durationSeconds s.db = (updated, db)) :
    Kept env { s with db := db } := by
  have holds := kept.stages running.id running found
  rw [stage] at holds
  obtain ⟨path, content, read, size, sha⟩ := holds
  unfold storePreparedAudio at stored
  split at stored
  · rename_i after written
    cases stored
    unfold SessionRepository.updateAudioSourceFile at written
    obtain ⟨_, -, rfl⟩ := Option.map_eq_some_iff.mp written
    refine kept.rows fun row member => ?_
    obtain ⟨old, listed, rfl⟩ := List.mem_map.mp member
    by_cases own : old.sessionId = running.session
    · rw [if_pos (by simpa using own)]
      refine .inr ⟨?_, fun _ => ⟨content, ?_, size, sha⟩⟩
      · rw [path, own]
        rfl
      · rw [path]
        exact read
    · rw [if_neg (by simpa using own)]
      exact .inl listed
  · cases stored
    exact kept

theorem kept_commitRemoval {removal : Removal} {paths : List AudioPath}
    (stage : running.stage = .removing removal paths) (now : Timestamp) :
    Kept env ({ s with
      db := AudioService.commitRemoval s.db running.session now removal }.leave running.id) := by
  have moved : Kept env { s with
      db := AudioService.commitRemoval s.db running.session now removal } := by
    refine kept.rows fun row member => ?_
    cases removal with
    | deletion => exact .inl (List.mem_of_mem_filter member)
    | purge marks =>
        cases marks with
        | false => exact .inl member
        | true =>
            obtain ⟨old, listed, rfl⟩ := List.mem_map.mp member
            split
            · exact .inr ⟨kept.placed old listed, fun stays => by cases stays⟩
            · exact .inl listed
  refine moved.leave fun operation present retires row member own stays => ?_
  obtain rfl : running = operation := Option.some.inj (found.symm.trans present)
  rw [stage] at retires
  cases removal with
  | deletion =>
      obtain ⟨-, apart⟩ := List.mem_filter.mp member
      simp [own] at apart
  | purge marks =>
      obtain rfl : marks = true := retires
      obtain ⟨old, -, rfl⟩ := List.mem_map.mp member
      split at own
      · rename_i marked
        rw [if_pos marked] at stays
        cases stays
      · rename_i other
        simp [own] at other

theorem kept_remove {path : AudioPath} {stage : AudioStage}
    (undisturbed : ∀ other ∈ (if reaction.succeeds && (s.files.read path).isSome then some path
      else none : Option AudioPath), Undisturbed s running other)
    (own : path.session = running.session)
    (retires : running.stage.retires = true → stage.retires = true)
    (holds : ∀ files, StageHolds env files running.session stage) :
    Kept env ({ s with
      files := if reaction.succeeds then s.files.unlink path else s.files }.enter
        running.id running.session stage) := by
  refine kept.onward found undisturbed (fun other untouched => ?_) retires (fun _ other touched => ?_)
    (holds _)
  · cases done : reaction.succeeds with
    | false => exact Files.unchanged_refl s.files other
    | true =>
        cases present : s.files.read path with
        | none => exact Files.unchanged_unlink_absent s.files present other
        | some content =>
            have apart : other ≠ path := by
              rintro rfl
              simp [done, present] at untouched
            exact Files.unchanged_unlink s.files apart
  · split at touched
    · rename_i removed
      cases touched
      obtain ⟨done, -⟩ := Bool.and_eq_true_iff.mp removed
      rw [done]
      exact ⟨Files.read_unlink s.files path, own⟩
    · cases touched

theorem kept_receiving {handle : Nat} {received rest : Bytes}
    (stage : running.stage = .receiving handle received rest)
    (undisturbed : ∀ path ∈ running.stage.touches running.session s.files reaction,
      Undisturbed s running path) : Kept env (s.advance env running reaction) := by
  have touched : running.stage.touches running.session s.files reaction =
      some (.raw running.session) := by rw [stage]; rfl
  have holds := kept.stages running.id running found
  have keeps : running.stage.retires = false := by rw [stage]; rfl
  rw [stage] at holds
  obtain ⟨file, content⟩ := holds
  unfold AudioService.advance
  simp only [stage]
  split
  · refine kept.proceed found keeps ?_
    exact (Files.read_eq_some s.files).mpr ⟨handle, file, content⟩
  · split
    · refine kept.proceed found keeps fun path member => ?_
      rcases List.mem_pair.mp member with rfl | rfl <;> rfl
    · refine kept.writes found keeps (undisturbed _ touched) (fun other apart => ?_) ⟨file, ?_⟩
      · rw [Files.write_eq_fill]
        exact Files.unchanged_fill s.files file _ apart
      · rw [Files.write_eq_fill]
        refine (Function.update_self _ _ _).trans ?_
        rw [content]
        exact Files.overwrite_end received _

theorem kept_begun {started : Started} (stage : running.stage = .begun started)
    (undisturbed : ∀ path ∈ running.stage.touches running.session s.files reaction,
      Undisturbed s running path) : Kept env (s.advance env running reaction) := by
  have keeps : running.stage.retires = false := by rw [stage]; rfl
  unfold AudioService.advance
  simp only [stage]
  split
  · exact (kept.markFailed running.session none).finish found keeps
  · rename_i present
    split
    · rename_i raw
      split
      · rename_i starts
        have touched : running.stage.touches running.session s.files reaction =
            some (.prepared running.session) := by
          have there : (s.files.read started.path).isSome = true := by
            simpa [Option.isSome_iff_ne_none] using present
          simp [stage, AudioStage.touches, there, raw, starts]
        exact kept.writes found keeps (undisturbed _ touched)
          (fun other apart => Files.unchanged_create s.files apart) (Files.file_create s.files _)
      · exact kept_reduceFailed kept found reaction keeps
    · exact kept.finish found keeps

theorem kept_encoding {durationSeconds : Option Int} {handle : Nat}
    (stage : running.stage = .encoding durationSeconds handle)
    (undisturbed : ∀ path ∈ running.stage.touches running.session s.files reaction,
      Undisturbed s running path) : Kept env (s.advance env running reaction) := by
  have holds := kept.stages running.id running found
  have keeps : running.stage.retires = false := by rw [stage]; rfl
  rw [stage] at holds
  unfold AudioService.advance
  simp only [stage]
  split
  · rename_i bytes written
    have touched : running.stage.touches running.session s.files reaction =
        some (.prepared running.session) := by
      simp [stage, AudioStage.touches, written]
    exact kept.writes found keeps (undisturbed _ touched)
      (fun other apart => Files.unchanged_fill s.files holds bytes apart) trivial
  · exact kept_reduceFailed kept found reaction keeps

theorem kept_measured {durationSeconds : Option Int} {prepared : PreparedAudioResult}
    (stage : running.stage = .measured durationSeconds prepared) :
    Kept env (s.advance env running reaction) := by
  have keeps : running.stage.retires = false := by rw [stage]; rfl
  unfold AudioService.advance
  simp only [stage]
  split
  · cases stored : storePreparedAudio running.session prepared durationSeconds s.db with
    | mk updated db =>
        have moved := kept_storePrepared kept found stage stored
        cases updated with
        | true =>
            refine moved.proceed found keeps fun path member => ?_
            rw [List.mem_singleton.mp member]
            rfl
        | false => exact (kept.markFailed running.session _).finish found keeps
  · exact kept.finish found keeps

theorem kept_advance (careful : Careful s (.advance running.id reaction)) :
    Kept env (s.advance env running reaction) := by
  have holds := kept.stages running.id running found
  obtain ⟨undisturbed, restorable⟩ := careful running found
  cases stage : running.stage with
  | checked body =>
      have keeps : running.stage.retires = false := by rw [stage]; rfl
      have touched : running.stage.touches running.session s.files reaction =
          some (.raw running.session) := by rw [stage]; rfl
      unfold AudioService.advance
      simp only [stage]
      exact kept.writes found keeps (undisturbed _ touched)
        (fun other apart => Files.unchanged_create s.files apart)
        ⟨Files.file_create s.files _, Files.content_create s.files _⟩
  | receiving handle received rest => exact kept_receiving kept found reaction stage undisturbed
  | received content =>
      have keeps : running.stage.retires = false := by rw [stage]; rfl
      unfold AudioService.advance
      simp only [stage]
      split
      · exact kept_commitUpload kept found reaction stage
      · exact kept.finish found keeps
  | begun started => exact kept_begun kept found reaction stage undisturbed
  | encoding durationSeconds handle => exact kept_encoding kept found reaction stage undisturbed
  | encoded durationSeconds =>
      have keeps : running.stage.retires = false := by rw [stage]; rfl
      unfold AudioService.advance
      simp only [stage]
      split
      · rename_i byte rest read
        exact kept.proceed found keeps ⟨_, read, rfl⟩
      · exact kept_reduceFailed kept found reaction keeps
  | hashed durationSeconds sha256 =>
      have keeps : running.stage.retires = false := by rw [stage]; rfl
      rw [stage] at holds
      obtain ⟨content, read, sha⟩ := holds
      unfold AudioService.advance
      simp only [stage, read]
      exact kept.proceed found keeps
        ⟨rfl, content, read, rfl, sha⟩
  | measured durationSeconds prepared => exact kept_measured kept found reaction stage
  | discarding paths failure =>
      have keeps : running.stage.retires = false := by rw [stage]; rfl
      rw [stage] at holds undisturbed
      unfold AudioService.advance
      simp only [stage]
      cases paths with
      | cons path paths =>
          exact kept_remove kept found reaction undisturbed (holds path List.mem_cons_self)
            (fun retires => by simp [keeps] at retires)
            fun _ other member => holds other (List.mem_cons_of_mem path member)
      | nil =>
          cases failure with
          | none => exact kept.finish found keeps
          | some reason => exact (kept.markFailed running.session _).finish found keeps
  | removing removal paths =>
      rw [stage] at holds undisturbed
      unfold AudioService.advance
      simp only [stage]
      cases paths with
      | cons path paths =>
          exact kept_remove kept found reaction undisturbed (holds path List.mem_cons_self)
            (fun retires => by rw [stage] at retires; exact retires)
            fun _ other member => holds other (List.mem_cons_of_mem path member)
      | nil =>
          dsimp only
          split
          · exact kept_commitRemoval kept found stage reaction.now
          · rename_i failed
            refine kept.leave fun operation present retires => ?_
            obtain rfl : running = operation := Option.some.inj (found.symm.trans present)
            refine restorable ?_
            rw [stage] at retires ⊢
            have retiring : removal.retires = true := retires
            simp [AudioStage.abandons, failed, retiring]

end Advance

theorem kept_step {env : Environment} {s : AudioService} (kept : Kept env s) {label : AudioLabel}
    (careful : Careful s label) : Kept env (s.step env label) := by
  cases label with
  | upload id auth session file =>
      simp only [AudioService.step]
      split
      · exact kept
      · exact kept_beginUpload kept ‹_› file
  | prepare id session =>
      simp only [AudioService.step]
      split
      · exact kept
      · exact kept_beginPreparation kept ‹_›
  | purge id auth session =>
      simp only [AudioService.step]
      split
      · exact kept
      · exact kept_beginPurge kept ‹_›
  | delete id auth session =>
      simp only [AudioService.step]
      split
      · exact kept
      · exact kept_beginDeletion kept ‹_›
  | advance id reaction =>
      simp only [AudioService.step]
      split
      · exact kept
      · rename_i running found
        obtain rfl : running.id = id := Table.key_of_get? found
        exact kept_advance kept found reaction careful
  | abort id => exact kept.leave careful
  | elsewhere db rq gone =>
      exact kept.rows fun row member => .inl (List.mem_of_mem_filter member)

/-! ## Runs -/

/-- In a run whose operations keep out of each other's way, every audio row that is not purged
describes its file whenever no operation on its session is under way. -/
theorem audio_rows_agree {env : Environment} {run : List AudioLabel}
    (careful : Along (AudioService.step env) Careful .initial run) :
    Visits (AudioService.step env) (AudioAgrees env) .initial run := by
  have along : Visits (AudioService.step env) (Kept env) .initial run :=
    Visits.of_invariant (fun _ _ kept ok => kept_step kept ok) (kept_initial env) careful
  exact along.weaken fun _ => Kept.audioAgrees

section Decide
variable (s : AudioService)

instance (operation : AudioOperation) (path : AudioPath) :
    Decidable (Undisturbed s operation path) := inferInstanceAs (Decidable (_ ∧ _))

instance (operation : AudioOperation) : Decidable (Restorable s operation) :=
  inferInstanceAs (Decidable (∀ row ∈ s.db.audioSources.rows, row.sessionId = operation.session →
    row.purgedAt = none → (s.files.read row.path).isSome = true ∨
      ∃ other ∈ s.operations.rows, other.id ≠ operation.id ∧ other.session = row.sessionId ∧
        other.stage.retires = true))

instance : (label : AudioLabel) → Decidable (Careful s label)
  | .advance operation reaction =>
      inferInstanceAs (Decidable (∀ running ∈ s.operations.get? operation,
        (∀ path ∈ running.stage.touches running.session s.files reaction,
          Undisturbed s running path) ∧
        (running.stage.abandons reaction = true → Restorable s running)))
  | .abort operation =>
      inferInstanceAs (Decidable (∀ running ∈ s.operations.get? operation,
        running.stage.retires = true → Restorable s running))
  | .upload _ _ _ _ | .prepare _ _ | .purge _ _ _ | .delete _ _ _ | .elsewhere _ _ _ =>
      inferInstanceAs (Decidable True)

end Decide

def audioStep (operation : Nat) : AudioLabel := .advance operation ⟨true, some [1], 0, none, ""⟩

def preparedRun : List AudioLabel :=
  .elsewhere createdDatabase .empty (fun _ => false) :: .upload 1 gameMaster 1 smallUpload ::
    List.replicate 4 (audioStep 1) ++ .prepare 2 1 :: List.replicate 7 (audioStep 2)

theorem audio_rows_agree_prepared :
    Visits (AudioService.step sampleEnvironment) (AudioAgrees sampleEnvironment) .initial
      preparedRun :=
  audio_rows_agree (by decide +kernel)

def tightEnvironment : Environment :=
  { sampleEnvironment with
    settings := { Settings.default with audioMaxUploadBytes := 1, audioMaxUploadBytes_pos := by decide } }

/-- Two uploads find a session without audio. The first is stored; the second truncates its file, is
too large, and removes it. -/
def overlappingRun : List AudioLabel :=
  .elsewhere createdDatabase .empty (fun _ => false) :: .upload 1 gameMaster 1 smallUpload ::
    .upload 2 gameMaster 1 ⟨some "audio/mp4", [0, 0]⟩ :: List.replicate 4 (audioStep 1) ++
      List.replicate 5 (audioStep 2)

theorem oversized_upload_removes_file :
    ¬Visits (AudioService.step tightEnvironment) (AudioAgrees tightEnvironment) .initial
      overlappingRun := by
  intro visits
  have lost : ((final (AudioService.step tightEnvironment) .initial
      overlappingRun).db.audioSources.get? 1).any (fun row => row.purgedAt.isNone &&
        ((final (AudioService.step tightEnvironment) .initial
          overlappingRun).files.read row.path).isNone) = true := by decide +kernel
  have idle : ∀ operation ∈ (final (AudioService.step tightEnvironment) .initial
      overlappingRun).operations.rows, operation.session ≠ 1 := by decide +kernel
  obtain ⟨row, found, facts⟩ := Option.any_eq_true _ _ |>.mp lost
  obtain ⟨stays, gone⟩ := Bool.and_eq_true_iff.mp facts
  obtain ⟨content, read, -⟩ := visits.final 1 row found (Option.isNone_iff_eq_none.mp stays) idle
  rw [read] at gone
  cases gone

end Proof

end Kaeyris
