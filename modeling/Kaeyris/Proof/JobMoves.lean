import Kaeyris.Proof.JobPrograms

/-!
# What a running job may change

Every transaction of a job, whenever it comes, does to the session of the job what `Transcribes` or
`Writes` allows, and nothing to any other one. The artifact jobs write nothing before they have
read.
-/

namespace Kaeyris.Proof
open Lib Jobs Process

/-! ## The transcription job -/

def transcriptionGuarantee (session : Uuid) (tx : Tx) : Database → Database → Prop :=
  OnSession session fun v v' => Transcribes v tx v'

theorem transcriptionGuarantee_of_views {session : Uuid} {tx : Tx} {db db' : Database}
    (reads : tx.writes = []) (same : ∀ other, view db' other = view db other) :
    transcriptionGuarantee session tx db db' :=
  ⟨fun other _ => same other, (same session).symm ▸ .nothing reads⟩

theorem transcriptionGuarantee_same {session : Uuid} {tx : Tx} (reads : tx.writes = [])
    (db : Database) : transcriptionGuarantee session tx db db :=
  transcriptionGuarantee_of_views reads fun _ => rfl

theorem transcriptionGuarantee_of_state {session : Uuid} {tx : Tx} {db db' : Database}
    {state : SessionState}
    (views : ∀ other, view db' other =
      if other = session then (view db other).inState state else view db other)
    (allowed : Transcribes (view db session) tx ((view db session).inState state)) :
    transcriptionGuarantee session tx db db' := by
  constructor
  · intro other apart
    rw [views, if_neg apart]
  · rw [views, if_pos rfl]
    exact allowed

theorem view_markFailed (db : Database) (session : Uuid) (reason : Option String) (other : Uuid) :
    view (markFailed db session reason) other =
      if other = session then (view db other).inState .transcriptionFailed else view db other := by
  rw [← view_updateState]
  unfold markFailed
  dsimp only
  split <;> rfl
section Transcription
variable {rely : Database → Prop} (session : Uuid)

theorem begins_guarantee {db db' : Database} {started : Started}
    (begins : beginTranscription session db = .ok (started, db')) :
    transcriptionGuarantee session .begin db db' := by
  obtain ⟨row, audio, -, present, none, -, rfl⟩ := beginTranscription_ok begins
  apply transcriptionGuarantee_of_state fun other => view_updateState db session other _
  apply Transcribes.begins
  unfold SessionRepository.getAudioSource at present
  unfold view
  rw [present, Option.map_some, none]

theorem updates_guarantee (db : Database) (prepared : PreparedAudioResult) (duration : Option Int) :
    transcriptionGuarantee session .updateAudio db
      (storePreparedAudio session prepared duration db).2 := by
  unfold storePreparedAudio
  split
  · rename_i updated
    exact transcriptionGuarantee_of_views rfl fun other =>
      view_updateAudioSourceFile db session other updated
  · exact transcriptionGuarantee_same rfl db

theorem persists_guarantee {settings : Settings} {mode : TranscriptionMode} {drawn : Uuid}
    {result : TranscriptionResult} {db db' : Database}
    (persisted : persistOutput settings session mode drawn result db = .ok ((), db')) :
    transcriptionGuarantee session .persist db db' := by
  apply transcriptionGuarantee_of_state _ .persists
  intro other
  cases mode with
  | diarised =>
      cases persisted
      exact view_updateState _ session other .transcribed
  | nonDiarised =>
      unfold persistOutput at persisted
      cases created : ChunkRepository.bulkCreateForSession db session
          (chunksOf settings result) drawn with
      | none => simp [created] at persisted
      | some created' =>
          simp only [created, Except.ok.injEq, Prod.mk.injEq, true_and] at persisted
          subst persisted
          unfold ChunkRepository.bulkCreateForSession at created
          obtain ⟨chunks, _, rfl⟩ := Option.map_eq_some_iff.mp created
          exact view_updateState _ session other .transcribed

theorem transcriptionSteps (env : Environment) :
    TranscriptionSteps env session rely (fun _ => True) (transcriptionGuarantee session) where
  reads := fun _ db reads _ => transcriptionGuarantee_same reads db
  fails := fun db reason _ =>
    transcriptionGuarantee_of_state (view_markFailed db session reason) .fails
  restores := fun db _ =>
    transcriptionGuarantee_of_state (fun other => view_updateState db session other _) .restores
  begins := fun _ _ _ _ begins => ⟨begins_guarantee session begins, trivial⟩
  updates := fun db prepared duration _ => updates_guarantee session db prepared duration
  persists := fun _ _ _ _ _ _ _ persisted => persists_guarantee session persisted

end Transcription

/-! ## Writing artifacts -/

def artifactGuarantee (kind : JobKind) (session : Uuid) (pjs : Uuid → Prop) (tx : Tx) :
    Database → Database → Prop :=
  OnSession session (Writes kind pjs tx)

theorem artifactGuarantee_same {kind : JobKind} {session : Uuid} {pjs : Uuid → Prop} {tx : Tx}
    (reads : tx.writes = []) (db : Database) : artifactGuarantee kind session pjs tx db db where
  left := fun _ _ => rfl
  right :=
    { rest := rfl
      within := fun _ _ => rfl
      written := fun target member => by simp [reads] at member
      unwritten := fun _ _ => .inr rfl }

theorem view_upsert (db : Database) (session : Uuid) (kind : ArtifactKind)
    (content : ArtifactContent) (modelUsed : Text) (other : Uuid) :
    view (ArtifactRepository.upsert db session kind content modelUsed) other =
      if other = session then
        (view db other).withArtifact kind ⟨session, kind, content, modelUsed, false, none⟩
      else view db other := by
  have cell (target : ArtifactKind) :
      ArtifactRepository.get (ArtifactRepository.upsert db session kind content modelUsed) other
          target =
        if (session, kind) = (other, target) then
          some ⟨session, kind, content, modelUsed, false, none⟩
        else ArtifactRepository.get db other target :=
    Table.get?_put db.artifacts ⟨session, kind, content, modelUsed, false, none⟩ (other, target)
  apply View.ext
  all_goals split
  all_goals first
    | rfl
    | skip
  · rename_i same
    subst same
    funext target
    refine (cell target).trans ?_
    by_cases named : target = kind
    · rw [if_pos (by rw [named])]
      exact (if_pos named).symm
    · rw [if_neg fun clash => named (congrArg Prod.snd clash).symm]
      exact (if_neg named).symm
  · rename_i apart
    funext target
    exact (cell target).trans (if_neg fun clash => apart (congrArg Prod.fst clash).symm)

theorem view_upsertAll (session : Uuid) (modelUsed : Text) (db : Database)
    (artifacts : List (ArtifactKind × ArtifactContent)) :
    (∀ other, other ≠ session → view (upsertAll session modelUsed db artifacts) other =
      view db other) ∧
    view (upsertAll session modelUsed db artifacts) session =
      { view db session with
        artifact := (view (upsertAll session modelUsed db artifacts) session).artifact } ∧
    ∀ target,
      if target ∈ artifacts.map Prod.fst then
        ∃ row, (view (upsertAll session modelUsed db artifacts) session).artifact target = some row ∧
          row.isEdited = false
      else (view (upsertAll session modelUsed db artifacts) session).artifact target =
        (view db session).artifact target := by
  induction artifacts generalizing db with
  | nil => exact ⟨fun _ _ => rfl, rfl, fun target => rfl⟩
  | cons head rest ih =>
      obtain ⟨kind, content⟩ := head
      obtain ⟨others, fields, cells⟩ :=
        ih (ArtifactRepository.upsert db session kind content modelUsed)
      have first := view_upsert db session kind content modelUsed
      refine ⟨fun other apart => ?_, ?_, fun target => ?_⟩
      · exact (others other apart).trans ((first other).trans (if_neg apart))
      · refine fields.trans ?_
        rw [first session, if_pos rfl]
        rfl
      · have later := cells target
        rw [first session, if_pos rfl] at later
        simp only [List.map_cons, List.mem_cons]
        by_cases again : target ∈ rest.map Prod.fst
        · rw [if_pos again] at later
          rw [if_pos (.inr again)]
          exact later
        · rw [if_neg again] at later
          by_cases named : target = kind
          · rw [if_pos (.inl named)]
            exact ⟨_, later.trans (if_pos named), rfl⟩
          · rw [if_neg (not_or.mpr ⟨named, again⟩)]
            exact later.trans (if_neg named)
theorem view_swapSummary (session : Uuid) (data : List ChunkDatum) (partials : List Text)
    (final modelUsed : Text) (db : Database) (other : Uuid) :
    view (swapSummary session data partials final modelUsed db) other =
      if other = session then
        { view db other with
          artifact := fun target =>
            if target = .summary then some ⟨session, .summary, .text final, modelUsed, false, none⟩
            else none }
      else view db other := by
  obtain ⟨chunks, swapped⟩ := swapSummary_eq session data partials final modelUsed db
  by_cases same : other = session
  · subst same
    rw [if_pos rfl]
    have cells (target : ArtifactKind) :=
      swapSummary_artifact other data partials final modelUsed db target
    rw [swapped] at cells ⊢
    exact View.ext rfl rfl rfl rfl rfl rfl (funext cells)
  · rw [if_neg same, swapped]
    apply View.ext
    all_goals first
      | rfl
      | skip
    funext target
    have kept := Table.get?_delete db.artifacts (isDerived session) (other, target)
    have put := Table.get?_put (db.artifacts.delete (isDerived session))
      ⟨session, .summary, .text final, modelUsed, false, none⟩ (other, target)
    rw [if_neg fun clash => same (congrArg Prod.fst clash).symm, kept] at put
    refine put.trans ?_
    change _ = db.artifacts.get? (other, target)
    cases present : db.artifacts.get? (other, target) with
    | none => rfl
    | some row =>
        have owner : row.sessionId = other := congrArg Prod.fst (Table.key_of_get? present)
        rw [Option.filter_some_pos]
        simp [isDerived, owner, same]

theorem writes_guarantee (session : Uuid) {kind : JobKind} {pjs : Uuid → Prop} (db : Database)
    (modelUsed : Text) (artifacts : List (ArtifactKind × ArtifactContent))
    (allowed : ∀ target ∈ artifacts.map Prod.fst, kind.produces pjs target) :
    artifactGuarantee kind session pjs (.writeArtifacts (artifacts.map Prod.fst)) db
      (upsertAll session modelUsed db artifacts) := by
  obtain ⟨others, fields, cells⟩ := view_upsertAll session modelUsed db artifacts
  refine ⟨others, fields, fun target outside => ?_, fun target member => ?_, fun target absent => ?_⟩
  · have cell := cells target
    rw [if_neg fun member => outside (JobKind.replaces_of_produces (allowed target member))] at cell
    exact cell
  · have named : target ∈ artifacts.map Prod.fst := member
    have cell := cells target
    rw [if_pos named] at cell
    exact ⟨allowed target named, cell⟩
  · have unnamed : target ∉ artifacts.map Prod.fst := absent
    have cell := cells target
    rw [if_neg unnamed] at cell
    exact .inr cell

theorem swaps_guarantee (session : Uuid) {pjs : Uuid → Prop} (data : List ChunkDatum) (db : Database)
    (partials : List Text) (final modelUsed : Text) :
    artifactGuarantee .summary session pjs (.writeArtifacts [.summary]) db
      (swapSummary session data partials final modelUsed db) := by
  have views := view_swapSummary session data partials final modelUsed db
  refine ⟨fun other apart => (views other).trans (if_neg apart), ?_⟩
  rw [views session, if_pos rfl]
  refine ⟨rfl, fun target outside => (outside trivial).elim, fun target member => ?_,
    fun target absent => ?_⟩
  · obtain rfl : target = .summary := List.mem_singleton.mp member
    exact ⟨rfl, ⟨session, .summary, .text final, modelUsed, false, none⟩, rfl, rfl⟩
  · exact .inl (if_neg fun same => absent (List.mem_singleton.mpr same))

section Artifacts
variable {rely : Database → Prop} (session : Uuid)

theorem artifactSteps (env : Environment) (kind : JobKind) (pjs : Uuid → Prop) :
    ArtifactSteps env session kind pjs rely (artifactGuarantee kind session pjs) where
  reads := fun _ db reads _ => artifactGuarantee_same reads db
  writes := fun db modelUsed artifacts _ _ allowed =>
    writes_guarantee session db modelUsed artifacts allowed
  swaps := fun _ data summary _ _ db partials final modelUsed _ =>
    summary ▸ swaps_guarantee session data db partials final modelUsed

theorem quiet_loadParticipants (env : Environment) :
    (generatePovs env session).QuietUntil (Tx.writes · = []) Tx.loadParticipants fun db rest =>
      rest.Guarantees rely
        (artifactGuarantee .povs session fun pj => pj ∈ (view db session).participants) :=
  ArtifactSteps.quiet_generatePovs fun _ => artifactSteps session env .povs _

/-! ## Nothing is written before the source is read -/

theorem sourceDocument_ok {env : Environment} {label : String} {db : Database}
    {source : Text × Option Text} (read : sourceDocument env session label db = .ok source) :
    (view db session).state = some .transcribed := by
  unfold sourceDocument at read
  split at read
  · cases read
  · rename_i row stored
    split at read
    · cases read
    · rename_i transcribed
      rw [(view_row stored).1, not_not.mp transcribed]

theorem loadChunkData_state {env : Environment} {db : Database} {data : List ChunkDatum}
    (read : loadChunkData env session db = .ok data) :
    (view db session).state = some .transcribed := by
  obtain ⟨row, stored, -, transcribed⟩ := loadChunkData_row read
  rw [(view_row stored).1, transcribed]

def EndsUnlessTranscribed (db : Database) (rest : JobBody Unit) : Prop :=
  (view db session).state ≠ some .transcribed → rest.finished = true

theorem quiet_reading {α : Type} {body : Database → Except Exn α} (f : α → JobBody Unit)
    (reads : ∀ db a, body db = .ok a → (view db session).state = some .transcribed) :
    ((reading Tx.loadSource body).bind f).QuietUntil (Tx.writes · = []) Tx.loadSource
      (EndsUnlessTranscribed session) := by
  apply QuietUntil.reading_mark (by rfl)
  intro db other
  cases read : body db with
  | error e => rfl
  | ok a => exact (other (reads db a read)).elim

theorem quiet_loadSource (env : Environment) {kind : JobKind} (artifact : kind.isArtifact) :
    (jobProgram env kind session).QuietUntil (Tx.writes · = []) Tx.loadSource
      (EndsUnlessTranscribed session) := by
  cases kind with
  | transcription => cases artifact
  | narrative => exact quiet_reading session _ fun db a => sourceDocument_ok session
  | elements => exact quiet_reading session _ fun db a => sourceDocument_ok session
  | summary => exact quiet_reading session _ fun db a => loadChunkData_state session
  | povs =>
      change (generatePovs env session).QuietUntil _ _ _
      rw [generatePovs_eq]
      have first : (reading Tx.loadParticipants (Jobs.loadParticipants session) :
          JobBody Participants).QuietUntil (Tx.writes · = []) Tx.loadSource fun _ _ => False :=
        QuietUntil.reading_other (by rfl) (by decide) _
      apply first.bind
      · exact fun db rest impossible => impossible.elim
      · exact fun participants => quiet_reading session _ fun db a => sourceDocument_ok session

end Artifacts

end Kaeyris.Proof