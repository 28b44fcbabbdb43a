import Kaeyris.Proof.Participants

/-!
# Manual edits

Regenerating an edited artifact needs `force`, and editing is refused while the session's current
job may still write. A session can have other jobs than the current one, and those nobody asks about.
-/

namespace Kaeyris.Proof
open Lib Jobs

/-- A step of a job requested without `force` leaves every edited artifact as it is. -/
def SparesEdits (env : Environment) (s : System) : Label → Prop
  | .advance job reaction => s.forced job = false →
      ∀ session kind row, ArtifactRepository.get s.db session kind = some row →
        row.isEdited = true →
          ArtifactRepository.get (s.step env (.advance job reaction)).db session kind = some row
  | _ => True

theorem not_sparesEdits {env : Environment} {s : System} {job : JobId}
    {reaction : Reaction effects} (session : Uuid) (kind : ArtifactKind)
    (unforced : s.forced job = false)
    (edited : (ArtifactRepository.get s.db session kind).any Artifact.isEdited = true)
    (lost : (ArtifactRepository.get (s.step env (.advance job reaction)).db session kind).any
      Artifact.isEdited = false) :
    ¬SparesEdits env s (.advance job reaction) := by
  intro spares
  obtain ⟨row, found, isEdited⟩ := (Option.any_eq_true _ _).mp edited
  have kept := spares unforced session kind row found isEdited
  rw [kept, Option.any_some, isEdited] at lost
  cases lost

def editingRun : Label → Bool
  | .request _ _ request =>
      match request with
      | .putSessionMapping _ | .postSessionPlayers _ | .deleteAudio _ | .restartTranscription =>
          false
      | _ => true
  | _ => true

/-- No edit is accepted while a job requested without `force` is active that writes or deletes what
is edited. -/
def NoEditUnderJob (env : Environment) (s : System) : Label → Prop
  | .request auth session request =>
      ∀ kind, Request.edits request = some kind →
        (∃ accepted, request.handle env s.db s.rq auth session = .ok accepted) →
          ∀ job row, s.rq.get? job = some row → row.sessionId = session →
            row.status.active = true → s.forced job = false →
              ¬row.func.replaces (· ∈ participants s.db session) kind
  | _ => True

/-! ## The invariant -/

/-- The participants are `pjs`, and no active job is to replace an edited artifact unasked. -/
structure EditInvariant (pjs : Uuid → Uuid → Prop) (s : System) : Prop where
  sound : Sound pjs s
  participants : ∀ session pj, pj ∈ (view s.db session).participants ↔ pjs session pj
  spared : ∀ job row, s.rq.get? job = some row → row.status.active = true → s.forced job = false →
    ∀ kind artifact, (view s.db row.sessionId).artifact kind = some artifact →
      artifact.isEdited = true → ¬row.func.replaces (pjs row.sessionId) kind

theorem regroups_of_considered {auth : AuthenticatedKey} {session : Uuid} {request : Request}
    (considered : editingRun (.request auth session request) = true) :
    Request.regroups request = false := by
  cases request with
  | putSessionMapping mapping => cases considered
  | postSessionPlayers payload => cases considered
  | restartTranscription => cases considered
  | _ => rfl

section Steps
variable {env : Environment} {pjs : Uuid → Uuid → Prop} {s : System}

theorem EditInvariant.within (inv : EditInvariant pjs s) : Within pjs s.db :=
  fun session pj => (inv.participants session pj).mp

theorem edit_bookkeeping (inv : EditInvariant pjs s) {label : Label}
    (kind : bookkeeping label = true) : EditInvariant pjs (s.step env label) := by
  have keeps : Bookkeeping env s (s.step env label) := bookkeeping_step inv.sound.linked kind
  refine ⟨sound_step env inv.sound inv.within label, ?_, ?_⟩
  · rw [keeps.db]
    exact inv.participants
  · intro job row' found active unforced
    obtain ⟨row, before, func, owner, active'⟩ := keeps.rq job row' found
    rw [keeps.db, func, owner]
    rw [keeps.forced] at unforced
    exact inv.spared job row before (active' active) unforced

theorem edit_request (inv : EditInvariant pjs s) {auth : AuthenticatedKey} {session : Uuid}
    {request : Request} (considered : editingRun (.request auth session request) = true)
    (ok : NoEditUnderJob env s (.request auth session request)) :
    EditInvariant pjs (s.step env (.request auth session request)) := by
  have sound := sound_step env inv.sound inv.within (.request auth session request)
  rw [System.step] at sound
  refine request_keeps inv fun accepted handled => ?_
  obtain ⟨⟨others, changes⟩, enqueues⟩ := handle_ok handled
  rw [request_ok handled] at sound ⊢
  refine ⟨sound, fun other pj => ?_, fun job row found active unforced kind artifact stored
    edited => ?_⟩
  · dsimp only
    by_cases own : other = session
    · subst own
      rw [changes_participants changes (regroups_of_considered considered)]
      exact inv.participants other pj
    · rw [others other own]
      exact inv.participants other pj
  · dsimp only at found unforced stored
    rcases enqueues_get? enqueues found with ⟨before, old⟩ | ⟨kind', enqueued, new, rfl⟩
    · rw [if_neg old] at unforced
      by_cases own : row.sessionId = session
      · rw [own] at stored
        rcases (changes_artifact changes stored).2 with earlier | ⟨named, -⟩
        · rw [← own] at earlier
          exact inv.spared job row before active unforced kind artifact earlier edited
        · intro replaced
          apply ok kind named ⟨accepted, handled⟩ job row before own active unforced
          refine JobKind.replaces_mono (fun pj allowed => ?_) replaced
          rw [participants_eq]
          exact (inv.participants session pj).mpr (own ▸ allowed)
      · rw [others _ own] at stored
        exact inv.spared job row before active unforced kind artifact stored edited
    · rw [if_pos new] at unforced
      intro replaced
      exact changes_guarded changes enqueued unforced stored edited
        (JobKind.replaces_mono (fun _ _ => trivial) replaced)

section Advance
variable {job : JobId} {a : Attempt} (running : s.attempts.get? job = some a)
  (reaction : Reaction effects)
include running

theorem edited_advance (inv : EditInvariant pjs s) {session : Uuid} {kind : ArtifactKind}
    {row : Artifact} (stored : (view (s.advance job reaction).db session).artifact kind = some row)
    (edited : row.isEdited = true) : (view s.db session).artifact kind = some row := by
  rcases inv.sound.commits running reaction inv.within with ⟨tx, -, change⟩ | ⟨-, same⟩
  · rcases jobGuarantee_stored change stored with before | ⟨-, -, -, unedited⟩
    · exact before
    · rw [edited] at unedited
      cases unedited
  · exact same ▸ stored

theorem spared_advance (inv : EditInvariant pjs s) : SparesEdits env s (.advance job reaction) := by
  intro unforced session kind artifact stored edited
  obtain ⟨row, found, started, func, owner⟩ := inv.sound.linked job a running
  have spared := inv.spared job row found (by rw [started]; rfl) unforced
  rw [owner, func] at spared
  rw [System.step]
  change (view (s.advance job reaction).db session).artifact kind = some artifact
  rcases inv.sound.commits running reaction inv.within with ⟨tx, -, change⟩ | ⟨-, same⟩
  · rw [jobGuarantee_spares change fun own => spared kind artifact (own ▸ stored) edited]
    exact stored
  · rw [same]
    exact stored

end Advance

theorem edit_advance (inv : EditInvariant pjs s) (job : JobId) (reaction : Reaction effects) :
    EditInvariant pjs (s.step env (.advance job reaction)) := by
  have sound := sound_step env inv.sound inv.within (.advance job reaction)
  rw [System.step] at sound
  refine advance_keeps inv fun a running => ?_
  have frame := inv.sound.advance_frame running reaction inv.within
  have rq : (s.advance job reaction).rq = s.rq := by rw [advance_eq running]
  have forced : (s.advance job reaction).forced = s.forced := by rw [advance_eq running]
  refine ⟨sound, fun session pj => ?_, fun other row found active unforced kind artifact stored
    edited => ?_⟩
  · rw [participants_frame (frame session)]
    exact inv.participants session pj
  · rw [rq] at found
    rw [forced] at unforced
    exact inv.spared other row found active unforced kind artifact
      (edited_advance running reaction inv stored edited) edited

theorem edit_step (inv : EditInvariant pjs s) {label : Label}
    (considered : editingRun label = true) (ok : NoEditUnderJob env s label) :
    EditInvariant pjs (s.step env label) := by
  cases label with
  | request auth session request => exact edit_request inv considered ok
  | advance job reaction => exact edit_advance inv job reaction
  | _ => exact edit_bookkeeping inv rfl

theorem sparesEdits_of_invariant (inv : EditInvariant pjs s) (label : Label) :
    SparesEdits env s label := by
  cases label with
  | advance job reaction =>
      cases running : s.attempts.get? job with
      | none =>
          intro _ session kind row stored _
          rw [System.step, advance_none running]
          exact stored
      | some a => exact spared_advance running reaction inv
  | _ => trivial

end Steps

/-- In every run without changes of participants and without resets, in which no edit is accepted
under a job that will replace it, no job requested without `force` touches an edited artifact. -/
theorem edits_spared (env : Environment) {db : Database} {run : List Label}
    (considered : ∀ label ∈ run, editingRun label = true)
    (along : Along (System.step env) (NoEditUnderJob env) (System.initial db) run) :
    Along (System.step env) (SparesEdits env) (System.initial db) run := by
  have initial : EditInvariant (fun session pj => pj ∈ (view db session).participants)
      (System.initial db) :=
    { sound := sound_initial _ db
      participants := fun _ _ => Iff.rfl
      spared := fun _ _ found => by cases found }
  refine Along.of_invariant ?_ ?_ initial (along.within considered)
  · exact fun s label inv ok => edit_step inv ok.2 ok.1
  · exact fun s label inv _ => sparesEdits_of_invariant inv label

/-! ## An edit before another job -/

def editedRun : List Label :=
  .request gameMaster 1 (.postElements false) :: .start 1 ::
      List.replicate 5 (.advance 1 obliging) ++
    [.settle 1, .request gameMaster 1 (.putElements [⟨['a'], ['b'], ['c']⟩] false),
      .request gameMaster 1 (.postNarrative false), .start 2] ++
      List.replicate 5 (.advance 2 obliging)

def asksIdle (s : System) : Label → Bool
  | .request _ _ _ => s.rq.rows.all fun row => !row.status.active
  | _ => true

theorem noEditUnderJob_of_idle {env : Environment} {s : System} {label : Label}
    (idle : asksIdle s label = true) : NoEditUnderJob env s label := by
  cases label with
  | request auth session request =>
      intro kind _ _ job row found _ active
      have ended := List.all_eq_true.mp idle row (Table.mem_of_get? found)
      rw [active] at ended
      cases ended
  | _ => trivial

theorem edits_spared_elements :
    Along (System.step sampleEnvironment) (SparesEdits sampleEnvironment)
        (System.initial playedDatabase) editedRun ∧
      let last := final (System.step sampleEnvironment) (System.initial playedDatabase) editedRun
      (ArtifactRepository.get last.db 1 .elements).map Artifact.isEdited = some true ∧
        (ArtifactRepository.get last.db 1 .narrative).isSome = true := by
  have idle : Along (System.step sampleEnvironment) (fun s label => asksIdle s label = true)
      (System.initial playedDatabase) editedRun := by decide +kernel
  have along := idle.weaken fun _ _ => @noEditUnderJob_of_idle sampleEnvironment _ _
  exact ⟨edits_spared sampleEnvironment (by decide) along, by decide +kernel⟩

/-- The elements are requested again and then the narrative, which becomes the current job; when it
has ended the elements are edited, and the job requested before it overwrites them. -/
theorem edit_lost_to_earlier_job : ¬Along (System.step sampleEnvironment)
    (SparesEdits sampleEnvironment) (System.initial playedDatabase)
    ((.request gameMaster 1 (.postElements false) :: .start 1 ::
        List.replicate 5 (.advance 1 obliging) ++
      [.settle 1, .request gameMaster 1 (.postElements false),
        .request gameMaster 1 (.postNarrative false), .start 3] ++
        List.replicate 5 (.advance 3 obliging) ++
      [.settle 3, .request gameMaster 1 (.putElements [⟨['a'], ['b'], ['c']⟩] false), .start 2] ++
        List.replicate 4 (.advance 2 obliging)) ++ [.advance 2 obliging]) := by
  intro along
  exact not_sparesEdits 1 .elements (by decide +kernel) (by decide +kernel) (by decide +kernel)
    along.at_split

end Kaeyris.Proof
