import Kaeyris.Lifecycle
import Kaeyris.Proof.Holdings
import Kaeyris.Proof.Steps

/-!
# Sessions keep to their mode and to their game master's characters

Every row that a session holds fits the session as it was created. Requests check this when they
write; what a running job will write fits because the session keeps its mode and because whoever
took part when the job looked was owned by the game master then, and still is.
-/

namespace Kaeyris.Proof
open Lib Jobs Process Platform

/-! ## Characters and sessions stay what they are -/

theorem Owns.congr {row row' : Session} {character : Pj}
    (same : fixedColumns row' = fixedColumns row) (owns : Owns row character) :
    Owns row' character := by
  simp only [fixedColumns, Prod.mk.injEq] at same
  exact ⟨same.1 ▸ owns.1, fun campaign inside => owns.2 campaign (same.2.1 ▸ inside)⟩

/-- No character is deleted or changes hands. -/
def KeepsPjs (db db' : Database) : Prop :=
  ∀ pj character, db.pjs.get? pj = some character → ∃ character',
    db'.pjs.get? pj = some character' ∧ character'.ownerGmKeyId = character.ownerGmKeyId ∧
      character'.campaignId = character.campaignId

theorem KeepsPjs.of_eq {db db' : Database} (same : db'.pjs = db.pjs) : KeepsPjs db db' :=
  fun _ character found => ⟨character, same ▸ found, rfl, rfl⟩

section Kept
variable {db db' : Database} (kept : KeepsPjs db db') {row row' : Session}
include kept

theorem KeepsPjs.owned {pj : Uuid} (same : fixedColumns row' = fixedColumns row)
    (owned : Owned db row pj) : Owned db' row' pj := by
  obtain ⟨character, found, owns⟩ := owned
  obtain ⟨character', found', owner, campaign⟩ := kept pj character found
  refine ⟨character', found', Owns.congr same ⟨owner.trans owns.1, fun inside listed => ?_⟩⟩
  exact campaign.trans (owns.2 inside listed)

theorem KeepsPjs.fits {holding : Holding} (same : fixedColumns row' = fixedColumns row)
    (fits : Fits db row holding) : Fits db' row' holding where
  suits := by
    have mode : row'.transcriptionMode = row.transcriptionMode := congrArg (fun c => c.2.2) same
    exact mode ▸ fits.suits
  named := fun pj named => kept.owned same (fits.named pj named)

end Kept

/-! ## The invariant -/

/-- What an attempt will still write fits its session. A povs job is bounded once it has read who
takes part. -/
def WritesFitting (s : Platform) (a : Attempt) : Prop :=
  ∃ first, s.created.get? a.session = some first ∧
    ((∃ pjs : Uuid → Prop, (∀ pj, pjs pj → Owned s.system.db first pj) ∧
      a.program.Guarantees (InMode first.transcriptionMode a.session)
        (jobAdds a.kind first.transcriptionMode pjs a.session)) ∨
    a.program.QuietUntil (Tx.writes · = []) Tx.loadParticipants fun db rest =>
      rest.Guarantees (InMode first.transcriptionMode a.session)
        (jobAdds a.kind first.transcriptionMode (· ∈ (view db a.session).participants) a.session))

/-- A transcribed session that is diarised has its transcription. -/
def TranscriptsStored (db : Database) : Prop :=
  ∀ id row, db.sessions.get? id = some row → row.state = .transcribed →
    row.transcriptionMode = .diarised → Has db id .transcription

def Registered (s : Platform) (id : Uuid) : Prop := ∃ first, s.created.get? id = some first

structure Founded (s : Platform) : Prop where
  sound : Sound (fun _ _ => True) s.system
  present : ∀ id row, s.system.db.sessions.get? id = some row →
    ∃ first, s.created.get? id = some first ∧ fixedColumns row = fixedColumns first
  held : ∀ id holding, Has s.system.db id holding →
    ∃ first, s.created.get? id = some first ∧ Fits s.system.db first holding
  seated : ∀ id pj, Has s.system.db id (.mapping pj) ∨ Has s.system.db id (.player pj) →
    ∃ row, s.system.db.sessions.get? id = some row
  queued : ∀ job row, s.system.rq.get? job = some row → Registered s row.sessionId
  running : ∀ job a, s.system.attempts.get? job = some a → WritesFitting s a
  transcripts : TranscriptsStored s.system.db

theorem founded_initial : Founded .initial where
  sound := sound_initial _ _
  present := fun _ _ found => by cases found
  held := fun id holding held => by
    cases holding <;> obtain ⟨_, member, _⟩ := held <;> cases member
  seated := fun id pj held => by
    rcases held with ⟨_, member, _⟩ | ⟨_, member, _⟩ <;> cases member
  queued := fun _ _ found => by cases found
  running := fun _ _ found => by cases found
  transcripts := fun _ _ found => by cases found

theorem Founded.columns {s : Platform} (founded : Founded s) {id : Uuid} {first row : Session}
    (recorded : s.created.get? id = some first) (stored : s.system.db.sessions.get? id = some row) :
    fixedColumns row = fixedColumns first := by
  obtain ⟨first', recorded', same⟩ := founded.present id row stored
  obtain rfl : first = first' := Option.some.inj (recorded.symm.trans recorded')
  exact same

theorem Founded.fits {s : Platform} (founded : Founded s) {id : Uuid} {first : Session}
    {holding : Holding} (recorded : s.created.get? id = some first)
    (held : Has s.system.db id holding) : Fits s.system.db first holding := by
  obtain ⟨first', recorded', fits⟩ := founded.held id holding held
  obtain rfl : first = first' := Option.some.inj (recorded.symm.trans recorded')
  exact fits

section Adds
variable {s : Platform} {allowed : Holding → Prop} {drops : Prop} {session : Uuid} {db' : Database}

theorem AddsOnly.row (step : AddsOnly allowed drops session s.system.db db') {id : Uuid} {row' : Session}
    (found : db'.sessions.get? id = some row') :
    ∃ row, s.system.db.sessions.get? id = some row ∧ fixedColumns row' = fixedColumns row := by
  have same := step.sessions id
  rw [found] at same
  obtain ⟨row, before, columns⟩ := Option.map_eq_some_iff.mp same.symm
  exact ⟨row, before, columns.symm⟩

theorem Founded.adds (founded : Founded s) (step : AddsOnly allowed drops session s.system.db db')
    {first : Session} (registered : s.created.get? session = some first)
    (fits : ∀ holding, allowed holding → Fits s.system.db first holding)
    (seats : ∀ pj, allowed (.mapping pj) ∨ allowed (.player pj) →
      ∃ row, s.system.db.sessions.get? session = some row) :
    (∀ id row, db'.sessions.get? id = some row →
      ∃ first, s.created.get? id = some first ∧ fixedColumns row = fixedColumns first) ∧
    (∀ id holding, Has db' id holding →
      ∃ first, s.created.get? id = some first ∧ Fits db' first holding) ∧
    ∀ id pj, Has db' id (.mapping pj) ∨ Has db' id (.player pj) →
      ∃ row, db'.sessions.get? id = some row := by
  have kept : KeepsPjs s.system.db db' := .of_eq step.pjs
  have stays {id : Uuid} (there : ∃ row, s.system.db.sessions.get? id = some row) :
      ∃ row, db'.sessions.get? id = some row := by
    obtain ⟨row, found⟩ := there
    have same := step.sessions id
    rw [found] at same
    obtain ⟨row', after, -⟩ := Option.map_eq_some_iff.mp same
    exact ⟨row', after⟩
  refine ⟨fun id row' found => ?_, fun id holding held => ?_, fun id pj held => ?_⟩
  · obtain ⟨row, before, columns⟩ := AddsOnly.row step found
    obtain ⟨first, recorded, same⟩ := founded.present id row before
    exact ⟨first, recorded, columns.trans same⟩
  · rcases step.holdings id holding held with before | ⟨rfl, added⟩
    · obtain ⟨first, recorded, fit⟩ := founded.held id holding before
      exact ⟨first, recorded, kept.fits rfl fit⟩
    · exact ⟨first, registered, kept.fits rfl (fits holding added)⟩
  · rcases held with mapped | played
    · rcases step.holdings id _ mapped with before | ⟨rfl, added⟩
      · exact stays (founded.seated id pj (.inl before))
      · exact stays (seats pj (.inl added))
    · rcases step.holdings id _ played with before | ⟨rfl, added⟩
      · exact stays (founded.seated id pj (.inr before))
      · exact stays (seats pj (.inr added))

end Adds

/-! ## Jobs -/

section Attempts
variable {s : Platform} {a : Attempt}

theorem WritesFitting.mono {s' : Platform} (fitting : WritesFitting s a)
    (recorded : ∀ id first, s.created.get? id = some first → s'.created.get? id = some first)
    (kept : KeepsPjs s.system.db s'.system.db) : WritesFitting s' a := by
  obtain ⟨first, registered, bounded⟩ := fitting
  refine ⟨first, recorded _ _ registered, bounded.imp_left fun ⟨pjs, owned, writes⟩ => ?_⟩
  exact ⟨pjs, fun pj listed => kept.owned rfl (owned pj listed), writes⟩

theorem writesFitting_start (env : Environment) (job : JobId) (kind : JobKind) {session : Uuid}
    (registered : Registered s session) :
    WritesFitting s ⟨job, kind, session, jobProgram env kind session, none, none⟩ := by
  obtain ⟨first, recorded⟩ := registered
  refine ⟨first, recorded, ?_⟩
  by_cases povs : kind = .povs
  · subst povs
    exact .inr (ArtifactSteps.quiet_generatePovs fun _ => artifactSteps_adds env)
  · exact .inl ⟨fun _ => False, fun _ => False.elim, guarantees_jobAdds env povs⟩

def StepFits (s : Platform) (a : Attempt) (reaction : Reaction effects) (first : Session) : Prop :=
  (∃ tx pjs, (∀ pj, pjs pj → Owned s.system.db first pj) ∧ a.program.commits reaction = some tx ∧
    jobAdds a.kind first.transcriptionMode pjs a.session tx s.system.db
      (a.program.step reaction s.system.db).2) ∨
  (a.program.step reaction s.system.db).2 = s.system.db

theorem fits_of_jobAdds {db : Database} {kind : JobKind} {first : Session} {pjs : Uuid → Prop}
    {holding : Holding} (owned : ∀ pj, pjs pj → Owned db first pj)
    (added : JobKind.adds kind first.transcriptionMode pjs holding) : Fits db first holding := by
  cases holding with
  | chunks => exact ⟨added.2, fun pj named => named.elim⟩
  | transcription => exact ⟨added.2, fun pj named => named.elim⟩
  | mapping pj | player pj => exact added.elim
  | artifact target =>
      obtain ⟨produced, summary⟩ := added
      cases target with
      | summary => exact ⟨summary rfl, fun pj named => named.elim⟩
      | narrative | elements => exact ⟨trivial, fun pj named => named.elim⟩
      | pov pj =>
          refine ⟨trivial, fun named same => ?_⟩
          obtain rfl : pj = named := same
          cases kind with
          | povs => exact owned pj produced
          | _ => cases produced

theorem participants_owned (founded : Founded s) {session : Uuid} {first : Session}
    (recorded : s.created.get? session = some first) {pj : Uuid}
    (part : pj ∈ (view s.system.db session).participants) : Owned s.system.db first pj := by
  have held : Has s.system.db session (.mapping pj) ∨ Has s.system.db session (.player pj) := by
    unfold View.participants at part
    split at part
    · cases part
    · obtain ⟨row, member, rfl⟩ := List.mem_map.mp part
      unfold MappingRepository.getForSession at member
      rw [List.mem_insertionSort] at member
      obtain ⟨listed, own⟩ := List.mem_filter.mp member
      exact .inl ⟨row, listed, by simpa using own, rfl⟩
    · obtain ⟨row, member, rfl⟩ := List.mem_map.mp part
      obtain ⟨listed, own⟩ := List.mem_filter.mp member
      exact .inr ⟨row, listed, by simpa using own, rfl⟩
  rcases held with mapped | played
  · exact (founded.fits recorded mapped).named pj rfl
  · exact (founded.fits recorded played).named pj rfl

theorem writesFitting_advance (founded : Founded s) {job : JobId}
    (found : s.system.attempts.get? job = some a) (reaction : Reaction effects) :
    ∃ first, s.created.get? a.session = some first ∧ StepFits s a reaction first ∧
      WritesFitting s (System.observe s.system a (a.program.commits reaction)
        (a.program.step reaction s.system.db).1) := by
  obtain ⟨first, recorded, bounded⟩ := founded.running job a found
  have inMode : InMode first.transcriptionMode a.session s.system.db := by
    intro row stored
    exact congrArg (fun c => c.2.2) (founded.columns recorded stored)
  refine ⟨first, recorded, ?_⟩
  rcases bounded with ⟨pjs, owned, writes⟩ | quiet
  · obtain ⟨rest, step⟩ := writes.step reaction s.system.db inMode
    refine ⟨?_, first, recorded, .inl ⟨pjs, owned, rest⟩⟩
    rcases step with ⟨tx, commits, change⟩ | ⟨-, same⟩
    · exact .inl ⟨tx, pjs, owned, commits, change⟩
    · exact .inr same
  · obtain ⟨same, -, before, after⟩ := quiet.step reaction s.system.db
    refine ⟨.inr same, first, recorded, ?_⟩
    by_cases marked : a.program.commits reaction = some .loadParticipants
    · exact .inl ⟨_, fun pj part => participants_owned founded recorded part, after marked⟩
    · exact .inr (before marked)

end Attempts

/-! ## The steps of the machine within -/

section System
variable {env : Environment} {s : Platform}

theorem transcripts_kept (founded : Founded s) {db' : Database} {adds : Holding → Prop} {drops : Prop}
    {session : Uuid} (step : AddsOnly adds drops session s.system.db db')
    {id : Uuid} {row' : Session} (found : db'.sessions.get? id = some row')
    (before : (view s.system.db id).state = some .transcribed)
    (diarised : row'.transcriptionMode = .diarised) (keeps : ¬(id = session ∧ drops)) :
    Has db' id .transcription := by
  obtain ⟨row, stored, columns⟩ := AddsOnly.row step found
  have mode : row'.transcriptionMode = row.transcriptionMode := congrArg (fun c => c.2.2) columns
  have state : row.state = .transcribed := by
    rw [(view_row stored).1] at before
    exact Option.some.inj before
  have held := founded.transcripts id row stored state (mode ▸ diarised)
  exact (step.transcription id held).resolve_right keeps

theorem founded_bookkeeping (founded : Founded s) {label : Kaeyris.Label}
    (kind : bookkeeping label = true) :
    Founded { s with system := s.system.step env label } := by
  have keeps : Bookkeeping env s.system (s.system.step env label) :=
    bookkeeping_step founded.sound.linked kind
  have db : (s.system.step env label).db = s.system.db := keeps.db
  refine ⟨sound_step env founded.sound (within_trivial _) label, ?_, ?_, ?_, fun job row' found => ?_,
    fun job a found => ?_, ?_⟩
  · exact db ▸ founded.present
  · exact db ▸ founded.held
  · exact db ▸ founded.seated
  · obtain ⟨row, before, -, session, -⟩ := keeps.rq job row' found
    exact session ▸ founded.queued job row before
  · have kept : KeepsPjs s.system.db (s.system.step env label).db := .of_eq (by rw [db])
    rcases keeps.attempts job a found with before | ⟨row, queued, rfl⟩
    · exact (founded.running job a before).mono (fun _ _ recorded => recorded) kept
    · exact (writesFitting_start env job row.func (founded.queued job row queued)).mono
        (fun _ _ recorded => recorded) kept
  · exact db ▸ founded.transcripts

theorem founded_request (founded : Founded s) (auth : AuthenticatedKey) (session : Uuid)
    (request : Request) :
    Founded { s with system := s.system.step env (.request auth session request) } := by
  have sound := sound_step env founded.sound (within_trivial _) (.request auth session request)
  rw [System.step] at sound
  refine request_keeps (P := fun t => Founded { s with system := t }) founded
    fun accepted handled => ?_
  obtain ⟨⟨others, changes⟩, enqueues⟩ := handle_ok handled
  obtain ⟨step, row, stored, fits⟩ := handle_adds handled
  obtain ⟨first, recorded, columns⟩ := founded.present session row stored
  have kept : KeepsPjs s.system.db accepted.db := .of_eq step.pjs
  obtain ⟨present, held, seated⟩ := founded.adds step recorded
    (fun holding added => (KeepsPjs.of_eq rfl).fits columns.symm (fits holding added))
    fun _ _ => ⟨row, stored⟩
  rw [request_ok handled] at sound ⊢
  refine ⟨sound, present, held, seated, fun job queued found => ?_, fun job a found => ?_, ?_⟩
  · rcases enqueues_get? enqueues found with ⟨before, -⟩ | ⟨kind, -, -, rfl⟩
    · exact founded.queued job queued before
    · exact ⟨first, recorded⟩
  · exact (founded.running job a found).mono (fun _ _ recorded => recorded) kept
  · intro id row' found transcribed diarised
    have after : (view accepted.db id).state = some .transcribed := by
      rw [(view_row found).1, transcribed]
    by_cases own : id = session
    · subst own
      refine transcripts_kept founded step found (changes_to_transcribed changes after) diarised ?_
      exact fun dropped => changes_reset changes dropped.2 after
    · rw [others id own] at after
      exact transcripts_kept founded step found after diarised fun dropped => own dropped.1

theorem founded_advance (founded : Founded s) (job : JobId) (reaction : Reaction effects) :
    Founded { s with system := s.system.step env (.advance job reaction) } := by
  have sound := sound_step env founded.sound (within_trivial _) (.advance job reaction)
  have reach (id : Uuid) := @transcribed_step env s.system founded.sound (.advance job reaction) id
  simp only [System.step] at sound reach
  refine advance_keeps (P := fun t => Founded { s with system := t }) founded fun a found => ?_
  obtain ⟨first, recorded, step, fitting⟩ := writesFitting_advance founded found reaction
  have db : (s.system.advance job reaction).db = (a.program.step reaction s.system.db).2 := by
    rw [advance_eq found]
  have running (kept : KeepsPjs s.system.db (s.system.advance job reaction).db) (other : JobId)
      (b : Attempt) (after : (s.system.advance job reaction).attempts.get? other = some b) :
      WritesFitting { s with system := s.system.advance job reaction } b := by
    rw [attempts_advance found] at after
    split at after
    · cases after
      exact fitting.mono (fun _ _ recorded => recorded) kept
    · exact (founded.running other b after).mono (fun _ _ recorded => recorded) kept
  have queued (other : JobId) (row : RqJob)
      (after : (s.system.advance job reaction).rq.get? other = some row) :
      Registered s row.sessionId := by
    rw [advance_eq found] at after
    exact founded.queued other row after
  rcases step with ⟨tx, pjs, owned, commits, step, persists⟩ | same
  · rw [← db] at step persists
    have kept : KeepsPjs s.system.db (s.system.advance job reaction).db := .of_eq step.pjs
    obtain ⟨present, held, seated⟩ := founded.adds step recorded
      (fun holding added => fits_of_jobAdds owned added)
      fun pj added => by rcases added with none | none <;> exact none.elim
    refine ⟨sound, present, held, seated, queued, running kept, ?_⟩
    intro id row' stored transcribed diarised
    have after : (view (s.system.advance job reaction).db id).state = some .transcribed := by
      rw [(view_row stored).1, transcribed]
    rcases reach id after with before | ⟨_, _, b, same, found', persist, rfl⟩
    · exact transcripts_kept founded step stored before diarised fun dropped => dropped.2
    · cases same
      obtain rfl : a = b := Option.some.inj (found.symm.trans found')
      obtain rfl : tx = .persist := Option.some.inj (commits.symm.trans persist)
      obtain ⟨first', recorded', columns⟩ := present a.session row' stored
      obtain rfl : first = first' := Option.some.inj (recorded.symm.trans recorded')
      have mode : row'.transcriptionMode = first.transcriptionMode :=
        congrArg (fun c => c.2.2) columns
      rcases persists rfl (mode.symm.trans diarised) with stays | same
      · exact stays
      · rw [same] at stored ⊢
        exact founded.transcripts a.session row' stored transcribed diarised
  · rw [same] at db
    refine ⟨sound, ?_, ?_, ?_, queued, running (.of_eq (by rw [db])), ?_⟩
    · exact db ▸ founded.present
    · exact db ▸ founded.held
    · exact db ▸ founded.seated
    · exact db ▸ founded.transcripts

theorem founded_system (founded : Founded s) (label : Kaeyris.Label) :
    Founded { s with system := s.system.step env label } := by
  by_cases kind : bookkeeping label = true
  · exact founded_bookkeeping founded kind
  · cases label with
    | request auth session request => exact founded_request founded auth session request
    | advance job reaction => exact founded_advance founded job reaction
    | _ => exact (kind rfl).elim

end System

/-! ## The routes beside it -/

section Routes
variable {env : Environment} {s s' : Platform}

theorem Founded.manage (founded : Founded s) (linked : Linked s'.system)
    (attempts : ∀ job a, s'.system.attempts.get? job = some a →
      s.system.attempts.get? job = some a)
    (queue : ∀ job row', s'.system.rq.get? job = some row' →
      ∃ row, s.system.rq.get? job = some row ∧ row'.sessionId = row.sessionId)
    (recorded : ∀ id first, s.created.get? id = some first → s'.created.get? id = some first)
    (kept : KeepsPjs s.system.db s'.system.db)
    (present : ∀ id row, s'.system.db.sessions.get? id = some row →
      ∃ first, s'.created.get? id = some first ∧ fixedColumns row = fixedColumns first)
    (held : ∀ id holding, Has s'.system.db id holding → Has s.system.db id holding)
    (seated : ∀ id pj, Has s'.system.db id (.mapping pj) ∨ Has s'.system.db id (.player pj) →
      ∃ row, s'.system.db.sessions.get? id = some row)
    (transcripts : TranscriptsStored s'.system.db) : Founded s' where
  sound := by
    refine ⟨linked, fun job a found => founded.sound.behaves job a (attempts job a found)⟩
  present := present
  held := fun id holding now => by
    obtain ⟨first, registered, fits⟩ := founded.held id holding (held id holding now)
    exact ⟨first, recorded id first registered, kept.fits rfl fits⟩
  seated := seated
  queued := fun job row' found => by
    obtain ⟨row, before, same⟩ := queue job row' found
    obtain ⟨first, registered⟩ := founded.queued job row before
    exact ⟨first, same ▸ recorded _ first registered⟩
  running := fun job a found => (founded.running job a (attempts job a found)).mono recorded kept
  transcripts := transcripts

theorem Founded.withDb (founded : Founded s) {db : Database} (kept : KeepsPjs s.system.db db)
    (held : ∀ id holding, Has db id holding ↔ Has s.system.db id holding)
    (sessions : ∀ id row, db.sessions.get? id = some row → ∃ before,
      s.system.db.sessions.get? id = some before ∧ fixedColumns row = fixedColumns before ∧
        row.state = before.state)
    (stays : ∀ id row, s.system.db.sessions.get? id = some row →
      ∃ after, db.sessions.get? id = some after) :
    Founded { s with system := { s.system with db := db } } := by
  refine founded.manage founded.sound.linked (fun _ _ found => found)
    (fun _ row found => ⟨row, found, rfl⟩) (fun _ _ found => found) kept (fun id row found => ?_)
    (fun id holding => (held id holding).mp) (fun id pj now => ?_)
    (fun id row found transcribed diarised => ?_)
  · obtain ⟨before, stored, columns, -⟩ := sessions id row found
    obtain ⟨first, registered, same⟩ := founded.present id before stored
    exact ⟨first, registered, columns.trans same⟩
  · obtain ⟨row, stored⟩ := founded.seated id pj (now.imp (held id _).mp (held id _).mp)
    exact stays id row stored
  · obtain ⟨before, stored, columns, state⟩ := sessions id row found
    have mode : row.transcriptionMode = before.transcriptionMode :=
      congrArg (fun c => c.2.2) columns
    exact (held id _).mpr (founded.transcripts id before stored (state ▸ transcribed)
      (mode ▸ diarised))

theorem founded_patchSession (founded : Founded s) (auth : AuthenticatedKey) (session : Uuid)
    (payload : SessionUpdate) :
    Founded (s.commit (Router.patchSession payload s.system.db auth session)) := by
  cases patched : Router.patchSession payload s.system.db auth session with
  | error e => exact founded
  | ok db =>
      obtain ⟨_, -, patched⟩ := except_bind_ok patched
      obtain ⟨row, -, patched⟩ := except_bind_ok patched
      split at patched
      · cases patched
        exact founded
      · rename_i context _
        cases patched
        refine founded.withDb (.of_eq rfl) (fun id holding => by cases holding <;> exact Iff.rfl)
          (fun id after found => ?_) fun id before found => ?_
        · have updated := Table.get?_update_key s.system.db.sessions row.id
            (fun row => { row with campaignContext := context }) (fun _ => rfl) id
          rw [show (SessionRepository.updateCampaignContext s.system.db row.id
            context).sessions.get? id = _ from updated] at found
          split at found
          · obtain ⟨before, stored, rfl⟩ := Option.map_eq_some_iff.mp found
            exact ⟨before, stored, rfl, rfl⟩
          · exact ⟨after, found, rfl, rfl⟩
        · have updated := Table.get?_update_key s.system.db.sessions row.id
            (fun row => { row with campaignContext := context }) (fun _ => rfl) id
          rw [show (SessionRepository.updateCampaignContext s.system.db row.id
            context).sessions.get? id = _ from updated, found]
          split
          · exact ⟨_, rfl⟩
          · exact ⟨_, rfl⟩

theorem founded_createPj (founded : Founded s) (auth : AuthenticatedKey) (pj : Uuid)
    (payload : PjCreate) (defaultCampaign : Option Uuid) :
    Founded (s.commit (Router.createPj pj payload defaultCampaign s.system.db auth)) := by
  cases created : Router.createPj pj payload defaultCampaign s.system.db auth with
  | error e => exact founded
  | ok db =>
      have done := except_mapError_ok created
      obtain ⟨campaign, -, done⟩ := except_bind_ok done
      obtain ⟨_, -, done⟩ := except_bind_ok done
      split at done
      · rename_i inserted
        cases done
        unfold PjRepository.create at inserted
        obtain ⟨pjs, added, rfl⟩ := Option.map_eq_some_iff.mp inserted
        refine founded.withDb (fun other character found => ?_)
          (fun id holding => by cases holding <;> exact Iff.rfl)
          (fun id row found => ⟨row, found, rfl, rfl⟩) fun id row found => ⟨row, found⟩
        obtain ⟨member, key⟩ := Table.get?_eq_some.mp found
        refine ⟨character, Table.get?_eq_some.mpr ⟨?_, key⟩, rfl, rfl⟩
        rw [Indexed.insertAll?_eq_some.mp added]
        exact List.mem_append_left _ member
      · cases done

theorem founded_updatePj (founded : Founded s) (auth : AuthenticatedKey) (pj : Uuid)
    (payload : PjUpdate) :
    Founded (s.commit (Router.updatePj pj payload s.system.db auth)) := by
  cases updated : Router.updatePj pj payload s.system.db auth with
  | error e => exact founded
  | ok db =>
      obtain ⟨result, done, updated⟩ := except_bind_ok updated
      have done := except_mapError_ok done
      unfold Logic.updatePj at done
      split at done
      · cases done
        cases updated
      · rename_i row owned
        obtain ⟨_, -, done⟩ := except_bind_ok done
        obtain ⟨_, -, done⟩ := except_bind_ok done
        dsimp only at done
        split at done
        · rename_i flushed
          cases done
          cases updated
          unfold PjRepository.flushUpdate at flushed
          obtain ⟨pjs, renamed, rfl⟩ := Option.map_eq_some_iff.mp flushed
          refine founded.withDb (fun other character found => ?_)
            (fun id holding => by cases holding <;> exact Iff.rfl)
            (fun id row found => ⟨row, found, rfl, rfl⟩) fun id row found => ⟨row, found⟩
          dsimp only
          rw [Indexed.toTable_update? renamed, Table.get?_update_key]
          split
          · exact ⟨_, congrArg _ found, rfl, rfl⟩
          · exact ⟨character, found, rfl, rfl⟩
        · cases done

theorem founded_createSession (founded : Founded s) (auth : AuthenticatedKey) (session : Uuid)
    (payload : SessionCreate) : Founded (s.createSession auth session payload) := by
  unfold Platform.createSession
  split
  · exact founded
  · rename_i created drawn
    split
    · rename_i db done
      obtain ⟨_, -, done⟩ := except_bind_ok done
      split at done
      · rename_i inserted
        cases done
        unfold SessionRepository.create at inserted
        obtain ⟨sessions, added, rfl⟩ := Option.map_eq_some_iff.mp inserted
        have recorded (id : Uuid) (first : Session) (found : s.created.get? id = some first) :
            created.get? id = some first := by
          rw [Table.get?_insert? drawn, if_neg]
          · exact found
          · rintro rfl
            rw [(Table.insert?_eq_some.mp drawn).1] at found
            cases found
        refine founded.manage founded.sound.linked (fun _ _ found => found)
          (fun _ row found => ⟨row, found, rfl⟩) recorded (.of_eq rfl) (fun id row found => ?_)
          (fun id holding held => by cases holding <;> exact held) (fun id pj held => ?_)
          (fun id row found transcribed diarised => ?_)
        · dsimp only at found
          rw [Table.get?_insert? added] at found
          split at found
          · rename_i same
            cases found
            exact ⟨_, (Table.get?_insert? drawn id).trans (if_pos same), rfl⟩
          · obtain ⟨first, registered, same⟩ := founded.present id row found
            exact ⟨first, recorded id first registered, same⟩
        · obtain ⟨row, stored⟩ := founded.seated id pj held
          dsimp only
          rw [Table.get?_insert? added]
          split
          · exact ⟨_, rfl⟩
          · exact ⟨row, stored⟩
        · dsimp only at found
          rw [Table.get?_insert? added] at found
          split at found
          · cases found
            cases transcribed
          · exact founded.transcripts id row found transcribed diarised
      · cases done
    · exact founded

theorem abortActiveSessionJob_cases (rq : Rq) (row : Session) :
    (Logic.abortActiveSessionJob rq row).1 = rq ∨ ∃ job, rq.get? job.id = some job ∧
      job.status ≠ .started ∧ (Logic.abortActiveSessionJob rq row).1 = rq.cancel job.id := by
  unfold Logic.abortActiveSessionJob
  split
  · exact .inl rfl
  · rename_i job known
    split
    · exact .inl rfl
    · split
      · exact .inl rfl
      · rename_i other
        obtain ⟨id, -, found⟩ := Option.bind_eq_some_iff.mp known
        obtain rfl : job.id = id := Table.key_of_get? found
        exact .inr ⟨job, found, other, rfl⟩

theorem linked_abort {row : Session} {db : Database} (linked : Linked s.system) :
    Linked { s.system with db := db, rq := (Logic.abortActiveSessionJob s.system.rq row).1 } := by
  intro other a running
  obtain ⟨queued, found, started, facts⟩ := linked other a running
  dsimp only
  rcases abortActiveSessionJob_cases s.system.rq row with same | ⟨job, present, idle, same⟩
  · rw [same]
    exact ⟨queued, found, started, facts⟩
  · rw [same]
    refine ⟨queued, ?_, started, facts⟩
    refine (get?_update_elsewhere s.system.rq job.id _ _ other fun clash => ?_).trans found
    rw [clash, present] at found
    cases found
    exact idle started

theorem sessionId_abort {rq : Rq} {row : Session} {job : JobId} {queued : RqJob}
    (found : (Logic.abortActiveSessionJob rq row).1.get? job = some queued) :
    ∃ before, rq.get? job = some before ∧ queued.sessionId = before.sessionId := by
  rcases abortActiveSessionJob_cases rq row with same | ⟨canceled, -, -, same⟩
  · rw [same] at found
    exact ⟨queued, found, rfl⟩
  · rw [same, Rq.cancel, Table.get?_update] at found
    obtain ⟨before, present, rfl⟩ := Option.map_eq_some_iff.mp found
    refine ⟨before, present, ?_⟩
    split <;> rfl

theorem get?_deleted (db : Database) (session id : Uuid) :
    (SessionRepository.delete db session).sessions.get? id =
      if id = session then none else db.sessions.get? id := by
  have deleted := Table.get?_delete_key db.sessions (fun row => row.id = session)
    (fun key => key = session) (fun _ => rfl) id
  simp only [decide_eq_true_eq] at deleted
  exact deleted

theorem exists_mem_outside {ρ : Type} {rows : List ρ} {owner : ρ → Uuid} {session id : Uuid}
    {p : ρ → Prop} :
    (∃ row ∈ rows.filter (fun row => !decide (owner row = session)), owner row = id ∧ p row) ↔
      id ≠ session ∧ ∃ row ∈ rows, owner row = id ∧ p row := by
  constructor
  · rintro ⟨row, member, rfl, holds⟩
    obtain ⟨listed, apart⟩ := List.mem_filter.mp member
    exact ⟨by simpa using apart, row, listed, rfl, holds⟩
  · rintro ⟨apart, row, listed, rfl, holds⟩
    exact ⟨row, List.mem_filter.mpr ⟨listed, by simpa using apart⟩, rfl, holds⟩

theorem has_deleted {db : Database} {session id : Uuid} {holding : Holding} :
    Has (SessionRepository.delete db session) id holding ↔ id ≠ session ∧ Has db id holding := by
  cases holding with
  | chunks =>
      simpa [Has, SessionRepository.delete] using
        @exists_mem_outside Chunk db.chunks.rows Chunk.sessionId session id fun _ => True
  | transcription =>
      simpa [Has, SessionRepository.delete] using
        @exists_mem_outside Transcription db.transcriptions.rows Transcription.sessionId session id
          fun _ => True
  | mapping pj | player pj | artifact kind => exact exists_mem_outside

theorem founded_deleteSession (founded : Founded s) (auth : AuthenticatedKey) (session : Uuid) :
    Founded (s.deleteSession auth session) := by
  unfold Platform.deleteSession
  split
  · rename_i db rq stopped done
    obtain ⟨row, stored, answer⟩ := except_bind_ok done
    obtain rfl : row.id = session := Table.key_of_get? (requireSession_ok stored)
    cases answer
    refine founded.manage (linked_abort founded.sound.linked) (fun _ _ found => found)
      (fun _ _ => sessionId_abort) (fun _ _ found => found) (.of_eq rfl) (fun id row' found => ?_)
      (fun id holding held => (has_deleted.mp held).2) (fun id pj held => ?_)
      (fun id row' found transcribed diarised => ?_)
    · rw [get?_deleted] at found
      split at found
      · cases found
      · exact founded.present id row' found
    · have before := held.imp has_deleted.mp has_deleted.mp
      have apart : id ≠ row.id := before.elim And.left And.left
      rw [get?_deleted, if_neg apart]
      exact founded.seated id pj (before.imp And.right And.right)
    · rw [get?_deleted] at found
      split at found
      · cases found
      · rename_i apart
        exact has_deleted.mpr ⟨apart, founded.transcripts id row' found transcribed diarised⟩
  · exact founded

theorem founded_accounts (founded : Founded s) (accounts : Accounts) :
    Founded { s with system := { s.system with db := withAccounts s.system.db accounts } } :=
  founded.withDb (.of_eq rfl) (fun id holding => by cases holding <;> exact Iff.rfl)
    (fun id row found => ⟨row, found, rfl, rfl⟩) fun id row found => ⟨row, found⟩

theorem founded_stop (founded : Founded s) (job : JobId) : Founded (s.stop job) := by
  unfold Platform.stop
  split
  · refine founded.manage (fun other a running => ?_) (fun other a running => ?_)
      (fun other row' found => ?_) (fun _ _ found => found) (.of_eq rfl) founded.present
      (fun _ _ held => held) founded.seated founded.transcripts
    · obtain ⟨before, apart⟩ := mem_deleteAttempt running
      obtain ⟨row, found, facts⟩ := founded.sound.linked other a before
      have elsewhere := get?_update_elsewhere s.system.rq job
        (fun row => { row with status := .stopped }) (fun _ => rfl) other apart
      exact ⟨row, elsewhere.trans found, facts⟩
    · exact (mem_deleteAttempt running).1
    · rw [Rq.stop, Table.get?_update] at found
      obtain ⟨row, before, rfl⟩ := Option.map_eq_some_iff.mp found
      refine ⟨row, before, ?_⟩
      split <;> rfl
  · exact founded

theorem founded_step (env : Environment) (founded : Founded s) (label : Platform.Label) :
    Founded (Platform.step env s label) := by
  cases label with
  | system label => exact founded_system founded label
  | createSession auth session payload => exact founded_createSession founded auth session payload
  | patchSession auth session payload => exact founded_patchSession founded auth session payload
  | deleteSession auth session => exact founded_deleteSession founded auth session
  | createPj auth pj payload campaign => exact founded_createPj founded auth pj payload campaign
  | updatePj auth pj payload => exact founded_updatePj founded auth pj payload
  | accounts accounts => exact founded_accounts founded accounts
  | stop job => exact founded_stop founded job

theorem recorded_step {id : Uuid} {first : Session} (label : Platform.Label)
    (recorded : s.created.get? id = some first) :
    (Platform.step env s label).created.get? id = some first := by
  have commit (result : Except AppError Database) : (s.commit result).created = s.created := by
    cases result <;> rfl
  cases label with
  | createSession auth session payload =>
      simp only [Platform.step, Platform.createSession]
      split
      · exact recorded
      · rename_i created drawn
        split
        · dsimp only
          rw [Table.get?_insert? drawn, if_neg]
          · exact recorded
          · rintro rfl
            rw [(Table.insert?_eq_some.mp drawn).1] at recorded
            cases recorded
        · exact recorded
  | deleteSession auth session =>
      simp only [Platform.step, Platform.deleteSession]
      split <;> exact recorded
  | stop job =>
      simp only [Platform.step, Platform.stop]
      split <;> exact recorded
  | patchSession auth session payload | createPj auth pj payload campaign
  | updatePj auth pj payload => exact (commit _) ▸ recorded
  | system label | accounts accounts => exact recorded

end Routes

/-! ## Runs -/

theorem founded_run (env : Environment) (run : List Platform.Label) :
    Visits (Platform.step env) Founded .initial run :=
  Visits.of_step (fun _ label founded => founded_step env founded label) founded_initial

theorem recorded_run {env : Environment} {s : Platform} {id : Uuid} {first : Session}
    (run : List Platform.Label) (recorded : s.created.get? id = some first) :
    (final (Platform.step env) s run).created.get? id = some first := by
  have along : Visits (Platform.step env) (fun s => s.created.get? id = some first) s run :=
    Visits.of_step (fun _ label recorded => recorded_step label recorded) recorded
  exact along.final

structure ModeIsolated (s : Platform) : Prop where
  modes : ∀ id row, s.system.db.sessions.get? id = some row →
    ∃ first, s.created.get? id = some first ∧ row.transcriptionMode = first.transcriptionMode
  rows : ∀ id holding, Has s.system.db id holding →
    ∃ first, s.created.get? id = some first ∧ holding.suits first.transcriptionMode ∧
      ∀ row, s.system.db.sessions.get? id = some row → holding.suits row.transcriptionMode

theorem Founded.modeIsolated {s : Platform} (founded : Founded s) : ModeIsolated s where
  modes := fun id row stored => by
    obtain ⟨first, recorded, same⟩ := founded.present id row stored
    exact ⟨first, recorded, congrArg (fun c => c.2.2) same⟩
  rows := fun id holding held => by
    obtain ⟨first, recorded, fits⟩ := founded.held id holding held
    refine ⟨first, recorded, fits.suits, fun row stored => ?_⟩
    exact ((KeepsPjs.of_eq rfl).fits (founded.columns recorded stored) fits).suits

/-- Rows of one mode belong to sessions of that mode only, and no session changes its mode. -/
theorem mode_isolation (env : Environment) (run : List Platform.Label) :
    Visits (Platform.step env) ModeIsolated .initial run ∧
      ∀ later id row row',
        (final (Platform.step env) .initial run).system.db.sessions.get? id = some row →
        (final (Platform.step env) .initial (run ++ later)).system.db.sessions.get? id = some row' →
        row'.transcriptionMode = row.transcriptionMode := by
  have isolated (run : List Platform.Label) :
      Visits (Platform.step env) ModeIsolated .initial run :=
    (founded_run env run).weaken fun _ => Founded.modeIsolated
  refine ⟨isolated run, fun later id row row' before after => ?_⟩
  obtain ⟨first, recorded, mode⟩ := (isolated run).final.modes id row before
  obtain ⟨first', recorded', mode'⟩ := (isolated (run ++ later)).final.modes id row' after
  have stays := @recorded_run env _ id first later recorded
  rw [final, final, ← List.foldl_append] at stays
  obtain rfl : first = first' := Option.some.inj (stays.symm.trans recorded')
  exact mode'.trans mode.symm

/-- Whoever takes part in a session, or has a point of view in it, is a character of its game
master, in its campaign. -/
structure TenantIntegrity (s : Platform) : Prop where
  participants : ∀ id pj, Has s.system.db id (.mapping pj) ∨ Has s.system.db id (.player pj) →
    ∃ row, s.system.db.sessions.get? id = some row ∧ Owned s.system.db row pj
  povs : ∀ id pj, Has s.system.db id (.artifact (.pov pj)) →
    ∃ first, s.created.get? id = some first ∧ Owned s.system.db first pj ∧
      ∀ row, s.system.db.sessions.get? id = some row → Owned s.system.db row pj

theorem Founded.owned {s : Platform} (founded : Founded s) {id pj : Uuid} {holding : Holding}
    (held : Has s.system.db id holding) (named : holding.names pj) :
    ∃ first, s.created.get? id = some first ∧ Owned s.system.db first pj ∧
      ∀ row, s.system.db.sessions.get? id = some row → Owned s.system.db row pj := by
  obtain ⟨first, recorded, fits⟩ := founded.held id holding held
  refine ⟨first, recorded, fits.named pj named, fun row stored => ?_⟩
  exact (KeepsPjs.of_eq rfl).owned (founded.columns recorded stored) (fits.named pj named)

theorem tenant_integrity (env : Environment) (run : List Platform.Label) :
    Visits (Platform.step env) TenantIntegrity .initial run := by
  refine (founded_run env run).weaken fun s founded => ⟨fun id pj held => ?_, fun id pj held => ?_⟩
  · obtain ⟨row, stored⟩ := founded.seated id pj held
    have named : ∃ first, s.created.get? id = some first ∧ Owned s.system.db first pj ∧
        ∀ row, s.system.db.sessions.get? id = some row → Owned s.system.db row pj :=
      held.elim (founded.owned · rfl) (founded.owned · rfl)
    obtain ⟨_, -, -, owned⟩ := named
    exact ⟨row, stored, owned row stored⟩
  · exact founded.owned held rfl

end Kaeyris.Proof
