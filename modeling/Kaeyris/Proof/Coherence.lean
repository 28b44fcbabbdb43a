import Kaeyris.Proof.Locality
import Kaeyris.Proof.Tenancy

/-!
# What a session's rows agree on

The state of a session, its audio row and its current job are stored apart, and by different
parties. Whatever they do, a session without usable audio is the only one in its first state, and a
session never points at another one's job.
-/

namespace Kaeyris.Proof
open Lib Jobs Process Platform Router

structure Coherent (s : Platform) : Prop where
  created : ∀ session, (view s.system.db session).state = some .created →
    (view s.system.db session).audio ≠ some none
  heard : ∀ session state, (view s.system.db session).state = some state → state ≠ .created →
    (view s.system.db session).audio ≠ none
  known : ∀ session, (view s.system.db session).audio ≠ none → Registered s session
  sourced : ∀ job row, s.system.rq.get? job = some row → row.func = .transcription →
    (view s.system.db row.sessionId).state ≠ none → (view s.system.db row.sessionId).audio ≠ none
  queued : ∀ session job row, (view s.system.db session).current = some job →
    s.system.rq.get? job = some row → row.sessionId = session
  unshared : ∀ session other job, (view s.system.db session).current = some job →
    (view s.system.db other).current = some job → session = other

theorem coherent_initial : Coherent .initial where
  created := fun _ impossible => by cases impossible
  heard := fun _ _ impossible => by cases impossible
  known := fun _ heard => (heard rfl).elim
  sourced := fun _ _ found => by cases found
  queued := fun _ _ _ _ found => by cases found
  unshared := fun _ _ _ impossible => by cases impossible

section Changes
variable {rq : Rq} {session : Uuid} {job : Option JobId} {v v' : View} {request : Request}
  (changes : request.changes rq session job v v')
include changes

theorem changes_current : v'.current = v.current ∨ v'.current = none ∨
    ∃ id, job = some id ∧ v'.current = some id := by
  cases request with
  | postAudio upload duration =>
      obtain ⟨-, id, new, rfl⟩ := changes
      exact .inr (.inr ⟨id, new, rfl⟩)
  | deleteAudio now =>
      obtain ⟨-, rfl⟩ := changes
      exact .inr (.inl rfl)
  | recoverStuckTranscription =>
      obtain ⟨-, -, rfl⟩ := changes
      exact .inl rfl
  | restartTranscription =>
      obtain ⟨-, -, id, new, rfl⟩ := changes
      exact .inr (.inr ⟨id, new, rfl⟩)
  | putTranscriptionEdit payload =>
      obtain rfl := changes
      exact .inl rfl
  | putSessionMapping mapping =>
      obtain ⟨-, pjs, -, rfl⟩ := changes
      exact .inl rfl
  | postSessionPlayers payload =>
      obtain ⟨-, rfl⟩ := changes
      exact .inl rfl
  | postNarrative force | postElements force | postPovs force | postSummary force =>
      obtain ⟨-, -, id, new, rfl⟩ := changes
      exact .inr (.inr ⟨id, new, rfl⟩)
  | patchSummary payload | patchNarrative payload | patchPov pj payload | putElements elements c =>
      obtain ⟨-, row, content, editor, -, rfl⟩ := changes
      exact .inl rfl

/-- A request moves a session to its first state only by purging its audio, and out of it only by
storing some. -/
theorem changes_coherent
    (created : v.state = some .created → v.audio ≠ some none)
    (heard : ∀ state, v.state = some state → state ≠ .created → v.audio ≠ none) :
    (v'.state = some .created → v'.audio ≠ some none) ∧
      ∀ state, v'.state = some state → state ≠ .created → v'.audio ≠ none := by
  cases request with
  | postAudio upload duration =>
      obtain ⟨-, id, -, rfl⟩ := changes
      exact ⟨fun impossible => (by cases impossible), fun _ _ _ => Option.some_ne_none none⟩
  | deleteAudio now =>
      obtain ⟨-, rfl⟩ := changes
      refine ⟨fun _ unpurged => ?_, fun state reached begun => ?_⟩
      · obtain ⟨_, _, impossible⟩ := Option.map_eq_some_iff.mp unpurged
        cases impossible
      · cases reached
        exact (begun rfl).elim
  | recoverStuckTranscription =>
      obtain ⟨transcribing, -, rfl⟩ := changes
      refine ⟨fun impossible => (by cases impossible), fun _ _ _ => ?_⟩
      exact heard .transcribing transcribing (by decide)
  | restartTranscription =>
      obtain ⟨-, audio, id, -, rfl⟩ := changes
      refine ⟨fun impossible => (by cases impossible), fun _ _ _ absent => ?_⟩
      have audio' : v.audio = none := absent
      rw [audio] at audio'
      cases audio'
  | _ =>
      obtain ⟨state, audio⟩ := changes_still changes rfl
      rw [state, audio]
      exact ⟨created, heard⟩

end Changes

/-! ## Steps -/

section Steps
variable {env : Environment} {s s' : Platform}

theorem Coherent.quiet (inv : Coherent s)
    (recorded : ∀ id, Registered s id → Registered s' id)
    (stays : ∀ session, (view s'.system.db session).state = none ∧
        (view s'.system.db session).audio = none ∧ (view s'.system.db session).current = none ∨
      (view s'.system.db session).state = (view s.system.db session).state ∧
        (view s'.system.db session).audio = (view s.system.db session).audio ∧
          (view s'.system.db session).current = (view s.system.db session).current)
    (rq : ∀ job row', s'.system.rq.get? job = some row' → ∃ row,
      s.system.rq.get? job = some row ∧ row'.func = row.func ∧ row'.sessionId = row.sessionId) :
    Coherent s' where
  created := fun session state => by
    rcases stays session with ⟨gone, -⟩ | ⟨same, audio, -⟩
    · rw [gone] at state
      cases state
    · rw [audio]
      exact inv.created session (same ▸ state)
  heard := fun session state reached begun => by
    rcases stays session with ⟨gone, -⟩ | ⟨same, audio, -⟩
    · rw [gone] at reached
      cases reached
    · rw [audio]
      exact inv.heard session state (same ▸ reached) begun
  known := fun session heard => by
    rcases stays session with ⟨-, gone, -⟩ | ⟨-, audio, -⟩
    · exact (heard gone).elim
    · exact recorded session (inv.known session (audio ▸ heard))
  sourced := fun job row' found func present => by
    obtain ⟨row, before, func', owner⟩ := rq job row' found
    rw [owner] at present ⊢
    rcases stays row.sessionId with ⟨gone, -⟩ | ⟨same, audio, -⟩
    · exact (present gone).elim
    · rw [audio]
      exact inv.sourced job row before (func' ▸ func) (same ▸ present)
  queued := fun session job row' current found => by
    obtain ⟨row, before, -, owner⟩ := rq job row' found
    rcases stays session with ⟨-, -, gone⟩ | ⟨-, -, same⟩
    · rw [gone] at current
      cases current
    · rw [owner]
      exact inv.queued session job row (same ▸ current) before
  unshared := fun session other job current current' => by
    rcases stays session with ⟨-, -, gone⟩ | ⟨-, -, same⟩
    · rw [gone] at current
      cases current
    · rcases stays other with ⟨-, -, gone⟩ | ⟨-, -, same'⟩
      · rw [gone] at current'
        cases current'
      · exact inv.unshared session other job (same ▸ current) (same' ▸ current')

theorem coherent_bookkeeping (founded : Founded s) (inv : Coherent s) {label : Kaeyris.Label}
    (kind : bookkeeping label = true) : Coherent (Platform.step env s (.system label)) := by
  have keeps : Bookkeeping env s.system (s.system.step env label) :=
    bookkeeping_step founded.sound.linked kind
  refine inv.quiet (fun _ known => known) (fun session => ?_) fun job row' found => ?_
  · rw [Platform.step, keeps.db]
    exact .inr ⟨rfl, rfl, rfl⟩
  · obtain ⟨row, before, func, owner, -⟩ := keeps.rq job row' found
    exact ⟨row, before, func, owner⟩

theorem coherent_request (founded : Founded s) (inv : Coherent s) (auth : AuthenticatedKey)
    (target : Uuid)
    (request : Request) :
    Coherent (Platform.step env s (.system (.request auth target request))) := by
  refine request_keeps (P := fun t => Coherent { s with system := t }) inv fun accepted handled => ?_
  obtain ⟨⟨others, changes⟩, enqueues⟩ := handle_ok handled
  rw [request_ok handled]
  obtain ⟨created, heard⟩ :=
    changes_coherent changes (inv.created target) (inv.heard target)
  have current := changes_current changes
  -- Nobody pointed at the job that the request enqueued.
  have unknown (id : JobId) (new : accepted.job = some id) (other : Uuid) :
      (view s.system.db other).current ≠ some id := by
    cases kind : request.enqueues with
    | none =>
        rw [kind] at enqueues
        rw [enqueues.1] at new
        cases new
    | some kind' =>
        rw [kind] at enqueues
        obtain ⟨id', named, -, fresh, -⟩ := enqueues
        rw [named] at new
        cases new
        exact fresh other
  have pointed {session : Uuid} {job : JobId}
      (points : (view accepted.db session).current = some job) :
      (view s.system.db session).current = some job ∨
        session = target ∧ accepted.job = some job := by
    by_cases own : session = target
    · subst own
      rcases current with same | none | ⟨id, new, points'⟩
      · exact .inl (same ▸ points)
      · rw [none] at points
        cases points
      · rw [points'] at points
        cases points
        exact .inr ⟨rfl, new⟩
    · exact .inl (others session own ▸ points)
  refine ⟨fun session => ?_, fun session => ?_, fun session reached => ?_,
    fun job row found func present => ?_, fun session job row points found => ?_,
    fun session other job points points' => ?_⟩
  · by_cases own : session = target
    · subst own
      exact created
    · dsimp only
      rw [others session own]
      exact inv.created session
  · by_cases own : session = target
    · subst own
      exact heard
    · dsimp only
      rw [others session own]
      exact inv.heard session
  · by_cases own : session = target
    · obtain ⟨-, stored, found, -⟩ := handle_adds handled
      obtain ⟨first, registered, -⟩ := founded.present target stored found
      exact ⟨first, own ▸ registered⟩
    · dsimp only at reached
      rw [others session own] at reached
      exact inv.known session reached
  · dsimp only at found present ⊢
    rcases enqueues_get? enqueues found with ⟨before, -⟩ | ⟨kind, enqueued, -, rfl⟩
    · by_cases own : row.sessionId = target
      · obtain ⟨-, stored, found', -⟩ := handle_adds handled
        rw [own]
        apply changes_audio changes
        rw [← own] at found' ⊢
        apply inv.sourced job row before func
        rw [(view_row found').1]
        exact Option.some_ne_none _
      · rw [others _ own] at present ⊢
        exact inv.sourced job row before func present
    · obtain rfl : kind = .transcription := func
      rw [changes_transcription changes enqueued]
      exact Option.some_ne_none none
  · dsimp only at found
    rcases enqueues_get? enqueues found with ⟨before, old⟩ | ⟨kind, -, new, rfl⟩
    · rcases pointed points with earlier | ⟨-, new⟩
      · exact inv.queued session job row earlier before
      · exact (old new).elim
    · rcases pointed points with earlier | ⟨own, -⟩
      · exact (unknown job new session earlier).elim
      · exact own.symm
  · rcases pointed points with earlier | ⟨own, new⟩
    · rcases pointed points' with earlier' | ⟨-, new⟩
      · exact inv.unshared session other job earlier earlier'
      · exact (unknown job new session earlier).elim
    · rcases pointed points' with earlier' | ⟨own', -⟩
      · exact (unknown job new other earlier').elim
      · exact own.trans own'.symm

theorem jobGuarantee_state {kind : JobKind} {session : Uuid} {pjs : Uuid → Prop} {tx : Tx}
    {db db' : Database} (change : jobGuarantee kind session pjs tx db db') (other : Uuid) :
    (view db' other).state = (view db other).state ∨ kind = .transcription ∧ other = session ∧
      ∃ state, state ≠ .created ∧
        (view db' other).state = (view db other).state.map fun _ => state := by
  by_cases own : other = session
  · subst own
    cases kind with
    | transcription =>
        have moved := change.2
        generalize view db' other = v' at moved
        cases moved with
        | nothing reads => exact .inl rfl
        | begins audio => exact .inr ⟨rfl, rfl, .transcribing, by decide, rfl⟩
        | fails => exact .inr ⟨rfl, rfl, .transcriptionFailed, by decide, rfl⟩
        | restores => exact .inr ⟨rfl, rfl, .audioUploaded, by decide, rfl⟩
        | persists => exact .inr ⟨rfl, rfl, .transcribed, by decide, rfl⟩
    | _ =>
        rw [change.2.rest]
        exact .inl rfl
  · rw [jobGuarantee_elsewhere change own]
    exact .inl rfl

theorem coherent_advance (founded : Founded s) (inv : Coherent s) (job : JobId)
    (reaction : Reaction effects) :
    Coherent (Platform.step env s (.system (.advance job reaction))) := by
  refine advance_keeps (P := fun t => Coherent { s with system := t }) inv fun a running => ?_
  obtain ⟨row, found, started, func, owner⟩ := founded.sound.linked job a running
  have rq : (s.system.advance job reaction).rq = s.system.rq := by rw [advance_eq running]
  have frame := founded.sound.advance_frame running reaction (within_trivial s.system.db)
  have audio (other : Uuid) : (view (s.system.advance job reaction).db other).audio =
      (view s.system.db other).audio := by rw [frame other]
  have current (other : Uuid) : (view (s.system.advance job reaction).db other).current =
      (view s.system.db other).current := by rw [frame other]
  have state (other : Uuid) : (view (s.system.advance job reaction).db other).state =
      (view s.system.db other).state ∨ a.kind = .transcription ∧ other = a.session ∧
        ∃ state, state ≠ .created ∧ (view (s.system.advance job reaction).db other).state =
          (view s.system.db other).state.map fun _ => state := by
    rcases founded.sound.commits running reaction (within_trivial s.system.db) with
      ⟨tx, -, change⟩ | ⟨-, same⟩
    · exact jobGuarantee_state change other
    · rw [same]
      exact .inl rfl
  refine ⟨fun session reached => ?_, fun session phase reached begun => ?_,
    fun session reached => ?_,
    fun other queued present func' exists_ => ?_, ?_, ?_⟩
  · dsimp only at reached ⊢
    rw [audio]
    rcases state session with same | ⟨-, -, phase, begun, moved⟩
    · exact inv.created session (same ▸ reached)
    · rw [moved] at reached
      obtain ⟨_, _, same⟩ := Option.map_eq_some_iff.mp reached
      exact (begun same).elim
  · dsimp only at reached ⊢
    rw [audio]
    rcases state session with same | ⟨kind, own, _, _, moved⟩
    · exact inv.heard session phase (same ▸ reached) begun
    · -- The session of a transcription job has been heard before.
      rw [moved] at reached
      obtain ⟨before, present, _⟩ := Option.map_eq_some_iff.mp reached
      have sourced := inv.sourced job row found (func.trans kind)
      rw [owner, ← own] at sourced
      exact sourced (by rw [present]; exact Option.some_ne_none before)
  · dsimp only at reached
    rw [audio] at reached
    exact inv.known session reached
  · dsimp only at present exists_ ⊢
    rw [rq] at present
    rw [audio]
    apply inv.sourced other queued present func'
    rcases state queued.sessionId with same | ⟨-, -, _, _, moved⟩
    · exact same ▸ exists_
    · rw [moved] at exists_
      exact fun absent => exists_ (by rw [absent]; rfl)
  · intro session other queued points present
    dsimp only at points present
    rw [current] at points
    rw [rq] at present
    exact inv.queued session other queued points present
  · intro session other pointed points points'
    dsimp only at points points'
    rw [current] at points points'
    exact inv.unshared session other pointed points points'

theorem view_created {db : Database} {sessions : Table Uuid Session Session.id} {row : Session}
    (added : db.sessions.insert? row = some sessions) (id : Uuid) :
    view { db with sessions := sessions } id =
      if row.id = id then
        { view db id with
          state := some row.state
          mode := some row.transcriptionMode
          current := row.currentJobId }
      else view db id := by
  have cell : sessions.get? id = if row.id = id then some row else db.sessions.get? id :=
    Table.get?_insert? added id
  unfold view
  rw [cell]
  split <;> rfl

theorem coherent_createSession (founded : Founded s) (inv : Coherent s) (auth : AuthenticatedKey)
    (target : Uuid) (payload : SessionCreate) :
    Coherent (Platform.step env s (.createSession auth target payload)) := by
  have recorded (id : Uuid) (known : Registered s id) :
      Registered (Platform.step env s (.createSession auth target payload)) id := by
    obtain ⟨first, registered⟩ := known
    exact ⟨first, recorded_step _ registered⟩
  simp only [Platform.step, Platform.createSession] at recorded ⊢
  cases drawn : s.created.insert? (payload.row target auth.id) with
  | none => exact inv
  | some created =>
      cases done : Router.createSession target payload s.system.db auth with
      | error e => exact inv
      | ok db =>
          simp only [drawn, done] at recorded ⊢
          obtain ⟨sessions, added, rfl⟩ := createSession_ok done
          have new : ¬Registered s target := by
            rintro ⟨first, registered⟩
            have free : s.created.get? target = none := (Table.insert?_eq_some.mp drawn).1
            rw [free] at registered
            cases registered
          have after := view_created added
          have audio (session : Uuid) :
              (view { s.system.db with sessions := sessions } session).audio =
                (view s.system.db session).audio := by
            rw [after]
            split <;> rfl
          have phase {session : Uuid} {state : SessionState}
              (reached : (view { s.system.db with sessions := sessions } session).state =
                some state) :
              session = target ∧ state = .created ∨
                (view s.system.db session).state = some state := by
            rw [after] at reached
            split at reached
            · rename_i own
              cases reached
              exact .inl ⟨own.symm, rfl⟩
            · exact .inr reached
          -- The new session points at no job.
          have pointed {session : Uuid} {job : JobId}
              (points : (view { s.system.db with sessions := sessions } session).current =
                some job) :
              (view s.system.db session).current = some job := by
            rw [after] at points
            split at points
            · cases points
            · exact points
          constructor
          · intro session reached
            dsimp only at reached ⊢
            rw [audio]
            rcases phase reached with ⟨rfl, -⟩ | before
            · exact fun heard => new (inv.known _ (by rw [heard]; exact Option.some_ne_none _))
            · exact inv.created session before
          · intro session state reached begun
            dsimp only at reached ⊢
            rw [audio]
            rcases phase reached with ⟨-, rfl⟩ | before
            · exact (begun rfl).elim
            · exact inv.heard session state before begun
          · intro session heard
            dsimp only at heard
            rw [audio] at heard
            exact recorded session (inv.known session heard)
          · intro job row found func present
            dsimp only at present ⊢
            rw [audio]
            obtain ⟨state, reached⟩ := Option.ne_none_iff_exists'.mp present
            rcases phase reached with ⟨own, -⟩ | before
            · exact (new (own ▸ founded.queued job row found)).elim
            · exact inv.sourced job row found func (by rw [before]; exact Option.some_ne_none _)
          · intro session job row points found
            exact inv.queued session job row (pointed points) found
          · intro session other job points points'
            exact inv.unshared session other job (pointed points) (pointed points')

theorem get?_deletedAudio (db : Database) (session id : Uuid) :
    (SessionRepository.delete db session).audioSources.get? id =
      if id = session then none else db.audioSources.get? id := by
  have deleted := Table.get?_delete_key db.audioSources (fun row => row.sessionId = session)
    (fun key => key = session) (fun _ => rfl) id
  simp only [decide_eq_true_eq] at deleted
  exact deleted

theorem coherent_deleteSession (inv : Coherent s) (auth : AuthenticatedKey) (target : Uuid) :
    Coherent (Platform.step env s (.deleteSession auth target)) := by
  simp only [Platform.step, Platform.deleteSession]
  split
  · rename_i db rq stopped done
    obtain ⟨row, stored, -, rfl, aborted⟩ := deleteSession_ok done
    have queue : rq = (Logic.abortActiveSessionJob s.system.rq row).1 := congrArg Prod.fst aborted
    subst queue
    refine inv.quiet (fun _ known => known) (fun session => ?_) fun job row' found => ?_
    · unfold view
      dsimp only
      rw [get?_deleted, get?_deletedAudio]
      split
      · exact .inl ⟨rfl, rfl, rfl⟩
      · exact .inr ⟨rfl, rfl, rfl⟩
    · rcases abortActiveSessionJob_cases s.system.rq row with same | ⟨canceled, -, -, same⟩
      · rw [same] at found
        exact ⟨row', found, rfl, rfl⟩
      · rw [same, Rq.cancel, Table.get?_update] at found
        obtain ⟨before, present, rfl⟩ := Option.map_eq_some_iff.mp found
        refine ⟨before, present, ?_⟩
        split <;> exact ⟨rfl, rfl⟩
  · exact inv

theorem view_updateCampaignContext (db : Database) (target session : Uuid) (context : Option Text) :
    let after := SessionRepository.updateCampaignContext db target context
    (view after session).state = (view db session).state ∧
      (view after session).audio = (view db session).audio ∧
        (view after session).current = (view db session).current := by
  have row :
      (SessionRepository.updateCampaignContext db target context).sessions.get? session = _ :=
    Table.get?_update_key db.sessions target (fun row => { row with campaignContext := context })
      (fun _ => rfl) session
  unfold view
  dsimp only
  rw [row]
  split
  · cases db.sessions.get? session <;> exact ⟨rfl, rfl, rfl⟩
  · exact ⟨rfl, rfl, rfl⟩

theorem coherent_stop (inv : Coherent s) (job : JobId) : Coherent (s.stop job) := by
  unfold Platform.stop
  split
  · refine inv.quiet (fun _ known => known) (fun _ => .inr ⟨rfl, rfl, rfl⟩) fun other row' found => ?_
    rw [Rq.stop, Table.get?_update] at found
    obtain ⟨row, before, rfl⟩ := Option.map_eq_some_iff.mp found
    refine ⟨row, before, ?_⟩
    split <;> exact ⟨rfl, rfl⟩
  · exact inv

theorem coherent_commit (inv : Coherent s) {result : Except AppError Database}
    (keeps : ∀ db, result = .ok db → ∀ session,
      (view db session).state = (view s.system.db session).state ∧
        (view db session).audio = (view s.system.db session).audio ∧
          (view db session).current = (view s.system.db session).current) :
    Coherent (s.commit result) := by
  cases result with
  | error e => exact inv
  | ok db =>
      exact inv.quiet (fun _ known => known) (fun session => .inr (keeps db rfl session))
        fun job row found => ⟨row, found, rfl, rfl⟩

theorem coherent_step (founded : Founded s) (inv : Coherent s) (label : Platform.Label) :
    Coherent (Platform.step env s label) := by
  cases label with
  | system label =>
      cases label with
      | request auth target request => exact coherent_request founded inv auth target request
      | advance job reaction => exact coherent_advance founded inv job reaction
      | start job | settle job | die job | reap job | due job | expire job =>
          exact coherent_bookkeeping founded inv rfl
  | createSession auth target payload => exact coherent_createSession founded inv auth target payload
  | patchSession auth target payload =>
      refine coherent_commit inv fun db done session => ?_
      obtain ⟨-, rfl | ⟨context, rfl⟩⟩ := patchSession_ok done
      · exact ⟨rfl, rfl, rfl⟩
      · exact view_updateCampaignContext s.system.db target session context
  | deleteSession auth target => exact coherent_deleteSession inv auth target
  | createPj auth pj payload campaign =>
      refine coherent_commit inv fun db done session => ?_
      obtain ⟨_, _, -, rfl⟩ := createPj_ok done
      exact ⟨rfl, rfl, rfl⟩
  | updatePj auth pj payload =>
      refine coherent_commit inv fun db done session => ?_
      obtain ⟨_, _, _, -, -, -, rfl⟩ := updatePj_ok done
      exact ⟨rfl, rfl, rfl⟩
  | accounts accounts =>
      exact inv.quiet (fun _ known => known) (fun _ => .inr ⟨rfl, rfl, rfl⟩)
        fun job row found => ⟨row, found, rfl, rfl⟩
  | stop job => exact coherent_stop inv job

end Steps

theorem coherent_run (env : Environment) (run : List Platform.Label) :
    Visits (Platform.step env) (fun s => Founded s ∧ Coherent s) .initial run :=
  Visits.of_step (fun _ label inv => ⟨founded_step env inv.1 label, coherent_step inv.1 inv.2 label⟩)
    ⟨founded_initial, coherent_initial⟩

/-- In every reachable state the rows of every session agree. -/
theorem coherent (env : Environment) (run : List Platform.Label) :
    Visits (Platform.step env) Coherent .initial run :=
  (coherent_run env run).weaken fun _ => And.right

end Kaeyris.Proof
