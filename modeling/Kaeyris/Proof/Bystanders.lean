import Kaeyris.Proof.Coherence
import Kaeyris.Proof.Ownership

/-!
# What others do does not show

A game master with an API key gets the same answers before and after any steps that others take: their
requests, the jobs they asked for, and what RQ does with these.
-/

namespace Kaeyris.Proof
open Lib Jobs Process Platform Router Gm JobProjection

def CreatedBy (key : Uuid) (s : Platform) (session : Uuid) : Prop :=
  ∃ first, s.created.get? session = some first ∧ first.gmKeyId = key

/-- A request with the key, or a step of a job for one of its sessions. -/
def Concerns (key : Uuid) (s : Platform) : Platform.Label → Prop
  | .system (.request auth _ _) | .createSession auth _ _ | .patchSession auth _ _
  | .deleteSession auth _ | .createPj auth _ _ _ | .updatePj auth _ _ => auth.id = key
  | .system (.start job) | .system (.advance job _) | .system (.settle job) | .system (.die job)
  | .system (.reap job) | .system (.due job) | .system (.expire job) | .stop job =>
      ∃ row, s.system.rq.get? job = some row ∧ CreatedBy key s row.sessionId
  | .accounts _ => False

/-- What RQ tells of a job besides its function, its argument and its status. -/
structure RqDetails where
  excString : Option Text
  excInfo : Option Text
  createdAt : Option Timestamp
  startedAt : Option Timestamp
  endedAt : Option Timestamp
  jobMeta : Progress.JobMeta

def rqRecord (details : RqJob → RqDetails) (row : RqJob) : RqRecord where
  func := some row.func
  argument := .session row.sessionId
  status := some row.status
  isFailed := row.status = .failed
  excString := (details row).excString
  excInfo := (details row).excInfo
  createdAt := (details row).createdAt
  startedAt := (details row).startedAt
  endedAt := (details row).endedAt
  jobMeta := (details row).jobMeta

/-- What the routes read in a state of the machine. The columns that the machine leaves out are
given: a session's are written with its other rows. -/
def archiveAt (columns : Archive) (details : RqJob → RqDetails) (s : Platform) : Archive :=
  { columns with
    db := s.system.db
    rq := fun job => (s.system.rq.get? job).map (rqRecord details) }

structure SameFor (key : Uuid) (s s' : Platform) : Prop where
  created : ∀ session first, first.gmKeyId = key →
    (s.created.get? session = some first ↔ s'.created.get? session = some first)
  rows : ∀ session, CreatedBy key s session →
    Database.rowsOf s'.system.db session = Database.rowsOf s.system.db session
  pjs : SameRows (fun row : Pj => row.ownerGmKeyId = key) s.system.db.pjs.rows s'.system.db.pjs.rows
  jobs : ∀ job row, CreatedBy key s row.sessionId →
    (s.system.rq.get? job = some row ↔ s'.system.rq.get? job = some row)

section SameFor
variable {key : Uuid} {s s' s'' : Platform}

theorem SameFor.refl (key : Uuid) (s : Platform) : SameFor key s s where
  created := fun _ _ _ => Iff.rfl
  rows := fun _ _ => rfl
  pjs := fun _ _ => Iff.rfl
  jobs := fun _ _ _ => Iff.rfl

theorem SameFor.createdBy (same : SameFor key s s') (session : Uuid) :
    CreatedBy key s session ↔ CreatedBy key s' session := by
  unfold CreatedBy
  constructor
  · rintro ⟨first, recorded, own⟩
    exact ⟨first, (same.created session first own).mp recorded, own⟩
  · rintro ⟨first, recorded, own⟩
    exact ⟨first, (same.created session first own).mpr recorded, own⟩

theorem SameFor.trans (same : SameFor key s s') (same' : SameFor key s' s'') : SameFor key s s'' where
  created := fun session first own =>
    (same.created session first own).trans (same'.created session first own)
  rows := fun session own =>
    (same'.rows session ((same.createdBy session).mp own)).trans (same.rows session own)
  pjs := fun row own => (same.pjs row own).trans (same'.pjs row own)
  jobs := fun job row own =>
    (same.jobs job row own).trans (same'.jobs job row ((same.createdBy row.sessionId).mp own))

end SameFor

/-! ## A step that concerns others -/

section Steps
variable {env : Environment} {owner : Uuid → Uuid} {key : Uuid} {s : Platform}

theorem createdBy_owned (founded : Founded s) {auth : AuthenticatedKey} {session : Uuid}
    (owned : OwnsSession s.system.db auth session) : CreatedBy auth.id s session := by
  obtain ⟨row, stored, own⟩ := owned
  obtain ⟨first, recorded, same⟩ := founded.present session row stored
  have key : row.gmKeyId = first.gmKeyId := congrArg Prod.fst same
  exact ⟨first, recorded, key.symm.trans own⟩

theorem CreatedBy.unique {key' : Uuid} {session : Uuid} (created : CreatedBy key s session)
    (created' : CreatedBy key' s session) :
    key = key' := by
  obtain ⟨first, recorded, rfl⟩ := created
  obtain ⟨first', recorded', rfl⟩ := created'
  rw [recorded] at recorded'
  cases recorded'
  rfl

theorem not_onBehalf (founded : Founded s) {label : Platform.Label} (apart : ¬Concerns key s label)
    {session : Uuid} (created : CreatedBy key s session) : ¬OnBehalf session s label := by
  intro behalf
  cases label with
  | system label =>
      cases label with
      | request auth target request =>
          obtain ⟨rfl, owned⟩ := behalf
          exact apart ((createdBy_owned founded owned).unique created)
      | advance job reaction =>
          obtain ⟨a, running, rfl⟩ := behalf
          obtain ⟨row, found, -, -, same⟩ := founded.sound.linked job a running
          exact apart ⟨row, found, same ▸ created⟩
      | _ => exact behalf
  | createSession auth target payload =>
      obtain ⟨rfl, new⟩ := behalf
      obtain ⟨first, recorded, -⟩ := created
      exact new ⟨first, recorded⟩
  | patchSession auth target payload | deleteSession auth target =>
      obtain ⟨rfl, owned⟩ := behalf
      exact apart ((createdBy_owned founded owned).unique created)
  | createPj auth pj payload campaign | updatePj auth pj payload | accounts accounts | stop job =>
      exact behalf

theorem created_step {label : Platform.Label} {session : Uuid} {first : Session}
    (recorded : (Platform.step env s label).created.get? session = some first) :
    s.created.get? session = some first ∨
      ∃ auth payload, label = .createSession auth session payload ∧ first.gmKeyId = auth.id := by
  have commit (result : Except AppError Database) : (s.commit result).created = s.created := by
    cases result <;> rfl
  cases label with
  | createSession auth target payload =>
      simp only [Platform.step, Platform.createSession] at recorded
      split at recorded
      · exact .inl recorded
      · rename_i created drawn
        split at recorded
        · dsimp only at recorded
          rw [Table.get?_insert? drawn] at recorded
          split at recorded
          · rename_i same
            cases recorded
            exact .inr ⟨auth, payload, by rw [← same]; rfl, rfl⟩
          · exact .inl recorded
        · exact .inl recorded
  | deleteSession auth target =>
      simp only [Platform.step, Platform.deleteSession] at recorded
      split at recorded <;> exact .inl recorded
  | stop job =>
      simp only [Platform.step, Platform.stop] at recorded
      split at recorded <;> exact .inl recorded
  | patchSession auth target payload | createPj auth pj payload campaign
  | updatePj auth pj payload => exact .inl ((commit _) ▸ recorded)
  | system label | accounts accounts => exact .inl recorded

theorem jobs_elsewhere {s' : Platform} {job : JobId}
    (apart : ¬∃ row, s.system.rq.get? job = some row ∧ CreatedBy key s row.sessionId)
    (retains : ∀ row', s'.system.rq.get? job = some row' → ∃ row,
      s.system.rq.get? job = some row ∧ row'.sessionId = row.sessionId)
    (elsewhere : ∀ other, other ≠ job → s'.system.rq.get? other = s.system.rq.get? other)
    (other : JobId) (row : RqJob) (created : CreatedBy key s row.sessionId) :
    s.system.rq.get? other = some row ↔ s'.system.rq.get? other = some row := by
  by_cases same : other = job
  · subst same
    constructor
    · intro found
      exact (apart ⟨row, found, created⟩).elim
    · intro found
      obtain ⟨before, present, owner⟩ := retains row found
      exact (apart ⟨before, present, owner ▸ created⟩).elim
  · rw [elsewhere other same]

theorem start_elsewhere (s : System) (job other : JobId) (apart : other ≠ job) :
    (s.start env job).rq.get? other = s.rq.get? other := by
  unfold System.start
  split
  · split
    · refine get?_update_elsewhere _ _ _ ?_ other apart
      exact fun _ => rfl
    · rfl
  · rfl

theorem settle_elsewhere (s : System) (job other : JobId) (apart : other ≠ job) :
    (s.settle job).rq.get? other = s.rq.get? other := by
  unfold System.settle
  split
  · rfl
  · split
    · refine get?_update_elsewhere _ _ _ ?_ other apart
      exact fun _ => rfl
    · refine get?_update_elsewhere _ _ _ ?_ other apart
      exact fun _ => rfl
    · rfl

theorem reap_elsewhere (s : System) (job other : JobId) (apart : other ≠ job) :
    (s.reap job).rq.get? other = s.rq.get? other := by
  unfold System.reap
  split
  · refine get?_update_elsewhere _ _ _ ?_ other apart
    exact fun _ => rfl
  · rfl

theorem due_elsewhere (s : System) (job other : JobId) (apart : other ≠ job) :
    (s.due job).rq.get? other = s.rq.get? other := by
  unfold System.due
  split
  · refine get?_update_elsewhere _ _ _ ?_ other apart
    exact fun _ => rfl
  · rfl

theorem expire_elsewhere (s : System) (job other : JobId) (apart : other ≠ job) :
    (s.expire job).rq.get? other = s.rq.get? other := by
  unfold System.expire
  split
  case h_5 => exact get?_forget_elsewhere s.rq job other apart
  all_goals rfl

theorem jobs_bookkeeping (env : Environment) (founded : Founded s) {label : Kaeyris.Label}
    (kind : bookkeeping label = true) (apart : ¬Concerns key s (.system label)) (job : JobId)
    (row : RqJob) (created : CreatedBy key s row.sessionId) :
    s.system.rq.get? job = some row ↔ (s.system.step env label).rq.get? job = some row := by
  have keeps : Bookkeeping env s.system (s.system.step env label) :=
    bookkeeping_step founded.sound.linked kind
  have one {moved : JobId}
      (apart : ¬∃ row, s.system.rq.get? moved = some row ∧ CreatedBy key s row.sessionId)
      (elsewhere : ∀ other, other ≠ moved →
        (s.system.step env label).rq.get? other = s.system.rq.get? other) :
      s.system.rq.get? job = some row ↔ (s.system.step env label).rq.get? job = some row := by
    have retains (row' : RqJob) (found : (s.system.step env label).rq.get? moved = some row') :
        ∃ row, s.system.rq.get? moved = some row ∧ row'.sessionId = row.sessionId := by
      obtain ⟨before, present, -, owner, -⟩ := keeps.rq moved row' found
      exact ⟨before, present, owner⟩
    exact @jobs_elsewhere key s { s with system := s.system.step env label } moved apart retains
      elsewhere job row created
  cases label with
  | request auth session request => cases kind
  | advance job reaction => cases kind
  | start moved => exact one apart (start_elsewhere s.system moved)
  | settle moved => exact one apart (settle_elsewhere s.system moved)
  | die moved => exact one apart fun _ _ => rfl
  | reap moved => exact one apart (reap_elsewhere s.system moved)
  | due moved => exact one apart (due_elsewhere s.system moved)
  | expire moved => exact one apart (expire_elsewhere s.system moved)

theorem jobs_request (founded : Founded s) {auth : AuthenticatedKey} {target : Uuid}
    {request : Request} (apart : auth.id ≠ key) (job : JobId) (row : RqJob)
    (created : CreatedBy key s row.sessionId) :
    s.system.rq.get? job = some row ↔
      (s.system.step env (.request auth target request)).rq.get? job = some row := by
  rw [System.step]
  cases handled : request.handle env s.system.db s.system.rq auth target with
  | error e => rw [request_error handled]
  | ok accepted =>
      rw [request_ok handled]
      have enqueues := (handle_ok handled).2
      constructor
      · exact enqueues_keeps enqueues
      · intro found
        rcases enqueues_get? enqueues found with ⟨before, -⟩ | ⟨kind, -, -, rfl⟩
        · exact before
        · exact (apart ((createdBy_owned founded (handle_owned handled)).unique created)).elim

theorem abortActiveSessionJob_current (rq : Rq) (row : Session) :
    (Logic.abortActiveSessionJob rq row).1 = rq ∨ ∃ job, row.currentJobId = some job ∧
      (Logic.abortActiveSessionJob rq row).1 = rq.cancel job := by
  unfold Logic.abortActiveSessionJob
  split
  · exact .inl rfl
  · rename_i job known
    split
    · exact .inl rfl
    · split
      · exact .inl rfl
      · obtain ⟨id, current, found⟩ := Option.bind_eq_some_iff.mp known
        obtain rfl : job.id = id := Table.key_of_get? found
        exact .inr ⟨job.id, current, rfl⟩

theorem sessionId_moved {rq : Rq} {job : JobId} {f : RqJob → RqJob}
    (keeps : ∀ row, (f row).id = row.id) (owner : ∀ row, (f row).sessionId = row.sessionId)
    {row' : RqJob}
    (found : (rq.update (fun row => row.id = job) f keeps).get? job = some row') :
    ∃ row, rq.get? job = some row ∧ row'.sessionId = row.sessionId := by
  rw [Table.get?_update_key, if_pos rfl] at found
  obtain ⟨row, before, rfl⟩ := Option.map_eq_some_iff.mp found
  exact ⟨row, before, owner row⟩

theorem jobs_deleteSession (founded : Founded s) (coherent : Coherent s) {auth : AuthenticatedKey}
    {target : Uuid} (apart : auth.id ≠ key) (job : JobId) (row : RqJob)
    (created : CreatedBy key s row.sessionId) :
    s.system.rq.get? job = some row ↔
      (Platform.step env s (.deleteSession auth target)).system.rq.get? job = some row := by
  simp only [Platform.step, Platform.deleteSession]
  split
  · rename_i db rq stopped done
    obtain ⟨stored, found, own, rfl, aborted⟩ := deleteSession_ok done
    have queue : rq = (Logic.abortActiveSessionJob s.system.rq stored).1 := congrArg Prod.fst aborted
    subst queue
    dsimp only
    rcases abortActiveSessionJob_current s.system.rq stored with same | ⟨moved, current, same⟩
    · rw [same]
    · have foreign : ¬∃ row, s.system.rq.get? moved = some row ∧ CreatedBy key s row.sessionId := by
        rintro ⟨queued, present, created'⟩
        have pointed := (view_row found).2.2.trans current
        rw [coherent.queued target moved queued pointed present] at created'
        exact apart ((createdBy_owned founded ⟨stored, found, own⟩).unique created')
      rw [same]
      refine @jobs_elsewhere key s
        { s with system := { s.system with rq := s.system.rq.cancel moved } }
        moved foreign (fun row' found => ?_) (fun other apart => ?_) job row created
      · refine sessionId_moved ?_ ?_ found
        · exact fun _ => rfl
        · exact fun _ => rfl
      · refine get?_update_elsewhere _ _ _ ?_ other apart
        exact fun _ => rfl
  · rfl

theorem jobs_stop {moved : JobId}
    (apart : ¬∃ row, s.system.rq.get? moved = some row ∧ CreatedBy key s row.sessionId) (job : JobId)
    (row : RqJob) (created : CreatedBy key s row.sessionId) :
    s.system.rq.get? job = some row ↔ (s.stop moved).system.rq.get? job = some row := by
  unfold Platform.stop
  split
  · refine @jobs_elsewhere key s { s with system := { s.system with rq := s.system.rq.stop moved } }
      moved apart (fun row' found => ?_) (fun other apart => ?_) job row created
    · refine sessionId_moved ?_ ?_ found
      · exact fun _ => rfl
      · exact fun _ => rfl
    · refine get?_update_elsewhere _ _ _ ?_ other apart
      exact fun _ => rfl
  · rfl

theorem pjs_create {db after : Database} {pj : Uuid} {payload : PjCreate}
    {defaultCampaign : Option Uuid} {auth : AuthenticatedKey} (apart : auth.id ≠ key)
    (created : Router.createPj pj payload defaultCampaign db auth = .ok after) :
    SameRows (fun row : Pj => row.ownerGmKeyId = key) db.pjs.rows after.pjs.rows := by
  obtain ⟨campaign, pjs, added, rfl⟩ := createPj_ok created
  intro row own
  rw [Indexed.insertAll?_eq_some.mp added, List.mem_append, List.mem_singleton]
  constructor
  · exact .inl
  · rintro (before | rfl)
    · exact before
    · exact (apart own).elim

theorem pjs_update {db after : Database} {pj : Uuid} {payload : PjUpdate} {auth : AuthenticatedKey}
    (apart : auth.id ≠ key) (updated : Router.updatePj pj payload db auth = .ok after) :
    SameRows (fun row : Pj => row.ownerGmKeyId = key) db.pjs.rows after.pjs.rows := by
  obtain ⟨stored, name, pjs, found, owned, renamed, rfl⟩ := updatePj_ok updated
  have rows : pjs.rows = (db.pjs.toTable.update (fun row => row.id = pj)
      (fun row => { row with name := name }) fun _ => rfl).rows := by
    rw [← Indexed.toTable_update? renamed]
  have foreign : ∀ row ∈ db.pjs.rows, row.ownerGmKeyId = key → row.id ≠ pj := by
    intro row member own same
    have other := Table.get?_self member
    rw [same, found] at other
    cases other
    exact apart (owned.symm.trans own)
  intro row own
  rw [rows, Table.rows_update, List.mem_map]
  constructor
  · intro member
    exact ⟨row, member, if_neg (by simpa using foreign row member own)⟩
  · rintro ⟨before, member, rfl⟩
    split at own
    · rename_i same
      exact (foreign before member own (by simpa using same)).elim
    · rename_i other
      rw [if_neg other]
      exact member

theorem pjs_step (kept : Attributed owner s) (drawn : ChunksDrawn owner s) {label : Platform.Label}
    (apart : ¬Concerns key s label) :
    SameRows (fun row : Pj => row.ownerGmKeyId = key) s.system.db.pjs.rows
      (Platform.step env s label).system.db.pjs.rows := by
  cases label with
  | createPj auth pj payload campaign =>
      simp only [Platform.step]
      cases done : Router.createPj pj payload campaign s.system.db auth with
      | error e => exact fun _ _ => Iff.rfl
      | ok db => exact pjs_create apart done
  | updatePj auth pj payload =>
      simp only [Platform.step]
      cases done : Router.updatePj pj payload s.system.db auth with
      | error e => exact fun _ _ => Iff.rfl
      | ok db => exact pjs_update apart done
  | accounts accounts => exact fun _ _ => Iff.rfl
  | system _ | createSession _ _ _ | patchSession _ _ _ | deleteSession _ _ | stop _ =>
      rw [(step_shared env kept drawn rfl).2]
      exact fun _ _ => Iff.rfl

theorem commit_rq (result : Except AppError Database) : (s.commit result).system.rq = s.system.rq := by
  cases result <;> rfl

theorem jobs_step (kept : Attributed owner s) (coherent : Coherent s) {label : Platform.Label}
    (apart : ¬Concerns key s label) (job : JobId) (row : RqJob)
    (created : CreatedBy key s row.sessionId) :
    s.system.rq.get? job = some row ↔
      (Platform.step env s label).system.rq.get? job = some row := by
  have founded := kept.founded
  cases label with
  | system label =>
      cases label with
      | request auth target request => exact jobs_request founded apart job row created
      | advance moved reaction =>
          simp only [Platform.step, System.step]
          cases running : s.system.attempts.get? moved with
          | none => rw [advance_none running]
          | some a => rw [advance_eq running]
      | start moved | settle moved | die moved | reap moved | due moved | expire moved =>
          exact jobs_bookkeeping env founded rfl apart job row created
  | createSession auth target payload =>
      simp only [Platform.step, Platform.createSession]
      split
      · rfl
      · split <;> rfl
  | deleteSession auth target => exact jobs_deleteSession founded coherent apart job row created
  | patchSession auth target payload | createPj auth pj payload campaign
  | updatePj auth pj payload =>
      simp only [Platform.step]
      rw [commit_rq]
  | accounts accounts => exact Iff.rfl
  | stop moved => exact jobs_stop apart job row created

theorem sameFor_step (kept : Attributed owner s) (drawn : ChunksDrawn owner s)
    (coherent : Coherent s)
    {label : Platform.Label} (apart : ¬Concerns key s label) :
    SameFor key s (Platform.step env s label) where
  created := fun session first own => by
    refine ⟨recorded_step label, fun recorded => ?_⟩
    rcases created_step recorded with before | ⟨auth, payload, rfl, named⟩
    · exact before
    · exact (apart (named.symm.trans own)).elim
  rows := fun session created =>
    (step_within env kept drawn label).2 session (not_onBehalf kept.founded apart created)
  pjs := pjs_step kept drawn apart
  jobs := fun job row created => jobs_step kept coherent apart job row created

theorem sameFor_run (kept : Attributed owner s) (coherent : Coherent s) {run : List Platform.Label}
    (drawn : Visits (Platform.step env) (ChunksDrawn owner) s run)
    (apart : Along (Platform.step env) (fun s label => ¬Concerns key s label) s run) :
    SameFor key s (final (Platform.step env) s run) := by
  induction run generalizing s with
  | nil => exact .refl key s
  | cons label rest ih =>
      have kept' := (step_within env kept drawn.1 label).1
      have coherent' : Coherent (Platform.step env s label) := coherent_step kept.founded coherent label
      exact (sameFor_step kept drawn.1 coherent apart.1).trans (ih kept' coherent' drawn.2 apart.2)

end Steps

/-! ## What a game master is answered -/

section Agree
variable {auth : AuthenticatedKey} {s s' : Platform}

theorem sameRows_of_filter {ρ : Type} {rows rows' : List ρ} {owner : ρ → Uuid} {session : Uuid}
    (same : (rows'.filter fun row => owner row = session) =
      rows.filter fun row => owner row = session) :
    SameRows (fun row => owner row = session) rows rows' := by
  intro row own
  have member (l : List ρ) : row ∈ l ↔ row ∈ l.filter fun row => owner row = session := by
    simp [own]
  rw [member rows, member rows', same]

theorem sessions_agree (founded : Founded s) (founded' : Founded s')
    (same : SameFor auth.id s s') :
    SameRows (fun row : Session => row.gmKeyId = auth.id) s.system.db.sessions.rows
      s'.system.db.sessions.rows := by
  intro row own
  have rows (created : CreatedBy auth.id s row.id) :
      row ∈ s.system.db.sessions.rows ↔ row ∈ s'.system.db.sessions.rows :=
    sameRows_of_filter (congrArg Others.sessions (same.rows row.id created)) row rfl
  constructor
  · intro member
    exact (rows (createdBy_owned founded ⟨row, Table.get?_self member, own⟩)).mp member
  · intro member
    have created := @createdBy_owned _ founded' auth _ ⟨row, Table.get?_self member, own⟩
    exact (rows ((same.createdBy row.id).mpr created)).mpr member

theorem agreeOn_rows (columns : Archive) (details : RqJob → RqDetails) {session : Uuid}
    (same : Database.rowsOf s'.system.db session = Database.rowsOf s.system.db session) :
    AgreeOn session (archiveAt columns details s) (archiveAt columns details s') where
  title := rfl
  recordedAt := rfl
  mode := rfl
  createdAt := rfl
  updatedAt := rfl
  mappings := sameRows_of_filter (congrArg Others.mappings same)
  mappedAt := fun _ => rfl
  players := sameRows_of_filter (congrArg Others.players same)
  playedAt := fun _ => rfl
  transcription :=
    (sameRows_of_filter (congrArg Others.transcriptions same)).get? fun _ named => named
  completedAt := rfl
  artifacts := fun kind => by
    have stored : ArtifactRepository.get s.system.db session kind =
        ArtifactRepository.get s'.system.db session kind :=
      (sameRows_of_filter (congrArg Others.artifacts same)).get? fun _ named =>
        congrArg Prod.fst named
    exact congrArg _ stored
  chunks := sameRows_of_filter (congrArg Others.chunks same)

theorem agree_of_same (columns : Archive) (details : RqJob → RqDetails) (key : auth.userId = none)
    (founded : Founded s) (founded' : Founded s') (same : SameFor auth.id s s') :
    AgreeForGm auth (archiveAt columns details s) (archiveAt columns details s') := by
  have nobody {user : Uuid} : auth.userId ≠ some user := by
    rw [key]
    exact Option.some_ne_none user |>.symm
  have outsider (db : Database) (campaign : Uuid) : ¬Member db auth campaign := by
    rintro ⟨user, web, -⟩
    exact nobody web
  have inside (db : Database) (session : Uuid) : ¬Foreign db auth session := by
    rintro ⟨_, _, _, _, user, web, -⟩
    exact nobody web
  constructor
  · exact sessions_agree founded founded' same
  · intro session owned
    exact agreeOn_rows columns details (same.rows session (createdBy_owned founded owned))
  · exact fun _ web => (nobody web).elim
  · intro row look
    exact same.pjs row (look.resolve_right (outsider _ _))
  · exact fun _ _ _ => ⟨rfl, rfl⟩
  · exact fun _ member => (outsider _ _ member).elim
  · exact fun _ member => (outsider _ _ member).elim
  · exact fun web => (web key).elim
  · exact fun session => iff_of_false (inside _ session) (inside _ session)
  · intro job record kind session resolved owned
    have created := createdBy_owned founded owned
    constructor
    · intro known
      obtain ⟨row, found, rfl⟩ := Option.map_eq_some_iff.mp known
      cases resolved
      exact Option.map_eq_some_iff.mpr ⟨row, (same.jobs job row created).mp found, rfl⟩
    · intro known
      obtain ⟨row, found, rfl⟩ := Option.map_eq_some_iff.mp known
      cases resolved
      exact Option.map_eq_some_iff.mpr ⟨row, (same.jobs job row created).mpr found, rfl⟩
  · intro job e
    have named (t : Platform) : ¬∃ record, (archiveAt columns details t).rq job = some record ∧
        resolveJobIdentity job record = .error e := by
      rintro ⟨record, known, refused⟩
      obtain ⟨row, -, rfl⟩ := Option.map_eq_some_iff.mp known
      cases refused
    exact iff_of_false (named s) (named s')

theorem audio_of_same (key : auth.userId = none) (founded : Founded s) (founded' : Founded s')
    (same : SameFor auth.id s s') : AgreeOnAudio auth s.system.db s'.system.db := by
  have own {row : Session} (hears : Hears s.system.db auth row) : row.gmKeyId = auth.id := by
    rcases hears with own | ⟨_, -, _, web, -⟩
    · exact own
    · rw [key] at web
      cases web
  refine ⟨fun row hears => sessions_agree founded founded' same row (own hears), ?_⟩
  intro row member hears
  have created := createdBy_owned founded ⟨row, Table.get?_self member, own hears⟩
  exact (sameRows_of_filter (congrArg Others.audioSources (same.rows row.id created))).get?
    fun _ named => named

end Agree

/-- Whatever others do in the meantime, a game master with an API key gets the same answers. -/
theorem answers_undisturbed (env : Environment) {owner : Uuid → Uuid} (columns : Archive)
    (details : RqJob → RqDetails) {before after : List Platform.Label} {auth : AuthenticatedKey}
    (key : auth.userId = none)
    (drawn : Visits (Platform.step env) (ChunksDrawn owner) .initial (before ++ after))
    (apart : Along (Platform.step env) (fun s label => ¬Concerns auth.id s label)
      (final (Platform.step env) .initial before) after) :
    (∀ (uuid : Text → Option Uuid) (request : Gm.Request) (answer : Except AppError Response),
      Answers uuid (archiveAt columns details (final (Platform.step env) .initial before)) auth
          request answer ↔
        Answers uuid
          (archiveAt columns details (final (Platform.step env) .initial (before ++ after))) auth
          request answer) ∧
    ∀ disk disk', SameFiles auth (final (Platform.step env) .initial before).system.db disk disk' →
      ∀ session range,
        AudioRange.getAudio (final (Platform.step env) .initial before).system.db disk auth session
            range =
          AudioRange.getAudio (final (Platform.step env) .initial (before ++ after)).system.db disk'
            auth session range := by
  obtain ⟨drawn₁, drawn₂⟩ := drawn.split
  have kept := (attributed_run env (attributed_initial owner) drawn₁).1.final
  have coherent := (coherent_run env before).final.2
  have same := sameFor_run kept coherent drawn₂ apart
  rw [final_append]
  have founded' := (founded_run env (before ++ after)).final
  rw [final_append] at founded'
  have agree := agree_of_same columns details key kept.founded founded' same
  have audio := audio_of_same key kept.founded founded' same
  exact ⟨fun _ _ _ => ⟨gm_answers_agree agree, gm_answers_agree agree.symm⟩,
    fun _ _ files => getAudio_agree agree audio files⟩

instance (key : Uuid) (s : Platform) (session : Uuid) : Decidable (CreatedBy key s session) :=
  decidable_of_iff ((s.created.get? session).any (fun first => first.gmKeyId = key) = true)
    (by simp [CreatedBy, Option.any_eq_true])

instance (key : Uuid) (s : Platform) (job : JobId) :
    Decidable (∃ row, s.system.rq.get? job = some row ∧ CreatedBy key s row.sessionId) :=
  decidable_of_iff ((s.system.rq.get? job).any (fun row => CreatedBy key s row.sessionId) = true)
    (by simp [Option.any_eq_true])

instance (key : Uuid) (s : Platform) : (label : Platform.Label) → Decidable (Concerns key s label)
  | .system (.request auth _ _) | .createSession auth _ _ | .patchSession auth _ _
  | .deleteSession auth _ | .createPj auth _ _ _ | .updatePj auth _ _ =>
      inferInstanceAs (Decidable (auth.id = key))
  | .system (.start job) | .system (.advance job _) | .system (.settle job) | .system (.die job)
  | .system (.reap job) | .system (.due job) | .system (.expire job) | .stop job =>
      inferInstanceAs (Decidable (∃ row, s.system.rq.get? job = some row ∧
        CreatedBy key s row.sessionId))
  | .accounts _ => inferInstanceAs (Decidable False)

theorem unset_bounded : ∀ text ∈ (none : Option Text), text.length ≤ 8000 := by
  intro _ none
  cases none

/-- Another key fails to delete the session of the game master, and has one of its own
transcribed. -/
def neighbourRun : List Platform.Label :=
  .deleteSession ⟨9, .apiKey, none⟩ 1 ::
    .createSession ⟨9, .apiKey, none⟩ 2 ⟨1, some .nonDiarised, none, unset_bounded⟩ ::
      .system (.request ⟨9, .apiKey, none⟩ 2 (.postAudio smallUpload none)) ::
        served 3 (replying ['y'])

def noDetails (_ : RqJob) : RqDetails := ⟨none, none, none, none, none, ⟨none, none⟩⟩

theorem answers_undisturbed_neighbour :
    (Answers (fun _ => none) (archiveAt (neighbours []) noDetails (summarised ['x'])) gameMaster
        (.summary 1)
        (getSummary (archiveAt (neighbours []) noDetails (summarised ['x'])).toLibrary gameMaster 1) ↔
      Answers (fun _ => none)
        (archiveAt (neighbours []) noDetails
          (final (Platform.step sampleEnvironment) .initial (summarisedRun ['x'] ++ neighbourRun)))
        gameMaster (.summary 1)
        (getSummary (archiveAt (neighbours []) noDetails (summarised ['x'])).toLibrary gameMaster
          1)) ∧
    AudioRange.getAudio (final (Platform.step sampleEnvironment) .initial
        (summarisedRun ['x'])).system.db (recordings [3]) gameMaster 1 none =
      AudioRange.getAudio (final (Platform.step sampleEnvironment) .initial
        (summarisedRun ['x'] ++ neighbourRun)).system.db (recordings [4]) gameMaster 1 none := by
  have drawn : Visits (Platform.step sampleEnvironment)
      (fun s => ∀ row ∈ s.system.db.chunks.rows, (if row.id = 1 then 1 else 2) = row.sessionId)
      .initial (summarisedRun ['x'] ++ neighbourRun) := by decide +kernel
  have apart : Along (Platform.step sampleEnvironment) (fun s label => ¬Concerns 7 s label)
      (summarised ['x']) neighbourRun := by decide +kernel
  obtain ⟨answers, audio⟩ := @answers_undisturbed sampleEnvironment
    (fun chunk => if chunk = 1 then 1 else 2) (neighbours []) noDetails _ _ gameMaster rfl drawn apart
  have prepared : ∀ source ∈ (final (Platform.step sampleEnvironment) .initial
      (summarisedRun ['x'])).system.db.audioSources.rows, source.path = .prepared 1 := by
    decide +kernel
  have files : SameFiles gameMaster (final (Platform.step sampleEnvironment) .initial
      (summarisedRun ['x'])).system.db (recordings [3]) (recordings [4]) := by
    intro row member hears source stored
    have path := prepared source (Table.mem_of_get? stored)
    simp only [recordings, path]
    rfl
  exact ⟨answers (fun _ => none) (.summary 1) _, audio _ _ files 1 none⟩

end Kaeyris.Proof
