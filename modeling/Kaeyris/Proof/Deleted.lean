import Kaeyris.AudioRange
import Kaeyris.Proof.Bystanders
import Kaeyris.Proof.Isolation

/-!
# A deleted session stays deleted

Once the deletion of a session is accepted, no request and no job that was still at work brings its
row back, whatever comes after: everyone is told that it does not exist, and a worker that takes a
job left in the queue gives up before it writes anything.
-/

namespace Kaeyris.Proof
open Lib Jobs Process Platform Router

def sessionOf : Gm.Request → Option Uuid
  | .session session | .chunks session | .mapping session | .players session
  | .transcription session | .transcriptionMd session | .narrative session | .narrativeMd session
  | .elements session | .elementsMd session | .summary session | .summaryMd session
  | .pov session _ => some session
  | .campaigns | .campaign _ | .sessions _ | .pjs _ | .job _ _ => none

def sessionOfPlayer : Me.Request → Option Uuid
  | .narrative session | .narrativeMd session | .summary session | .summaryMd session
  | .elements session | .elementsMd session | .pov session | .povMd session => some session
  | .me | .sessions => none

/-- No route and no job finds the session, and its identifier is not drawn again. -/
structure Gone (env : Environment) (session : Uuid) (s : Platform) : Prop where
  requests : ∀ auth (request : Request), request.handle env s.system.db s.system.rq auth session =
    .error (sessionNotFound session)
  created : ∀ auth payload, Platform.step env s (.createSession auth session payload) = s
  patched : ∀ auth payload, ∃ e, Router.patchSession payload s.system.db auth session = .error e
  deleted : ∀ auth, Router.deleteSession s.system.db s.system.rq auth session =
    .error (sessionNotFound session)
  read : ∀ uuid (archive : Archive), archive.db = s.system.db → ∀ auth request,
    sessionOf request = some session → ∀ answer, Gm.Answers uuid archive auth request answer →
      ∃ e, answer = .error e
  heard : ∀ disk auth range, AudioRange.getAudio s.system.db disk auth session range =
    .error ⟨sessionNotFound session, []⟩
  listed : ∀ uuid (archive : Archive), archive.db = s.system.db → ∀ auth campaign page,
    Gm.Answers uuid archive auth (.sessions campaign) (.ok (.sessions page)) →
      ∀ out ∈ page.items, out.id ≠ session
  polled : ∀ uuid (archive : Archive), archive.db = s.system.db → ∀ auth job now out,
    Gm.Answers uuid archive auth (.job job now) (.ok (.job out)) → out.sessionId ≠ session
  played : ∀ (lib : Library), lib.db = s.system.db → ∀ auth request,
    sessionOfPlayer request = some session → ∀ answer, Me.Answers lib auth request answer →
      ∃ e, answer = .error e
  listedForPlayers : ∀ (lib : Library), lib.db = s.system.db → ∀ auth items,
    Me.Answers lib auth .sessions (.ok (.sessions items)) →
      ∀ item ∈ items, item.sessionId ≠ session
  started : ∀ kind reaction, ∃ e,
    (jobProgram env kind session).step reaction s.system.db = (.raise e, s.system.db)

/-! ## Without a row -/

theorem stops_at_error {α β : Type} (next : α → Except AppError β) {x : Except AppError α}
    {e : AppError} (fails : x = .error e) : ∃ e, (x >>= next) = .error e := by
  subst fails
  exact ⟨e, rfl⟩

section Absent
variable {db : Database} {session : Uuid} (absent : db.sessions.get? session = none)
include absent

theorem getForGm_absent (gmKey : Uuid) (campaign : Option Uuid) :
    SessionRepository.getForGm db session gmKey campaign = none := by
  unfold SessionRepository.getForGm
  rw [absent]
  rfl

theorem requireSession_absent (auth : AuthenticatedKey) :
    requireSession db session auth = .error (sessionNotFound session) := by
  simp only [requireSession, resolveSessionForGm, getForGm_absent absent]

theorem handle_absent (env : Environment) (rq : Rq) (auth : AuthenticatedKey) (request : Request) :
    request.handle env db rq auth session = .error (sessionNotFound session) := by
  have refused {α β : Type} (next : Session → Except AppError α) (f : α → β) :
      (requireSession db session auth >>= next).map f = .error (sessionNotFound session) := by
    rw [requireSession_absent absent]
    rfl
  cases request with
  | _ => exact refused _ _

theorem patchSession_absent (auth : AuthenticatedKey) (payload : SessionUpdate) :
    ∃ e, Router.patchSession payload db auth session = .error e := by
  cases patched : Router.patchSession payload db auth session with
  | error e => exact ⟨e, rfl⟩
  | ok after =>
      obtain ⟨⟨row, stored, -⟩, -⟩ := patchSession_ok patched
      rw [absent] at stored
      cases stored

theorem deleteSession_absent (rq : Rq) (auth : AuthenticatedKey) :
    Router.deleteSession db rq auth session = .error (sessionNotFound session) := by
  unfold Router.deleteSession
  rw [requireSession_absent absent]
  rfl

theorem step_absent (env : Environment) (kind : JobKind) (reaction : Reaction effects) :
    ∃ e, (jobProgram env kind session).step reaction db = (.raise e, db) := by
  have reads {α : Type} {label : Tx} {body : Database → Except Exn α}
      (refuses : body db = .error (.permanentJob s!"Session {session} not found."))
      (next : α → JobBody Unit) :
      ∃ e, (Process.reading label body >>= next).step reaction db = (.raise e, db) := by
    simp only [Process.reading, Process.bind_eq, Process.bind, Process.step]
    cases reaction.fails label with
    | some failure => exact ⟨failure, rfl⟩
    | none =>
        refine ⟨.permanentJob s!"Session {session} not found.", ?_⟩
        dsimp only [id]
        rw [refuses]
        rfl
  cases kind with
  | transcription =>
      have refuses : beginTranscription session db =
          .error (.permanentJob s!"Session {session} not found.") := by
        simp only [beginTranscription, absent]
      simp only [jobProgram, transcribeSession, Process.atomically, Process.bind_eq, Process.bind,
        Process.step]
      cases reaction.fails .begin with
      | some failure => exact ⟨failure, rfl⟩
      | none =>
          refine ⟨.permanentJob s!"Session {session} not found.", ?_⟩
          simp only [refuses]
          rfl
  | narrative | elements =>
      refine reads ?_ _
      simp only [sourceDocument, absent]
  | povs =>
      refine reads ?_ _
      simp only [loadParticipants, absent]
  | summary =>
      refine reads ?_ _
      simp only [loadChunkData, absent]

/-! ## Readers -/

theorem wrongSession_gm {uuid : Text → Option Uuid} {archive : Archive} (same : archive.db = db)
    {auth : AuthenticatedKey} {request : Gm.Request} (about : sessionOf request = some session)
    {answer : Except AppError Gm.Response} (answers : Gm.Answers uuid archive auth request answer) :
    ∃ e, answer = .error e := by
  subst same
  have refused := requireSession_absent absent auth
  have artifact (checks : Session → Except AppError Unit) (kind : ArtifactKind) (detail : String) :
      Gm.readArtifact archive.toLibrary auth session checks kind detail =
        .error (sessionNotFound session) := by
    unfold Gm.readArtifact
    rw [refused]
    rfl
  cases request with
  | campaigns | campaign _ | sessions _ | pjs _ | job _ _ => cases about
  | session target =>
      obtain rfl : target = session := Option.some.inj about
      rw [show answer = Gm.getSession archive auth target from answers, Gm.getSession,
        getForGm_absent absent]
      dsimp only
      cases Gm.requireMember archive.db auth
          ((archive.db.sessions.get? target).bind Session.campaignId) with
      | error e => exact ⟨e, rfl⟩
      | ok u => exact ⟨_, rfl⟩
  | chunks target | mapping target | transcription target | transcriptionMd target =>
      obtain rfl : target = session := Option.some.inj about
      subst answers
      exact stops_at_error _ refused
  | players target =>
      obtain rfl : target = session := Option.some.inj about
      have closed : Gm.openForPlayers archive auth target = .error (sessionNotFound target) := by
        unfold Gm.openForPlayers
        rw [refused]
        rfl
      simp only [Gm.Answers, closed] at answers
      exact ⟨_, answers⟩
  | narrative target | narrativeMd target | elements target | elementsMd target | summary target
  | summaryMd target =>
      obtain rfl : target = session := Option.some.inj about
      subst answers
      exact stops_at_error _ (artifact _ _ _)
  | pov target pjIdStr =>
      obtain rfl : target = session := Option.some.inj about
      subst answers
      unfold Gm.getPov
      dsimp only
      cases Me.orRaise (uuid (Gm.povPath pjIdStr).2) _ with
      | error e => exact ⟨e, rfl⟩
      | ok pj =>
          show ∃ e, (requireSession archive.db target auth >>= _) = .error e
          exact stops_at_error _ refused

theorem getAudio_absent (disk : Disk) (auth : AuthenticatedKey) (range : Option Text) :
    AudioRange.getAudio db disk auth session range = .error ⟨sessionNotFound session, []⟩ := by
  have closed : AudioRange.sessionForAudioRead db session auth = none := by
    simp only [AudioRange.sessionForAudioRead, resolveSessionForGm, getForGm_absent absent, absent]
    split
    · rfl
    · rfl
  rw [AudioRange.getAudio, closed]

theorem wrongSession_player {lib : Library} (same : lib.db = db) {auth : PlayerKey}
    {request : Me.Request} (about : sessionOfPlayer request = some session)
    {answer : Except AppError Me.Response} (answers : Me.Answers lib auth request answer) :
    ∃ e, answer = .error e := by
  subst same
  have closed : ∃ e, Me.ensurePlayerCanReadSession lib.db session auth.pjId
      (Me.campaignIdForAuth lib auth) = .error e := by
    unfold Me.ensurePlayerCanReadSession
    cases auth.pjId with
    | none => exact ⟨_, rfl⟩
    | some pj =>
        have unmapped : Me.isPjMappedOnSession lib.db session pj (Me.campaignIdForAuth lib auth) =
            false := by
          unfold Me.isPjMappedOnSession
          rw [absent]
          rfl
        simp only [unmapped]
        exact ⟨_, rfl⟩
  obtain ⟨e, closed⟩ := closed
  have artifact (kind : Uuid → ArtifactKind) (detail : String) :
      Me.readArtifact lib auth session kind detail = .error e := by
    unfold Me.readArtifact
    rw [closed]
    rfl
  have page (kind : Uuid → ArtifactKind) (detail : String) :
      Me.readForMarkdown lib auth session kind detail = .error e := by
    unfold Me.readForMarkdown
    rw [closed]
    rfl
  cases request with
  | me | sessions => cases about
  | narrative target | summary target | elements target | pov target =>
      obtain rfl : target = session := Option.some.inj about
      subst answers
      exact stops_at_error _ (artifact _ _)
  | narrativeMd target | summaryMd target | elementsMd target | povMd target =>
      obtain rfl : target = session := Option.some.inj about
      subst answers
      exact stops_at_error _ (page _ _)

theorem not_stored {row : Session} (stored : row ∈ db.sessions.rows) : row.id ≠ session := by
  rintro rfl
  have found : db.sessions.get? row.id = some row := Table.get?_self stored
  rw [absent] at found
  cases found

theorem not_listed {uuid : Text → Option Uuid} {archive : Archive} (same : archive.db = db)
    {auth : AuthenticatedKey} {campaign : Option Uuid} {page : Gm.Page Gm.SessionOut}
    (answers : Gm.Answers uuid archive auth (.sessions campaign) (.ok (.sessions page))) :
    ∀ out ∈ page.items, out.id ≠ session := by
  subst same
  simp only [Gm.Answers, Gm.Listed] at answers
  split at answers
  · cases answers
  · obtain ⟨rows, arranged, answer⟩ := answers
    obtain ⟨_, made, same⟩ := except_map_ok answer.symm
    cases same
    obtain ⟨_, -, done⟩ := except_bind_ok made
    cases done
    intro out listed
    obtain ⟨row, member, rfl⟩ := List.mem_map.mp listed
    have selected := arranged.mem.mp member
    exact not_stored absent (List.mem_of_mem_filter selected)

theorem not_polled {uuid : Text → Option Uuid} {archive : Archive} (same : archive.db = db)
    {auth : AuthenticatedKey} {job : JobId} {now : Timestamp} {out : JobEvents.JobOut}
    (answers : Gm.Answers uuid archive auth (.job job now) (.ok (.job out))) :
    out.sessionId ≠ session := by
  subst same
  obtain ⟨_, projected, same⟩ := except_map_ok (Eq.symm answers)
  cases same
  obtain ⟨record, -, identified⟩ := except_bind_ok projected
  obtain ⟨⟨kind, target⟩, -, opened⟩ := except_bind_ok identified
  obtain ⟨row, found, shown⟩ := except_bind_ok opened
  have names := except_mapError_ok shown
  obtain ⟨_, -, rfl⟩ := except_map_ok names
  rintro rfl
  unfold resolveSessionForGm at found
  rw [getForGm_absent absent] at found
  cases found

theorem not_listedForPlayers {lib : Library} (same : lib.db = db) {auth : PlayerKey}
    {items : List Me.PlayerSessionItem}
    (answers : Me.Answers lib auth .sessions (.ok (.sessions items))) :
    ∀ item ∈ items, item.sessionId ≠ session := by
  subst same
  simp only [Me.Answers] at answers
  split at answers
  · cases answers
  · obtain ⟨rows, listed, answer⟩ := answers
    cases answer
    intro item member
    obtain ⟨row, among, rfl⟩ := List.mem_map.mp member
    have selected := listed.1.mem_iff.mp among
    exact not_stored absent (mem_selectPlayerSessions.mp selected).1

end Absent

/-! ## Whatever comes after -/

section Steps
variable {env : Environment} {s : Platform} {session : Uuid}

theorem absent_created (registered : Registered s session) (auth : AuthenticatedKey)
    (payload : SessionCreate) :
    Platform.step env s (.createSession auth session payload) = s := by
  obtain ⟨first, recorded⟩ := registered
  have drawn : s.created.insert? (payload.row session auth.id) = none := by
    cases inserted : s.created.insert? (payload.row session auth.id) with
    | none => rfl
    | some created =>
        have free : s.created.get? session = none := (Table.insert?_eq_some.mp inserted).1
        rw [free] at recorded
        cases recorded
  simp only [Platform.step, Platform.createSession, drawn]

theorem gone_of_absent (absent : s.system.db.sessions.get? session = none)
    (registered : Registered s session) : Gone env session s where
  requests := fun auth request => handle_absent absent env s.system.rq auth request
  created := absent_created registered
  patched := patchSession_absent absent
  deleted := deleteSession_absent absent s.system.rq
  read := fun _ _ same _ _ about _ answers => wrongSession_gm absent same about answers
  heard := getAudio_absent absent
  listed := fun _ _ same _ _ _ answers => not_listed absent same answers
  polled := fun _ _ same _ _ _ _ answers => not_polled absent same answers
  played := fun _ same _ _ about _ answers => wrongSession_player absent same about answers
  listedForPlayers := fun _ same _ _ answers => not_listedForPlayers absent same answers
  started := step_absent absent env

theorem AddsOnly.absent {adds : Holding → Prop} {drops : Prop} {target : Uuid} {db db' : Database}
    (step : AddsOnly adds drops target db db') (absent : db.sessions.get? session = none) :
    db'.sessions.get? session = none := by
  have same := step.sessions session
  rw [absent] at same
  exact Option.map_eq_none_iff.mp same

theorem absent_commit (absent : s.system.db.sessions.get? session = none)
    {result : Except AppError Database}
    (keeps : ∀ db, result = .ok db → db.sessions.get? session = none) :
    (s.commit result).system.db.sessions.get? session = none := by
  cases result with
  | error e => exact absent
  | ok db => exact keeps db rfl

theorem absent_step (founded : Founded s) (registered : Registered s session)
    (absent : s.system.db.sessions.get? session = none) (label : Platform.Label) :
    (Platform.step env s label).system.db.sessions.get? session = none := by
  cases label with
  | system label =>
      rw [Platform.step]
      cases label with
      | request auth target request =>
          rw [System.step]
          cases handled : request.handle env s.system.db s.system.rq auth target with
          | error e =>
              rw [request_error handled]
              exact absent
          | ok accepted =>
              rw [request_ok handled]
              exact (handle_adds handled).1.absent absent
      | advance job reaction =>
          rw [System.step]
          cases running : s.system.attempts.get? job with
          | none =>
              rw [advance_none running]
              exact absent
          | some a =>
              rw [advance_eq running]
              dsimp only
              obtain ⟨first, -, step, -⟩ := writesFitting_advance founded running reaction
              rcases step with ⟨tx, pjs, -, -, step, -⟩ | same
              · exact step.absent absent
              · rw [same]
                exact absent
      | start job | settle job | die job | reap job | due job | expire job =>
          rw [(bookkeeping_step founded.sound.linked rfl).db]
          exact absent
  | createSession auth target payload =>
      by_cases own : target = session
      · rw [own, absent_created registered]
        exact absent
      · simp only [Platform.step, Platform.createSession]
        split
        · exact absent
        · split
          · rename_i done
            obtain ⟨sessions, added, rfl⟩ := createSession_ok done
            exact (Table.get?_insert? added session).trans ((if_neg own).trans absent)
          · exact absent
  | patchSession auth target payload =>
      refine absent_commit absent fun db done => ?_
      rcases (patchSession_ok done).2 with rfl | ⟨context, rfl⟩
      · exact absent
      · rw [SessionRepository.updateCampaignContext, Table.get?_update, absent]
        rfl
  | deleteSession auth target =>
      simp only [Platform.step, Platform.deleteSession]
      split
      · rename_i done
        obtain ⟨_, -, -, rfl, -⟩ := deleteSession_ok done
        dsimp only
        rw [get?_deleted, absent]
        exact ite_self _
      · exact absent
  | createPj auth pj payload campaign =>
      refine absent_commit absent fun db done => ?_
      obtain ⟨_, _, -, rfl⟩ := createPj_ok done
      exact absent
  | updatePj auth pj payload =>
      refine absent_commit absent fun db done => ?_
      obtain ⟨_, _, _, -, -, -, rfl⟩ := updatePj_ok done
      exact absent
  | accounts accounts => exact absent
  | stop job =>
      simp only [Platform.step, Platform.stop]
      split <;> exact absent

end Steps

/-- After the deletion of a session is accepted, nothing brings it back. -/
theorem deleted_for_good (env : Environment) (before after : List Platform.Label)
    {auth : AuthenticatedKey} {session : Uuid}
    (accepted : (Router.deleteSession (final (Platform.step env) .initial before).system.db
      (final (Platform.step env) .initial before).system.rq auth session).isOk = true) :
    Gone env session (final (Platform.step env) .initial
      (before ++ .deleteSession auth session :: after)) := by
  let s := final (Platform.step env) .initial before
  have founded : Founded s := (founded_run env before).final
  cases done : Router.deleteSession s.system.db s.system.rq auth session with
  | error e =>
      rw [show Router.deleteSession _ _ auth session = _ from done] at accepted
      cases accepted
  | ok result =>
      obtain ⟨db, rq, stopped⟩ := result
      obtain ⟨row, stored, -, rfl, -⟩ := deleteSession_ok done
      obtain ⟨first, recorded, -⟩ := founded.present session row stored
      have deletes : (Platform.step env s (.deleteSession auth session)).system.db =
          SessionRepository.delete s.system.db session := by
        simp only [Platform.step, Platform.deleteSession, done]
      have absent : (Platform.step env s (.deleteSession auth session)).system.db.sessions.get?
          session = none := by
        rw [deletes, get?_deleted, if_pos rfl]
      have registered : (Platform.step env s (.deleteSession auth session)).created.get? session =
          some first := recorded_step _ recorded
      have kept : Visits (Platform.step env) (fun s => Founded s ∧ Registered s session ∧
          s.system.db.sessions.get? session = none)
          (Platform.step env s (.deleteSession auth session)) after := by
        refine Visits.of_step (fun s label => ?_)
          ⟨founded_step env founded _, ⟨first, registered⟩, absent⟩
        rintro ⟨founded, ⟨first, recorded⟩, absent⟩
        exact ⟨founded_step env founded label, ⟨first, recorded_step label recorded⟩,
          absent_step founded ⟨first, recorded⟩ absent label⟩
      rw [final_append]
      obtain ⟨-, registered, absent⟩ := kept.final
      exact gone_of_absent absent registered

def narratingRun : List Platform.Label :=
  summarisedRun ['a'] ++ [.system (.request gameMaster 1 (.postNarrative false)),
    .system (.start 3), .system (.advance 3 (replying ['a']))]

/-- The worker stores its narrative and ends, and the game master asks for another one. -/
def leftOverRun : List Platform.Label :=
  [.system (.advance 3 (replying ['a'])), .system (.advance 3 (replying ['a'])),
    .system (.advance 3 (replying ['a'])), .system (.advance 3 (replying ['a'])),
    .system (.settle 3), .createSession gameMaster 1 ⟨1, none, none, unset_bounded⟩,
    .system (.request gameMaster 1 (.postNarrative false))]

theorem deleted_for_good_summarised :
    Gone sampleEnvironment 1 (final (Platform.step sampleEnvironment) .initial
      (narratingRun ++ .deleteSession gameMaster 1 :: leftOverRun)) :=
  deleted_for_good sampleEnvironment narratingRun leftOverRun (by decide +kernel)

end Kaeyris.Proof
