import Kaeyris.Proof.Reupload
import Kaeyris.Proof.Steps

/-!
# Artifacts and their source

An artifact job reads its source in one transaction and writes in a later one, and nothing ties the
two together. What it writes is of the current transcription as long as the session is not reset,
and does not leave `transcribed`, in between.
-/

namespace Kaeyris.Proof
open Lib Jobs

/-- Every artifact is of the text that stood since the last reset, of a transcribed session. -/
def ArtifactsFresh (s : System) : Prop :=
  ∀ session kind row, ArtifactRepository.get s.db session kind = some row →
    s.provenance session kind = some (s.resets session) ∧
      (s.db.sessions.get? session).map Session.state = some .transcribed

theorem artifactsFresh_iff {s : System} :
    ArtifactsFresh s ↔ ∀ session kind, (view s.db session).artifact kind ≠ none →
      s.provenance session kind = some (s.resets session) ∧
        (view s.db session).state = some .transcribed := by
  constructor
  · intro fresh session kind stored
    obtain ⟨row, found⟩ := Option.ne_none_iff_exists'.mp stored
    exact fresh session kind row found
  · intro fresh session kind row found
    apply fresh session kind
    change ArtifactRepository.get s.db session kind ≠ none
    rw [found]
    exact Option.some_ne_none row

theorem not_artifactsFresh {s : System} (session : Uuid) (kind : ArtifactKind)
    (stored : (ArtifactRepository.get s.db session kind).isSome = true)
    (left : (s.db.sessions.get? session).map Session.state ≠ some .transcribed) :
    ¬ArtifactsFresh s := by
  intro fresh
  obtain ⟨row, found⟩ := Option.isSome_iff_exists.mp stored
  exact left (fresh session kind row found).2

/-- The transactions by which a transcription job takes its session out of `transcribed`. -/
def Leaves (v : View) (kind : JobKind) (tx : Tx) : Prop :=
  kind = .transcription ∧
    (tx = .markSessionFailed ∨ tx = .restoreSessionState ∨ tx = .begin ∧ v.audio = some none)

/-- An artifact job of the session has read its source and not ended. -/
def InFlight (s : System) (session : Uuid) : Prop :=
  ∃ job a, s.attempts.get? job = some a ∧ a.session = session ∧ a.kind.isArtifact = true ∧
    a.source.isSome = true ∧ a.program.finished = false

/-- A session is reset only when no artifact job is in flight, and leaves `transcribed` by a
transcription job only when it has no artifact besides. -/
def SourceStands (env : Environment) (s : System) : Label → Prop
  | .request auth session request =>
      request.resets = true →
        (∃ accepted, request.handle env s.db s.rq auth session = .ok accepted) →
          ¬InFlight s session
  | .advance job reaction =>
      ∀ a tx, s.attempts.get? job = some a → a.program.commits reaction = some tx →
        Leaves (view s.db a.session) a.kind tx →
          ¬InFlight s a.session ∧ ∀ kind, ArtifactRepository.get s.db a.session kind = none
  | _ => True

/-! ## The invariant -/

structure FreshInvariant (s : System) : Prop where
  sound : Sound (fun _ _ => True) s
  heard : Heard s
  unheard : ∀ session, (view s.db session).audio = none →
    (view s.db session).state ≠ some .transcribed
  fresh : ∀ session kind, (view s.db session).artifact kind ≠ none →
    s.provenance session kind = some (s.resets session) ∧
      (view s.db session).state = some .transcribed
  unread : ∀ job a, s.attempts.get? job = some a → a.kind.isArtifact = true → a.source = none →
    a.program.QuietUntil (Tx.writes · = []) Tx.loadSource (EndsUnlessTranscribed a.session)
  read : ∀ job a n, s.attempts.get? job = some a → a.kind.isArtifact = true → a.source = some n →
    a.program.finished = true ∨
      n = s.resets a.session ∧ (view s.db a.session).state = some .transcribed

section Steps
variable {env : Environment} {s : System}

theorem fresh_bookkeeping (inv : FreshInvariant s) {label : Label}
    (kind : bookkeeping label = true) : FreshInvariant (s.step env label) := by
  have keeps : Bookkeeping env s (s.step env label) := bookkeeping_step inv.sound.linked kind
  refine ⟨sound_step env inv.sound (within_trivial s.db) label,
    heard_step env inv.sound (within_trivial s.db) inv.heard label, ?_, ?_, ?_, ?_⟩
  · rw [keeps.db]
    exact inv.unheard
  · rw [keeps.db, keeps.provenance, keeps.resets]
    exact inv.fresh
  · intro job a running artifact unread
    rcases keeps.attempts job a running with before | ⟨row, -, rfl⟩
    · exact inv.unread job a before artifact unread
    · exact quiet_loadSource row.sessionId env artifact
  · intro job a n running artifact read
    rw [keeps.db, keeps.resets]
    rcases keeps.attempts job a running with before | ⟨row, -, rfl⟩
    · exact inv.read job a n before artifact read
    · cases read

theorem fresh_request (inv : FreshInvariant s) {auth : AuthenticatedKey} {session : Uuid}
    {request : Request} (ok : SourceStands env s (.request auth session request)) :
    FreshInvariant (s.step env (.request auth session request)) := by
  have sound := sound_step env inv.sound (within_trivial s.db)
    (.request auth session request)
  have heard := heard_step env inv.sound (within_trivial s.db) inv.heard
    (.request auth session request)
  rw [System.step] at sound heard
  refine request_keeps inv fun accepted handled => ?_
  obtain ⟨⟨others, changes⟩, -⟩ := handle_ok handled
  have stays (transcribed : (view s.db session).state = some .transcribed)
      (standing : request.resets = false) :
      (view accepted.db session).state = some .transcribed := by
    apply changes_transcribed changes transcribed _ standing
    exact fun absent => inv.unheard session absent transcribed
  rw [request_ok handled] at sound heard ⊢
  refine ⟨sound, heard, ?_, ?_, inv.unread, ?_⟩
  · intro other absent transcribed
    dsimp only at absent transcribed
    by_cases own : other = session
    · subst own
      have before := changes_to_transcribed changes transcribed
      apply inv.unheard other _ before
      by_contra present
      exact changes_audio changes present absent
    · rw [others other own] at absent transcribed
      exact inv.unheard other absent transcribed
  · intro other kind stored
    dsimp only at stored ⊢
    by_cases own : other = session
    · subst own
      obtain ⟨before, standing⟩ := changes_stored changes stored
      obtain ⟨recent, transcribed⟩ := inv.fresh other kind before
      rw [standing]
      exact ⟨by simpa using recent, stays transcribed standing⟩
    · rw [others other own] at stored ⊢
      simpa [own] using inv.fresh other kind stored
  · intro job a n running artifact read
    dsimp only
    rcases inv.read job a n running artifact read with ended | ⟨recent, transcribed⟩
    · exact .inl ended
    · by_cases own : a.session = session
      · cases ended : a.program.finished with
        | true => exact .inl rfl
        | false =>
            have standing : request.resets = false := by
              by_contra resets
              refine ok (by simpa using resets) ⟨accepted, handled⟩ ⟨job, a, running, own,
                artifact, ?_, ended⟩
              rw [read]
              rfl
            rw [standing, own]
            exact .inr ⟨by simpa [own] using recent, stays (own ▸ transcribed) standing⟩
      · rw [others _ own]
        exact .inr ⟨by simpa [own] using recent, transcribed⟩

theorem transcribes_cases {v v' : View} {tx : Tx} (change : Transcribes v tx v') :
    v'.artifact = v.artifact ∧ tx.writes = [] ∧
      (Leaves v .transcription tx ∨
        (v.state = some .transcribed → v'.state = some .transcribed)) := by
  cases change with
  | nothing reads => exact ⟨rfl, reads, .inr id⟩
  | begins audio => exact ⟨rfl, rfl, .inl ⟨rfl, .inr (.inr ⟨rfl, audio⟩)⟩⟩
  | fails => exact ⟨rfl, rfl, .inl ⟨rfl, .inl rfl⟩⟩
  | restores => exact ⟨rfl, rfl, .inl ⟨rfl, .inr (.inl rfl)⟩⟩
  | persists =>
      refine ⟨rfl, rfl, .inr fun transcribed => ?_⟩
      unfold View.inState
      rw [transcribed]
      rfl

/-- What a step of a running job has to leave as it is, for artifacts to stay fresh. -/
structure KeepsFresh (s s' : System) : Prop where
  transcribed : ∀ session, (InFlight s session ∨ ∃ kind, (view s.db session).artifact kind ≠ none) →
    (view s.db session).state = some .transcribed → (view s'.db session).state = some .transcribed
  unheard : ∀ session, (view s.db session).audio = none →
    (view s'.db session).state = (view s.db session).state
  stored : ∀ session kind, (view s'.db session).artifact kind ≠ none →
    (view s.db session).artifact kind ≠ none ∧
      s'.provenance session kind = s.provenance session kind ∨
    s'.provenance session kind = some (s.resets session) ∧
      (view s.db session).state = some .transcribed ∧
        (view s'.db session).state = (view s.db session).state

section Advance
variable {job : JobId} {a : Attempt} (running : s.attempts.get? job = some a)
  (reaction : Reaction effects)
include running

theorem provenance_unwritten {session : Uuid} {kind : ArtifactKind}
    (unwritten : ∀ tx, a.program.commits reaction = some tx → session = a.session →
      kind ∉ Tx.writes tx) :
    (s.advance job reaction).provenance session kind = s.provenance session kind := by
  rw [provenance_advance running, if_neg]
  rintro ⟨own, tx, committed, member⟩
  exact unwritten tx committed own member

theorem keepsFresh_of_silent (same : (s.advance job reaction).db = s.db)
    (reads : ∀ tx, a.program.commits reaction = some tx → Tx.writes tx = []) :
    KeepsFresh s (s.advance job reaction) where
  transcribed := fun session _ before => by rw [same, before]
  unheard := fun session _ => by rw [same]
  stored := fun session kind stored => by
    rw [same] at stored
    refine .inl ⟨stored, provenance_unwritten running reaction fun tx committed _ => ?_⟩
    rw [reads tx committed]
    exact List.not_mem_nil

theorem keepsFresh_transcription (inv : FreshInvariant s) (transcribes : a.kind = .transcription)
    (ok : SourceStands env s (.advance job reaction)) :
    KeepsFresh s (s.advance job reaction) := by
  rcases inv.sound.commits running reaction (within_trivial s.db) with
    ⟨tx, committed, change⟩ | ⟨silent, same⟩
  · rw [transcribes] at change
    obtain ⟨artifact, reads, state⟩ := transcribes_cases change.2
    constructor
    · intro session held before
      by_cases own : session = a.session
      · subst own
        rcases state with leaves | stays
        · obtain ⟨grounded, bare⟩ := ok a tx running committed (transcribes ▸ leaves)
          rcases held with flying | ⟨kind, stored⟩
          · exact (grounded flying).elim
          · exact (stored (bare kind)).elim
        · exact stays before
      · rw [change.1 session own, before]
    · intro session absent
      obtain ⟨row, found, -, func, owner⟩ := inv.sound.linked job a running
      have present := inv.heard job row found (func.trans transcribes)
      rw [owner] at present
      rw [change.1 session fun own => present (own ▸ absent)]
    · intro session kind stored
      refine .inl ⟨?_, provenance_unwritten running reaction fun tx' committed' _ => ?_⟩
      · by_cases own : session = a.session
        · subst own
          exact artifact ▸ stored
        · exact change.1 session own ▸ stored
      · rw [committed] at committed'
        cases committed'
        rw [reads]
        exact List.not_mem_nil
  · exact keepsFresh_of_silent running reaction same fun tx committed => by
      rw [silent] at committed
      cases committed

theorem state_artifact (inv : FreshInvariant s) (artifact : a.kind.isArtifact = true)
    (session : Uuid) :
    (view (s.advance job reaction).db session).state = (view s.db session).state := by
  rcases inv.sound.commits running reaction (within_trivial s.db) with
    ⟨tx, committed, change⟩ | ⟨silent, same⟩
  · rw [jobGuarantee_artifact artifact] at change
    by_cases own : session = a.session
    · subst own
      rw [change.2.rest]
    · rw [change.1 session own]
  · rw [same]

theorem keepsFresh_artifact (inv : FreshInvariant s) (artifact : a.kind.isArtifact = true) :
    KeepsFresh s (s.advance job reaction) := by
  cases source : a.source with
  | none =>
      obtain ⟨same, reads, -⟩ := (inv.unread job a running artifact source).step reaction s.db
      refine keepsFresh_of_silent running reaction ?_ reads
      rw [advance_eq running]
      exact same
  | some n =>
      rcases inv.sound.commits running reaction (within_trivial s.db) with
        ⟨tx, committed, change⟩ | ⟨silent, same⟩
      · obtain ⟨rfl, transcribed⟩ : n = s.resets a.session ∧
            (view s.db a.session).state = some .transcribed := by
          rcases inv.read job a n running artifact source with ended | recent
          · rw [(Process.step_of_finished ended reaction s.db).2] at committed
            cases committed
          · exact recent
        have state := state_artifact running reaction inv artifact
        constructor
        · exact fun session _ before => (state session).trans before
        · exact fun session _ => state session
        · intro session kind stored
          by_cases written : session = a.session ∧ kind ∈ Tx.writes tx
          · obtain ⟨rfl, member⟩ := written
            have provenance := provenance_advance running reaction a.session kind
            rw [if_pos ⟨rfl, tx, committed, member⟩, source] at provenance
            exact .inr ⟨provenance, transcribed, state a.session⟩
          · refine .inl ⟨?_, provenance_unwritten running reaction fun tx' committed' own member =>
              written ⟨own, ?_⟩⟩
            · obtain ⟨row, found⟩ := Option.ne_none_iff_exists'.mp stored
              rcases jobGuarantee_stored change found with before | ⟨own, member, -⟩
              · rw [before]
                exact Option.some_ne_none row
              · exact (written ⟨own, member⟩).elim
            · rw [committed] at committed'
              cases committed'
              exact member
      · exact keepsFresh_of_silent running reaction same fun tx committed => by
          rw [silent] at committed
          cases committed

theorem attempt_advance (inv : FreshInvariant s) (artifact : a.kind.isArtifact = true) :
    ((System.observe s a (a.program.commits reaction)
        (a.program.step reaction s.db).1).source = none →
      (a.program.step reaction s.db).1.QuietUntil (Tx.writes · = []) Tx.loadSource
        (EndsUnlessTranscribed a.session)) ∧
    ∀ n, (System.observe s a (a.program.commits reaction)
        (a.program.step reaction s.db).1).source = some n →
      (a.program.step reaction s.db).1.finished = true ∨
        n = s.resets a.session ∧ (view s.db a.session).state = some .transcribed := by
  rw [observe_source]
  by_cases marked : a.program.commits reaction = some Tx.loadSource
  · rw [if_pos marked]
    refine ⟨fun impossible => (by cases impossible), fun n read => ?_⟩
    obtain rfl : s.resets a.session = n := Option.some.inj read
    by_cases transcribed : (view s.db a.session).state = some .transcribed
    · exact .inr ⟨rfl, transcribed⟩
    · cases source : a.source with
      | none =>
          have quiet := (inv.unread job a running artifact source).step reaction s.db
          exact .inl (quiet.2.2.2 marked transcribed)
      | some before =>
          rcases inv.read job a before running artifact source with ended | recent
          · rw [(Process.step_of_finished ended reaction s.db).2] at marked
            cases marked
          · exact (transcribed recent.2).elim
  · rw [if_neg marked]
    refine ⟨fun source => ?_, fun n source => ?_⟩
    · exact ((inv.unread job a running artifact source).step reaction s.db).2.2.1 marked
    · rcases inv.read job a n running artifact source with ended | recent
      · rw [(Process.step_of_finished ended reaction s.db).1]
        exact .inl ended
      · exact .inr recent

end Advance

theorem fresh_advance (inv : FreshInvariant s) {job : JobId} {reaction : Reaction effects}
    (ok : SourceStands env s (.advance job reaction)) :
    FreshInvariant (s.step env (.advance job reaction)) := by
  have sound := sound_step env inv.sound (within_trivial s.db) (.advance job reaction)
  have heard := heard_step env inv.sound (within_trivial s.db) inv.heard
    (.advance job reaction)
  rw [System.step] at sound heard
  refine advance_keeps inv fun a running => ?_
  have keeps : KeepsFresh s (s.advance job reaction) := by
    by_cases artifact : a.kind.isArtifact = true
    · exact keepsFresh_artifact running reaction inv artifact
    · refine keepsFresh_transcription running reaction inv ?_ ok
      cases kind : a.kind with
      | transcription => rfl
      | _ => exact (artifact (by rw [kind]; rfl)).elim
  have frame := inv.sound.advance_frame running reaction (within_trivial s.db)
  have resets : (s.advance job reaction).resets = s.resets := by rw [advance_eq running]
  refine ⟨sound, heard, fun session absent => ?_, fun session kind stored => ?_,
    fun other b found artifact unread => ?_, fun other b n found artifact read => ?_⟩
  · rw [frame session] at absent
    rw [keeps.unheard session absent]
    exact inv.unheard session absent
  · rw [resets]
    rcases keeps.stored session kind stored with ⟨before, same⟩ | ⟨recent, transcribed, same⟩
    · obtain ⟨recent, transcribed⟩ := inv.fresh session kind before
      exact ⟨same.trans recent, keeps.transcribed session (.inr ⟨kind, before⟩) transcribed⟩
    · exact ⟨recent, same.trans transcribed⟩
  · rw [attempts_advance running] at found
    split at found
    · cases found
      exact (attempt_advance running reaction inv artifact).1 unread
    · exact inv.unread other b found artifact unread
  · rw [attempts_advance running] at found
    rw [resets]
    split at found
    · cases found
      rcases (attempt_advance running reaction inv artifact).2 n read with ended | recent
      · exact .inl ended
      · exact .inr ⟨recent.1, (state_artifact running reaction inv artifact _).trans recent.2⟩
    · rcases inv.read other b n found artifact read with ended | ⟨recent, transcribed⟩
      · exact .inl ended
      · cases ended : b.program.finished with
        | true => exact .inl rfl
        | false =>
            have flying : InFlight s b.session :=
              ⟨other, b, found, rfl, artifact, by rw [read]; rfl, ended⟩
            exact .inr ⟨recent, keeps.transcribed b.session (.inl flying) transcribed⟩

theorem fresh_step (inv : FreshInvariant s) {label : Label} (ok : SourceStands env s label) :
    FreshInvariant (s.step env label) := by
  cases label with
  | request auth session request => exact fresh_request inv ok
  | advance job reaction => exact fresh_advance inv ok
  | _ => exact fresh_bookkeeping inv rfl

end Steps

/-- From a database that has no transcribed session and no artifact, artifacts stay fresh as long as
no source is dropped while a job works from it or an artifact derives from it. -/
theorem artifacts_stay_fresh (env : Environment) {db : Database} {run : List Label}
    (bare : db.artifacts = .empty)
    (before : ∀ session, (db.sessions.get? session).map Session.state ≠ some .transcribed)
    (along : Along (System.step env) (SourceStands env) (System.initial db) run) :
    Visits (System.step env) ArtifactsFresh (System.initial db) run := by
  have initial : FreshInvariant (System.initial db) :=
    { sound := sound_initial _ db
      heard := fun _ _ found => by cases found
      unheard := fun session _ => before session
      fresh := fun session kind stored => by
        refine (stored ?_).elim
        change db.artifacts.get? (session, kind) = none
        rw [bare]
        rfl
      unread := fun _ _ found => by cases found
      read := fun _ _ _ found => by cases found }
  have visits : Visits (System.step env) FreshInvariant (System.initial db) run := by
    refine Visits.of_invariant ?_ initial along
    exact fun s label inv ok => fresh_step inv ok
  exact visits.weaken fun s inv => artifactsFresh_iff.mpr inv.fresh

/-! ## Resets between the jobs -/

def narratedRun : List Label :=
  .request gameMaster 1 (.postAudio smallUpload none) :: .start 1 ::
      List.replicate 14 (.advance 1 obliging) ++
    [.settle 1, .request gameMaster 1 (.postNarrative false), .start 2] ++
      List.replicate 7 (.advance 2 obliging) ++ [.settle 2]

def resetRun : List Label :=
  .request gameMaster 1 .restartTranscription :: .start 3 ::
      List.replicate 14 (.advance 3 obliging) ++
    [.settle 3, .request gameMaster 1 (.deleteAudio 0)]

def oneAtATime (s : System) : Label → Bool
  | .request _ _ request => !request.resets || s.attempts.rows.isEmpty
  | .advance job _ => (s.attempts.get? job).all fun a =>
      a.kind.isArtifact ||
        s.db.artifacts.rows.isEmpty && s.attempts.rows.all fun b => !b.kind.isArtifact
  | _ => true

theorem sourceStands_of_oneAtATime {env : Environment} {s : System} {label : Label}
    (alone : oneAtATime s label = true) : SourceStands env s label := by
  cases label with
  | request auth session request =>
      rintro resets - ⟨job, a, running, -⟩
      rw [oneAtATime, resets, Bool.not_true, Bool.false_or] at alone
      have some_ := Table.mem_of_get? running
      rw [List.isEmpty_iff.mp alone] at some_
      cases some_
  | advance job reaction =>
      rintro a tx running - ⟨transcription, -⟩
      rw [oneAtATime, running, Option.all_some, transcription] at alone
      obtain ⟨bare, others⟩ := Bool.and_eq_true_iff.mp alone
      refine ⟨?_, fun kind => ?_⟩
      · rintro ⟨other, b, found, -, artifact, -⟩
        have kind := List.all_eq_true.mp others b (Table.mem_of_get? found)
        rw [artifact] at kind
        cases kind
      · rw [ArtifactRepository.get, Table.get?, List.isEmpty_iff.mp bare, List.find?_nil]
  | _ => trivial

theorem artifacts_stay_fresh_reset :
    let narrated := final (System.step sampleEnvironment) (System.initial createdDatabase)
      narratedRun
    let reset := final (System.step sampleEnvironment) narrated resetRun
    Visits (System.step sampleEnvironment) ArtifactsFresh (System.initial createdDatabase)
        (narratedRun ++ resetRun) ∧
      (ArtifactRepository.get narrated.db 1 .narrative).isSome = true ∧ reset.resets 1 = 2 := by
  have alone : Along (System.step sampleEnvironment) (fun s label => oneAtATime s label = true)
      (System.initial createdDatabase) (narratedRun ++ resetRun) := by decide +kernel
  have along := alone.weaken fun _ _ => @sourceStands_of_oneAtATime sampleEnvironment _ _
  have before : ∀ session,
      (createdDatabase.sessions.get? session).map Session.state ≠ some .transcribed := by
    intro session transcribed
    obtain ⟨row, found, state⟩ := Option.map_eq_some_iff.mp transcribed
    have stored := Table.mem_of_get? found
    rw [List.mem_singleton.mp stored] at state
    cases state
  exact ⟨artifacts_stay_fresh sampleEnvironment rfl before along, by decide +kernel,
    by decide +kernel⟩

/-- The narrative job has read the transcription, the purge deletes it, and the job writes. -/
theorem purge_under_job : ¬Visits (System.step sampleEnvironment) ArtifactsFresh
    (System.initial createdDatabase)
    (.request gameMaster 1 (.postAudio smallUpload none) :: .start 1 ::
      List.replicate 14 (.advance 1 obliging) ++
        [.settle 1, .request gameMaster 1 (.postNarrative false), .start 2, .advance 2 obliging,
          .request gameMaster 1 (.deleteAudio 0)] ++
        List.replicate 6 (.advance 2 obliging)) := by
  intro visits
  exact not_artifactsFresh 1 .narrative (by decide +kernel) (by decide +kernel) visits.final

end Kaeyris.Proof
