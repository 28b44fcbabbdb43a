import Kaeyris.Proof.Steps

/-!
# POVs and participants

A povs job writes for the participants it read before its calls. What it writes stays right as long
as nobody it read has been dropped since; and of the requests that drop somebody, replacing the
players alone leaves the POVs of those it drops.
-/

namespace Kaeyris.Proof
open Lib Jobs

/-! ## Participants in tables and in views -/

theorem participants_eq (db : Database) (session : Uuid) :
    participants db session = (view db session).participants := by
  unfold participants view View.participants
  cases db.sessions.get? session with
  | none => rfl
  | some row =>
      dsimp only [Option.map_some]
      cases row.transcriptionMode <;> rfl

def PovsOfParticipants (s : System) : Prop :=
  ∀ session pj row, ArtifactRepository.get s.db session (.pov pj) = some row →
    pj ∈ participants s.db session

theorem not_povsOfParticipants {s : System} (session pj : Uuid)
    (stored : (ArtifactRepository.get s.db session (.pov pj)).isSome = true)
    (dropped : pj ∉ participants s.db session) : ¬PovsOfParticipants s := by
  intro listed
  obtain ⟨row, found⟩ := Option.isSome_iff_exists.mp stored
  exact dropped (listed session pj row found)

theorem povsOfParticipants_iff {s : System} :
    PovsOfParticipants s ↔ ∀ session pj, (view s.db session).artifact (.pov pj) ≠ none →
      pj ∈ (view s.db session).participants := by
  unfold PovsOfParticipants
  simp only [participants_eq]
  constructor
  · intro listed session pj stored
    obtain ⟨row, found⟩ := Option.ne_none_iff_exists'.mp stored
    exact listed session pj row found
  · intro listed session pj row found
    apply listed session pj
    change ArtifactRepository.get s.db session (.pov pj) ≠ none
    rw [found]
    exact Option.some_ne_none row

theorem participants_frame {v v' : View}
    (frame : v' = { v with state := v'.state, artifact := v'.artifact }) :
    v'.participants = v.participants := by
  rw [frame]
  rfl

/-- Whoever takes part still does after an accepted request, when the request names them. -/
def Request.names (mode : Option TranscriptionMode) (pj : Uuid) : Request → Prop
  | .putSessionMapping mapping => pj ∈ mapping.rows.map Prod.snd
  | .postSessionPlayers payload => pj ∈ payload.pjIds
  | .restartTranscription => mode = some .nonDiarised
  | _ => True

section Changes
variable {rq : Rq} {session : Uuid} {job : Option JobId} {v v' : View} {request : Request}

theorem changes_named (changes : request.changes rq session job v v') {pj : Uuid}
    (before : pj ∈ v.participants) (named : Request.names v.mode pj request) :
    pj ∈ v'.participants := by
  cases request with
  | putSessionMapping mapping =>
      obtain ⟨mode, pjs, listed, rfl⟩ := changes
      unfold View.participants View.mapped
      rw [mode]
      exact (listed pj).mpr named
  | postSessionPlayers payload =>
      obtain ⟨mode, rfl⟩ := changes
      unfold View.participants View.played
      rw [mode]
      exact mem_uniqueIds.mpr ⟨named, List.not_mem_nil⟩
  | restartTranscription =>
      obtain ⟨-, -, id, -, rfl⟩ := changes
      have mode : v.mode = some .nonDiarised := named
      unfold View.participants View.restarted at *
      rw [mode] at before ⊢
      exact before
  | _ =>
      rw [changes_participants changes rfl]
      exact before

theorem changes_povs (changes : request.changes rq session job v v')
    (listed : ∀ pj, v.artifact (.pov pj) ≠ none → pj ∈ v.participants)
    (named : ∀ payload, request = .postSessionPlayers payload →
      ∀ pj, v.artifact (.pov pj) ≠ none → pj ∈ payload.pjIds)
    (pj : Uuid) (stored : v'.artifact (.pov pj) ≠ none) : pj ∈ v'.participants := by
  obtain ⟨before, standing⟩ := changes_stored changes stored
  apply changes_named changes (listed pj before)
  cases request with
  | putSessionMapping mapping =>
      obtain ⟨-, pjs, -, rfl⟩ := changes
      exact (stored rfl).elim
  | postSessionPlayers payload => exact named payload rfl pj before
  | restartTranscription => cases standing
  | _ => trivial

end Changes

theorem artifactGuarantee_mono {kind : JobKind} {session : Uuid} {pjs pjs' : Uuid → Prop} {tx : Tx}
    {db db' : Database} (wider : ∀ pj, pjs pj → pjs' pj)
    (change : artifactGuarantee kind session pjs tx db db') :
    artifactGuarantee kind session pjs' tx db db' := by
  obtain ⟨others, writes⟩ := change
  exact ⟨others,
    { writes with
      within := fun target outside => writes.within target fun inside =>
        outside (JobKind.replaces_mono wider inside)
      written := fun target member => by
        obtain ⟨produced, row⟩ := writes.written target member
        exact ⟨JobKind.produces_mono wider produced, row⟩ }⟩

theorem jobGuarantee_povs {kind : JobKind} {session : Uuid} {pjs : Uuid → Prop} {tx : Tx}
    {db db' : Database} (change : jobGuarantee kind session pjs tx db db') {other pj : Uuid}
    (stored : (view db' other).artifact (.pov pj) ≠ none) :
    (view db other).artifact (.pov pj) ≠ none ∨ other = session ∧ kind = .povs ∧ pjs pj := by
  obtain ⟨row, found⟩ := Option.ne_none_iff_exists'.mp stored
  rcases jobGuarantee_stored change found with before | ⟨own, -, produced, -⟩
  · rw [before]
    exact .inl (Option.some_ne_none row)
  · cases kind with
    | povs => exact .inr ⟨own, rfl, produced⟩
    | _ => cases produced

/-- What a povs job may still write when it writes for `pjs`. -/
def WritesFor (pjs : List Uuid) (session : Uuid) (program : JobBody Unit) : Prop :=
  program.Guarantees (fun _ => True) (artifactGuarantee .povs session (· ∈ pjs))

/-! ## The invariant -/

structure PovInvariant (s : System) : Prop where
  sound : Sound (fun _ _ => True) s
  listed : ∀ session pj, (view s.db session).artifact (.pov pj) ≠ none →
    pj ∈ (view s.db session).participants
  unread : ∀ job a, s.attempts.get? job = some a → a.kind = .povs → a.participants = none →
    a.program.QuietUntil (Tx.writes · = []) Tx.loadParticipants fun db rest =>
      WritesFor (view db a.session).participants a.session rest
  read : ∀ job a pjs, s.attempts.get? job = some a → a.kind = .povs → a.participants = some pjs →
    WritesFor pjs a.session a.program ∧
      (a.program.finished = true ∨ ∀ pj ∈ pjs, pj ∈ (view s.db a.session).participants)

/-- Nobody for whom a POV is stored, or who was read by a povs job still running, is dropped. -/
def KeepsPovs (env : Environment) (s : System) : Label → Prop
  | .request auth session request =>
      (∃ accepted, request.handle env s.db s.rq auth session = .ok accepted) →
        (∀ job a pjs, s.attempts.get? job = some a → a.kind = .povs → a.session = session →
          a.program.finished = false → a.participants = some pjs →
            ∀ pj ∈ pjs, Request.names (view s.db session).mode pj request) ∧
        ∀ payload, request = .postSessionPlayers payload →
          ∀ pj, (ArtifactRepository.get s.db session (.pov pj)).isSome → pj ∈ payload.pjIds
  | _ => True

section Steps
variable {env : Environment} {s : System}

theorem pov_bookkeeping (inv : PovInvariant s) {label : Label} (kind : bookkeeping label = true) :
    PovInvariant (s.step env label) := by
  have keeps : Bookkeeping env s (s.step env label) := bookkeeping_step inv.sound.linked kind
  refine ⟨sound_step env inv.sound (within_trivial s.db) label, ?_, ?_, ?_⟩
  · rw [keeps.db]
    exact inv.listed
  · intro job a running povs unread
    rcases keeps.attempts job a running with before | ⟨row, -, rfl⟩
    · exact inv.unread job a before povs unread
    · dsimp only at povs ⊢
      rw [povs]
      exact quiet_loadParticipants row.sessionId env
  · intro job a pjs running povs read
    rw [keeps.db]
    rcases keeps.attempts job a running with before | ⟨row, -, rfl⟩
    · exact inv.read job a pjs before povs read
    · cases read

theorem pov_request (inv : PovInvariant s) {auth : AuthenticatedKey} {session : Uuid}
    {request : Request} (ok : KeepsPovs env s (.request auth session request)) :
    PovInvariant (s.step env (.request auth session request)) := by
  have sound := sound_step env inv.sound (within_trivial s.db)
    (.request auth session request)
  rw [System.step] at sound
  refine request_keeps inv fun accepted handled => ?_
  obtain ⟨⟨others, changes⟩, -⟩ := handle_ok handled
  obtain ⟨held, stored⟩ := ok ⟨accepted, handled⟩
  rw [request_ok handled] at sound ⊢
  refine ⟨sound, fun other pj found => ?_, inv.unread, fun job a pjs running povs read => ?_⟩
  · dsimp only at found ⊢
    by_cases own : other = session
    · subst own
      refine changes_povs changes (inv.listed other) (fun payload same pj present => ?_) pj found
      exact stored payload same pj (Option.isSome_iff_ne_none.mpr present)
    · rw [others other own] at found ⊢
      exact inv.listed other pj found
  · obtain ⟨writes, within⟩ := inv.read job a pjs running povs read
    refine ⟨writes, ?_⟩
    rcases within with ended | within
    · exact .inl ended
    · cases ended : a.program.finished with
      | true => exact .inl rfl
      | false =>
          refine .inr fun pj member => ?_
          dsimp only
          by_cases own : a.session = session
          · have named := held job a pjs running povs own ended read pj member
            rw [own]
            exact changes_named changes (own ▸ within pj member) named
          · rw [others _ own]
            exact within pj member

theorem listed_advance (inv : PovInvariant s) {job : JobId} {a : Attempt}
    (running : s.attempts.get? job = some a) (reaction : Reaction effects) {session pj : Uuid}
    (stored : (view (s.advance job reaction).db session).artifact (.pov pj) ≠ none) :
    pj ∈ (view s.db session).participants := by
  have db : (s.advance job reaction).db = (a.program.step reaction s.db).2 := by
    rw [advance_eq running]
  by_cases povs : a.kind = .povs
  · cases participants : a.participants with
    | none =>
        have quiet := (inv.unread job a running povs participants).step reaction s.db
        rw [db, quiet.1] at stored
        exact inv.listed session pj stored
    | some pjs =>
        obtain ⟨writes, ended | within⟩ := inv.read job a pjs running povs participants
        · rw [db, (Process.step_of_finished ended reaction s.db).1] at stored
          exact inv.listed session pj stored
        · rcases (writes.step reaction s.db trivial).2 with ⟨tx, -, change⟩ | ⟨-, same⟩
          · rw [← db] at change
            have change : jobGuarantee .povs a.session (· ∈ pjs) tx s.db _ := change
            rcases jobGuarantee_povs change stored with before | ⟨rfl, -, member⟩
            · exact inv.listed session pj before
            · exact within pj member
          · rw [db, same] at stored
            exact inv.listed session pj stored
  · rcases inv.sound.commits running reaction (within_trivial s.db) with
      ⟨tx, -, change⟩ | ⟨-, same⟩
    · rcases jobGuarantee_povs change stored with before | ⟨-, impossible, -⟩
      · exact inv.listed session pj before
      · exact (povs impossible).elim
    · rw [same] at stored
      exact inv.listed session pj stored

theorem unread_advance (inv : PovInvariant s) {job : JobId} {a : Attempt}
    (running : s.attempts.get? job = some a) (reaction : Reaction effects) (povs : a.kind = .povs)
    (unread : (System.observe s a (a.program.commits reaction)
      (a.program.step reaction s.db).1).participants = none) :
    (a.program.step reaction s.db).1.QuietUntil (Tx.writes · = []) Tx.loadParticipants
      fun db rest => WritesFor (view db a.session).participants a.session rest := by
  rw [observe_participants] at unread
  split at unread
  · cases unread
  · rename_i other
    exact ((inv.unread job a running povs unread).step reaction s.db).2.2.1 other

theorem read_advance (inv : PovInvariant s) {job : JobId} {a : Attempt}
    (running : s.attempts.get? job = some a) (reaction : Reaction effects) (povs : a.kind = .povs)
    {pjs : List Uuid} (read : (System.observe s a (a.program.commits reaction)
      (a.program.step reaction s.db).1).participants = some pjs) :
    WritesFor pjs a.session (a.program.step reaction s.db).1 ∧
      ((a.program.step reaction s.db).1.finished = true ∨
        ∀ pj ∈ pjs, pj ∈ (view s.db a.session).participants) := by
  rw [observe_participants] at read
  split at read
  · rename_i marked
    obtain rfl : participants s.db a.session = pjs := Option.some.inj read
    rw [participants_eq]
    refine ⟨?_, .inr fun pj member => member⟩
    cases before : a.participants with
    | none => exact ((inv.unread job a running povs before).step reaction s.db).2.2.2 marked
    | some old =>
        obtain ⟨writes, ended | within⟩ := inv.read job a old running povs before
        · rw [(Process.step_of_finished ended reaction s.db).2] at marked
          cases marked
        · exact (writes.step reaction s.db trivial).1.weaken (fun _ _ => trivial)
            fun _ _ _ => artifactGuarantee_mono within
  · obtain ⟨writes, ended | within⟩ := inv.read job a pjs running povs read
    · rw [(Process.step_of_finished ended reaction s.db).1]
      exact ⟨writes, .inl ended⟩
    · exact ⟨(writes.step reaction s.db trivial).1, .inr within⟩

theorem pov_advance (inv : PovInvariant s) (job : JobId) (reaction : Reaction effects) :
    PovInvariant (s.step env (.advance job reaction)) := by
  have sound := sound_step env inv.sound (within_trivial s.db) (.advance job reaction)
  rw [System.step] at sound
  refine advance_keeps inv fun a running => ?_
  have same (other : Uuid) := participants_frame
    (inv.sound.advance_frame running reaction (within_trivial s.db) other)
  refine ⟨sound, fun session pj stored => ?_, fun other b found povs unread => ?_,
    fun other b pjs found povs read => ?_⟩
  · rw [same]
    exact listed_advance inv running reaction stored
  · rw [attempts_advance running] at found
    split at found
    · cases found
      exact unread_advance inv running reaction povs unread
    · exact inv.unread other b found povs unread
  · rw [attempts_advance running] at found
    rw [same]
    split at found
    · cases found
      exact read_advance inv running reaction povs read
    · exact inv.read other b pjs found povs read

theorem pov_step (inv : PovInvariant s) {label : Label} (ok : KeepsPovs env s label) :
    PovInvariant (s.step env label) := by
  cases label with
  | request auth session request => exact pov_request inv ok
  | advance job reaction => exact pov_advance inv job reaction
  | _ => exact pov_bookkeeping inv rfl

end Steps

/-- While no step drops anybody for whom a POV is stored or about to be, every POV is that of a
participant. -/
theorem povs_belong_to_participants (env : Environment) {db : Database} {run : List Label}
    (start : PovsOfParticipants (System.initial db))
    (along : Along (System.step env) (KeepsPovs env) (System.initial db) run) :
    Visits (System.step env) PovsOfParticipants (System.initial db) run := by
  have initial : PovInvariant (System.initial db) :=
    { sound := sound_initial _ db
      listed := povsOfParticipants_iff.mp start
      unread := fun _ _ found => by cases found
      read := fun _ _ _ found => by cases found }
  have visits : Visits (System.step env) PovInvariant (System.initial db) run := by
    refine Visits.of_invariant ?_ initial along
    exact fun s label inv ok => pov_step inv ok
  exact visits.weaken fun s inv => povsOfParticipants_iff.mpr inv.listed

/-! ## Players named again -/

def playedSession : Session where
  id := 1
  gmKeyId := 7
  campaignId := none
  state := .transcribed
  transcriptionMode := .nonDiarised
  campaignContext := none
  editedTranscriptMd := some ['x']
  currentJobId := none

def playedDatabase : Database :=
  { Database.empty with
    pjs := ⟨⟨[⟨8, ['A'], 7, 1⟩, ⟨9, ['B'], 7, 1⟩], by decide⟩, by decide⟩
    sessions := ⟨[playedSession], by decide⟩
    players := ⟨[⟨1, 8⟩], by decide⟩ }

/-- The players are replaced while the povs job waits for the language model, and again when it has
written; each time the one it writes for is named. -/
def playedRun : List Label :=
  .request gameMaster 1 (.postPovs false) :: .start 1 :: List.replicate 3 (.advance 1 obliging) ++
    .request gameMaster 1 (.postSessionPlayers ⟨[9, 8], by decide, by decide⟩) ::
      List.replicate 5 (.advance 1 obliging) ++
    [.settle 1, .request gameMaster 1 (.postSessionPlayers ⟨[8], by decide, by decide⟩)]

/-- Whoever a POV is written for, or is about to be, is named by a request that names players; any
other request finds no attempt. -/
def namesAll (s : System) : Label → Bool
  | .request _ _ (.postSessionPlayers payload) =>
      (s.attempts.rows.all fun a => (a.participants.getD []).all (· ∈ payload.pjIds)) &&
        s.db.artifacts.rows.all fun row =>
          match row.kind with
          | .pov pj => decide (pj ∈ payload.pjIds)
          | _ => true
  | .request _ _ _ => s.attempts.rows.isEmpty
  | _ => true

theorem keepsPovs_of_namesAll {env : Environment} {s : System} {label : Label}
    (named : namesAll s label = true) : KeepsPovs env s label := by
  cases label with
  | request auth session request =>
      intro _
      cases request with
      | postSessionPlayers payload =>
          obtain ⟨attempts, artifacts⟩ := Bool.and_eq_true_iff.mp named
          refine ⟨fun job a pjs running _ _ _ read pj member => ?_, fun _ same pj stored => ?_⟩
          · have all := List.all_eq_true.mp attempts a (Table.mem_of_get? running)
            rw [read] at all
            change pj ∈ payload.pjIds
            exact of_decide_eq_true (List.all_eq_true.mp all pj member)
          · cases same
            obtain ⟨row, found⟩ := Option.isSome_iff_exists.mp stored
            have kind : row.kind = .pov pj := congrArg Prod.snd (Table.key_of_get? found)
            have one := List.all_eq_true.mp artifacts row (Table.mem_of_get? found)
            rw [kind] at one
            exact of_decide_eq_true one
      | _ =>
          refine ⟨fun job a _ running => ?_, fun payload other => by cases other⟩
          have member := Table.mem_of_get? running
          rw [List.isEmpty_iff.mp named] at member
          cases member
  | _ => trivial

theorem povs_belong_to_participants_played :
    Visits (System.step sampleEnvironment) PovsOfParticipants (System.initial playedDatabase)
        playedRun ∧
      let last := final (System.step sampleEnvironment) (System.initial playedDatabase) playedRun
      (ArtifactRepository.get last.db 1 (.pov 8)).isSome = true ∧ participants last.db 1 = [8] := by
  have named : Along (System.step sampleEnvironment) (fun s label => namesAll s label = true)
      (System.initial playedDatabase) playedRun := by decide +kernel
  have along := named.weaken fun _ _ => @keepsPovs_of_namesAll sampleEnvironment _ _
  refine ⟨povs_belong_to_participants sampleEnvironment ?_ along, by decide +kernel⟩
  intro session pj row found
  cases found

theorem replaced_player_keeps_pov :
    ¬Visits (System.step sampleEnvironment) PovsOfParticipants (System.initial playedDatabase)
      (.request gameMaster 1 (.postPovs false) :: .start 1 ::
        List.replicate 8 (.advance 1 obliging) ++
          [.settle 1, .request gameMaster 1 (.postSessionPlayers ⟨[9], by decide, by decide⟩)]) := by
  intro visits
  exact not_povsOfParticipants 1 8 (by decide +kernel) (by decide +kernel) visits.final

end Kaeyris.Proof
