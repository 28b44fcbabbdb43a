import Kaeyris.Proof.Summary
import Kaeyris.Proof.Tenancy

/-!
# Accepted generation requests

The routes check before they enqueue a generation job, and the job checks again when it runs. Where
nothing fails around the job, its only way to a `PermanentJobError` is one of its own checks. These
are compared with those of the routes.
-/

namespace Kaeyris.Proof
open Lib Jobs Process Router

def refused : Except Exn Unit → Bool
  | .error (.permanentJob _) => true
  | _ => false

def sessionModelSettings (db : Database) (session : Uuid) : Option ModelSettings :=
  (resolveSessionOwnerId db session).bind (ModelSettingsRepository.getForUser db)

/-- No transaction fails, the model settings give an adapter, and the model answers every call. -/
structure Cooperative (env : Environment) (session : Uuid) (db : Database)
    (r : Reaction effects) : Prop where
  commits : ∀ tx, r.fails tx = none
  adapts : ∃ choice adapter,
    llmChoiceForUser env.settings (sessionModelSettings db session) = .ok choice ∧
      r.answer (.buildLlmAdapter choice) = .ok adapter
  replies : ∀ adapter ordinal system user maxTokens, ∃ reply,
    r.answer (.complete adapter ordinal system user maxTokens) = .ok reply

/-! ## A job fails on its own checks only -/

section Run
variable {env : Environment} {session : Uuid} {db : Database} {r : Reaction effects}

theorem run_obtainAdapter (cooperative : Cooperative env session db r) :
    ∃ adapter, ((obtainAdapter env session).run r db).result = .ok adapter := by
  obtain ⟨choice, adapter, chosen, built⟩ := cooperative.adapts
  refine ⟨adapter, ?_⟩
  have loaded : ((loadSessionModelSettings session).run r db).result =
      .ok (sessionModelSettings db session) := by
    unfold loadSessionModelSettings sessionModelSettings
    have owner : ((reading Tx.resolveOwner fun db => .ok (resolveSessionOwnerId db session)).run r
        db).result = .ok (resolveSessionOwnerId db session) := by
      rw [run_reading, cooperative.commits]
    rw [bind_eq, (run_bind_ok owner _).1, Silent.reading Tx.resolveOwner _ r db]
    cases resolveSessionOwnerId db session with
    | none => rfl
    | some user => rw [run_reading, cooperative.commits, Option.bind_some]
  unfold obtainAdapter buildLlmAdapterForUser
  rw [bind_eq, (run_bind_ok loaded _).1, chosen]
  exact (congrArg Outcome.result (run_ask r _ _)).trans built

theorem Cooperative.complete (cooperative : Cooperative env session db r) (adapter : LlmAdapter)
    (ordinal : Nat) (system : SystemPrompt) (user : Text) :
    (complete env adapter ordinal system user).Succeeds r := by
  obtain ⟨reply, answered⟩ :=
    cooperative.replies adapter ordinal system user env.settings.llmMaxTokensDefault
  exact (Succeeds.ask answered).rescue _

theorem Cooperative.writeArtifacts (cooperative : Cooperative env session db r) (target : Uuid)
    (modelUsed : Text) (artifacts : List (ArtifactKind × ArtifactContent)) :
    (writeArtifacts target modelUsed artifacts).Succeeds r :=
  .atomically (cooperative.commits _)

theorem Cooperative.completePovs (cooperative : Cooperative env session db r)
    (adapter : LlmAdapter) (participants : Participants) (source : Text) (ordinal : Nat)
    (pairs : List PjPair) : (completePovs env adapter participants source ordinal pairs).Succeeds r := by
  induction pairs generalizing ordinal with
  | nil => exact .done _
  | cons pair rest ih =>
      unfold Jobs.completePovs
      split
      · exact ih (ordinal + 1)
      · refine Succeeds.bind (cooperative.complete _ _ _ _) fun reply => ?_
        exact Succeeds.bind (ih (ordinal + 1)) fun later => .done _

theorem Cooperative.summarise (cooperative : Cooperative env session db r)
    (data : List ChunkDatum) (adapter : LlmAdapter) :
    (summarise env session data adapter).Succeeds r := by
  have mapped (ordinal : Nat) : (summariseChunks env adapter ordinal data).Succeeds r := by
    induction data generalizing ordinal with
    | nil => exact .done _
    | cons datum rest ih =>
        refine Succeeds.bind (cooperative.complete _ _ _ _) fun output => ?_
        exact Succeeds.bind (ih (ordinal + 1)) fun later => .done _
  refine Succeeds.bind (mapped 0) fun partials => Succeeds.bind ?_ fun final => ?_
  · unfold reduceSummaries
    split
    · exact .done _
    · exact cooperative.complete _ _ _ _
  · exact .atomically (cooperative.commits _)

theorem run_sourced (cooperative : Cooperative env session db r) {α : Type}
    (body : Database → Except Exn α) (rest : α → LlmAdapter → JobBody Unit) :
    match body db with
    | .error e => (((reading Tx.loadSource body).bind fun a =>
        (obtainAdapter env session).bind (rest a)).run r db).result = .error e
    | .ok a => ∃ adapter reached, (((reading Tx.loadSource body).bind fun a =>
        (obtainAdapter env session).bind (rest a)).run r db).result =
          ((rest a adapter).run r reached).result := by
  have quiet := Silent.reading Tx.loadSource body r db
  have read : ((reading Tx.loadSource body).run r db).result = body db := by
    rw [run_reading, cooperative.commits]
  cases source : body db with
  | error e =>
      rw [source] at read
      exact (run_bind_error read _).1
  | ok a =>
      rw [source] at read
      obtain ⟨adapter, obtained⟩ := run_obtainAdapter cooperative
      refine ⟨adapter, ((obtainAdapter env session).run r db).state, ?_⟩
      rw [(run_bind_ok read _).1, quiet, (run_bind_ok obtained _).1]

theorem result_sourced (cooperative : Cooperative env session db r) {α : Type}
    (body : Database → Except Exn α) {rest : α → LlmAdapter → JobBody Unit}
    (succeeds : ∀ a adapter, (rest a adapter).Succeeds r) :
    (((reading Tx.loadSource body).bind fun a => (obtainAdapter env session).bind (rest a)).run r
      db).result = (body db).map fun _ => () := by
  have run := run_sourced cooperative body rest
  cases source : body db with
  | error e =>
      rw [source] at run
      exact run
  | ok a =>
      rw [source] at run
      obtain ⟨adapter, reached, result⟩ := run
      obtain ⟨_, returned⟩ := succeeds a adapter reached
      exact result.trans returned

/-- What the reply is made into may raise, but nothing that counts as a check of the job. -/
theorem refused_generateSingle (cooperative : Cooperative env session db r) (label : String)
    (system : SystemPrompt) (kind : ArtifactKind) {content : Text → Except Exn ArtifactContent}
    (proper : ∀ reply e, content reply = .error e → refused (.error e) = false) :
    refused ((generateSingle env session label system kind content).run r db).result =
      refused ((sourceDocument env session label db).map fun _ => ()) := by
  have run := run_sourced cooperative (sourceDocument env session label) fun a adapter =>
    (complete env adapter 0 system (userPromptWithContext a.2 a.1)).bind fun reply =>
      (Process.ofExcept (content reply)).bind fun made =>
        writeArtifacts session (llmModelUsed env.settings adapter) [(kind, made)]
  rw [← generateSingle_eq] at run
  cases source : sourceDocument env session label db with
  | error e =>
      rw [source] at run
      exact congrArg refused run
  | ok a =>
      rw [source] at run
      obtain ⟨adapter, reached, result⟩ := run
      obtain ⟨reply, replied⟩ :=
        cooperative.complete adapter 0 system (userPromptWithContext a.2 a.1) reached
      rw [result, (run_bind_ok replied _).1]
      cases made : content reply with
      | error e => exact proper reply e made
      | ok stored =>
          obtain ⟨_, written⟩ := cooperative.writeArtifacts session (llmModelUsed env.settings adapter)
            [(kind, stored)]
            ((complete env adapter 0 system (userPromptWithContext a.2 a.1)).run r reached).state
          exact congrArg refused written

theorem result_generateSummary (cooperative : Cooperative env session db r) :
    ((generateSummary env session).run r db).result =
      (loadChunkData env session db).map fun _ => () := by
  rw [generateSummary_eq]
  exact result_sourced cooperative _ cooperative.summarise

theorem result_generatePovs (cooperative : Cooperative env session db r) :
    ((generatePovs env session).run r db).result =
      (loadParticipants session db).bind fun _ =>
        (sourceDocument env session "povs" db).map fun _ => () := by
  have quiet := Silent.reading Tx.loadParticipants (loadParticipants session) r db
  have read : ((reading Tx.loadParticipants (loadParticipants session)).run r db).result =
      loadParticipants session db := by
    rw [run_reading, cooperative.commits]
  unfold generatePovs
  rw [bind_eq]
  cases found : loadParticipants session db with
  | error e =>
      rw [found] at read
      exact (run_bind_error read _).1
  | ok participants =>
      rw [found] at read
      rw [(run_bind_ok read _).1, quiet]
      refine Eq.trans ?_ (result_sourced cooperative (sourceDocument env session "povs")
        fun a adapter => Succeeds.bind (cooperative.completePovs adapter participants a.1 0
          participants.pairs) fun results => cooperative.writeArtifacts session
            (llmModelUsed env.settings adapter) results)
      unfold obtainAdapter
      simp only [bind_eq, Process.bind_assoc]

end Run

/-! ## The checks of the routes and of the jobs -/

def ChunksSummarised (db : Database) (session : Uuid) : Prop :=
  ChunkRepository.listForSession db session ≠ [] ∧
    ∀ chunk ∈ ChunkRepository.listForSession db session, Text.present chunk.summaryText = true

/-- A session that is neither diarised nor edited has its chunks summarised. -/
def Sourced (db : Database) (session : Uuid) : Prop :=
  ∀ row, db.sessions.get? session = some row → row.transcriptionMode = .nonDiarised →
    hasEditedTranscription row = false → ChunksSummarised db session

theorem hasEditedTranscription_eq (row : Session) :
    hasEditedTranscription row = (editedTranscriptSource row).isSome := by
  unfold hasEditedTranscription editedTranscriptSource
  cases row.editedTranscriptMd with
  | none => rfl
  | some content =>
      by_cases blank : content.Blank
      · simp [blank, Text.strip_eq_nil]
      · simp [blank, Text.strip_eq_nil]

section Checks
variable {env : Environment} {db : Database} {session : Uuid} {row : Session}
  (stored : db.sessions.get? session = some row) (transcribed : row.state = .transcribed)
include stored transcribed

theorem refused_sourceDocument (label : String)
    (kept : row.transcriptionMode = .diarised → Has db session .transcription) :
    refused ((sourceDocument env session label db).map fun _ => ()) = false ↔
      (row.transcriptionMode = .nonDiarised → hasEditedTranscription row = false →
        ChunksSummarised db session) := by
  rw [hasEditedTranscription_eq]
  unfold sourceDocument
  simp only [stored, transcribed, ne_eq, not_true_eq_false, if_false]
  cases edited : editedTranscriptSource row with
  | some text => simp [refused, Except.map]
  | none =>
      cases mode : row.transcriptionMode with
      | diarised =>
          obtain ⟨transcription, member, rfl⟩ := kept mode
          have found : TranscriptionRepository.getForSession db transcription.sessionId =
              some transcription := Table.get?_self member
          simp [found, refused, Except.map]
      | nonDiarised =>
          have complete : ((ChunkRepository.listForSession db session).filter fun chunk =>
              !Text.present chunk.summaryText) = [] ↔
              ∀ chunk ∈ ChunkRepository.listForSession db session,
                Text.present chunk.summaryText = true := by
            simp [List.filter_eq_nil_iff]
          unfold ChunksSummarised
          rw [← complete]
          simp only [List.map_eq_nil_iff]
          split
          · rename_i empty
            simp [refused, Except.map, empty]
          · split
            · rename_i missing
              simp [refused, Except.map, missing]
            · rename_i present missing
              simp [refused, Except.map, present, not_not.mp missing]

theorem loadChunkData_accepts (nonDiarised : row.transcriptionMode = .nonDiarised)
    (source : ChunkRepository.listForSession db session ≠ [] ∨
      hasEditedTranscription row = true) :
    ∃ data, loadChunkData env session db = .ok data := by
  rw [hasEditedTranscription_eq, Option.isSome_iff_ne_none] at source
  obtain ⟨data, loaded, -⟩ := loadChunkData_ok env stored nonDiarised transcribed source.symm
  exact ⟨data, loaded⟩

theorem loadParticipants_accepts (declared : requireParticipants db row = .ok ()) :
    ∃ participants, loadParticipants session db = .ok participants := by
  obtain rfl : row.id = session := Table.key_of_get? stored
  unfold requireParticipants at declared
  unfold loadParticipants
  simp only [stored, transcribed, ne_eq, not_true_eq_false, if_false]
  cases mode : row.transcriptionMode with
  | diarised =>
      rw [mode] at declared
      have some := require_ok declared
      exact ⟨_, if_neg (by simpa using some)⟩
  | nonDiarised =>
      rw [mode] at declared
      have some := require_ok declared
      exact ⟨_, if_neg (by simpa using some)⟩

end Checks

/-! ## Reachable states -/

def Request.generates : Request → Option JobKind
  | .postNarrative _ => some .narrative
  | .postElements _ => some .elements
  | .postPovs _ => some .povs
  | .postSummary _ => some .summary
  | _ => none

def Runnable (env : Environment) (kind : JobKind) (session : Uuid) (db : Database)
    (r : Reaction effects) : Prop :=
  refused ((jobProgram env kind session).run r db).result = false

theorem get?_enqueued {db : Database} {session : Uuid} {row : Session}
    (stored : db.sessions.get? session = some row) (rq : Rq) (kind : JobKind) :
    (Logic.enqueueSessionJob db rq session kind).2.1.sessions.get? session =
      some { row with currentJobId := some (Logic.enqueueSessionJob db rq session kind).1 } := by
  have updated := Table.get?_update_key db.sessions session (fun row =>
    { row with currentJobId := some (Logic.enqueueSessionJob db rq session kind).1 })
    (fun _ => rfl) session
  rw [if_pos rfl, stored] at updated
  exact updated

section Reachable
variable {env : Environment} {s : Platform} {auth : AuthenticatedKey} {session : Uuid}
  {request : Request} {kind : JobKind} {accepted : Accepted} {r : Reaction effects}

/-- The transcription of a diarised session is there, so only the summaries of the chunks can be
missing. -/
theorem refused_source (founded : Founded s) {row : Session}
    (stored : s.system.db.sessions.get? session = some row) (transcribed : row.state = .transcribed)
    (label : String) :
    refused ((sourceDocument env session label
      (Logic.enqueueSessionJob s.system.db s.system.rq session kind).2.1).map fun _ => ()) = false ↔
      Sourced s.system.db session := by
  have after := get?_enqueued stored s.system.rq kind
  have kept (diarised : row.transcriptionMode = .diarised) :
      Has s.system.db session .transcription :=
    founded.transcripts session row stored transcribed diarised
  refine (refused_sourceDocument after transcribed label kept).trans ?_
  constructor
  · intro summarised row' found
    obtain rfl : row = row' := Option.some.inj (stored.symm.trans found)
    exact summarised
  · exact fun sourced => sourced row stored

theorem runnable_single (founded : Founded s) {checks : Database → Session → Except AppError Unit}
    {guarded : Guarded} {force : Bool} {result : JobId × Database × Rq}
    (done : postArtifact kind checks guarded s.system.db s.system.rq auth session force = .ok result)
    (transcribed : ∀ row, checks s.system.db row = .ok () → row.state = .transcribed)
    (cooperative : Cooperative env session result.2.1 r) {label : String} {system : SystemPrompt}
    {target : ArtifactKind} {content : Text → Except Exn ArtifactContent}
    (program : jobProgram env kind session = generateSingle env session label system target content)
    (proper : ∀ reply e, content reply = .error e → refused (.error e) = false) :
    Runnable env kind session result.2.1 r ↔ Sourced s.system.db session := by
  obtain ⟨row, stored, checked, -, rfl⟩ := postArtifact_ok done
  unfold Runnable
  rw [program, refused_generateSingle cooperative _ _ _ proper]
  exact refused_source founded stored (transcribed row checked) label

theorem refused_parseElements {raw : Text} {e : Exn}
    (raised : (env.parseElements raw).mapError .other = .error e) : refused (.error e) = false := by
  cases parsed : env.parseElements raw with
  | error detail =>
      rw [parsed] at raised
      cases raised
      rfl
  | ok stored =>
      rw [parsed] at raised
      cases raised

theorem runnable_of_founded (founded : Founded s) (generates : Request.generates request = some kind)
    (handled : request.handle env s.system.db s.system.rq auth session = .ok accepted)
    (cooperative : Cooperative env session accepted.db r) :
    Runnable env kind session accepted.db r ↔ kind = .summary ∨ Sourced s.system.db session := by
  have other {kind : JobKind} (apart : kind ≠ .summary) :
      kind = .summary ∨ Sourced s.system.db session ↔ Sourced s.system.db session :=
    or_iff_right apart
  cases request with
  | postNarrative force =>
      cases generates
      obtain ⟨result, done, rfl⟩ := except_map_ok handled
      rw [other (by decide)]
      exact runnable_single founded done (fun row checked => transcribed_of_checks checked)
        cooperative rfl (by simp)
  | postElements force =>
      cases generates
      obtain ⟨result, done, rfl⟩ := except_map_ok handled
      rw [other (by decide)]
      exact runnable_single founded done (fun row checked => transcribed_of_checks checked)
        cooperative rfl fun raw e raised => refused_parseElements raised
  | postPovs force =>
      cases generates
      obtain ⟨result, done, rfl⟩ := except_map_ok handled
      obtain ⟨row, stored, checked, -, rfl⟩ := postArtifact_ok done
      obtain ⟨_, first, checked⟩ := except_bind_ok checked
      obtain ⟨_, -, declared⟩ := except_bind_ok checked
      have transcribed := requireTranscribed_ok first
      rw [other (by decide)]
      obtain ⟨participants, loaded⟩ :=
        loadParticipants_accepts (get?_enqueued stored s.system.rq .povs) transcribed declared
      unfold Runnable
      rw [show jobProgram env .povs session = generatePovs env session from rfl,
        result_generatePovs cooperative, loaded]
      exact refused_source founded stored transcribed "povs"
  | postSummary force =>
      cases generates
      obtain ⟨result, done, rfl⟩ := except_map_ok handled
      obtain ⟨row, stored, checked, -, rfl⟩ := postArtifact_ok done
      obtain rfl : row.id = session := Table.key_of_get? stored
      obtain ⟨_, mode, checked⟩ := except_bind_ok checked
      obtain ⟨_, state, chunks⟩ := except_bind_ok checked
      have nonDiarised : row.transcriptionMode = .nonDiarised := by simpa using require_ok mode
      have source : ChunkRepository.listForSession s.system.db row.id ≠ [] ∨
          hasEditedTranscription row = true := by simpa using require_ok chunks
      obtain ⟨data, loaded⟩ := loadChunkData_accepts
        (get?_enqueued stored s.system.rq .summary) (requireTranscribed_ok state) nonDiarised source
      refine iff_of_true ?_ (.inl rfl)
      unfold Runnable
      rw [show jobProgram env .summary row.id = generateSummary env row.id from rfl,
        result_generateSummary cooperative, loaded]
      rfl
  | _ => cases generates

end Reachable

/-! ## An empty answer -/

/-- Every piece of audio is one word, and the model gives one answer to everything. -/
def replying (reply : Text) : Reaction effects where
  fails := fun _ => none
  answer
    | .pathExists _ => .ok true
    | .prepareAudio _ target => .ok ⟨target, [], 0⟩
    | .cleanupTransientAudioDir _ => .ok ()
    | .buildTranscriptionAdapter _ => .ok ()
    | .buildLlmAdapter _ => .ok ⟨none, none⟩
    | .chunkedAudio _ _ => .ok [(0, [])]
    | .transcribe _ _ _ _ => .ok ⟨[⟨[], 0, 1, ['a']⟩], [], [], []⟩
    | .complete _ _ _ _ _ => .ok reply
    | .report _ _ => .ok ()
    | .chunkId => .ok 0

theorem cooperative_replying (reply : Text) {db : Database} {session : Uuid}
    (unset : sessionModelSettings db session = none) :
    Cooperative sampleEnvironment session db (replying reply) where
  commits := fun _ => rfl
  adapts := ⟨.operator, ⟨none, none⟩, by rw [unset]; rfl, rfl⟩
  replies := fun _ _ _ _ _ => ⟨reply, rfl⟩

def served (job : JobId) (reaction : Reaction effects) : List Platform.Label :=
  ([Label.start job] ++ List.replicate 20 (Label.advance job reaction) ++ [Label.settle job]).map
    .system

def summarisedRun (reply : Text) : List Platform.Label :=
  .createSession gameMaster 1 ⟨1, some .nonDiarised, none, by simp⟩ ::
    .system (.request gameMaster 1 (.postAudio smallUpload none)) ::
      served 1 (replying reply) ++
        .system (.request gameMaster 1 (.postSummary false)) :: served 2 (replying reply)

abbrev summarised (reply : Text) : Platform :=
  final (Platform.step sampleEnvironment) .initial (summarisedRun reply)

theorem narrative_accepted {reply : Text} {p : Database → Bool}
    (checked : (((Request.postNarrative false).handle sampleEnvironment
      (summarised reply).system.db (summarised reply).system.rq gameMaster 1).toOption.any
        fun accepted => (sessionModelSettings accepted.db 1).isNone && p accepted.db) = true) :
    ∃ accepted, (Request.postNarrative false).handle sampleEnvironment
        (summarised reply).system.db (summarised reply).system.rq gameMaster 1 = .ok accepted ∧
      Cooperative sampleEnvironment 1 accepted.db (replying reply) ∧ p accepted.db = true := by
  cases handled : (Request.postNarrative false).handle sampleEnvironment
      (summarised reply).system.db (summarised reply).system.rq gameMaster 1 with
  | error e =>
      rw [handled] at checked
      cases checked
  | ok accepted =>
      rw [handled] at checked
      obtain ⟨unset, holds⟩ := Bool.and_eq_true_iff.mp checked
      exact ⟨accepted, rfl, cooperative_replying reply (Option.isNone_iff_eq_none.mp unset), holds⟩

/-- In every reachable state, the job of an accepted generation request passes its own checks unless
the text it has to read is in chunks that are not all summarised. -/
theorem accepted_runnable_iff (env : Environment) (run : List Platform.Label)
    {auth : AuthenticatedKey} {session : Uuid} {request : Request} {kind : JobKind}
    {accepted : Accepted} {r : Reaction effects}
    (generates : Request.generates request = some kind)
    (handled : request.handle env (final (Platform.step env) .initial run).system.db
      (final (Platform.step env) .initial run).system.rq auth session = .ok accepted)
    (cooperative : Cooperative env session accepted.db r) :
    Runnable env kind session accepted.db r ↔
      kind = .summary ∨ Sourced (final (Platform.step env) .initial run).system.db session :=
  runnable_of_founded (founded_run env run).final generates handled cooperative

theorem accepted_runnable_summarised :
    ∃ accepted, (Request.postNarrative false).handle sampleEnvironment
        (summarised ['a']).system.db (summarised ['a']).system.rq gameMaster 1 = .ok accepted ∧
      Runnable sampleEnvironment .narrative 1 accepted.db (replying ['a']) := by
  obtain ⟨accepted, handled, cooperative, -⟩ :=
    @narrative_accepted ['a'] (fun _ => true) (by decide +kernel)
  refine ⟨accepted, handled, ?_⟩
  refine (accepted_runnable_iff sampleEnvironment (summarisedRun ['a']) rfl handled
    cooperative).mpr (.inr fun row _ _ _ => ⟨?_, ?_⟩)
  · decide +kernel
  · decide +kernel

def Idle (s : Platform) : Prop :=
  s.system.attempts.rows = [] ∧ ∀ row ∈ s.system.rq.rows, row.status.active = false

/-- An empty answer of the model is stored as a summary, which the route counts as one and the job
does not. -/
theorem empty_summary_refused :
    Idle (summarised []) ∧ ∃ accepted, (Request.postNarrative false).handle sampleEnvironment
        (summarised []).system.db (summarised []).system.rq gameMaster 1 = .ok accepted ∧
      Cooperative sampleEnvironment 1 accepted.db (replying []) ∧
      ¬Runnable sampleEnvironment .narrative 1 accepted.db (replying []) := by
  refine ⟨⟨List.isEmpty_iff.mp (by decide +kernel), by decide +kernel⟩, ?_⟩
  obtain ⟨accepted, handled, cooperative, failed⟩ := @narrative_accepted []
    (fun db => refused ((jobProgram sampleEnvironment .narrative 1).run (replying []) db).result)
    (by decide +kernel)
  exact ⟨accepted, handled, cooperative, by simp [Runnable, failed]⟩

end Kaeyris.Proof
