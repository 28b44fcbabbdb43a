import Mathlib.Data.List.Dedup
import Kaeyris.Me
import Kaeyris.Proof.Requests

/-!
# Players are isolated

What a player's key is answered depends on its PJ's row, on the sessions where this PJ takes part,
and on their rows and four kinds of artifact. Nothing else in the database shows.
-/

namespace Kaeyris.Proof
open Lib Me

/-- The PJ takes part: a mapping row in a diarised session, a player row in any other. -/
def Participates (db : Database) (pj session : Uuid) : Prop :=
  ∃ row, db.sessions.get? session = some row ∧
    match row.transcriptionMode with
    | .diarised => ∃ m ∈ db.mappings.rows, m.sessionId = session ∧ m.pjId = pj
    | .nonDiarised => ∃ p ∈ db.players.rows, p.sessionId = session ∧ p.pjId = pj

def Readable (pj : Uuid) (kind : ArtifactKind) : Prop :=
  kind = .narrative ∨ kind = .summary ∨ kind = .elements ∨ kind = .pov pj

structure AgreeFor (pj : Uuid) (lib other : Library) : Prop where
  character : lib.db.pjs.get? pj = other.db.pjs.get? pj
  participates : ∀ session, Participates lib.db pj session ↔ Participates other.db pj session
  rows : ∀ session, Participates lib.db pj session →
    lib.db.sessions.get? session = other.db.sessions.get? session
  columns : ∀ session, Participates lib.db pj session →
    lib.title session = other.title session ∧ lib.recordedAt session = other.recordedAt session ∧
      lib.createdAt session = other.createdAt session
  artifacts : ∀ session, Participates lib.db pj session → ∀ kind, Readable pj kind →
    ArtifactRepository.get lib.db session kind = ArtifactRepository.get other.db session kind ∧
      lib.generatedAt session kind = other.generatedAt session kind ∧
      lib.editedAt session kind = other.editedAt session kind

section Gate
variable {db : Database} {pj session : Uuid} {campaign : Option Uuid}

theorem mapped_iff : isPjMappedOnSession db session pj campaign = true ↔
    Participates db pj session ∧ ∃ row, db.sessions.get? session = some row ∧
      campaign.all (fun c => row.campaignId = some c) = true := by
  unfold isPjMappedOnSession Participates
  cases found : db.sessions.get? session with
  | none => simp
  | some row =>
      by_cases inside : campaign.all (fun c => row.campaignId = some c) = true
      · have kept : (some row).filter (fun row => campaign.all fun c => row.campaignId = some c) =
            some row := by simp [Option.filter, inside]
        rw [kept]
        cases mode : row.transcriptionMode with
        | nonDiarised =>
            have listed : (db.players.get? (session, pj)).isSome ↔
                ∃ p ∈ db.players.rows, p.sessionId = session ∧ p.pjId = pj := by
              simp [Option.isSome_iff_exists, Table.get?_eq_some]
            simp [mode, inside, listed]
        | diarised => simp [mode, inside]
      · have dropped : (some row).filter (fun row => campaign.all fun c => row.campaignId = some c) =
            none := by simp [Option.filter, inside]
        rw [dropped]
        simp [inside]

theorem mem_selectPlayerSessions {row : Session} :
    row ∈ selectPlayerSessions db pj campaign ↔
      row ∈ db.sessions.rows ∧ Participates db pj row.id ∧
        campaign.all (fun c => row.campaignId = some c) = true := by
  have stored : row ∈ db.sessions.rows → db.sessions.get? row.id = some row := Table.get?_self
  unfold selectPlayerSessions
  simp only [List.mem_dedup, List.mem_map, List.mem_filter]
  constructor
  · rintro ⟨⟨⟨session, mapping⟩, player⟩, ⟨joined, wanted⟩, rfl⟩
    obtain ⟨mapped, players⟩ := mem_of_mem_outerJoin joined
    obtain ⟨member, mappings⟩ := mem_of_mem_outerJoin mapped
    simp only [joins, Bool.and_eq_true, Bool.or_eq_true, decide_eq_true_eq,
      Option.any_eq_true] at wanted
    refine ⟨member, ⟨session, Table.get?_self member, ?_⟩, wanted.2⟩
    rcases wanted.1 with ⟨mode, m, found, own⟩ | ⟨mode, p, found, own⟩
    · obtain ⟨present, on⟩ := mappings m found
      rw [mode]
      exact ⟨m, present, by simpa using on, own⟩
    · obtain ⟨present, on⟩ := players p found
      rw [mode]
      exact ⟨p, present, by simpa using on, own⟩
  · rintro ⟨member, ⟨row', found, part⟩, inside⟩
    obtain rfl : row' = row := Option.some.inj (found.symm.trans (stored member))
    cases mode : row'.transcriptionMode with
    | diarised =>
        rw [mode] at part
        obtain ⟨m, present, on, own⟩ := part
        have mapped : (row', some m) ∈ outerJoin db.sessions.rows db.mappings.rows
            fun row m => m.sessionId = row.id := mem_outerJoin member present (by simpa using on)
        obtain ⟨player, joined⟩ := exists_mem_outerJoin db.players.rows
          (fun row p => p.sessionId = row.1.id) mapped
        refine ⟨_, ⟨joined, ?_⟩, rfl⟩
        simp [joins, mode, own, inside]
    | nonDiarised =>
        rw [mode] at part
        obtain ⟨p, present, on, own⟩ := part
        obtain ⟨mapping, mapped⟩ := exists_mem_outerJoin db.mappings.rows
          (fun row m => m.sessionId = row.id) member
        have joined : ((row', mapping), some p) ∈ outerJoin
            (outerJoin db.sessions.rows db.mappings.rows fun row m => m.sessionId = row.id)
            db.players.rows fun row p => p.sessionId = row.1.id :=
          mem_outerJoin mapped present (by simpa using on)
        refine ⟨_, ⟨joined, ?_⟩, rfl⟩
        simp [joins, mode, own, inside]

theorem nodup_selectPlayerSessions : (selectPlayerSessions db pj campaign).Nodup :=
  List.nodup_dedup _

theorem ensure_ok {pjId : Option Uuid} {own : Uuid}
    (passed : ensurePlayerCanReadSession db session pjId campaign = .ok own) :
    pjId = some own ∧ Participates db own session := by
  unfold ensurePlayerCanReadSession at passed
  split at passed
  · cases passed
  · split at passed
    · rename_i mapped
      cases passed
      exact ⟨rfl, (mapped_iff.mp mapped).1⟩
    · cases passed

theorem gate_ok {lib : Library} {auth : PlayerKey} (own : auth.pjId = some pj) {reader : Uuid}
    (passed : ensurePlayerCanReadSession lib.db session auth.pjId (campaignIdForAuth lib auth) =
      .ok reader) : reader = pj ∧ Participates lib.db pj session := by
  obtain ⟨same, part⟩ := ensure_ok passed
  obtain rfl : pj = reader := Option.some.inj (own.symm.trans same)
  exact ⟨rfl, part⟩

theorem readForMarkdown_reader {lib : Library} {auth : PlayerKey} (own : auth.pjId = some pj)
    {kind : Uuid → ArtifactKind} {detail : String} {pages : Uuid × SessionPage × ArtifactPage}
    (read : readForMarkdown lib auth session kind detail = .ok pages) : pages.1 = pj := by
  obtain ⟨reader, passed, read⟩ := except_bind_ok read
  obtain ⟨row, -, read⟩ := except_bind_ok read
  obtain ⟨page, -, read⟩ := except_bind_ok read
  cases read
  exact (gate_ok own passed).1

end Gate

/-! ## Two states -/

section Agree
variable {pj : Uuid} {lib other : Library} (agree : AgreeFor pj lib other)
include agree

theorem AgreeFor.symm : AgreeFor pj other lib where
  character := agree.character.symm
  participates := fun session => (agree.participates session).symm
  rows := fun session part => (agree.rows session ((agree.participates session).mpr part)).symm
  columns := fun session part =>
    have same := agree.columns session ((agree.participates session).mpr part)
    ⟨same.1.symm, same.2.1.symm, same.2.2.symm⟩
  artifacts := fun session part kind readable =>
    have same := agree.artifacts session ((agree.participates session).mpr part) kind readable
    ⟨same.1.symm, same.2.1.symm, same.2.2.symm⟩

theorem mapped_agree (session : Uuid) (campaign : Option Uuid) :
    isPjMappedOnSession lib.db session pj campaign =
      isPjMappedOnSession other.db session pj campaign := by
  rw [Bool.eq_iff_iff, mapped_iff, mapped_iff, agree.participates session]
  apply and_congr_right
  intro part
  rw [agree.rows session ((agree.participates session).mpr part)]

theorem session_agree {session : Uuid} (part : Participates lib.db pj session) :
    lib.session session = other.session session := by
  unfold Library.session
  rw [agree.rows session part, (agree.columns session part).1, (agree.columns session part).2.1]

theorem artifact_agree {session : Uuid} (part : Participates lib.db pj session)
    {kind : ArtifactKind} (readable : Readable pj kind) :
    lib.artifact session kind = other.artifact session kind := by
  obtain ⟨row, generatedAt, editedAt⟩ := agree.artifacts session part kind readable
  unfold Library.artifact
  rw [row, generatedAt, editedAt]

variable {auth : PlayerKey} (own : auth.pjId = some pj)
include own

theorem campaign_agree : campaignIdForAuth lib auth = campaignIdForAuth other auth := by
  unfold campaignIdForAuth
  rw [own]
  exact congrArg (Option.map Pj.campaignId) agree.character

theorem ensure_agree (session : Uuid) :
    ensurePlayerCanReadSession lib.db session auth.pjId (campaignIdForAuth lib auth) =
      ensurePlayerCanReadSession other.db session auth.pjId (campaignIdForAuth other auth) := by
  rw [campaign_agree agree own, own]
  unfold ensurePlayerCanReadSession
  dsimp only
  rw [mapped_agree agree]

theorem gated_agree {α : Type} (session : Uuid) {next next' : Uuid → Except AppError α}
    (same : Participates lib.db pj session → next pj = next' pj) :
    (ensurePlayerCanReadSession lib.db session auth.pjId (campaignIdForAuth lib auth)).bind next =
      (ensurePlayerCanReadSession other.db session auth.pjId
        (campaignIdForAuth other auth)).bind next' := by
  rw [← ensure_agree agree own session]
  cases passed : ensurePlayerCanReadSession lib.db session auth.pjId (campaignIdForAuth lib auth)
    with
  | error e => rfl
  | ok reader =>
      obtain ⟨rfl, part⟩ := gate_ok own passed
      exact same part

theorem readArtifact_agree (session : Uuid) {kind : Uuid → ArtifactKind}
    (readable : Readable pj (kind pj)) (detail : String) :
    readArtifact lib auth session kind detail = readArtifact other auth session kind detail := by
  apply gated_agree agree own session
  intro part
  simp only [bind, artifact_agree agree part readable]

theorem readForMarkdown_agree (session : Uuid) {kind : Uuid → ArtifactKind}
    (readable : Readable pj (kind pj)) (detail : String) :
    readForMarkdown lib auth session kind detail =
      readForMarkdown other auth session kind detail := by
  apply gated_agree agree own session
  intro part
  simp only [bind, session_agree agree part, artifact_agree agree part readable]

theorem getMe_agree : getMe lib auth = getMe other auth := by
  unfold getMe getPlayerPj
  rw [campaign_agree agree own, own]
  simp only [orRaise, bind, Except.bind, agree.character]

theorem getMyPovMd_agree (session : Uuid) :
    getMyPovMd lib auth session = getMyPovMd other auth session := by
  unfold getMyPovMd
  rw [← readForMarkdown_agree agree own session (.inr (.inr (.inr rfl))), campaign_agree agree own]
  cases read : readForMarkdown lib auth session .pov (povMissing session) with
  | error e => rfl
  | ok pages =>
      obtain ⟨reader, row, page⟩ := pages
      obtain rfl : reader = pj := readForMarkdown_reader own read
      show Except.bind (orRaise (getPlayerPj lib.db reader _) _) _ =
        Except.bind (orRaise (getPlayerPj other.db reader _) _) _
      unfold getPlayerPj
      rw [agree.character]

omit own in
theorem selected_agree (campaign : Option Uuid) :
    (selectPlayerSessions lib.db pj campaign).Perm (selectPlayerSessions other.db pj campaign) := by
  refine (List.perm_ext_iff_of_nodup nodup_selectPlayerSessions
    nodup_selectPlayerSessions).mpr fun row => ?_
  have stored (db : Database) : row ∈ db.sessions.rows ↔ db.sessions.get? row.id = some row :=
    ⟨Table.get?_self, fun found => (Table.get?_eq_some.mp found).1⟩
  rw [mem_selectPlayerSessions, mem_selectPlayerSessions, stored, stored]
  constructor
  · rintro ⟨found, part, inside⟩
    exact ⟨agree.rows row.id part ▸ found, (agree.participates row.id).mp part, inside⟩
  · rintro ⟨found, part, inside⟩
    exact ⟨agree.symm.rows row.id part ▸ found, (agree.participates row.id).mpr part, inside⟩

omit own in
theorem lists_agree {campaign : Option Uuid} {rows : List Session}
    (listed : ListsPlayerSessions lib pj campaign rows) :
    ListsPlayerSessions other pj campaign rows ∧
      getMySessions lib rows = getMySessions other rows := by
  obtain ⟨selected, ordered⟩ := listed
  have columns : ∀ row ∈ rows, lib.title row.id = other.title row.id ∧
      lib.recordedAt row.id = other.recordedAt row.id ∧
        lib.createdAt row.id = other.createdAt row.id := fun row member =>
    agree.columns row.id (mem_selectPlayerSessions.mp (selected.mem_iff.mp member)).2.1
  refine ⟨⟨selected.trans (selected_agree agree campaign), ?_⟩, ?_⟩
  · refine ordered.imp_of_mem fun {a b} left right before => ?_
    rwa [← (columns a left).2.2, ← (columns b right).2.2]
  · have items : ∀ row ∈ rows, PlayerSessionItem.mk row.id (lib.title row.id)
        (lib.recordedAt row.id) = ⟨row.id, other.title row.id, other.recordedAt row.id⟩ := by
      intro row member
      rw [(columns row member).1, (columns row member).2.1]
    exact congrArg Response.sessions (List.map_congr_left items)

theorem answers_agree {request : Me.Request} {answer : Except AppError Response}
    (given : Answers lib auth request answer) : Answers other auth request answer := by
  cases request with
  | me => exact given.trans (getMe_agree agree own)
  | sessions =>
      simp only [Answers, own] at given ⊢
      obtain ⟨rows, listed, rfl⟩ := given
      obtain ⟨listed', same⟩ := lists_agree agree listed
      exact ⟨rows, campaign_agree agree own ▸ listed', congrArg Except.ok same⟩
  | narrative session =>
      refine given.trans ?_
      unfold getMyNarrative
      rw [readArtifact_agree agree own session (.inl rfl)]
  | narrativeMd session =>
      refine given.trans ?_
      unfold getMyNarrativeMd
      rw [readForMarkdown_agree agree own session (.inl rfl)]
  | summary session =>
      refine given.trans ?_
      unfold getMySummary
      rw [readArtifact_agree agree own session (.inr (.inl rfl))]
  | summaryMd session =>
      refine given.trans ?_
      unfold getMySummaryMd
      rw [readForMarkdown_agree agree own session (.inr (.inl rfl))]
  | elements session =>
      refine given.trans ?_
      unfold getMyElements
      rw [readArtifact_agree agree own session (.inr (.inr (.inl rfl)))]
  | elementsMd session =>
      refine given.trans ?_
      unfold getMyElementsMd
      rw [readForMarkdown_agree agree own session (.inr (.inr (.inl rfl)))]
  | pov session =>
      refine given.trans ?_
      unfold getMyPov
      rw [readArtifact_agree agree own session (.inr (.inr (.inr rfl)))]
  | povMd session => exact given.trans (getMyPovMd_agree agree own session)

end Agree

/-! ## Isolation -/

theorem listPlayerSessions_lists (lib : Library) (pj : Uuid) (campaign : Option Uuid) :
    ListsPlayerSessions lib pj campaign (listPlayerSessions lib pj campaign) := by
  refine ⟨List.perm_insertionSort _ _, ?_⟩
  have : Std.Total fun a b : Session => lib.createdAt a.id ≤ lib.createdAt b.id :=
    ⟨fun a b => le_total _ _⟩
  have : IsTrans Session fun a b => lib.createdAt a.id ≤ lib.createdAt b.id :=
    ⟨fun a b c => le_trans⟩
  exact List.pairwise_insertionSort _ _

/-- A player's key with a PJ gets the same answers from any two states that agree for this PJ. -/
theorem player_isolation {pj : Uuid} {lib other : Library} (agree : AgreeFor pj lib other)
    {auth : PlayerKey} (own : auth.pjId = some pj) (request : Me.Request)
    (answer : Except AppError Response) :
    Answers lib auth request answer ↔ Answers other auth request answer :=
  ⟨answers_agree agree own, answers_agree agree.symm own⟩

/-- One character's game. Who plays the second session, its title and the other character's point of
view are parameters. -/
def library (other : Uuid) (secret title : Text) : Library where
  db := { Database.empty with
    pjs := ⟨⟨[⟨8, ['A'], 7, 1⟩, ⟨9, ['C'], 7, 1⟩], by decide⟩, by decide⟩
    sessions := ⟨[⟨1, 7, some 1, .transcribed, .nonDiarised, none, none, none⟩,
      ⟨2, 7, some 1, .transcribed, .diarised, none, none, none⟩], by decide⟩
    mappings := ⟨[⟨2, ['S'], other⟩], List.nodup_singleton _⟩
    players := ⟨[⟨1, 8⟩, ⟨1, 9⟩], by decide⟩
    artifacts := ⟨[⟨1, .pov 8, .text ['m', 'e'], ['m'], false, none⟩,
      ⟨1, .pov 9, .text secret, ['m'], false, none⟩], by simp⟩ }
  title := fun session => if session = 1 then ['T'] else title
  recordedAt := fun _ => ⟨2026, 1, 1, 0, 0⟩
  createdAt := id
  generatedAt := fun _ _ => ⟨2026, 1, 1, 0, 0⟩
  editedAt := fun _ _ => none
  defaultCampaign := none

theorem library_participates {other : Uuid} (secret title : Text) (apart : other ≠ 8)
    (session : Uuid) : Participates (library other secret title).db 8 session ↔ session = 1 := by
  constructor
  · rintro ⟨row, found, part⟩
    obtain ⟨member, rfl⟩ := Table.get?_eq_some.mp found
    simp only [library, List.mem_cons, List.not_mem_nil, or_false] at member
    rcases member with rfl | rfl
    · rfl
    · obtain ⟨m, listed, -, own⟩ := part
      obtain rfl := List.mem_singleton.mp listed
      exact absurd own apart
  · rintro rfl
    exact ⟨_, rfl, ⟨1, 8⟩, by simp [library], rfl, rfl⟩

theorem library_agree {other other' : Uuid} (secret secret' title title' : Text)
    (apart : other ≠ 8) (apart' : other' ≠ 8) :
    AgreeFor 8 (library other secret title) (library other' secret' title') where
  character := rfl
  participates := fun session =>
    (library_participates secret title apart session).trans
      (library_participates secret' title' apart' session).symm
  rows := fun _ _ => rfl
  columns := by
    intro session part
    obtain rfl := (library_participates secret title apart session).mp part
    exact ⟨rfl, rfl, rfl⟩
  artifacts := by
    intro session part kind readable
    obtain rfl := (library_participates secret title apart session).mp part
    rcases readable with rfl | rfl | rfl | rfl <;> exact ⟨rfl, rfl, rfl⟩

theorem player_isolation_secret :
    Answers (library 9 ['x'] ['U']) ⟨5, ['P'], some 8⟩ (.pov 1)
        (getMyPov (library 9 ['x'] ['U']) ⟨5, ['P'], some 8⟩ 1) ↔
      Answers (library 10 ['y'] ['V']) ⟨5, ['P'], some 8⟩ (.pov 1)
        (getMyPov (library 9 ['x'] ['U']) ⟨5, ['P'], some 8⟩ 1) :=
  player_isolation (library_agree ['x'] ['y'] ['U'] ['V'] (by decide) (by decide)) rfl (.pov 1) _

/-- In whatever order the database gives sessions created at one time, a session is in a player's
list when the gate lets its player in, and it is there once. -/
theorem player_sessions_gated (lib : Library) (pj : Uuid) (campaign : Option Uuid)
    (rows : List Session) (listed : ListsPlayerSessions lib pj campaign rows) :
    (∀ row, row ∈ rows ↔ row ∈ lib.db.sessions.rows ∧
        isPjMappedOnSession lib.db row.id pj campaign = true) ∧
      (∀ session, session ∈ rows.map Session.id ↔
        isPjMappedOnSession lib.db session pj campaign = true) ∧
      (rows.map Session.id).Nodup := by
  have member : ∀ row, row ∈ rows ↔ row ∈ lib.db.sessions.rows ∧
      isPjMappedOnSession lib.db row.id pj campaign = true := by
    intro row
    rw [listed.1.mem_iff, mem_selectPlayerSessions, mapped_iff]
    constructor
    · rintro ⟨stored, part, inside⟩
      exact ⟨stored, part, row, Table.get?_self stored, inside⟩
    · rintro ⟨stored, part, row', found, inside⟩
      obtain rfl : row' = row := Option.some.inj (found.symm.trans (Table.get?_self stored))
      exact ⟨stored, part, inside⟩
  refine ⟨member, ?_, ?_⟩
  · intro session
    rw [List.mem_map]
    constructor
    · rintro ⟨row, inList, rfl⟩
      exact ((member row).mp inList).2
    · intro passed
      obtain ⟨-, row, found, -⟩ := mapped_iff.mp passed
      obtain ⟨stored, rfl⟩ := Table.get?_eq_some.mp found
      exact ⟨row, (member row).mpr ⟨stored, passed⟩, rfl⟩
  · apply List.Nodup.map_on
    · intro row left row' right same
      exact List.inj_on_of_nodup_map lib.db.sessions.unique ((member row).mp left).1
        ((member row').mp right).1 same
    · exact listed.1.nodup_iff.mpr nodup_selectPlayerSessions

/-- Two labels of one character, and a player row that a diarised session does not look at. -/
def twoVoices : Library :=
  { library 8 [] [] with
    db := { (library 8 [] []).db with
      mappings := ⟨[⟨2, ['S'], 8⟩, ⟨2, ['T'], 8⟩], by decide⟩
      players := ⟨[⟨2, 8⟩, ⟨2, 9⟩], by decide⟩ } }

theorem player_sessions_gated_twice :
    (∀ row, row ∈ listPlayerSessions twoVoices 8 (some 1) ↔ row ∈ twoVoices.db.sessions.rows ∧
        isPjMappedOnSession twoVoices.db row.id 8 (some 1) = true) ∧
      (∀ session, session ∈ (listPlayerSessions twoVoices 8 (some 1)).map Session.id ↔
        isPjMappedOnSession twoVoices.db session 8 (some 1) = true) ∧
      ((listPlayerSessions twoVoices 8 (some 1)).map Session.id).Nodup :=
  player_sessions_gated twoVoices 8 (some 1) _ (listPlayerSessions_lists twoVoices 8 (some 1))

end Kaeyris.Proof
