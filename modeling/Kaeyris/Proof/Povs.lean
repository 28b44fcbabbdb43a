import Kaeyris.Proof.Participants
import Mathlib.Data.List.Perm.Subperm

/-!
# What becomes of the POVs that were paid for

A povs job asks the language model once for every participant it knows, and stores the replies under
the PJs. A PJ that takes part twice is asked for twice and stored once.
-/

namespace Kaeyris.Povs
open Lib Jobs Process Proof

/-! ## Replies of a run -/

def replyOf (r : Reaction effects) : Event effects → Option (Except Exn Text)
  | .called (.complete adapter ordinal system user maxTokens) =>
      some (r.answer (.complete adapter ordinal system user maxTokens))
  | _ => none

def replies (r : Reaction effects) (events : List (Event effects)) : List (Except Exn Text) :=
  events.filterMap (replyOf r)

/-- The participants that have a row among the PJs, once for every pair that names them. -/
def knownPjs (db : Database) (session : Uuid) : List Uuid :=
  (participants db session).filter fun pj => db.pjs.rows.any fun row => row.id = pj

def storedPov (db : Database) (session pj : Uuid) : Option ArtifactContent :=
  (ArtifactRepository.get db session (.pov pj)).map Artifact.contentJson

/-- Every reply is the text of an artifact of its own, and every participant has one POV. -/
structure Kept (r : Reaction effects) (db : Database) (session : Uuid)
    (outcome : Outcome effects Unit) : Prop where
  stored : ∃ texts pjs, replies r outcome.events = texts.map .ok ∧ pjs.Nodup ∧
    (∀ pj ∈ pjs, pj ∈ knownPjs db session) ∧
    List.Forall₂ (fun pj text => storedPov outcome.state session pj = some (.text text)) pjs texts
  one : ∀ pj ∈ knownPjs db session,
    ∃! row, row ∈ ArtifactRepository.listForSession outcome.state session ∧ row.kind = .pov pj

section Replies
variable {r : Reaction effects} {α β : Type}

theorem replies_append (events events' : List (Event effects)) :
    replies r (events ++ events') = replies r events ++ replies r events' := List.filterMap_append

def Unasked (r : Reaction effects) (p : JobBody α) : Prop :=
  p.Emits fun event => replyOf r event = none

theorem Unasked.replies_eq {p : JobBody α} (unasked : Unasked r p) (db : Database) :
    replies r (p.run r db).events = [] :=
  List.filterMap_eq_nil_iff.mpr fun event member => unasked r db event member

theorem unasked_obtainAdapter (env : Environment) (session : Uuid) :
    Unasked r (obtainAdapter env session) := by
  apply Emits.bind
  · exact emits_loadSessionModelSettings session (fun _ => rfl) (fun _ => rfl)
  · intro row
    apply Emits.bind
    · exact Emits.ofExcept _
    · exact fun choice => Emits.ask (by rfl)

theorem replies_complete (env : Environment) (adapter : LlmAdapter) (ordinal : Nat)
    (system : SystemPrompt) (user : Text) (db : Database) :
    replies r ((complete env adapter ordinal system user).run r db).events =
      [completion env r adapter ordinal system user] := by
  unfold complete completion
  have asked : replyOf r (.called (.complete adapter ordinal system user
      env.settings.llmMaxTokensDefault)) = some (r.answer (.complete adapter ordinal system user
        env.settings.llmMaxTokensDefault)) := rfl
  rw [tryCatch_eq, run_rescue, run_ask]
  cases answer : r.answer (.complete adapter ordinal system user env.settings.llmMaxTokensDefault) with
  | ok reply =>
      rw [answer] at asked
      rw [Outcome.orElse_ok]
      exact List.filterMap_cons_some asked
  | error e =>
      rw [answer] at asked
      rw [Outcome.orElse_error, llmFailed_eq]
      exact List.filterMap_cons_some asked

theorem bind_returned {p : JobBody α} {f : α → JobBody β} {db : Database} {b : β}
    (returned : ((p.bind f).run r db).result = .ok b) :
    ∃ a, (p.run r db).result = .ok a ∧ ((f a).run r (p.run r db).state).result = .ok b ∧
      ((p.bind f).run r db).state = ((f a).run r (p.run r db).state).state ∧
      replies r ((p.bind f).run r db).events =
        replies r (p.run r db).events ++ replies r ((f a).run r (p.run r db).state).events := by
  obtain ⟨a, first, rest, state⟩ := run_bind_returned returned
  exact ⟨a, first, rest, state, by rw [events_bind_ok first, replies_append]⟩

end Replies

/-! ## The loop -/

def known (participants : Participants) (pairs : List PjPair) : List Uuid :=
  pairs.filterMap fun pair => (participants.pjs.find? fun pj => pj.id = pair.pjId).map Pj.id

section Loop
variable (env : Environment) (adapter : LlmAdapter) (participants : Participants) (source : Text)
variable (r : Reaction effects) (db : Database)

theorem silent_completePovs (ordinal : Nat) (pairs : List PjPair) :
    (completePovs env adapter participants source ordinal pairs).Silent := by
  induction pairs generalizing ordinal with
  | nil => exact Silent.done _
  | cons pair rest ih =>
      unfold completePovs
      split
      · exact ih _
      · apply Silent.bind
        · exact silent_complete env adapter ordinal _ _
        · intro reply
          apply Silent.bind
          · exact ih _
          · exact fun later => Silent.done _

inductive Completed (targets : List Uuid) :
    Except Exn (List (ArtifactKind × ArtifactContent)) → List (Except Exn Text) → Prop
  | all {texts : List Text} {results : List (ArtifactKind × ArtifactContent)}
      (named : results.map Prod.fst = targets.map .pov)
      (texted : results.map Prod.snd = texts.map .text) :
      Completed targets (.ok results) (texts.map .ok)
  | refused (e : Exn) (answers : List (Except Exn Text)) : Completed targets (.error e) answers

theorem known_unknown {pair : PjPair} (rest : List PjPair)
    (unknown : participants.pjs.find? (fun pj => pj.id = pair.pjId) = none) :
    known participants (pair :: rest) = known participants rest := by
  rw [known, List.filterMap_cons, unknown]
  rfl

theorem known_found {pair : PjPair} {pj : Pj} (rest : List PjPair)
    (found : participants.pjs.find? (fun pj => pj.id = pair.pjId) = some pj) :
    known participants (pair :: rest) = pj.id :: known participants rest := by
  rw [known, List.filterMap_cons, found]
  rfl

theorem completePovs_unknown {pair : PjPair} (ordinal : Nat) (rest : List PjPair)
    (unknown : participants.pjs.find? (fun pj => pj.id = pair.pjId) = none) :
    completePovs env adapter participants source ordinal (pair :: rest) =
      completePovs env adapter participants source (ordinal + 1) rest := by
  rw [completePovs, unknown]

theorem completePovs_found {pair : PjPair} {pj : Pj} (ordinal : Nat) (rest : List PjPair)
    (found : participants.pjs.find? (fun pj => pj.id = pair.pjId) = some pj) :
    ∃ user, completePovs env adapter participants source ordinal (pair :: rest) =
      (complete env adapter ordinal .pov user).bind fun reply =>
        (completePovs env adapter participants source (ordinal + 1) rest).bind fun later =>
          .done ((.pov pj.id, .text reply) :: later) := by
  rw [completePovs, found]
  exact ⟨_, rfl⟩

theorem completePovs_completed (ordinal : Nat) (pairs : List PjPair) :
    Completed (known participants pairs)
      ((completePovs env adapter participants source ordinal pairs).run r db).result
      (replies r ((completePovs env adapter participants source ordinal pairs).run r db).events) := by
  induction pairs generalizing ordinal with
  | nil =>
      have nothing : Completed [] (.ok []) (([] : List Text).map .ok) := .all rfl rfl
      exact nothing
  | cons pair rest ih =>
      cases found : participants.pjs.find? fun pj => pj.id = pair.pjId with
      | none =>
          rw [known_unknown participants rest found,
            completePovs_unknown env adapter participants source ordinal rest found]
          exact ih (ordinal + 1)
      | some pj =>
          obtain ⟨user, program⟩ :=
            completePovs_found env adapter participants source ordinal rest found
          have first := result_complete env r adapter ordinal .pov user db
          have unchanged := silent_complete env adapter ordinal .pov user r db
          have asked := replies_complete (r := r) env adapter ordinal .pov user db
          have later := ih (ordinal + 1)
          rw [known_found participants rest found, program]
          cases answer : completion env r adapter ordinal .pov user with
          | error e =>
              rw [answer] at first
              rw [(run_bind_error first _).1]
              exact .refused _ _
          | ok reply =>
              rw [answer] at first asked
              rw [(run_bind_ok first _).1, events_bind_ok first, unchanged, replies_append, asked]
              cases done : ((completePovs env adapter participants source (ordinal + 1) rest).run r
                  db).result with
              | error e =>
                  rw [(run_bind_error done _).1]
                  exact .refused _ _
              | ok results =>
                  rw [(run_bind_ok done _).1, events_bind_ok done, replies_append]
                  rw [done] at later
                  generalize replies r ((completePovs env adapter participants source (ordinal + 1)
                    rest).run r db).events = answers at later ⊢
                  cases later with
                  | @all texts _ named texted =>
                      have one : Completed (pj.id :: known participants rest)
                          (.ok ((.pov pj.id, .text reply) :: results))
                          ((reply :: texts).map .ok) :=
                        .all (congrArg _ named) (congrArg _ texted)
                      rw [run_done, replies, List.filterMap_nil, List.append_nil]
                      exact one

end Loop

/-! ## Storing -/

section Storing
variable {session : Uuid} {modelUsed : Text} {db : Database} {target : ArtifactKind}

theorem get_upsert (kind : ArtifactKind) (content : ArtifactContent) :
    ArtifactRepository.get (ArtifactRepository.upsert db session kind content modelUsed) session
        target =
      if kind = target then some ⟨session, kind, content, modelUsed, false, none⟩
      else ArtifactRepository.get db session target := by
  refine (Table.get?_put db.artifacts ⟨session, kind, content, modelUsed, false, none⟩
    (session, target)).trans ?_
  by_cases same : kind = target
  · rw [if_pos same, if_pos (congrArg (Prod.mk session) same)]
  · rw [if_neg same, if_neg fun clash => same (congrArg Prod.snd clash)]
    rfl

theorem get_upsertAll_other {results : List (ArtifactKind × ArtifactContent)}
    (other : target ∉ results.map Prod.fst) :
    ArtifactRepository.get (upsertAll session modelUsed db results) session target =
      ArtifactRepository.get db session target := by
  induction results generalizing db with
  | nil => rfl
  | cons entry rest ih =>
      obtain ⟨kind, content⟩ := entry
      have apart : kind ≠ target := fun same => other (same ▸ List.mem_cons_self)
      rw [upsertAll, ih fun later => other (List.mem_cons_of_mem _ later), get_upsert, if_neg apart]

theorem get_upsertAll_isSome {results : List (ArtifactKind × ArtifactContent)}
    (written : target ∈ results.map Prod.fst ∨
      (ArtifactRepository.get db session target).isSome = true) :
    (ArtifactRepository.get (upsertAll session modelUsed db results) session target).isSome =
      true := by
  induction results generalizing db with
  | nil =>
      rcases written with member | before
      · cases member
      · exact before
  | cons entry rest ih =>
      obtain ⟨kind, content⟩ := entry
      rw [upsertAll]
      apply ih
      rw [get_upsert]
      by_cases same : kind = target
      · rw [if_pos same]
        exact .inr rfl
      · rw [if_neg same]
        rcases written with member | before
        · rcases List.mem_cons.mp member with first | later
          · exact absurd first.symm same
          · exact .inl later
        · exact .inr before

theorem upsertAll_keeps {pjs : List Uuid} {texts : List Text}
    {results : List (ArtifactKind × ArtifactContent)} (distinct : pjs.Nodup)
    (named : results.map Prod.fst = pjs.map .pov) (texted : results.map Prod.snd = texts.map .text) :
    List.Forall₂ (fun pj text => storedPov (upsertAll session modelUsed db results) session pj =
      some (.text text)) pjs texts := by
  induction pjs generalizing db results texts with
  | nil =>
      have none : results = [] := List.map_eq_nil_iff.mp named
      subst none
      have silent : texts = [] := List.map_eq_nil_iff.mp texted.symm
      subst silent
      exact .nil
  | cons pj pjs ih =>
      cases results with
      | nil => cases named
      | cons entry rest =>
          obtain ⟨kind, content⟩ := entry
          cases texts with
          | nil => cases texted
          | cons text texts =>
              rw [List.map_cons, List.map_cons, List.cons.injEq] at named texted
              obtain ⟨fresh, distinct⟩ := List.nodup_cons.mp distinct
              obtain ⟨kindEq, named⟩ := named
              obtain ⟨contentEq, texted⟩ := texted
              dsimp only at kindEq contentEq
              subst kindEq contentEq
              simp only [upsertAll]
              refine .cons ?_ (ih distinct named texted)
              have last : ArtifactKind.pov pj ∉ rest.map Prod.fst := by
                rw [named]
                simpa using fresh
              rw [storedPov, get_upsertAll_other last, get_upsert, if_pos rfl]
              rfl

theorem one_of_get {row : Artifact} (found : ArtifactRepository.get db session target = some row) :
    ∃! row, row ∈ ArtifactRepository.listForSession db session ∧ row.kind = target := by
  have key : row.key = (session, target) := Table.key_of_get? found
  rw [Artifact.key, Prod.mk.injEq] at key
  refine ⟨row, ⟨List.mem_filter.mpr ⟨Table.mem_of_get? found, by simpa using key.1⟩, key.2⟩, ?_⟩
  rintro other ⟨listed, same⟩
  obtain ⟨member, own⟩ := List.mem_filter.mp listed
  have place : other.key = (session, target) := by
    rw [Artifact.key, same, of_decide_eq_true own]
  have found' : ArtifactRepository.get db session target = some other := by
    rw [ArtifactRepository.get, ← place]
    exact Table.get?_self member
  exact Option.some.inj (found'.symm.trans found)

end Storing

/-! ## The job -/

section Job
variable {env : Environment} {r : Reaction effects} {session : Uuid} {db : Database}

theorem known_pair {loaded : Participants} (read : loadParticipants session db = .ok loaded)
    {pair : PjPair} (member : pair ∈ loaded.pairs) :
    (loaded.pjs.find? fun pj => pj.id = pair.pjId).map Pj.id =
      Option.guard (fun pj => db.pjs.rows.any fun row => row.id = pj) pair.pjId := by
  have listed := (loadParticipants_ok read).2
  cases found : loaded.pjs.find? fun pj => pj.id = pair.pjId with
  | none =>
      have absent : (db.pjs.rows.any fun row => row.id = pair.pjId) = false := by
        rw [List.any_eq_false]
        intro row present same
        have id : row.id = pair.pjId := of_decide_eq_true same
        have chosen : row ∈ loaded.pjs := by
          rw [listed, List.mem_filter]
          exact ⟨present, decide_eq_true (id ▸ List.mem_map_of_mem member)⟩
        exact List.find?_eq_none.mp found row chosen same
      simp [Option.guard, absent]
  | some pj =>
      have id : pj.id = pair.pjId := by simpa using List.find?_some found
      have chosen := List.mem_of_find?_eq_some found
      rw [listed, List.mem_filter] at chosen
      have present : (db.pjs.rows.any fun row => row.id = pair.pjId) = true :=
        List.any_eq_true.mpr ⟨pj, chosen.1, decide_eq_true id⟩
      simp [Option.guard, present, id]

theorem known_loaded {loaded : Participants} (read : loadParticipants session db = .ok loaded) :
    known loaded loaded.pairs = knownPjs db session := by
  have ids : loaded.pairs.map PjPair.pjId = participants db session := by
    rw [participants_eq]
    exact (loadParticipants_ok read).1
  rw [known, knownPjs, ← ids, List.filterMap_congr fun pair member => known_pair read member,
    ← List.filterMap_eq_filter, List.filterMap_map]
  rfl

theorem returned_writeArtifacts {modelUsed : Text}
    {results : List (ArtifactKind × ArtifactContent)}
    (returned : ((writeArtifacts session modelUsed results).run r db).result = .ok ()) :
    ((writeArtifacts session modelUsed results).run r db).state =
      upsertAll session modelUsed db results := by
  unfold writeArtifacts at returned ⊢
  rw [run_atomically] at returned ⊢
  cases failed : r.fails (.writeArtifacts (results.map Prod.fst)) with
  | none => rfl
  | some e =>
      rw [failed] at returned
      cases returned

theorem unasked_writeArtifacts (modelUsed : Text)
    (results : List (ArtifactKind × ArtifactContent)) :
    Unasked r (writeArtifacts session modelUsed results) :=
  Emits.atomically (by rfl) (by rfl) _

theorem povsAfter_returned {loaded : Participants}
    (returned : ((povsAfter env session loaded).run r db).result = .ok ()) :
    ∃ (texts : List Text) (results : List (ArtifactKind × ArtifactContent)) (modelUsed : Text),
      replies r ((povsAfter env session loaded).run r db).events = texts.map .ok ∧
      results.map Prod.fst = (known loaded loaded.pairs).map .pov ∧
      results.map Prod.snd = texts.map .text ∧
      ((povsAfter env session loaded).run r db).state = upsertAll session modelUsed db results := by
  unfold povsAfter at returned ⊢
  rw [bind_eq] at returned ⊢
  obtain ⟨⟨source, context⟩, -, rest, state, asked⟩ := bind_returned returned
  have unasked : Unasked r (reading Tx.loadSource (sourceDocument env session "povs")) :=
    Emits.reading (by rfl) (by rfl) _
  rw [Silent.reading Tx.loadSource (sourceDocument env session "povs") r db] at rest state asked
  rw [unasked.replies_eq db, List.nil_append] at asked
  rw [state, asked]
  dsimp only at rest ⊢
  rw [bind_eq] at rest ⊢
  obtain ⟨adapter, -, rest, state, asked⟩ := bind_returned rest
  rw [silent_obtainAdapter env session r db] at rest state asked
  rw [(unasked_obtainAdapter env session).replies_eq db, List.nil_append] at asked
  rw [state, asked]
  rw [bind_eq] at rest ⊢
  obtain ⟨results, completed, rest, state, asked⟩ := bind_returned rest
  rw [silent_completePovs env adapter loaded source 0 loaded.pairs r db] at rest state asked
  rw [(unasked_writeArtifacts _ _).replies_eq db, List.append_nil] at asked
  have loop := completePovs_completed env adapter loaded source r db 0 loaded.pairs
  rw [completed] at loop
  rw [state, asked, returned_writeArtifacts rest]
  generalize replies r ((completePovs env adapter loaded source 0 loaded.pairs).run r db).events =
    answers at loop ⊢
  cases loop with
  | @all texts _ named texted => exact ⟨texts, results, _, rfl, named, texted, rfl⟩

theorem allOrNothing_generatePovs (env : Environment) (session : Uuid) :
    (generatePovs env session).AllOrNothing := by
  rw [generatePovs_eq]
  apply AllOrNothing.bind
  · exact Silent.reading _ _
  · intro loaded
    apply AllOrNothing.bind
    · exact Silent.reading _ _
    · intro source
      apply AllOrNothing.bind
      · exact silent_obtainAdapter env session
      · intro adapter
        apply AllOrNothing.bind
        · exact silent_completePovs env adapter loaded source.1 0 loaded.pairs
        · exact fun results => AllOrNothing.atomically _ _

theorem generatePovs_returned
    (returned : ((generatePovs env session).run r db).result = .ok ()) :
    ∃ (texts : List Text) (results : List (ArtifactKind × ArtifactContent)) (modelUsed : Text),
      replies r ((generatePovs env session).run r db).events = texts.map .ok ∧
      results.map Prod.fst = (knownPjs db session).map .pov ∧
      results.map Prod.snd = texts.map .text ∧
      ((generatePovs env session).run r db).state = upsertAll session modelUsed db results := by
  rw [generatePovs_eq] at returned ⊢
  obtain ⟨loaded, first, rest, state, asked⟩ := bind_returned returned
  have unasked : Unasked r (reading Tx.loadParticipants (loadParticipants session) : JobBody _) :=
    Emits.reading (by rfl) (by rfl) _
  rw [Silent.reading Tx.loadParticipants (loadParticipants session) r db] at rest state asked
  rw [unasked.replies_eq db, List.nil_append] at asked
  have read : loadParticipants session db = .ok loaded := by
    rw [run_reading] at first
    cases failed : r.fails .loadParticipants with
    | none => rwa [failed] at first
    | some e =>
        rw [failed] at first
        cases first
  rw [state, asked, ← known_loaded read]
  exact povsAfter_returned rest

theorem length_of_returned {texts : List Text} {results : List (ArtifactKind × ArtifactContent)}
    {pjs : List Uuid} (named : results.map Prod.fst = pjs.map .pov)
    (texted : results.map Prod.snd = texts.map .text) : texts.length = pjs.length := by
  have first := congrArg List.length named
  have second := congrArg List.length texted
  simp only [List.length_map] at first second
  omega

/-- After a run that returns, every reply that was obtained is kept if and only if no PJ takes part
twice. A failed call leaves everything as it was. -/
theorem povs_kept_iff (env : Environment) (r : Reaction effects) (session : Uuid) (db : Database) :
    (((generatePovs env session).run r db).result = .ok () →
      (Kept r db session ((generatePovs env session).run r db) ↔ (knownPjs db session).Nodup)) ∧
    ((∃ e, .error e ∈ replies r ((generatePovs env session).run r db).events) →
      ((generatePovs env session).run r db).state = db) := by
  constructor
  · intro returned
    obtain ⟨texts, results, modelUsed, answered, named, texted, state⟩ :=
      generatePovs_returned returned
    have count := length_of_returned named texted
    constructor
    · rintro ⟨⟨texts', pjs, answered', distinct, listed, kept⟩, -⟩
      have same : texts' = texts :=
        List.map_injective_iff.mpr (fun _ _ => Except.ok.inj) (answered'.symm.trans answered)
      have long : pjs.length = (knownPjs db session).length := by
        rw [kept.length_eq, same, count]
      -- As many different participants as there are pairs.
      have all : pjs.Perm (knownPjs db session) :=
        (distinct.subperm listed).perm_of_length_le long.ge
      exact all.nodup_iff.mp distinct
    · intro distinct
      refine ⟨⟨texts, knownPjs db session, answered, distinct, fun _ member => member, ?_⟩, ?_⟩
      · rw [state]
        exact upsertAll_keeps distinct named texted
      · intro pj member
        have written : ArtifactKind.pov pj ∈ results.map Prod.fst := by
          rw [named]
          exact List.mem_map_of_mem member
        rw [state]
        obtain ⟨row, found⟩ := Option.isSome_iff_exists.mp (get_upsertAll_isSome (.inl written))
        exact one_of_get found
  · rintro ⟨e, member⟩
    cases outcome : ((generatePovs env session).run r db).result with
    | ok value =>
        obtain ⟨texts, results, modelUsed, answered, -⟩ := generatePovs_returned outcome
        rw [answered] at member
        obtain ⟨text, -, impossible⟩ := List.mem_map.mp member
        cases impossible
    | error e' => exact allOrNothing_generatePovs env session r db e' outcome

end Job

def twiceMapped : Database :=
  { playedDatabase with
    sessions := ⟨[{ playedSession with transcriptionMode := .diarised }], by decide⟩
    mappings := ⟨[⟨1, ['p'], 8⟩, ⟨1, ['q'], 8⟩], by decide⟩ }

/-- Two replies are obtained, and only the second is stored. -/
theorem first_pov_lost :
    ((generatePovs sampleEnvironment 1).run obliging twiceMapped).result = .ok () ∧
      ¬Kept obliging twiceMapped 1 ((generatePovs sampleEnvironment 1).run obliging twiceMapped) := by
  constructor
  · rfl
  · rintro ⟨⟨texts, pjs, answered, distinct, listed, kept⟩, -⟩
    have two : (replies obliging ((generatePovs sampleEnvironment 1).run obliging
        twiceMapped).events).length = 2 := rfl
    have only : pjs ⊆ [8] := by
      intro pj member
      have twice : knownPjs twiceMapped 1 = [8, 8] := rfl
      have among := listed pj member
      rw [twice] at among
      simpa using among
    have short := (distinct.subperm only).length_le
    rw [answered, List.length_map, ← kept.length_eq] at two
    rw [two] at short
    exact absurd short (by decide)

end Kaeyris.Povs
