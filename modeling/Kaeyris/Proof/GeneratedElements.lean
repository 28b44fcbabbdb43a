import Kaeyris.Proof.ElementCards
import Kaeyris.Lib.Json.RoundTrip
import Kaeyris.Proof.JobPrograms
import Kaeyris.Proof.Participants

/-!
# Reading generated cards

A generated card has trimmed rows under one of the four labels. What the schema can still refuse is
their lengths, and surrogates without a partner; the job looks for neither.
-/

namespace Kaeyris.Proof
open Lib Lib.Process Jobs ElementCards
open Lib.Json (CodePoints codePoints codePoints_injective)

variable {py : Python}

theorem generateSingle_stored {env : Environment} {session : Uuid} {label : String}
    {system : SystemPrompt} {kind : ArtifactKind} {content : Text → Except Exn ArtifactContent}
    {r : Reaction effects} {db : Database}
    (done : ((generateSingle env session label system kind content).run r db).result = .ok ()) :
    ∃ adapter user reply made modelUsed,
      r.answer (.complete adapter 0 system user env.settings.llmMaxTokensDefault) = .ok reply ∧
      content reply = .ok made ∧
      ((generateSingle env session label system kind content).run r db).state =
        ArtifactRepository.upsert db session kind made modelUsed := by
  rw [generateSingle_eq] at done ⊢
  obtain ⟨source, -, done, state⟩ := run_bind_returned done
  rw [state]
  rw [Silent.reading Tx.loadSource _ r db] at done ⊢
  obtain ⟨adapter, -, done, state⟩ := run_bind_returned done
  rw [state]
  rw [silent_obtainAdapter env session r db] at done ⊢
  obtain ⟨reply, replied, done, state⟩ := run_bind_returned done
  rw [state]
  rw [silent_complete env adapter 0 system _ r db] at done ⊢
  obtain ⟨made, parsed, done, state⟩ := run_bind_returned done
  rw [run_ofExcept] at parsed done state
  rw [state]
  rw [result_complete, completion] at replied
  refine ⟨adapter, userPromptWithContext source.2 source.1, reply, made,
    llmModelUsed env.settings adapter, ?_, parsed, ?_⟩
  · cases answer : r.answer (.complete adapter 0 system (userPromptWithContext source.2 source.1)
        env.settings.llmMaxTokensDefault) with
    | error e => rw [answer] at replied; cases replied
    | ok text =>
        rw [answer] at replied
        cases replied
        rfl
  · unfold writeArtifacts at done ⊢
    rw [run_atomically] at done ⊢
    cases failed : r.fails (.writeArtifacts ([(kind, made)].map Prod.fst)) with
    | some e => rw [failed] at done; cases done
    | none => rfl

theorem stripPoints_codePoints (s : Text) :
    stripPoints (codePoints s) = codePoints (Text.strip s) := by
  have blank : (fun n => (Json.char? n).any Text.isSpace) ∘ Char.toNat = Text.isSpace := by
    funext c
    rw [Function.comp_apply, Json.char?_toNat]
    rfl
  simp only [stripPoints, codePoints, Text.strip, Text.rstrip, Text.lstrip, List.rdropWhile,
    List.dropWhile_map, ← List.map_reverse, blank]

theorem stripPoints_stripPoints (s : CodePoints) :
    stripPoints (stripPoints s) = stripPoints s := by
  unfold stripPoints
  dsimp only
  generalize (fun n => (Json.char? n).any Text.isSpace) = blank
  have front : ((s.dropWhile blank).rdropWhile blank).dropWhile blank =
      (s.dropWhile blank).rdropWhile blank := by
    have initial : (s.dropWhile blank).rdropWhile blank <+: s.dropWhile blank :=
      List.rdropWhile_prefix _ _
    cases trimmed : (s.dropWhile blank).rdropWhile blank with
    | nil => rfl
    | cons n rest =>
        obtain ⟨more, whole⟩ := trimmed ▸ initial
        have first : blank n = false := by
          have kept := List.head?_dropWhile_not blank s
          rw [← whole] at kept
          simpa using kept
        rw [List.dropWhile_cons_of_neg (by simp [first])]
  rw [front, List.rdropWhile_idempotent]

theorem strip_of_stripPoints {s : Text} (trimmed : stripPoints (codePoints s) = codePoints s) :
    Text.strip s = s := by
  rw [stripPoints_codePoints] at trimmed
  exact codePoints_injective trimmed

/-! ## The rows of a reply -/

theorem mem_normaliseElementList {found : Option Document} {pair : CodePoints × CodePoints} :
    pair ∈ normaliseElementList py found ↔ ∃ entries, found = some (.list entries) ∧
      ∃ fields, Json.object fields ∈ entries ∧ getPoints py fields "name" ≠ [] ∧
        pair = (getPoints py fields "name", getPoints py fields "description") := by
  unfold normaliseElementList
  split
  · rename_i entries
    simp only [List.mem_filterMap, Option.some.injEq, Json.list.injEq, exists_eq_left']
    constructor
    · rintro ⟨entry, member, made⟩
      cases entry with
      | object fields =>
          simp only [normaliseEntry] at made
          split at made
          · cases made
          · rename_i named
            cases made
            exact ⟨fields, member, named, rfl⟩
      | _ => cases made
    · rintro ⟨fields, member, named, rfl⟩
      exact ⟨_, member, by simp only [normaliseEntry, if_neg named]⟩
  · rename_i other
    constructor
    · intro member
      cases member
    · rintro ⟨entries, rfl, -⟩
      exact (other entries rfl).elim

structure Trimmed (pair : CodePoints × CodePoints) : Prop where
  name : stripPoints pair.1 = pair.1
  content : pair.1 ≠ []
  description : stripPoints pair.2 = pair.2

theorem named_normalised {found : Option Document} :
    ∀ pair ∈ normaliseElementList py found, Trimmed pair := by
  intro pair member
  obtain ⟨_, -, fields, -, named, rfl⟩ := mem_normaliseElementList.mp member
  exact ⟨stripPoints_stripPoints _, named, stripPoints_stripPoints _⟩

theorem cleanPoints_eq {label : Text} (trimmed : Text.strip label = label) (content : label ≠ [])
    {pairs : List (CodePoints × CodePoints)} (named : ∀ pair ∈ pairs, Trimmed pair) :
    pairs.filterMap (cleanPoints label) = pairs.map fun pair => (codePoints label, pair) := by
  apply List.filterMap_eq_map_iff_forall_eq_some.mpr
  intro pair member
  obtain ⟨name, hasName, description⟩ := named pair member
  simp only [cleanPoints, name, description, trimmed, if_neg hasName, if_neg content]

theorem flatten_normalise (parsed : Document) :
    (normalise py parsed).flatten = elementCategoryLabels.flatMap fun bucket =>
      (normaliseElementList py (Json.field (fieldsOf parsed) (codePoints bucket.1))).map fun pair =>
        (codePoints bucket.2, pair) := by
  simp only [normalise, Buckets.flatten, elementCategoryLabels, List.flatMap_cons, List.flatMap_nil,
    List.append_nil]
  rw [cleanPoints_eq (by decide) (by decide) named_normalised,
    cleanPoints_eq (by decide) (by decide) named_normalised,
    cleanPoints_eq (by decide) (by decide) named_normalised,
    cleanPoints_eq (by decide) (by decide) named_normalised]
  simp only [List.append_assoc]

def Flat (row : PointRow) : Prop :=
  ∃ bucket ∈ elementCategoryLabels, row.1 = codePoints bucket.2 ∧ Trimmed row.2

theorem flat_normalise (parsed : Document) : ∀ row ∈ (normalise py parsed).flatten, Flat row := by
  intro row member
  rw [flatten_normalise] at member
  obtain ⟨bucket, listed, inside⟩ := List.mem_flatMap.mp member
  obtain ⟨pair, kept, rfl⟩ := List.mem_map.mp inside
  exact ⟨bucket, listed, rfl, named_normalised pair kept⟩

theorem labels_clean : ∀ bucket ∈ elementCategoryLabels,
    Text.strip bucket.2 = bucket.2 ∧ bucket.2 ≠ [] ∧ bucket.2.length ≤ 120 := by decide

theorem textRow_eq {row : PointRow} {element : Element} :
    textRow row = some element ↔ row = (codePoints element.category, codePoints element.name,
      codePoints element.description) := by
  obtain ⟨category, name, description⟩ := row
  constructor
  · intro read
    obtain ⟨_, first, read⟩ := Option.bind_eq_some_iff.mp read
    obtain ⟨_, second, read⟩ := Option.bind_eq_some_iff.mp read
    obtain ⟨_, third, same⟩ := Option.bind_eq_some_iff.mp read
    cases same
    rw [Json.chars?_eq_some] at first second third
    change category = _ at first
    change name = _ at second
    change description = _ at third
    rw [first, second, third]
  · intro same
    obtain ⟨rfl, rfl, rfl⟩ : category = _ ∧ name = _ ∧ description = _ := by simpa using same
    simp [textRow, Json.chars?_codePoints]

theorem Flat.clean {row : PointRow} (flat : Flat row) {element : Element}
    (read : textRow row = some element) : Clean element := by
  obtain ⟨bucket, listed, label, name, content, description⟩ := flat
  obtain ⟨trimmed, filled, -⟩ := labels_clean bucket listed
  obtain rfl := textRow_eq.mp read
  obtain category : element.category = bucket.2 := codePoints_injective label
  refine ⟨by rw [category, trimmed], strip_of_stripPoints name, strip_of_stripPoints description,
    by rw [category]; exact filled, fun empty => content ?_⟩
  rw [empty]
  rfl

/-! ## The limits of the schema -/

theorem Clean.validateElement {row : Element} (clean : Clean row) :
    validateElement row = if Me.validElement row then some row else none := by
  have category := List.length_pos_iff.mpr clean.hasCategory
  have name := List.length_pos_iff.mpr clean.hasName
  have whole : ¬row.category.Blank ∧ ¬row.name.Blank :=
    ⟨not_blank_of_strip clean.category clean.hasCategory,
      not_blank_of_strip clean.name clean.hasName⟩
  by_cases short : Me.validElement row
  · rw [if_pos short]
    simp only [Me.validElement, Bool.and_eq_true, decide_eq_true_eq] at short
    rw [ElementCards.validateElement, if_pos ⟨category, short.1.1, name, short.1.2, short.2, whole⟩,
      clean.category, clean.name]
  · rw [if_neg short, ElementCards.validateElement, if_neg]
    rintro ⟨-, shortCategory, -, shortName, shortDescription, -⟩
    exact short (by simp [Me.validElement, shortCategory, shortName, shortDescription])

theorem mapM_validateElement_clean {rows : List Element} (clean : ∀ row ∈ rows, Clean row) :
    rows.mapM validateElement = if rows.all Me.validElement then some rows else none := by
  induction rows with
  | nil => rfl
  | cons row rows ih =>
      rw [List.mapM_cons, (clean row (by simp)).validateElement,
        ih fun other member => clean other (List.mem_cons_of_mem _ member), List.all_cons]
      cases Me.validElement row <;> cases rows.all Me.validElement <;> rfl

def WithinSchema (s : CodePoints) (limit : Nat) : Prop :=
  (∀ n ∈ s, n.isValidChar) ∧ s.length ≤ limit

/-- Every named item of the recovered document fits into the schema once trimmed. -/
def FitsSchema (py : Python) (raw : Text) : Prop :=
  ∀ parsed, recovered py raw = .ok parsed → ∀ key ∈ elementKeys, ∀ entries,
    Json.field (fieldsOf parsed) (codePoints key) = some (.list entries) →
      ∀ fields, Json.object fields ∈ entries → getPoints py fields "name" ≠ [] →
        WithinSchema (getPoints py fields "name") 255 ∧
          WithinSchema (getPoints py fields "description") 2000

theorem keys_of_labels : elementKeys = elementCategoryLabels.map Prod.fst := rfl

def RowFits (row : PointRow) : Prop :=
  ∃ element, textRow row = some element ∧ Me.validElement element

theorem Flat.readable_iff {row : PointRow} (flat : Flat row) :
    RowFits row ↔ WithinSchema row.2.1 255 ∧ WithinSchema row.2.2 2000 := by
  obtain ⟨bucket, listed, label, -⟩ := flat
  obtain ⟨-, -, short⟩ := labels_clean bucket listed
  obtain ⟨category, name, description⟩ := row
  obtain rfl : category = codePoints bucket.2 := label
  constructor
  · rintro ⟨element, read, valid⟩
    obtain ⟨-, rfl, rfl⟩ : _ ∧ name = codePoints element.name ∧
        description = codePoints element.description := by
      simpa only [Prod.mk.injEq] using textRow_eq.mp read
    simp only [Me.validElement, Bool.and_eq_true, decide_eq_true_eq] at valid
    exact ⟨⟨Json.codePoints_valid _, by simpa [codePoints] using valid.1.2⟩,
      ⟨Json.codePoints_valid _, by simpa [codePoints] using valid.2⟩⟩
  · rintro ⟨⟨validName, shortName⟩, validDescription, shortDescription⟩
    obtain ⟨name, rfl⟩ := Json.exists_codePoints validName
    obtain ⟨description, rfl⟩ := Json.exists_codePoints validDescription
    refine ⟨⟨bucket.2, name, description⟩, textRow_eq.mpr rfl, ?_⟩
    simp only [codePoints, List.length_map] at shortName shortDescription
    simp [Me.validElement, short, shortName, shortDescription]

theorem fitsSchema_iff {raw : Text} {parsed : Document} (found : recovered py raw = .ok parsed) :
    (∀ row ∈ (normalise py parsed).flatten, RowFits row) ↔ FitsSchema py raw := by
  have single {others : Document} (read : recovered py raw = .ok others) : parsed = others :=
    Except.ok.inj (found.symm.trans read)
  constructor
  · intro readable others read key member entries listed fields among named
    obtain rfl := single read
    rw [keys_of_labels] at member
    obtain ⟨bucket, labelled, rfl⟩ := List.mem_map.mp member
    have kept := mem_normaliseElementList.mpr ⟨entries, listed, fields, among, named, rfl⟩
    have row : (codePoints bucket.2, getPoints py fields "name",
        getPoints py fields "description") ∈ (normalise py parsed).flatten := by
      rw [flatten_normalise]
      exact List.mem_flatMap.mpr ⟨bucket, labelled, List.mem_map.mpr ⟨_, kept, rfl⟩⟩
    exact (flat_normalise parsed _ row).readable_iff.mp (readable _ row)
  · intro fits row member
    have flat := flat_normalise parsed row member
    rw [flatten_normalise] at member
    obtain ⟨bucket, labelled, inside⟩ := List.mem_flatMap.mp member
    obtain ⟨pair, kept, rfl⟩ := List.mem_map.mp inside
    obtain ⟨entries, listed, fields, among, named, rfl⟩ := mem_normaliseElementList.mp kept
    have key : bucket.1 ∈ elementKeys := keys_of_labels ▸ List.mem_map.mpr ⟨bucket, labelled, rfl⟩
    exact flat.readable_iff.mpr (fits parsed found bucket.1 key entries listed fields among named)

/-! ## Both readers -/

theorem mapM_cons_some {α β : Type} {f : α → Option β} {x : α} {y : β} (first : f x = some y)
    (xs : List α) : (x :: xs).mapM f = (xs.mapM f).map (y :: ·) := by
  rw [List.mapM_cons, first]
  cases xs.mapM f <;> rfl

theorem exists_mapM_iff {α β : Type} {f : α → Option β} {check : β → Bool} {xs : List α} :
    (∃ ys, xs.mapM f = some ys ∧ ys.all check) ↔ ∀ x ∈ xs, ∃ y, f x = some y ∧ check y := by
  induction xs with
  | nil => simp
  | cons x xs ih =>
      rw [List.forall_mem_cons, ← ih]
      cases first : f x with
      | none => simp [List.mapM_cons, first]
      | some y =>
          rw [mapM_cons_some first]
          cases xs.mapM f <;> simp

theorem clean_of_mapM {rows : List PointRow} (flat : ∀ row ∈ rows, Flat row)
    {elements : List Element} (read : rows.mapM textRow = some elements) :
    ∀ element ∈ elements, Clean element := by
  induction rows generalizing elements with
  | nil =>
      cases read
      simp
  | cons row rows ih =>
      rw [List.forall_mem_cons] at flat
      cases first : textRow row with
      | none =>
          rw [List.mapM_cons, first] at read
          cases read
      | some element =>
          rw [mapM_cons_some first] at read
          obtain ⟨later, tail, rfl⟩ := Option.map_eq_some_iff.mp read
          rw [List.forall_mem_cons]
          exact ⟨flat.1.clean first, ih flat.2 tail⟩

theorem read_clean {elements : List Element} (clean : ∀ element ∈ elements, Clean element) :
    Elements.elementsFromContent (.elements elements) = elements := by
  have rows := fun row (member : row ∈ elements) => cleanRow_of_clean (clean row member)
  rw [Elements.elementsFromContent, List.filterMap_congr rows, List.filterMap_some]

theorem readable_rows {rows : List PointRow} (flat : ∀ row ∈ rows, Flat row)
    {α : Type} (answer : List Element → Except AppError α)
    (valid : ∀ elements, (∀ element ∈ elements, Clean element) →
      ((∃ out, answer elements = .ok out) ↔ elements.all Me.validElement)) :
    (∃ out, (Router.require (storedRows rows).encodable Me.internal).bind (fun _ =>
      answer (Elements.elementsFromContent (storedRows rows))) = .ok out) ↔
        ∀ row ∈ rows, RowFits row := by
  refine Iff.trans ?_ exists_mapM_iff
  unfold storedRows
  cases read : rows.mapM textRow with
  | none =>
      refine iff_of_false ?_ (by simp)
      rintro ⟨out, impossible⟩
      cases impossible
  | some elements =>
      have clean := clean_of_mapM flat read
      dsimp only
      rw [read_clean clean]
      change (∃ out, answer elements = .ok out) ↔ _
      simpa using valid elements clean

theorem generated_page {session : Uuid} {lib : Library} {db : Database} {modelUsed : Text}
    {content : ArtifactContent}
    (same : lib.db = ArtifactRepository.upsert db session .elements content modelUsed) :
    ∃ page, lib.artifact session .elements = some page ∧ page.row.contentJson = content := by
  have stored : ArtifactRepository.get lib.db session .elements =
      some ⟨session, .elements, content, modelUsed, false, none⟩ := by
    rw [same, ArtifactRepository.upsert, ArtifactRepository.get, Table.get?_put]
    exact if_pos rfl
  exact ⟨⟨_, _, _⟩, by rw [Library.artifact, stored]; rfl, rfl⟩

section Readers
variable {lib : Library} {session : Uuid} {page : ArtifactPage} {raw : Text} {parsed : Document}
  (found : recovered py raw = .ok parsed) (stored : lib.artifact session .elements = some page)
  (content : page.row.contentJson = storedRows (normalise py parsed).flatten)
include found stored content

theorem getElements_ok {auth : AuthenticatedKey} {row : Session}
    (access : Router.requireSession lib.db session auth = .ok row) :
    (∃ out, getElements lib auth session = .ok out) ↔ FitsSchema py raw := by
  refine Iff.trans ?_ (fitsSchema_iff found)
  refine Iff.trans ?_ (readable_rows (flat_normalise parsed)
    (fun elements => (Me.orRaise (elements.mapM validateElement) Me.internal).bind fun rows =>
      .ok (Me.Response.elements page.row.sessionId rows page.row.modelUsed page.generatedAt
        (Me.artifactProvenance page))) ?_)
  · rw [getElements, access, stored, ← content]
    rfl
  · intro elements clean
    rw [mapM_validateElement_clean clean]
    cases elements.all Me.validElement with
    | true => exact iff_of_true ⟨_, rfl⟩ rfl
    | false =>
        refine iff_of_false ?_ (by simp)
        rintro ⟨_, read⟩
        cases read

theorem getMyElements_ok {auth : PlayerKey} {pj : Uuid}
    (access : Me.ensurePlayerCanReadSession lib.db session auth.pjId
      (Me.campaignIdForAuth lib auth) = .ok pj) :
    (∃ out, Me.getMyElements lib auth session = .ok out) ↔ FitsSchema py raw := by
  refine Iff.trans ?_ (fitsSchema_iff found)
  refine Iff.trans ?_ (readable_rows (flat_normalise parsed)
    (fun elements => (Router.require (elements.all Me.validElement) Me.internal).bind fun _ =>
      .ok (Me.Response.elements page.row.sessionId elements page.row.modelUsed page.generatedAt
        (Me.artifactProvenance page))) ?_)
  · rw [Me.getMyElements, Me.readArtifact, access, stored, ← content]
    rfl
  · intro elements clean
    cases elements.all Me.validElement with
    | true => exact iff_of_true ⟨_, rfl⟩ rfl
    | false =>
        refine iff_of_false ?_ (by simp)
        rintro ⟨_, read⟩
        cases read

end Readers

theorem withParser_parsed {env : Environment} {raw : Text} {made : ArtifactContent}
    (done : ((withParser py env).parseElements raw).mapError Exn.other = .ok made) :
    ∃ parsed, recovered py raw = .ok parsed ∧
      made = storedRows (normalise py parsed).flatten := by
  cases found : recovered py raw with
  | error e =>
      simp only [withParser, parseElementsResponse, found] at done
      cases done
  | ok parsed =>
      simp only [withParser, parseElementsResponse, found] at done
      cases done
      exact ⟨parsed, rfl, rfl⟩

/-- After a successful generation the game master and the players can read the card exactly when
the items of the model's reply fit into the schema. -/
theorem generated_readable_iff (py : Python) (env : Environment) (session : Uuid)
    (r : Reaction effects) (db : Database)
    (done : ((generateElements (withParser py env) session).run r db).result = .ok ()) :
    ∃ adapter user reply,
      r.answer (.complete adapter 0 .elements user env.settings.llmMaxTokensDefault) = .ok reply ∧
      ∀ lib : Library, lib.db = ((generateElements (withParser py env) session).run r db).state →
        (∀ auth row, Router.requireSession lib.db session auth = .ok row →
          ((∃ out, getElements lib auth session = .ok out) ↔ FitsSchema py reply)) ∧
        ∀ auth pj, Me.ensurePlayerCanReadSession lib.db session auth.pjId
            (Me.campaignIdForAuth lib auth) = .ok pj →
          ((∃ out, Me.getMyElements lib auth session = .ok out) ↔ FitsSchema py reply) := by
  obtain ⟨adapter, user, reply, made, modelUsed, answered, parses, state⟩ :=
    generateSingle_stored done
  obtain ⟨parsed, found, rfl⟩ := withParser_parsed parses
  refine ⟨adapter, user, reply, answered, fun lib same => ?_⟩
  obtain ⟨page, stored, content⟩ := generated_page (same.trans state)
  exact ⟨fun auth row access => getElements_ok found stored content access,
    fun auth pj access => getMyElements_ok found stored content access⟩

/-! ## A long name -/

def answering (reply : Text) : Reaction effects where
  fails := fun _ => none
  answer
    | .complete _ _ _ _ _ => .ok reply
    | query => obliging.answer query

def sampleLibrary (db : Database) : Library where
  db := db
  title := fun _ => []
  recordedAt := fun _ => ⟨2026, 1, 1, 0, 0⟩
  createdAt := id
  generatedAt := fun _ _ => ⟨2026, 1, 1, 0, 0⟩
  editedAt := fun _ _ => none
  defaultCampaign := none

def namedReply (length : Nat) : Text :=
  Json.dumps (bucketsJson [(List.replicate length 'a', [])] [] [] [])

theorem recovered_dumps {fields : List (Text × Json.Value)}
    (fits : Json.Fits (dialect py) 0 (.object fields)) :
    recovered py (Json.dumps (.object fields)) =
      .ok (.object (Json.mapFields codePoints fields)) := by
  have text (s : List Char) : (dialect py).text (codePoints s) = some (codePoints s) := rfl
  have whole : Json.load (dialect py) ([] ++ Json.dumps (.object fields) ++ []) =
      .ok ((Json.object fields).map codePoints) :=
    Json.load_dumps text fits (by simp) (by simp)
  rw [List.nil_append, List.append_nil] at whole
  have first : tryParseJson py (Json.dumps (.object fields)) =
      .ok (some (.object (Json.mapFields codePoints fields))) := by
    rw [tryParseJson, whole]
    rfl
  rw [recovered, firstParsed, first]
  rfl

theorem strip_replicate (length : Nat) :
    Text.strip (List.replicate length 'a') = List.replicate length 'a' := by
  apply Text.strip_of_trimmed
  have letters : ∀ c ∈ List.replicate length 'a', ¬Text.isSpace c := by
    intro c member
    rw [List.eq_of_mem_replicate member]
    decide
  exact ⟨fun c first => letters c (List.mem_of_mem_head? first),
    fun c last => letters c (List.mem_of_getLast? last)⟩

theorem not_fitsSchema_namedReply {length : Nat} (long : 255 < length) :
    ¬FitsSchema samplePython (namedReply length) := by
  intro fits
  have name : getPoints samplePython (Json.mapFields codePoints
      [("name".toList, .string (List.replicate length 'a')), ("description".toList, .string [])])
      "name" = codePoints (List.replicate length 'a') :=
    (stripPoints_codePoints _).trans (congrArg codePoints (strip_replicate length))
  have named : codePoints (List.replicate length 'a') ≠ [] := by simp [codePoints]; omega
  have found := @recovered_dumps samplePython _
    (show Json.Fits _ 0 (bucketsJson [(List.replicate length 'a', [])] [] [] []) from
      ⟨rfl, ⟨rfl, ⟨rfl, trivial, trivial, trivial⟩, trivial⟩, ⟨rfl, trivial⟩, ⟨rfl, trivial⟩,
        ⟨rfl, trivial⟩, trivial⟩)
  have short := (fits _ found "npcs".toList (by decide) _ rfl _ (List.mem_singleton.mpr rfl)
    (name.trans_ne named)).1.2
  rw [name, codePoints, List.length_map, List.length_replicate] at short
  omega

theorem generated_readable_iff_short :
    ∃ adapter user reply, (answering (namedReply 3)).answer
        (.complete adapter 0 .elements user sampleEnvironment.settings.llmMaxTokensDefault) =
          .ok reply ∧
      ∀ lib : Library, lib.db = ((generateElements (withParser samplePython sampleEnvironment)
          1).run (answering (namedReply 3)) playedDatabase).state →
        (∀ auth row, Router.requireSession lib.db 1 auth = .ok row →
          ((∃ out, getElements lib auth 1 = .ok out) ↔ FitsSchema samplePython reply)) ∧
        ∀ auth pj, Me.ensurePlayerCanReadSession lib.db 1 auth.pjId
            (Me.campaignIdForAuth lib auth) = .ok pj →
          ((∃ out, Me.getMyElements lib auth 1 = .ok out) ↔ FitsSchema samplePython reply) :=
  generated_readable_iff samplePython sampleEnvironment 1 (answering (namedReply 3))
    playedDatabase rfl

/-- One named character of 256 letters, and the card is stored but no longer shown. -/
theorem generated_unreadable :
    ((generateElements (withParser samplePython sampleEnvironment) 1).run
      (answering (namedReply 256)) playedDatabase).result = .ok () ∧
    ¬∃ out, getElements (sampleLibrary ((generateElements (withParser samplePython
      sampleEnvironment) 1).run (answering (namedReply 256)) playedDatabase).state)
        gameMaster 1 = .ok out := by
  have done : ((generateElements (withParser samplePython sampleEnvironment) 1).run
      (answering (namedReply 256)) playedDatabase).result = .ok () := by decide +kernel
  refine ⟨done, ?_⟩
  obtain ⟨adapter, user, reply, made, modelUsed, answered, parses, state⟩ :=
    generateSingle_stored done
  obtain rfl : namedReply 256 = reply := Except.ok.inj answered
  obtain ⟨parsed, found, rfl⟩ := withParser_parsed parses
  have final : ((generateElements (withParser samplePython sampleEnvironment) 1).run
      (answering (namedReply 256)) playedDatabase).state =
        ArtifactRepository.upsert playedDatabase 1 .elements
          (storedRows (normalise samplePython parsed).flatten) modelUsed := state
  rw [final]
  obtain ⟨page, stored, content⟩ := generated_page (Eq.refl (sampleLibrary _).db)
  have access : Router.requireSession (sampleLibrary (ArtifactRepository.upsert playedDatabase 1
      .elements (storedRows (normalise samplePython parsed).flatten) modelUsed)).db 1 gameMaster =
        .ok playedSession := rfl
  intro shown
  exact not_fitsSchema_namedReply (by decide) ((getElements_ok found stored content access).mp shown)

end Kaeyris.Proof
