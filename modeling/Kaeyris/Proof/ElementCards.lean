import Kaeyris.ElementCards
import Kaeyris.Proof.Steps

/-!
# What an element card keeps

The reader yields trimmed rows, and reads trimmed rows back as they are. The migration, the edit
route and the generation job all store what the reader reads back.
-/

namespace Kaeyris.Proof
open Lib ElementCards

variable {py : Python}

/-! ## Rows -/

structure Clean (row : Element) : Prop where
  category : Text.strip row.category = row.category
  name : Text.strip row.name = row.name
  description : Text.strip row.description = row.description
  hasCategory : row.category ≠ []
  hasName : row.name ≠ []

theorem clean_category (category : Text) :
    let shown := if Text.strip category = [] then Elements.defaultCategory else Text.strip category
    Text.strip shown = shown ∧ shown ≠ [] := by
  intro shown
  by_cases blank : Text.strip category = []
  · rw [show shown = Elements.defaultCategory from if_pos blank]
    exact ⟨by decide, by decide⟩
  · rw [show shown = Text.strip category from if_neg blank]
    exact ⟨Text.strip_strip _, blank⟩

theorem clean_cleanRow {category entry : Json.Value} {row : Element}
    (kept : cleanRow py category entry = some row) : Clean row := by
  cases entry with
  | object fields =>
      simp only [cleanRow] at kept
      split at kept
      · cases kept
      · rename_i named
        cases kept
        obtain ⟨trimmed, content⟩ := clean_category (py.str category)
        exact ⟨trimmed, Text.strip_strip _, Text.strip_strip _, content, named⟩
  | _ => cases kept

theorem getText_string {fields : List (Text × Json.Value)} {key : String} {s : Text}
    (found : Json.field fields key.toList = some (.string s)) :
    getText py fields key = Text.strip s := by
  rw [getText, found]
  rfl

def rowFields (row : Element) : List (Text × Json.Value) :=
  [("category".toList, .string row.category), ("name".toList, .string row.name),
    ("description".toList, .string row.description)]

theorem rowJson_eq (row : Element) : rowJson row = .object (rowFields row) := rfl

theorem getText_rowFields (py : Python) (row : Element) :
    getText py (rowFields row) "category" = Text.strip row.category ∧
      getText py (rowFields row) "name" = Text.strip row.name ∧
        getText py (rowFields row) "description" = Text.strip row.description :=
  ⟨getText_string rfl, getText_string rfl, getText_string rfl⟩

theorem cleanElement_rowJson (row : Element) :
    cleanElement py (rowJson row) = Elements.cleanRow row.category row.name row.description := by
  obtain ⟨-, name, description⟩ := getText_rowFields py row
  have category : categoryOf (rowJson row) = .string row.category := rfl
  rw [cleanElement, category, rowJson_eq, cleanRow, name, description]
  rfl

theorem cleanRow_of_clean {row : Element} (clean : Clean row) :
    Elements.cleanRow row.category row.name row.description = some row := by
  simp only [Elements.cleanRow, clean.name, clean.category, clean.description,
    if_neg clean.hasName, if_neg clean.hasCategory]

theorem filterMap_clean {rows : List Element} (clean : ∀ row ∈ rows, Clean row) :
    rows.filterMap (fun row => cleanElement py (rowJson row)) = rows := by
  rw [List.filterMap_congr (g := some), List.filterMap_some]
  intro row member
  rw [cleanElement_rowJson, cleanRow_of_clean (clean row member)]

/-! ## Reading -/

theorem field_elements (rows : List Element) :
    Json.field [("elements".toList, Json.list (rows.map rowJson))] "elements".toList =
      some (.list (rows.map rowJson)) := rfl

theorem elementsFromContent_cardJson {rows : List Element} (clean : ∀ row ∈ rows, Clean row) :
    elementsFromContent py (cardJson rows) = .ok rows := by
  simp only [cardJson, elementsFromContent, field_elements, List.filterMap_map]
  exact congrArg Except.ok (filterMap_clean clean)

theorem clean_filterMap (category : Json.Value → Json.Value) {entries : List Json.Value} {row : Element}
    (member : row ∈ entries.filterMap fun entry => cleanRow py (category entry) entry) :
    Clean row := by
  obtain ⟨entry, -, kept⟩ := List.mem_filterMap.mp member
  exact clean_cleanRow kept

theorem mem_of_mapM {α β ε : Type} {f : α → Except ε β} {xs : List α} {ys : List β}
    (done : xs.mapM f = .ok ys) : ∀ y ∈ ys, ∃ x ∈ xs, f x = .ok y := by
  induction xs generalizing ys with
  | nil =>
      cases done
      simp
  | cons x xs ih =>
      rw [List.mapM_cons] at done
      cases first : f x with
      | error e => rw [first] at done; cases done
      | ok y =>
          cases later : xs.mapM f with
          | error e => rw [first, later] at done; cases done
          | ok rest =>
              rw [first, later] at done
              cases done
              rintro z (- | ⟨-, member⟩)
              · exact ⟨x, by simp, first⟩
              · obtain ⟨w, among, found⟩ := ih later z member
                exact ⟨w, List.mem_cons_of_mem _ among, found⟩

theorem clean_flattenElements {fields : List (Text × Json.Value)} {rows : List Element}
    (read : flattenElements py (.object fields) = .ok rows) : ∀ row ∈ rows, Clean row := by
  rw [flattenElements] at read
  cases buckets : elementCategoryLabels.mapM (flattenBucket py fields) with
  | error e => rw [buckets] at read; cases read
  | ok found =>
      rw [buckets] at read
      cases read
      intro row member
      obtain ⟨bucket, among, inside⟩ := List.mem_flatten.mp member
      obtain ⟨label, -, flat⟩ := mem_of_mapM buckets bucket among
      rw [flattenBucket] at flat
      cases entries : entriesOf py fields label.1 with
      | error e => rw [entries] at flat; cases flat
      | ok found =>
          rw [entries] at flat
          cases flat
          exact clean_filterMap (fun _ => .string label.2) inside

theorem clean_elementsFromContent {content : Json.Value} {rows : List Element}
    (read : elementsFromContent py content = .ok rows) : ∀ row ∈ rows, Clean row := by
  cases content with
  | object fields =>
      simp only [elementsFromContent] at read
      split at read
      · cases read
        exact fun row member => clean_filterMap categoryOf member
      · exact clean_flattenElements read
  | _ =>
      cases read
      simp

/-! ## The migration -/

def rowsOf (py : Python) (fields : List (Text × Json.Value)) (bucket : Text × Text) : List Element :=
  match flattenBucket py fields bucket with
  | .ok rows => rows
  | .error _ => []

def samplePython : Python := ⟨fun _ => [], fun _ => false, 4300, 1000, by decide⟩

/-- A bucket with a padded name and an item without one, one that is `null`, one that is a string,
and one that is missing. -/
def partialContent : List (Text × Json.Value) :=
  [("npcs".toList, .list [.object [("name".toList, .string [' ', 'A'])], .null, .object []]),
    ("locations".toList, .null), ("items".toList, .string ['x'])]

def trimDescription (row : Element) : Element :=
  { row with description := Text.strip row.description }

structure Valid (row : Element) : Prop where
  category : Text.strip row.category = row.category
  name : Text.strip row.name = row.name
  hasCategory : row.category ≠ []
  hasName : row.name ≠ []
  shortCategory : row.category.length ≤ 120
  shortName : row.name.length ≤ 255
  shortDescription : row.description.length ≤ 2000

theorem valid_validateElement {row valid : Element} (accepted : validateElement row = some valid) :
    Valid valid := by
  unfold validateElement at accepted
  split at accepted
  · rename_i bounds
    obtain ⟨-, shortCategory, -, shortName, shortDescription, category, name⟩ := bounds
    cases accepted
    exact ⟨Text.strip_strip _, Text.strip_strip _, fun blank => category (Text.strip_eq_nil.mp blank),
      fun blank => name (Text.strip_eq_nil.mp blank), (Text.strip_length_le _).trans shortCategory,
      (Text.strip_length_le _).trans shortName, shortDescription⟩
  · cases accepted

theorem not_blank_of_strip {s : Text} (trimmed : Text.strip s = s) (content : s ≠ []) :
    ¬s.Blank := fun blank => content (trimmed ▸ Text.strip_eq_nil.mpr blank)

theorem Valid.validateElement {row : Element} (valid : Valid row) :
    validateElement row = some row := by
  have category := List.length_pos_iff.mpr valid.hasCategory
  have name := List.length_pos_iff.mpr valid.hasName
  rw [ElementCards.validateElement, if_pos ⟨category, valid.shortCategory, name, valid.shortName,
    valid.shortDescription, not_blank_of_strip valid.category valid.hasCategory,
    not_blank_of_strip valid.name valid.hasName⟩, valid.category, valid.name]

theorem Valid.cleanRow {row : Element} (valid : Valid row) :
    Elements.cleanRow row.category row.name row.description = some (trimDescription row) := by
  simp only [Elements.cleanRow, valid.name, valid.category, if_neg valid.hasName,
    if_neg valid.hasCategory]
  rfl

theorem Valid.trimDescription {row : Element} (valid : Valid row) :
    Valid (trimDescription row) :=
  { valid with shortDescription := (Text.strip_length_le _).trans valid.shortDescription }

theorem elementsFromContent_valid {rows : List Element} (valid : ∀ row ∈ rows, Valid row) :
    Elements.elementsFromContent (.elements rows) = rows.map Proof.trimDescription :=
  List.filterMap_eq_map_iff_forall_eq_some.mpr fun row member => (valid row member).cleanRow

theorem mapM_validateElement {rows : List Element} (valid : ∀ row ∈ rows, Valid row) :
    rows.mapM validateElement = some rows := by
  induction rows with
  | nil => rfl
  | cons row rows ih =>
      rw [List.mapM_cons, (valid row (by simp)).validateElement,
        ih fun other member => valid other (List.mem_cons_of_mem _ member)]
      rfl

theorem valid_of_mapM {payload rows : List Element}
    (accepted : payload.mapM validateElement = some rows) : ∀ row ∈ rows, Valid row := by
  induction payload generalizing rows with
  | nil =>
      cases accepted
      simp
  | cons first payload ih =>
      rw [List.mapM_cons] at accepted
      cases one : ElementCards.validateElement first with
      | none => rw [one] at accepted; cases accepted
      | some row =>
          cases others : payload.mapM ElementCards.validateElement with
          | none => rw [one, others] at accepted; cases accepted
          | some rest =>
              rw [one, others] at accepted
              cases accepted
              rintro other (- | ⟨-, member⟩)
              · exact valid_validateElement one
              · exact ih others other member

theorem putElements_stored {elements : List Element} {confirmEmpty : Bool} {db after : Database}
    {rq : Rq} {auth : AuthenticatedKey} {session : Uuid}
    (put : Router.putElements elements confirmEmpty db rq auth session = .ok after) :
    (∃ row, Router.requireSession after session auth = .ok row) ∧
      ∃ artifact, ArtifactRepository.get after session .elements = some artifact ∧
        artifact.contentJson = .elements elements := by
  obtain ⟨row, found, put⟩ := except_bind_ok put
  obtain ⟨_, _, put⟩ := except_bind_ok put
  obtain ⟨_, _, put⟩ := except_bind_ok put
  obtain ⟨_, _, put⟩ := except_bind_ok put
  split at put
  case h_1 updated =>
    cases put
    obtain ⟨old, -, changed⟩ := view_updateContent db session session updated
    rw [if_pos rfl] at changed
    have stored := congrArg (fun v => v.artifact .elements) changed
    simp only [View.withArtifact, if_true] at stored
    refine ⟨⟨row, ?_⟩, _, stored, rfl⟩
    unfold ArtifactRepository.updateContent at updated
    obtain ⟨_, -, rfl⟩ := Option.map_eq_some_iff.mp updated
    exact found
  case h_2 => cases put

/-- A card that was put is read back row by row, with its descriptions trimmed, and putting back
what was read changes nothing. -/
theorem put_elements_round_trip (payload rows : List Element)
    (accepted : payload.mapM validateElement = some rows) (confirmEmpty : Bool) (rq : Rq)
    (auth : AuthenticatedKey) (session : Uuid) (db : Database) (lib : Library)
    (put : Router.putElements rows confirmEmpty db rq auth session = .ok lib.db) :
    (∃ artifact, lib.artifact session .elements = some artifact ∧
      getElements lib auth session = .ok (.elements artifact.row.sessionId
        (rows.map fun row => { row with description := Text.strip row.description })
        artifact.row.modelUsed artifact.generatedAt (Me.artifactProvenance artifact))) ∧
    ∀ (py : Python) (content : Json.Value) (read : List Element),
      elementsFromContent py content = .ok read →
        elementsFromContent py (cardJson read) = .ok read := by
  have valid := valid_of_mapM accepted
  obtain ⟨⟨row, found⟩, artifact, stored, content⟩ := putElements_stored put
  have page : lib.artifact session .elements =
      some ⟨artifact, lib.generatedAt session .elements, lib.editedAt session .elements⟩ := by
    rw [Library.artifact, stored]
    rfl
  refine ⟨⟨_, page, ?_⟩, fun py content read known =>
    elementsFromContent_cardJson (clean_elementsFromContent known)⟩
  have again : (rows.map trimDescription).mapM validateElement =
      some (rows.map trimDescription) := by
    apply mapM_validateElement
    intro out member
    obtain ⟨row, among, rfl⟩ := List.mem_map.mp member
    exact (valid row among).trimDescription
  rw [getElements, found, page]
  change elementsOut _ = _
  rw [elementsOut, content, elementsFromContent_valid valid, again]
  rfl

def cardLibrary (rows : List Element) (edited : Bool) (editor : Option Uuid) : Library where
  db := { Database.empty with
    sessions := ⟨[⟨1, 7, none, .transcribed, .nonDiarised, none, none, none⟩], by simp⟩
    artifacts := ⟨[⟨1, .elements, .elements rows, ['m'], edited, editor⟩], by simp⟩ }
  title := fun _ => []
  recordedAt := fun _ => ⟨2026, 1, 1, 0, 0⟩
  createdAt := id
  generatedAt := fun _ _ => ⟨2026, 1, 1, 0, 0⟩
  editedAt := fun _ _ => none
  defaultCampaign := none

def twinRows : List Element := [⟨['P'], ['A'], [' ', 'x']⟩, ⟨['Q'], ['A'], []⟩]

theorem put_elements_round_trip_twins :
    twinRows.mapM validateElement = some twinRows ∧
      ∃ artifact, (cardLibrary twinRows true (some 7)).artifact 1 .elements = some artifact ∧
        getElements (cardLibrary twinRows true (some 7)) gameMaster 1 =
          .ok (.elements artifact.row.sessionId
            (twinRows.map fun row => { row with description := Text.strip row.description })
            artifact.row.modelUsed artifact.generatedAt (Me.artifactProvenance artifact)) :=
  ⟨by decide, (put_elements_round_trip twinRows twinRows (by decide) false Table.empty gameMaster 1
    (cardLibrary [] false none).db (cardLibrary twinRows true (some 7)) rfl).1⟩

end Kaeyris.Proof
