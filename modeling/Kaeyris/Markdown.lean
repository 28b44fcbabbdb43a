import Kaeyris.Db.Models

/-!
# Elements cards and Markdown exports

`services/jdr/elements.py`, and what the players' routes use of `services/jdr/markdown.py`.
-/

namespace Kaeyris

/-- A `datetime` to the minute. -/
structure DateTime where
  year : Nat
  month : Nat
  day : Nat
  hour : Nat
  minute : Nat
  deriving DecidableEq

structure SessionPage where
  row : Session
  title : Text
  recordedAt : DateTime

structure ArtifactPage where
  row : Artifact
  generatedAt : DateTime
  editedAt : Option DateTime

/-! ## Elements -/

namespace Elements

def defaultCategory : Text := "Autres".toList

def cleanRow (category name description : Text) : Option Element :=
  let name := Text.strip name
  if name = [] then none
  else
    let category := Text.strip category
    some ⟨if category = [] then defaultCategory else category, name, Text.strip description⟩

def cleanBucket (label : String) (entries : List (Text × Text)) : List Element :=
  entries.filterMap fun entry => cleanRow label.toList entry.1 entry.2

def flattenElements (npcs locations items clues : List (Text × Text)) : List Element :=
  cleanBucket "PNJ" npcs ++ cleanBucket "Lieux" locations ++ cleanBucket "Objets" items ++
    cleanBucket "Indices" clues

def elementsFromContent : ArtifactContent → List Element
  | .elements rows => rows.filterMap fun row => cleanRow row.category row.name row.description
  | .buckets npcs locations items clues => flattenElements npcs locations items clues
  | .text _ | .surrogates _ => []

end Elements

/-! ## Markdown -/

namespace Markdown

def zeroPadded (width n : Nat) : String :=
  let digits := toString n
  String.ofList (List.replicate (width - digits.length) '0') ++ digits

def strftime (date : DateTime) : String :=
  let year := zeroPadded 4 date.year
  let month := zeroPadded 2 date.month
  let day := zeroPadded 2 date.day
  let hour := zeroPadded 2 date.hour
  let minute := zeroPadded 2 date.minute
  s!"{year}-{month}-{day} {hour}:{minute} (UTC)"

def joinLines (parts : List String) : String := "\n".intercalate parts

def renderSessionHeader (session : SessionPage) : String :=
  let title := String.ofList session.title
  let date := strftime session.recordedAt
  joinLines
    [s!"# Session : {title}", "", s!"- **Date** : {date}",
      s!"- **Identifiant** : {session.row.id}", s!"- **État** : {session.row.state.value}", "",
      "---", ""]

def contentText : ArtifactContent → Text
  | .text text => text
  | _ => []

def renderText (session : SessionPage) (artifact : ArtifactPage) (heading empty label : String) :
    String :=
  let text := String.ofList (Text.strip (contentText artifact.row.contentJson))
  let model := String.ofList artifact.row.modelUsed
  let date := strftime artifact.generatedAt
  joinLines
    [renderSessionHeader session, heading, "", if text = "" then empty else text, "", "---", "",
      s!"_{label} produit par `{model}`, le {date}._"]

def renderNarrativeMd (session : SessionPage) (artifact : ArtifactPage) : String :=
  renderText session artifact "## Résumé narratif" "_(résumé vide)_" "Résumé"

def renderSummaryMd (session : SessionPage) (artifact : ArtifactPage) : String :=
  renderText session artifact "## Résumé global de la session" "_(résumé vide)_" "Résumé"

def renderPovMd (session : SessionPage) (pj : Pj) (artifact : ArtifactPage) : String :=
  let name := String.ofList pj.name
  renderText session artifact s!"## Point de vue : {name}" "_(POV vide)_" "POV"

def elementLine (row : Element) : String :=
  let name := String.ofList row.name
  let description := String.ofList row.description
  if row.description = [] then s!"- **{name}**" else s!"- **{name}** — {description}"

/-- One section for each category, in the order of their first rows. -/
def elementSections (rows : List Element) : List String :=
  (rows.map Element.category).eraseDups.flatMap fun category =>
    let label := String.ofList category
    [s!"## {label}", ""] ++ (rows.filter fun row => row.category = category).map elementLine ++ [""]

def renderElementsMd (session : SessionPage) (artifact : ArtifactPage) : String :=
  let rows := Elements.elementsFromContent artifact.row.contentJson
  let model := String.ofList artifact.row.modelUsed
  let date := strftime artifact.generatedAt
  joinLines
    ([renderSessionHeader session] ++
      (if rows = [] then ["_(aucun élément)_", ""] else elementSections rows) ++
      ["---", "", s!"_Fiche produite par `{model}`, le {date}._"])

end Markdown

end Kaeyris
