import Kaeyris.Jobs.Artifacts
import Kaeyris.Lib.Json
import Kaeyris.Me

/-!
# Element cards as JSON

`elements.py` on arbitrary stored JSON, migration 0020, the schema `Element`, the parser of the
language model's reply in `jobs/jdr.py`, and the game master's `GET` of a card.
-/

namespace Kaeyris
open Lib
open Lib.Json (CodePoints codePoints)

/-- What `json.loads` makes of a reply: a surrogate without its partner may be left in a string. -/
abbrev Document := Json CodePoints

/-- What `str()` prints of a value that is no string, which numbers are zero, and the limits of
`json.loads`: `sys.get_int_max_str_digits()`, and how deep it still recurses where a job calls it, which
is deep enough for a card. -/
structure Python where
  repr : Document → Text
  isZero : Json.NumberLiteral → Bool
  digits : Nat
  depth : Nat
  roomy : 3 ≤ depth

namespace Python

def str (py : Python) : Json.Value → Text
  | .string s => s
  | value => py.repr (value.map codePoints)

def points (py : Python) : Document → CodePoints
  | .string s => s
  | value => codePoints (py.repr value)

def truthy (py : Python) : Json.Value → Bool
  | .null => false
  | .bool b => b
  | .number literal => !py.isZero literal
  | .string s => s ≠ []
  | .list items => !items.isEmpty
  | .object fields => !fields.isEmpty

end Python

namespace ElementCards

variable (py : Python)

/-! ## `elements.py` -/

inductive TypeError
  | notIterable
  deriving DecidableEq

def iterate : Json.Value → Except TypeError (List Json.Value)
  | .string s => .ok (s.map fun c => .string [c])
  | .list items => .ok items
  | .object fields => .ok ((fields.map Prod.fst).eraseDups.map .string)
  | _ => .error .notIterable

/-- `buckets.get(key) or []`, iterated. -/
def entriesOf (fields : List (Text × Json.Value)) (key : Text) : Except TypeError (List Json.Value) :=
  match Json.field fields key with
  | none => .ok []
  | some value => if py.truthy value then iterate value else .ok []

def getText (fields : List (Text × Json.Value)) (key : String) : Text :=
  Text.strip (py.str ((Json.field fields key.toList).getD (.string [])))

def elementCategoryLabels : List (Text × Text) :=
  [("npcs".toList, "PNJ".toList), ("locations".toList, "Lieux".toList),
    ("items".toList, "Objets".toList), ("clues".toList, "Indices".toList)]

def cleanRow (category : Json.Value) : Json.Value → Option Element
  | .object fields =>
      let name := getText py fields "name"
      if name = [] then none
      else
        let category := Text.strip (py.str category)
        some ⟨if category = [] then Elements.defaultCategory else category, name,
          getText py fields "description"⟩
  | _ => none

def flattenBucket (fields : List (Text × Json.Value)) (bucket : Text × Text) :
    Except TypeError (List Element) := do
  let entries ← entriesOf py fields bucket.1
  return entries.filterMap (cleanRow py (.string bucket.2))

def flattenElements : Json.Value → Except TypeError (List Element)
  | .object fields => do
      let rows ← elementCategoryLabels.mapM (flattenBucket py fields)
      return rows.flatten
  | _ => .ok []

def categoryOf : Json.Value → Json.Value
  | .object fields => (Json.field fields "category".toList).getD (.string [])
  | _ => .string []

def cleanElement (entry : Json.Value) : Option Element := cleanRow py (categoryOf entry) entry

def elementsFromContent : Json.Value → Except TypeError (List Element)
  | .object fields =>
      match Json.field fields "elements".toList with
      | some (.list raw) => .ok (raw.filterMap (cleanElement py))
      | _ => flattenElements py (.object fields)
  | _ => .ok []

def rowJson (row : Element) : Json.Value :=
  .object [("category".toList, .string row.category), ("name".toList, .string row.name),
    ("description".toList, .string row.description)]

def cardJson (rows : List Element) : Json.Value :=
  .object [("elements".toList, .list (rows.map rowJson))]

def pairJson (pair : Text × Text) : Json.Value :=
  .object [("name".toList, .string pair.1), ("description".toList, .string pair.2)]

def bucketsJson (npcs locations items clues : List (Text × Text)) : Json.Value :=
  .object [("npcs".toList, .list (npcs.map pairJson)),
    ("locations".toList, .list (locations.map pairJson)),
    ("items".toList, .list (items.map pairJson)), ("clues".toList, .list (clues.map pairJson))]

/-! ## Migration 0020 -/

namespace Migration0020

end Migration0020

/-- `Element`: the bounds, then `reject_blank`, which strips the category and the name. -/
def validateElement (row : Element) : Option Element :=
  if 1 ≤ row.category.length ∧ row.category.length ≤ 120 ∧ 1 ≤ row.name.length ∧
      row.name.length ≤ 255 ∧ row.description.length ≤ 2000 ∧
      ¬row.category.Blank ∧ ¬row.name.Blank then
    some { row with category := Text.strip row.category, name := Text.strip row.name }
  else none

/-! ## Reading a reply -/

def elementKeys : List Text :=
  ["npcs".toList, "locations".toList, "items".toList, "clues".toList]

/-- The text after the first occurrence of three backticks, and the text before it. -/
def splitFence : Text → Option (Text × Text)
  | '`' :: '`' :: '`' :: rest => some ([], rest)
  | c :: rest => (splitFence rest).map fun parts => (c :: parts.1, parts.2)
  | [] => none

def dropPrefix (front s : Text) : Text := if front.isPrefixOf s then s.drop front.length else s

/-- The group of the first match of `_FENCED_JSON_RE`: the shortest text before a closing fence that
whitespace may precede. -/
def fencedJson (raw : Text) : Option Text := do
  let (_, opened) ← splitFence raw
  let (inside, _) ← splitFence (Text.lstrip (dropPrefix "json".toList opened))
  return Text.rstrip inside

def outermostBraces (raw : Text) : Option Text :=
  match (raw.dropWhile (· ≠ '{')).rdropWhile (· ≠ '}') with
  | [] => none
  | inside => some inside

def dialect : Json.Dialect CodePoints := ⟨some, some py.digits, some py.depth⟩

/-- `null` becomes the same `None` as a text that is no JSON; the other errors of `json.loads` are not
caught. -/
def tryParseJson (payload : Text) : Except Json.LoadError (Option Document) :=
  match Json.load (dialect py) payload with
  | .ok .null | .error .decode => .ok none
  | .ok parsed => .ok (some parsed)
  | .error e => .error e

def firstParsed : List Text → Except Json.LoadError Document
  | [] => .ok (.object [])
  | payload :: later => do
      match ← tryParseJson py payload with
      | some parsed => return parsed
      | none => firstParsed later

def recovered (raw : Text) : Except Json.LoadError Document :=
  firstParsed py (raw :: ((fencedJson raw).toList ++ (outermostBraces raw).toList))

def stripPoints (s : CodePoints) : CodePoints :=
  let isSpace (n : Nat) := (Json.char? n).any Text.isSpace
  (s.dropWhile isSpace).rdropWhile isSpace

def getPoints (fields : List (CodePoints × Document)) (key : String) : CodePoints :=
  stripPoints (py.points ((Json.field fields (codePoints key.toList)).getD (.string [])))

def normaliseEntry : Document → Option (CodePoints × CodePoints)
  | .object fields =>
      let name := getPoints py fields "name"
      if name = [] then none else some (name, getPoints py fields "description")
  | _ => none

def normaliseElementList : Option Document → List (CodePoints × CodePoints)
  | some (.list entries) => entries.filterMap (normaliseEntry py)
  | _ => []

structure Buckets where
  npcs : List (CodePoints × CodePoints)
  locations : List (CodePoints × CodePoints)
  items : List (CodePoints × CodePoints)
  clues : List (CodePoints × CodePoints)
  deriving DecidableEq

def fieldsOf : Document → List (CodePoints × Document)
  | .object fields => fields
  | _ => []

def normalise (parsed : Document) : Buckets :=
  let bucket (key : String) :=
    normaliseElementList py (Json.field (fieldsOf parsed) (codePoints key.toList))
  ⟨bucket "npcs", bucket "locations", bucket "items", bucket "clues"⟩

def parseElementsResponse (raw : Text) : Except Json.LoadError Buckets :=
  (recovered py raw).map (normalise py)

/-! ## Storing it -/

abbrev PointRow := CodePoints × CodePoints × CodePoints

def cleanPoints (label : Text) (pair : CodePoints × CodePoints) : Option PointRow :=
  let name := stripPoints pair.1
  if name = [] then none
  else
    let category := Text.strip label
    some (codePoints (if category = [] then Elements.defaultCategory else category), name,
      stripPoints pair.2)

def Buckets.flatten (buckets : Buckets) : List PointRow :=
  buckets.npcs.filterMap (cleanPoints "PNJ".toList) ++
    buckets.locations.filterMap (cleanPoints "Lieux".toList) ++
    buckets.items.filterMap (cleanPoints "Objets".toList) ++
    buckets.clues.filterMap (cleanPoints "Indices".toList)

def textRow (row : PointRow) : Option Element := do
  return ⟨← Json.chars? row.1, ← Json.chars? row.2.1, ← Json.chars? row.2.2⟩

def storedRows (rows : List PointRow) : ArtifactContent :=
  match rows.mapM textRow with
  | some elements => .elements elements
  | none => .surrogates rows

def describe : Json.LoadError → String
  | .decode => "JSONDecodeError"
  | .value => "ValueError"
  | .recursion => "RecursionError"

/-- A worker whose element-card parser is this one. -/
def withParser (env : Jobs.Environment) : Jobs.Environment :=
  { env with
    parseElements := fun raw =>
      ((parseElementsResponse py raw).mapError describe).map fun buckets =>
        storedRows buckets.flatten }

def elementsMissing (session : Uuid) : String :=
  s!"Elements for session {session} have not been generated yet. POST to this endpoint to enqueue the job."

/-- `[Element(**row) for row in elements_from_content(...)]`; a row that does not validate ends in
the generic 500. -/
def elementsOut (page : ArtifactPage) : Except AppError Me.Response := do
  Router.require page.row.contentJson.encodable Me.internal
  let rows ← Me.orRaise
    ((Elements.elementsFromContent page.row.contentJson).mapM validateElement) Me.internal
  return .elements page.row.sessionId rows page.row.modelUsed page.generatedAt
    (Me.artifactProvenance page)

def getElements (lib : Library) (auth : AuthenticatedKey) (session : Uuid) :
    Except AppError Me.Response := do
  let _ ← Router.requireSession lib.db session auth
  let page ← Me.orRaise (lib.artifact session .elements)
    (Me.artifactNotReady (elementsMissing session))
  elementsOut page

end ElementCards

end Kaeyris
