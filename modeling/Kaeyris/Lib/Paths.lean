import Mathlib.Data.List.Basic

/-!
# Paths in a file system with links

A path is walked name by name, and a link on the way is followed to where it leads. A strict walk is
what opening a file does: every name before the last must be a directory and the last one must
exist. A lenient walk goes on past what is missing, and keeps to the names then.
-/

namespace Kaeyris.Lib

/-- A position in the tree, by the names that lead to it from the root without a link. -/
abbrev Place := List (List Char)

inductive Entry
  | directory
  | file
  | link (target : List Char)
  deriving DecidableEq

/-- Links that lead into links deeper than `depth` are a loop. -/
structure FileSystem where
  entry : Place → Option Entry
  depth : Nat

namespace Path

def isAbsolute (path : List Char) : Bool := path.head? = some '/'

def segments (path : List Char) : List (List Char) := path.splitOn '/'

def proper (name : List Char) : Bool := name ≠ [] && name ≠ ['.']

def render (place : Place) : List Char := '/' :: List.intercalate ['/'] place

end Path

namespace FileSystem

def isDirectory (fs : FileSystem) (place : Place) : Bool :=
  place = [] || fs.entry place = some .directory

def enter (fs : FileSystem) (strict : Bool) (follow : Place → List (List Char) → Option Place)
    (here : Place) (name : List Char) : Option Place :=
  if strict && !fs.isDirectory here then none
  else if !Path.proper name then some here
  else if name = ['.', '.'] then some here.dropLast
  else
    match fs.entry (here ++ [name]) with
    | some (.link target) =>
        follow (if Path.isAbsolute target then [] else here) (Path.segments target)
    | some _ => some (here ++ [name])
    | none => if strict then none else some (here ++ [name])

def walk (fs : FileSystem) (strict : Bool) : Nat → Place → List (List Char) → Option Place
  | 0 => fun here names => names.foldlM (fs.enter strict fun _ _ => none) here
  | depth + 1 => fun here names => names.foldlM (fs.enter strict (fs.walk strict depth)) here

section Walk
variable {fs : FileSystem}

theorem enter_lenient {follow follow' : Place → List (List Char) → Option Place}
    (weaker : ∀ here names place, follow here names = some place →
      follow' here names = some place) {here place : Place} {name : List Char}
    (entered : fs.enter true follow here name = some place) :
    fs.enter false follow' here name = some place := by
  unfold enter at *
  split at entered
  · cases entered
  rw [if_neg (by simp)]
  split at entered
  · rename_i skipped
    rwa [if_pos skipped]
  rename_i kept
  rw [if_neg kept]
  split at entered
  · rename_i up
    rwa [if_pos up]
  rename_i down
  rw [if_neg down]
  split at entered
  · exact weaker _ _ _ entered
  · exact entered
  · cases entered

theorem foldlM_lenient {f g : Place → List Char → Option Place}
    (weaker : ∀ here name place, f here name = some place → g here name = some place)
    {here place : Place} {names : List (List Char)}
    (walked : names.foldlM f here = some place) : names.foldlM g here = some place := by
  induction names generalizing here with
  | nil => exact walked
  | cons name rest ih =>
      obtain ⟨next, first, later⟩ := Option.bind_eq_some_iff.mp walked
      exact Option.bind_eq_some_iff.mpr ⟨next, weaker here name next first, ih later⟩

theorem walk_lenient (depth : Nat) {here place : Place} {names : List (List Char)}
    (walked : fs.walk true depth here names = some place) :
    fs.walk false depth here names = some place := by
  induction depth generalizing here place names with
  | zero =>
      refine foldlM_lenient (fun here name place => enter_lenient ?_) walked
      intro _ _ _ followed
      cases followed
  | succ depth ih => exact foldlM_lenient (fun here name place => enter_lenient fun _ _ _ => ih) walked

theorem walk_proper (depth : Nat) (here : Place) (names : List (List Char)) :
    fs.walk false depth here (names.filter Path.proper) = fs.walk false depth here names := by
  have passes (follow : Place → List (List Char) → Option Place) :
      (names.filter Path.proper).foldlM (fs.enter false follow) here =
        names.foldlM (fs.enter false follow) here := by
    induction names generalizing here with
    | nil => rfl
    | cons name rest ih =>
        cases kept : Path.proper name with
        | true =>
            rw [List.filter_cons_of_pos kept, List.foldlM_cons, List.foldlM_cons]
            exact congrArg _ (funext fun next => ih next)
        | false =>
            rw [List.filter_cons_of_neg (by simp [kept]), List.foldlM_cons, ih]
            simp [enter, kept]
  cases depth with
  | zero => exact passes _
  | succ depth => exact passes _

end Walk

end FileSystem

end Kaeyris.Lib
