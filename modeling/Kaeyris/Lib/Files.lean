import Mathlib.Logic.Function.Basic

/-!
# Named files

A name designates a file, and a file that is open stays when its name is removed. Two openings of
one name write to the same file, each at its own place.
-/

namespace Kaeyris.Lib

structure Files (Name : Type) where
  file : Name → Option Nat
  content : Nat → List UInt8
  next : Nat
  used : ∀ name i, file name = some i → i < next
  apart : ∀ name other i, file name = some i → file other = some i → name = other

namespace Files
variable {Name : Type}

def none : Files Name where
  file := fun _ => .none
  content := fun _ => []
  next := 0
  used := by
    intro name i found
    cases found
  apart := by
    intro name other i found
    cases found

def read (files : Files Name) (name : Name) : Option (List UInt8) :=
  (files.file name).map files.content

/-- Bytes put into a file at an offset; a gap is filled with zeros. -/
def overwrite (old : List UInt8) (offset : Nat) (bytes : List UInt8) : List UInt8 :=
  old.take offset ++ List.replicate (offset - old.length) 0 ++ bytes ++
    old.drop (offset + bytes.length)

def write (files : Files Name) (i offset : Nat) (bytes : List UInt8) : Files Name :=
  { files with
    content := Function.update files.content i (overwrite (files.content i) offset bytes) }

def fill (files : Files Name) (i : Nat) (bytes : List UInt8) : Files Name :=
  { files with content := Function.update files.content i bytes }

section Names
variable [DecidableEq Name]

def create (files : Files Name) (name : Name) : Files Name × Nat :=
  match found : files.file name with
  | some i => ({ files with content := Function.update files.content i [] }, i)
  | .none =>
      ({ file := Function.update files.file name (some files.next)
         content := Function.update files.content files.next []
         next := files.next + 1
         used := by
          intro other i held
          by_cases same : other = name
          · subst same
            rw [Function.update_self] at held
            cases held
            exact Nat.lt_succ_self _
          · rw [Function.update_of_ne same] at held
            exact Nat.lt_succ_of_lt (files.used other i held)
         apart := by
          have old (other : Name) (held : files.file other = some files.next) : False :=
            Nat.lt_irrefl _ (files.used other files.next held)
          intro a b i first second
          by_cases same : a = name <;> by_cases same' : b = name
          · exact same.trans same'.symm
          · rw [same, Function.update_self] at first
            rw [Function.update_of_ne same'] at second
            cases first
            exact (old b second).elim
          · rw [Function.update_of_ne same] at first
            rw [same', Function.update_self] at second
            cases second
            exact (old a first).elim
          · rw [Function.update_of_ne same] at first
            rw [Function.update_of_ne same'] at second
            exact files.apart a b i first second },
        files.next)

def unlink (files : Files Name) (name : Name) : Files Name where
  file := Function.update files.file name .none
  content := files.content
  next := files.next
  used := by
    intro other i held
    by_cases same : other = name
    · rw [same, Function.update_self] at held
      cases held
    · rw [Function.update_of_ne same] at held
      exact files.used other i held
  apart := by
    intro a b i first second
    by_cases same : a = name
    · rw [same, Function.update_self] at first
      cases first
    · by_cases same' : b = name
      · rw [same', Function.update_self] at second
        cases second
      · rw [Function.update_of_ne same] at first
        rw [Function.update_of_ne same'] at second
        exact files.apart a b i first second

end Names

theorem overwrite_end (old bytes : List UInt8) :
    overwrite old old.length bytes = old ++ bytes := by
  simp [overwrite]

/-! ## What an operation leaves alone -/

def Unchanged (files files' : Files Name) (name : Name) : Prop :=
  files'.file name = files.file name ∧ files'.read name = files.read name

section Read
variable (files : Files Name) {name other : Name}

theorem read_eq_some {content : List UInt8} :
    files.read name = some content ↔ ∃ i, files.file name = some i ∧ files.content i = content :=
  Option.map_eq_some_iff

theorem read_eq_none : files.read name = .none ↔ files.file name = .none := Option.map_eq_none_iff

theorem unchanged_refl (name : Name) : Unchanged files files name := ⟨rfl, rfl⟩

theorem read_fill {i : Nat} (held : files.file name = some i) (bytes : List UInt8) :
    (files.fill i bytes).read name = some bytes := by
  simp [read, fill, held]

theorem unchanged_fill {i : Nat} (held : files.file name = some i) (bytes : List UInt8)
    (apart : other ≠ name) : Unchanged files (files.fill i bytes) other := by
  refine ⟨rfl, ?_⟩
  unfold read fill
  cases found : files.file other with
  | none => rfl
  | some j =>
      have distinct : j ≠ i := fun same => apart (files.apart other name i (same ▸ found) held)
      simp [Function.update_of_ne distinct]

theorem write_eq_fill (i offset : Nat) (bytes : List UInt8) :
    files.write i offset bytes = files.fill i (overwrite (files.content i) offset bytes) := rfl

variable [DecidableEq Name] (name)

theorem file_create : (files.create name).1.file name = some (files.create name).2 := by
  unfold create
  split
  · assumption
  · exact Function.update_self _ _ _

theorem content_create : (files.create name).1.content (files.create name).2 = [] := by
  unfold create
  split <;> exact Function.update_self _ _ _

variable {name}

theorem unchanged_create (apart : other ≠ name) : Unchanged files (files.create name).1 other := by
  unfold create
  split
  · rename_i i found
    exact unchanged_fill files found [] apart
  · refine ⟨Function.update_of_ne apart _ _, ?_⟩
    unfold read
    dsimp only
    rw [Function.update_of_ne apart]
    cases held : files.file other with
    | none => rfl
    | some j =>
        have distinct : j ≠ files.next := Nat.ne_of_lt (files.used other j held)
        simp [Function.update_of_ne distinct]

theorem read_unlink (name : Name) : (files.unlink name).read name = .none := by
  simp [read, unlink]

theorem unchanged_unlink (apart : other ≠ name) : Unchanged files (files.unlink name) other :=
  ⟨Function.update_of_ne apart _ _, by simp [read, unlink, Function.update_of_ne apart]⟩

theorem unchanged_unlink_absent (absent : files.read name = .none) (other : Name) :
    Unchanged files (files.unlink name) other := by
  by_cases same : other = name
  · subst same
    rw [Unchanged, read_unlink, absent]
    exact ⟨(Function.update_self _ _ _).trans (files.read_eq_none.mp absent).symm, rfl⟩
  · exact unchanged_unlink files same

end Read

end Files

end Kaeyris.Lib
