import Kaeyris.Jobs.Effects
import Kaeyris.Lib.Paths
import Kaeyris.LocalModels

/-!
# The paths of local models

`normalize_model_path` in the process of the API, and what the path that a worker passes to a local
runtime leads to in the process of the worker. Both see the same files.
-/

namespace Kaeyris.LocalModels
open Lib Jobs

/-- What a path depends on besides the files: the working directory, and the home directory that
`os.path.expanduser` finds for `~` (no name) or `~name`. -/
structure Surroundings where
  cwd : Place
  home : Text → Option Text

structure PosixPath where
  absolute : Bool
  parts : List Text

namespace PosixPath

def ofText (path : Text) : PosixPath :=
  ⟨Path.isAbsolute path, (Path.segments path).filter Path.proper⟩

def expanduser (process : Surroundings) (path : PosixPath) : Option PosixPath :=
  match path with
  | ⟨false, ('~' :: name) :: rest⟩ =>
      (process.home name).map fun home => ⟨(ofText home).absolute, (ofText home).parts ++ rest⟩
  | path => some path

def resolve (fs : FileSystem) (process : Surroundings) (path : PosixPath) : Option Place :=
  fs.walk false fs.depth (if path.absolute then [] else process.cwd) path.parts

end PosixPath

/-- `str(Path(path).expanduser().resolve(strict=False))`; a NUL raises. -/
def resolved (fs : FileSystem) (process : Surroundings) (path : Text) : Option Text :=
  if '\x00' ∈ path then none
  else do
    let expanded ← (PosixPath.ofText path).expanduser process
    let place ← expanded.resolve fs process
    return Path.render place

/-- The file that is opened under a path, by its real path. The runtimes take the path as it is. -/
def opened (fs : FileSystem) (process : Surroundings) (path : Text) : Option Text :=
  if '\x00' ∈ path then none
  else (fs.walk true fs.depth (if Path.isAbsolute path then [] else process.cwd)
    (Path.segments path)).map Path.render

structure Host where
  fs : FileSystem
  api : Surroundings
  sha256 : Text → Text
  keyAccepted : LocalModelCategory → Text → Text → Bool
  validationTtlSeconds : Nat

def Host.outside (host : Host) : Outside where
  sha256 := host.sha256
  resolve _ path := resolved host.fs host.api path
  keyAccepted := host.keyAccepted
  validationTtlSeconds := host.validationTtlSeconds

def adapterPath (settings : Settings) (row : Option ModelSettings) :
    LocalModelCategory → Option Text
  | .summary =>
      match llmChoiceForUser settings row with
      | .ok (.localModel path) => some path
      | _ => none
  | .transcription =>
      match transcriptionChoiceForUser settings row with
      | .ok (.localModel path) => some path
      | _ => none

def Portable (fs : FileSystem) (path : Text) : Prop :=
  Path.isAbsolute path = true ∧ Text.strip path = path ∧
    ∃ process, (opened fs process path).isSome = true

def Validated (host : Host) (store : Store) (user : Uuid) (category : LocalModelCategory)
    (path : Text) : Prop :=
  ∃ proof ∈ store.validations.rows, proof.userId = user ∧ proof.category = category ∧
    (resolved host.fs host.api (Text.strip path)).map host.sha256 = some proof.pathHash

/-- A patch that is accepted and leaves or makes a category Local under a path that has been validated
spells the path in a portable way. -/
def SpellsPortably (host : Host) (s : History) : Label → Prop
  | .patch user payload now =>
      (patchModelSettings host.outside s.store user payload now).isOk = true → ∀ category path,
      (payload.provider category).getD (setting s.store user category).1 = some .localModel →
        (payload.localPath category).join.or (setting s.store user category).2.1 = some path →
          Validated host s.store user category path → Portable host.fs path
  | .validate .. => True

end Kaeyris.LocalModels
