import DescriptionLookup.Disk.Fault
import DescriptionLookup.Disk.Location
import DescriptionLookup.Failure

/-!
# Disks

The operations on files that a build needs, as a record over any monad: the file system of the
machine is one disk, and the file systems of `Disk/FileSystem` are another. Whatever is built from
the operations here works on both.
-/

namespace DescriptionLookup

/-- Operations on files. -/
structure Disk (m : Type → Type) where
  /-- Whether a path leads to a file. -/
  isFile : String → m Bool
  /-- Whether a path leads to a directory. -/
  isDirectory : String → m Bool
  /-- The content of a file. -/
  read : String → m (Except DiskFault ByteArray)
  /-- Makes a text the content of a file, which need not exist before. -/
  write : String → String → m (Except DiskFault Unit)
  /-- Makes a directory inside one that exists. -/
  createDirectory : String → m (Except DiskFault Unit)
  /-- The name of what a path leads to, seen from the root of the disk. -/
  realName? : String → m (Option String)

namespace Disk

variable {m : Type → Type} [Monad m] (disk : Disk m)

/-- The text of a file. -/
def readText (path : String) : ExceptT Failure m String := do
  match ← disk.read path with
  | .error fault => throw (.disk path fault)
  | .ok content =>
    match String.fromUTF8? content with
    | some text => return text
    | none => throw (.disk path .notText)

/-- Makes a directory that may exist already. -/
def ensureDirectory (path : String) : m (Except DiskFault Unit) := do
  match ← disk.createDirectory path with
  | .ok () => return .ok ()
  | .error fault => if ← disk.isDirectory path then return .ok () else return .error fault

/-- Makes the first of these directories, each of which is inside the next; those that are missing
around it are made first. -/
def ensureFirst : List String → m (Except DiskFault Unit)
  | [] => return .ok ()
  | path :: outer => do
    if path.isEmpty then return .ok ()
    match ← disk.createDirectory path with
    | .ok () => return .ok ()
    | .error .notFound =>
      match ← ensureFirst outer with
      | .error fault => return .error fault
      | .ok () => disk.ensureDirectory path
    | .error fault => if ← disk.isDirectory path then return .ok () else return .error fault

/-- Makes a directory, and those around it that are missing. -/
def ensureDirectories (path : String) : ExceptT Failure m Unit := do
  match ← disk.ensureFirst (Location.ancestors path) with
  | .ok () => return ()
  | .error fault => throw (.disk path fault)

/-- Makes a text the content of a file unless it is already, and says whether it was not. -/
def writeIfChanged (path text : String) : ExceptT Failure m Bool := do
  let unchanged :=
    match ← disk.read path with
    | .ok content => content == text.toUTF8
    | .error _ => false
  if unchanged then return false
  match ← disk.write path text with
  | .ok () => return true
  | .error fault => throw (.disk path fault)

end Disk

end DescriptionLookup
