import DescriptionLookup.Disk.Basic
import DescriptionLookup.Names.Bindings

/-!
# File systems

A file system as a value: a table of the files and directories at each place, and the place that
relative paths start from. Each operation yields a fault or what it asks for, and the file system
after it. A path is followed piece by piece, and every piece but the last has to lead to a directory
that exists, also when the next piece leads back out of it.
-/

namespace DescriptionLookup

/-- What stands at a place of a file system. -/
inductive Entry
  | file (content : ByteArray)
  | directory

/-- The names that lead to a place from the root of the disk. -/
abbrev Place := List String

/-- The files and directories of a disk. -/
structure FileSystem where
  entries : Bindings Place Entry
  /-- Where relative paths start. -/
  working : Place

namespace FileSystem

/-- A disk with one directory, which is empty and where relative paths start. -/
def ofWorking (name : String) : FileSystem := ⟨Bindings.empty.insert [name] .directory, [name]⟩

/-- What stands at a place. The root is a directory. -/
def entry? (fs : FileSystem) (place : Place) : Option Entry :=
  if place.isEmpty then some .directory else fs.entries.get? place

/-- The greatest number of bytes of a path, and of a name in it. -/
def maximalPath : Nat := 4095

/-- The greatest number of bytes of a name. -/
def maximalName : Nat := 255

/-- Follow one piece of a path. -/
def step (fs : FileSystem) (place : Place) (piece : String) : Except DiskFault Place :=
  match fs.entry? place with
  | none => .error .notFound
  | some (.file _) => .error .notDirectory
  | some .directory =>
    if piece = "" ∨ piece = "." then .ok place
    else if piece = ".." then .ok place.dropLast
    else if maximalName < piece.utf8ByteSize then .error .nameTooLong
    else .ok (place ++ [piece])

/-- The place that a path leads to, where something or nothing may stand. -/
def locate (fs : FileSystem) (path : String) : Except DiskFault Place :=
  if path.toList.contains '\x00' then .error .zeroInPath
  else if path.isEmpty then .error .notFound
  else if maximalPath < path.utf8ByteSize then .error .nameTooLong
  else
    ((Location.pieces path.toList).map String.ofList).foldlM fs.step
      (if Location.isAbsolute path then [] else fs.working)

/-- The place that a path leads to, and what stands there. -/
def find (fs : FileSystem) (path : String) : Except DiskFault (Place × Entry) := do
  let place ← fs.locate path
  match fs.entry? place with
  | some entry => return (place, entry)
  | none => throw .notFound

/-- Whether a path leads to a file. -/
def isFile (fs : FileSystem) (path : String) : Bool :=
  match fs.find path with
  | .ok (_, .file _) => true
  | _ => false

/-- Whether a path leads to a directory. -/
def isDirectory (fs : FileSystem) (path : String) : Bool :=
  match fs.find path with
  | .ok (_, .directory) => true
  | _ => false

/-- The content of a file. -/
def read (fs : FileSystem) (path : String) : Except DiskFault ByteArray := do
  match ← fs.find path with
  | (_, .file content) => return content
  | (_, .directory) => throw .isDirectory

/-- The file system in which something stands at a place. -/
def put (fs : FileSystem) (place : Place) (entry : Entry) : FileSystem :=
  { fs with entries := fs.entries.insert place entry }

/-- The file system in which a file has this content. -/
def write (fs : FileSystem) (path : String) (content : ByteArray) :
    Except DiskFault FileSystem := do
  let place ← fs.locate path
  match fs.entry? place with
  | some .directory => throw .isDirectory
  | _ => return fs.put place (.file content)

/-- A path without the slashes at its end. -/
def withoutSlashes (path : String) : String :=
  match (path.toList.reverse.dropWhile (· == '/')).reverse with
  | [] => path
  | cs => String.ofList cs

/-- The file system with one more directory. -/
def createDirectory (fs : FileSystem) (path : String) : Except DiskFault FileSystem := do
  let place ← fs.locate (withoutSlashes path)
  match fs.entry? place with
  | some _ => throw .exists
  | none => return fs.put place .directory

/-- The file system without a file, if the path leads to one. -/
def removeFile? (fs : FileSystem) (path : String) : Option FileSystem :=
  match fs.find path with
  | .ok (place, .file _) => some { fs with entries := fs.entries.erase place }
  | _ => none

/-- The names of what stands in a directory. -/
def namesIn (fs : FileSystem) (place : Place) : List String :=
  fs.entries.entries.filterMap fun (other, _) =>
    if other.dropLast = place then other.getLast? else none

/-- The name of what a path leads to, seen from the root of the disk. -/
def realName? (fs : FileSystem) (path : String) : Option String :=
  match fs.find path with
  | .ok (place, _) => place.getLast?
  | .error _ => none

/-! ### As a disk -/

/-- An operation that changes the file system if it succeeds. -/
def update (change : FileSystem → Except DiskFault FileSystem) :
    StateM FileSystem (Except DiskFault Unit) := fun fs =>
  match change fs with
  | .ok fs' => (.ok (), fs')
  | .error fault => (.error fault, fs)

/-- The disk whose state is a file system. -/
def disk : Disk (StateM FileSystem) where
  isFile path := fun fs => (fs.isFile path, fs)
  isDirectory path := fun fs => (fs.isDirectory path, fs)
  read path := fun fs => (fs.read path, fs)
  write path text := update fun fs => fs.write path text.toUTF8
  createDirectory path := update fun fs => fs.createDirectory path
  realName? path := fun fs => (fs.realName? path, fs)

end FileSystem

end DescriptionLookup
