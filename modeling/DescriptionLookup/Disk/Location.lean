/-!
# Paths of files

Paths as texts with slashes, taken apart and put together without looking at any disk. Nothing is
normalised: a path keeps its dots and doubled slashes, except where the last name is cut off.
-/

namespace DescriptionLookup.Location

/-- The pieces of a text between slashes. -/
def pieces : List Char → List (List Char)
  | [] => [[]]
  | c :: rest =>
    if c = '/' then [] :: pieces rest
    else
      match pieces rest with
      | [] => [[c]]
      | piece :: more => (c :: piece) :: more

/-- Pieces with slashes between them. -/
def joined (ps : List (List Char)) : List Char := ['/'].intercalate ps

/-- Whether a path starts at the root of the disk. -/
def isAbsolute (path : String) : Bool := path.toList.head? == some '/'

/-- The path that leads from one place along another path. An absolute path leads there from
anywhere. -/
def join (base path : String) : String :=
  if isAbsolute path ∨ base.isEmpty then path
  else if base.toList.getLast? = some '/' then base ++ path
  else base ++ "/" ++ path

/-- What stands before the names of a path: the slash of an absolute path, or a first dot. -/
def lead : List Char → List Char
  | '/' :: _ => ['/']
  | ['.'] => ['.']
  | '.' :: '/' :: _ => ['.']
  | _ => []

/-- Whether a piece does not count as a name when it stands last. -/
def isVoid (piece : List Char) : Bool := piece.isEmpty || piece == ['.']

/-- The pieces behind the lead, the last one first, from the last name on. -/
def backwards (path : List Char) : List (List Char) :=
  ((pieces (path.drop (lead path).length)).reverse).dropWhile isVoid

/-- The path without its last name. A path without a name has no parent, unless it is a dot. -/
def parent? (path : String) : Option String :=
  let cs := path.toList
  match backwards cs with
  | [] => if lead cs = ['.'] then some "" else none
  | _ :: outer => some (String.ofList (lead cs ++ joined (outer.dropWhile isVoid).reverse))

/-- The path without its last name, or the empty path. -/
def parent (path : String) : String := (parent? path).getD ""

/-- The last name of a path, unless it leads to the directory above. -/
def name? (path : String) : Option String :=
  match backwards path.toList with
  | [] => none
  | piece :: _ => if piece = ['.', '.'] then none else some (String.ofList piece)

/-- What stands before the last dot of a name; all of it if the only dot is the first character or
there is none. -/
def stemOf (name : String) : String :=
  let reversed := name.toList.reverse
  match (reversed.dropWhile (· != '.')).drop 1 with
  | [] => name
  | before => String.ofList before.reverse

/-- The last name of a path without its extension. -/
def stem? (path : String) : Option String := (name? path).map stemOf

/-- The path and the paths around it, from the inside out; at most this many. -/
def around : Nat → String → List String
  | 0, _ => []
  | n + 1, path =>
    path ::
      match parent? path with
      | some outer => around n outer
      | none => []

/-- The path and the paths around it, from the inside out. -/
def ancestors (path : String) : List String := around (path.length + 1) path

end DescriptionLookup.Location
