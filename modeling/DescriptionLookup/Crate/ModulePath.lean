import DescriptionLookup.Text.Character

/-!
# Module paths

The place of a module in its crate: the names that lead to it from the crate root. A module path is
written with the word `crate` in front and `::` between names; reading is lenient about blanks,
empty pieces and a missing or repeated `crate`.
-/

namespace DescriptionLookup

/-- The names that lead to a module from the crate root, in their spelling with a possible `r#`. -/
structure ModulePath where
  segments : List String
deriving DecidableEq, Inhabited

namespace ModulePath

/-- The module of the crate root. -/
def root : ModulePath := ⟨[]⟩

/-- The module of this name inside a module. -/
def child (module : ModulePath) (name : String) : ModulePath := ⟨module.segments ++ [name]⟩

/-- The enclosing module; the root has none. -/
def parent? (module : ModulePath) : Option ModulePath :=
  if module.segments.isEmpty then none else some ⟨module.segments.dropLast⟩

/-- Whether the module is the crate root. -/
def isRoot (module : ModulePath) : Bool := module.segments.isEmpty

/-- The module itself and the modules around it, from the outside in and without the root. -/
def chain (module : ModulePath) : List ModulePath :=
  (List.range module.segments.length).map fun n => ⟨module.segments.take (n + 1)⟩

/-- The order of paths name by name, in which names are ordered by their characters. -/
def compare (a b : ModulePath) : Ordering := Ord.compare a.segments b.segments

@[simp] theorem parent?_root : root.parent? = none := rfl

@[simp] theorem parent?_child (module : ModulePath) (name : String) :
    (module.child name).parent? = some module := by
  simp [child, parent?]

@[simp] theorem isRoot_root : root.isRoot = true := rfl

theorem isRoot_iff {module : ModulePath} : module.isRoot = true ↔ module = root := by
  rcases module with ⟨_ | ⟨name, rest⟩⟩ <;> simp [isRoot, root]

/-! ### Writing and reading -/

/-- Names with `::` in front of each. -/
def separated (names : List String) : String := String.join (names.map ("::" ++ ·))

/-- The written form of a module path. -/
def text (module : ModulePath) : String := "crate" ++ separated module.segments

/-- The pieces of a text between separators; the leftmost two colons of a run are one. -/
def pieces : List Char → List (List Char)
  | [] => [[]]
  | ':' :: ':' :: rest => [] :: pieces rest
  | c :: rest =>
    match pieces rest with
    | [] => [[c]]
    | piece :: more => (c :: piece) :: more

/-- The module path that a text denotes. Blanks around a name do not count, nor do empty names, and
the word `crate` in front may be missing or repeated. -/
def parse (text : String) : ModulePath :=
  let names := ((pieces text.toList).map Text.trim).filter fun piece => !piece.isEmpty
  ⟨(names.map String.ofList).dropWhile (· == "crate")⟩

end ModulePath

end DescriptionLookup
