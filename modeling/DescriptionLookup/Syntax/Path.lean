import DescriptionLookup.Token.Basic

/-!
# Paths

A path is a list of names, perhaps behind a leading `::`. The generic arguments of its segments are
not kept: two paths that differ in them alone name the same item.
-/

namespace DescriptionLookup

/-- The spelling of a name without `r#`. -/
def unraw (name : String) : String :=
  match name.toList with
  | 'r' :: '#' :: rest => String.ofList rest
  | _ => name

/-- The names of a path, and whether it begins with `::`. -/
structure Path where
  absolute : Bool
  segments : List String
deriving DecidableEq, Inhabited

namespace Path

/-- The path of one name. -/
def ofName (name : String) : Path := ⟨false, [name]⟩

/-- The name of a path that is no more than a name. -/
def name? : Path → Option String
  | ⟨false, [name]⟩ => some name
  | _ => none

/-- Whether the path is this name. -/
def isName (path : Path) (name : String) : Bool := path.name? == some name

@[simp] theorem name?_ofName (name : String) : (ofName name).name? = some name := rfl

theorem isName_iff (path : Path) (name : String) : path.isName name = true ↔ path = ofName name := by
  rcases path with ⟨absolute, _ | ⟨first, _ | ⟨second, rest⟩⟩⟩ <;> cases absolute <;>
    simp [isName, name?, ofName]

/-- The separator of a path. -/
def separator : List TokenTree := [.mark ':' true .start, .mark ':' false .start]

/-- The tokens of a path without arguments. -/
def tokens (path : Path) : List TokenTree :=
  (if path.absolute then separator else []) ++
    separator.intercalate (path.segments.map fun name => [.word name .start])

end Path

end DescriptionLookup
