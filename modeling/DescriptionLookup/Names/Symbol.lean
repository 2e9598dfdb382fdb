import DescriptionLookup.Crate.ModulePath

/-!
# Symbols

The identity of an item: the crate that declares it, and its path inside that crate. However an item
is spelled where it is used, it has one symbol.
-/

namespace DescriptionLookup

/-- The crate that a path starts from. -/
inductive Home
  /-- The crate at hand. -/
  | here
  /-- An extern crate, by its own name and not by the one it is used under. -/
  | foreign (crate : String)
deriving DecidableEq

/-- The identity of an item. -/
structure Symbol where
  home : Home
  segments : List String
deriving DecidableEq

namespace Symbol

/-- The item of this name in a module of the crate at hand. -/
def ofLocal (module : ModulePath) (name : String) : Symbol := ⟨.here, module.segments ++ [name]⟩

/-- The root of an extern crate. -/
def ofCrate (crate : String) : Symbol := ⟨.foreign crate, []⟩

/-- What this name stands for inside something else. -/
def child (symbol : Symbol) (name : String) : Symbol :=
  { symbol with segments := symbol.segments ++ [name] }

/-- The extern crate that declares the item. -/
def crate? (symbol : Symbol) : Option String :=
  match symbol.home with
  | .here => none
  | .foreign crate => some crate

/-- Whether an extern crate declares the item. -/
def isForeign (symbol : Symbol) : Bool := symbol.crate?.isSome

/-- The written form of a symbol. -/
def text (symbol : Symbol) : String :=
  symbol.crate?.getD "crate" ++ ModulePath.separated symbol.segments

@[simp] theorem isForeign_ofLocal (module : ModulePath) (name : String) :
    (ofLocal module name).isForeign = false := rfl

@[simp] theorem isForeign_child (symbol : Symbol) (name : String) :
    (symbol.child name).isForeign = symbol.isForeign := rfl

@[simp] theorem foldl_child (symbol : Symbol) (names : List String) :
    names.foldl child symbol = { symbol with segments := symbol.segments ++ names } := by
  induction names generalizing symbol with
  | nil => simp
  | cons name rest ih => simp [ih, child]

end Symbol

end DescriptionLookup
