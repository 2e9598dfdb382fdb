import DescriptionLookup.Syntax.Attribute

/-!
# Items

The items of a source file, as far as the program looks at them: enums with their variants, modules,
imports and extern crates. Of every other item only its kind and the name it binds are kept.
-/

namespace DescriptionLookup

/-- Who may name an item. -/
inductive Visibility
  | inherited
  | everywhere
  /-- Everybody in the module that the path names. -/
  | within (path : Path)
deriving DecidableEq

/-! ### Generic parameters -/

/-- The kinds of generic parameters. -/
inductive GenericParam.Kind
  | lifetime
  | type
  | const
deriving DecidableEq

/-- A generic parameter in pieces: attributes, name, bounds or type with the colon before them, and
default with the equals sign before it. `comma` says whether a comma follows. -/
structure GenericParam where
  kind : GenericParam.Kind
  attributes : List TokenTree
  name : List TokenTree
  bounds : List TokenTree
  default : List TokenTree
  comma : Bool
deriving DecidableEq

namespace GenericParam

/-- The word before the name of a constant. -/
def introduction (p : GenericParam) : List TokenTree :=
  match p.kind with
  | .const => [.word "const" .start]
  | _ => []

/-- The parameter where it is declared, without its default. -/
def declared (p : GenericParam) : List TokenTree :=
  p.attributes ++ p.introduction ++ p.name ++ p.bounds

/-- The parameter where it is declared, with its default. -/
def complete (p : GenericParam) : List TokenTree := p.declared ++ p.default

/-- The parameter without the places of its tokens. -/
def placeless (p : GenericParam) : GenericParam where
  kind := p.kind
  attributes := TokenTree.placelessAll p.attributes
  name := TokenTree.placelessAll p.name
  bounds := TokenTree.placelessAll p.bounds
  default := TokenTree.placelessAll p.default
  comma := p.comma

end GenericParam

/-- A comma. -/
def commaToken : TokenTree := .mark ',' false .start

/-- One entry of an angle-bracketed list: whether it is a lifetime, its tokens, and whether a comma
follows it. -/
structure AngleEntry where
  isLifetime : Bool
  tokens : List TokenTree
  comma : Bool

/-- The tokens of an entry with its comma. -/
def AngleEntry.withComma (e : AngleEntry) : List TokenTree :=
  if e.comma then e.tokens ++ [commaToken] else e.tokens

/-- The entries of an angle-bracketed list with the lifetimes first. Each entry keeps its comma; a
comma is added where the last lifetime has none and something follows. -/
def lifetimesFirst (entries : List AngleEntry) : List TokenTree :=
  let lifetimes := entries.filter (·.isLifetime)
  let others := entries.filter (!·.isLifetime)
  let separated := lifetimes.getLast?.all (·.comma)
  lifetimes.flatMap AngleEntry.withComma ++
    (if separated || others.isEmpty then [] else [commaToken]) ++
    others.flatMap AngleEntry.withComma

/-- An angle-bracketed list. -/
def angled (entries : List AngleEntry) : List TokenTree :=
  [.mark '<' false .start] ++ lifetimesFirst entries ++ [.mark '>' false .start]

/-- The generic parameters of an item. -/
abbrev Generics := List GenericParam

namespace Generics

/-- The parameters as an implementation declares them. -/
def declaration (g : Generics) : List TokenTree :=
  angled (g.map fun p => ⟨p.kind == .lifetime, p.declared, p.comma⟩)

/-- The parameters as arguments of the type they belong to. -/
def arguments (g : Generics) : List TokenTree :=
  angled (g.map fun p => ⟨p.kind == .lifetime, p.name, p.comma⟩)

end Generics

/-! ### Enums -/

/-- A variant of an enum. -/
structure Variant where
  attributes : List Attribute
  name : String
  /-- The variant carries no data, not even an empty list of it. -/
  isUnit : Bool
deriving DecidableEq

/-- The declaration of an enum. -/
structure EnumDecl where
  attributes : List Attribute
  visibility : Visibility
  name : String
  generics : Generics
  /-- The predicates of its where clause. -/
  predicates : List (List TokenTree)
  variants : List Variant
deriving DecidableEq

/-! ### Imports -/

/-- What an import names, behind the path that leads to it. -/
inductive UseTree
  | path (name : String) (tree : UseTree)
  | name (name : String)
  | rename (name binding : String)
  | glob
  | group (trees : List UseTree)

namespace UseTree

mutual

/-- Whether two trees of imports are the same. -/
def same : UseTree → UseTree → Bool
  | .path first tree, .path first' tree' => first == first' && tree.same tree'
  | .name last, .name last' => last == last'
  | .rename last binding, .rename last' binding' => last == last' && binding == binding'
  | .glob, .glob => true
  | .group trees, .group trees' => sameAll trees trees'
  | _, _ => false

/-- Whether two lists of trees of imports are the same. -/
def sameAll : List UseTree → List UseTree → Bool
  | [], [] => true
  | tree :: rest, tree' :: rest' => tree.same tree' && sameAll rest rest'
  | _, _ => false

end

mutual

theorem same_iff (tree tree' : UseTree) : tree.same tree' = true ↔ tree = tree' := by
  cases tree with
  | path first tree =>
    cases tree' with
    | path first' tree' => simp [same, same_iff tree tree']
    | _ => simp [same]
  | group trees =>
    cases tree' with
    | group trees' => simp [same, sameAll_iff trees trees']
    | _ => simp [same]
  | _ => cases tree' <;> simp [same]

theorem sameAll_iff (trees trees' : List UseTree) : sameAll trees trees' = true ↔ trees = trees' := by
  cases trees with
  | nil => cases trees' <;> simp [sameAll]
  | cons tree rest =>
    cases trees' with
    | nil => simp [sameAll]
    | cons tree' rest' => simp [sameAll, same_iff tree tree', sameAll_iff rest rest']

end

instance : DecidableEq UseTree := fun tree tree' => decidable_of_iff _ (same_iff tree tree')

end UseTree

/-! ### Items -/

/-- The kinds of items of which only the name counts. -/
inductive ItemKind
  | function
  | constant
  | static
  | rules
  | struct
  | union
  | trait
  | traitAlias
  | typeAlias
deriving DecidableEq

/-- What comes before the body of a module. -/
structure ModuleHead where
  attributes : List Attribute
  visibility : Visibility
  name : String
deriving DecidableEq

/-- An item of a module. -/
inductive Item
  | enumeration (decl : EnumDecl)
  /-- A module with its body. -/
  | inlineModule (head : ModuleHead) (items : List Item)
  /-- A module whose body is a file of its own. -/
  | fileModule (head : ModuleHead)
  /-- An import, perhaps behind a leading `::`. -/
  | imports (absolute : Bool) (tree : UseTree)
  /-- An extern crate, under its own name or another. -/
  | externCrate (name : String) (binding : String)
  | named (kind : ItemKind) (name : String)
  /-- An item of an irregular form, such as a function without a body. It is kept as it is spelled,
  and binds no name. -/
  | irregular
  | unnamed

namespace Item

mutual

/-- Whether two items are the same. -/
def same : Item → Item → Bool
  | .enumeration decl, .enumeration decl' => decl == decl'
  | .inlineModule head items, .inlineModule head' items' => head == head' && sameAll items items'
  | .fileModule head, .fileModule head' => head == head'
  | .imports absolute tree, .imports absolute' tree' => absolute == absolute' && tree == tree'
  | .externCrate name binding, .externCrate name' binding' => name == name' && binding == binding'
  | .named kind name, .named kind' name' => kind == kind' && name == name'
  | .irregular, .irregular => true
  | .unnamed, .unnamed => true
  | _, _ => false

/-- Whether two lists of items are the same. -/
def sameAll : List Item → List Item → Bool
  | [], [] => true
  | item :: rest, item' :: rest' => item.same item' && sameAll rest rest'
  | _, _ => false

end

mutual

theorem same_iff (item item' : Item) : item.same item' = true ↔ item = item' := by
  cases item with
  | inlineModule head items =>
    cases item' with
    | inlineModule head' items' => simp [same, sameAll_iff items items']
    | _ => simp [same]
  | _ => cases item' <;> simp [same]

theorem sameAll_iff (items items' : List Item) : sameAll items items' = true ↔ items = items' := by
  cases items with
  | nil => cases items' <;> simp [sameAll]
  | cons item rest =>
    cases items' with
    | nil => simp [sameAll]
    | cons item' rest' => simp [sameAll, same_iff item item', sameAll_iff rest rest']

end

instance : DecidableEq Item := fun item item' => decidable_of_iff _ (same_iff item item')

end Item

/-- A source file: the attributes of the whole, and its items. -/
structure SourceText where
  attributes : List Attribute
  items : List Item
deriving DecidableEq

end DescriptionLookup
