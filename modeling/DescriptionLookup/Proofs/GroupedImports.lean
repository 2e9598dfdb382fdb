import DescriptionLookup.Proofs.AcceptedItems

/-!
# Grouped imports

Braces save words: a tree of imports says the same as the imports without braces that come of it
when the path before each pair of braces is repeated for everything inside, from left to right. A
later import of a name replaces an earlier one, so that the order counts. What a tree brings in can
also be found in one walk through it, which keeps the names before the place at hand on a stack.

* `FlatImport`, `UseTree.expansion`: imports without braces, and those that a tree stands for;
* `imports_eq_flatMap`: a tree brings in what these do;
* `UseTree.walk`, `walk_eq`: the walk brings in the same, and gives the stack back as it was;
* `FlatImport.Adds`: what an import without braces adds to a scope;
* `walk_expansion`: all this together.
-/

namespace DescriptionLookup

/-! ### Imports without braces -/

/-- The end of the path of an import without braces. -/
inductive ImportEnd
  | name (last : String)
  | rename (last binding : String)
  | glob
deriving DecidableEq

/-- The end as a tree of imports. -/
def ImportEnd.tree : ImportEnd → UseTree
  | .name last => .name last
  | .rename last binding => .rename last binding
  | .glob => .glob

/-- An import without braces: the names of its path before the end, and the end. -/
structure FlatImport where
  lead : List String
  last : ImportEnd
deriving DecidableEq

namespace FlatImport

/-- The import as a tree of imports. -/
def tree (flat : FlatImport) : UseTree := .under flat.lead flat.last.tree

/-- The import with one more name before its path. -/
def behind (first : String) (flat : FlatImport) : FlatImport := ⟨first :: flat.lead, flat.last⟩

end FlatImport

namespace UseTree

mutual

/-- The imports without braces that a tree stands for. The path before a pair of braces is repeated
for everything inside. -/
def expansion : UseTree → List FlatImport
  | .path first tree => tree.expansion.map (FlatImport.behind first)
  | .name last => [⟨[], .name last⟩]
  | .rename last binding => [⟨[], .rename last binding⟩]
  | .glob => [⟨[], .glob⟩]
  | .group trees => expansionAll trees

/-- The imports without braces that several trees stand for, from left to right. -/
def expansionAll : List UseTree → List FlatImport
  | [] => []
  | tree :: rest => tree.expansion ++ expansionAll rest

end

theorem expansionAll_eq_flatMap (trees : List UseTree) :
    expansionAll trees = trees.flatMap expansion := by
  induction trees with
  | nil => rfl
  | cons tree rest ih => rw [expansionAll, ih, List.flatMap_cons]

/-- A path before a pair of braces is a path before everything inside. -/
theorem expansion_under_group (lead : List String) (trees : List UseTree) :
    (UseTree.under lead (.group trees)).expansion =
      trees.flatMap fun tree => (UseTree.under lead tree).expansion := by
  induction lead with
  | nil => exact expansionAll_eq_flatMap trees
  | cons first lead ih =>
    show (UseTree.under lead (.group trees)).expansion.map (FlatImport.behind first) = _
    rw [ih, List.map_flatMap]
    rfl

mutual

/-- A tree brings in what the imports without braces do that it stands for, one after the other. -/
theorem imports_eq_flatMap (lead : List String) (tree : UseTree) :
    tree.imports lead = tree.expansion.flatMap fun flat => flat.tree.imports lead := by
  cases tree with
  | path first tree =>
    -- With `first` before it, an import brings in what it does without, if `first` is in `lead`.
    rw [imports, expansion, List.flatMap_map]
    exact imports_eq_flatMap (lead ++ [first]) tree
  | group trees => exact importsAll_eq_flatMap lead trees
  | _ => exact (List.flatMap_singleton ..).symm

theorem importsAll_eq_flatMap (lead : List String) (trees : List UseTree) :
    importsAll lead trees = (expansionAll trees).flatMap fun flat => flat.tree.imports lead := by
  cases trees with
  | nil => rfl
  | cons tree rest =>
    rw [importsAll, expansionAll, List.flatMap_append, imports_eq_flatMap lead tree,
      importsAll_eq_flatMap lead rest]

end

end UseTree

/-- An import without braces stands for itself alone. -/
theorem FlatImport.expansion_tree (flat : FlatImport) : flat.tree.expansion = [flat] := by
  obtain ⟨lead, last⟩ := flat
  induction lead with
  | nil => cases last <;> rfl
  | cons first lead ih =>
    show (tree ⟨lead, last⟩).expansion.map (behind first) = _
    rw [ih]
    rfl

theorem UseTree.imports_under (lead names : List String) (tree : UseTree) :
    (under names tree).imports lead = tree.imports (lead ++ names) := by
  induction names generalizing lead with
  | nil => rw [List.append_nil]; rfl
  | cons name names ih =>
    rw [List.append_cons, ← ih]
    rfl

/-! ### The walk with a stack -/

/-- The scope in which the name stands for the path. -/
def Scope.bind (scope : Scope) (name : String) (path : Path) : Scope :=
  { scope with imports := scope.imports.insert name path }

/-- The scope with one more glob. -/
def Scope.addGlob (scope : Scope) (path : Path) : Scope :=
  { scope with globs := scope.globs ++ [path] }

/-- What a walk through a tree of imports works on. -/
structure Walk where
  /-- The names before the place at hand, the last one at the end. -/
  stack : List String
  scope : Scope

namespace Walk

/-- Push a name. -/
def push (walk : Walk) (name : String) : Walk := { walk with stack := walk.stack ++ [name] }

/-- Pop a name. -/
def pop (walk : Walk) : Walk := { walk with stack := walk.stack.dropLast }

/-- Import a name for a path that begins with `::` or does not. -/
def bind (absolute : Bool) (walk : Walk) (name : String) (path : List String) : Walk :=
  { walk with scope := walk.scope.bind name ⟨absolute, path⟩ }

end Walk

mutual

/-- Walk through a tree of imports. A name is pushed before the tree behind it, and popped after. -/
def UseTree.walk (absolute : Bool) : UseTree → Walk → Walk
  | .path first tree, walk => (tree.walk absolute (walk.push first)).pop
  | .name last, walk =>
    if last = "self" then
      match walk.stack.getLast? with
      | some binding => walk.bind absolute binding walk.stack
      | none => walk
    else walk.bind absolute last (walk.stack ++ [last])
  | .rename last binding, walk =>
    if binding = "_" then walk
    else walk.bind absolute binding (if last = "self" then walk.stack else walk.stack ++ [last])
  | .glob, walk => { walk with scope := walk.scope.addGlob ⟨absolute, walk.stack⟩ }
  | .group trees, walk => UseTree.walkAll absolute trees walk

/-- Walk through several trees of imports. -/
def UseTree.walkAll (absolute : Bool) : List UseTree → Walk → Walk
  | [], walk => walk
  | tree :: rest, walk => UseTree.walkAll absolute rest (tree.walk absolute walk)

end

namespace UseTree

mutual

/-- A walk gives the stack back as it was, and adds to the scope what the tree brings in behind the
names on the stack. -/
theorem walk_eq (absolute : Bool) (tree : UseTree) (walk : Walk) :
    tree.walk absolute walk =
      ⟨walk.stack, (tree.imports walk.stack).foldl (Scope.addImport absolute) walk.scope⟩ := by
  cases tree with
  | path first tree =>
    -- The stack comes back with the name on it that was pushed.
    rw [UseTree.walk, walk_eq absolute tree, Walk.pop, Walk.push, List.dropLast_concat, imports]
  | name last =>
    by_cases hself : last = "self"
    · rw [UseTree.walk, if_pos hself, imports, if_pos hself]
      cases walk.stack.getLast? <;> rfl
    · rw [UseTree.walk, if_neg hself, imports, if_neg hself]
      rfl
  | rename last binding =>
    by_cases hunnamed : binding = "_"
    · rw [UseTree.walk, if_pos hunnamed, imports, if_pos hunnamed]
      rfl
    · rw [UseTree.walk, if_neg hunnamed, imports, if_neg hunnamed]
      rfl
  | glob => rfl
  | group trees => exact walkAll_eq absolute trees walk

theorem walkAll_eq (absolute : Bool) (trees : List UseTree) (walk : Walk) :
    walkAll absolute trees walk =
      ⟨walk.stack, (importsAll walk.stack trees).foldl (Scope.addImport absolute) walk.scope⟩ := by
  cases trees with
  | nil => rfl
  | cons tree rest =>
    rw [walkAll, walkAll_eq absolute rest, walk_eq absolute tree, importsAll, List.foldl_append]

end

end UseTree

/-! ### What imports without braces add -/

/-- What an import without braces adds to a scope. -/
inductive FlatImport.Adds (absolute : Bool) : FlatImport → Scope → Scope → Prop
  /-- The word `self` stands for the path before it, and binds the last name of this path. -/
  | itself (lead : List String) (last : String) (scope : Scope) :
    Adds absolute ⟨lead ++ [last], .name "self"⟩ scope (scope.bind last ⟨absolute, lead ++ [last]⟩)
  /-- Where no path is before it, there is no name to bind. -/
  | nothing (scope : Scope) : Adds absolute ⟨[], .name "self"⟩ scope scope
  | name {last : String} (hself : last ≠ "self") (lead : List String) (scope : Scope) :
    Adds absolute ⟨lead, .name last⟩ scope (scope.bind last ⟨absolute, lead ++ [last]⟩)
  /-- The low line binds nothing. -/
  | unnamed (lead : List String) (last : String) (scope : Scope) :
    Adds absolute ⟨lead, .rename last "_"⟩ scope scope
  /-- By another name, too, `self` stands for the path before it. -/
  | renamedItself {binding : String} (hnamed : binding ≠ "_") (lead : List String) (scope : Scope) :
    Adds absolute ⟨lead, .rename "self" binding⟩ scope (scope.bind binding ⟨absolute, lead⟩)
  | renamed {last binding : String} (hnamed : binding ≠ "_") (hself : last ≠ "self")
    (lead : List String) (scope : Scope) :
    Adds absolute ⟨lead, .rename last binding⟩ scope
      (scope.bind binding ⟨absolute, lead ++ [last]⟩)
  | glob (lead : List String) (scope : Scope) :
    Adds absolute ⟨lead, .glob⟩ scope (scope.addGlob ⟨absolute, lead⟩)

theorem FlatImport.addItem_tree (absolute : Bool) (flat : FlatImport) (scope : Scope) :
    scope.addItem (.imports absolute flat.tree) =
      (flat.last.tree.imports flat.lead).foldl (Scope.addImport absolute) scope := by
  rw [Scope.addItem, tree, UseTree.imports_under, List.nil_append]

theorem FlatImport.adds_addItem (absolute : Bool) (flat : FlatImport) (scope : Scope) :
    flat.Adds absolute scope (scope.addItem (.imports absolute flat.tree)) := by
  rw [addItem_tree]
  obtain ⟨lead, last⟩ := flat
  cases last with
  | name last =>
    by_cases hself : last = "self"
    · subst hself
      rcases lead.eq_nil_or_concat with rfl | ⟨lead, name, rfl⟩
      · exact .nothing scope
      · rw [List.concat_eq_append, ImportEnd.tree, UseTree.imports, if_pos rfl,
          List.getLast?_concat]
        exact .itself lead name scope
    · rw [ImportEnd.tree, UseTree.imports, if_neg hself]
      exact .name hself lead scope
  | rename last binding =>
    by_cases hnamed : binding = "_"
    · subst hnamed
      exact .unnamed lead last scope
    · rw [ImportEnd.tree, UseTree.imports, if_neg hnamed]
      by_cases hself : last = "self"
      · subst hself
        exact .renamedItself hnamed lead scope
      · rw [if_neg hself]
        exact .renamed hnamed hself lead scope
  | glob => exact .glob lead scope

/-- Walks one after the other add what all trees bring in behind the names on the stack. -/
theorem FlatImport.foldl_walk (absolute : Bool) (flats : List FlatImport) (walk : Walk) :
    flats.foldl (fun walk flat => flat.tree.walk absolute walk) walk =
      ⟨walk.stack, (flats.flatMap fun flat => flat.tree.imports walk.stack).foldl
        (Scope.addImport absolute) walk.scope⟩ := by
  induction flats generalizing walk with
  | nil => rfl
  | cons flat flats ih =>
    rw [List.foldl_cons, ih, UseTree.walk_eq, List.flatMap_cons, List.foldl_append]

/-- An import with braces is its expansion.

A walk through the tree gives the stack back as it was, and ends where walks through the imports
without braces end that the tree stands for, one after the other. It makes of the scope what the
item does, which is what these imports make of it as items of their own. The expansion is what comes
of it when each path is distributed over its braces from left to right, and each import without
braces adds to the scope what its end says. -/
theorem UseTree.walk_expansion (absolute : Bool) (tree : UseTree) (stack : List String)
    (scope : Scope) :
    (tree.walk absolute ⟨stack, scope⟩).stack = stack ∧
    tree.walk absolute ⟨stack, scope⟩ =
      tree.expansion.foldl (fun walk flat => flat.tree.walk absolute walk) ⟨stack, scope⟩ ∧
    (tree.walk absolute ⟨[], scope⟩).scope = scope.addItem (.imports absolute tree) ∧
    scope.addItem (.imports absolute tree) =
      scope.addItems (tree.expansion.map fun flat => .imports absolute flat.tree) ∧
    (∀ flat : FlatImport, flat.tree.expansion = [flat]) ∧
    (∀ (lead : List String) (trees : List UseTree), (UseTree.under lead (.group trees)).expansion =
      trees.flatMap fun inner => (UseTree.under lead inner).expansion) ∧
    ∀ (flat : FlatImport) (scope : Scope),
      flat.Adds absolute scope (scope.addItem (.imports absolute flat.tree)) := by
  refine ⟨?_, ?_, ?_, ?_, FlatImport.expansion_tree, expansion_under_group,
    FlatImport.adds_addItem absolute⟩
  · rw [walk_eq]
  · rw [walk_eq, FlatImport.foldl_walk, imports_eq_flatMap]
  · rw [walk_eq]
    rfl
  · rw [Scope.addItem, imports_eq_flatMap, List.foldl_flatMap, Scope.addItems, List.foldl_map]
    rfl

/-- The tree of `use a::{self, b::{c as d, *}, e as _};`, and what it stands for. -/
example :
    let tree := UseTree.path "a" (.group
      [.name "self", .path "b" (.group [.rename "c" "d", .glob]), .rename "e" "_"])
    tree.expansion = [⟨["a"], .name "self"⟩, ⟨["a", "b"], .rename "c" "d"⟩, ⟨["a", "b"], .glob⟩,
      ⟨["a"], .rename "e" "_"⟩] := by
  decide

end DescriptionLookup
