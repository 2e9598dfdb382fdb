import DescriptionLookup.Proofs.Selections
import DescriptionLookup.Proofs.TestModules

/-!
# Unrelated crates

A package has many dependencies of which the source says nothing. To know one more of them makes no
difference to a pass: its name is only asked for where somebody wrote it. The name could matter in
five ways, as the first name of a path, behind a leading `::`, as one that no glob may guess, as the
one by which an item declares an extern crate, and the crate itself as the first name of a
configured path.

* `UseTree.words`, `Item.words`: the words that imports and extern crates are spelled with;
* `Scope.Avoids`: no path of a scope goes through the name, by induction over the items;
* `ModuleBody.Adds`: names of extern crates and the same with one more, kept up by every item;
* `agreeOn_addExtern`: both tables bind all other names alike, and to paths without the name;
* `generate_addExtern`: the answers are the same.
-/

namespace DescriptionLookup

/-! ### Words -/

mutual

/-- The words of a tree of imports. -/
def UseTree.words : UseTree → List String
  | .path first tree => first :: tree.words
  | .name last => [last]
  | .rename last binding => [last, binding]
  | .glob => []
  | .group trees => UseTree.wordsAll trees

/-- The words of several trees of imports. -/
def UseTree.wordsAll : List UseTree → List String
  | [] => []
  | tree :: rest => tree.words ++ UseTree.wordsAll rest

end

/-- The words by which an item imports something or declares an extern crate. -/
def Item.words : Item → List String
  | .imports _ tree => tree.words
  | .externCrate name binding => [name, binding]
  | _ => []

/-- The path that is imported, or all of whose names are. -/
def Import.path : Import → List String
  | .single _ path => path
  | .glob path => path

mutual

theorem UseTree.subset_of_mem_imports {lead : List String} {tree : UseTree} {entry : Import}
    (h : entry ∈ tree.imports lead) : entry.path ⊆ lead ++ tree.words := by
  cases tree with
  | path first tree =>
    rw [words, List.append_cons]
    exact subset_of_mem_imports h
  | name last =>
    by_cases hself : last = "self"
    · rw [imports, if_pos hself] at h
      obtain ⟨binding, -, rfl⟩ := Option.map_eq_some_iff.1 (Option.mem_toList.1 h)
      exact List.subset_append_left lead _
    · rw [imports, if_neg hself, List.mem_singleton] at h
      subst h
      exact List.Subset.refl _
  | rename last binding =>
    by_cases hunnamed : binding = "_"
    · rw [imports, if_pos hunnamed] at h
      cases h
    · rw [imports, if_neg hunnamed, List.mem_singleton] at h
      subst h
      show (if last = "self" then lead else lead ++ [last]) ⊆ lead ++ [last, binding]
      split
      · exact List.subset_append_left lead _
      · simp
  | glob =>
    rw [imports, List.mem_singleton] at h
    subst h
    exact List.subset_append_left lead _
  | group trees => exact subset_of_mem_importsAll h

/-- What a tree of imports brings in has a path that is spelled with its words, and with those
before it. -/
theorem UseTree.subset_of_mem_importsAll {lead : List String} {trees : List UseTree}
    {entry : Import} (h : entry ∈ UseTree.importsAll lead trees) :
    entry.path ⊆ lead ++ UseTree.wordsAll trees := by
  cases trees with
  | nil => cases h
  | cons tree rest =>
    intro word hword
    rw [wordsAll, ← List.append_assoc, List.mem_append]
    rcases List.mem_append.1 h with h | h
    · exact .inl (subset_of_mem_imports h hword)
    · rcases List.mem_append.1 (subset_of_mem_importsAll h hword) with hlead | hrest
      · exact .inl (List.mem_append_left _ hlead)
      · exact .inr hrest

end

/-! ### Paths of scopes -/

/-- No path of an import or a glob goes through the name. The crate root may be imported all the
same: `extern crate self` does it without a word of its path. -/
structure Scope.Avoids (scope : Scope) (name : String) : Prop where
  imports : ∀ binding path, scope.imports.get? binding = some path →
    name ∉ path.segments ∨ path = .crateRoot
  globs : ∀ path ∈ scope.globs, name ∉ path.segments

namespace Scope

variable {scope : Scope} {name : String}

theorem avoids_empty (name : String) : Scope.empty.Avoids name := ⟨nofun, nofun⟩

theorem Avoids.bind (h : scope.Avoids name) {binding : String} {path : Path}
    (hpath : name ∉ path.segments ∨ path = .crateRoot) :
    Avoids { scope with imports := scope.imports.insert binding path } name := by
  refine ⟨fun other found hfound => ?_, h.globs⟩
  rw [Bindings.get?_insert] at hfound
  split at hfound
  · exact Option.some.inj hfound ▸ hpath
  · exact h.imports other found hfound

theorem Avoids.addImport (h : scope.Avoids name) {entry : Import} (hentry : name ∉ entry.path)
    (absolute : Bool) : (scope.addImport absolute entry).Avoids name := by
  cases entry with
  | single binding path => exact h.bind (.inl hentry)
  | glob path =>
    exact ⟨h.imports, List.forall_mem_append.2 ⟨h.globs, List.forall_mem_singleton.2 hentry⟩⟩

theorem Avoids.addImports (h : scope.Avoids name) {entries : List Import}
    (hentries : ∀ entry ∈ entries, name ∉ entry.path) (absolute : Bool) :
    (entries.foldl (Scope.addImport absolute) scope).Avoids name := by
  induction entries generalizing scope with
  | nil => exact h
  | cons entry rest ih =>
    obtain ⟨hentry, hrest⟩ := List.forall_mem_cons.1 hentries
    exact ih (h.addImport hentry absolute) hrest

/-- An item without the name adds no path through it. -/
theorem Avoids.addItem (h : scope.Avoids name) {item : Item} (hitem : name ∉ item.words) :
    (scope.addItem item).Avoids name := by
  cases item with
  | imports absolute tree =>
    refine h.addImports (fun entry hentry hname => hitem ?_) absolute
    exact UseTree.subset_of_mem_imports hentry hname
  | externCrate crate binding =>
    rw [Scope.addItem, addExternCrate]
    split
    · exact h
    · split
      · exact h.bind (.inr rfl)
      · refine h.bind (.inl fun hname => hitem ?_)
        rw [List.mem_singleton.1 hname]
        exact List.mem_cons_self
  | _ => exact ⟨h.imports, h.globs⟩

theorem Avoids.addItems (h : scope.Avoids name) {items : List Item}
    (hitems : ∀ item ∈ items, name ∉ item.words) : (scope.addItems items).Avoids name := by
  unfold Scope.addItems
  induction items generalizing scope with
  | nil => exact h
  | cons item rest ih =>
    obtain ⟨hitem, hrest⟩ := List.forall_mem_cons.1 hitems
    exact ih (h.addItem hitem) hrest

end Scope

/-! ### Names of extern crates -/

namespace ModuleBody

variable {name crate : String} {externs externs' : Bindings String String}

/-- The second names are the first ones, and a new one. -/
structure Adds (name crate : String) (externs externs' : Bindings String String) : Prop where
  fresh : externs.get? name = none
  added : externs'.get? name = some crate
  others : ∀ other, other ≠ name → externs'.get? other = externs.get? other

theorem adds_insert (h : externs.get? name = none) :
    Adds name crate externs (externs.insert name crate) :=
  ⟨h, Bindings.get?_insert_self _ _ _, fun _ hother => Bindings.get?_insert_of_ne _ hother _⟩

/-- An item without the new name adds the same to both. -/
theorem Adds.addExternName (h : Adds name crate externs externs') (module : ModulePath)
    {item : Item} (hitem : name ∉ item.words) :
    Adds name crate (addExternName module externs item)
      (ModuleBody.addExternName module externs' item) := by
  cases item with
  | externCrate known binding =>
    obtain ⟨hknown, hbinding⟩ : name ≠ known ∧ name ≠ binding := by simpa [Item.words] using hitem
    by_cases hself : known = "self"
    · simpa only [ModuleBody.addExternName, if_pos hself] using h
    have hname : ¬ (name = known ∨ (module.isRoot = true ∧ binding ≠ "_") ∧ name = binding) :=
      not_or.2 ⟨hknown, fun h => hbinding h.2⟩
    constructor
    · rw [get?_addExternName module externs hself, if_neg hname, h.fresh]
    · rw [get?_addExternName module externs' hself, if_neg hname, h.added]
    · intro other hother
      rw [get?_addExternName module externs hself, get?_addExternName module externs' hself,
        h.others known hknown.symm, h.others other hother]
  | _ => exact h

theorem Adds.addExternNames (h : Adds name crate externs externs') {body : ModuleBody}
    (hbody : ∀ item ∈ body.items, name ∉ item.words) :
    Adds name crate (addExternNames externs body) (ModuleBody.addExternNames externs' body) := by
  obtain ⟨module, items⟩ := body
  show Adds name crate (items.foldl _ externs) (items.foldl _ externs')
  replace hbody : ∀ item ∈ items, name ∉ item.words := hbody
  induction items generalizing externs externs' with
  | nil => exact h
  | cons item rest ih =>
    obtain ⟨hitem, hrest⟩ := List.forall_mem_cons.1 hbody
    exact ih (h.addExternName module hitem) hrest

theorem Adds.foldl_addExternNames (h : Adds name crate externs externs')
    {bodies : List ModuleBody} (hbodies : ∀ body ∈ bodies, ∀ item ∈ body.items, name ∉ item.words) :
    Adds name crate (bodies.foldl ModuleBody.addExternNames externs)
      (bodies.foldl ModuleBody.addExternNames externs') := by
  induction bodies generalizing externs externs' with
  | nil => exact h
  | cons body rest ih =>
    obtain ⟨hbody, hrest⟩ := List.forall_mem_cons.1 hbodies
    exact ih (h.addExternNames hbody) hrest

/-- No other crate becomes known. -/
theorem Adds.mem_values_iff (h : Adds name crate externs externs') {other : String}
    (hother : other ≠ crate) : other ∈ externs'.values ↔ other ∈ externs.values := by
  rw [Bindings.mem_values_iff, Bindings.mem_values_iff]
  refine exists_congr fun key => ?_
  by_cases hkey : key = name
  · simp [hkey, h.fresh, h.added, Ne.symm hother]
  · rw [h.others key hkey]

end ModuleBody

/-! ### The pass -/

/-- All modules, and all names but one. -/
def otherNames (name : String) : Region := ⟨fun _ => True, (· ≠ name)⟩

theorem closed_otherNames (name : String) : (otherNames name).Closed :=
  ⟨trivial, fun _ _ _ _ => trivial, fun _ _ _ _ => trivial⟩

theorem hasPath_otherNames {name : String} {path : Path} (h : name ∉ path.segments) :
    (otherNames name).HasPath path := by
  rintro other hother rfl
  exact h hother

namespace Compilation

variable {compilation : Compilation} {configuration : Configuration} {name crate : String}

/-- A name that nothing in a pass is spelled with, and a crate that no configured path begins
with. -/
structure Unrelated (compilation : Compilation) (configuration : Configuration)
    (name crate : String) : Prop where
  /-- The name is not that of an extern crate already. -/
  fresh : compilation.externs.get? name = none
  /-- No import and no declaration of an extern crate contains it, -/
  items : ∀ body ∈ compilation.bodies, ∀ item ∈ body.items, name ∉ item.words
  /-- nor does a derive, -/
  derives : ∀ c ∈ compilation.candidates, ∀ path ∈ c.decl.derives, name ∉ path.segments
  /-- nor a configured path, which does not name the crate either. -/
  configured : ∀ text ∈ configuration.marker :: configuration.registered,
    ∀ path ∈ (Grammar.parsePath text).toOption,
      name ∉ path.segments ∧ path.segments.head? ≠ some crate

/-- No module imports anything through the name. -/
theorem avoids_scope {module : ModulePath} {scope : Scope}
    (hitems : ∀ body ∈ compilation.bodies, ∀ item ∈ body.items, name ∉ item.words)
    (hscope : compilation.symbolTable.scopes.get? module = some scope) : scope.Avoids name := by
  rw [eq_addItems_of_get?_scopes hscope]
  refine (Scope.avoids_empty name).addItems fun item hitem => ?_
  obtain ⟨body, hbody, -, hitem⟩ := mem_itemsOf.1 hitem
  exact hitems body hbody item hitem

theorem adds_addExtern
    (hfresh : compilation.externs.get? (crateIdentifier name) = none)
    (hitems : ∀ body ∈ compilation.bodies, ∀ item ∈ body.items,
      crateIdentifier name ∉ item.words) :
    ModuleBody.Adds (crateIdentifier name) (crateIdentifier crate) compilation.symbolTable.externs
      (compilation.addExtern name crate).symbolTable.externs :=
  (ModuleBody.adds_insert hfresh).foldl_addExternNames hitems

/-- With one more extern crate, all names but its own stay what they are. -/
theorem agreeOn_addExtern
    (hfresh : compilation.externs.get? (crateIdentifier name) = none)
    (hitems : ∀ body ∈ compilation.bodies, ∀ item ∈ body.items,
      crateIdentifier name ∉ item.words) :
    SymbolTable.AgreeOn (otherNames (crateIdentifier name))
      (compilation.addExtern name crate).symbolTable compilation.symbolTable := by
  refine ⟨fun module _ => ?_, (adds_addExtern hfresh hitems).others⟩
  show Option.Rel _ (compilation.symbolTable.scopes.get? module) _
  cases hscope : compilation.symbolTable.scopes.get? module with
  | none => exact .none
  | some scope =>
    have havoids := avoids_scope hitems hscope
    refine .some ⟨fun _ _ => .rfl, fun _ _ => .rfl, fun _ _ => rfl, rfl, ?_, ?_⟩
    · exact fun binding path _ hpath => (havoids.imports binding path hpath).imp_left
        hasPath_otherNames
    · exact fun path hpath => hasPath_otherNames (havoids.globs path hpath)

/-- An unrelated extern crate makes no difference to a pass. -/
theorem generate_addExtern
    (h : compilation.Unrelated configuration (crateIdentifier name) (crateIdentifier crate)) :
    (compilation.addExtern name crate).generate configuration =
      compilation.generate configuration := by
  have hagree : SymbolTable.AgreeOn (otherNames (crateIdentifier name))
      (compilation.addExtern name crate).symbolTable compilation.symbolTable :=
    agreeOn_addExtern h.fresh h.items
  have hregion := closed_otherNames (crateIdentifier name)
  refine generate_eq_of_sameAnswers rfl rfl (fun text htext path hpath => ?_)
    fun marker c hc => ⟨?_, rfl⟩
  · -- The first name of a configured path is looked for among the crates before anything else.
    obtain ⟨hname, hcrate⟩ := h.configured text htext path (by rw [hpath]; rfl)
    refine SymbolTable.resolveQualified_eq_of_first hregion hagree (hasPath_otherNames hname)
      fun first hfirst => ?_
    refine (adds_addExtern h.fresh h.items).mem_values_iff ?_
    rintro rfl
    exact hcrate hfirst
  · rw [Candidate.carries, Candidate.carries, Bool.eq_iff_iff, List.any_eq_true, List.any_eq_true]
    refine exists_congr fun path => and_congr_right fun hpath => ?_
    rw [SymbolTable.resolve_eq_of_agreeOn hregion hagree trivial
      (hasPath_otherNames (h.derives c hc path hpath))]

end Compilation

/-- A crate with `use macros::*;` at its root, where the enum is. -/
def globCrate : Compilation :=
  ((Compilation.empty "demo").addExtern "macros" "macros").addFile ⟨"lib.rs", .root, [], ⟨[],
    [.imports false (.path "macros" .glob), .enumeration describedKind]⟩⟩

/-- The marker comes in through the glob, whatever other crates there are. -/
theorem generate_addExtern_of_globCrate :
    globCrate.Unrelated describing "left_pad" "left_pad" ∧
      (globCrate.addExtern "left-pad" "left-pad").generate describing =
        globCrate.generate describing ∧
      (globCrate.generate describing).toOption.map PassResult.described =
        some [⟨⟨.here, ["Kind"]⟩, .derived, []⟩] := by
  have hidentifier : crateIdentifier "left-pad" = "left_pad" := by decide
  have hunrelated : globCrate.Unrelated describing "left_pad" "left_pad" := by
    refine ⟨?_, ?_, ?_, ?_⟩ <;> decide +kernel
  refine ⟨hunrelated, ?_, by decide +kernel⟩
  exact Compilation.generate_addExtern (by rwa [hidentifier])

/-- A crate that is called like the derive is a different matter: no glob may guess its name. -/
example : ((globCrate.addExtern "Describe" "left-pad").generate describing).toOption.map
    PassResult.described = some [] := by
  decide +kernel

end DescriptionLookup
