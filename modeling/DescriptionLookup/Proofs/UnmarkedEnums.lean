import DescriptionLookup.Proofs.LoadedCrates
import DescriptionLookup.Proofs.Repetitions

/-!
# What a pass does not look at

Of an enum that is not marked a pass looks at the name, the derives and the gates, and of an item
that is no enum, module, import or extern crate it looks at the name that it binds. Two crates that
differ in nothing else therefore get the same answer. That is shown relation by relation, along the
way from the items to the answer:

* `Item.Resembles`: what may differ between two items;
* `Compilation.Resembles.symbolTable_eq`: resembling crates have the same symbol table;
* `Compilation.Resembles.candidates`: their candidates resemble each other one by one;
* `Selection.add_eq_of_resembles`: considering one candidate or the other leads to the same
  selection;
* `Compilation.generate_eq_of_resembles`: the answers are the same.
-/

namespace DescriptionLookup

/-! ### Resemblance -/

/-- Two declarations have the same name, the same derives and the same gates. -/
structure EnumDecl.SameHead (decl decl' : EnumDecl) : Prop where
  name : decl.name = decl'.name
  derives : decl.attributes.filter (·.isNamed "derive") =
    decl'.attributes.filter (·.isNamed "derive")
  gates : decl.attributes.filter (·.isNamed "cfg") = decl'.attributes.filter (·.isNamed "cfg")

/-- An item is no enum, module, import or extern crate. -/
inductive Item.IsOther : Item → Prop
  | named (kind : ItemKind) (name : String) : IsOther (.named kind name)
  | irregular : IsOther .irregular
  | unnamed : IsOther .unnamed

mutual

/-- Two items of a module differ in nothing but enums that are `free` there, which keep their heads,
and in items of other kinds, which keep their names. -/
inductive Item.Resembles (free : ModulePath → EnumDecl → Prop) : ModulePath → Item → Item → Prop
  | same (module : ModulePath) (item : Item) : Item.Resembles free module item item
  | enumeration {module : ModulePath} {decl decl' : EnumDecl} (hfree : free module decl)
      (hhead : decl.SameHead decl') :
      Item.Resembles free module (.enumeration decl) (.enumeration decl')
  | inlineModule {module : ModulePath} {head : ModuleHead} {items items' : List Item}
      (hitems : ItemsResemble free (module.child head.name) items items') :
      Item.Resembles free module (.inlineModule head items) (.inlineModule head items')
  | other {module : ModulePath} {item item' : Item} (hother : item.IsOther)
      (hother' : item'.IsOther) (hname : item.itemName? = item'.itemName?) :
      Item.Resembles free module item item'

/-- The items of a module differ one by one as `Item.Resembles` allows. -/
inductive ItemsResemble (free : ModulePath → EnumDecl → Prop) :
    ModulePath → List Item → List Item → Prop
  | nil {module : ModulePath} : ItemsResemble free module [] []
  | cons {module : ModulePath} {item item' : Item} {rest rest' : List Item}
      (hitem : Item.Resembles free module item item')
      (hrest : ItemsResemble free module rest rest') :
      ItemsResemble free module (item :: rest) (item' :: rest')

end

/-- Two files of a crate are the bodies of one module and have resembling items. -/
structure SourceFile.Resembles (free : ModulePath → EnumDecl → Prop) (file file' : SourceFile) :
    Prop where
  path : file.path = file'.path
  module : file.module = file'.module
  gates : file.gates = file'.gates
  items : ItemsResemble free file.module file.source.items file'.source.items

/-- Two crates have resembling files. -/
structure Compilation.Resembles (free : ModulePath → EnumDecl → Prop)
    (compilation compilation' : Compilation) : Prop where
  crateName : compilation.crateName = compilation'.crateName
  externs : compilation.externs = compilation'.externs
  files : List.Forall₂ (SourceFile.Resembles free) compilation.files compilation'.files

variable {free : ModulePath → EnumDecl → Prop}

/-! ### What items bind -/

/-- Two items bind the same in every module. -/
structure Item.BindAlike (item item' : Item) : Prop where
  scope : ∀ scope : Scope, scope.addItem item = scope.addItem item'
  hidden : ∀ module, ModuleBody.hiddenModule? module item = ModuleBody.hiddenModule? module item'
  externs : ∀ module externs,
    ModuleBody.addExternName module externs item = ModuleBody.addExternName module externs item'

theorem Item.BindAlike.refl (item : Item) : item.BindAlike item :=
  ⟨fun _ => rfl, fun _ => rfl, fun _ _ => rfl⟩

/-- Of an item of another kind the name alone counts. -/
theorem Item.IsOther.bindAlike {item item' : Item} (h : item.IsOther) (h' : item'.IsOther)
    (hname : item.itemName? = item'.itemName?) : item.BindAlike item' := by
  cases h <;> cases h' <;> cases hname <;> exact ⟨fun _ => rfl, fun _ => rfl, fun _ _ => rfl⟩

theorem Item.Resembles.bindAlike {module : ModulePath} {item item' : Item}
    (h : item.Resembles free module item') : item.BindAlike item' := by
  cases h with
  | same => exact .refl item
  | enumeration _ hhead =>
    exact ⟨fun scope => by rw [Scope.addItem, Scope.addItem, hhead.name], fun _ => rfl,
      fun _ _ => rfl⟩
  | inlineModule => exact ⟨fun _ => rfl, fun _ => rfl, fun _ _ => rfl⟩
  | other hother hother' hname => exact hother.bindAlike hother' hname

/-- Two bodies of one module bind the same. -/
structure ModuleBody.BindAlike (body body' : ModuleBody) : Prop where
  module : body.module = body'.module
  items : List.Forall₂ Item.BindAlike body.items body'.items

namespace ModuleBody.BindAlike

variable {body body' : ModuleBody}

theorem refl (body : ModuleBody) : body.BindAlike body :=
  ⟨rfl, List.forall₂_same.2 fun item _ => .refl item⟩

theorem addScope_eq (h : body.BindAlike body') (scopes : Bindings ModulePath Scope) :
    addScope scopes body = addScope scopes body' := by
  have hitems : ∀ scope : Scope, scope.addItems body.items = scope.addItems body'.items :=
    fun scope => List.rel_foldl (fun _ _ hscope _ _ hitem => hscope ▸ hitem.scope _) rfl h.items
  rw [addScope, addScope, h.module, hitems]

theorem hiddenModules_eq (h : body.BindAlike body') :
    body.hiddenModules = body'.hiddenModules := by
  obtain ⟨module, items⟩ := body
  obtain ⟨module', items'⟩ := body'
  obtain ⟨rfl, hitems : List.Forall₂ Item.BindAlike items items'⟩ := h
  show items.filterMap (hiddenModule? module) = items'.filterMap (hiddenModule? module)
  induction hitems with
  | nil => rfl
  | cons hitem _ ih => rw [List.filterMap_cons, List.filterMap_cons, hitem.hidden, ih]

theorem addExternNames_eq (h : body.BindAlike body') (externs : Bindings String String) :
    addExternNames externs body = addExternNames externs body' := by
  rw [addExternNames, addExternNames, h.module]
  exact List.rel_foldl (fun _ _ hexterns _ _ hitem => hexterns ▸ hitem.externs _ _) rfl h.items

end ModuleBody.BindAlike

theorem ItemsResemble.bindAlike {module : ModulePath} {items items' : List Item}
    (h : ItemsResemble free module items items') : List.Forall₂ Item.BindAlike items items' := by
  induction items generalizing items' with
  | nil => cases h; exact .nil
  | cons item rest ih =>
    cases h with
    | cons hitem hrest => exact .cons hitem.bindAlike (ih hrest)

mutual

/-- The bodies in resembling items bind the same. -/
theorem Item.Resembles.bodies {module : ModulePath} {item item' : Item}
    (h : item.Resembles free module item') :
    List.Forall₂ ModuleBody.BindAlike (Item.bodies module item) (Item.bodies module item') := by
  cases item with
  | inlineModule head items =>
    cases h with
    | same => exact List.forall₂_same.2 fun body _ => .refl body
    | inlineModule hitems => exact .cons ⟨rfl, hitems.bindAlike⟩ hitems.innerBodies
    | other hother => cases hother
  | enumeration decl =>
    cases h with
    | same => exact .nil
    | enumeration => exact .nil
    | other hother => cases hother
  | _ =>
    cases h with
    | same => exact .nil
    | other hother hother' _ => cases hother' <;> exact .nil

theorem ItemsResemble.innerBodies {module : ModulePath} {items items' : List Item}
    (h : ItemsResemble free module items items') :
    List.Forall₂ ModuleBody.BindAlike (innerBodies module items) (innerBodies module items') := by
  cases items with
  | nil => cases h; exact .nil
  | cons item rest =>
    cases h with
    | cons hitem hrest => exact List.rel_append hitem.bodies hrest.innerBodies

end

/-! ### Candidates -/

/-- Two candidates are the same, or enums that are free, with one head. -/
structure Candidate.Resembles (free : ModulePath → EnumDecl → Prop) (c c' : Candidate) : Prop where
  module : c.module = c'.module
  gates : c.gates = c'.gates
  decl : c.decl = c'.decl ∨ free c.module c.decl ∧ c.decl.SameHead c'.decl

namespace Candidate

variable {c c' : Candidate}

theorem Resembles.refl (c : Candidate) : c.Resembles free c := ⟨rfl, rfl, .inl rfl⟩

theorem Resembles.symbol_eq (h : c.Resembles free c') : c.symbol = c'.symbol := by
  have hname : c.decl.name = c'.decl.name := h.decl.elim (congrArg EnumDecl.name) (·.2.name)
  rw [symbol, symbol, h.module, hname]

/-- Resembling candidates opt in alike. -/
theorem Resembles.origin?_eq (h : c.Resembles free c') (table : SymbolTable) (marker : Symbol)
    (registered : List Symbol) :
    c.origin? table marker registered = c'.origin? table marker registered := by
  have hderives : c.decl.derives = c'.decl.derives := by
    rcases h.decl with hdecl | ⟨-, hhead⟩
    · rw [hdecl]
    · rw [EnumDecl.derives, EnumDecl.derives, hhead.derives]
  have hcarries : c.carries table marker = c'.carries table marker := by
    rw [carries, carries, hderives, h.module]
  rw [origin?, origin?, hcarries, h.symbol_eq]

mutual

theorem ofItem_resembles (file : String) {module : ModulePath} (outer : List String)
    {item item' : Item} (h : item.Resembles free module item') :
    List.Forall₂ (Resembles free) (ofItem file module outer item)
      (ofItem file module outer item') := by
  cases item with
  | enumeration decl =>
    cases h with
    | same => exact List.forall₂_same.2 fun c _ => .refl c
    | enumeration hfree hhead =>
      have hgates := congrArg (List.map Attribute.text) hhead.gates
      exact .cons ⟨rfl, congrArg (outer ++ ·) hgates, .inr ⟨hfree, hhead⟩⟩ .nil
    | other hother => cases hother
  | inlineModule head items =>
    cases h with
    | same => exact List.forall₂_same.2 fun c _ => .refl c
    | inlineModule hitems =>
      simp only [ofItem]
      split
      · exact .nil
      · exact ofItems_resemble file _ hitems
    | other hother => cases hother
  | _ =>
    cases h with
    | same => exact .nil
    | other hother hother' _ => cases hother' <;> exact .nil

theorem ofItems_resemble (file : String) {module : ModulePath} (outer : List String)
    {items items' : List Item} (h : ItemsResemble free module items items') :
    List.Forall₂ (Resembles free) (ofItems file module outer items)
      (ofItems file module outer items') := by
  cases items with
  | nil => cases h; exact .nil
  | cons item rest =>
    cases h with
    | cons hitem hrest =>
      exact List.rel_append (ofItem_resembles file outer hitem) (ofItems_resemble file outer hrest)

end

end Candidate

/-! ### Crates -/

namespace Compilation.Resembles

variable {compilation compilation' : Compilation}

theorem bodies (h : Resembles free compilation compilation') :
    List.Forall₂ ModuleBody.BindAlike compilation.bodies compilation'.bodies := by
  refine List.rel_flatMap h.files fun file file' hfile => ?_
  rw [SourceFile.bodies, SourceFile.bodies, ← hfile.module]
  exact .cons ⟨rfl, hfile.items.bindAlike⟩ hfile.items.innerBodies

/-- Resembling crates have the same symbol table. -/
theorem symbolTable_eq (h : Resembles free compilation compilation') :
    compilation.symbolTable = compilation'.symbolTable := by
  have hscopes : compilation.bodies.foldl ModuleBody.addScope .empty =
      compilation'.bodies.foldl ModuleBody.addScope .empty :=
    List.rel_foldl (fun _ _ hscopes _ _ hbody => hscopes ▸ hbody.addScope_eq _) rfl h.bodies
  have hhidden : compilation.bodies.flatMap ModuleBody.hiddenModules =
      compilation'.bodies.flatMap ModuleBody.hiddenModules := by
    have hbodies := h.bodies
    generalize compilation.bodies = bodies, compilation'.bodies = bodies' at hbodies
    induction hbodies with
    | nil => rfl
    | cons hbody _ ih => rw [List.flatMap_cons, List.flatMap_cons, hbody.hiddenModules_eq, ih]
  have hexterns : compilation.bodies.foldl ModuleBody.addExternNames compilation.externs =
      compilation'.bodies.foldl ModuleBody.addExternNames compilation'.externs :=
    List.rel_foldl (fun _ _ hexterns _ _ hbody => hexterns ▸ hbody.addExternNames_eq _) h.externs
      h.bodies
  exact (SymbolTable.mk.injEq ..).mpr ⟨hscopes, hhidden, hexterns⟩

/-- The candidates of resembling crates resemble each other. -/
theorem candidates (h : Resembles free compilation compilation') :
    List.Forall₂ (Candidate.Resembles free) compilation.candidates compilation'.candidates := by
  refine List.rel_flatMap h.files fun file file' hfile => ?_
  rw [Candidate.ofFile, Candidate.ofFile, ← hfile.path, ← hfile.module, ← hfile.gates]
  exact Candidate.ofItems_resemble file.path file.gates hfile.items

end Compilation.Resembles

/-! ### Selections -/

namespace Selection

variable {table : SymbolTable} {marker : Symbol} {registered : List Symbol}

/-- Considering a candidate leads to the same selection as considering one that resembles it, if
free enums are not marked. -/
theorem add_eq_of_resembles {c c' : Candidate} (h : c.Resembles free c')
    (hfree : free c.module c.decl → ¬ c.OptsIn table marker registered) (selection : Selection) :
    selection.add table marker registered c = selection.add table marker registered c' := by
  rcases h.decl with hdecl | ⟨hunmarked, -⟩
  · have hkey : c.key = c'.key := Prod.ext h.symbol_eq h.gates
    have hnameable : c.isNameable table = c'.isNameable table := by
      rw [Candidate.isNameable, Candidate.isNameable, hdecl, h.module]
    simp only [add, skipReason?, h.origin?_eq, hkey, hnameable, h.symbol_eq, hdecl, h.gates]
  · have hnone := Candidate.origin?_eq_none.2 (hfree hunmarked)
    rw [add, add, ← h.origin?_eq, hnone]

/-- The selections among resembling candidates are the same, if free enums are not marked. -/
theorem ofCandidates_eq_of_resemble {candidates candidates' : List Candidate}
    (h : List.Forall₂ (Candidate.Resembles free) candidates candidates')
    (hfree : ∀ c : Candidate, free c.module c.decl → ¬ c.OptsIn table marker registered) :
    ofCandidates table marker registered candidates =
      ofCandidates table marker registered candidates' := by
  have hsymbols : candidates.map Candidate.symbol = candidates'.map Candidate.symbol := by
    induction h with
    | nil => rfl
    | cons hc _ ih => rw [List.map_cons, List.map_cons, hc.symbol_eq, ih]
  have hany : ∀ symbol : Symbol, (candidates.any fun c => c.symbol == symbol) =
      candidates'.any fun c => c.symbol == symbol := fun symbol => by
    have hmap := congrArg (List.any · (· == symbol)) hsymbols
    rwa [List.any_map, List.any_map] at hmap
  have hfold : candidates.foldl (add table marker registered) empty =
      candidates'.foldl (add table marker registered) empty :=
    List.rel_foldl (fun _ _ hselection _ _ hc =>
      hselection ▸ add_eq_of_resembles hc (hfree _) _) rfl h
  simp only [ofCandidates, hany, hfold]

end Selection

/-! ### Passes -/

namespace Compilation

/-- A declaration in a module is not marked in a pass. -/
def IsUnmarked (compilation : Compilation) (configuration : Configuration) (module : ModulePath)
    (decl : EnumDecl) : Prop :=
  ∀ file gates, ¬ compilation.IsMarked configuration ⟨decl, module, file, gates⟩

/-- The answers for two crates are the same, if the crates differ in nothing but the declarations of
enums that are not marked, behind their names, derives and gates, and in items of other kinds,
behind their names. -/
theorem generate_eq_of_resembles {compilation compilation' : Compilation}
    {configuration : Configuration}
    (h : Resembles (compilation.IsUnmarked configuration) compilation compilation') :
    compilation.generate configuration = compilation'.generate configuration := by
  have hselect : compilation.select configuration = compilation'.select configuration := by
    unfold select
    refine Except.bind_congr_ok fun _ _ => ?_
    dsimp only
    rw [← h.symbolTable_eq, ← h.crateName]
    refine Except.bind_congr_ok fun marker hmarker =>
      Except.bind_congr_ok fun registered hregistered => ?_
    rw [Selection.ofCandidates_eq_of_resemble h.candidates fun c hunmarked hin =>
      hunmarked c.file c.gates ⟨marker, registered, hmarker, hregistered, hin⟩]
  rw [generate, generate, hselect]

end Compilation

/-! ### Two texts of one crate -/

/-- A text in braces. -/
def inBraces (text : String) : String := "\x7b" ++ text ++ "\x7d"

/-- An enum that derives the marker. -/
def markedText : String := "#[derive(macros::Describe)]enum K" ++ inBraces "A"

/-- A function, an enum and an implementation, and the marked enum. -/
def plainText : String :=
  "fn f()" ++ inBraces "" ++ "enum P" ++ inBraces "A" ++
    "impl P" ++ inBraces ("fn g()" ++ inBraces "") ++ markedText

/-- The same items with other contents; the function declares a marked enum of its own. -/
def variedText : String :=
  "fn f(x:u8)" ++ inBraces markedText ++ "#[repr(u8)]enum P" ++ inBraces "B(u8)=1" ++
    "impl P" ++ inBraces "" ++ markedText

/-- The items of these texts, with these attributes and this variant of the enum. -/
def itemsWith (attributes : List Attribute) (variant : Variant) : List Item :=
  [.named .function "f", .enumeration ⟨attributes, .inherited, "P", [], [], [variant]⟩, .unnamed,
    .enumeration ⟨[⟨.ofName "derive", .list .parenthesis [.word "macros" .start,
        .mark ':' true .start, .mark ':' false .start, .word "Describe" .start]⟩],
      .inherited, "K", [], [], [⟨[], "A", true⟩]⟩]

/-- A crate with a single file of these items. -/
def itemsCrate (items : List Item) : Compilation :=
  ((Compilation.empty "demo").addExtern "macros" "macros").addFile
    ⟨"lib.rs", .root, [], ⟨[], items⟩⟩

/-- The items of the two texts, which differ, and one answer for both: the marked enum is described,
and the one inside the function is not. -/
theorem generate_plainText_eq_variedText :
    ∃ items items', items ≠ items' ∧
      Grammar.parseFile plainText = .ok ⟨[], items⟩ ∧
      Grammar.parseFile variedText = .ok ⟨[], items'⟩ ∧
      (itemsCrate items).generate describeOnly = (itemsCrate items').generate describeOnly ∧
      ((itemsCrate items').generate describeOnly).toOption.map PassResult.described =
        some [⟨⟨.here, ["K"]⟩, .derived, []⟩] := by
  obtain ⟨hne, hplain, hvaried, hregistered, hanswer⟩ :
      itemsWith [] ⟨[], "A", true⟩ ≠ itemsWith [wordAttribute "repr" "u8"] ⟨[], "B", false⟩ ∧
      (Grammar.parseFile plainText).toOption = some ⟨[], itemsWith [] ⟨[], "A", true⟩⟩ ∧
      (Grammar.parseFile variedText).toOption =
        some ⟨[], itemsWith [wordAttribute "repr" "u8"] ⟨[], "B", false⟩⟩ ∧
      (describeOnly.registrations
        (itemsCrate (itemsWith [] ⟨[], "A", true⟩)).symbolTable).toOption = some [] ∧
      ((itemsCrate (itemsWith [wordAttribute "repr" "u8"] ⟨[], "B", false⟩)).generate
          describeOnly).toOption.map PassResult.described =
        some [⟨⟨.here, ["K"]⟩, .derived, []⟩] := by
    decide +kernel
  refine ⟨_, _, hne, Except.toOption_eq_some.1 hplain, Except.toOption_eq_some.1 hvaried, ?_,
    hanswer⟩
  have hunmarked : (itemsCrate (itemsWith [] ⟨[], "A", true⟩)).IsUnmarked describeOnly .root
      ⟨[], .inherited, "P", [], [], [⟨[], "A", true⟩]⟩ := by
    rintro file gates ⟨marker, registered, -, hresolved, ⟨path, hpath, -⟩ | hmem⟩
    · cases hpath
    · cases hresolved.symm.trans (Except.toOption_eq_some.1 hregistered)
      cases hmem
  refine Compilation.generate_eq_of_resembles ⟨rfl, rfl, .cons ⟨rfl, rfl, rfl, ?_⟩ .nil⟩
  refine .cons (.other (.named _ _) (.named _ _) rfl) (.cons (.enumeration hunmarked ?_)
    (.cons (.other .unnamed .unnamed rfl) (.cons (.same _ _) .nil)))
  exact ⟨rfl, by decide +kernel, by decide +kernel⟩

end DescriptionLookup
