import DescriptionLookup.Proofs.LoadedCrates
import DescriptionLookup.Proofs.Verdicts
import DescriptionLookup.Proofs.WrittenPaths

/-!
# Canonical paths

The written form of an enum's symbol is a path that leads to the enum, and not to anything else that
happens to be called like a word of it: declared items come before imports and globs, and where an
item shadows a module on the way, what the path names inside the item is the enum.

* `IsSound.resolveQualified_symbol`: resolving the canonical path;
* `IsSound.exists_path`: writing it down and reading it back first;
* `SymbolTable.Respells`: writing a registered enum in its canonical form;
* `IsSound.select_respells`: this leaves a selection as it is;
* `Compilation.canonical_paths`: both for every crate that is loaded from a disk.
-/

namespace DescriptionLookup

namespace Compilation

namespace IsSound

variable {compilation : Compilation} (h : compilation.IsSound)

include h

/-- The canonical path of an enum stands for the enum. -/
theorem resolveQualified_symbol (hcrate : "crate" ∉ compilation.externs.values) {c : Candidate}
    (hc : c ∈ compilation.candidates) :
    compilation.symbolTable.resolveQualified ⟨false, "crate" :: c.symbol.segments⟩ =
      some c.symbol := by
  obtain ⟨body, hbody, hmodule, hdecl⟩ := exists_body_of_mem_candidates hc
  obtain ⟨scope, hscope⟩ := exists_scope_iff.2 ⟨body, hbody, hmodule⟩
  have hitem : c.decl.name ∈ scope.items :=
    ((declared_scope hscope _).1).2 ⟨body, hbody, hmodule, _, hdecl, rfl⟩
  -- The enum is declared in its module and that one in the modules around it, so that the names lead
  -- there from the root whatever else is bound to them on the way.
  have hplace : compilation.symbolTable.scopes.get?
      ⟨ModulePath.root.segments ++ c.module.segments⟩ = some scope := hscope
  have hdeclares : compilation.symbolTable.Declares .root c.symbol.segments :=
    h.isNested.declares hplace hitem []
  have hknown : ¬ compilation.symbolTable.externs.values.contains "crate" = true := by
    simpa using h.crate_notMem hcrate
  have htarget : compilation.symbolTable.target? .root ⟨false, "crate" :: c.symbol.segments⟩ =
      some (.symbol c.symbol) := congrArg Prod.fst (hdeclares.outcome_eq [])
  show (if _ then _ else compilation.symbolTable.resolve .root _) = _
  rw [if_neg hknown, SymbolTable.resolve, htarget]
  rfl

/-- Read back, the written form of an enum's symbol stands for the enum. -/
theorem exists_path {c : Candidate} (hc : c ∈ compilation.candidates)
    (hcrate : "crate" ∉ compilation.externs.values) :
    ∃ path, Grammar.parsePath c.symbol.text = .ok path ∧
      compilation.symbolTable.resolveQualified path = some c.symbol := by
  have hread : Grammar.parsePath c.symbol.text = .ok ⟨false, "crate" :: c.symbol.segments⟩ :=
    Grammar.parsePath_separated (h.isSegment_of_mem_symbol hc)
  exact ⟨_, hread, h.resolveQualified_symbol hcrate hc⟩

end IsSound

end Compilation

/-! ### Registering an enum under another path -/

/-- The second text is the first, or the written form of what the first stands for. -/
def SymbolTable.Respells (table : SymbolTable) (text text' : String) : Prop :=
  text' = text ∨ ∃ path symbol, Grammar.parsePath text = .ok path ∧
    table.resolveQualified path = some symbol ∧ text' = symbol.text

/-- A loop that only runs a check on each member ends well exactly if all checks do. -/
theorem forIn_eq_ok_iff {ε α β : Type} {check : α → Except ε β} {as : List α} :
    (forIn as PUnit.unit fun a _ => do let _ ← check a; pure (.yield PUnit.unit)) = .ok PUnit.unit ↔
      ∀ a ∈ as, ∃ b, check a = .ok b := by
  induction as with
  | nil => exact ⟨fun _ => List.forall_mem_nil _, fun _ => rfl⟩
  | cons a rest ih =>
    rw [List.forIn_cons, List.forall_mem_cons, ← ih]
    cases check a with
    | error e => exact ⟨fun h => (by cases h), fun ⟨⟨_, h⟩, _⟩ => (by cases h)⟩
    | ok b => exact ⟨fun h => ⟨⟨b, rfl⟩, h⟩, And.right⟩

namespace Configuration

variable {configuration : Configuration}

theorem validate_eq_ok_iff : configuration.validate = .ok () ↔
    (∃ path, Grammar.parsePath configuration.marker = .ok path) ∧
    (∃ path, Grammar.parsePath configuration.mount = .ok path) ∧
    ∀ text ∈ configuration.registered, ∃ path, Grammar.parsePath text = .ok path := by
  unfold validate
  simp only [Except.bind_eq_ok, path_eq_ok_iff]
  constructor
  · rintro ⟨marker, hmarker, mount, hmount, _, hloop, -⟩
    refine ⟨⟨marker, hmarker⟩, ⟨mount, hmount⟩, fun text hmem => ?_⟩
    exact (forIn_eq_ok_iff.1 hloop text hmem).imp fun _ => path_eq_ok
  · rintro ⟨⟨marker, hmarker⟩, ⟨mount, hmount⟩, h⟩
    refine ⟨marker, hmarker, mount, hmount, (), forIn_eq_ok_iff.2 fun text hmem => ?_, rfl⟩
    exact (h text hmem).imp fun _ => path_eq_ok_iff.2

theorem registration_eq_ok_iff {table : SymbolTable} {text : String} {symbol : Symbol} :
    registration table text = .ok symbol ↔ ∃ path, Grammar.parsePath text = .ok path ∧
      table.resolveQualified path = some symbol ∧ symbol.isForeign = false := by
  unfold registration
  simp only [Except.bind_eq_ok, path_eq_ok_iff]
  refine exists_congr fun path => and_congr_right fun _ => ?_
  constructor
  · intro h
    split at h
    · cases h
    · next found hfound =>
      split at h
      · cases h
      · next hforeign =>
        cases h
        exact ⟨hfound, Bool.eq_false_iff.2 hforeign⟩
  · rintro ⟨hfound, hforeign⟩
    rw [hfound]
    exact if_neg (Bool.eq_false_iff.1 hforeign)

end Configuration

namespace Compilation.IsSound

variable {compilation : Compilation} (h : compilation.IsSound)
  (hcrate : "crate" ∉ compilation.externs.values)

include h hcrate

/-- Under another path an enum of the crate is registered just the same. -/
theorem registration_respells {c : Candidate} (hc : c ∈ compilation.candidates)
    {text text' : String}
    (hregistered : registration compilation.symbolTable text = .ok c.symbol)
    (hrespells : compilation.symbolTable.Respells text text') :
    registration compilation.symbolTable text' = .ok c.symbol := by
  rcases hrespells with rfl | ⟨path, symbol, hpath, hsymbol, rfl⟩
  · exact hregistered
  · -- The text stands for one symbol only, and that is the symbol of the enum.
    obtain ⟨path', hpath', hresolved, -⟩ := Configuration.registration_eq_ok_iff.1 hregistered
    cases hpath.symm.trans hpath'
    cases hsymbol.symm.trans hresolved
    obtain ⟨written, hwritten, hresolved⟩ := h.exists_path hc hcrate
    exact Configuration.registration_eq_ok_iff.2 ⟨written, hwritten, hresolved, rfl⟩

theorem registrations_respells {texts texts' : List String} {symbols : List Symbol}
    (hmet : ∀ symbol ∈ symbols, ∃ c ∈ compilation.candidates, c.symbol = symbol)
    (hregistered : texts.mapM (registration compilation.symbolTable) = .ok symbols)
    (hrespells : List.Forall₂ compilation.symbolTable.Respells texts texts') :
    texts'.mapM (registration compilation.symbolTable) = .ok symbols := by
  rw [mapM_eq_ok_iff] at hregistered ⊢
  induction hrespells generalizing symbols with
  | nil => exact List.forall₂_nil_left_iff.1 hregistered ▸ .nil
  | cons hfirst _ ih =>
    cases hregistered with
    | cons hsymbol hrest =>
      obtain ⟨⟨c, hc, rfl⟩, hmetRest⟩ := List.forall_mem_cons.1 hmet
      exact .cons (h.registration_respells hcrate hc hsymbol hfirst) (ih hmetRest hrest)

theorem select_respells {configuration : Configuration} {registered : List String}
    {selection : Selection} {textAttribute : String}
    (hselect : compilation.select configuration = .ok (selection, textAttribute))
    (hrespells : List.Forall₂ compilation.symbolTable.Respells configuration.registered
      registered) :
    compilation.select { configuration with registered } = .ok (selection, textAttribute) := by
  obtain ⟨hvalidate, marker, symbols, hmarker, hsymbols, hselection, rfl⟩ :=
    select_eq_ok_iff.1 hselect
  have hsymbols' : registered.mapM (registration compilation.symbolTable) = .ok symbols :=
    h.registrations_respells hcrate (Selection.ofCandidates_eq_ok.1 hselection).1 hsymbols hrespells
  obtain ⟨hmarkerPath, hmountPath, -⟩ := Configuration.validate_eq_ok_iff.1 hvalidate
  have hpaths : ∀ text ∈ registered, ∃ path, Grammar.parsePath text = .ok path := by
    intro text htext
    obtain ⟨symbol, -, hsymbol⟩ := exists_of_mem_forall₂ (mapM_eq_ok_iff.1 hsymbols') htext
    obtain ⟨path, hpath, -⟩ := Configuration.registration_eq_ok_iff.1 hsymbol
    exact ⟨path, hpath⟩
  refine select_eq_ok_iff.2 ⟨?_, marker, symbols, hmarker, hsymbols', hselection, rfl⟩
  exact Configuration.validate_eq_ok_iff.2 ⟨hmarkerPath, hmountPath, hpaths⟩

end Compilation.IsSound

namespace Compilation

/-- The canonical path of an enum stands for the enum.

In a crate from a disk in which no name stands for a crate called `crate`, the written form of an
enum's symbol is read as a path, and the path resolves to the symbol. A pass over the crate
therefore has the same result if registered enums are given by the written form of what they stand
for. -/
theorem canonical_paths {fs : FileSystem} {root : String} {depth : Nat} {crateName : String}
    {compilation : Compilation} {externs : List (String × String)}
    (hload : runOn (loadWithin FileSystem.disk depth crateName root) fs = (.ok compilation, fs))
    (hcrate : "crate" ∉ (compilation.addExterns externs).externs.values) :
    (∀ c ∈ (compilation.addExterns externs).candidates, ∃ path,
      Grammar.parsePath c.symbol.text = .ok path ∧
        (compilation.addExterns externs).symbolTable.resolveQualified path = some c.symbol) ∧
    ∀ configuration result registered,
      (compilation.addExterns externs).generate configuration = .ok result →
      List.Forall₂ (compilation.addExterns externs).symbolTable.Respells configuration.registered
        registered →
      (compilation.addExterns externs).generate { configuration with registered } = .ok result := by
  have hsound := isSound_of_load hload externs
  refine ⟨fun c hc => hsound.exists_path hc hcrate, ?_⟩
  intro configuration result registered hgenerate hrespells
  obtain ⟨⟨selection, textAttribute⟩, hselect, hresult⟩ := Except.bind_eq_ok.1 hgenerate
  exact Except.bind_eq_ok.2 ⟨_, hsound.select_respells hcrate hselect hrespells, hresult⟩

/-! ### An enum under its name and under another -/

/-- A disk with an enum in a module, which the crate root imports under another name. A function in
the root has the name of the module. -/
def renamedDisk : FileSystem :=
  let fs := (FileSystem.ofWorking "work").put ["work", "lib.rs"]
    (.file "mod marks; pub use marks::Kind as Sort; fn marks() \x7b\x7d".toUTF8)
  fs.put ["work", "marks.rs"] (.file "pub(crate) enum Kind { One }".toUTF8)

/-- Registering the enum under the name in the root is registering it under its own. -/
theorem canonical_paths_of_renamed :
    ∃ compilation result,
      runOn (loadWithin FileSystem.disk 2 "demo" "lib.rs") renamedDisk =
        (.ok compilation, renamedDisk) ∧
      "crate" ∉ (compilation.addExterns [(markerCrate, markerCrate)]).externs.values ∧
      (∃ path, Grammar.parsePath "crate::marks::Kind" = .ok path ∧
        (compilation.addExterns [(markerCrate, markerCrate)]).symbolTable.resolveQualified path =
          some ⟨.here, ["marks", "Kind"]⟩) ∧
      result.described.map DescribedEnum.symbol = [⟨.here, ["marks", "Kind"]⟩] ∧
      (compilation.addExterns [(markerCrate, markerCrate)]).generate
        { registered := ["Sort"] } = .ok result ∧
      (compilation.addExterns [(markerCrate, markerCrate)]).generate
        { registered := ["crate::marks::Kind"] } = .ok result := by
  have hrun : (renamedDisk.filesFrom 2 (.root "lib.rs")).toOption.map (fun files =>
      let compilation := ((empty "demo").addFiles files).addExterns [(markerCrate, markerCrate)]
      (compilation.externs.values, compilation.symbolTable.resolveQualified ⟨false, ["Sort"]⟩,
        compilation.candidates.map Candidate.symbol,
        (compilation.generate { registered := ["Sort"] }).toOption.map
          (·.described.map DescribedEnum.symbol))) =
      some ([markerCrate], some ⟨.here, ["marks", "Kind"]⟩, [⟨.here, ["marks", "Kind"]⟩],
        some [⟨.here, ["marks", "Kind"]⟩]) := by
    decide +kernel
  obtain ⟨files, hfiles, hfacts⟩ := Option.map_eq_some_iff.1 hrun
  obtain ⟨hexterns, hfacts⟩ := Prod.mk.inj hfacts
  obtain ⟨hsort, hfacts⟩ := Prod.mk.inj hfacts
  obtain ⟨hcandidates, hgenerate⟩ := Prod.mk.inj hfacts
  obtain ⟨result, hresult, hdescribed⟩ := Option.map_eq_some_iff.1 hgenerate
  have hload : runOn (loadWithin FileSystem.disk 2 "demo" "lib.rs") renamedDisk =
      (.ok ((empty "demo").addFiles files), renamedDisk) := by
    rw [loadWithin_disk, Except.toOption_eq_some.1 hfiles]
    rfl
  have hcrate : "crate" ∉ (((empty "demo").addFiles files).addExterns
      [(markerCrate, markerCrate)]).externs.values := by
    rw [hexterns]
    decide
  obtain ⟨hpaths, hpass⟩ := canonical_paths hload hcrate
  obtain ⟨c, hc, hsymbol⟩ := List.mem_map.1 (hcandidates ▸ List.mem_singleton_self _)
  have hcanonical := hpaths c hc
  rw [hsymbol] at hcanonical
  have hpath : (Grammar.parsePath "Sort").toOption = some ⟨false, ["Sort"]⟩ := by decide +kernel
  refine ⟨_, result, hload, hcrate, hcanonical, hdescribed, Except.toOption_eq_some.1 hresult, ?_⟩
  exact hpass _ _ _ (Except.toOption_eq_some.1 hresult)
    (.cons (.inr ⟨_, _, Except.toOption_eq_some.1 hpath, hsort, rfl⟩) .nil)

end Compilation

end DescriptionLookup
