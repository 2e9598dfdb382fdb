import DescriptionLookup.Lookup.Pass
import DescriptionLookup.Proofs.Lookups
import DescriptionLookup.Proofs.Visits

/-!
# The layers around an enum

An enum stands inside the root file of its crate and inside modules, each in braces or with a file
of its own. Loading, scanning and rendering hand the gates of these layers on in three recursions.
This module follows them.

* `Layer`, `FileSystem.Stands`: what lies around the items of a module, read off the disk;
* `DeclaredEnum`, `DeclaredEnum.gates`: an enum on the disk with the gates of all its layers, from
  the crate root inwards, and then its own;
* `implementations`: the implementations among generated lines, each with the gates right in front;
* `Compilation.generate_gates`: an enum is reported and described under the gates that it has there.
-/

namespace DescriptionLookup

/-! ### Layers -/

/-- What lies around a declaration: the root file, a module in braces, or a module with the file
that holds its body. -/
inductive Layer
  | root (source : SourceText)
  | braces (head : ModuleHead)
  | file (head : ModuleHead) (source : SourceText)

/-- The gates of a layer: those of the declaration, and then those at the beginning of the file. -/
def Layer.gates : Layer → List String
  | .root source => DescriptionLookup.gates source.attributes
  | .braces head => DescriptionLookup.gates head.attributes
  | .file head source =>
    DescriptionLookup.gates head.attributes ++ DescriptionLookup.gates source.attributes

/-- The gates of layers, the outermost first. -/
def layerGates (layers : List Layer) : List String := layers.flatMap Layer.gates

theorem layerGates_append_singleton (layers : List Layer) (layer : Layer) :
    layerGates (layers ++ [layer]) = layerGates layers ++ layer.gates := by
  simp [layerGates]

namespace FileSystem

variable {fs : FileSystem} {root : String}

/-- In the crate with this root file, these are the items of a module inside these layers. The files
of child modules are in the directory. Modules for tests alone are no part of the crate. -/
inductive Stands (fs : FileSystem) (root : String) :
    (layers : List Layer) → (module : ModulePath) → (directory : String) → (items : List Item) →
    Prop
  | root {source : SourceText} : fs.source root = .ok source →
    Stands fs root [.root source] .root (Location.parent root) source.items
  | braces {layers : List Layer} {module : ModulePath} {directory : String} {items : List Item}
    {head : ModuleHead} {inner : List Item} : Stands fs root layers module directory items →
    .inlineModule head inner ∈ items → isTestOnly head.attributes = false →
    Stands fs root (layers ++ [.braces head]) (module.child head.name)
      (innerDirectory directory head) inner
  | file {layers : List Layer} {module : ModulePath} {directory : String} {items : List Item}
    {head : ModuleHead} {found : String} {source : SourceText} :
    Stands fs root layers module directory items →
    .fileModule head ∈ items → isTestOnly head.attributes = false →
    (modulePlaces directory head).find? fs.isFile = some found → fs.source found = .ok source →
    Stands fs root (layers ++ [.file head source]) (module.child head.name) (childDirectory found)
      source.items

/-- An enum with the layers around it, the outermost first. -/
structure DeclaredEnum where
  layers : List Layer
  module : ModulePath
  decl : EnumDecl

namespace DeclaredEnum

/-- The enum stands in the crate with this root file. -/
def IsIn (declared : DeclaredEnum) (fs : FileSystem) (root : String) : Prop :=
  ∃ directory items, fs.Stands root declared.layers declared.module directory items ∧
    .enumeration declared.decl ∈ items

/-- The gates of an enum: those of the layers around it, and then its own. -/
def gates (declared : DeclaredEnum) : List String :=
  layerGates declared.layers ++ DescriptionLookup.gates declared.decl.attributes

/-- The symbol of the enum. -/
def symbol (declared : DeclaredEnum) : Symbol := .ofLocal declared.module declared.decl.name

theorem isGate_of_mem_gates {declared : DeclaredEnum} {gate : String} (h : gate ∈ declared.gates)
    (level : Nat) : Line.isGate ⟨level, gate⟩ = true := by
  rcases List.mem_append.1 h with h | h
  · obtain ⟨layer, -, h⟩ := List.mem_flatMap.1 h
    cases layer with
    | root source => exact DescriptionLookup.isGate_of_mem_gates h level
    | braces head => exact DescriptionLookup.isGate_of_mem_gates h level
    | file head source =>
      rcases List.mem_append.1 h with h | h
      · exact DescriptionLookup.isGate_of_mem_gates h level
      · exact DescriptionLookup.isGate_of_mem_gates h level
  · exact DescriptionLookup.isGate_of_mem_gates h level

/-- The lookups of the enum. -/
def lookup (textAttribute : String) (declared : DeclaredEnum) : EnumLookup :=
  .ofDecl declared.symbol.text declared.gates textAttribute declared.decl

end DeclaredEnum

/-! ### Scanning -/

section Scanning

variable {file : String} {c : Candidate}

/-- The candidate is this enum. -/
structure DeclaredEnum.IsOf (declared : DeclaredEnum) (c : Candidate) : Prop where
  module : declared.module = c.module
  decl : declared.decl = c.decl
  gates : declared.gates = c.gates

mutual

theorem Stands.exists_declared_of_mem_ofItem {layers : List Layer} {module : ModulePath}
    {directory : String} {items : List Item} (h : fs.Stands root layers module directory items)
    {item : Item} (hitem : item ∈ items)
    (hc : c ∈ Candidate.ofItem file module (layerGates layers) item) :
    ∃ declared : DeclaredEnum, declared.IsIn fs root ∧ declared.IsOf c := by
  cases item with
  | enumeration decl =>
    rw [Candidate.ofItem, List.mem_singleton] at hc
    subst hc
    exact ⟨⟨layers, module, decl⟩, ⟨directory, items, h, hitem⟩, rfl, rfl, rfl⟩
  | inlineModule head inner =>
    rw [Candidate.ofItem] at hc
    split at hc
    · cases hc
    · next htest =>
      have hinner := h.braces hitem (Bool.eq_false_iff.2 htest)
      rw [← Layer.gates, ← layerGates_append_singleton] at hc
      exact hinner.exists_declared_of_mem_ofItems (List.Subset.refl inner) hc
  | _ => cases hc

/-- Every candidate among items of a module is an enum that is declared there. -/
theorem Stands.exists_declared_of_mem_ofItems {layers : List Layer} {module : ModulePath}
    {directory : String} {items : List Item} (h : fs.Stands root layers module directory items)
    {part : List Item} (hpart : part ⊆ items)
    (hc : c ∈ Candidate.ofItems file module (layerGates layers) part) :
    ∃ declared : DeclaredEnum, declared.IsIn fs root ∧ declared.IsOf c := by
  cases part with
  | nil => cases hc
  | cons item rest =>
    rcases List.mem_append.1 hc with hc | hc
    · exact h.exists_declared_of_mem_ofItem (hpart List.mem_cons_self) hc
    · exact h.exists_declared_of_mem_ofItems (fun _ hmem => hpart (List.mem_cons_of_mem _ hmem)) hc

end

end Scanning

/-! ### Loading -/

mutual

theorem Stands.exists_layers_of_mem_pending {layers : List Layer} {module : ModulePath}
    {directory : String} {items : List Item} (h : fs.Stands root layers module directory items)
    {item : Item} (hitem : item ∈ items) {pending : PendingModule}
    (hpending : pending ∈ Item.pending module directory (layerGates layers) item) {found : String}
    (hfound : pending.places.find? fs.isFile = some found) {source : SourceText}
    (hsource : fs.source found = .ok source) :
    ∃ layers', fs.Stands root layers' pending.module (childDirectory found) source.items ∧
      layerGates layers' = pending.gates ++ gates source.attributes := by
  cases item with
  | inlineModule head inner =>
    rw [Item.pending] at hpending
    split at hpending
    · cases hpending
    · next htest =>
      have hinner := h.braces hitem (Bool.eq_false_iff.2 htest)
      rw [← Layer.gates, ← layerGates_append_singleton] at hpending
      exact hinner.exists_layers_of_mem_pendingModules (List.Subset.refl inner) hpending hfound
        hsource
  | fileModule head =>
    rw [Item.pending] at hpending
    split at hpending
    · cases hpending
    · next htest =>
      obtain rfl := List.mem_singleton.1 hpending
      refine ⟨_, h.file hitem (Bool.eq_false_iff.2 htest) hfound hsource, ?_⟩
      rw [layerGates_append_singleton, Layer.gates, List.append_assoc]
  | _ => cases hpending

/-- The file of a module without a body stands where the module is declared. -/
theorem Stands.exists_layers_of_mem_pendingModules {layers : List Layer} {module : ModulePath}
    {directory : String} {items : List Item} (h : fs.Stands root layers module directory items)
    {part : List Item} (hpart : part ⊆ items) {pending : PendingModule}
    (hpending : pending ∈ pendingModules module directory (layerGates layers) part) {found : String}
    (hfound : pending.places.find? fs.isFile = some found) {source : SourceText}
    (hsource : fs.source found = .ok source) :
    ∃ layers', fs.Stands root layers' pending.module (childDirectory found) source.items ∧
      layerGates layers' = pending.gates ++ gates source.attributes := by
  cases part with
  | nil => cases hpending
  | cons item rest =>
    rcases List.mem_append.1 hpending with hpending | hpending
    · exact h.exists_layers_of_mem_pending (hpart List.mem_cons_self) hpending hfound hsource
    · exact h.exists_layers_of_mem_pendingModules
        (fun _ hmem => hpart (List.mem_cons_of_mem _ hmem)) hpending hfound hsource

end

/-- A file that is visited stands in the crate, and its gates are those of the layers around it. -/
def Placed (fs : FileSystem) (root : String) (visit : Visit) : Prop :=
  ∀ source, fs.source visit.path = .ok source →
    ∃ layers, fs.Stands root layers visit.module visit.directory source.items ∧
      layerGates layers = (visit.file source).gates

theorem placed_root (fs : FileSystem) (root : String) : fs.Placed root (.root root) := by
  intro source hsource
  refine ⟨[.root source], .root hsource, ?_⟩
  simp [layerGates, Layer.gates, Visit.file, Visit.root]

/-- From a file that stands in the crate the loader goes to files that do. -/
theorem Placed.step {visit next : Visit} (h : fs.Placed root visit)
    (hnext : next ∈ fs.steps visit) :
    fs.Placed root next := by
  intro source' hsource'
  unfold steps at hnext
  split at hnext
  · cases hnext
  · next source hsource =>
    obtain ⟨layers, hstands, hgates⟩ := h source hsource
    obtain ⟨pending, hpending, hfollow⟩ := List.mem_filterMap.1 hnext
    obtain ⟨found, hfound, rfl⟩ := Option.map_eq_some_iff.1 hfollow
    rw [Visit.pending, ← hgates] at hpending
    exact hstands.exists_layers_of_mem_pendingModules (List.Subset.refl _) hpending hfound hsource'

/-- Every file that is loaded has been visited in the crate. -/
theorem exists_placed_of_mem_filesFrom {depth : Nat} {visit : Visit} (hvisit : fs.Placed root visit)
    {files : List SourceFile} (hfiles : fs.filesFrom depth visit = .ok files) {file : SourceFile}
    (hfile : file ∈ files) :
    ∃ layers directory, fs.Stands root layers file.module directory file.source.items ∧
      layerGates layers = file.gates := by
  induction depth generalizing visit files with
  | zero => cases hfiles
  | succ depth ih =>
    obtain ⟨source, inner, hsource, hinner, rfl⟩ := filesFrom_eq_ok_iff.1 hfiles
    rcases List.mem_cons.1 hfile with rfl | hfile
    · obtain ⟨layers, hstands, hgates⟩ := hvisit source hsource
      exact ⟨layers, visit.directory, hstands, hgates⟩
    · obtain ⟨files, hmem, hfile⟩ := List.mem_flatten.1 hfile
      obtain ⟨next, hnext, hload⟩ := exists_of_mem_forall₂ hinner.flip hmem
      exact ih (hvisit.step hnext) hload hfile

end FileSystem

namespace Compilation

open FileSystem (DeclaredEnum)

variable {fs : FileSystem} {root : String} {depth : Nat} {crateName : String}
  {compilation : Compilation}

/-- Every candidate of a crate that is loaded from a disk is declared there. -/
theorem exists_declared_of_mem_candidates
    (hload : runOn (loadWithin FileSystem.disk depth crateName root) fs = (.ok compilation, fs))
    {c : Candidate} (hc : c ∈ compilation.candidates) :
    ∃ declared : DeclaredEnum, declared.IsIn fs root ∧ declared.IsOf c := by
  rw [loadWithin_disk] at hload
  cases hfiles : fs.filesFrom depth (.root root) with
  | error failure => rw [hfiles] at hload; cases hload
  | ok files =>
    rw [hfiles] at hload
    obtain rfl : _ = compilation := Except.ok.inj (Prod.mk.inj hload).1
    obtain ⟨file, hfile, hc⟩ := List.mem_flatMap.1 hc
    obtain ⟨layers, directory, hstands, hgates⟩ :=
      FileSystem.exists_placed_of_mem_filesFrom (FileSystem.placed_root fs root) hfiles hfile
    rw [Candidate.ofFile, ← hgates] at hc
    exact hstands.exists_declared_of_mem_ofItems (List.Subset.refl _) hc

end Compilation

/-! ### Rendering -/

namespace EnumLookup

variable (e : EnumLookup)

/-- The line that opens the lookup by value. -/
def valueOpening : Line :=
  if e.generics.isEmpty then ⟨1, "impl EnumDescription for " ++ e.path ++ " \x7b"⟩
  else ⟨1, "impl" ++ TokenTree.text e.generics.declaration ++ " EnumDescription for " ++ e.path ++
    TokenTree.text e.generics.arguments⟩

/-- The line that opens the lookup by number. -/
def numberOpening : Line := ⟨1, "impl DescribeDiscriminant for " ++ e.path ++ " \x7b"⟩

/-- The lines that open the implementations of an enum. -/
def openings : List Line :=
  e.valueOpening :: if e.numberType?.isSome then [e.numberOpening] else []

end EnumLookup

/-- The line opens an implementation in the generated module. -/
def Line.opensImplementation (l : Line) : Bool :=
  l.level == 1 && "impl".toList.isPrefixOf l.text.toList

/-- The implementations among lines, each with all the attributes in front of it; `pending` are
those in front of the first line. -/
def implementations : (pending : List String) → List Line → List (List String × Line)
  | _, [] => []
  | pending, l :: rest =>
    if l.isGate then implementations (pending ++ [l.text]) rest
    else if l.opensImplementation then (pending, l) :: implementations [] rest
    else implementations [] rest

section Implementations

variable {l : Line} {ls rest : List Line} {pending : List String}

theorem implementations_gateLines {gates : List String}
    (hgates : ∀ gate ∈ gates, Line.isGate ⟨1, gate⟩ = true) :
    implementations pending (gateLines 1 gates ++ rest) =
      implementations (pending ++ gates) rest := by
  induction gates generalizing pending with
  | nil => simp [gateLines]
  | cons gate more ih =>
    have hcons : gateLines 1 (gate :: more) ++ rest = ⟨1, gate⟩ :: (gateLines 1 more ++ rest) := rfl
    rw [hcons, implementations, if_pos (hgates gate List.mem_cons_self),
      ih fun other hother => hgates other (List.mem_cons_of_mem _ hother), List.append_assoc,
      List.singleton_append]

theorem implementations_opening (hgate : l.isGate = false) (h : l.opensImplementation = true) :
    implementations pending (l :: rest) = (pending, l) :: implementations [] rest := by
  rw [implementations, hgate, h]
  rfl

/-- No attributes in front of these lines apply to them. -/
def Fresh (rest : List Line) : Prop :=
  ∀ pending, implementations pending rest = implementations [] rest

theorem fresh_cons (hgate : l.isGate = false) (h : l.opensImplementation = false)
    (rest : List Line) : Fresh (l :: rest) := by
  intro pending
  simp [implementations, hgate, h]

/-- Lines that open no implementation do not count. -/
theorem implementations_skip (hls : ∀ l ∈ ls, l.opensImplementation = false) (hrest : Fresh rest) :
    implementations pending (ls ++ rest) = implementations [] rest := by
  induction ls generalizing pending with
  | nil => exact hrest pending
  | cons l more ih =>
    have hmore : ∀ l ∈ more, l.opensImplementation = false :=
      fun l hmem => hls l (List.mem_cons_of_mem _ hmem)
    rw [List.cons_append, implementations, hls l List.mem_cons_self]
    cases l.isGate <;> simp [ih hmore]

/-- A blank line, gates, and an implementation behind them. -/
theorem implementations_block {gates : List String}
    (hgates : ∀ gate ∈ gates, Line.isGate ⟨1, gate⟩ = true) (hgate : l.isGate = false)
    (h : l.opensImplementation = true) (hls : ∀ l ∈ ls, l.opensImplementation = false)
    (hrest : Fresh rest) :
    implementations pending (⟨0, ""⟩ :: (gateLines 1 gates ++ l :: ls) ++ rest) =
      (gates, l) :: implementations [] rest := by
  rw [List.cons_append, List.append_assoc, fresh_cons rfl rfl _ pending, implementations]
  show implementations [] _ = _
  rw [implementations_gateLines hgates, List.nil_append, List.cons_append,
    implementations_opening hgate h, implementations_skip hls hrest]

end Implementations

theorem Line.opensImplementation_eq_false {l : Line} (h : l.level ≠ 1) :
    l.opensImplementation = false := by
  simp [opensImplementation, h]

theorem level_of_mem_arms {arms : List Arm} {l : Line} (h : l ∈ arms.flatMap Arm.lines) :
    l.level = 4 := by
  obtain ⟨a, -, h⟩ := List.mem_flatMap.1 h
  rcases List.mem_append.1 h with h | h
  · exact level_of_mem_gateLines h
  · rw [List.mem_singleton.1 h]

namespace EnumLookup

variable {e : EnumLookup}

theorem isGate_valueOpening : e.valueOpening.isGate = false := by
  unfold valueOpening
  split <;> simp [Line.isGate, List.isPrefixOf]

theorem opensImplementation_valueOpening : e.valueOpening.opensImplementation = true := by
  unfold valueOpening
  split <;> simp [Line.opensImplementation, List.isPrefixOf]

theorem isGate_numberOpening : e.numberOpening.isGate = false := by
  simp [numberOpening, Line.isGate, List.isPrefixOf]

theorem opensImplementation_numberOpening : e.numberOpening.opensImplementation = true := by
  simp [numberOpening, Line.opensImplementation, List.isPrefixOf]

theorem exists_valueLines (e : EnumLookup) :
    ∃ ls, e.valueLines = gateLines 1 e.gates ++ e.valueOpening :: ls ∧
      ∀ l ∈ ls, l.opensImplementation = false := by
  obtain ⟨header, hheader, hlevel⟩ : ∃ header, e.valueHeader = e.valueOpening :: header ∧
      ∀ l ∈ header, l.opensImplementation = false := by
    unfold valueHeader valueOpening
    split
    · exact ⟨[], rfl, List.forall_mem_nil _⟩
    · refine ⟨_, rfl, fun l hl => ?_⟩
      simp only [List.append_eq, List.mem_append, List.mem_cons, List.mem_map, List.not_mem_nil,
        or_false] at hl
      rcases hl with ((rfl | rfl) | ⟨predicate, -, rfl⟩) | rfl
      · rfl
      · rfl
      · rfl
      · rfl
  refine ⟨_, by rw [valueLines, hheader]; simp only [List.append_assoc, List.cons_append]; rfl, ?_⟩
  intro l hl
  simp only [List.mem_append, List.mem_cons, List.not_mem_nil, or_false, List.nil_append] at hl
  rcases hl with hl | rfl | rfl | hl | rfl | rfl | rfl | rfl
  · exact hlevel l hl
  · rfl
  · rfl
  · exact Line.opensImplementation_eq_false (by rw [level_of_mem_arms hl]; decide)
  · rfl
  · rfl
  · rfl
  · rfl

theorem exists_numberLines (e : EnumLookup) (numberType : String) :
    ∃ ls, e.numberLines numberType = gateLines 1 e.gates ++ e.numberOpening :: ls ∧
      ∀ l ∈ ls, l.opensImplementation = false := by
  refine ⟨_, by rw [numberLines]; simp only [List.append_assoc, List.cons_append]; rfl, ?_⟩
  intro l hl
  simp only [List.mem_append, List.mem_cons, List.not_mem_nil, or_false, List.nil_append] at hl
  rcases hl with rfl | rfl | rfl | hl | rfl | hl | rfl | rfl | rfl | rfl
  · rfl
  · rfl
  · rfl
  · obtain ⟨c, -, hl⟩ := List.mem_flatMap.1 hl
    refine Line.opensImplementation_eq_false ?_
    rcases List.mem_append.1 hl with hl | hl
    · rw [level_of_mem_gateLines hl]
      decide
    · rw [List.mem_singleton.1 hl]
      exact (by decide : (3 : Nat) ≠ 1)
  · rfl
  · exact Line.opensImplementation_eq_false (by rw [level_of_mem_arms hl]; decide)
  · rfl
  · rfl
  · rfl
  · rfl

/-- Among the lines of an enum each of its implementations stands right behind the gates. -/
theorem implementations_lines (hgates : ∀ gate ∈ e.gates, Line.isGate ⟨1, gate⟩ = true)
    {rest : List Line} (hrest : Fresh rest) (pending : List String) :
    implementations pending (e.lines ++ rest) =
      e.openings.map (e.gates, ·) ++ implementations [] rest := by
  obtain ⟨ls, hvalue, hls⟩ := e.exists_valueLines
  unfold lines openings
  cases e.numberType? with
  | none =>
    rw [List.append_nil, hvalue, implementations_block hgates isGate_valueOpening
      opensImplementation_valueOpening hls hrest]
    rfl
  | some numberType =>
    obtain ⟨ls', hnumber, hls'⟩ := e.exists_numberLines numberType
    have hlines : (⟨0, ""⟩ :: e.valueLines ++ ⟨0, ""⟩ :: e.numberLines numberType) ++ rest =
        ⟨0, ""⟩ :: (gateLines 1 e.gates ++ e.valueOpening :: ls) ++
          (⟨0, ""⟩ :: (gateLines 1 e.gates ++ e.numberOpening :: ls') ++ rest) := by
      rw [hvalue, hnumber, List.append_assoc]
    have hsecond : Fresh (⟨0, ""⟩ :: (gateLines 1 e.gates ++ e.numberOpening :: ls') ++ rest) :=
      fresh_cons rfl rfl _
    refine (congrArg (implementations pending) hlines).trans ?_
    rw [implementations_block hgates isGate_valueOpening opensImplementation_valueOpening hls
      hsecond, implementations_block hgates isGate_numberOpening opensImplementation_numberOpening
      hls' hrest]
    rfl

/-- In the generated module each implementation stands right behind the gates of its enum. -/
theorem implementations_descriptionLines {enums : List EnumLookup}
    (hgates : ∀ e ∈ enums, ∀ gate ∈ e.gates, Line.isGate ⟨1, gate⟩ = true) (mount : String) :
    implementations [] (GeneratedUnit.descriptionLines mount enums) =
      enums.flatMap fun e => e.openings.map (e.gates, ·) := by
  have hlast : Fresh [⟨0, "\x7d"⟩] := fresh_cons rfl rfl []
  have henums : ∀ pending, implementations pending
      (enums.flatMap EnumLookup.lines ++ [⟨0, "\x7d"⟩]) =
        enums.flatMap fun e => e.openings.map (e.gates, ·) := by
    induction enums with
    | nil => exact hlast
    | cons e more ih =>
      intro pending
      have ih' := ih fun e hmem => hgates e (List.mem_cons_of_mem _ hmem)
      have hrest : Fresh (more.flatMap EnumLookup.lines ++ [⟨0, "\x7d"⟩]) :=
        fun pending => (ih' pending).trans (ih' []).symm
      rw [List.flatMap_cons, List.flatMap_cons, List.append_assoc,
        implementations_lines (hgates e List.mem_cons_self) hrest, ih']
  unfold GeneratedUnit.descriptionLines
  rw [List.append_assoc]
  refine (implementations_skip ?_ fun pending => ?_).trans (henums [])
  · have htop : ∀ text, Line.opensImplementation ⟨0, text⟩ = false :=
      fun text => Line.opensImplementation_eq_false Nat.zero_ne_one
    have huse : ∀ text, Line.opensImplementation ⟨1, "use " ++ text⟩ = false := fun text => by
      simp [Line.opensImplementation, List.isPrefixOf]
    simp only [List.forall_mem_cons]
    refine ⟨htop _, htop _, htop _, htop _, htop _, huse "::std::borrow::Cow;", htop _, ?_, ?_⟩
    · rw [String.append_assoc]
      exact huse _
    · exact List.forall_mem_nil _
  · rw [henums, henums]

end EnumLookup

/-! ### From the disk to the generated module -/

section Pairs

variable {α β γ : Type} {R : α → β → Prop} {as : List α} {bs : List β}

theorem exists_forall₂ (h : ∀ a ∈ as, ∃ b, R a b) : ∃ bs, List.Forall₂ R as bs := by
  induction as with
  | nil => exact ⟨[], .nil⟩
  | cons a rest ih =>
    obtain ⟨b, hb⟩ := h a List.mem_cons_self
    obtain ⟨bs, hbs⟩ := ih fun a hmem => h a (List.mem_cons_of_mem _ hmem)
    exact ⟨b :: bs, .cons hb hbs⟩

theorem map_eq_map_of_forall₂ {f : α → γ} {g : β → γ} (h : List.Forall₂ R as bs)
    (hfg : ∀ a b, R a b → f a = g b) : as.map f = bs.map g := by
  induction h with
  | nil => rfl
  | cons hab _ ih => rw [List.map_cons, List.map_cons, hfg _ _ hab, ih]

end Pairs

/-- A marker is resolved only with a text attribute that passes the check, and keeps it. -/
theorem Configuration.exists_parseIdentifier {configuration : Configuration}
    {table : SymbolTable} {crateName : String} {marker : Marker}
    (h : configuration.resolveMarker table crateName = .ok marker) :
    ∃ name, Grammar.parseIdentifier configuration.textAttribute = .ok name ∧
      marker.textAttribute = configuration.textAttribute := by
  obtain ⟨path, -, h⟩ := Except.bind_eq_ok.1 h
  split at h
  · cases h
  · split at h
    · cases h
    · next name hname =>
      cases h
      exact ⟨name, hname, rfl⟩

theorem Configuration.resolveMarker_textAttribute {configuration : Configuration}
    {table : SymbolTable} {crateName : String} {marker : Marker}
    (h : configuration.resolveMarker table crateName = .ok marker) :
    marker.textAttribute = configuration.textAttribute := by
  obtain ⟨-, -, htext⟩ := exists_parseIdentifier h
  exact htext

namespace Compilation

open FileSystem (DeclaredEnum)

theorem candidates_addExterns (compilation : Compilation) (externs : List (String × String)) :
    (compilation.addExterns externs).candidates = compilation.candidates := by
  rw [candidates, candidates, files_addExterns]

/-- No gate is lost, repeated or moved on the way from the disk to the generated module.

The enums that a pass over a crate from a disk reports are declared there, and each is reported
under the gates of the layers around it, from the crate root inwards, and then its own. In the
generated module exactly these lines, in this order, stand right in front of each implementation of
the enum, and nothing else is implemented. -/
theorem generate_gates {fs : FileSystem} {root : String} {depth : Nat} {crateName : String}
    {compilation : Compilation} {externs : List (String × String)} {configuration : Configuration}
    {result : PassResult}
    (hload : runOn (loadWithin FileSystem.disk depth crateName root) fs = (.ok compilation, fs))
    (hgenerate : (compilation.addExterns externs).generate configuration = .ok result) :
    ∃ enums : List DeclaredEnum, (∀ e ∈ enums, e.IsIn fs root) ∧
      result.described.map (fun d => (d.symbol, d.gates)) =
        enums.map (fun e => (e.symbol, e.gates)) ∧
      result.unit.text = Draft.textOf (GeneratedUnit.descriptionLines configuration.mount
        (enums.map (·.lookup configuration.textAttribute))) ∧
      implementations [] (GeneratedUnit.descriptionLines configuration.mount
          (enums.map (·.lookup configuration.textAttribute))) =
        enums.flatMap fun e =>
          (e.lookup configuration.textAttribute).openings.map (e.gates, ·) := by
  obtain ⟨⟨selection, textAttribute⟩, hselect, hresult⟩ := Except.bind_eq_ok.1 hgenerate
  cases hresult
  obtain ⟨marker, registered, hmarker, -, hselection, rfl⟩ := select_eq_ok hselect
  rw [Configuration.resolveMarker_textAttribute hmarker]
  obtain ⟨enums, henums⟩ : ∃ enums : List DeclaredEnum, List.Forall₂ (fun e declared =>
      declared.IsIn fs root ∧ e.symbol = declared.symbol ∧ e.decl = declared.decl ∧
        e.gates = declared.gates) selection.marked enums := by
    refine exists_forall₂ fun e he => ?_
    obtain ⟨c, hc, hsymbol, hdecl, hgates⟩ := Selection.exists_candidate hselection he
    rw [candidates_addExterns] at hc
    obtain ⟨declared, hin, hof⟩ := exists_declared_of_mem_candidates hload hc
    refine ⟨declared, hin, ?_, hdecl.trans hof.decl.symm, hgates.trans hof.gates.symm⟩
    rw [hsymbol, Candidate.symbol, DeclaredEnum.symbol, hof.module, hof.decl]
  have hlookups : selection.marked.map (·.lookup configuration.textAttribute) =
      enums.map (·.lookup configuration.textAttribute) :=
    map_eq_map_of_forall₂ henums fun e declared ⟨_, hsymbol, hdecl, hgates⟩ => by
      rw [MarkedEnum.lookup, DeclaredEnum.lookup, hsymbol, hdecl, hgates]
  refine ⟨enums, fun declared hmem => ?_, ?_, ?_, ?_⟩
  · obtain ⟨e, -, hin, -⟩ := exists_of_mem_forall₂ henums.flip hmem
    exact hin
  · rw [List.map_map]
    exact map_eq_map_of_forall₂ henums fun e declared ⟨_, hsymbol, _, hgates⟩ =>
      Prod.ext hsymbol hgates
  · show Draft.textOf (GeneratedUnit.descriptionLines _ _) = _
    rw [hlookups]
  · rw [EnumLookup.implementations_descriptionLines, List.flatMap_map]
    · rfl
    · rintro lookup hlookup gate hgate
      obtain ⟨declared, -, rfl⟩ := List.mem_map.1 hlookup
      exact declared.isGate_of_mem_gates hgate 1

/-! ### An enum inside three layers -/

/-- A disk with a module in braces, in which there is a module with a file of its own. -/
def nestedDisk : FileSystem :=
  let fs := (FileSystem.ofWorking "work").put ["work", "lib.rs"] (.file
    "#![cfg(a)] #[cfg(b)] pub mod m \x7b #![cfg(c)] #[cfg(d)] pub mod n; \x7d".toUTF8)
  (fs.put ["work", "m"] .directory).put ["work", "m", "n.rs"] (.file
    "#![cfg(e)] #[cfg(f)] pub enum Kind \x7b One \x7d".toUTF8)

/-- The settings that register the enum there. -/
def nestedSettings : Configuration := { registered := ["crate::m::n::Kind"] }

/-- The gates of the enum. -/
def nestedGates : List String :=
  ["#[cfg (a)]", "#[cfg (b)]", "#[cfg (c)]", "#[cfg (d)]", "#[cfg (e)]", "#[cfg (f)]"]

/-- An enum inside a file, a module in braces and the root file has the gates of all of them. -/
theorem generate_gates_of_nested :
    ∃ compilation result, ∃ enums : List DeclaredEnum,
      runOn (loadWithin FileSystem.disk 2 "demo" "lib.rs") nestedDisk =
        (.ok compilation, nestedDisk) ∧
      (compilation.addExterns [(markerCrate, markerCrate)]).generate nestedSettings = .ok result ∧
      (∀ e ∈ enums, e.IsIn nestedDisk "lib.rs") ∧
      enums.map DeclaredEnum.gates = [nestedGates] ∧
      implementations []
          (GeneratedUnit.descriptionLines "crate" (enums.map (·.lookup "description"))) =
        enums.flatMap fun e => (e.lookup "description").openings.map (e.gates, ·) := by
  have hrun : ((nestedDisk.filesFrom 2 (.root "lib.rs")).bind fun files =>
      (((empty "demo").addFiles files).addExterns [(markerCrate, markerCrate)]).generate
        nestedSettings).toOption.map (·.described.map DescribedEnum.gates) =
          some [nestedGates] := by
    decide +kernel
  obtain ⟨result, hresult, hdescribed⟩ := Option.map_eq_some_iff.1 hrun
  obtain ⟨files, hfiles, hgenerate⟩ := Except.bind_eq_ok.1 (Except.toOption_eq_some.1 hresult)
  have hload : runOn (loadWithin FileSystem.disk 2 "demo" "lib.rs") nestedDisk =
      (.ok ((empty "demo").addFiles files), nestedDisk) := by
    rw [loadWithin_disk, hfiles]
    rfl
  obtain ⟨enums, hin, hgates, -, himplementations⟩ := generate_gates hload hgenerate
  refine ⟨_, result, enums, hload, hgenerate, hin, ?_, himplementations⟩
  have hsecond := congrArg (List.map Prod.snd) hgates
  rw [List.map_map, List.map_map] at hsecond
  exact hsecond.symm.trans hdescribed

end Compilation

end DescriptionLookup
