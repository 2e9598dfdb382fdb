import DescriptionLookup.Proofs.Reordering
import DescriptionLookup.Proofs.Trails
import DescriptionLookup.Proofs.Visits
import Mathlib.Data.List.Forall2

/-!
# A module in braces and in a file of its own

A module in braces can be moved to a file: it is declared without its body, and the body becomes a
file where the loader looks for it. The crate then has the same parts, though in another order, and
so every pass reports the same enums and every path resolves to the same item.

* `Extraction`, `Extraction.Moves`: what is moved, and out of which items;
* `Extraction.Moves.parts_eq`, `Extraction.Moves.pending_eq`: the items before and after;
* `Extraction.Edits`, `Extraction.Replaces`: the disks before and after;
* `Extraction.Replaces.matched`: the files before and after;
* `Extraction.load_generate`: the crates before and after.
-/

namespace DescriptionLookup

/-! ### Items and where they stand -/

theorem pendingModules_append (module : ModulePath) (directory : String) (outer : List String)
    (items items' : List Item) : pendingModules module directory outer (items ++ items') =
      pendingModules module directory outer items ++
        pendingModules module directory outer items' := by
  induction items with
  | nil => rfl
  | cons item rest ih =>
    rw [List.cons_append, pendingModules, pendingModules, ih, List.append_assoc]

/-- What is there at most once, and in the middle, is nowhere else. -/
theorem notMem_of_count_le_one {α : Type} [DecidableEq α] {a : α} {xs ys zs : List α}
    (h : (xs ++ (ys ++ zs)).count a ≤ 1) (hys : a ∈ ys) : a ∉ xs ∧ a ∉ zs := by
  rw [List.count_append, List.count_append] at h
  have hpos := List.count_pos_iff.2 hys
  exact ⟨fun hxs => by have := List.count_pos_iff.2 hxs; omega,
    fun hzs => by have := List.count_pos_iff.2 hzs; omega⟩

/-- Where items stand. -/
structure Site where
  module : ModulePath
  /-- Where the files of child modules are. -/
  directory : String
  /-- The gates of the module. -/
  gates : List String

namespace Site

/-- Where the items of a module in braces stand. -/
def inside (site : Site) (head : ModuleHead) : Site where
  module := site.module.child head.name
  directory := innerDirectory site.directory head
  gates := site.gates ++ DescriptionLookup.gates head.attributes

/-- The parts that items add where they stand. -/
def parts (site : Site) (items : List Item) : List Part :=
  partsOf site.module site.gates true items

/-- The modules without a body that items declare where they stand. -/
def pending (site : Site) (items : List Item) : List PendingModule :=
  pendingModules site.module site.directory site.gates items

variable (site : Site) (head : ModuleHead) (before items behind : List Item)

theorem parts_module (h : isTestOnly head.attributes = false) :
    site.parts (before ++ .inlineModule head items :: behind) =
      site.parts before ++
        (.body (ModuleBody.outline ⟨(site.inside head).module, items⟩) ::
          (site.inside head).parts items) ++ site.parts behind := by
  have hitem : Item.parts site.module site.gates true (.inlineModule head items) =
      .body (ModuleBody.outline ⟨(site.inside head).module, items⟩) ::
        (site.inside head).parts items := by
    rw [Item.parts, h]
    rfl
  rw [parts, partsOf_append, partsOf, hitem, List.append_assoc]
  rfl

theorem pending_module (h : isTestOnly head.attributes = false) :
    site.pending (before ++ .inlineModule head items :: behind) =
      site.pending before ++ (site.inside head).pending items ++ site.pending behind := by
  have hitem : Item.pending site.module site.directory site.gates (.inlineModule head items) =
      (site.inside head).pending items := by
    rw [Item.pending, h]
    rfl
  rw [pending, pendingModules_append, pendingModules, hitem, List.append_assoc]
  rfl

theorem parts_declaration :
    site.parts (before ++ .fileModule head :: behind) =
      site.parts before ++ site.parts behind := by
  rw [parts, partsOf_append, partsOf]
  rfl

theorem pending_declaration (h : isTestOnly head.attributes = false) :
    site.pending (before ++ .fileModule head :: behind) =
      site.pending before ++ ⟨site.module.child head.name, modulePlaces site.directory head,
        site.gates ++ DescriptionLookup.gates head.attributes⟩ :: site.pending behind := by
  have hitem : Item.pending site.module site.directory site.gates (.fileModule head) =
      [⟨site.module.child head.name, modulePlaces site.directory head,
        site.gates ++ DescriptionLookup.gates head.attributes⟩] := by
    rw [Item.pending, h]
    rfl
  rw [pending, pendingModules_append, pendingModules, hitem]
  rfl

end Site

/-- Where the items of a file stand. -/
def Visit.site (visit : Visit) (source : SourceText) : Site :=
  ⟨visit.module, visit.directory, (visit.file source).gates⟩

/-! ### What is moved -/

/-- A module with its body, which is to become a file. The attributes before the declaration and
those at the beginning of the body are told apart. -/
structure Extraction where
  outer : List Attribute
  inner : List Attribute
  visibility : Visibility
  name : String
  body : List Item
  /-- The module is not there for tests alone. -/
  ordinary : isTestOnly (outer ++ inner) = false
  /-- No attribute says where the files of the module are. -/
  unplaced : location? (outer ++ inner) = none
  /-- A file can have the name of the module. -/
  named : unraw name ≠ "" ∧ '/' ∉ (unraw name).toList
  /-- The file is not taken for that of the enclosing module. -/
  notMod : unraw name ≠ "mod"

namespace Extraction

variable (e : Extraction)

/-- What comes before the body where it stands in braces. -/
def head : ModuleHead := ⟨e.outer ++ e.inner, e.visibility, e.name⟩

/-- What is left where the body stood. -/
def declaration : ModuleHead := ⟨e.outer, e.visibility, e.name⟩

/-- The content of the file. -/
def source : SourceText := ⟨e.inner, e.body⟩

/-- The file for the body, where the files of child modules are in this directory. -/
def place (directory : String) : String := Location.join directory (unraw e.name ++ ".rs")

theorem ordinary_declaration : isTestOnly e.declaration.attributes = false := by
  have hboth := e.ordinary
  rw [isTestOnly, List.any_append, Bool.or_eq_false_iff] at hboth
  exact hboth.1

theorem innerDirectory_head (directory : String) :
    innerDirectory directory e.head = Location.join directory (unraw e.name) := by
  rw [innerDirectory, head, e.unplaced]
  rfl

/-- The first place where the loader looks for the body is the file for it. -/
theorem modulePlaces_declaration (directory : String) :
    modulePlaces directory e.declaration =
      [e.place directory, Location.join (Location.join directory (unraw e.name)) "mod.rs"] := by
  have hlocation : location? e.declaration.attributes = none := by
    have hboth := e.unplaced
    rw [location?, List.findSome?_append, Option.or_eq_none_iff] at hboth
    exact hboth.1
  rw [modulePlaces, hlocation]
  rfl

/-- Out of the first items, which stand at the first site, the module is moved; the second items are
left. The module is declared at the second site, which is not inside a module for tests. -/
inductive Moves : Site → List Item → List Item → Site → Prop
  | here (site : Site) (before behind : List Item) :
    Moves site (before ++ .inlineModule e.head e.body :: behind)
      (before ++ .fileModule e.declaration :: behind) site
  | inside {site around : Site} {head : ModuleHead} {items items' : List Item}
    (before behind : List Item) : isTestOnly head.attributes = false →
    Moves (site.inside head) items items' around →
    Moves site (before ++ .inlineModule head items :: behind)
      (before ++ .inlineModule head items' :: behind) around

/-- The module that is moved, declared at a site. -/
def module (around : Site) : ModulePath := around.module.child e.name

/-- The declaration that is left. -/
def pending (around : Site) : PendingModule :=
  ⟨e.module around, modulePlaces around.directory e.declaration,
    around.gates ++ gates e.declaration.attributes⟩

/-- The parts that are moved. -/
def parts (around : Site) : List Part :=
  .body (ModuleBody.outline ⟨e.module around, e.body⟩) :: (around.inside e.head).parts e.body

variable {e} {site around : Site} {items items' : List Item}

theorem within_of_mem_parts {part : Part} (h : part ∈ e.parts around) :
    part.module.IsWithin (e.module around) := by
  rcases List.mem_cons.1 h with rfl | h
  · exact .refl _
  · exact within_of_mem_partsOf _ _ _ _ part h

theorem not_within_module (around : Site) : ¬ around.module.IsWithin (e.module around) :=
  ModulePath.IsWithin.not_child around.module e.name

namespace Moves

/-- The enclosing module is the same from outside. -/
theorem outline_eq (h : e.Moves site items items' around) :
    items.map Item.outline = items'.map Item.outline := by
  cases h <;> simp only [List.map_append, List.map_cons] <;> rfl

theorem isWithin (h : e.Moves site items items' around) :
    around.module.IsWithin site.module := by
  induction h with
  | here site => exact .refl site.module
  | inside _ _ _ _ ih => exact ih.trans (.child _ _)

theorem mem_declared (h : e.Moves site items items' around) :
    e.module around ∈ declaredModules site.module items := by
  induction h with
  | here site before behind =>
    rw [declaredModules_append]
    exact List.mem_append_right _ List.mem_cons_self
  | inside before behind _ _ ih =>
    rw [declaredModules_append]
    exact List.mem_append_right _ (List.mem_append_left _ (List.mem_cons_of_mem _ ih))

/-- The module around what is moved is not inside it. -/
theorem not_within (h : e.Moves site items items' around) :
    ¬ site.module.IsWithin (e.module around) :=
  fun hwithin => not_within_module around (h.isWithin.trans hwithin)

section Inside

variable {head : ModuleHead} {before inner behind : List Item} {m : ModulePath}

/-- What else is declared is not the module that is moved. -/
theorem notMem_declared
    (hcount : (declaredModules site.module (before ++ .inlineModule head inner :: behind)).count m
      ≤ 1) (hinner : m ∈ Item.declared site.module (.inlineModule head inner)) :
    m ∉ declaredModules site.module before ∧ m ∉ declaredModules site.module behind := by
  rw [declaredModules_append, declaredModules] at hcount
  exact notMem_of_count_le_one hcount hinner

theorem count_inside
    (hcount : (declaredModules site.module (before ++ .inlineModule head inner :: behind)).count m
      ≤ 1) : (declaredModules (site.inside head).module inner).count m ≤ 1 := by
  rw [declaredModules_append, declaredModules, Item.declared] at hcount
  have hsublist := (List.sublist_cons_self (site.module.child head.name)
    (declaredModules (site.module.child head.name) inner)).trans
      ((List.sublist_append_left _ (declaredModules site.module behind)).trans
        (List.sublist_append_right (declaredModules site.module before) _))
  exact Nat.le_trans (hsublist.count_le m) hcount

end Inside

/-- The parts of the module are taken out of the others. -/
theorem parts_eq (h : e.Moves site items items' around)
    (hcount : (declaredModules site.module items).count (e.module around) ≤ 1) :
    ∃ before behind, site.parts items = before ++ e.parts around ++ behind ∧
      site.parts items' = before ++ behind ∧
      ∀ part ∈ before ++ behind, ¬ part.module.IsWithin (e.module around) := by
  induction h with
  | here site before behind =>
    obtain ⟨hbefore, hbehind⟩ := notMem_declared hcount List.mem_cons_self
    refine ⟨site.parts before, site.parts behind, site.parts_module _ _ _ _ e.ordinary,
      site.parts_declaration _ _ _, fun part hpart hwithin => ?_⟩
    rcases List.mem_append.1 hpart with hpart | hpart
    · exact hbefore (mem_declared_of_mem_partsOf hpart hwithin (not_within_module site))
    · exact hbehind (mem_declared_of_mem_partsOf hpart hwithin (not_within_module site))
  | @inside site around head items items' before behind htest hmoves ih =>
    have hsite := (Moves.inside before behind htest hmoves).not_within
    obtain ⟨hbefore, hbehind⟩ :=
      notMem_declared hcount (List.mem_cons_of_mem _ hmoves.mem_declared)
    obtain ⟨outer, inner, hitems, hitems', hother⟩ := ih (count_inside hcount)
    have houtline : ModuleBody.outline ⟨(site.inside head).module, items⟩ =
        ModuleBody.outline ⟨(site.inside head).module, items'⟩ :=
      congrArg (ModuleBody.mk _) hmoves.outline_eq
    refine ⟨site.parts before ++
      .body (ModuleBody.outline ⟨(site.inside head).module, items⟩) :: outer,
      inner ++ site.parts behind, ?_, ?_, fun part hpart hwithin => ?_⟩
    · rw [site.parts_module _ _ _ _ htest, hitems]
      simp only [List.append_assoc, List.cons_append]
    · rw [site.parts_module _ _ _ _ htest, hitems', houtline]
      simp only [List.append_assoc, List.cons_append]
    · simp only [List.mem_append, List.mem_cons] at hpart
      rcases hpart with (hpart | rfl | hpart) | hpart | hpart
      · exact hbefore (mem_declared_of_mem_partsOf hpart hwithin hsite)
      · exact hmoves.not_within hwithin
      · exact hother part (List.mem_append_left _ hpart) hwithin
      · exact hother part (List.mem_append_right _ hpart) hwithin
      · exact hbehind (mem_declared_of_mem_partsOf hpart hwithin hsite)

/-- The modules without a body that the body declares are taken out of the others, and the module
itself comes instead. -/
theorem pending_eq (h : e.Moves site items items' around)
    (hcount : (declaredModules site.module items).count (e.module around) ≤ 1) :
    ∃ before behind,
      site.pending items = before ++ (around.inside e.head).pending e.body ++ behind ∧
      site.pending items' = before ++ e.pending around :: behind ∧
      ∀ pending ∈ before ++ behind, ¬ pending.module.IsWithin (e.module around) := by
  induction h with
  | here site before behind =>
    obtain ⟨hbefore, hbehind⟩ := notMem_declared hcount List.mem_cons_self
    refine ⟨site.pending before, site.pending behind, site.pending_module _ _ _ _ e.ordinary,
      site.pending_declaration _ _ _ e.ordinary_declaration, fun pending hpending hwithin => ?_⟩
    rcases List.mem_append.1 hpending with hpending | hpending
    · exact hbefore
        (mem_declared_of_mem_pendingModules hpending hwithin (not_within_module site))
    · exact hbehind
        (mem_declared_of_mem_pendingModules hpending hwithin (not_within_module site))
  | @inside site around head items items' before behind htest hmoves ih =>
    have hsite := (Moves.inside before behind htest hmoves).not_within
    obtain ⟨hbefore, hbehind⟩ :=
      notMem_declared hcount (List.mem_cons_of_mem _ hmoves.mem_declared)
    obtain ⟨outer, inner, hitems, hitems', hother⟩ := ih (count_inside hcount)
    refine ⟨site.pending before ++ outer, inner ++ site.pending behind, ?_, ?_,
      fun pending hpending hwithin => ?_⟩
    · rw [site.pending_module _ _ _ _ htest, hitems]
      simp only [List.append_assoc]
    · rw [site.pending_module _ _ _ _ htest, hitems']
      simp only [List.append_assoc, List.cons_append]
    · simp only [List.mem_append] at hpending
      rcases hpending with (hpending | hpending) | hpending | hpending
      · exact hbefore (mem_declared_of_mem_pendingModules hpending hwithin hsite)
      · exact hother pending (List.mem_append_left _ hpending) hwithin
      · exact hother pending (List.mem_append_right _ hpending) hwithin
      · exact hbehind (mem_declared_of_mem_pendingModules hpending hwithin hsite)

end Moves

end Extraction

/-! ### Spellings of directories -/

open Location

/-- The second module is the first one, looked for behind another spelling of a directory. -/
structure PendingModule.Respells (pending pending' : PendingModule) : Prop where
  module : pending.module = pending'.module
  gates : pending.gates = pending'.gates
  places : List.Forall₂ Location.Respells pending.places pending'.places

theorem modulePlaces_respells {directory directory' : String} (h : SameTrail directory directory')
    (head : ModuleHead) :
    List.Forall₂ Location.Respells (modulePlaces directory head) (modulePlaces directory' head) := by
  unfold modulePlaces
  split
  · next path _ => exact .cons ⟨directory, directory', path, h, rfl, rfl⟩ .nil
  · exact .cons ⟨directory, directory', _, h, rfl, rfl⟩
      (.cons ⟨_, _, _, h.join _, rfl, rfl⟩ .nil)

mutual

theorem Item.pending_respells {directory directory' : String} (h : SameTrail directory directory')
    (module : ModulePath) (outer : List String) (item : Item) :
    List.Forall₂ PendingModule.Respells (Item.pending module directory outer item)
      (Item.pending module directory' outer item) := by
  cases item with
  | inlineModule head items =>
    rw [Item.pending, Item.pending]
    split
    · exact .nil
    · exact pendingModules_respells (h.join _) _ _ items
  | fileModule head =>
    rw [Item.pending, Item.pending]
    split
    · exact .nil
    · exact .cons ⟨rfl, rfl, modulePlaces_respells h head⟩ .nil
  | _ => exact .nil

/-- The modules without a body are the same behind another spelling of the directory. -/
theorem pendingModules_respells {directory directory' : String}
    (h : SameTrail directory directory') (module : ModulePath) (outer : List String)
    (items : List Item) :
    List.Forall₂ PendingModule.Respells (pendingModules module directory outer items)
      (pendingModules module directory' outer items) := by
  cases items with
  | nil => exact .nil
  | cons item rest =>
    exact List.rel_append (Item.pending_respells h module outer item)
      (pendingModules_respells h module outer rest)

end

/-- The second visit, on the second disk, is the first one behind another spelling of a directory. -/
structure Visit.Matches (after : FileSystem) (visit visit' : Visit) : Prop where
  module : visit.module = visit'.module
  gates : visit.gates = visit'.gates
  directory : SameTrail visit.directory visit'.directory
  path : visit'.path = visit.path ∨
    Location.Respells visit.path visit'.path ∧ after.isFile visit'.path = true

namespace Visit.Matches

variable {after : FileSystem} {visit visit' : Visit}

theorem refl (visit : Visit) : visit.Matches after visit :=
  ⟨rfl, rfl, .refl _, .inl rfl⟩

/-- Both spellings lead to the same source. -/
theorem source_eq (h : visit.Matches after visit') {source : SourceText}
    (hsource : after.source visit.path = .ok source) :
    after.source visit'.path = .ok source := by
  rcases h.path with heq | ⟨hrespells, hfile⟩
  · rw [heq, hsource]
  · have hread := FileSystem.read_eq_of_respells hrespells (FileSystem.isFile_of_source hsource)
      hfile
    exact FileSystem.source_of_read_eq hread hsource

theorem pending (h : visit.Matches after visit') (source : SourceText) :
    List.Forall₂ PendingModule.Respells (visit.pending source) (visit'.pending source) := by
  have hgates : (visit.file source).gates = (visit'.file source).gates := by
    rw [file, file, h.gates]
  rw [Visit.pending, Visit.pending, ← h.module, ← hgates]
  exact pendingModules_respells h.directory _ _ _

theorem parts (h : visit.Matches after visit') (source : SourceText) :
    (visit.file source).parts = (visit'.file source).parts := by
  simp only [file, SourceFile.parts, h.module, h.gates]

end Visit.Matches

/-! ### The disks before and after -/

/-- What becomes of a file that is visited on the first disk: `after` is the second disk, and
`declared` are the modules that the crate declares there, as often as it does. -/
inductive Extraction.Edits (e : Extraction) (after : FileSystem) (root : String)
    (declared : List ModulePath) (visit : Visit) (source : SourceText) : Prop
  | untouched : after.source visit.path = .ok source → Edits e after root declared visit source
  /-- The module is moved to a file, which the loader finds however it spells the way there. The
  declaration is the only one of the module. -/
  | moved {items' : List Item} {around : Site} :
    e.Moves (visit.site source) source.items items' around →
    after.source visit.path = .ok { source with items := items' } →
    after.source (e.place around.directory) = .ok e.source →
    (∀ place, after.Asks (.root root) place → Location.Respells (e.place around.directory) place →
      after.isFile place = true) →
    declared.count (e.module around) = 1 → Edits e after root declared visit source

/-- The second disk is the first one with the module in a file of its own. -/
structure Extraction.Replaces (e : Extraction) (before after : FileSystem) (root : String)
    (declared : List ModulePath) : Prop where
  edits : ∀ visit source, before.Visits (.root root) visit →
    before.source visit.path = .ok source → e.Edits after root declared visit source
  /-- What the loader asks for is there if it was before. -/
  probes : ∀ place place', before.Asks (.root root) place → after.Asks (.root root) place' →
    Location.Respells place place' → after.isFile place' = before.isFile place

/-! ### What the loader finds -/

namespace FileSystem

variable {before after : FileSystem}

theorem mem_askedFor_cons (fs : FileSystem) (place : String) (rest : List String) :
    place ∈ fs.askedFor (place :: rest) := by
  rw [askedFor]
  split <;> exact List.mem_cons_self

theorem rel_find? {places places' : List String}
    (h : List.Forall₂ Location.Respells places places')
    (hprobe : ∀ place ∈ before.askedFor places, ∀ place' ∈ after.askedFor places',
      Location.Respells place place' → after.isFile place' = before.isFile place) :
    Option.Rel (fun place place' => Location.Respells place place' ∧ after.isFile place' = true)
      (places.find? before.isFile) (places'.find? after.isFile) := by
  induction h with
  | nil => exact .none
  | @cons place place' rest rest' hplace _ ih =>
    have hsame := hprobe place (mem_askedFor_cons before place rest) place'
      (mem_askedFor_cons after place' rest') hplace
    cases hfile : before.isFile place with
    | true =>
      rw [hfile] at hsame
      rw [List.find?_cons_of_pos hfile, List.find?_cons_of_pos hsame]
      exact .some ⟨hplace, hsame⟩
    | false =>
      rw [hfile] at hsame
      have hnot : ¬ before.isFile place = true := by simp [hfile]
      have hnot' : ¬ after.isFile place' = true := by simp [hsame]
      rw [List.find?_cons_of_neg hnot, List.find?_cons_of_neg hnot']
      refine ih fun other hother other' hother' => hprobe other ?_ other' ?_
      · rw [askedFor, if_neg hnot]
        exact List.mem_cons_of_mem _ hother
      · rw [askedFor, if_neg hnot']
        exact List.mem_cons_of_mem _ hother'

theorem asks_of_pending {fs : FileSystem} {start visit : Visit} {source : SourceText}
    (hvisit : fs.Visits start visit) (hsource : fs.source visit.path = .ok source)
    {pending : PendingModule} (hpending : pending ∈ visit.pending source) {place : String}
    (hplace : place ∈ fs.askedFor pending.places) : fs.Asks start place := by
  refine ⟨visit, hvisit, ?_⟩
  rw [probes_of_source hsource]
  exact List.mem_flatMap.2 ⟨pending, hpending, hplace⟩

/-- With more depth the same files are loaded. -/
theorem filesFrom_mono {fs : FileSystem} {depth depth' : Nat} (hdepth : depth ≤ depth')
    {visit : Visit} {files : List SourceFile} (h : fs.filesFrom depth visit = .ok files) :
    fs.filesFrom depth' visit = .ok files := by
  induction depth generalizing depth' visit files with
  | zero => cases h
  | succ depth ih =>
    obtain ⟨more, rfl⟩ : ∃ more, depth' = more + 1 := ⟨depth' - 1, by omega⟩
    obtain ⟨source, inner, hsource, hinner, rfl⟩ := filesFrom_eq_ok_iff.1 h
    exact filesFrom_eq_ok_iff.2 ⟨source, inner, hsource,
      hinner.imp fun next files hfiles => ih (by omega) hfiles, rfl⟩

/-- Where a part of a module comes from elsewhere, the module is declared in one of the files. -/
theorem mem_declared_of_mem_filesFrom {fs : FileSystem} {around : ModulePath} {depth : Nat}
    {visit : Visit} {files : List SourceFile} (h : fs.filesFrom depth visit = .ok files) {part : Part}
    (hpart : part ∈ files.flatMap SourceFile.parts) (hwithin : part.module.IsWithin around)
    (hvisit : ¬ visit.module.IsWithin around) : around ∈ files.flatMap SourceFile.declared := by
  induction depth generalizing visit files with
  | zero => cases h
  | succ depth ih =>
    obtain ⟨source, inner, hsource, hinner, rfl⟩ := filesFrom_eq_ok_iff.1 h
    rw [List.flatMap_cons] at hpart ⊢
    rcases List.mem_append.1 hpart with hpart | hpart
    · exact List.mem_append_left _ (SourceFile.mem_declared_of_mem_parts hpart hwithin hvisit)
    · obtain ⟨file, hfile, hpart⟩ := List.mem_flatMap.1 hpart
      obtain ⟨files, hfiles, hfile⟩ := List.mem_flatten.1 hfile
      obtain ⟨next, hnext, hload⟩ := exists_of_mem_forall₂ hinner.flip hfiles
      by_cases hmodule : next.module.IsWithin around
      · rw [steps_of_source hsource] at hnext
        obtain ⟨pending, hpending, hfollow⟩ := List.mem_filterMap.1 hnext
        obtain ⟨place, -, rfl⟩ := Option.map_eq_some_iff.1 hfollow
        exact List.mem_append_left _
          (mem_declared_of_mem_pendingModules hpending hmodule hvisit)
      · have hmem := ih hload (List.mem_flatMap.2 ⟨file, hfile, hpart⟩) hmodule
        obtain ⟨file', hfile', haround⟩ := List.mem_flatMap.1 hmem
        exact List.mem_append_right _ (List.mem_flatMap.2
          ⟨file', List.mem_flatten.2 ⟨files, hfiles, hfile'⟩, haround⟩)

end FileSystem

/-! ### The files before and after -/

theorem exists_inner {before after : FileSystem} {depth depth' : Nat} {nexts nexts' : List Visit}
    (hmatches : List.Forall₂ (Visit.Matches after) nexts nexts') {inner : List (List SourceFile)}
    (hinner : List.Forall₂ (fun next files => before.filesFrom depth next = .ok files) nexts inner)
    (hone : ∀ next ∈ nexts, ∀ next' ∈ nexts', next.Matches after next' → ∀ files ∈ inner,
      before.filesFrom depth next = .ok files → ∃ files', after.filesFrom depth' next' = .ok files' ∧
        SameParts (files.flatMap SourceFile.parts) (files'.flatMap SourceFile.parts)) :
    ∃ inner', List.Forall₂ (fun next files => after.filesFrom depth' next = .ok files) nexts' inner' ∧
      SameParts (inner.flatten.flatMap SourceFile.parts)
        (inner'.flatten.flatMap SourceFile.parts) := by
  induction hmatches generalizing inner with
  | nil =>
    cases hinner
    exact ⟨[], .nil, .refl _⟩
  | cons hmatch _ ih =>
    obtain ⟨files, rest, hfiles, hrest, rfl⟩ := List.forall₂_cons_left_iff.1 hinner
    obtain ⟨files', hfiles', hparts⟩ := hone _ List.mem_cons_self _ List.mem_cons_self hmatch files
      List.mem_cons_self hfiles
    obtain ⟨rest', hrest', hparts'⟩ := ih hrest fun next hnext next' hnext' hmatch files hmem =>
      hone next (List.mem_cons_of_mem _ hnext) next' (List.mem_cons_of_mem _ hnext') hmatch files
        (List.mem_cons_of_mem _ hmem)
    refine ⟨files' :: rest', .cons hfiles' hrest', ?_⟩
    rw [List.flatten_cons, List.flatten_cons, List.flatMap_append, List.flatMap_append]
    exact hparts.append hparts'

namespace Extraction

variable {e : Extraction} {before after : FileSystem} {root : String} {declared : List ModulePath}

/-- A module without a body leads to the same file, if to any. -/
theorem Replaces.rel_follow? (h : e.Replaces before after root declared) {visit visit' : Visit}
    {source source' : SourceText} (hvisit : before.Visits (.root root) visit)
    (hvisit' : after.Visits (.root root) visit') (hsource : before.source visit.path = .ok source)
    (hsource' : after.source visit'.path = .ok source') {pending pending' : PendingModule}
    (hpending : pending ∈ visit.pending source) (hpending' : pending' ∈ visit'.pending source')
    (hrespells : pending.Respells pending') :
    Option.Rel (Visit.Matches after) (before.follow? pending) (after.follow? pending') := by
  have hfind := FileSystem.rel_find? hrespells.places fun place hplace place' hplace' =>
    h.probes place place' (FileSystem.asks_of_pending hvisit hsource hpending hplace)
      (FileSystem.asks_of_pending hvisit' hsource' hpending' hplace')
  rw [FileSystem.follow?, FileSystem.follow?]
  generalize pending.places.find? before.isFile = found at hfind ⊢
  generalize pending'.places.find? after.isFile = found' at hfind ⊢
  cases hfind with
  | none => exact .none
  | some hplace =>
    exact .some ⟨hrespells.module, hrespells.gates, hplace.1.sameTrail.childDirectory, .inr hplace⟩

/-- The files from one visit on are matched by files from the other. -/
def Matched (before after : FileSystem) (root : String) (declared : List ModulePath)
    (depth : Nat) : Prop :=
  ∀ ⦃visit visit' : Visit⦄ ⦃files : List SourceFile⦄, before.Visits (.root root) visit →
    after.Visits (.root root) visit' → visit.Matches after visit' →
    before.filesFrom depth visit = .ok files →
    (∀ module, (files.flatMap SourceFile.declared).count module ≤ declared.count module) →
    ∃ files', after.filesFrom (2 * depth) visit' = .ok files' ∧
      SameParts (files.flatMap SourceFile.parts) (files'.flatMap SourceFile.parts)

theorem count_le_of_mem {inner : List (List SourceFile)} {files : List SourceFile}
    (hfiles : files ∈ inner) (module : ModulePath) :
    (files.flatMap SourceFile.declared).count module ≤
      (inner.flatten.flatMap SourceFile.declared).count module := by
  obtain ⟨first, last, rfl⟩ := List.append_of_mem hfiles
  simp only [List.flatten_append, List.flatten_cons, List.flatMap_append, List.count_append]
  omega

/-- What holds of single visits holds of those to which modules without a body lead. -/
theorem Replaces.exists_pending (h : e.Replaces before after root declared) {depth depth' : Nat}
    (hmatched : Matched before after root declared depth) (hdepth : 2 * depth ≤ depth')
    {visit visit' : Visit} {source source' : SourceText}
    (hvisit : before.Visits (.root root) visit) (hvisit' : after.Visits (.root root) visit')
    (hsource : before.source visit.path = .ok source)
    (hsource' : after.source visit'.path = .ok source') {list list' : List PendingModule}
    (hlist : list ⊆ visit.pending source) (hlist' : list' ⊆ visit'.pending source')
    (hrespells : List.Forall₂ PendingModule.Respells list list') {inner : List (List SourceFile)}
    (hinner : List.Forall₂ (fun next files => before.filesFrom depth next = .ok files)
      (list.filterMap before.follow?) inner)
    (hcount : ∀ module, (inner.flatten.flatMap SourceFile.declared).count module ≤
      declared.count module) :
    ∃ inner', List.Forall₂ (fun next files => after.filesFrom depth' next = .ok files)
        (list'.filterMap after.follow?) inner' ∧
      SameParts (inner.flatten.flatMap SourceFile.parts)
        (inner'.flatten.flatMap SourceFile.parts) := by
  have hmatches : List.Forall₂ (Visit.Matches after) (list.filterMap before.follow?)
      (list'.filterMap after.follow?) := by
    have hfollow := forall₂_imp_of_mem hrespells fun pending hpending pending' hpending' hone =>
      h.rel_follow? hvisit hvisit' hsource hsource' (hlist hpending) (hlist' hpending') hone
    exact List.rel_filterMap (fun _ _ hrel => hrel) hfollow
  refine exists_inner hmatches hinner fun next hnext next' hnext' hmatch files hmem hfiles => ?_
  have hstep : next ∈ before.steps visit := by
    rw [FileSystem.steps_of_source hsource]
    obtain ⟨pending, hpending, hfollow⟩ := List.mem_filterMap.1 hnext
    exact List.mem_filterMap.2 ⟨pending, hlist hpending, hfollow⟩
  have hstep' : next' ∈ after.steps visit' := by
    rw [FileSystem.steps_of_source hsource']
    obtain ⟨pending, hpending, hfollow⟩ := List.mem_filterMap.1 hnext'
    exact List.mem_filterMap.2 ⟨pending, hlist' hpending, hfollow⟩
  obtain ⟨files', hfiles', hparts⟩ := hmatched (hvisit.step hstep) (hvisit'.step hstep') hmatch
    hfiles fun module => Nat.le_trans (count_le_of_mem hmem module) (hcount module)
  exact ⟨files', FileSystem.filesFrom_mono hdepth hfiles', hparts⟩

theorem Replaces.matched_untouched (h : e.Replaces before after root declared) {depth : Nat}
    (hmatched : Matched before after root declared depth) {visit visit' : Visit}
    {source : SourceText} {inner : List (List SourceFile)}
    (hvisit : before.Visits (.root root) visit) (hvisit' : after.Visits (.root root) visit')
    (hmatch : visit.Matches after visit') (hsource : before.source visit.path = .ok source)
    (hinner : List.Forall₂ (fun next files => before.filesFrom depth next = .ok files)
      (before.steps visit) inner)
    (hcount : ∀ module, (inner.flatten.flatMap SourceFile.declared).count module ≤
      declared.count module) (hafter : after.source visit.path = .ok source) :
    ∃ files', after.filesFrom (2 * depth + 2) visit' = .ok files' ∧
      SameParts ((visit.file source :: inner.flatten).flatMap SourceFile.parts)
        (files'.flatMap SourceFile.parts) := by
  have hsource' := hmatch.source_eq hafter
  rw [FileSystem.steps_of_source hsource] at hinner
  obtain ⟨inner', hinner', hparts⟩ := h.exists_pending hmatched (Nat.le_add_right _ 1) hvisit
    hvisit' hsource hsource' (List.Subset.refl _) (List.Subset.refl _) (hmatch.pending source)
    hinner hcount
  refine ⟨visit'.file source :: inner'.flatten, FileSystem.filesFrom_eq_ok_iff.2
    ⟨source, inner', hsource', ?_, rfl⟩, ?_⟩
  · rwa [FileSystem.steps_of_source hsource']
  · rw [List.flatMap_cons, List.flatMap_cons, hmatch.parts source]
    exact (SameParts.refl _).append hparts

/-! ### The file of the module -/

section Body

variable {around : Site} {place : String}

theorem gates_append (attributes attributes' : List Attribute) :
    gates (attributes ++ attributes') = gates attributes ++ gates attributes' := by
  rw [gates, List.filter_append, List.map_append]
  rfl

/-- The visit of the file of the module, however it is spelled. -/
def visit (e : Extraction) (around : Site) (place : String) : Visit :=
  (e.pending around).visit place

theorem gates_visit :
    (e.visit around place).gates ++ gates e.inner = (around.inside e.head).gates := by
  show (around.gates ++ gates e.outer) ++ gates e.inner = around.gates ++ gates (e.outer ++ e.inner)
  rw [gates_append, List.append_assoc]

/-- The file of the module adds what was moved. -/
theorem parts_visit : ((e.visit around place).file e.source).parts = e.parts around := by
  show Part.body _ :: partsOf (e.module around) ((e.visit around place).gates ++ gates e.inner) true
    e.body = _
  rw [gates_visit]
  rfl

/-- The modules without a body that were moved are found in the same places. -/
theorem pending_visit (hplace : Location.Respells (e.place around.directory) place) :
    List.Forall₂ PendingModule.Respells ((around.inside e.head).pending e.body)
      ((e.visit around place).pending e.source) := by
  have hdirectory : SameTrail (around.inside e.head).directory (childDirectory place) := by
    have hmodule := childDirectory_module around.directory e.named.1 e.notMod e.named.2
    have hhead := e.innerDirectory_head around.directory
    show SameTrail (innerDirectory around.directory e.head) _
    rw [hhead]
    exact hmodule.symm.trans hplace.sameTrail.childDirectory
  show List.Forall₂ _ _ (pendingModules (e.module around) (childDirectory place)
    ((e.visit around place).gates ++ gates e.inner) e.body)
  rw [gates_visit]
  exact pendingModules_respells hdirectory _ _ e.body

end Body

theorem forall₂_append_left {α β : Type} {R : α → β → Prop} {as as' : List α} {bs : List β}
    (h : List.Forall₂ R (as ++ as') bs) :
    ∃ first last, bs = first ++ last ∧ List.Forall₂ R as first ∧ List.Forall₂ R as' last := by
  induction as generalizing bs with
  | nil => exact ⟨[], bs, rfl, .nil, h⟩
  | cons a rest ih =>
    obtain ⟨b, bs', hab, hrest, rfl⟩ := List.forall₂_cons_left_iff.1 h
    obtain ⟨first, last, rfl, hfirst, hlast⟩ := ih hrest
    exact ⟨b :: first, last, rfl, .cons hab hfirst, hlast⟩

/-- Where a module is declared in none of the files further on, no parts of it come from those to
which modules elsewhere lead. -/
theorem not_within_of_notMem {depth : Nat} {list : List PendingModule}
    {inner all : List (List SourceFile)} {module : ModulePath}
    (hinner : List.Forall₂ (fun next files => before.filesFrom depth next = .ok files)
      (list.filterMap before.follow?) inner)
    (hlist : ∀ pending ∈ list, ¬ pending.module.IsWithin module) (hall : inner ⊆ all)
    (hnowhere : module ∉ all.flatten.flatMap SourceFile.declared) {part : Part}
    (hpart : part ∈ inner.flatten.flatMap SourceFile.parts) : ¬ part.module.IsWithin module := by
  intro hwithin
  obtain ⟨file, hfile, hpart⟩ := List.mem_flatMap.1 hpart
  obtain ⟨files, hfiles, hfile⟩ := List.mem_flatten.1 hfile
  obtain ⟨next, hnext, hload⟩ := exists_of_mem_forall₂ hinner.flip hfiles
  obtain ⟨pending, hpending, hfollow⟩ := List.mem_filterMap.1 hnext
  obtain ⟨place, -, rfl⟩ := Option.map_eq_some_iff.1 hfollow
  obtain ⟨other, hother, hdeclared⟩ := List.mem_flatMap.1 (FileSystem.mem_declared_of_mem_filesFrom
    hload (List.mem_flatMap.2 ⟨file, hfile, hpart⟩) hwithin (hlist pending hpending))
  exact hnowhere (List.mem_flatMap.2
    ⟨other, List.mem_flatten.2 ⟨files, hall hfiles, hother⟩, hdeclared⟩)

/-- The declaration that is left leads to the file of the module. -/
theorem exists_visit {around : Site} {visit' : Visit} {source' : SourceText}
    (hvisit' : after.Visits (.root root) visit') (hsource' : after.source visit'.path = .ok source')
    (hbody : after.source (e.place around.directory) = .ok e.source)
    (hfound : ∀ place, after.Asks (.root root) place →
      Location.Respells (e.place around.directory) place → after.isFile place = true)
    {pending' : PendingModule} (hpending' : pending' ∈ visit'.pending source')
    (hrespells : (e.pending around).Respells pending') :
    ∃ place, Location.Respells (e.place around.directory) place ∧
      after.follow? pending' = some (e.visit around place) ∧
      after.Visits (.root root) (e.visit around place) ∧
      after.source (e.visit around place).path = .ok e.source := by
  obtain ⟨module, places, outer⟩ := pending'
  obtain ⟨rfl, rfl, hplaces⟩ := hrespells
  rw [pending, e.modulePlaces_declaration] at hplaces
  obtain ⟨place, rest, hplace, -, rfl⟩ := List.forall₂_cons_left_iff.1 hplaces
  have hfile := hfound place (FileSystem.asks_of_pending hvisit' hsource' hpending'
    (FileSystem.mem_askedFor_cons after place rest)) hplace
  have hfollow : after.follow? ⟨(e.pending around).module, place :: rest, (e.pending around).gates⟩ =
      some (e.visit around place) := by
    rw [FileSystem.follow?, List.find?_cons_of_pos hfile]
    rfl
  have hread := FileSystem.read_eq_of_respells hplace (FileSystem.isFile_of_source hbody) hfile
  refine ⟨place, hplace, hfollow, hvisit'.step ?_, FileSystem.source_of_read_eq hread hbody⟩
  rw [FileSystem.steps_of_source hsource']
  exact List.mem_filterMap.2 ⟨_, hpending', hfollow⟩

/-- Parts that are moved behind parts of other modules leave the same parts for every module. -/
theorem sameParts_moved {around : Site} {own : Part}
    {front back first first' inner inner' last last' : List Part}
    (hother : ∀ part ∈ back ++ first, ¬ part.module.IsWithin (e.module around))
    (hfirst : SameParts first first') (hinner : SameParts inner inner')
    (hlast : SameParts last last') :
    SameParts ((own :: (front ++ e.parts around ++ back)) ++ (first ++ inner ++ last))
      ((own :: (front ++ back)) ++ (first' ++ (e.parts around ++ inner') ++ last')) := by
  have hmoved : SameParts (e.parts around ++ (back ++ first)) ((back ++ first') ++ e.parts around) :=
    (SameParts.comm (fun _ => within_of_mem_parts) hother).trans
      (((SameParts.refl back).append hfirst).append (.refl _))
  have hall := ((SameParts.refl (own :: front)).append (hmoved.append (hinner.append hlast)))
  simpa only [List.cons_append, List.append_assoc] using hall

section Moved

variable {depth : Nat} {visit visit' : Visit} {source : SourceText} {items' : List Item}
  {around : Site}

/-- If the module is declared once, it is so in the file that it is moved out of, and in no file
further on. -/
theorem Moves.declared_once {inner : List (List SourceFile)}
    (hmoves : e.Moves (visit.site source) source.items items' around)
    (honce : ((visit.file source :: inner.flatten).flatMap SourceFile.declared).count
      (e.module around) ≤ 1) :
    (visit.file source).declared.count (e.module around) ≤ 1 ∧
      e.module around ∉ inner.flatten.flatMap SourceFile.declared := by
  have hpos : 0 < (visit.file source).declared.count (e.module around) :=
    List.count_pos_iff.2 hmoves.mem_declared
  rw [List.flatMap_cons, List.count_append] at honce
  refine ⟨by omega, fun hmem => ?_⟩
  have hfurther := List.count_pos_iff.2 hmem
  omega

/-- What the file adds from which the module is moved, before and after. -/
theorem Moves.exists_parts (hmoves : e.Moves (visit.site source) source.items items' around)
    (hself : (visit.file source).declared.count (e.module around) ≤ 1)
    (hmatch : visit.Matches after visit') :
    ∃ own front back,
      (visit.file source).parts = own :: (front ++ e.parts around ++ back) ∧
      (visit'.file { source with items := items' }).parts = own :: (front ++ back) ∧
      ∀ part ∈ front ++ back, ¬ part.module.IsWithin (e.module around) := by
  obtain ⟨front, back, hparts, hparts', houtside⟩ := hmoves.parts_eq hself
  have houtline : ModuleBody.outline ⟨visit.module, source.items⟩ =
      ModuleBody.outline ⟨visit.module, items'⟩ := congrArg (ModuleBody.mk _) hmoves.outline_eq
  refine ⟨.body (ModuleBody.outline ⟨visit.module, source.items⟩), front, back,
    congrArg (_ :: ·) hparts, ?_, houtside⟩
  rw [← hmatch.parts, houtline]
  exact congrArg (_ :: ·) hparts'

/-- From the file of the module those files are loaded to which the module itself has led. -/
theorem Replaces.exists_files_visit (h : e.Replaces before after root declared)
    (hmatched : Matched before after root declared depth)
    (hvisit : before.Visits (.root root) visit) (hsource : before.source visit.path = .ok source)
    (hlist : (around.inside e.head).pending e.body ⊆ visit.pending source) {place : String}
    (hplace : Location.Respells (e.place around.directory) place)
    (hvisitBody : after.Visits (.root root) (e.visit around place))
    (hsourceBody : after.source (e.visit around place).path = .ok e.source)
    {inner : List (List SourceFile)}
    (hinner : List.Forall₂ (fun next files => before.filesFrom depth next = .ok files)
      (((around.inside e.head).pending e.body).filterMap before.follow?) inner)
    (hcount : ∀ module, (inner.flatten.flatMap SourceFile.declared).count module ≤
      declared.count module) :
    ∃ inner' : List (List SourceFile), after.filesFrom (2 * depth + 1) (e.visit around place) =
        .ok ((e.visit around place).file e.source :: inner'.flatten) ∧
      SameParts (inner.flatten.flatMap SourceFile.parts)
        (inner'.flatten.flatMap SourceFile.parts) := by
  obtain ⟨inner', hinner', hparts⟩ := h.exists_pending hmatched (Nat.le_refl _) hvisit hvisitBody
    hsource hsourceBody hlist (List.Subset.refl _) (pending_visit hplace) hinner hcount
  refine ⟨inner', FileSystem.filesFrom_eq_ok_iff.2 ⟨e.source, inner', hsourceBody, ?_, rfl⟩, hparts⟩
  rwa [FileSystem.steps_of_source hsourceBody]

theorem Replaces.matched_moved (h : e.Replaces before after root declared)
    (hmatched : Matched before after root declared depth) {inner : List (List SourceFile)}
    (hvisit : before.Visits (.root root) visit) (hvisit' : after.Visits (.root root) visit')
    (hmatch : visit.Matches after visit') (hsource : before.source visit.path = .ok source)
    (hinner : List.Forall₂ (fun next files => before.filesFrom depth next = .ok files)
      (before.steps visit) inner)
    (hcount : ∀ module, ((visit.file source :: inner.flatten).flatMap SourceFile.declared).count
      module ≤ declared.count module)
    (hmoves : e.Moves (visit.site source) source.items items' around)
    (hafter : after.source visit.path = .ok { source with items := items' })
    (hbody : after.source (e.place around.directory) = .ok e.source)
    (hfound : ∀ place, after.Asks (.root root) place →
      Location.Respells (e.place around.directory) place → after.isFile place = true)
    (honce : declared.count (e.module around) = 1) :
    ∃ files', after.filesFrom (2 * depth + 2) visit' = .ok files' ∧
      SameParts ((visit.file source :: inner.flatten).flatMap SourceFile.parts)
        (files'.flatMap SourceFile.parts) := by
  have hsource' := hmatch.source_eq hafter
  obtain ⟨hself, hnowhere⟩ := hmoves.declared_once (honce ▸ hcount (e.module around))
  obtain ⟨own, front, back, hpartsBefore, hpartsAfter, houtside⟩ := hmoves.exists_parts hself hmatch
  obtain ⟨first, last, hpending, hpending', hother⟩ := hmoves.pending_eq hself
  replace hpending : visit.pending source =
    first ++ (around.inside e.head).pending e.body ++ last := hpending
  -- the visits to which the file leads, before and after
  rw [FileSystem.steps_of_source hsource, hpending, List.filterMap_append,
    List.filterMap_append] at hinner
  obtain ⟨_, innerLast, rfl, hinner, hinnerLast⟩ := forall₂_append_left hinner
  obtain ⟨innerFirst, innerBody, rfl, hinnerFirst, hinnerBody⟩ := forall₂_append_left hinner
  have hrespells := hmatch.pending { source with items := items' }
  rw [show visit.pending { source with items := items' } = _ from hpending'] at hrespells
  obtain ⟨first', rest', hlist', hfirst', hrest'⟩ := forall₂_append_left hrespells
  obtain ⟨pending', last', hdeclaration, hlast', rfl⟩ := List.forall₂_cons_left_iff.1 hrest'
  have hmem : pending' ∈ visit'.pending { source with items := items' } := by
    rw [hlist']
    exact List.mem_append_right _ List.mem_cons_self
  obtain ⟨place, hplace, hfollow, hvisitBody, hsourceBody⟩ :=
    exists_visit hvisit' hsource' hbody hfound hmem hdeclaration
  -- the files of each of the three kinds of visits
  simp only [List.flatMap_cons, List.flatten_append, List.flatMap_append, List.count_append]
    at hcount
  obtain ⟨innerFirst', hinnerFirst', hpartsFirst⟩ := h.exists_pending hmatched
    (Nat.le_add_right _ 1) hvisit hvisit' hsource hsource'
    (fun _ hmem => hpending ▸ List.mem_append_left _ (List.mem_append_left _ hmem))
    (fun _ hmem => hlist' ▸ List.mem_append_left _ hmem) hfirst' hinnerFirst
    fun module => by have := hcount module; omega
  obtain ⟨innerBody', hfilesBody, hpartsBody⟩ := h.exists_files_visit hmatched hvisit hsource
    (fun _ hmem => hpending ▸ List.mem_append_left _ (List.mem_append_right _ hmem)) hplace
    hvisitBody hsourceBody hinnerBody fun module => by have := hcount module; omega
  obtain ⟨innerLast', hinnerLast', hpartsLast⟩ := h.exists_pending hmatched
    (Nat.le_add_right _ 1) hvisit hvisit' hsource hsource'
    (fun _ hmem => hpending ▸ List.mem_append_right _ hmem)
    (fun _ hmem => hlist' ▸ List.mem_append_right _ (List.mem_cons_of_mem _ hmem)) hlast' hinnerLast
    fun module => by have := hcount module; omega
  refine ⟨_, FileSystem.filesFrom_eq_ok_iff.2 ⟨_, innerFirst' ++
    ((e.visit around place).file e.source :: innerBody'.flatten) :: innerLast', hsource', ?_, rfl⟩,
    ?_⟩
  · rw [FileSystem.steps_of_source hsource', hlist', List.filterMap_append,
      List.filterMap_cons_some hfollow]
    exact List.rel_append hinnerFirst' (.cons hfilesBody hinnerLast')
  have hout : ∀ part ∈ back ++ innerFirst.flatten.flatMap SourceFile.parts,
      ¬ part.module.IsWithin (e.module around) := by
    intro part hpart
    rcases List.mem_append.1 hpart with hpart | hpart
    · exact houtside part (List.mem_append_right _ hpart)
    · exact not_within_of_notMem hinnerFirst
        (fun pending hpending => hother pending (List.mem_append_left _ hpending))
        (fun _ hmem => List.mem_append_left _ (List.mem_append_left _ hmem)) hnowhere hpart
  rw [List.flatMap_cons, List.flatMap_cons, hpartsBefore, hpartsAfter]
  simpa only [List.flatten_append, List.flatten_cons, List.flatMap_append, List.flatMap_cons,
    parts_visit, List.append_assoc, List.cons_append] using
    sameParts_moved hout hpartsFirst hpartsBody hpartsLast

end Moved

/-- From matching visits matching files are loaded. -/
theorem Replaces.matched (h : e.Replaces before after root declared) (depth : Nat) :
    Matched before after root declared depth := by
  induction depth with
  | zero =>
    intro visit visit' files _ _ _ hfiles _
    cases hfiles
  | succ depth ih =>
    intro visit visit' files hvisit hvisit' hmatch hfiles hcount
    obtain ⟨source, inner, hsource, hinner, rfl⟩ := FileSystem.filesFrom_eq_ok_iff.1 hfiles
    cases h.edits visit source hvisit hsource with
    | untouched hafter =>
      refine h.matched_untouched ih hvisit hvisit' hmatch hsource hinner (fun module => ?_) hafter
      have hmodule := hcount module
      rw [List.flatMap_cons, List.count_append] at hmodule
      omega
    | moved hmoves hafter hbody hfound honce =>
      exact h.matched_moved ih hvisit hvisit' hmatch hsource hinner hcount hmoves hafter hbody
        hfound honce

/-! ### The crates before and after -/

/-- A module that is moved to a file of its own changes nothing.

If the crate is loaded from the first disk, with files nested at most so deeply, it is loaded from
the second one, where files are nested at most twice as deeply. Whatever extern crates are made
known then, every path in every module resolves to the same item, and under every configuration a
pass fails in the same way or reports the same enums, in some order. -/
theorem load_generate {depth : Nat} {crateName : String} {compilation : Compilation}
    (hload : Compilation.runOn (Compilation.loadWithin FileSystem.disk depth crateName root) before =
      (.ok compilation, before))
    (h : e.Replaces before after root compilation.declared) :
    ∃ compilation', (∀ depth', 2 * depth ≤ depth' →
        Compilation.runOn (Compilation.loadWithin FileSystem.disk depth' crateName root) after =
          (.ok compilation', after)) ∧
      ∀ externs : List (String × String),
        (∀ module path, (compilation'.addExterns externs).symbolTable.resolve module path =
          (compilation.addExterns externs).symbolTable.resolve module path) ∧
        ∀ configuration, SameReports ((compilation.addExterns externs).generate configuration)
          ((compilation'.addExterns externs).generate configuration) := by
  rw [Compilation.loadWithin_disk] at hload
  obtain ⟨files, hfiles, rfl⟩ : ∃ files, before.filesFrom depth (.root root) = .ok files ∧
      compilation = (Compilation.empty crateName).addFiles files := by
    cases hfiles : before.filesFrom depth (.root root) with
    | error failure => rw [hfiles] at hload; cases hload
    | ok files =>
      rw [hfiles] at hload
      exact ⟨files, rfl, (Except.ok.inj (Prod.mk.inj hload).1).symm⟩
  obtain ⟨files', hfiles', hparts⟩ := h.matched depth .start .start (.refl _) hfiles
    fun module => Nat.le_refl _
  refine ⟨(Compilation.empty crateName).addFiles files', fun depth' hdepth => ?_, fun externs => ?_⟩
  · rw [Compilation.loadWithin_disk, FileSystem.filesFrom_mono hdepth hfiles']
    rfl
  · have hexterns : (((Compilation.empty crateName).addFiles files).addExterns externs).externs =
        (((Compilation.empty crateName).addFiles files').addExterns externs).externs := by
      refine Compilation.externs_addExterns ?_ externs
      rfl
    have hsame : SameParts (((Compilation.empty crateName).addFiles files).addExterns externs).parts
        (((Compilation.empty crateName).addFiles files').addExterns externs).parts := by
      rw [Compilation.parts, Compilation.parts, Compilation.files_addExterns,
        Compilation.files_addExterns]
      exact hparts
    have hbodies := Compilation.sameBodies_of_sameParts hsame hexterns
    refine ⟨fun module path => (hbodies.resolve_eq module path).symm, fun configuration => ?_⟩
    refine Compilation.sameReports_of_sameParts hsame hexterns ?_ configuration
    rw [Compilation.crateName_addExterns, Compilation.crateName_addExterns]
    rfl

end Extraction

/-! ### A module with a file of its own -/

/-- The module `shapes`, in which there are a module without a body and an enum. -/
def shapes : Extraction where
  outer := []
  inner := [⟨.ofName "cfg", .list .parenthesis [.word "unix" .start]⟩]
  visibility := .inherited
  name := "shapes"
  body := [.fileModule ⟨[], .inherited, "round"⟩,
    .enumeration ⟨[], .everywhere, "Kind", [], [], [⟨[], "One", true⟩]⟩]
  ordinary := by decide
  unplaced := by decide
  named := by decide
  notMod := by decide

/-- A disk with these files, and an empty file for the module inside `shapes`. -/
def shapesDisk (files : List (String × String)) : FileSystem :=
  files.foldl (fun fs (name, text) => fs.put ["work", name] (.file text.toUTF8))
    (((FileSystem.ofWorking "work").put ["work", "shapes"] .directory).put
      ["work", "shapes", "round.rs"] (.file "".toUTF8))

/-- The module in braces. -/
def shapesInBraces : FileSystem :=
  shapesDisk
    [("lib.rs", "mod shapes \x7b #![cfg(unix)] mod round; pub enum Kind \x7b One \x7d \x7d")]

/-- The module in a file of its own. -/
def shapesInFile : FileSystem :=
  shapesDisk [
    ("lib.rs", "mod shapes;"),
    ("shapes.rs", "#![cfg(unix)]\nmod round;\npub enum Kind \x7b One \x7d\n")]

/-- The visit of the module inside `shapes`. -/
def roundVisit : Visit where
  path := "shapes/round.rs"
  module := ⟨["shapes", "round"]⟩
  directory := "shapes/round"
  gates := ["#[cfg (unix)]"]

/-- The visits before, each with its source. -/
def readsInBraces : List (Visit × SourceText) :=
  [(.root "lib.rs", ⟨[], [.inlineModule shapes.head shapes.body]⟩), (roundVisit, ⟨[], []⟩)]

/-- The visits after, each with its source. -/
def readsInFile : List (Visit × SourceText) :=
  [(.root "lib.rs", ⟨[], [.fileModule shapes.declaration]⟩),
    (⟨"shapes.rs", ⟨["shapes"]⟩, "shapes", []⟩, shapes.source), (roundVisit, ⟨[], []⟩)]

/-- What loading meets on the two disks. -/
theorem met_shapes :
    (∀ disk ∈ [(shapesInBraces, readsInBraces), (shapesInFile, readsInFile)],
      ∀ read ∈ disk.2, (disk.1.source read.1.path).toOption = some read.2 ∧
        ∀ pending ∈ read.1.pending read.2,
          (∀ next ∈ disk.1.follow? pending, next ∈ disk.2.map Prod.fst) ∧
          ∀ place ∈ disk.1.askedFor pending.places, disk.1.isFile place = true) ∧
    ((Visit.root "lib.rs").pending ⟨[], [.inlineModule shapes.head shapes.body]⟩).filterMap
      shapesInBraces.follow? = [roundVisit] := by
  decide +kernel

theorem reads_shapesInBraces : shapesInBraces.Reads (.root "lib.rs") readsInBraces where
  start := List.mem_cons_self
  source read hread :=
    Except.toOption_eq_some.1 (met_shapes.1 (_, _) List.mem_cons_self read hread).1
  closed read hread pending hpending :=
    ((met_shapes.1 (_, _) List.mem_cons_self read hread).2 pending hpending).1

theorem reads_shapesInFile : shapesInFile.Reads (.root "lib.rs") readsInFile where
  start := List.mem_cons_self
  source read hread :=
    Except.toOption_eq_some.1 (met_shapes.1 (_, _) (List.mem_cons_of_mem _ List.mem_cons_self)
      read hread).1
  closed read hread pending hpending :=
    ((met_shapes.1 (_, _) (List.mem_cons_of_mem _ List.mem_cons_self) read hread).2 pending
      hpending).1

/-- Wherever the loader asks, before and after, there is a file. -/
theorem isFile_of_asks_shapes :
    (∀ place, shapesInBraces.Asks (.root "lib.rs") place → shapesInBraces.isFile place = true) ∧
      ∀ place, shapesInFile.Asks (.root "lib.rs") place → shapesInFile.isFile place = true := by
  refine ⟨fun place hasks => ?_, fun place hasks => ?_⟩
  · obtain ⟨read, hread, pending, hpending, hplace⟩ := reads_shapesInBraces.exists_of_asks hasks
    have hmet := met_shapes.1 (_, _) List.mem_cons_self read hread
    exact (hmet.2 pending hpending).2 place hplace
  · obtain ⟨read, hread, pending, hpending, hplace⟩ := reads_shapesInFile.exists_of_asks hasks
    have hmet := met_shapes.1 (_, _) (List.mem_cons_of_mem _ List.mem_cons_self) read hread
    exact (hmet.2 pending hpending).2 place hplace

/-- In the root file `shapes` is moved; the other file stays as it is. -/
theorem replaces_shapes : shapes.Replaces shapesInBraces shapesInFile "lib.rs"
    [⟨["shapes"]⟩, ⟨["shapes", "round"]⟩] where
  edits visit source hvisit hsource := by
    have hafter : ∀ read ∈ readsInFile, shapesInFile.source read.1.path = .ok read.2 :=
      reads_shapesInFile.source
    simp only [readsInFile, List.forall_mem_cons] at hafter
    obtain ⟨hroot, hshapes, hround, -⟩ := hafter
    obtain ⟨read, hread, rfl⟩ := reads_shapesInBraces.exists_of_visits hvisit
    obtain rfl : read.2 = source :=
      Except.ok.inj ((reads_shapesInBraces.source read hread).symm.trans hsource)
    simp only [readsInBraces, List.mem_cons, List.not_mem_nil, or_false] at hread
    rcases hread with rfl | rfl
    · exact .moved (.here _ [] []) hroot hshapes
        (fun place hasks _ => isFile_of_asks_shapes.2 place hasks) (by decide)
    · exact .untouched hround
  probes place place' hasks hasks' _ := by
    rw [isFile_of_asks_shapes.1 place hasks, isFile_of_asks_shapes.2 place' hasks']

theorem filesFrom_shapesInBraces : shapesInBraces.filesFrom 2 (.root "lib.rs") =
    .ok (readsInBraces.map fun read => read.1.file read.2) := by
  have hsource := reads_shapesInBraces.source
  simp only [readsInBraces, List.forall_mem_cons] at hsource
  obtain ⟨hroot, hround, -⟩ := hsource
  refine FileSystem.filesFrom_eq_ok_iff.2 ⟨_, [[roundVisit.file ⟨[], []⟩]], hroot, ?_, rfl⟩
  have hsteps : shapesInBraces.steps (.root "lib.rs") = [roundVisit] := by
    rw [FileSystem.steps_of_source hroot]
    exact met_shapes.2
  rw [hsteps]
  refine .cons (FileSystem.filesFrom_eq_ok_iff.2 ⟨_, [], hround, ?_, rfl⟩) .nil
  rw [FileSystem.steps_of_source hround]
  exact .nil

/-- It makes no difference whether `shapes` stands in braces. -/
theorem load_generate_of_shapes :
    ∃ compilation compilation',
      Compilation.runOn (Compilation.loadWithin FileSystem.disk 2 "demo" "lib.rs") shapesInBraces =
        (.ok compilation, shapesInBraces) ∧
      Compilation.runOn (Compilation.loadWithin FileSystem.disk 4 "demo" "lib.rs") shapesInFile =
        (.ok compilation', shapesInFile) ∧
      ∀ externs : List (String × String),
        (∀ module path, (compilation'.addExterns externs).symbolTable.resolve module path =
          (compilation.addExterns externs).symbolTable.resolve module path) ∧
        ∀ configuration, SameReports ((compilation.addExterns externs).generate configuration)
          ((compilation'.addExterns externs).generate configuration) := by
  have hload : Compilation.runOn
      (Compilation.loadWithin FileSystem.disk 2 "demo" "lib.rs") shapesInBraces =
        (.ok ((Compilation.empty "demo").addFiles
          (readsInBraces.map fun read => read.1.file read.2)), shapesInBraces) := by
    rw [Compilation.loadWithin_disk, filesFrom_shapesInBraces]
    rfl
  obtain ⟨compilation', hload', hsame⟩ := Extraction.load_generate hload replaces_shapes
  exact ⟨_, compilation', hload, hload' 4 (Nat.le_refl 4), hsame⟩

end DescriptionLookup
