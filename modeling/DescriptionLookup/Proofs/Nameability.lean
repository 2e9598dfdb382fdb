import DescriptionLookup.Proofs.Bodies
import DescriptionLookup.Proofs.Enclosed
import DescriptionLookup.Proofs.TestModules
import DescriptionLookup.Proofs.Verdicts

/-!
# Enums that the crate root can name

Code at the crate root can name an enum if it can see the enum and every module on the way there.
Whether it does is known for module paths only, of which one may be declared several times: under
different gates, for instance. So an enum is also skipped if some other declaration of a module on
its way is out of reach.

* `ModulePath.Denotes`, `Visibility.Reaches`: what a visibility means where it is written;
* `Enclosed.InReach`: the enum and the modules in braces around it can be seen from the root;
* `Enclosed.IsOvershadowed`: a module on its way is declared out of reach, be it elsewhere;
* `Candidate.isNameable_iff`: the two together decide whether an enum counts as nameable;
* `Selection.notNameable_iff`: which enums of a crate in one file are skipped for it.

`hidden_by_alternative` shows that the second condition is met without the first one.
-/

namespace DescriptionLookup

/-! ### Visibilities -/

namespace ModulePath

/-- Where a path leads that restricts a visibility in this module. -/
inductive Denotes (module : ModulePath) : List String → ModulePath → Prop
  | crate : Denotes module ["crate"] .root
  | self : Denotes module ["self"] module
  | super {scope : ModulePath} {name : String} : module = scope.child name →
    Denotes module ["super"] scope
  | outwards {names : List String} {scope : ModulePath} {name : String} :
    Denotes module names (scope.child name) → Denotes module (names ++ ["super"]) scope
  | inwards {names : List String} {scope : ModulePath} {name : String} :
    Denotes module names scope → name ≠ "super" →
    Denotes module (names ++ [name]) (scope.child name)

variable {module scope next : ModulePath}

theorem parent?_eq_some_iff : module.parent? = some scope ↔ ∃ name, module = scope.child name := by
  constructor
  · intro h
    rcases module with ⟨segments⟩
    cases segments using List.reverseRecOn with
    | nil => cases h
    | append_singleton segments name =>
      have hparent := parent?_child ⟨segments⟩ name
      exact ⟨name, by rw [← Option.some.inj (hparent.symm.trans h)]; rfl⟩
  · rintro ⟨name, rfl⟩
    exact parent?_child scope name

theorem go_eq_some_iff {name : String} : module.go name = some next ↔
    (name = "super" ∧ ∃ last, module = next.child last) ∨
      (name ≠ "super" ∧ next = module.child name) := by
  unfold go
  split
  · next h => simp [h, parent?_eq_some_iff]
  · next h => simp [h, eq_comm]

/-- Where the first word of a path leads that restricts a visibility. -/
def anchor? (module : ModulePath) (first : String) : Option ModulePath :=
  if first = "crate" then some .root
  else if first = "self" then some module
  else if first = "super" then module.parent?
  else none

theorem restriction?_cons (module : ModulePath) (absolute : Bool) (first : String)
    (rest : List String) : module.restriction? ⟨absolute, first :: rest⟩ =
      (module.anchor? first).bind (rest.foldlM go) := by
  by_cases hcrate : first = "crate"
  · subst hcrate
    rfl
  by_cases hself : first = "self"
  · subst hself
    rfl
  by_cases hsuper : first = "super"
  · subst hsuper
    rfl
  · simp [restriction?, anchor?, hcrate, hself, hsuper]

/-- A path goes on from its first word name by name. -/
theorem restriction?_append_singleton (module : ModulePath) (absolute : Bool) {names : List String}
    (hne : names ≠ []) (name : String) :
    module.restriction? ⟨absolute, names ++ [name]⟩ =
      (module.restriction? ⟨absolute, names⟩).bind (·.go name) := by
  obtain ⟨first, rest, rfl⟩ := List.exists_cons_of_ne_nil hne
  rw [List.cons_append, restriction?_cons, restriction?_cons, Option.bind_assoc]
  congr 1
  funext start
  simp

theorem denotes_of_anchor? {first : String} (h : module.anchor? first = some scope) :
    module.Denotes [first] scope := by
  unfold anchor? at h
  split_ifs at h with hcrate hself hsuper
  · cases h
    exact hcrate ▸ .crate
  · cases h
    exact hself ▸ .self
  · obtain ⟨name, hname⟩ := parent?_eq_some_iff.1 h
    exact hsuper ▸ .super hname

theorem Denotes.ne_nil {names : List String} (h : module.Denotes names scope) : names ≠ [] := by
  cases h <;> simp

theorem restriction?_eq_some_iff {absolute : Bool} {names : List String} :
    module.restriction? ⟨absolute, names⟩ = some scope ↔ module.Denotes names scope := by
  constructor
  · intro h
    induction names using List.reverseRecOn generalizing scope with
    | nil => cases h
    | append_singleton names name ih =>
      by_cases hne : names = []
      · subst hne
        rw [List.nil_append, restriction?_cons] at h
        obtain ⟨start, hstart, hend⟩ := Option.bind_eq_some_iff.1 h
        cases hend
        exact denotes_of_anchor? hstart
      · rw [restriction?_append_singleton module absolute hne] at h
        obtain ⟨between, hbetween, hgo⟩ := Option.bind_eq_some_iff.1 h
        rcases go_eq_some_iff.1 hgo with ⟨rfl, last, rfl⟩ | ⟨hname, rfl⟩
        · exact .outwards (ih hbetween)
        · exact .inwards (ih hbetween) hname
  · intro h
    induction h with
    | crate => rfl
    | self => rfl
    | super h =>
      show module.parent?.bind _ = _
      rw [parent?_eq_some_iff.2 ⟨_, h⟩]
      rfl
    | outwards h ih =>
      rw [restriction?_append_singleton module absolute h.ne_nil, ih]
      exact go_eq_some_iff.2 (.inl ⟨rfl, _, rfl⟩)
    | inwards h hname ih =>
      rw [restriction?_append_singleton module absolute h.ne_nil, ih]
      exact go_eq_some_iff.2 (.inr ⟨hname, rfl⟩)

end ModulePath

/-- The crate root can see what a module declares with this visibility. -/
inductive Visibility.Reaches (module : ModulePath) : Visibility → Prop
  | everywhere : Reaches module .everywhere
  | inherited : module = .root → Reaches module .inherited
  | within {path : Path} : module.Denotes path.segments .root → Reaches module (.within path)

namespace Visibility

variable {module : ModulePath} {v : Visibility}

theorem reachesRoot_iff : v.reachesRoot module = true ↔ v.Reaches module := by
  cases v with
  | everywhere => simp [reachesRoot, Reaches.everywhere]
  | inherited =>
    rw [reachesRoot, ModulePath.isRoot_iff]
    constructor
    · exact .inherited
    · rintro ⟨⟩
      assumption
  | within path =>
    obtain ⟨absolute, names⟩ := path
    simp only [reachesRoot, Option.any_eq_true, ModulePath.isRoot_iff, exists_eq_right,
      ModulePath.restriction?_eq_some_iff]
    constructor
    · exact fun h => .within h
    · rintro (_ | _ | h)
      exact h

theorem not_reachesRoot_iff : v.reachesRoot module = false ↔ ¬ v.Reaches module := by
  rw [← reachesRoot_iff, Bool.not_eq_true]

/-- What is for the crate can be seen from the root of the crate, -/
theorem reaches_crate (module : ModulePath) (absolute : Bool) :
    (Visibility.within ⟨absolute, ["crate"]⟩).Reaches module :=
  .within .crate

/-- what is for the module itself only if this is the root, -/
theorem reaches_self_iff {absolute : Bool} :
    (Visibility.within ⟨absolute, ["self"]⟩).Reaches module ↔ module = .root := by
  rw [← reachesRoot_iff]
  simp [reachesRoot, ModulePath.restriction?, ModulePath.isRoot_iff]

/-- and what is for the module around only if that is the root. -/
theorem reaches_super_iff {absolute : Bool} :
    (Visibility.within ⟨absolute, ["super"]⟩).Reaches module ↔
      ∃ name, module = ModulePath.root.child name := by
  rw [← reachesRoot_iff, ← ModulePath.parent?_eq_some_iff]
  simp [reachesRoot, ModulePath.restriction?, Option.any_eq_true, ModulePath.isRoot_iff]

instance : Decidable (v.Reaches module) := decidable_of_iff _ reachesRoot_iff

end Visibility

/-! ### Enums in a file -/

/-- The crate root can see the enum and every module in braces around it, each from the place of its
declaration. -/
structure Enclosed.InReach (e : Enclosed EnumDecl) : Prop where
  modules : ∀ n (h : n < e.around.length),
    e.around[n].visibility.Reaches (ModulePath.root.inside (e.around.take n))
  enum : e.content.visibility.Reaches (ModulePath.root.inside e.around)

theorem Enclosed.inReach_iff {e : Enclosed EnumDecl} : e.InReach ↔
    (∀ n (h : n < e.around.length),
      e.around[n].visibility.Reaches (ModulePath.root.inside (e.around.take n))) ∧
    e.content.visibility.Reaches (ModulePath.root.inside e.around) :=
  ⟨fun h => ⟨h.modules, h.enum⟩, fun h => ⟨h.1, h.2⟩⟩

instance (e : Enclosed EnumDecl) : Decidable e.InReach :=
  decidable_of_iff' _ Enclosed.inReach_iff

/-- Among the items a module is declared out of reach that has the path of a module around the enum.
It need not be that module. -/
def Enclosed.IsOvershadowed (items : List Item) (e : Enclosed EnumDecl) : Prop :=
  ∃ d ∈ modulesIn [] items,
    (ModulePath.root.inside e.around).IsWithin
      ((ModulePath.root.inside d.around).child d.content.name) ∧
    ¬ d.content.visibility.Reaches (ModulePath.root.inside d.around)

instance (items : List Item) (e : Enclosed EnumDecl) : Decidable (e.IsOvershadowed items) :=
  inferInstanceAs (Decidable (∃ d ∈ _, _))

theorem ModulePath.child_mem_chain_iff {module around : ModulePath} {name : String} :
    around.child name ∈ module.chain ↔ module.IsWithin (around.child name) := by
  refine ⟨isWithin_of_mem_chain, fun h => ?_⟩
  obtain ⟨rest, hrest⟩ := h
  have hlength : around.segments.length < module.segments.length := by
    rw [← hrest]
    simp [child]
  refine List.mem_map.2 ⟨around.segments.length, List.mem_range.2 hlength, ?_⟩
  rw [← hrest]
  simp [child, List.take_append, List.take_of_length_le]

/-- Fewer modules in braces make a module around. -/
theorem ModulePath.isWithin_inside {outer around : List ModuleHead} (module : ModulePath)
    (h : outer <+: around) : (module.inside around).IsWithin (module.inside outer) :=
  (List.prefix_append_right_inj _).2 (h.map _)

theorem hiddenModule?_eq_some_iff {place module : ModulePath} {e : Enclosed Item} :
    ModuleBody.hiddenModule? place e.content = some module ↔
      ∃ d, e.module? = some d ∧ place.child d.content.name = module ∧
        ¬ d.content.visibility.Reaches place := by
  simp only [← Visibility.not_reachesRoot_iff]
  obtain ⟨around, item⟩ := e
  cases item with
  | inlineModule head items =>
    by_cases hreach : head.visibility.reachesRoot place = true <;>
      simp [ModuleBody.hiddenModule?, Enclosed.module?, hreach]
  | fileModule head =>
    by_cases hreach : head.visibility.reachesRoot place = true <;>
      simp [ModuleBody.hiddenModule?, Enclosed.module?, hreach]
  | _ => simp [ModuleBody.hiddenModule?, Enclosed.module?]

/-- Pairs whose first parts are images are images of pairs. -/
theorem exists_map_prodMap {α β γ : Type} (f : α → β) {l : List α} {pairs : List (β × γ)}
    (h : pairs.map Prod.fst = l.map f) :
    ∃ originals : List (α × γ), originals.map Prod.fst = l ∧
      originals.map (Prod.map f id) = pairs := by
  induction l generalizing pairs with
  | nil => exact ⟨[], rfl, by simpa using h.symm⟩
  | cons a rest ih =>
    obtain ⟨pair, pairs, rfl, hpair, hrest⟩ := List.map_eq_cons_iff.1 h
    obtain ⟨originals, rfl, rfl⟩ := ih hrest
    exact ⟨(a, pair.2) :: originals, rfl, by simp [Prod.map, ← hpair]⟩

section OneFile

variable {compilation : Compilation} {file : SourceFile} {e : Enclosed EnumDecl}

/-- In a crate of one file the hidden modules are those that the file declares out of reach. -/
theorem Compilation.mem_hidden_iff (hfiles : compilation.files = [file]) {module : ModulePath} :
    module ∈ compilation.symbolTable.hidden ↔
      ∃ d ∈ modulesIn [] file.source.items,
        (file.module.inside d.around).child d.content.name = module ∧
        ¬ d.content.visibility.Reaches (file.module.inside d.around) := by
  have hbodies : compilation.bodies = file.bodies := by simp [bodies, hfiles]
  have hitems : module ∈ compilation.symbolTable.hidden ↔
      ∃ e ∈ enclosedItems [] file.source.items,
        ModuleBody.hiddenModule? (file.module.inside e.around) e.content = some module := by
    show module ∈ compilation.bodies.flatMap ModuleBody.hiddenModules ↔ _
    rw [hbodies, List.mem_flatMap]
    constructor
    · rintro ⟨body, hbody, hmem⟩
      obtain ⟨item, hitem, hhidden⟩ := List.mem_filterMap.1 hmem
      obtain ⟨e, he, hmodule, rfl⟩ := (exists_body_iff _).1 ⟨body, hbody, rfl, hitem⟩
      exact ⟨e, he, hmodule ▸ hhidden⟩
    · rintro ⟨e, he, hhidden⟩
      obtain ⟨body, hbody, hmodule, hitem⟩ := (exists_body_iff _).2 ⟨e, he, rfl, rfl⟩
      exact ⟨body, hbody, List.mem_filterMap.2 ⟨e.content, hitem, hmodule ▸ hhidden⟩⟩
  rw [hitems]
  constructor
  · rintro ⟨e, he, hhidden⟩
    obtain ⟨d, hd, hmodule, hreach⟩ := hiddenModule?_eq_some_iff.1 hhidden
    rw [← Enclosed.around_of_module? hd] at hmodule hreach
    exact ⟨d, List.mem_filterMap.2 ⟨e, he, hd⟩, hmodule, hreach⟩
  · rintro ⟨d, hmem, hmodule, hreach⟩
    obtain ⟨e, he, hd⟩ := List.mem_filterMap.1 hmem
    rw [Enclosed.around_of_module? hd] at hmodule hreach
    exact ⟨e, he, hiddenModule?_eq_some_iff.2 ⟨d, hd, hmodule, hreach⟩⟩

/-- What is inside modules is reachable if no declaration of one of these paths is out of reach. -/
theorem Compilation.isReachable_iff (hfiles : compilation.files = [file])
    (hroot : file.module = .root) :
    compilation.symbolTable.isReachable (ModulePath.root.inside e.around) = true ↔
      ¬ e.IsOvershadowed file.source.items := by
  simp only [SymbolTable.isReachable, List.all_eq_true, List.contains_eq_mem, Bool.not_eq_true',
    decide_eq_false_iff_not, mem_hidden_iff hfiles, hroot, Enclosed.IsOvershadowed]
  constructor
  · rintro h ⟨d, hd, hwithin, hreach⟩
    exact h _ (ModulePath.child_mem_chain_iff.2 hwithin) ⟨d, hd, rfl, hreach⟩
  · rintro h around haround ⟨d, hd, rfl, hreach⟩
    exact h ⟨d, hd, ModulePath.child_mem_chain_iff.1 haround, hreach⟩

/-- A module around an enum that is out of reach overshadows the enum. -/
theorem Enclosed.inReach_of_not_isOvershadowed {items : List Item} (he : e ∈ enumsIn [] items)
    (henum : e.content.visibility.Reaches (ModulePath.root.inside e.around))
    (h : ¬ e.IsOvershadowed items) : e.InReach := by
  refine ⟨fun n hn => ?_, henum⟩
  by_contra hreach
  -- Such a module is a declaration of its own path.
  refine h ⟨⟨e.around.take n, e.around[n]⟩, ?_, ?_, hreach⟩
  · obtain ⟨e', he', hsome⟩ := List.mem_filterMap.1 he
    have haround : e'.around = e.around := by
      unfold Enclosed.enum? at hsome
      split at hsome
      · split_ifs at hsome
        cases hsome
        rfl
      · cases hsome
    have hsplit : e'.around = [] ++ (e.around.take n ++ e.around[n] :: e.around.drop (n + 1)) := by
      rw [haround, List.nil_append, ← List.drop_eq_getElem_cons hn, List.take_append_drop]
    exact mem_modulesIn_of_around [] items he' hsplit
  · rw [← ModulePath.inside_append_singleton, List.take_append_getElem hn]
    exact ModulePath.isWithin_inside _ (List.take_prefix _ _)

/-- An enum of a crate in one file counts as nameable if it is in reach and no declaration of a
module on its way is out of reach. -/
theorem Candidate.isNameable_iff (hfiles : compilation.files = [file])
    (hroot : file.module = .root) (he : e ∈ enumsIn [] file.source.items) :
    (e.candidate file.path file.module file.gates).isNameable compilation.symbolTable = true ↔
      e.InReach ∧ ¬ e.IsOvershadowed file.source.items := by
  rw [isNameable, Bool.and_eq_true]
  show e.content.visibility.reachesRoot (file.module.inside e.around) = true ∧
    compilation.symbolTable.isReachable (file.module.inside e.around) = true ↔ _
  rw [hroot, Visibility.reachesRoot_iff, Compilation.isReachable_iff hfiles hroot]
  constructor
  · rintro ⟨henum, hshadow⟩
    exact ⟨Enclosed.inReach_of_not_isOvershadowed he henum hshadow, hshadow⟩
  · rintro ⟨hreach, hshadow⟩
    exact ⟨hreach.enum, hshadow⟩

/-- A selection among the enums of a crate in one file splits verdicts on them. A marked enum that
repeats no earlier one is skipped as not nameable exactly if it, or a module around it, is out of
reach of the crate root, or if a module of such a path is declared out of reach elsewhere. -/
theorem Selection.notNameable_iff {marker : Symbol} {registered : List Symbol}
    {selection : Selection} (hfiles : compilation.files = [file]) (hroot : file.module = .root)
    (h : ofCandidates compilation.symbolTable marker registered compilation.candidates =
      .ok selection) :
    ∃ verdicts : List (Enclosed EnumDecl × Verdict),
      verdicts.map Prod.fst = enumsIn [] file.source.items ∧
      selection.marked = verdicts.filterMap (fun (e, v) =>
        v.markedEnum? (e.candidate file.path file.module file.gates)) ∧
      selection.skipped = verdicts.filterMap (fun (e, v) =>
        v.skippedEnum? (e.candidate file.path file.module file.gates)) ∧
      ∀ before e v after, verdicts = before ++ (e, v) :: after →
        (v = .skipped .notNameable ↔
          (e.candidate file.path file.module file.gates).OptsIn compilation.symbolTable marker
            registered ∧
          ¬ (e.candidate file.path file.module file.gates).IsRepeated (before.map
            (Prod.map (Enclosed.candidate file.path file.module file.gates) id)) ∧
          (¬ e.InReach ∨ e.IsOvershadowed file.source.items)) := by
  let candidate := Enclosed.candidate file.path file.module file.gates
  have hcandidates : compilation.candidates = (enumsIn [] file.source.items).map candidate := by
    simp [Compilation.candidates, hfiles, Candidate.ofFile, ofItems_eq, candidate]
  obtain ⟨-, hfold⟩ := ofCandidates_eq_ok.1 h
  -- The selection is what the right verdicts on the candidates say, and each candidate is an enum.
  obtain ⟨right, hright, hfits⟩ : ∃ right : Verdicts,
      right.map Prod.fst = compilation.candidates ∧
        right.Right compilation.symbolTable marker registered := Verdicts.exists_right _
  rw [← hright, hfits.foldl_eq] at hfold
  subst hfold
  obtain ⟨verdicts, hfst, rfl⟩ := exists_map_prodMap candidate (hright.trans hcandidates)
  refine ⟨verdicts, hfst, List.filterMap_map .., List.filterMap_map .., ?_⟩
  rintro before e v after rfl
  have he : e ∈ enumsIn [] file.source.items := by
    rw [← hfst]
    simp
  have hfit := hfits (before.map (Prod.map candidate id)) (candidate e) v
    (after.map (Prod.map candidate id)) (by simp)
  rw [hfit.notNameable_iff, ← Bool.not_eq_true, Candidate.isNameable_iff hfiles hroot he,
    not_and_or, not_not]

end OneFile

/-! ### Alternatives under one path -/

/-- A module that is part of the crate on these systems only. -/
def moduleOn (system : String) (visibility : Visibility) : ModuleHead :=
  ⟨[⟨.ofName "cfg", .list .parenthesis [.word system .start]⟩], visibility, "imp"⟩

/-- A file with a public module `os`, which is a module `imp` short of the enum on one system, and
has a public one with the enum on the other. -/
def platformFile (visibility : Visibility) : SourceFile where
  path := "lib.rs"
  module := .root
  gates := []
  source := ⟨[], [.inlineModule ⟨[], .everywhere, "os"⟩
    [.inlineModule (moduleOn "unix" visibility) [],
      .inlineModule (moduleOn "windows" .everywhere)
        [.imports false (.path "macros" (.name "Describe")), .enumeration describedKind]]]⟩

/-- The crate of this file. -/
def platformCrate (visibility : Visibility) : Compilation :=
  ((Compilation.empty "demo").addExtern "macros" "macros").addFile (platformFile visibility)

/-- The enum in that file. -/
def platformKind : Enclosed EnumDecl :=
  ⟨[⟨[], .everywhere, "os"⟩, moduleOn "windows" .everywhere], describedKind⟩

/-- The selection in the crate of this file. -/
def platformSelection (visibility : Visibility) : Except Failure Selection :=
  Selection.ofCandidates (platformCrate visibility).symbolTable ⟨.foreign "macros", ["Describe"]⟩ []
    (platformCrate visibility).candidates

/-- With a public alternative the enum is not skipped for its modules. -/
theorem nameable_of_public_alternative :
    ∃ verdicts : List (Enclosed EnumDecl × Verdict), verdicts.map Prod.fst = [platformKind] ∧
      ∀ pair ∈ verdicts, pair.2 ≠ .skipped .notNameable := by
  have hselect : platformSelection .everywhere =
      .ok ⟨[⟨⟨.here, ["os", "imp", "Kind"]⟩, describedKind, .derived, ["#[cfg (windows)]"]⟩], []⟩ :=
    rfl
  have hfiles : (platformCrate .everywhere).files = [platformFile .everywhere] := rfl
  obtain ⟨verdicts, hfst, -, -, hverdict⟩ := Selection.notNameable_iff hfiles rfl hselect
  refine ⟨verdicts, hfst, ?_⟩
  rintro ⟨e, v⟩ hpair hv
  obtain ⟨before, after, hsplit⟩ := List.append_of_mem hpair
  have he : e ∈ verdicts.map Prod.fst := List.mem_map_of_mem hpair
  rw [hfst] at he
  cases List.mem_singleton.1 he
  rcases ((hverdict before platformKind v after hsplit).1 hv).2.2 with hreach | hshadow
  · exact hreach (by decide)
  · exact absurd hshadow (by decide)

/-- With a private alternative it is skipped, though it is in reach. -/
theorem hidden_by_alternative :
    platformKind ∈ enumsIn [] (platformFile .inherited).source.items ∧ platformKind.InReach ∧
      platformSelection .inherited = .ok ⟨[], [⟨⟨.here, ["os", "imp", "Kind"]⟩, .notNameable⟩]⟩ :=
  ⟨List.mem_singleton.2 rfl, by decide, rfl⟩

end DescriptionLookup
