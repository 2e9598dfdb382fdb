import DescriptionLookup.Proofs.Bodies
import DescriptionLookup.Proofs.Derivation

/-!
# Regions of a symbol table

A region is a collection of modules and names that no path leaves: from a module in it, a path of
names in it leads to a module in it. Two tables that bind alike inside a region resolve alike inside
it, whatever they bind elsewhere.

* `Region`, `Region.Closed`: modules and names, and when no path leaves them;
* `Scope.AgreeOn`, `SymbolTable.AgreeOn`: scopes and tables that bind alike in a region;
* `find_eq_of_agreeOn`: what is found is the same, step by step and whatever is remembered;
* `resolve_eq_of_agreeOn`, `resolveQualified_eq_of_agreeOn`: paths in the region resolve alike;
* `agreeOn_everything`: the case of a region that is everything.
-/

namespace DescriptionLookup

/-- Modules and names. -/
structure Region where
  modules : ModulePath → Prop
  names : String → Prop

namespace Region

/-- All modules and names. -/
def everything : Region := ⟨fun _ => True, fun _ => True⟩

/-- All names of a path are in the region. -/
def HasPath (region : Region) (path : Path) : Prop := ∀ name ∈ path.segments, region.names name

/-- A symbol is anywhere; a module has to be in the region. -/
def HasTarget (region : Region) : Target → Prop
  | .module module => region.modules module
  | .symbol _ => True

/-- The region holds the root, and with a module the module around it and those of its names. -/
structure Closed (region : Region) : Prop where
  root : region.modules .root
  around : ∀ module around, region.modules module → module.parent? = some around →
    region.modules around
  inside : ∀ module name, region.modules module → region.names name →
    region.modules (module.child name)

theorem closed_everything : everything.Closed :=
  ⟨trivial, fun _ _ _ _ => trivial, fun _ _ _ _ => trivial⟩

end Region

/-- The path of the crate root, to which no name has to be looked up. -/
def Path.crateRoot : Path := ⟨false, ["crate"]⟩

/-- Two scopes bind the names of a region alike, and to paths in it or to the crate root. -/
structure Scope.AgreeOn (region : Region) (scope scope' : Scope) : Prop where
  items : ∀ name, region.names name → (name ∈ scope.items ↔ name ∈ scope'.items)
  modules : ∀ name, region.names name → (name ∈ scope.modules ↔ name ∈ scope'.modules)
  imports : ∀ name, region.names name → scope.imports.get? name = scope'.imports.get? name
  globs : scope.globs = scope'.globs
  import_mem : ∀ name path, region.names name → scope.imports.get? name = some path →
    region.HasPath path ∨ path = .crateRoot
  glob_mem : ∀ path ∈ scope.globs, region.HasPath path

/-- Two tables bind the names of a region alike in its modules, and to paths in it. -/
structure SymbolTable.AgreeOn (region : Region) (table table' : SymbolTable) : Prop where
  scopes : ∀ module, region.modules module →
    Option.Rel (Scope.AgreeOn region) (table.scopes.get? module) (table'.scopes.get? module)
  externs : ∀ name, region.names name → table.externs.get? name = table'.externs.get? name

/-! ### Equal queries -/

namespace Query

variable {σ α β : Type} {P : α → Prop}

theorem ext_outcome {q q' : Query σ α} (h : ∀ s, q.outcome s = q'.outcome s) : q = q' :=
  OptionT.ext (funext h)

/-- How a query goes on matters only for the answers that it can have. -/
theorem bind_congr {q : Query σ α} {f f' : α → Query σ β} (hq : q.Yields P)
    (h : ∀ a, P a → f a = f' a) : q >>= f = q >>= f' := by
  refine ext_outcome fun s => ?_
  rw [outcome_bind, outcome_bind]
  rcases hs : q.outcome s with ⟨_ | a, s'⟩
  · rfl
  · show (f a).outcome s' = (f' a).outcome s'
    rw [h a (hq s a (by rw [hs]))]

theorem attempt_congr {q : Query σ α} {f f' : Option α → Query σ β} (hq : q.Yields P)
    (hsome : ∀ a, P a → f (some a) = f' (some a)) (hnone : f none = f' none) :
    OptionT.lift q.run >>= f = OptionT.lift q.run >>= f' := by
  refine ext_outcome fun s => ?_
  rw [outcome_attempt, outcome_attempt]
  rcases hs : q.outcome s with ⟨_ | a, s'⟩
  · rw [hnone]
  · rw [hsome a (hq s a (by rw [hs]))]

end Query

namespace SymbolTable

variable {region : Region} {table table' : SymbolTable} {skip : Option String}
  {module : ModulePath} {name : String}

/-! ### Operations of resolution -/

section Operations

variable {σ : Type} {look look' : Look σ}

/-- Looking names up is the same and stays inside the region. -/
def SameLook (region : Region) (look look' : Look σ) : Prop :=
  ∀ skip module name, region.modules module → region.names name →
    look skip module name = look' skip module name ∧
      (look skip module name).Yields region.HasTarget

theorem yields_parent (hregion : region.Closed) (hmodule : region.modules module) :
    Query.Yields (OptionT.mk (pure (module.parent?.map .module)) : Query σ Target)
      region.HasTarget := by
  refine Query.Yields.mk_pure fun target htarget => ?_
  obtain ⟨around, haround, rfl⟩ := Option.map_eq_some_iff.1 htarget
  exact hregion.around module around hmodule haround

theorem yields_externRoot :
    Query.Yields (OptionT.mk (pure (table.externRoot? name)) : Query σ Target)
      region.HasTarget := by
  refine Query.Yields.mk_pure fun target htarget => ?_
  obtain ⟨crate, -, rfl⟩ := externRoot?_eq_some htarget
  trivial

theorem enter_eq (hregion : region.Closed) (hlook : SameLook region look look') {target : Target}
    (htarget : region.HasTarget target) (hname : region.names name) :
    enter look target name = enter look' target name ∧
      (enter look target name).Yields region.HasTarget := by
  cases target with
  | symbol symbol => exact ⟨rfl, Query.Yields.pure trivial⟩
  | module inner =>
    by_cases hsuper : name = "super"
    · simp only [enter, hsuper, if_true]
      exact ⟨trivial, yields_parent hregion htarget⟩
    · simp only [enter, hsuper, if_false]
      exact hlook none inner name htarget hname

theorem anchor_eq (hregion : region.Closed) (htable : AgreeOn region table table')
    (hlook : SameLook region look look') (hmodule : region.modules module)
    (hname : region.names name) (skip : Option String) (absolute : Bool) :
    table.anchor look skip module absolute name = table'.anchor look' skip module absolute name ∧
      (table.anchor look skip module absolute name).Yields region.HasTarget := by
  have hextern : table.externRoot? name = table'.externRoot? name := by
    rw [externRoot?, externRoot?, htable.externs name hname]
  unfold anchor
  rw [← hextern]
  split
  · exact ⟨rfl, yields_externRoot⟩
  split
  · exact ⟨rfl, Query.Yields.pure hregion.root⟩
  split
  · exact ⟨rfl, Query.Yields.pure hmodule⟩
  split
  · exact ⟨rfl, yields_parent hregion hmodule⟩
  · obtain ⟨heq, hyields⟩ := hlook skip module name hmodule hname
    rw [← heq]
    exact ⟨rfl, hyields.orElse yields_externRoot⟩

theorem foldlM_enter_eq (hregion : region.Closed) (hlook : SameLook region look look')
    {names : List String} (hnames : ∀ name ∈ names, region.names name) {target : Target}
    (htarget : region.HasTarget target) :
    names.foldlM (enter look) target = names.foldlM (enter look') target ∧
      (names.foldlM (enter look) target).Yields region.HasTarget := by
  induction names generalizing target with
  | nil => exact ⟨rfl, Query.Yields.pure htarget⟩
  | cons name rest ih =>
    obtain ⟨heq, hyields⟩ := enter_eq hregion hlook htarget (hnames name List.mem_cons_self)
    have hrest : ∀ target, region.HasTarget target →
        rest.foldlM (enter look) target = rest.foldlM (enter look') target ∧
          (rest.foldlM (enter look) target).Yields region.HasTarget :=
      fun target htarget => ih (fun name hmem => hnames name (List.mem_cons_of_mem _ hmem)) htarget
    rw [List.foldlM_cons, List.foldlM_cons, ← heq]
    exact ⟨Query.bind_congr hyields fun target htarget => (hrest target htarget).1,
      hyields.bind fun target htarget => (hrest target htarget).2⟩

/-- A path in the region is followed alike, and stays inside. -/
theorem follow_eq (hregion : region.Closed) (htable : AgreeOn region table table')
    (hlook : SameLook region look look') (hmodule : region.modules module) {path : Path}
    (hpath : region.HasPath path) :
    table.follow look skip module path = table'.follow look' skip module path ∧
      (table.follow look skip module path).Yields region.HasTarget := by
  obtain ⟨absolute, _ | ⟨first, rest⟩⟩ := path
  · exact ⟨rfl, Query.Yields.failure⟩
  obtain ⟨heq, hyields⟩ := anchor_eq hregion htable hlook hmodule
    (hpath first List.mem_cons_self) skip absolute
  have hrest : ∀ target, region.HasTarget target →
      rest.foldlM (enter look) target = rest.foldlM (enter look') target ∧
        (rest.foldlM (enter look) target).Yields region.HasTarget :=
    fun target htarget => foldlM_enter_eq hregion hlook
      (fun name hmem => hpath name (List.mem_cons_of_mem _ hmem)) htarget
  show (table.anchor look skip module absolute first >>= fun target => _) =
      (table'.anchor look' skip module absolute first >>= fun target => _) ∧ _
  rw [← heq]
  exact ⟨Query.bind_congr hyields fun target htarget => (hrest target htarget).1,
    hyields.bind fun target htarget => (hrest target htarget).2⟩

theorem guess_eq (htable : AgreeOn region table table') (hname : region.names name)
    (symbol : Option Symbol) :
    (table.guess name symbol : Query σ Finding) = table'.guess name symbol ∧
      (table.guess name symbol : Query σ Finding).Yields fun finding =>
        region.HasTarget finding.target := by
  have hextern : table.externs.contains name = table'.externs.contains name := by
    rw [Bindings.contains, Bindings.contains, htable.externs name hname]
  refine ⟨by rw [guess, guess, hextern], yields_guess fun _ symbol _ => trivial⟩

/-- The search through globs is the same if following them and looking beyond them is. -/
theorem throughGlobs_eq {followGlob followGlob' : Path → Query σ Target}
    {beyond beyond' : ModulePath → Query σ Finding}
    {last last' : Option Symbol → Query σ Finding} {globs : List Path}
    (hfollow : ∀ glob ∈ globs, followGlob glob = followGlob' glob ∧
      (followGlob glob).Yields region.HasTarget)
    (hbeyond : ∀ module, region.modules module → beyond module = beyond' module ∧
      (beyond module).Yields fun finding => region.HasTarget finding.target)
    (hlast : ∀ guess, last guess = last' guess ∧
      (last guess).Yields fun finding => region.HasTarget finding.target)
    (name : String) (guess : Option Symbol) :
    throughGlobs followGlob beyond last name guess globs =
        throughGlobs followGlob' beyond' last' name guess globs ∧
      (throughGlobs followGlob beyond last name guess globs).Yields fun finding =>
        region.HasTarget finding.target := by
  induction globs generalizing guess with
  | nil => exact hlast guess
  | cons glob rest ih =>
    have ih' := fun guess => ih (fun glob hmem => hfollow glob (List.mem_cons_of_mem _ hmem)) guess
    obtain ⟨heq, hyields⟩ := hfollow glob List.mem_cons_self
    simp only [throughGlobs]
    rw [← heq]
    refine ⟨Query.attempt_congr hyields (fun target htarget => ?_) (ih' guess).1,
      hyields.attempt (fun target htarget => ?_) (ih' guess).2⟩
    · cases target with
      | module source =>
        simp only
        rw [(hbeyond source htarget).1, (ih' guess).1]
      | symbol symbol => exact (ih' _).1
    · cases target with
      | module source => exact (hbeyond source htarget).2.orElse (ih' guess).2
      | symbol symbol => exact (ih' _).2

end Operations

/-! ### What is found -/

theorem binding?_eq {scope scope' : Scope} (h : scope.AgreeOn region scope')
    (hname : region.names name) :
    scope.binding? module skip name = scope'.binding? module skip name := by
  have hitems : scope.items.contains name = scope'.items.contains name := by
    rw [Bool.eq_iff_iff, List.contains_iff_mem, List.contains_iff_mem]
    exact h.items name hname
  have hmodules : scope.modules.contains name = scope'.modules.contains name := by
    rw [Bool.eq_iff_iff, List.contains_iff_mem, List.contains_iff_mem]
    exact h.modules name hname
  rw [Scope.binding?, Scope.binding?, hitems, hmodules, h.imports name hname]

section Level

variable {hops : Nat}

/-- The crate root is at hand in every table. -/
theorem hop_crateRoot_eq (hregion : region.Closed) :
    table.hop .once hops module skip .crateRoot = table'.hop .once hops module skip .crateRoot ∧
      (table.hop .once hops module skip .crateRoot).Yields region.HasTarget := by
  cases hops with
  | zero => exact ⟨rfl, Query.Yields.stop⟩
  | succ hops => exact ⟨rfl, Query.Yields.pure hregion.root⟩

/-- What is found at a level whose hops are alike and stay inside the region. -/
theorem find_eq_level (hregion : region.Closed) (htable : AgreeOn region table table')
    (hhop : ∀ module skip path, region.modules module → region.HasPath path →
      table.hop .once hops module skip path = table'.hop .once hops module skip path ∧
        (table.hop .once hops module skip path).Yields region.HasTarget)
    (hbeyond : ∀ name module, region.modules module → region.names name →
      table.beyond .once hops name module = table'.beyond .once hops name module ∧
        (table.beyond .once hops name module).Yields fun finding =>
          region.HasTarget finding.target)
    (hmodule : region.modules module) (hname : region.names name) :
    table.find .once hops skip module name = table'.find .once hops skip module name ∧
      (table.find .once hops skip module name).Yields fun finding =>
        region.HasTarget finding.target := by
  have hscopes := htable.scopes module hmodule
  generalize hscope : table.scopes.get? module = found at hscopes
  generalize hscope' : table'.scopes.get? module = found' at hscopes
  cases hscopes with
  | none =>
    rw [find_of_no_scope hscope, find_of_no_scope hscope']
    exact ⟨rfl, Query.Yields.failure⟩
  | @some scope scope' hagree =>
    have hbinding' : scope'.binding? module skip name = scope.binding? module skip name :=
      (binding?_eq hagree hname).symm
    rcases hbinding : scope.binding? module skip name with _ | target | path
    · rw [find_of_unbound hscope hbinding, find_of_unbound hscope' (hbinding'.trans hbinding)]
      rw [searchGlobs, searchGlobs, globs_of_scope hscope, globs_of_scope hscope', ← hagree.globs]
      have hglobs := throughGlobs_eq
        (fun glob hmem => hhop module none glob hmodule (hagree.glob_mem glob hmem))
        (fun source hsource => hbeyond name source hsource hname)
        (guess_eq htable hname) name none
      exact ⟨by rw [hglobs.1], Query.Yields.search_once hglobs.2⟩
    · rw [find_of_declared hscope hbinding, find_of_declared hscope' (hbinding'.trans hbinding)]
      refine ⟨rfl, Query.Yields.pure ?_⟩
      rcases Scope.declared_cases hbinding with ⟨-, rfl⟩ | ⟨-, -, rfl⟩
      · trivial
      · exact hregion.inside module name hmodule hname
    · rw [find_of_imported hscope hbinding, find_of_imported hscope' (hbinding'.trans hbinding)]
      obtain ⟨-, -, -, himport⟩ := Scope.imported_cases hbinding
      have hfollowed : table.hop .once hops module (some name) path =
          table'.hop .once hops module (some name) path ∧
          (table.hop .once hops module (some name) path).Yields region.HasTarget := by
        rcases hagree.import_mem name path hname himport with hpath | rfl
        · exact hhop module (some name) path hmodule hpath
        · exact hop_crateRoot_eq hregion
      exact ⟨by rw [hfollowed.1], Query.Yields.map hfollowed.2⟩

end Level

/-- In a region where two tables bind alike the same is found, and it is in the region. -/
theorem find_eq_of_agreeOn (hregion : region.Closed) (htable : AgreeOn region table table')
    (hops : Nat) (skip : Option String) (hmodule : region.modules module)
    (hname : region.names name) :
    table.find .once hops skip module name = table'.find .once hops skip module name ∧
      (table.find .once hops skip module name).Yields fun finding =>
        region.HasTarget finding.target := by
  induction hops generalizing skip module name with
  | zero =>
    exact find_eq_level hregion htable (fun _ _ _ _ _ => ⟨rfl, Query.Yields.stop⟩)
      (fun _ _ _ _ => ⟨rfl, Query.Yields.stop⟩) hmodule hname
  | succ hops ih =>
    have hlook : SameLook region (table.lookup .once hops) (table'.lookup .once hops) := by
      intro skip module name hmodule hname
      obtain ⟨heq, hyields⟩ := ih skip hmodule hname
      exact ⟨by rw [lookup, lookup, heq], Query.Yields.map hyields⟩
    exact find_eq_level hregion htable
      (fun module skip path hmodule hpath => follow_eq hregion htable hlook hmodule hpath)
      (fun name module hmodule hname => ih none hmodule hname) hmodule hname

/-- In a region where two tables bind alike, paths resolve alike. -/
theorem resolve_eq_of_agreeOn (hregion : region.Closed) (htable : AgreeOn region table table')
    (hmodule : region.modules module) {path : Path} (hpath : region.HasPath path) :
    table.resolve module path = table'.resolve module path := by
  have hlook : SameLook region (table.lookup .once maximalHops)
      (table'.lookup .once maximalHops) := by
    intro skip module name hmodule hname
    obtain ⟨heq, hyields⟩ :=
      find_eq_of_agreeOn hregion htable maximalHops skip hmodule hname
    exact ⟨by rw [lookup, lookup, heq], Query.Yields.map hyields⟩
  rw [resolve, resolve, target?, target?, query, query,
    (follow_eq hregion htable hlook hmodule hpath).1]

/-- A path from a configuration resolves alike as well, if the tables know the crate of its first
name alike. -/
theorem resolveQualified_eq_of_first (hregion : region.Closed)
    (htable : AgreeOn region table table') {path : Path} (hpath : region.HasPath path)
    (hcrate : ∀ first ∈ path.segments.head?,
      (first ∈ table.externs.values ↔ first ∈ table'.externs.values)) :
    table.resolveQualified path = table'.resolveQualified path := by
  unfold resolveQualified
  cases hsegments : path.segments with
  | nil => rfl
  | cons first rest =>
    have hfirst : table.externs.values.contains first = table'.externs.values.contains first := by
      rw [Bool.eq_iff_iff, List.contains_iff_mem, List.contains_iff_mem]
      exact hcrate first (by rw [hsegments]; rfl)
    simp only [hfirst, resolve_eq_of_agreeOn hregion htable hregion.root hpath]

theorem resolveQualified_eq_of_agreeOn (hregion : region.Closed)
    (htable : AgreeOn region table table')
    (hcrates : ∀ crate, crate ∈ table.externs.values ↔ crate ∈ table'.externs.values)
    {path : Path} (hpath : region.HasPath path) :
    table.resolveQualified path = table'.resolveQualified path :=
  resolveQualified_eq_of_first hregion htable hpath fun first _ => hcrates first

/-! ### Everything -/

theorem agreeOn_everything
    (hscopes : ∀ module, table.scopes.get? module = table'.scopes.get? module)
    (hexterns : ∀ name, table.externs.get? name = table'.externs.get? name) :
    AgreeOn .everything table table' := by
  refine ⟨fun module _ => ?_, fun name _ => hexterns name⟩
  rw [← hscopes module]
  cases table.scopes.get? module with
  | none => exact .none
  | some scope =>
    refine .some ⟨fun _ _ => Iff.rfl, fun _ _ => Iff.rfl, fun _ _ => rfl, rfl, ?_, ?_⟩
    · exact fun _ _ _ _ => .inl fun _ _ => trivial
    · exact fun _ _ _ _ => trivial

end SymbolTable

namespace Compilation.SameBodies

variable {compilation compilation' : Compilation}

theorem agreeOn (h : SameBodies compilation compilation') :
    SymbolTable.AgreeOn .everything compilation.symbolTable compilation'.symbolTable :=
  SymbolTable.agreeOn_everything h.scopes_eq h.externs_eq

/-- Crates with the same bodies resolve every path of every module alike. -/
theorem resolve_eq (h : SameBodies compilation compilation') (module : ModulePath) (path : Path) :
    compilation.symbolTable.resolve module path = compilation'.symbolTable.resolve module path :=
  SymbolTable.resolve_eq_of_agreeOn Region.closed_everything h.agreeOn trivial fun _ _ => trivial

theorem resolveQualified_eq (h : SameBodies compilation compilation') (path : Path) :
    compilation.symbolTable.resolveQualified path =
      compilation'.symbolTable.resolveQualified path :=
  SymbolTable.resolveQualified_eq_of_agreeOn Region.closed_everything h.agreeOn
    (Bindings.mem_values_congr h.externs_eq) fun _ _ => trivial

end Compilation.SameBodies

end DescriptionLookup
