import DescriptionLookup.Proofs.Journal

/-!
# Derivations

What a name or a path may stand for, as a relation: every fact has a finite derivation from what the
table binds, with no bound on the hops and no memory. Resolution finds nothing else.

* `Names`, `Leads`: what a name in a module and a path stand for;
* `Query.Yields`: what is true of every answer of a query, and its rules;
* `yields_find`, `yields_query`: every answer has a derivation;
* `Grounds`, `Names.grounded`, `Leads.grounded`: a derivable symbol begins with a declared item or
  with an extern crate.

Both are put together for what a path resolves to.
-/

namespace DescriptionLookup

namespace SymbolTable

/-! ### The relation -/

mutual

/-- What a name stands for in a module, if an import of the name to be skipped is not considered. -/
inductive Names (table : SymbolTable) : Option String → ModulePath → String → Target → Prop
  | item {skip : Option String} {module : ModulePath} {name : String} {scope : Scope} :
    table.scopes.get? module = some scope → name ∈ scope.items →
    Names table skip module name (.symbol (.ofLocal module name))
  | child {skip : Option String} {module : ModulePath} {name : String} {scope : Scope} :
    table.scopes.get? module = some scope → name ∉ scope.items → name ∈ scope.modules →
    Names table skip module name (.module (module.child name))
  /-- An import of a name does not go through itself. -/
  | imported {skip : Option String} {module : ModulePath} {name : String} {scope : Scope}
      {path : Path} {target : Target} :
    table.scopes.get? module = some scope → name ∉ scope.items → name ∉ scope.modules →
    skip ≠ some name → scope.imports.get? name = some path →
    Leads table (some name) module path target →
    Names table skip module name target
  | glob {skip : Option String} {module source : ModulePath} {name : String} {scope : Scope}
      {path : Path} {target : Target} :
    table.scopes.get? module = some scope → scope.Unbound skip name → path ∈ scope.globs →
    Leads table none module path (.module source) → Names table none source name target →
    Names table skip module name target
  /-- Anything may come from a glob of an extern path, except what an extern crate is called. -/
  | foreignGlob {skip : Option String} {module : ModulePath} {name : String} {scope : Scope}
      {path : Path} {symbol : Symbol} :
    table.scopes.get? module = some scope → scope.Unbound skip name → path ∈ scope.globs →
    Leads table none module path (.symbol symbol) → symbol.isForeign = true →
    table.externs.get? name = none →
    Names table skip module name (.symbol (symbol.child name))

/-- What a path in a module stands for, if an import to be skipped is not considered for its first
name. -/
inductive Leads (table : SymbolTable) : Option String → ModulePath → Path → Target → Prop
  | foreign {skip : Option String} {module : ModulePath} {name crate : String} :
    table.externs.get? name = some crate →
    Leads table skip module ⟨true, [name]⟩ (.symbol (.ofCrate crate))
  | crate {skip : Option String} {module : ModulePath} :
    Leads table skip module ⟨false, ["crate"]⟩ (.module .root)
  | self {skip : Option String} {module : ModulePath} :
    Leads table skip module ⟨false, ["self"]⟩ (.module module)
  | super {skip : Option String} {module around : ModulePath} :
    module.parent? = some around →
    Leads table skip module ⟨false, ["super"]⟩ (.module around)
  | name {skip : Option String} {module : ModulePath} {name : String} {target : Target} :
    name ∉ anchors → Names table skip module name target →
    Leads table skip module ⟨false, [name]⟩ target
  | prelude {skip : Option String} {module : ModulePath} {name crate : String} :
    name ∉ anchors → table.externs.get? name = some crate →
    Leads table skip module ⟨false, [name]⟩ (.symbol (.ofCrate crate))
  | up {skip : Option String} {module inner around : ModulePath} {absolute : Bool}
      {lead : List String} :
    Leads table skip module ⟨absolute, lead⟩ (.module inner) → inner.parent? = some around →
    Leads table skip module ⟨absolute, lead ++ ["super"]⟩ (.module around)
  | into {skip : Option String} {module inner : ModulePath} {absolute : Bool}
      {lead : List String} {name : String} {target : Target} :
    Leads table skip module ⟨absolute, lead⟩ (.module inner) → name ≠ "super" →
    Names table none inner name target →
    Leads table skip module ⟨absolute, lead ++ [name]⟩ target
  /-- What comes after an item or an extern crate is taken as it is written. -/
  | beyond {skip : Option String} {module : ModulePath} {absolute : Bool} {lead : List String}
      {name : String} {symbol : Symbol} :
    Leads table skip module ⟨absolute, lead⟩ (.symbol symbol) →
    Leads table skip module ⟨absolute, lead ++ [name]⟩ (.symbol (symbol.child name))

end

end SymbolTable

/-! ### Answers of a query -/

/-- Whatever a query remembers when it begins, an answer of it satisfies the predicate. -/
def Query.Yields {σ α : Type} (query : Query σ α) (P : α → Prop) : Prop :=
  ∀ s a, (query.outcome s).1 = some a → P a

namespace Query.Yields

variable {σ α β : Type} {P : α → Prop} {Q : β → Prop}

theorem mk_pure {a : Option α} (h : ∀ b, a = some b → P b) :
    Query.Yields (OptionT.mk (Pure.pure a) : Query σ α) P := fun _ => h

theorem pure {a : α} (h : P a) : (Pure.pure a : Query σ α).Yields P := by
  intro _ b hb
  obtain rfl : a = b := Option.some.inj hb
  exact h

theorem failure : (Alternative.failure : Query σ α).Yields P := nofun

theorem stop {memory : Memory σ} : (memory.stop : Query σ α).Yields P := nofun

theorem bind {q : Query σ α} {f : α → Query σ β} (hq : q.Yields P)
    (hf : ∀ a, P a → (f a).Yields Q) : (q >>= f).Yields Q := by
  intro s b hb
  rw [outcome_bind] at hb
  rcases h : q.outcome s with ⟨_ | a, s'⟩
  · rw [h] at hb
    cases hb
  · rw [h] at hb
    exact hf a (hq s a (by rw [h])) s' b hb

theorem map {q : Query σ α} {f : α → β} (h : q.Yields fun a => Q (f a)) : (f <$> q).Yields Q :=
  h.bind fun _ ha => pure ha

theorem orElse {p q : Query σ α} (hp : p.Yields P) (hq : q.Yields P) : (p <|> q).Yields P := by
  intro s a ha
  rw [outcome_orElse] at ha
  rcases h : p.outcome s with ⟨_ | b, s'⟩
  · rw [h] at ha
    exact hq s' a ha
  · rw [h] at ha
    exact hp s a (by rw [h]; exact ha)

/-- A part whose failure is no failure of the whole. -/
theorem attempt {q : Query σ α} {f : Option α → Query σ β} (hq : q.Yields P)
    (hsome : ∀ a, P a → (f (some a)).Yields Q) (hnone : (f none).Yields Q) :
    Query.Yields (OptionT.lift q.run >>= f) Q := by
  intro s b hb
  rw [outcome_attempt] at hb
  rcases h : q.outcome s with ⟨_ | a, s'⟩
  · rw [h] at hb
    exact hnone s' b hb
  · rw [h] at hb
    exact hsome a (hq s a (by rw [h])) s' b hb

/-- A search answers with nothing but what is searched. -/
theorem search_once {hops : Nat} {module : ModulePath} {name : String} {P : Finding → Prop}
    {q : Query Searched Finding} (h : q.Yields P) :
    (Memory.once.search hops module name q).Yields P := by
  intro searched a ha
  by_cases hmem : (module, name) ∈ searched
  · rw [Memory.outcome_once_of_mem hmem] at ha
    cases ha
  · rw [Memory.outcome_once_of_not_mem hmem] at ha
    exact h _ a ha

end Query.Yields

namespace SymbolTable

variable {σ : Type} {table : SymbolTable} {skip : Option String} {module : ModulePath}

/-! ### Every answer has a derivation -/

theorem externRoot?_eq_some {name : String} {target : Target}
    (h : table.externRoot? name = some target) :
    ∃ crate, table.externs.get? name = some crate ∧ target = .symbol (.ofCrate crate) := by
  obtain ⟨crate, hcrate, rfl⟩ := Option.map_eq_some_iff.1 h
  exact ⟨crate, hcrate, rfl⟩

theorem yields_enter {look : Look σ} (hlook : ∀ module name,
      (look none module name).Yields (table.Names none module name))
    {absolute : Bool} {lead : List String} {target : Target}
    (h : table.Leads skip module ⟨absolute, lead⟩ target) (name : String) :
    (enter look target name).Yields (table.Leads skip module ⟨absolute, lead ++ [name]⟩) := by
  cases target with
  | symbol symbol => exact Query.Yields.pure h.beyond
  | module inner =>
    by_cases hsuper : name = "super"
    · subst hsuper
      refine Query.Yields.mk_pure fun target htarget => ?_
      obtain ⟨around, haround, rfl⟩ := Option.map_eq_some_iff.1 htarget
      exact h.up haround
    · rw [enter, if_neg hsuper]
      exact fun s target htarget => h.into hsuper (hlook inner name s target htarget)

theorem yields_anchor {look : Look σ} {name : String}
    (hlook : (look skip module name).Yields (table.Names skip module name)) (absolute : Bool) :
    (table.anchor look skip module absolute name).Yields
      (table.Leads skip module ⟨absolute, [name]⟩) := by
  cases absolute with
  | true =>
    refine Query.Yields.mk_pure fun target htarget => ?_
    obtain ⟨crate, hcrate, rfl⟩ := externRoot?_eq_some htarget
    exact Leads.foreign hcrate
  | false =>
    by_cases hname : name ∈ anchors
    · simp only [anchors, List.mem_cons, List.not_mem_nil, or_false] at hname
      rcases hname with rfl | rfl | rfl
      · exact Query.Yields.pure Leads.crate
      · exact Query.Yields.pure Leads.self
      · refine Query.Yields.mk_pure fun target htarget => ?_
        obtain ⟨around, haround, rfl⟩ := Option.map_eq_some_iff.1 htarget
        exact Leads.super haround
    · rw [anchor_of_not_mem hname]
      refine Query.Yields.orElse (fun s target htarget => ?_)
        (Query.Yields.mk_pure fun target htarget => ?_)
      · exact Leads.name hname (hlook s target htarget)
      · obtain ⟨crate, hcrate, rfl⟩ := externRoot?_eq_some htarget
        exact Leads.prelude hname hcrate

theorem yields_follow {look : Look σ}
    (hfirst : ∀ name, (look skip module name).Yields (table.Names skip module name))
    (hrest : ∀ module name, (look none module name).Yields (table.Names none module name))
    (path : Path) :
    (table.follow look skip module path).Yields (table.Leads skip module path) := by
  obtain ⟨absolute, _ | ⟨first, rest⟩⟩ := path
  · exact Query.Yields.failure
  -- the names that are left are taken in turn; `lead` is what is behind
  suffices h : ∀ lead target, table.Leads skip module ⟨absolute, lead⟩ target →
      (rest.foldlM (enter look) target).Yields
        (table.Leads skip module ⟨absolute, lead ++ rest⟩) from
    (yields_anchor (hfirst first) absolute).bind fun target htarget => h [first] target htarget
  induction rest with
  | nil =>
    intro lead target htarget
    rw [List.append_nil]
    exact Query.Yields.pure htarget
  | cons name rest ih =>
    intro lead target htarget
    rw [List.foldlM_cons, List.append_cons]
    exact (yields_enter hrest htarget name).bind fun target htarget => ih _ target htarget

/-- What every answer of a search through globs satisfies. Only a symbol that satisfies `G` is ever
handed to `last`. -/
theorem yields_throughGlobs {followGlob : Path → Query σ Target}
    {look : ModulePath → Query σ Finding} {last : Option Symbol → Query σ Finding} {name : String}
    {P : Finding → Prop} {G : Symbol → Prop} {globs : List Path}
    (hmodule : ∀ glob ∈ globs, (followGlob glob).Yields fun target =>
      ∀ source, target = .module source → (look source).Yields P)
    (hsymbol : ∀ glob ∈ globs, (followGlob glob).Yields fun target =>
      ∀ symbol, target = .symbol symbol → symbol.isForeign = true → G (symbol.child name))
    (hlast : ∀ guess, (∀ symbol, guess = some symbol → G symbol) → (last guess).Yields P)
    {guess : Option Symbol} (hguess : ∀ symbol, guess = some symbol → G symbol) :
    (throughGlobs followGlob look last name guess globs).Yields P := by
  induction globs generalizing guess with
  | nil => exact hlast guess hguess
  | cons glob rest ih =>
    have ih' {guess : Option Symbol} (hguess : ∀ symbol, guess = some symbol → G symbol) :=
      ih (fun glob hmem => hmodule glob (List.mem_cons_of_mem _ hmem))
        (fun glob hmem => hsymbol glob (List.mem_cons_of_mem _ hmem)) hguess
    have hboth : (followGlob glob).Yields fun target =>
        (∀ source, target = .module source → (look source).Yields P) ∧
          ∀ symbol, target = .symbol symbol → symbol.isForeign = true → G (symbol.child name) :=
      fun s target htarget => ⟨hmodule glob List.mem_cons_self s target htarget,
        hsymbol glob List.mem_cons_self s target htarget⟩
    refine hboth.attempt (fun target htarget => ?_) (ih' hguess)
    cases target with
    | module source => exact (htarget.1 source rfl).orElse (ih' hguess)
    | symbol symbol =>
      refine ih' fun found hfound => ?_
      by_cases hforeign : symbol.isForeign = true
      · cases guess with
        | none =>
          simp only [hforeign, if_true] at hfound
          obtain rfl : symbol.child name = found := Option.some.inj hfound
          exact htarget.2 symbol rfl hforeign
        | some first =>
          simp only [hforeign, if_true] at hfound
          exact hguess found hfound
      · simp only [hforeign, Bool.false_eq_true, if_false] at hfound
        exact hguess found hfound

theorem yields_guess {name : String} {guess : Option Symbol} {P : Finding → Prop}
    (h : table.externs.get? name = none → ∀ symbol, guess = some symbol → P (.guessed symbol)) :
    (table.guess name guess : Query σ Finding).Yields P := by
  by_cases hcontains : table.externs.contains name = true
  · rw [SymbolTable.guess, if_pos hcontains]
    exact Query.Yields.failure
  · have hextern : table.externs.get? name = none := by
      rwa [Bindings.contains, Bool.not_eq_true, Option.isSome_eq_false_iff,
        Option.isNone_iff_eq_none] at hcontains
    rw [SymbolTable.guess, if_neg hcontains]
    refine Query.Yields.mk_pure fun finding hfinding => ?_
    obtain ⟨symbol, hsymbol, rfl⟩ := Option.map_eq_some_iff.1 hfinding
    exact h hextern symbol hsymbol

section Level

variable {hops : Nat} {name : String} {scope : Scope}

/-- What is found through globs at a level whose hops find nothing but what is derivable. -/
theorem yields_searchGlobs (hscope : table.scopes.get? module = some scope)
    (hunbound : scope.Unbound skip name)
    (hhop : ∀ skip path, (table.hop .once hops module skip path).Yields
      (table.Leads skip module path))
    (hbeyond : ∀ source, (table.beyond .once hops name source).Yields fun finding =>
      table.Names none source name finding.target) :
    (table.searchGlobs .once hops module name).Yields fun finding =>
      table.Names skip module name finding.target := by
  rw [searchGlobs, globs_of_scope hscope]
  -- a guess is derivable only if no extern crate has the name, which is known at the end
  refine yields_throughGlobs (G := fun symbol => table.externs.get? name = none →
    table.Names skip module name (.symbol symbol)) ?_ ?_ ?_ ?_
  · rintro glob hmem s _ htarget source rfl t finding hfinding
    exact Names.glob hscope hunbound hmem (hhop none glob s _ htarget)
      (hbeyond source t finding hfinding)
  · rintro glob hmem s _ htarget symbol rfl hforeign hextern
    exact Names.foreignGlob hscope hunbound hmem (hhop none glob s _ htarget) hforeign hextern
  · intro guess hguess
    exact yields_guess fun hextern symbol hsymbol => hguess symbol hsymbol hextern
  · intro symbol hsymbol
    cases hsymbol

/-- What is found at such a level. -/
theorem yields_find_level
    (hhop : ∀ skip path, (table.hop .once hops module skip path).Yields
      (table.Leads skip module path))
    (hbeyond : ∀ source, (table.beyond .once hops name source).Yields fun finding =>
      table.Names none source name finding.target) :
    (table.find .once hops skip module name).Yields fun finding =>
      table.Names skip module name finding.target := by
  cases hscope : table.scopes.get? module with
  | none =>
    rw [find_of_no_scope hscope]
    exact Query.Yields.failure
  | some scope =>
    rcases hbinding : scope.binding? module skip name with _ | target | path
    · have hunbound := Scope.binding?_eq_none_iff.1 hbinding
      rw [find_of_unbound hscope hbinding]
      exact Query.Yields.search_once (yields_searchGlobs hscope hunbound hhop hbeyond)
    · rw [find_of_declared hscope hbinding]
      refine Query.Yields.pure ?_
      rcases Scope.declared_cases hbinding with ⟨hitem, rfl⟩ | ⟨hitem, hmodule, rfl⟩
      · exact Names.item hscope hitem
      · exact Names.child hscope hitem hmodule
    · rw [find_of_imported hscope hbinding]
      obtain ⟨hitem, hmodule, hskip, himport⟩ := Scope.imported_cases hbinding
      refine Query.Yields.map fun s target htarget => ?_
      exact Names.imported hscope hitem hmodule hskip himport (hhop _ _ s target htarget)

end Level

theorem yields_find (hops : Nat) (skip : Option String) (module : ModulePath) (name : String) :
    (table.find .once hops skip module name).Yields fun finding =>
      table.Names skip module name finding.target := by
  induction hops generalizing skip module name with
  | zero => exact yields_find_level (fun _ _ => Query.Yields.stop) fun _ => Query.Yields.stop
  | succ hops ih =>
    have hlook : ∀ skip module name, (table.lookup .once hops skip module name).Yields
        (table.Names skip module name) :=
      fun skip module name => Query.Yields.map (ih skip module name)
    refine yields_find_level (fun skip path => ?_) fun source => ih none source name
    exact yields_follow (hlook skip module) (hlook none) path

theorem yields_query (path : Path) :
    (table.query .once module path).Yields (table.Leads none module path) :=
  yields_follow (fun name => Query.Yields.map (yields_find _ none module name))
    (fun module name => Query.Yields.map (yields_find _ none module name)) path

/-! ### What is derivable -/

/-- A symbol of the crate at hand begins with an item that a module declares, and a foreign one
belongs to an extern crate that the table knows. -/
def Grounds (table : SymbolTable) (symbol : Symbol) : Prop :=
  match symbol.home with
  | .here => ∃ (module : ModulePath) (scope : Scope) (name : String) (rest : List String),
      table.scopes.get? module = some scope ∧ name ∈ scope.items ∧
        symbol.segments = module.segments ++ name :: rest
  | .foreign crate => crate ∈ table.externs.values

theorem grounds_ofLocal {scope : Scope} {name : String}
    (hscope : table.scopes.get? module = some scope) (hitem : name ∈ scope.items) :
    table.Grounds (.ofLocal module name) :=
  ⟨module, scope, name, [], hscope, hitem, rfl⟩

theorem grounds_ofCrate {name crate : String} (h : table.externs.get? name = some crate) :
    table.Grounds (.ofCrate crate) :=
  Bindings.mem_values_of_get? h

theorem grounds_child {symbol : Symbol} (h : table.Grounds symbol) (name : String) :
    table.Grounds (symbol.child name) := by
  obtain ⟨_ | crate, segments⟩ := symbol
  · obtain ⟨module, scope, item, rest, hscope, hitem, hsegments⟩ := h
    refine ⟨module, scope, item, rest ++ [name], hscope, hitem, ?_⟩
    rw [Symbol.child, hsegments, List.append_assoc, List.cons_append]
  · exact h

mutual

/-- A symbol for which a derivation says that a name stands has a sound beginning. -/
theorem Names.grounded {skip : Option String} {module : ModulePath} {name : String}
    {target : Target} (h : table.Names skip module name target) :
    ∀ symbol, target = .symbol symbol → table.Grounds symbol := by
  match h with
  | .item hscope hitem =>
    rintro _ ⟨⟩
    exact grounds_ofLocal hscope hitem
  | .child _ _ _ => exact nofun
  | .imported _ _ _ _ _ hpath => exact hpath.grounded
  | .glob _ _ _ _ hname => exact hname.grounded
  | .foreignGlob _ _ _ hpath _ _ =>
    rintro _ ⟨⟩
    exact grounds_child (hpath.grounded _ rfl) name

/-- So has one for which a derivation says that a path stands. -/
theorem Leads.grounded {skip : Option String} {module : ModulePath} {path : Path}
    {target : Target} (h : table.Leads skip module path target) :
    ∀ symbol, target = .symbol symbol → table.Grounds symbol := by
  match h with
  | .foreign hcrate =>
    rintro _ ⟨⟩
    exact grounds_ofCrate hcrate
  | .crate | .self | .super _ | .up _ _ => exact nofun
  | .name _ hname => exact hname.grounded
  | .prelude _ hcrate =>
    rintro _ ⟨⟩
    exact grounds_ofCrate hcrate
  | .into _ _ hname => exact hname.grounded
  | .beyond hlead =>
    rintro _ ⟨⟩
    exact grounds_child (hlead.grounded _ rfl) _

end

/-- What a path resolves to is derivable from what the table binds, and it begins with an item that
is declared or with an extern crate that is known. -/
theorem resolve_sound {path : Path} {symbol : Symbol}
    (h : table.resolve module path = some symbol) :
    table.Leads none module path (.symbol symbol) ∧ table.Grounds symbol := by
  obtain ⟨target, htarget, hsymbol⟩ := Option.bind_eq_some_iff.1 h
  cases target with
  | module found => cases hsymbol
  | symbol found =>
    obtain rfl : found = symbol := Option.some.inj hsymbol
    have hleads := yields_query path [] (.symbol found) htarget
    exact ⟨hleads, hleads.grounded found rfl⟩

end SymbolTable

/-- A crate whose modules `a` and `b` have globs of each other, and which has a glob of `a` at its
root; `b` declares `Item`. -/
def cyclicCrate : Compilation :=
  (Compilation.empty "demo").addFile ⟨"lib.rs", .root, [], ⟨[],
    [.inlineModule ⟨[], .everywhere, "a"⟩ [.imports false (.path "crate" (.path "b" .glob))],
      .inlineModule ⟨[], .everywhere, "b"⟩
        [.imports false (.path "crate" (.path "a" .glob)), .named .struct "Item"],
      .imports false (.path "a" .glob)]⟩⟩

/-- Through both globs a path is found to lead into `Item`. -/
theorem resolve_sound_of_cycle :
    cyclicCrate.symbolTable.resolve .root ⟨false, ["Item", "Part"]⟩ =
        some ⟨.here, ["b", "Item", "Part"]⟩ ∧
      cyclicCrate.symbolTable.Leads none .root ⟨false, ["Item", "Part"]⟩
        (.symbol ⟨.here, ["b", "Item", "Part"]⟩) ∧
      cyclicCrate.symbolTable.Grounds ⟨.here, ["b", "Item", "Part"]⟩ := by
  have h : cyclicCrate.symbolTable.resolve .root ⟨false, ["Item", "Part"]⟩ =
      some ⟨.here, ["b", "Item", "Part"]⟩ := by decide
  exact ⟨h, SymbolTable.resolve_sound h⟩

end DescriptionLookup
