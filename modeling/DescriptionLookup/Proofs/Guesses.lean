import DescriptionLookup.Proofs.RepeatedSearches

/-!
# Guesses

The names in an extern crate are unknown, so that a glob of one can only guess. A module puts off
the guess of its own globs until all its other globs have been tried; but a guess that was made in
another module comes out of `find` like any answer, and the globs that follow are not tried.

* `throughModules`: the search through the globs of a module without a guess of its own;
* `Reaches`, `Provides`, `Blocks`: what can be found beyond globs, as far as nothing is remembered;
* `find_blank_ne_none`: what is provided beyond globs is found;
* `found_eq`: what is found beyond globs, and otherwise the module's own guess.

The main result says when a guess is the answer although the name is provided; a crate where it is
follows.
-/

namespace DescriptionLookup

namespace SymbolTable

variable {σ : Type} {table : SymbolTable}

/-! ### Steps of the search -/

section Globs

variable {followGlob : Path → Query σ Target} {look : ModulePath → Query σ Finding}
  {last : Option Symbol → Query σ Finding} {name : String} {guess : Option Symbol} {s : σ}

theorem outcome_throughGlobs_cons {glob : Path} {rest : List Path} :
    (throughGlobs followGlob look last name guess (glob :: rest)).outcome s =
      match (followGlob glob).outcome s with
      | (some (.module module), s') =>
        (look module <|> throughGlobs followGlob look last name guess rest).outcome s'
      | (some (.symbol symbol), s') =>
        (throughGlobs followGlob look last name
          (if symbol.isForeign then guess <|> some (symbol.child name) else guess) rest).outcome s'
      | (none, s') => (throughGlobs followGlob look last name guess rest).outcome s' := by
  rw [throughGlobs]
  refine (Query.outcome_attempt _ _ s).trans ?_
  rcases (followGlob glob).outcome s with ⟨_ | module | symbol, s'⟩ <;> rfl

/-- What is done at the end of the search is what is done when all else has failed. -/
theorem outcome_throughGlobs_last (globs : List Path) :
    ∃ final, (throughGlobs followGlob look last name guess globs).outcome s =
      (throughGlobs followGlob look (fun _ => failure) name guess globs <|> last final).outcome
        s := by
  induction globs generalizing guess s with
  | nil => exact ⟨guess, by rw [throughGlobs, throughGlobs, Query.outcome_orElse]; rfl⟩
  | cons glob rest ih =>
    simp only [outcome_throughGlobs_cons, Query.outcome_orElse] at ih ⊢
    rcases (followGlob glob).outcome s with ⟨_ | module | symbol, s'⟩
    · exact ih
    · rcases hlook : (look module).outcome s' with ⟨_ | finding, s''⟩
      · simp only [hlook]
        exact ih
      · simp only [hlook]
        exact ⟨none, trivial⟩
    · exact ih

/-- A name that a module beyond one of the globs has is found, if nothing is remembered. -/
theorem throughGlobs_blank_ne_none {followGlob : Path → Query Unit Target}
    {look : ModulePath → Query Unit Finding} {last : Option Symbol → Query Unit Finding}
    {glob : Path} {globs : List Path} {next : ModulePath} (hmem : glob ∈ globs)
    (hfollow : ((followGlob glob).outcome ()).1 = some (.module next))
    (hlook : ((look next).outcome ()).1 ≠ none) :
    ((throughGlobs followGlob look last name guess globs).outcome ()).1 ≠ none := by
  induction globs generalizing guess with
  | nil => exact absurd hmem List.not_mem_nil
  | cons first rest ih =>
    rw [outcome_throughGlobs_cons]
    rcases List.mem_cons.1 hmem with rfl | hmem
    · rcases h : (followGlob glob).outcome () with ⟨target, _⟩
      obtain rfl : target = some (.module next) := by rw [← hfollow, h]
      exact Query.orElse_ne_none (Or.inl hlook)
    · rcases (followGlob first).outcome () with ⟨_ | module | symbol, _⟩
      · exact ih hmem
      · exact Query.orElse_ne_none (Or.inr fun _ => ih hmem)
      · exact ih hmem

end Globs

/-- Nothing but a guess comes of a guess. -/
theorem eq_guessed_of_outcome_guess {name : String} {guess : Option Symbol} {s : σ}
    {finding : Finding} (h : ((table.guess name guess).outcome s).1 = some finding) :
    ∃ symbol, finding = .guessed symbol := by
  unfold SymbolTable.guess at h
  split at h
  · cases h
  · obtain ⟨symbol, -, rfl⟩ := Option.map_eq_some_iff.1 h
    exact ⟨symbol, rfl⟩

/-! ### Other modules -/

/-- The search for a name through the globs of a module, without a guess of its own. -/
def throughModules (table : SymbolTable) (memory : Memory σ) (hops : Nat) (module : ModulePath)
    (name : String) : Query σ Finding :=
  throughGlobs (table.hop memory hops module none) (table.beyond memory hops name)
    (fun _ => failure) name none (table.globs module)

/-- The globs of one module lead to another, which is left with so many hops; nothing is
remembered on the way. -/
inductive Reaches (table : SymbolTable) : Nat → ModulePath → Nat → ModulePath → Prop
  | refl (hops : Nat) (module : ModulePath) : Reaches table hops module hops module
  | step {hops left : Nat} {module next source : ModulePath} {glob : Path} :
    glob ∈ table.globs module →
    ((table.hop .blank (hops + 1) module none glob).outcome ()).1 = some (.module next) →
    Reaches table hops next left source → Reaches table (hops + 1) module left source

/-- A module declares the name, or imports it by a path that leads somewhere. -/
def Provides (table : SymbolTable) (hops : Nat) (module : ModulePath) (name : String) : Prop :=
  ∃ scope, table.scopes.get? module = some scope ∧
    ((∃ target, scope.binding? module none name = some (.declared target)) ∨
      ∃ path, scope.binding? module none name = some (.imported path) ∧
        ((table.hop .blank hops module (some name) path).outcome ()).1 ≠ none)

/-- A module imports the name by a path that leads nowhere. -/
def Blocks (table : SymbolTable) (hops : Nat) (module : ModulePath) (name : String) : Prop :=
  ∃ scope path, table.scopes.get? module = some scope ∧
    scope.binding? module none name = some (.imported path) ∧
    ((table.hop .blank hops module (some name) path).outcome ()).1 = none

section Reaches

variable {hops left : Nat} {module source : ModulePath} {name : String} {scope : Scope}

theorem find_blank_of_imported {path : Path} (hscope : table.scopes.get? module = some scope)
    (hbinding : scope.binding? module none name = some (.imported path))
    (hpath : ((table.hop .blank hops module (some name) path).outcome ()).1 ≠ none) :
    ((table.find .blank hops none module name).outcome ()).1 ≠ none := by
  rw [find_of_imported hscope hbinding, Query.outcome_map]
  obtain ⟨target, htarget⟩ := Option.ne_none_iff_exists'.1 hpath
  rw [htarget]
  exact Option.some_ne_none _

theorem find_blank_of_provides (h : table.Provides hops module name) :
    ((table.find .blank hops none module name).outcome ()).1 ≠ none := by
  obtain ⟨scope, hscope, ⟨target, hbinding⟩ | ⟨path, hbinding, hpath⟩⟩ := h
  · rw [find_of_declared hscope hbinding]
    exact Option.some_ne_none _
  · exact find_blank_of_imported hscope hbinding hpath

/-- What a module provides that can be reached through globs is found, unless an import on the way
leads nowhere. -/
theorem find_blank_ne_none (hreach : table.Reaches hops module left source)
    (hprovides : table.Provides left source name)
    (hfree : ∀ left source,
      table.Reaches hops module left source → ¬ table.Blocks left source name) :
    ((table.find .blank hops none module name).outcome ()).1 ≠ none := by
  induction hreach with
  | refl hops module => exact find_blank_of_provides hprovides
  | @step hops left module next source glob hmem hnext hrest ih =>
    have hfound : ((table.find .blank hops none next name).outcome ()).1 ≠ none :=
      ih hprovides fun left source hreach => hfree left source (hreach.step hmem hnext)
    cases hscope : table.scopes.get? module with
    | none =>
      rw [globs, hscope] at hmem
      exact absurd hmem List.not_mem_nil
    | some scope =>
      rcases hbinding : scope.binding? module none name with _ | target | path
      · rw [find_of_unbound hscope hbinding]
        exact throughGlobs_blank_ne_none hmem hnext hfound
      · exact find_blank_of_provides ⟨scope, hscope, Or.inl ⟨target, hbinding⟩⟩
      · refine find_blank_of_imported hscope hbinding fun hpath => ?_
        exact hfree _ _ (Reaches.refl _ _) ⟨scope, path, hscope, hbinding, hpath⟩

/-- The same for a module that does not bind the name, without a guess of its own. -/
theorem throughModules_blank_ne_none (hscope : table.scopes.get? module = some scope)
    (hunbound : scope.Unbound none name) (hreach : table.Reaches hops module left source)
    (hprovides : table.Provides left source name)
    (hfree : ∀ left source,
      table.Reaches hops module left source → ¬ table.Blocks left source name) :
    ((table.throughModules .blank hops module name).outcome ()).1 ≠ none := by
  cases hreach with
  | refl =>
    -- the module does not provide the name itself
    obtain ⟨scope', hscope', hbinding⟩ := hprovides
    obtain rfl : scope = scope' := Option.some.inj (hscope.symm.trans hscope')
    have hnone : scope.binding? module none name = none := Scope.binding?_eq_none_iff.2 hunbound
    rw [hnone] at hbinding
    obtain ⟨target, htarget⟩ | ⟨path, hpath, -⟩ := hbinding
    · cases htarget
    · cases hpath
  | step hmem hnext hrest =>
    refine throughGlobs_blank_ne_none hmem hnext (find_blank_ne_none hrest hprovides ?_)
    exact fun left source hreach => hfree left source (hreach.step hmem hnext)

end Reaches

/-! ### Answers of a search -/

section Answers

variable (table : SymbolTable) (searched : Searched) (hops : Nat) (module : ModulePath)
  (name : String)

/-- How a name is found in a module by a query that begins with these names searched. -/
def found : Option Finding := ((table.find .once hops none module name).outcome searched).1

/-- How the name is found without a guess of the module's own. -/
def foundThroughModules : Option Finding :=
  ((table.throughModules .once hops module name).outcome ((module, name) :: searched)).1

/-- The searches that are asked for on the way. -/
def searchesThroughModules : List Search :=
  ((table.throughModules .journal hops module name).outcome
    (.start ((module, name) :: searched))).2.searches

end Answers

section Answers

variable {searched : Searched} {hops left : Nat} {module source : ModulePath} {name : String}
  {scope : Scope}

/-- The searches of two memories agree without a guess of the module's own, if all that is found
does. -/
theorem agree_throughModules {τ : Type} {c : Comparison σ τ} {m : Memory σ} {m' : Memory τ}
    (hhop : Agree c (m.stop : Query σ Target) m'.stop)
    (hbeyond : Agree c (m.stop : Query σ Finding) m'.stop)
    (hfind : ∀ hops skip module name,
      Agree c (table.find m hops skip module name) (table.find m' hops skip module name)) :
    Agree c (table.throughModules m hops module name) (table.throughModules m' hops module name) :=
  agree_throughGlobs (agree_hop hhop hfind hops module none) (agree_beyond hbeyond hfind hops name)
    (fun _ => Agree.failure) name none _

theorem foundThroughModules_eq_journal : table.foundThroughModules searched hops module name =
    ((table.throughModules .journal hops module name).outcome
      (.start ((module, name) :: searched))).1 := by
  have h : Agree (Journal.forgetting false) (table.throughModules .journal hops module name)
      (table.throughModules .once hops module name) :=
    agree_throughModules agree_stop_journal agree_stop_journal
      (table.agree_find_journal false (Or.inl rfl))
  exact (h.answer_eq _).symm

/-- The answer of a module that does not bind the name is what is found through other modules, and
otherwise a guess of its own. -/
theorem found_eq (hscope : table.scopes.get? module = some scope)
    (hunbound : scope.Unbound none name) (hmem : (module, name) ∉ searched) :
    ∃ guess s, table.found searched hops module name =
      (table.foundThroughModules searched hops module name).or
        ((table.guess name guess).outcome (s : Searched)).1 := by
  have hbinding : scope.binding? module none name = none := Scope.binding?_eq_none_iff.2 hunbound
  have hlast : ∃ guess, (table.searchGlobs .once hops module name).outcome
      ((module, name) :: searched) =
        (table.throughModules .once hops module name <|> table.guess name guess).outcome
          ((module, name) :: searched) := outcome_throughGlobs_last _
  obtain ⟨guess, hguess⟩ := hlast
  rw [found, find_of_unbound hscope hbinding, Memory.outcome_once_of_not_mem hmem, hguess,
    Query.outcome_orElse, foundThroughModules]
  rcases (table.throughModules .once hops module name).outcome ((module, name) :: searched)
    with ⟨_ | finding, s⟩
  · exact ⟨guess, s, rfl⟩
  · exact ⟨guess, s, rfl⟩

/-- What a module provides is missed only if a search was refused that had something to find. -/
theorem exists_refused_of_foundThroughModules_eq_none
    (hscope : table.scopes.get? module = some scope) (hunbound : scope.Unbound none name)
    (hreach : table.Reaches hops module left source) (hprovides : table.Provides left source name)
    (hfree : ∀ left source, table.Reaches hops module left source → ¬ table.Blocks left source name)
    (h : table.foundThroughModules searched hops module name = none) :
    ∃ search ∈ table.searchesThroughModules searched hops module name,
      search.Refused ∧ search.afresh table ≠ none := by
  have hagree : Agree (refusals table) (table.throughModules .journal hops module name)
      (table.throughModules .blank hops module name) :=
    agree_throughModules agree_stop_refusals agree_stop_refusals agree_find_refusals
  rcases lost_or_same hagree ((module, name) :: searched) with hlost | ⟨-, hanswer⟩
  · exact hlost
  · rw [foundThroughModules_eq_journal, hanswer] at h
    exact absurd h (throughModules_blank_ne_none hscope hunbound hreach hprovides hfree)

/-- Where a name is provided beyond the globs of a module that does not bind it itself, the answer
is a guess in two cases: a guess of another module comes first, or nothing is found in any other
module, since a search was refused that had something to find or since an import on the way leads
nowhere. -/
theorem guess_wins_iff (hscope : table.scopes.get? module = some scope)
    (hunbound : scope.Unbound none name) (hreach : table.Reaches hops module left source)
    (hprovides : table.Provides left source name) :
    (∃ symbol, table.found searched hops module name = some (.guessed symbol)) ↔
      (module, name) ∉ searched ∧
        ((∃ symbol, table.foundThroughModules searched hops module name = some (.guessed symbol)) ∨
          (table.foundThroughModules searched hops module name = none ∧
            table.found searched hops module name ≠ none ∧
            ((∃ search ∈ table.searchesThroughModules searched hops module name,
                search.Refused ∧ search.afresh table ≠ none) ∨
              ∃ left source, table.Reaches hops module left source ∧
                table.Blocks left source name))) := by
  have hbinding : scope.binding? module none name = none := Scope.binding?_eq_none_iff.2 hunbound
  constructor
  · rintro ⟨symbol, hfound⟩
    by_cases hmem : (module, name) ∈ searched
    · rw [found, find_of_unbound hscope hbinding, Memory.outcome_once_of_mem hmem] at hfound
      cases hfound
    refine ⟨hmem, ?_⟩
    obtain ⟨guess, s, hanswer⟩ := found_eq hscope hunbound hmem
    cases hthrough : table.foundThroughModules searched hops module name with
    | some finding =>
      rw [hthrough, hfound] at hanswer
      exact Or.inl ⟨symbol, hanswer.symm⟩
    | none =>
      refine Or.inr ⟨rfl, by rw [hfound]; exact Option.some_ne_none _, ?_⟩
      by_cases hfree : ∃ left source, table.Reaches hops module left source ∧
          table.Blocks left source name
      · exact Or.inr hfree
      · refine Or.inl (exists_refused_of_foundThroughModules_eq_none hscope hunbound hreach
          hprovides (fun left source hreach hblocks => ?_) hthrough)
        exact hfree ⟨left, source, hreach, hblocks⟩
  · rintro ⟨hmem, hcases⟩
    obtain ⟨guess, s, hanswer⟩ := found_eq hscope hunbound hmem
    rcases hcases with ⟨symbol, hthrough⟩ | ⟨hthrough, hne, _⟩
    · exact ⟨symbol, by rw [hanswer, hthrough]; rfl⟩
    · obtain ⟨finding, hfinding⟩ := Option.ne_none_iff_exists'.1 hne
      rw [hanswer, hthrough, Option.none_or] at hfinding
      obtain ⟨symbol, rfl⟩ := eq_guessed_of_outcome_guess hfinding
      exact ⟨symbol, by rw [hanswer, hthrough, Option.none_or, hfinding]⟩

end Answers

end SymbolTable

/-! ### A guess that comes first -/

/-- A crate with `use a::*;` and `use b::*;` at its root, where `a` has a glob of an extern crate
and `b` declares `Item`. -/
def guessingCrate : Compilation :=
  ((Compilation.empty "demo").addExtern "macros" "macros").addFile ⟨"lib.rs", .root, [], ⟨[],
    [.inlineModule ⟨[], .everywhere, "a"⟩ [.imports true (.path "macros" .glob)],
      .inlineModule ⟨[], .everywhere, "b"⟩ [.named .struct "Item"],
      .imports false (.path "a" .glob),
      .imports false (.path "b" .glob)]⟩⟩

theorem scope_guessingCrate : guessingCrate.symbolTable.scopes.get? .root =
    some ⟨[], ["a", "b"], .empty, [⟨false, ["a"]⟩, ⟨false, ["b"]⟩]⟩ := rfl

theorem unbound_guessingCrate :
    Scope.Unbound ⟨[], ["a", "b"], .empty, [⟨false, ["a"]⟩, ⟨false, ["b"]⟩]⟩ none "Item" :=
  ⟨by decide, by decide, Or.inr rfl⟩

theorem reaches_guessingCrate : guessingCrate.symbolTable.Reaches 16 .root 15 ⟨["b"]⟩ := by
  have hmem : (⟨false, ["b"]⟩ : Path) ∈ guessingCrate.symbolTable.globs .root := by decide
  exact .step hmem (by decide) (.refl 15 ⟨["b"]⟩)

theorem provides_guessingCrate : guessingCrate.symbolTable.Provides 15 ⟨["b"]⟩ "Item" :=
  ⟨⟨["Item"], [], .empty, []⟩, rfl, Or.inl ⟨.symbol ⟨.here, ["b", "Item"]⟩, rfl⟩⟩

/-- The root does not bind `Item`, and a module beyond one of its globs declares it; but the guess
of the module beyond the other glob is the answer. -/
theorem nested_guess_wins :
    (∃ scope, guessingCrate.symbolTable.scopes.get? .root = some scope ∧
        scope.Unbound none "Item") ∧
      guessingCrate.symbolTable.Reaches 16 .root 15 ⟨["b"]⟩ ∧
      guessingCrate.symbolTable.Provides 15 ⟨["b"]⟩ "Item" ∧
      guessingCrate.symbolTable.found [] 16 .root "Item" =
        some (.guessed ⟨.foreign "macros", ["Item"]⟩) ∧
      guessingCrate.symbolTable.resolve .root (.ofName "Item") =
        some ⟨.foreign "macros", ["Item"]⟩ :=
  ⟨⟨_, scope_guessingCrate, unbound_guessingCrate⟩, reaches_guessingCrate, provides_guessingCrate,
    by decide, by decide⟩

/-- Of the two cases it is the first: the guess is what is found through other modules. -/
theorem guess_wins_through_modules :
    (∃ symbol, guessingCrate.symbolTable.found [] 16 .root "Item" = some (.guessed symbol)) ∧
      ∃ symbol, guessingCrate.symbolTable.foundThroughModules [] 16 .root "Item" =
        some (.guessed symbol) := by
  have hfound : guessingCrate.symbolTable.found [] 16 .root "Item" =
      some (.guessed ⟨.foreign "macros", ["Item"]⟩) := by decide
  obtain ⟨-, hcases⟩ := (SymbolTable.guess_wins_iff scope_guessingCrate unbound_guessingCrate
    reaches_guessingCrate provides_guessingCrate).1 ⟨_, hfound⟩
  refine ⟨⟨_, hfound⟩, ?_⟩
  rcases hcases with hnested | ⟨hnone, _⟩
  · exact hnested
  · exact absurd hnone (by decide)

end DescriptionLookup
