import DescriptionLookup.Proofs.Journal

/-!
# Repeated searches

A query searches for a name through the globs of a module only once. What it found then is not
remembered, so that a second search for the name is refused even where the first was successful.
The refusals are harmless exactly as long as none of the refused searches would have found
anything. They are not always so: the paths of two globs may have a first name in common that is
itself found through a glob.

* `searches`, `resolveAfresh`: what a query searches for, and what comes of it without refusals;
* `refusals`: the comparison of both, which ends with the first search that is lost;
* `lost_or_same`: either a search is lost, or nothing is different.
-/

namespace DescriptionLookup

/-- How the name would be found in a query that refuses no search. -/
def Search.afresh (table : SymbolTable) (search : Search) : Option Finding :=
  ((table.searchGlobs .blank search.hops search.module search.name).outcome ()).1

namespace SymbolTable

variable (table : SymbolTable) (module : ModulePath) (path : Path)

/-- The searches that are asked for in the query for a path. -/
def searches : List Search := ((table.query .journal module path).outcome (.start [])).2.searches

/-- The symbol of the item that a path in a module would name if no search were refused. -/
def resolveAfresh : Option Symbol :=
  ((table.query .blank module path).outcome ()).1.bind Target.symbol?

/-- A query with a journal is compared with one that refuses no search, until a search is refused
that has something to find. -/
def refusals : Comparison Journal Unit where
  same journal _ := ∀ search ∈ journal.searches, search.answer = search.afresh table
  spoilt journal := ∃ search ∈ journal.searches, search.Refused ∧ search.afresh table ≠ none

variable {table}

theorem spoilt_note {journal : Journal} (h : (refusals table).spoilt journal) (search : Search) :
    (refusals table).spoilt (journal.note search) := by
  obtain ⟨earlier, hmem, hlost⟩ := h
  exact ⟨earlier, List.mem_cons_of_mem _ hmem, hlost⟩

theorem same_note {journal : Journal} (h : (refusals table).same journal ()) {search : Search}
    (hsearch : search.answer = search.afresh table) :
    (refusals table).same (journal.note search) () := by
  intro other hmem
  rcases List.mem_cons.1 hmem with rfl | hmem
  · exact hsearch
  · exact h other hmem

/-- A query that agrees with one in which no search is refused either loses a search, or every
search has its answer, and so has the query. -/
theorem lost_or_same {α : Type} {q : Query Journal α} {q' : Query Unit α}
    (h : Agree (refusals table) q q') (searched : Searched) :
    (∃ search ∈ (q.outcome (.start searched)).2.searches,
        search.Refused ∧ search.afresh table ≠ none) ∨
      (∀ search ∈ (q.outcome (.start searched)).2.searches, search.answer = search.afresh table) ∧
        (q.outcome (.start searched)).1 = (q'.outcome ()).1 := by
  have hstart : (refusals table).same (.start searched) () := by
    intro search hmem
    exact absurd hmem List.not_mem_nil
  rcases h.agrees (.start searched) () hstart with hlost | ⟨hanswer, hsame⟩
  · exact Or.inl hlost
  · exact Or.inr ⟨hsame, hanswer⟩

/-- A search agrees with the one that is not refused if what is searched does. -/
theorem agree_search_refusals {hops : Nat} {module : ModulePath} {name : String}
    (h : Agree (refusals table) (table.searchGlobs .journal hops module name)
      (table.searchGlobs .blank hops module name)) :
    Agree (refusals table)
      (Memory.journal.search hops module name (table.searchGlobs .journal hops module name))
      (Memory.blank.search hops module name (table.searchGlobs .blank hops module name)) := by
  refine ⟨fun j hj => ?_, fun j _ hsame => ?_⟩
  · by_cases hmem : (module, name) ∈ j.searched
    · rw [Memory.outcome_journal_of_mem hmem]
      exact spoilt_note hj _
    · rw [Memory.outcome_journal_of_not_mem hmem]
      exact spoilt_note (h.stays (j.mark module name) hj) _
  · by_cases hmem : (module, name) ∈ j.searched
    · -- refused: either there is nothing to find, or the comparison ends here
      rw [Memory.outcome_journal_of_mem hmem]
      by_cases hfound : Search.afresh table ⟨hops, module, name, none⟩ = none
      · exact Or.inr ⟨hfound.symm, same_note hsame hfound.symm⟩
      · exact Or.inl ⟨_, List.mem_cons_self, rfl, hfound⟩
    · rw [Memory.outcome_journal_of_not_mem hmem]
      rcases h.agrees (j.mark module name) () hsame with hspoilt | ⟨hanswer, hsame⟩
      · exact Or.inl (spoilt_note hspoilt _)
      · exact Or.inr ⟨hanswer, same_note hsame hanswer⟩

/-- No hop is left for one memory where none is for the other. -/
theorem agree_stop_refusals {α : Type} :
    Agree (refusals table) (Memory.journal.stop : Query Journal α) Memory.blank.stop :=
  Agree.stop (fun _ h => h) fun _ _ h => h

theorem agree_find_refusals (hops : Nat) (skip : Option String) (module : ModulePath)
    (name : String) :
    Agree (refusals table) (table.find .journal hops skip module name)
      (table.find .blank hops skip module name) :=
  agree_find 0 (fun _ _ _ => agree_stop_refusals) (fun _ _ => agree_stop_refusals)
    (fun _ _ _ h => agree_search_refusals h) hops skip module name

theorem agree_query_refusals :
    Agree (refusals table) (table.query .journal module path) (table.query .blank module path) :=
  agree_hop agree_stop_refusals agree_find_refusals (maximalHops + 1) module none path

variable (table)

/-- The refusals change nothing that is found in a query, and thereby not what the path resolves to,
exactly if none of the refused searches would have found anything. -/
theorem refusals_harmless_iff :
    (∀ search ∈ table.searches module path, search.Refused → search.afresh table = none) ↔
      (∀ search ∈ table.searches module path, search.answer = search.afresh table) ∧
        table.resolve module path = table.resolveAfresh module path := by
  constructor
  · intro h
    rcases lost_or_same (agree_query_refusals module path) []
      with ⟨search, hmem, hrefused, hlost⟩ | ⟨hsame, hanswer⟩
    · exact absurd (h search hmem hrefused) hlost
    · refine ⟨hsame, ?_⟩
      rw [resolve, resolveAfresh, target?_eq_journal, hanswer]
  · rintro ⟨hsame, -⟩ search hmem hrefused
    rw [← hsame search hmem, Search.answer, hrefused]
    rfl

end SymbolTable

/-! ### A lost search -/

/-- A crate with `use prelude::*;`, `use x::p::*;` and `use x::q::*;` at its root, where `x` is a
module in `prelude`, and `q` declares `Item`. -/
def preludeCrate : Compilation :=
  (Compilation.empty "demo").addFile ⟨"lib.rs", .root, [], ⟨[],
    [.inlineModule ⟨[], .everywhere, "prelude"⟩
      [.inlineModule ⟨[], .everywhere, "x"⟩
        [.inlineModule ⟨[], .everywhere, "p"⟩ [],
          .inlineModule ⟨[], .everywhere, "q"⟩ [.named .struct "Item"]]],
      .imports false (.path "prelude" .glob),
      .imports false (.path "x" (.path "p" .glob)),
      .imports false (.path "x" (.path "q" .glob))]⟩⟩

/-- The path of the second glob needs `x` again, whose search is refused; so `Item` is lost. -/
theorem second_glob_lost :
    preludeCrate.symbolTable.resolve .root (.ofName "Item") = none ∧
      preludeCrate.symbolTable.resolveAfresh .root (.ofName "Item") =
        some ⟨.here, ["prelude", "x", "q", "Item"]⟩ := by
  decide

end DescriptionLookup
