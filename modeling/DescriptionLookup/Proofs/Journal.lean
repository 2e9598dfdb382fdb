import DescriptionLookup.Proofs.Agreement

/-!
# Queries with a journal

Two further memories for the recursion of resolution. With `Memory.journal` a query refuses repeated
searches as it does with `Memory.once`, but also writes down every search it is asked for, and
whether it ran out of hops; `agree_find_journal` says that this changes nothing. With
`Memory.blank` a query remembers nothing, and no search is refused.

* `Search`, `Journal`: what is written down;
* `Memory.journal`, `Memory.blank`, and what comes of a search with each memory;
* `agree_find_journal`, `target?_eq_journal`: a journal does not change what is found.
-/

namespace DescriptionLookup

/-! ### Memories -/

/-- A search for a name through the globs of a module, as it was asked for in a query. -/
structure Search where
  /-- The number of hops that were left. -/
  hops : Nat
  module : ModulePath
  name : String
  /-- How the name was found, if it was; nothing at all if the search was refused. -/
  result : Option (Option Finding)

/-- The search was refused since it had been made before. -/
def Search.Refused (search : Search) : Prop := search.result = none

/-- What the query learned from the search. -/
def Search.answer (search : Search) : Option Finding := search.result.join

/-- What happened in a query. -/
structure Journal where
  /-- The names that were searched through globs. -/
  searched : Searched
  /-- The searches that were asked for, the last one first. -/
  searches : List Search
  /-- A hop was needed and none was left. -/
  exhausted : Bool

namespace Journal

/-- The journal of a query that begins with these names searched. -/
def start (searched : Searched) : Journal := ⟨searched, [], false⟩

/-- The journal with a name marked as searched. -/
def mark (journal : Journal) (module : ModulePath) (name : String) : Journal :=
  { journal with searched := (module, name) :: journal.searched }

/-- The journal with one more search. -/
def note (journal : Journal) (search : Search) : Journal :=
  { journal with searches := search :: journal.searches }

end Journal

namespace Memory

/-- The memory that refuses what `once` refuses, and keeps a journal. -/
def journal : Memory Journal where
  search hops module name query := OptionT.mk do
    if (← get).searched.contains (module, name) then
      modify (·.note ⟨hops, module, name, none⟩)
      return none
    else
      modify (·.mark module name)
      let answer ← query.run
      modify (·.note ⟨hops, module, name, some answer⟩)
      return answer
  exhausted journal := { journal with exhausted := true }

/-- The memory that remembers nothing and refuses nothing. -/
def blank : Memory Unit where
  search _ _ _ query := query
  exhausted := id

variable {hops : Nat} {module : ModulePath} {name : String}

theorem outcome_once_of_mem {searched : Searched} (h : (module, name) ∈ searched)
    (q : Query Searched Finding) :
    (once.search hops module name q).outcome searched = (none, searched) := by
  have hcontains : searched.contains (module, name) = true := List.contains_iff_mem.2 h
  show Query.outcome (if searched.contains (module, name) = true then failure else _) searched = _
  rw [if_pos hcontains, Query.outcome_failure]

theorem outcome_once_of_not_mem {searched : Searched} (h : (module, name) ∉ searched)
    (q : Query Searched Finding) :
    (once.search hops module name q).outcome searched = q.outcome ((module, name) :: searched) := by
  have hcontains : ¬ searched.contains (module, name) = true := fun e =>
    h (List.contains_iff_mem.1 e)
  show Query.outcome (if searched.contains (module, name) = true then failure else
    (modify ((module, name) :: ·) >>= fun _ => q)) searched = _
  rw [if_neg hcontains]
  rfl

theorem outcome_journal_of_mem {j : Journal} (h : (module, name) ∈ j.searched)
    (q : Query Journal Finding) :
    (journal.search hops module name q).outcome j =
      (none, j.note ⟨hops, module, name, none⟩) := by
  have hcontains : j.searched.contains (module, name) = true := List.contains_iff_mem.2 h
  show StateT.run (m := Id) (if j.searched.contains (module, name) = true then _ else _) j = _
  rw [if_pos hcontains]
  rfl

theorem outcome_journal_of_not_mem {j : Journal} (h : (module, name) ∉ j.searched)
    (q : Query Journal Finding) :
    (journal.search hops module name q).outcome j =
      ((q.outcome (j.mark module name)).1,
        (q.outcome (j.mark module name)).2.note
          ⟨hops, module, name, some (q.outcome (j.mark module name)).1⟩) := by
  have hcontains : ¬ j.searched.contains (module, name) = true := fun e =>
    h (List.contains_iff_mem.1 e)
  show StateT.run (m := Id) (if j.searched.contains (module, name) = true then _ else _) j = _
  rw [if_neg hcontains]
  rfl

end Memory

/-! ### The journal changes nothing -/

/-- A journal is compared with the names that were searched. If `strict`, the comparison is given up
where a hop is missing. -/
def Journal.forgetting (strict : Bool) : Comparison Journal Searched where
  same journal searched := journal.searched = searched
  spoilt journal := strict = true ∧ journal.exhausted = true

/-- Where the comparison is never given up, both answers are the same. -/
theorem Agree.answer_eq {α : Type} {q : Query Journal α} {q' : Query Searched α}
    (h : Agree (Journal.forgetting false) q q') (searched : Searched) :
    (q.outcome (.start searched)).1 = (q'.outcome searched).1 := by
  rcases h.agrees (.start searched) searched rfl with ⟨hstrict, -⟩ | ⟨hanswer, -⟩
  · exact absurd hstrict Bool.false_ne_true
  · exact hanswer

theorem agree_search_journal {strict : Bool} {q : Query Journal Finding}
    {q' : Query Searched Finding} (h : Agree (Journal.forgetting strict) q q') (hops hops' : Nat)
    (module : ModulePath) (name : String) :
    Agree (Journal.forgetting strict) (Memory.journal.search hops module name q)
      (Memory.once.search hops' module name q') := by
  refine ⟨fun j hj => ?_, fun j searched hsame => ?_⟩
  · by_cases hmem : (module, name) ∈ j.searched
    · rw [Memory.outcome_journal_of_mem hmem]
      exact hj
    · rw [Memory.outcome_journal_of_not_mem hmem]
      exact h.stays (j.mark module name) hj
  · obtain rfl : j.searched = searched := hsame
    by_cases hmem : (module, name) ∈ j.searched
    · rw [Memory.outcome_journal_of_mem hmem, Memory.outcome_once_of_mem hmem]
      exact Or.inr ⟨rfl, rfl⟩
    · rw [Memory.outcome_journal_of_not_mem hmem, Memory.outcome_once_of_not_mem hmem]
      exact h.agrees (j.mark module name) _ rfl

namespace SymbolTable

/-- No hop is left with a journal where none is without one. -/
theorem agree_stop_journal {α : Type} {strict : Bool} :
    Agree (Journal.forgetting strict) (Memory.journal.stop : Query Journal α) Memory.once.stop :=
  Agree.stop (fun _ hj => ⟨hj.1, rfl⟩) fun _ _ hsame => hsame

/-- What is found with a journal is found without one. With more hops the same is found as long as
no hop was missing. -/
theorem agree_find_journal (table : SymbolTable) (strict : Bool) {more : Nat}
    (h : more = 0 ∨ strict = true) (hops : Nat) (skip : Option String) (module : ModulePath)
    (name : String) :
    Agree (Journal.forgetting strict) (table.find .journal hops skip module name)
      (table.find .once (hops + more) skip module name) := by
  have hstop : strict = true → ∀ j : Journal,
      (Journal.forgetting strict).spoilt (Memory.journal.exhausted j) := fun h _ => ⟨h, rfl⟩
  refine agree_find more (fun module skip path => ?_) (fun name module => ?_)
    (fun hops module name hq => agree_search_journal hq hops _ module name) hops skip module name
  · obtain rfl | hstrict := h
    · exact agree_stop_journal
    · exact Agree.stop_of_spoilt (hstop hstrict) _
  · obtain rfl | hstrict := h
    · exact agree_stop_journal
    · exact Agree.stop_of_spoilt (hstop hstrict) _

/-- The answer of a query is the same with a journal. -/
theorem target?_eq_journal (table : SymbolTable) (module : ModulePath) (path : Path) :
    table.target? module path = ((table.query .journal module path).outcome (.start [])).1 := by
  have h : Agree (Journal.forgetting false) (table.query .journal module path)
      (table.query .once module path) :=
    agree_hop agree_stop_journal (table.agree_find_journal false (Or.inl rfl)) (maximalHops + 1)
      module none path
  exact (h.answer_eq []).symm

end SymbolTable

end DescriptionLookup
