import DescriptionLookup.Names.Symbol

/-!
# Queries

A query finds out what a path or a name stands for. It may fail, and it has a memory that it keeps
when a part of it fails. What is remembered, and what follows from it, is up to a `Memory`; the one
in use is `Memory.once`, which knows the names that were already searched through the globs of a
module. `Query.outcome` is the view through which everything else is stated.
-/

namespace DescriptionLookup

/-- What a path resolves to. -/
inductive Target
  | module (path : ModulePath)
  | symbol (symbol : Symbol)
deriving DecidableEq

/-- The symbol of a target that is no module. -/
def Target.symbol? : Target → Option Symbol
  | .module _ => none
  | .symbol found => some found

/-- How a name is found in a module. -/
inductive Finding
  /-- A declaration or an import binds the name to this. -/
  | bound (target : Target)
  /-- A glob of an extern crate may bring the name in. -/
  | guessed (symbol : Symbol)
deriving DecidableEq

/-- What the name stands for, whether that is sure or not. -/
def Finding.target : Finding → Target
  | .bound found => found
  | .guessed symbol => .symbol symbol

/-- A step of a query, which may fail; what is remembered on the way is kept in any case. -/
abbrev Query (σ : Type) := OptionT (StateM σ)

/-- The answer of a query that begins with this memory, and the memory it leaves. -/
def Query.outcome {σ α : Type} (query : Query σ α) (memory : σ) : Option α × σ :=
  StateT.run (OptionT.run query) memory

/-- What a query remembers, and what it makes of it. -/
structure Memory (σ : Type) where
  /-- Whether and how to search for a name through the globs of a module, with so many hops left. -/
  search : (hops : Nat) → ModulePath → String → Query σ Finding → Query σ Finding
  /-- Takes note that a hop was needed and none was left. -/
  exhausted : σ → σ

namespace Memory

variable {σ α : Type}

/-- What a query does where a hop is needed and none is left: it fails. -/
def stop (memory : Memory σ) : Query σ α := do
  modify memory.exhausted
  failure

end Memory

/-- The names that were already searched through globs, with the module whose globs these are. -/
abbrev Searched := List (ModulePath × String)

/-- The memory in use: no name is searched through the globs of a module a second time. -/
def Memory.once : Memory Searched where
  search _ module name query := do
    if (← get).contains (module, name) then failure
    else
      modify ((module, name) :: ·)
      query
  exhausted := id

/-! ### Outcomes -/

namespace Query

variable {σ α β : Type}

@[simp] theorem outcome_pure (a : α) (s : σ) : outcome (pure a : Query σ α) s = (some a, s) := rfl

@[simp] theorem outcome_failure (s : σ) : outcome (failure : Query σ α) s = (none, s) := rfl

@[simp] theorem outcome_mk_pure (a : Option α) (s : σ) :
    outcome (OptionT.mk (pure a) : Query σ α) s = (a, s) := rfl

@[simp] theorem outcome_stop (memory : Memory σ) (s : σ) :
    outcome (memory.stop : Query σ α) s = (none, memory.exhausted s) := rfl

theorem outcome_bind (q : Query σ α) (f : α → Query σ β) (s : σ) :
    outcome (q >>= f) s =
      match outcome q s with
      | (some a, s') => outcome (f a) s'
      | (none, s') => (none, s') := by
  rcases h : outcome q s with ⟨_ | a, s'⟩ <;> unfold outcome at h ⊢ <;>
    simp only [OptionT.run_bind, Option.elimM, StateT.run_bind, h] <;> rfl

theorem outcome_orElse (q q' : Query σ α) (s : σ) :
    outcome (q <|> q') s =
      match outcome q s with
      | (some a, s') => (some a, s')
      | (none, s') => outcome q' s' := by
  rcases h : outcome q s with ⟨_ | a, s'⟩ <;> unfold outcome at h ⊢ <;>
    simp only [OptionT.run_orElse, Option.elimM, StateT.run_bind, h] <;> rfl

/-- One of two queries is enough for an answer; the second begins with what the first leaves. -/
theorem orElse_ne_none {q q' : Query σ α} {s : σ}
    (h : (outcome q s).1 ≠ none ∨ ∀ s', (outcome q' s').1 ≠ none) :
    (outcome (q <|> q') s).1 ≠ none := by
  rw [outcome_orElse]
  rcases hq : outcome q s with ⟨_ | a, s'⟩
  · rcases h with h | h
    · exact absurd (by rw [hq]) h
    · exact h s'
  · exact Option.some_ne_none a

theorem outcome_map (f : α → β) (q : Query σ α) (s : σ) :
    outcome (f <$> q) s = ((outcome q s).1.map f, (outcome q s).2) := by
  rw [show f <$> q = q >>= fun a => pure (f a) from rfl, outcome_bind]
  rcases outcome q s with ⟨_ | a, s'⟩ <;> rfl

/-- A part of a query whose failure is no failure of the whole. -/
theorem outcome_attempt (q : Query σ α) (f : Option α → Query σ β) (s : σ) :
    outcome (OptionT.lift q.run >>= f) s = outcome (f (outcome q s).1) (outcome q s).2 := rfl

end Query

end DescriptionLookup
