import DescriptionLookup.Proofs.Recursion

/-!
# Agreement of queries

Two runs of the recursion that differ in what they remember, or in the number of hops they may
take, are compared step by step. `Agree` says that two queries have the same answer and leave
corresponding memories, unless something happens in the first after which the comparison is given
up. Each operation of resolution preserves it, and with it every answer of `find`.

* `Comparison`: which memories correspond, and which spoil the comparison;
* `Agree` and its rules for the operations of queries;
* `agree_follow`, `agree_throughGlobs`, `agree_findIn`: the rules for those of resolution;
* `agree_find`: two memories whose searches agree find the same;
* `agree_hop`, `agree_beyond`: what follows for the hops of a search.
-/

namespace DescriptionLookup

variable {σ τ α β : Type}

/-- How the memories of two queries are compared. -/
structure Comparison (σ τ : Type) where
  /-- The two memories correspond. -/
  same : σ → τ → Prop
  /-- Something is remembered after which nothing is compared. -/
  spoilt : σ → Prop

/-- Two queries have the same answer and leave corresponding memories, unless the first is spoilt on
the way; once it is, it stays so. -/
structure Agree (c : Comparison σ τ) (q : Query σ α) (q' : Query τ α) : Prop where
  stays : ∀ s, c.spoilt s → c.spoilt (q.outcome s).2
  agrees : ∀ s t, c.same s t → c.spoilt (q.outcome s).2 ∨
    ((q.outcome s).1 = (q'.outcome t).1 ∧ c.same (q.outcome s).2 (q'.outcome t).2)

namespace Agree

variable {c : Comparison σ τ}

/-! ### Operations of queries -/

theorem mk_pure (a : Option α) :
    Agree c (OptionT.mk (Pure.pure a) : Query σ α) (OptionT.mk (Pure.pure a)) := by
  refine ⟨fun s hs => ?_, fun s t hst => Or.inr ⟨?_, ?_⟩⟩
  · rw [Query.outcome_mk_pure]
    exact hs
  · rw [Query.outcome_mk_pure, Query.outcome_mk_pure]
  · rw [Query.outcome_mk_pure, Query.outcome_mk_pure]
    exact hst

theorem pure (a : α) : Agree c (Pure.pure a : Query σ α) (Pure.pure a) := mk_pure (some a)

theorem failure : Agree c (Alternative.failure : Query σ α) Alternative.failure := mk_pure none

theorem bind {q : Query σ α} {q' : Query τ α} {f : α → Query σ β} {f' : α → Query τ β}
    (h : Agree c q q') (hf : ∀ a, Agree c (f a) (f' a)) : Agree c (q >>= f) (q' >>= f') := by
  have stays : ∀ s, c.spoilt (q.outcome s).2 → c.spoilt ((q >>= f).outcome s).2 := by
    intro s hs
    rw [Query.outcome_bind]
    generalize q.outcome s = r at hs ⊢
    rcases r with ⟨_ | a, s'⟩
    · exact hs
    · exact (hf a).stays s' hs
  refine ⟨fun s hs => stays s (h.stays s hs), fun s t hst => ?_⟩
  rcases h.agrees s t hst with hspoilt | ⟨hanswer, hsame⟩
  · exact Or.inl (stays s hspoilt)
  · rw [Query.outcome_bind, Query.outcome_bind]
    generalize q.outcome s = r at hanswer hsame ⊢
    generalize q'.outcome t = r' at hanswer hsame ⊢
    obtain ⟨a, s'⟩ := r
    obtain ⟨_, t'⟩ := r'
    cases hanswer
    cases a with
    | none => exact Or.inr ⟨rfl, hsame⟩
    | some a => exact (hf a).agrees s' t' hsame

theorem map {q : Query σ α} {q' : Query τ α} (f : α → β) (h : Agree c q q') :
    Agree c (f <$> q) (f <$> q') :=
  h.bind fun a => pure (f a)

theorem orElse {p q : Query σ α} {p' q' : Query τ α} (hp : Agree c p p') (hq : Agree c q q') :
    Agree c (p <|> q) (p' <|> q') := by
  have stays : ∀ s, c.spoilt (p.outcome s).2 → c.spoilt ((p <|> q).outcome s).2 := by
    intro s hs
    rw [Query.outcome_orElse]
    generalize p.outcome s = r at hs ⊢
    rcases r with ⟨_ | a, s'⟩
    · exact hq.stays s' hs
    · exact hs
  refine ⟨fun s hs => stays s (hp.stays s hs), fun s t hst => ?_⟩
  rcases hp.agrees s t hst with hspoilt | ⟨hanswer, hsame⟩
  · exact Or.inl (stays s hspoilt)
  · rw [Query.outcome_orElse, Query.outcome_orElse]
    generalize p.outcome s = r at hanswer hsame ⊢
    generalize p'.outcome t = r' at hanswer hsame ⊢
    obtain ⟨a, s'⟩ := r
    obtain ⟨_, t'⟩ := r'
    cases hanswer
    cases a with
    | none => exact hq.agrees s' t' hsame
    | some a => exact Or.inr ⟨rfl, hsame⟩

/-- A part whose failure is no failure of the whole. -/
theorem attempt {q : Query σ α} {q' : Query τ α} {f : Option α → Query σ β}
    {f' : Option α → Query τ β} (h : Agree c q q') (hf : ∀ a, Agree c (f a) (f' a)) :
    Agree c (OptionT.lift q.run >>= f) (OptionT.lift q'.run >>= f') := by
  refine ⟨fun s hs => ?_, fun s t hst => ?_⟩
  · rw [Query.outcome_attempt]
    exact (hf _).stays _ (h.stays s hs)
  · rw [Query.outcome_attempt, Query.outcome_attempt]
    rcases h.agrees s t hst with hspoilt | ⟨hanswer, hsame⟩
    · exact Or.inl ((hf _).stays _ hspoilt)
    · rw [← hanswer]
      exact (hf _).agrees _ _ hsame

theorem stop {m : Memory σ} {m' : Memory τ}
    (hspoilt : ∀ s, c.spoilt s → c.spoilt (m.exhausted s))
    (hsame : ∀ s t, c.same s t → c.same (m.exhausted s) (m'.exhausted t)) :
    Agree c (m.stop : Query σ α) m'.stop :=
  ⟨hspoilt, fun s t hst => Or.inr ⟨rfl, hsame s t hst⟩⟩

/-- Where no hop is left the comparison may be given up. -/
theorem stop_of_spoilt {m : Memory σ} (h : ∀ s, c.spoilt (m.exhausted s)) (q : Query τ α) :
    Agree c m.stop q :=
  ⟨fun s _ => h s, fun s _ _ => Or.inl (h s)⟩

theorem foldlM {f : α → β → Query σ α} {f' : α → β → Query τ α}
    (h : ∀ a b, Agree c (f a b) (f' a b)) (names : List β) (a : α) :
    Agree c (names.foldlM f a) (names.foldlM f' a) := by
  induction names generalizing a with
  | nil => exact pure a
  | cons b rest ih =>
    rw [List.foldlM_cons, List.foldlM_cons]
    exact (h a b).bind ih

end Agree

/-! ### Operations of resolution -/

namespace SymbolTable

variable {c : Comparison σ τ} {table : SymbolTable}

theorem agree_enter {look : Look σ} {look' : Look τ}
    (h : ∀ module name, Agree c (look none module name) (look' none module name))
    (target : Target) (name : String) :
    Agree c (enter look target name) (enter look' target name) := by
  cases target with
  | symbol symbol => exact Agree.pure _
  | module module =>
    by_cases hsuper : name = "super"
    · simp only [enter, hsuper, if_true]
      exact Agree.mk_pure _
    · simp only [enter, hsuper, if_false]
      exact h module name

theorem agree_anchor {look : Look σ} {look' : Look τ} {skip skip' : Option String}
    {module : ModulePath} {absolute : Bool} {name : String}
    (h : absolute = false → Agree c (look skip module name) (look' skip' module name)) :
    Agree c (table.anchor look skip module absolute name)
      (table.anchor look' skip' module absolute name) := by
  cases absolute with
  | true => exact Agree.mk_pure _
  | false =>
    simp only [anchor, Bool.false_eq_true, if_false]
    split
    · exact Agree.pure _
    split
    · exact Agree.pure _
    split
    · exact Agree.mk_pure _
    · exact (h rfl).orElse (Agree.mk_pure _)

theorem agree_follow {look : Look σ} {look' : Look τ} {skip skip' : Option String}
    {module : ModulePath} {path : Path}
    (hfirst : ∀ first, path.segments.head? = some first → path.absolute = false →
      Agree c (look skip module first) (look' skip' module first))
    (hrest : ∀ module name, Agree c (look none module name) (look' none module name)) :
    Agree c (table.follow look skip module path) (table.follow look' skip' module path) := by
  obtain ⟨absolute, _ | ⟨first, rest⟩⟩ := path
  · exact Agree.failure
  · refine (agree_anchor (hfirst first rfl)).bind fun target => ?_
    exact Agree.foldlM (agree_enter hrest) rest target

theorem agree_guess (name : String) (symbol : Option Symbol) :
    Agree c (table.guess name symbol : Query σ Finding) (table.guess name symbol) := by
  unfold guess
  split
  · exact Agree.failure
  · exact Agree.mk_pure _

theorem agree_throughGlobs
    {followGlob : Path → Query σ Target} {followGlob' : Path → Query τ Target}
    {look : ModulePath → Query σ Finding} {look' : ModulePath → Query τ Finding}
    {last : Option Symbol → Query σ Finding} {last' : Option Symbol → Query τ Finding}
    (hfollow : ∀ glob, Agree c (followGlob glob) (followGlob' glob))
    (hlook : ∀ module, Agree c (look module) (look' module))
    (hlast : ∀ guess, Agree c (last guess) (last' guess)) (name : String) (guess : Option Symbol)
    (globs : List Path) :
    Agree c (throughGlobs followGlob look last name guess globs)
      (throughGlobs followGlob' look' last' name guess globs) := by
  induction globs generalizing guess with
  | nil => exact hlast guess
  | cons glob rest ih =>
    refine (hfollow glob).attempt fun target => ?_
    match target with
    | none => exact ih guess
    | some (.module module) => exact (hlook module).orElse (ih guess)
    | some (.symbol symbol) => exact ih _

/-- What is found in a module where hops agree, and searches through its globs do. -/
theorem agree_findIn {search : Query σ Finding → Query σ Finding}
    {search' : Query τ Finding → Query τ Finding} {hop : Option String → Path → Query σ Target}
    {hop' : Option String → Path → Query τ Target} {look : ModulePath → Query σ Finding}
    {look' : ModulePath → Query τ Finding} {module : ModulePath} {name : String}
    (hhop : ∀ skip path, Agree c (hop skip path) (hop' skip path))
    (hsearch :
      Agree c (search (throughGlobs (hop none) look (table.guess name) name none
          (table.globs module)))
        (search' (throughGlobs (hop' none) look' (table.guess name) name none
          (table.globs module))))
    (skip : Option String) :
    Agree c (table.findIn search hop look skip module name)
      (table.findIn search' hop' look' skip module name) := by
  cases hscope : table.scopes.get? module with
  | none =>
    rw [findIn, findIn, hscope]
    exact Agree.failure
  | some scope =>
    rw [globs_of_scope hscope] at hsearch
    rw [findIn, findIn, hscope]
    rcases hbinding : scope.binding? module skip name with _ | target | path
    · simp only [hbinding]
      exact hsearch
    · simp only [hbinding]
      exact Agree.pure _
    · simp only [hbinding]
      exact (hhop (some name) path).map _

section Levels

variable {m : Memory σ} {m' : Memory τ} {hops hops' : Nat}

/-- The search through globs at two levels whose hops agree. -/
theorem agree_searchGlobs
    (hhop : ∀ module skip path,
      Agree c (table.hop m hops module skip path) (table.hop m' hops' module skip path))
    (hbeyond : ∀ name module,
      Agree c (table.beyond m hops name module) (table.beyond m' hops' name module))
    (module : ModulePath) (name : String) :
    Agree c (table.searchGlobs m hops module name) (table.searchGlobs m' hops' module name) :=
  agree_throughGlobs (hhop module none) (hbeyond name) (agree_guess name) name none _

/-- What is found at two levels whose hops and searches agree. -/
theorem agree_find_level
    (hhop : ∀ module skip path,
      Agree c (table.hop m hops module skip path) (table.hop m' hops' module skip path))
    (hsearch : ∀ module name,
      Agree c (m.search hops module name (table.searchGlobs m hops module name))
        (m'.search hops' module name (table.searchGlobs m' hops' module name)))
    (skip : Option String) (module : ModulePath) (name : String) :
    Agree c (table.find m hops skip module name) (table.find m' hops' skip module name) := by
  rw [find_eq, find_eq]
  exact agree_findIn (hhop module) (hsearch module name) skip

end Levels

/-- Where the same is found with any number of hops, a path leads to the same. -/
theorem agree_hop {m : Memory σ} {m' : Memory τ} (hstop : Agree c (m.stop : Query σ Target) m'.stop)
    (hfind : ∀ hops skip module name,
      Agree c (table.find m hops skip module name) (table.find m' hops skip module name))
    (hops : Nat) (module : ModulePath) (skip : Option String) (path : Path) :
    Agree c (table.hop m hops module skip path) (table.hop m' hops module skip path) := by
  cases hops with
  | zero => exact hstop
  | succ hops =>
    exact agree_follow (fun first _ _ => (hfind hops skip module first).map _)
      fun module name => (hfind hops none module name).map _

theorem agree_beyond {m : Memory σ} {m' : Memory τ}
    (hstop : Agree c (m.stop : Query σ Finding) m'.stop)
    (hfind : ∀ hops skip module name,
      Agree c (table.find m hops skip module name) (table.find m' hops skip module name))
    (hops : Nat) (name : String) (module : ModulePath) :
    Agree c (table.beyond m hops name module) (table.beyond m' hops name module) := by
  cases hops with
  | zero => exact hstop
  | succ hops => exact hfind hops none module name

/-- A run and another one with `more` hops left at every point find the same, if their searches
agree as far as what is searched does, and if they agree where the first has no hop left. -/
theorem agree_find {m : Memory σ} {m' : Memory τ} (more : Nat)
    (hhop : ∀ module skip path,
      Agree c (table.hop m 0 module skip path) (table.hop m' more module skip path))
    (hbeyond : ∀ name module,
      Agree c (table.beyond m 0 name module) (table.beyond m' more name module))
    (hsearch : ∀ hops module name,
      Agree c (table.searchGlobs m hops module name)
        (table.searchGlobs m' (hops + more) module name) →
      Agree c (m.search hops module name (table.searchGlobs m hops module name))
        (m'.search (hops + more) module name (table.searchGlobs m' (hops + more) module name)))
    (hops : Nat) (skip : Option String) (module : ModulePath) (name : String) :
    Agree c (table.find m hops skip module name)
      (table.find m' (hops + more) skip module name) := by
  induction hops generalizing skip module name with
  | zero =>
    rw [Nat.zero_add]
    refine agree_find_level hhop (fun module name => ?_) skip module name
    have h := hsearch 0 module name
    rw [Nat.zero_add] at h
    exact h (agree_searchGlobs hhop hbeyond module name)
  | succ hops ih =>
    have hlook : ∀ skip module name, Agree c (table.lookup m hops skip module name)
        (table.lookup m' (hops + more) skip module name) :=
      fun skip module name => (ih skip module name).map _
    have hhop' : ∀ module skip path, Agree c (table.hop m (hops + 1) module skip path)
        (table.hop m' (hops + more + 1) module skip path) :=
      fun module skip path =>
        agree_follow (fun first _ _ => hlook skip module first)
          fun module name => hlook none module name
    have hbeyond' : ∀ name module, Agree c (table.beyond m (hops + 1) name module)
        (table.beyond m' (hops + more + 1) name module) :=
      fun name module => ih none module name
    rw [Nat.succ_add]
    refine agree_find_level hhop' (fun module name => ?_) skip module name
    have h := hsearch (hops + 1) module name
    rw [Nat.succ_add] at h
    exact h (agree_searchGlobs hhop' hbeyond' module name)

end SymbolTable

end DescriptionLookup
