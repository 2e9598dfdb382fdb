import DescriptionLookup.Proofs.Shadowing

/-!
# Chains of imports

A crate may hand an item on from module to module, each of which imports it from the next one. To
follow such a chain takes one hop for each import, and nothing else takes any: going down from the
crate root through child modules is free, and so is the look at the item itself. So a chain is
followed to its end exactly if it has no more imports than a query may take hops.

* `IsStraight`: a module to which the names on the way to it lead;
* `Chain`: so many imports in a row, and an item at the end;
* `outcome_find_chain`: what comes of following a chain with so many hops left;
* `resolve_chain`: what the first name of a chain stands for;
* `linkedCrate`: a crate with a chain of 17 imports.
-/

namespace DescriptionLookup

namespace SymbolTable

variable {table : SymbolTable} {module source : ModulePath} {name item : String} {length : Nat}

/-- The module, and each one around it, is declared in the module around that one, where no item has
its name. A word with a meaning of its own is no name. -/
def IsStraight (table : SymbolTable) (module : ModulePath) : Prop :=
  ∀ around name, module.IsWithin (around.child name) →
    table.DeclaresModule around name ∧ name ∉ anchors

/-- So many imports lead from a name in a module to an item of another module. Each module on the
way imports a name, which it does not declare, by a path that begins at the crate root and goes down
through child modules. The words with a meaning of their own are no names here either. -/
inductive Chain (table : SymbolTable) (source : ModulePath) (item : String) :
    Nat → ModulePath → String → Prop
  | item {scope : Scope} : table.scopes.get? source = some scope → item ∈ scope.items →
    item ∉ anchors → Chain table source item 0 source item
  | link {length : Nat} {module next : ModulePath} {name nextName : String} {scope : Scope} :
    table.scopes.get? module = some scope → name ∉ scope.items → name ∉ scope.modules →
    name ∉ anchors →
    scope.imports.get? name = some ⟨false, "crate" :: next.segments ++ [nextName]⟩ →
    table.IsStraight next → Chain table source item length next nextName →
    Chain table source item (length + 1) module name

theorem Chain.not_mem_anchors (h : table.Chain source item length module name) :
    name ∉ anchors := by
  cases h with
  | item _ _ hname => exact hname
  | link _ _ _ hname _ _ _ => exact hname

theorem ne_super_of_not_mem_anchors (h : name ∉ anchors) : name ≠ "super" := by
  rintro rfl
  exact h (by decide)

theorem isStraight_root : table.IsStraight .root := by
  intro around name hwithin
  exact absurd hwithin (by simp [ModulePath.IsWithin, ModulePath.child, ModulePath.root])

theorem IsStraight.child (h : table.IsStraight module)
    (hdeclares : table.DeclaresModule module name) (hname : name ∉ anchors) :
    table.IsStraight (module.child name) := by
  intro around inner hwithin
  rcases List.prefix_concat_iff.1 hwithin with heq | hprefix
  · obtain ⟨rfl, rfl⟩ := ModulePath.child_inj (congrArg ModulePath.mk heq)
    exact ⟨hdeclares, hname⟩
  · exact h around inner hprefix

/-- The names on the way to a straight module lead to it, and no hop is taken. -/
theorem foldlM_enter_straight {σ : Type} {memory : Memory σ} {hops : Nat}
    (h : table.IsStraight module) :
    module.segments.foldlM (enter (table.lookup memory hops)) (.module .root) =
      pure (.module module) := by
  obtain ⟨segments⟩ := module
  induction segments using List.reverseRecOn with
  | nil => rfl
  | append_singleton segments last ih =>
    have haround : table.IsStraight ⟨segments⟩ := fun around name hwithin =>
      h around name ((ModulePath.IsWithin.child ⟨segments⟩ last).trans hwithin)
    obtain ⟨hdeclares, hname⟩ := h ⟨segments⟩ last (.refl _)
    rw [List.foldlM_append, ih haround, pure_bind, List.foldlM_cons, enter,
      if_neg (ne_super_of_not_mem_anchors hname), lookup_of_module hdeclares]
    rfl

/-- A path from the crate root through child modules ends where its last name is looked up. -/
theorem follow_crate {σ : Type} {memory : Memory σ} {hops : Nat} {around next : ModulePath}
    (h : table.IsStraight next) (hname : name ∉ anchors) (skip : Option String) :
    table.follow (table.lookup memory hops) skip around
        ⟨false, "crate" :: next.segments ++ [name]⟩ =
      table.lookup memory hops none next name := by
  show (pure (.module .root) >>= (next.segments ++ [name]).foldlM (enter _)) = _
  rw [pure_bind, List.foldlM_append, foldlM_enter_straight h, pure_bind, List.foldlM_cons, enter,
    if_neg (ne_super_of_not_mem_anchors hname)]
  exact bind_pure _

/-- The first name of a chain is found where as many hops are left as the chain has imports, and
nowhere else. -/
theorem outcome_find_chain (h : table.Chain source item length module name) (hops : Nat)
    (searched : Searched) :
    (table.find .once hops none module name).outcome searched =
      (if length ≤ hops then some (.bound (.symbol (.ofLocal source item))) else none,
        searched) := by
  -- From the end of the chain backwards: each import takes one hop from all that comes after it.
  induction h generalizing hops with
  | @item scope hscope hitem hname =>
    have hbinding : scope.binding? source none item =
        some (.declared (.symbol (.ofLocal source item))) := by
      simp [Scope.binding?, hitem]
    rw [find_of_declared hscope hbinding, if_pos (Nat.zero_le hops), Query.outcome_pure]
  | @link length module next name nextName scope hscope hitem hmodule hname himport hstraight hchain
      ih =>
    rw [find_of_imported hscope (Scope.binding?_of_import hitem hmodule himport),
      Query.outcome_map]
    cases hops with
    | zero =>
      rw [hop, Query.outcome_stop, if_neg (Nat.not_succ_le_zero length)]
      rfl
    | succ hops =>
      rw [hop, follow_crate hstraight hchain.not_mem_anchors, lookup, Query.outcome_map, ih]
      simp only [Nat.add_le_add_iff_right]
      split <;> rfl

/-- The first name of a chain of imports stands for the item at its end if the chain has at most 16
imports, and for nothing if it has more. -/
theorem resolve_chain (h : table.Chain source item length module name)
    (hunknown : table.externs.get? name = none) :
    table.resolve module (.ofName name) =
      if length ≤ 16 then some (.ofLocal source item) else none := by
  have hfollow : table.query .once module (.ofName name) =
      (table.lookup .once 16 none module name <|> OptionT.mk (pure (table.externRoot? name))) := by
    show table.anchor _ none module false name >>= _ = _
    rw [anchor_of_not_mem h.not_mem_anchors]
    exact bind_pure _
  have hfind := outcome_find_chain h 16 []
  rw [resolve, target?, hfollow, Query.outcome_orElse, lookup, Query.outcome_map, hfind]
  by_cases hlength : length ≤ 16
  · rw [if_pos hlength, if_pos hlength]
    rfl
  · -- Where the chain is too long, only an extern crate of this name could stand in.
    rw [if_neg hlength, if_neg hlength, externRoot?, hunknown]
    rfl

end SymbolTable

/-! ### A chain of 17 imports -/

/-- The names of the chain. -/
def linkName (n : Nat) : String := "x" ++ toString n

/-- The modules of the chain are the crate root and its module `m` in turn. -/
def linkModule (n : Nat) : ModulePath := if n % 2 = 0 then .root else ⟨["m"]⟩

/-- The import of one name by the one before. -/
def linkImport (n : Nat) : Item :=
  let link : UseTree := .rename (linkName (n + 1)) (linkName n)
  .imports false (.path "crate" (if n % 2 = 0 then .path "m" link else link))

/-- A crate with `use crate::m::x1 as x0;` and so on at its root, and with `use crate::x2 as x1;`
and so on in its module `m`, which declares `x17`. -/
def linkedCrate : Compilation :=
  (Compilation.empty "demo").addFile ⟨"lib.rs", .root, [], ⟨[],
    .inlineModule ⟨[], .everywhere, "m"⟩ (.named .struct "x17" ::
        ((List.range 17).filter (· % 2 = 1)).map linkImport) ::
      ((List.range 17).filter (· % 2 = 0)).map linkImport⟩⟩

theorem linkModule_isStraight (n : Nat) : linkedCrate.symbolTable.IsStraight (linkModule n) := by
  rw [linkModule]
  split
  · exact SymbolTable.isStraight_root
  · obtain ⟨scope, hscope, hdeclared⟩ : ∃ scope ∈ linkedCrate.symbolTable.scopes.get? .root,
        "m" ∈ scope.modules ∧ "m" ∉ scope.items := by decide +kernel
    exact SymbolTable.isStraight_root.child ⟨scope, hscope, hdeclared⟩ (by decide)

/-- Each of the first 17 names is imported by its module, and not declared there. -/
theorem linkModule_imports : ∀ n < 17,
    ∃ scope ∈ linkedCrate.symbolTable.scopes.get? (linkModule n),
      linkName n ∉ scope.items ∧ linkName n ∉ scope.modules ∧ linkName n ∉ SymbolTable.anchors ∧
      scope.imports.get? (linkName n) =
        some ⟨false, "crate" :: (linkModule (n + 1)).segments ++ [linkName (n + 1)]⟩ := by
  decide +kernel

theorem linkedCrate_chain : ∀ length ≤ 17,
    linkedCrate.symbolTable.Chain ⟨["m"]⟩ "x17" length (linkModule (17 - length))
      (linkName (17 - length)) := by
  intro length hlength
  induction length with
  | zero =>
    obtain ⟨scope, hscope, hitem⟩ : ∃ scope ∈ linkedCrate.symbolTable.scopes.get? ⟨["m"]⟩,
        "x17" ∈ scope.items := by decide +kernel
    exact .item hscope hitem (by decide)
  | succ length ih =>
    obtain ⟨scope, hscope, hitem, hmodule, hname, himport⟩ :=
      linkModule_imports (17 - (length + 1)) (by omega)
    have hnext : 17 - (length + 1) + 1 = 17 - length := by omega
    rw [hnext] at himport
    exact .link hscope hitem hmodule hname himport (linkModule_isStraight _) (ih (by omega))

/-- The 16 imports from `x1` on lead to the item, and the 17 from `x0` on do not. -/
theorem resolve_chain_linkedCrate :
    linkedCrate.symbolTable.resolve ⟨["m"]⟩ (.ofName "x1") = some (.ofLocal ⟨["m"]⟩ "x17") ∧
      linkedCrate.symbolTable.resolve .root (.ofName "x0") = none :=
  ⟨SymbolTable.resolve_chain (linkedCrate_chain 16 (by decide)) (by decide +kernel),
    SymbolTable.resolve_chain (linkedCrate_chain 17 (by decide)) (by decide +kernel)⟩

end DescriptionLookup
