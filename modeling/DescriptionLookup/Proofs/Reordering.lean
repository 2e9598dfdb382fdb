import DescriptionLookup.Proofs.Parts
import DescriptionLookup.Proofs.Regions
import DescriptionLookup.Proofs.Selections

/-!
# Passes over the same parts in another order

Whether an enum gets a lookup depends on the tables, and on the enums of the same module that come
before it. A pass over a crate with the same parts therefore reports the same enums, in an order that
may differ where they belong to different modules.

* `within_foldl`: what a selection holds of one module comes from the candidates of that module;
* `Compilation.sameReports_of_sameParts`: the reports of a pass.
-/

namespace DescriptionLookup

/-- Lists that agree on each class of their members are permutations of each other. -/
theorem perm_of_filter_eq {α κ : Type} [DecidableEq α] [DecidableEq κ] {as bs : List α}
    {classOf : α → κ} (h : ∀ k, as.filter (classOf · = k) = bs.filter (classOf · = k)) :
    as.Perm bs := by
  refine List.perm_iff_count.2 fun a => ?_
  have hcount : ∀ cs : List α, (cs.filter (classOf · = classOf a)).count a = cs.count a :=
    fun cs => List.count_filter (decide_eq_true rfl)
  rw [← hcount as, h, hcount bs]

namespace Symbol

/-- The module that an item stands in. -/
def parent (symbol : Symbol) : ModulePath := ⟨symbol.segments.dropLast⟩

@[simp] theorem parent_ofLocal (module : ModulePath) (name : String) :
    (ofLocal module name).parent = module := by
  rw [parent, ofLocal, List.dropLast_concat]

end Symbol

namespace Selection

variable {table : SymbolTable} {marker : Symbol} {registered : List Symbol}

/-- What a selection holds of one module. -/
def within (module : ModulePath) (selection : Selection) : Selection where
  marked := selection.marked.filter (·.symbol.parent = module)
  skipped := selection.skipped.filter (·.symbol.parent = module)

/-- Only enums of the same module can be duplicates of a candidate. -/
theorem skipReason?_within (selection : Selection) (c : Candidate) :
    (selection.within c.module).skipReason? table c = selection.skipReason? table c := by
  have hany : (selection.within c.module).marked.any (fun e => e.key == c.key) =
      selection.marked.any fun e => e.key == c.key := by
    rw [within, List.any_filter]
    refine List.any_congr rfl fun e => ?_
    by_cases hkey : e.key = c.key
    · have hsymbol : e.symbol = c.symbol := congrArg Prod.fst hkey
      have hparent : e.symbol.parent = c.module := by
        rw [hsymbol]
        exact Symbol.parent_ofLocal c.module c.decl.name
      simp [hparent]
    · simp [hkey]
  simp only [skipReason?, hany]

theorem within_add (module : ModulePath) (selection : Selection) (c : Candidate) :
    (selection.add table marker registered c).within module =
      if c.module = module then (selection.within module).add table marker registered c
      else selection.within module := by
  have hparent : c.symbol.parent = c.module := Symbol.parent_ofLocal c.module c.decl.name
  by_cases hmodule : c.module = module
  · subst hmodule
    rw [if_pos rfl]
    unfold add
    rw [skipReason?_within]
    cases c.origin? table marker registered with
    | none => rfl
    | some origin =>
      dsimp only
      cases selection.skipReason? table c <;>
        simp [within, List.filter_append, hparent]
  · rw [if_neg hmodule]
    unfold add
    cases c.origin? table marker registered with
    | none => rfl
    | some origin =>
      dsimp only
      cases selection.skipReason? table c <;>
        simp [within, List.filter_append, hparent, hmodule]

/-- What a selection holds of one module comes from the candidates of that module. -/
theorem within_foldl (module : ModulePath) (candidates : List Candidate) (selection : Selection) :
    (candidates.foldl (add table marker registered) selection).within module =
      (candidates.filter (·.module = module)).foldl (add table marker registered)
        (selection.within module) := by
  induction candidates generalizing selection with
  | nil => rfl
  | cons c rest ih =>
    rw [List.foldl_cons, ih, within_add, List.filter_cons]
    by_cases hmodule : c.module = module
    · rw [if_pos hmodule, if_pos (decide_eq_true hmodule), List.foldl_cons]
    · rw [if_neg hmodule, if_neg (by simpa using hmodule)]

/-- It does not matter where the file of a candidate is. -/
theorem foldl_withoutFile (candidates : List Candidate) (selection : Selection) :
    (candidates.map Candidate.withoutFile).foldl (add table marker registered) selection =
      candidates.foldl (add table marker registered) selection := by
  rw [List.foldl_map]
  rfl

/-- Candidates that agree in each module lead to selections that do. -/
theorem within_foldl_eq {candidates candidates' : List Candidate}
    (h : ∀ module, (candidates.filter (·.module = module)).map Candidate.withoutFile =
      (candidates'.filter (·.module = module)).map Candidate.withoutFile)
    (selection : Selection) (module : ModulePath) :
    (candidates.foldl (add table marker registered) selection).within module =
      (candidates'.foldl (add table marker registered) selection).within module := by
  rw [within_foldl, within_foldl, ← foldl_withoutFile, h, foldl_withoutFile]

theorem described_perm {selection selection' : Selection}
    (h : ∀ module, selection.within module = selection'.within module) :
    (selection.marked.map MarkedEnum.report).Perm (selection'.marked.map MarkedEnum.report) := by
  have hfilter : ∀ (selection : Selection) (module : ModulePath),
      (selection.marked.map MarkedEnum.report).filter (·.symbol.parent = module) =
        (selection.within module).marked.map MarkedEnum.report := by
    intro selection module
    rw [List.filter_map]
    rfl
  exact perm_of_filter_eq fun module => by rw [hfilter, hfilter, h]

theorem skipped_perm {selection selection' : Selection}
    (h : ∀ module, selection.within module = selection'.within module) :
    selection.skipped.Perm selection'.skipped :=
  perm_of_filter_eq fun module => congrArg Selection.skipped (h module)

end Selection

/-! ### Reports -/

/-- Two passes fail in the same way, or report the same enums in some order. -/
def SameReports : Except Failure PassResult → Except Failure PassResult → Prop
  | .ok result, .ok result' =>
    result.described.Perm result'.described ∧ result.skipped.Perm result'.skipped
  | .error failure, .error failure' => failure = failure'
  | _, _ => False

theorem SameReports.bind {α : Type} {x : Except Failure α} {f f' : α → Except Failure PassResult}
    (h : ∀ a, x = .ok a → SameReports (f a) (f' a)) : SameReports (x >>= f) (x >>= f') := by
  cases x with
  | error failure => exact rfl
  | ok a => exact h a rfl

namespace Compilation

variable {compilation compilation' : Compilation}

theorem any_symbol_eq
    (h : ∀ module, (compilation.candidates.filter (·.module = module)).map Candidate.withoutFile =
      (compilation'.candidates.filter (·.module = module)).map Candidate.withoutFile)
    (symbol : Symbol) (hany : (compilation.candidates.any fun c => c.symbol == symbol) = true) :
    (compilation'.candidates.any fun c => c.symbol == symbol) = true := by
  obtain ⟨c, hc, hsymbol⟩ := List.any_eq_true.1 hany
  have hmem : c.withoutFile ∈
      (compilation'.candidates.filter (·.module = c.module)).map Candidate.withoutFile := by
    rw [← h]
    exact List.mem_map_of_mem (List.mem_filter.2 ⟨hc, decide_eq_true rfl⟩)
  obtain ⟨c', hc', heq⟩ := List.mem_map.1 hmem
  refine List.any_eq_true.2 ⟨c', List.mem_of_mem_filter hc', ?_⟩
  have hsymbol' : c'.withoutFile.symbol = c.withoutFile.symbol := congrArg Candidate.symbol heq
  exact (congrArg (· == symbol) hsymbol').trans hsymbol

/-- A pass over a crate with the same parts reports the same enums. -/
theorem sameReports_of_sameParts (h : SameParts compilation.parts compilation'.parts)
    (hexterns : compilation.externs = compilation'.externs)
    (hname : compilation.crateName = compilation'.crateName) (configuration : Configuration) :
    SameReports (compilation.generate configuration) (compilation'.generate configuration) := by
  have hbodies := sameBodies_of_sameParts h hexterns
  have hcandidates := candidates_of_sameParts h
  have hany : ∀ symbol, (compilation.candidates.any fun c => c.symbol == symbol) =
      compilation'.candidates.any fun c => c.symbol == symbol := fun symbol =>
    Bool.eq_iff_iff.2 ⟨any_symbol_eq hcandidates symbol,
      any_symbol_eq (fun module => (hcandidates module).symm) symbol⟩
  have hstanding : ∀ (marker : Symbol), ∀ c ∈ compilation.candidates,
      c.SameStanding compilation.symbolTable compilation'.symbolTable marker := by
    intro marker c _
    constructor
    · simp only [Candidate.carries, hbodies.resolve_eq]
    · have hreachable : compilation.symbolTable.isReachable c.module =
          compilation'.symbolTable.isReachable c.module := by
        simp only [SymbolTable.isReachable, List.contains_eq_mem, hbodies.mem_hidden_iff]
      rw [Candidate.isNameable, Candidate.isNameable, hreachable]
  unfold generate select
  simp only [bind_assoc]
  refine .bind fun _ _ => ?_
  rw [Configuration.resolveMarker_eq _ fun path _ => hbodies.resolveQualified_eq path, hname]
  refine .bind fun marker _ => ?_
  rw [Configuration.registrations_eq fun _ _ path _ => hbodies.resolveQualified_eq path]
  refine .bind fun registered _ => ?_
  rw [Selection.ofCandidates_eq (hstanding marker.symbol)]
  unfold Selection.ofCandidates
  simp only [hany]
  cases registered.find? fun symbol => !compilation'.candidates.any fun c => c.symbol == symbol with
  | some symbol => exact rfl
  | none =>
    exact ⟨Selection.described_perm (Selection.within_foldl_eq hcandidates .empty),
      Selection.skipped_perm (Selection.within_foldl_eq hcandidates .empty)⟩

end Compilation

end DescriptionLookup
