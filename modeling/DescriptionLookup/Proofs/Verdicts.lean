import DescriptionLookup.Proofs.Selections
import Mathlib.Data.List.Induction
import Mathlib.Data.List.Nodup

/-!
# A verdict on every candidate

A selection considers the candidates one by one and remembers only the enums marked and skipped so
far. This module says what comes of the whole run: a list of verdicts, one on each candidate and in
the order of the candidates, of which the marked and the skipped enums are the two parts.

* `Verdict.Fits`: which verdict is right, given those on the candidates before;
* `Verdict.fits_verdict`, `Verdict.Fits.unique`: one step finds the right verdict, and there is only
  one;
* `Selection.ofCandidates_eq_iff`: what a whole run yields, and when it fails.
-/

namespace DescriptionLookup

/-- What is decided on a candidate. -/
inductive Verdict
  | unmarked
  | marked (origin : Origin)
  | skipped (reason : SkipReason)
deriving DecidableEq

/-- Candidates with the verdicts on them, the earliest first. -/
abbrev Verdicts := List (Candidate × Verdict)

variable {table : SymbolTable} {marker : Symbol} {registered : List Symbol}
  {before verdicts : Verdicts} {c : Candidate} {v v' : Verdict}

/-! ### What a verdict depends on -/

namespace Candidate

/-- One of the derives stands for the marker. -/
def Derives (c : Candidate) (table : SymbolTable) (marker : Symbol) : Prop :=
  ∃ path ∈ c.decl.derives, table.resolve c.module path = some marker

/-- The enum is marked, by a derive or by a registration. -/
def OptsIn (c : Candidate) (table : SymbolTable) (marker : Symbol) (registered : List Symbol) :
    Prop :=
  c.Derives table marker ∨ c.symbol ∈ registered

/-- An earlier declaration of this symbol under these gates was marked and not skipped. -/
def IsRepeated (c : Candidate) (before : Verdicts) : Prop :=
  ∃ earlier origin, (earlier, Verdict.marked origin) ∈ before ∧ earlier.key = c.key

theorem carries_iff : c.carries table marker = true ↔ c.Derives table marker := by
  simp [carries, Derives, List.any_eq_true]

theorem origin?_eq_none : c.origin? table marker registered = none ↔
    ¬ c.OptsIn table marker registered := by
  unfold origin? OptsIn
  rw [← carries_iff]
  split <;> simp_all

theorem origin?_eq_some {origin : Origin} : c.origin? table marker registered = some origin ↔
    c.OptsIn table marker registered ∧ (origin = .derived ↔ c.Derives table marker) := by
  unfold origin? OptsIn
  rw [← carries_iff]
  cases origin <;> split <;> simp_all

end Candidate

/-! ### The right verdict -/

namespace Verdict

/-- The entry of a candidate among the marked enums. -/
def markedEnum? (c : Candidate) : Verdict → Option MarkedEnum
  | .marked origin => some ⟨c.symbol, c.decl, origin, c.gates⟩
  | _ => none

/-- The entry of a candidate among the skipped enums. -/
def skippedEnum? (c : Candidate) : Verdict → Option SkippedEnum
  | .skipped reason => some ⟨c.symbol, reason⟩
  | _ => none

/-- The verdict on a candidate is the right one after these verdicts on those before it. -/
structure Fits (table : SymbolTable) (marker : Symbol) (registered : List Symbol)
    (before : Verdicts) (c : Candidate) (v : Verdict) : Prop where
  unmarked_iff : v = .unmarked ↔ ¬ c.OptsIn table marker registered
  duplicate_iff : v = .skipped .duplicate ↔
    c.OptsIn table marker registered ∧ c.IsRepeated before
  notNameable_iff : v = .skipped .notNameable ↔
    c.OptsIn table marker registered ∧ ¬ c.IsRepeated before ∧ c.isNameable table = false
  marked_iff : ∀ origin, v = .marked origin ↔
    c.OptsIn table marker registered ∧ ¬ c.IsRepeated before ∧ c.isNameable table = true ∧
      (origin = .derived ↔ c.Derives table marker)

/-- There is only one right verdict. -/
theorem Fits.unique (h : v.Fits table marker registered before c)
    (h' : v'.Fits table marker registered before c) : v' = v := by
  cases v with
  | unmarked => exact h'.unmarked_iff.2 (h.unmarked_iff.1 rfl)
  | marked origin => exact (h'.marked_iff origin).2 ((h.marked_iff origin).1 rfl)
  | skipped reason =>
    cases reason with
    | notNameable => exact h'.notNameable_iff.2 (h.notNameable_iff.1 rfl)
    | duplicate => exact h'.duplicate_iff.2 (h.duplicate_iff.1 rfl)

end Verdict

/-- Every verdict is right. -/
def Verdicts.Right (table : SymbolTable) (marker : Symbol) (registered : List Symbol)
    (verdicts : Verdicts) : Prop :=
  ∀ before c v after, verdicts = before ++ (c, v) :: after →
    v.Fits table marker registered before c

namespace Selection

/-- The selection that verdicts amount to. -/
def ofVerdicts (verdicts : Verdicts) : Selection where
  marked := verdicts.filterMap fun (c, v) => v.markedEnum? c
  skipped := verdicts.filterMap fun (c, v) => v.skippedEnum? c

theorem mem_keys_ofVerdicts :
    c.key ∈ (ofVerdicts verdicts).marked.map MarkedEnum.key ↔ c.IsRepeated verdicts := by
  simp only [ofVerdicts, List.mem_map, List.mem_filterMap, Candidate.IsRepeated]
  constructor
  · rintro ⟨e, ⟨⟨earlier, v⟩, hmem, he⟩, hkey⟩
    cases v with
    | marked origin =>
      cases he
      exact ⟨earlier, origin, hmem, hkey⟩
    | unmarked => cases he
    | skipped reason => cases he
  · rintro ⟨earlier, origin, hmem, hkey⟩
    exact ⟨_, ⟨(earlier, .marked origin), hmem, rfl⟩, hkey⟩

theorem skipReason?_of_isRepeated (h : c.IsRepeated before) :
    (ofVerdicts before).skipReason? table c = some .duplicate := by
  have hany : (ofVerdicts before).marked.any (fun e => e.key == c.key) = true := by
    simpa using mem_keys_ofVerdicts.2 h
  simp only [skipReason?, hany, if_true]

theorem skipReason?_of_not_isRepeated (h : ¬ c.IsRepeated before) :
    (ofVerdicts before).skipReason? table c =
      if c.isNameable table then none else some .notNameable := by
  have hany : ¬ (ofVerdicts before).marked.any (fun e => e.key == c.key) = true := by
    simpa using mt mem_keys_ofVerdicts.1 h
  unfold skipReason?
  rw [if_neg hany]

/-! ### One candidate -/

/-- The verdict that the selection so far leads to. -/
def verdict (table : SymbolTable) (marker : Symbol) (registered : List Symbol)
    (selection : Selection) (c : Candidate) : Verdict :=
  match c.origin? table marker registered, selection.skipReason? table c with
  | none, _ => .unmarked
  | some _, some reason => .skipped reason
  | some origin, none => .marked origin

/-- Considering a candidate is entering the verdict on it. -/
theorem add_ofVerdicts (before : Verdicts) (c : Candidate) :
    (ofVerdicts before).add table marker registered c =
      ofVerdicts (before ++ [(c, verdict table marker registered (ofVerdicts before) c)]) := by
  unfold add verdict
  cases c.origin? table marker registered with
  | none => simp [ofVerdicts, Verdict.markedEnum?, Verdict.skippedEnum?]
  | some origin =>
    cases (ofVerdicts before).skipReason? table c with
    | none => simp [ofVerdicts, Verdict.markedEnum?, Verdict.skippedEnum?]
    | some reason => simp [ofVerdicts, Verdict.markedEnum?, Verdict.skippedEnum?]

end Selection

/-- One step finds the right verdict. -/
theorem Verdict.fits_verdict (before : Verdicts) (c : Candidate) :
    (Selection.verdict table marker registered (.ofVerdicts before) c).Fits table marker registered
      before c := by
  unfold Selection.verdict
  cases horigin : c.origin? table marker registered with
  | none =>
    have hout := Candidate.origin?_eq_none.1 horigin
    constructor <;> simp [hout]
  | some origin =>
    obtain ⟨hin, hderived⟩ := Candidate.origin?_eq_some.1 horigin
    by_cases hrepeated : c.IsRepeated before
    · rw [Selection.skipReason?_of_isRepeated hrepeated]
      constructor <;> simp [hin, hrepeated]
    · rw [Selection.skipReason?_of_not_isRepeated hrepeated]
      cases hnameable : c.isNameable table with
      | false => constructor <;> simp [hin, hrepeated, hnameable]
      | true =>
        constructor
        case marked_iff =>
          intro origin'
          rw [← hderived]
          cases origin <;> cases origin' <;> simp [hin, hrepeated, hnameable]
        all_goals simp [hin, hrepeated, hnameable]

/-! ### All candidates -/

namespace Verdicts

theorem right_nil : Right table marker registered [] := by
  intro before c v after h
  cases before <;> cases h

theorem right_append_singleton : Right table marker registered (verdicts ++ [(c, v)]) ↔
    Right table marker registered verdicts ∧ v.Fits table marker registered verdicts c := by
  constructor
  · intro h
    refine ⟨fun before c' v' after heq => ?_, h verdicts c v [] rfl⟩
    exact h before c' v' (after ++ [(c, v)]) (by rw [heq, List.append_assoc, List.cons_append])
  · rintro ⟨hinit, hlast⟩ before c' v' after heq
    rcases List.eq_nil_or_concat after with rfl | ⟨after, last, rfl⟩
    · obtain ⟨rfl, hpair⟩ := List.append_inj' heq rfl
      obtain ⟨rfl, rfl⟩ := Prod.mk.inj (List.singleton_inj.1 hpair)
      exact hlast
    · rw [List.concat_eq_append, ← List.cons_append, ← List.append_assoc] at heq
      exact hinit before c' v' after (List.append_inj' heq rfl).1

/-- Right verdicts amount to what considering the candidates one by one yields. -/
theorem Right.foldl_eq (h : Right table marker registered verdicts) :
    (verdicts.map Prod.fst).foldl (Selection.add table marker registered) .empty =
      .ofVerdicts verdicts := by
  induction verdicts using List.reverseRecOn with
  | nil => rfl
  | append_singleton init last ih =>
    obtain ⟨c, v⟩ := last
    obtain ⟨hinit, hlast⟩ := right_append_singleton.1 h
    rw [List.map_append, List.foldl_append, ih hinit]
    show (Selection.ofVerdicts init).add table marker registered c = _
    rw [Selection.add_ofVerdicts, hlast.unique (Verdict.fits_verdict init c)]

/-- There is a right verdict on every candidate. -/
theorem exists_right (candidates : List Candidate) :
    ∃ verdicts : Verdicts, verdicts.map Prod.fst = candidates ∧
      Right table marker registered verdicts := by
  induction candidates using List.reverseRecOn with
  | nil => exact ⟨[], rfl, right_nil⟩
  | append_singleton init c ih =>
    obtain ⟨verdicts, rfl, hright⟩ := ih
    exact ⟨verdicts ++ [(c, _)], by simp,
      right_append_singleton.2 ⟨hright, Verdict.fits_verdict verdicts c⟩⟩

/-- No two marked enums have the same symbol and the same gates. -/
theorem Right.nodup_keys (h : Right table marker registered verdicts) :
    ((Selection.ofVerdicts verdicts).marked.map MarkedEnum.key).Nodup := by
  induction verdicts using List.reverseRecOn with
  | nil => exact List.nodup_nil
  | append_singleton init last ih =>
    obtain ⟨c, v⟩ := last
    obtain ⟨hinit, hlast⟩ := right_append_singleton.1 h
    cases v with
    | marked origin =>
      have hnew : ¬ c.IsRepeated init := ((hlast.marked_iff origin).1 rfl).2.1
      have hmarked : (Selection.ofVerdicts (init ++ [(c, .marked origin)])).marked =
          (Selection.ofVerdicts init).marked ++ [⟨c.symbol, c.decl, origin, c.gates⟩] := by
        simp [Selection.ofVerdicts, Verdict.markedEnum?]
      have hnodup := List.Nodup.concat (mt Selection.mem_keys_ofVerdicts.1 hnew) (ih hinit)
      rw [hmarked, List.map_append]
      rwa [List.concat_eq_append] at hnodup
    | unmarked => simpa [Selection.ofVerdicts, Verdict.markedEnum?] using ih hinit
    | skipped reason => simpa [Selection.ofVerdicts, Verdict.markedEnum?] using ih hinit

end Verdicts

/-! ### The whole run -/

namespace Selection

variable {candidates : List Candidate}

theorem isMissing_iff {symbol : Symbol} :
    (!candidates.any fun c => c.symbol == symbol) = true ↔ ∀ c ∈ candidates, c.symbol ≠ symbol := by
  simp

theorem not_isMissing_iff {symbol : Symbol} :
    (!candidates.any fun c => c.symbol == symbol) = false ↔
      ∃ c ∈ candidates, c.symbol = symbol := by
  simp

theorem ofCandidates_eq_ok {selection : Selection} :
    ofCandidates table marker registered candidates = .ok selection ↔
      (∀ symbol ∈ registered, ∃ c ∈ candidates, c.symbol = symbol) ∧
      candidates.foldl (add table marker registered) empty = selection := by
  unfold ofCandidates
  split
  case h_1 symbol hfind =>
    have hmissing : ∀ c ∈ candidates, c.symbol ≠ symbol :=
      isMissing_iff.1 (List.find?_eq_some_iff_append.1 hfind).1
    refine ⟨fun h => (by cases h), fun ⟨h, _⟩ => ?_⟩
    obtain ⟨c, hc, hsymbol⟩ := h symbol (List.mem_of_find?_eq_some hfind)
    exact absurd hsymbol (hmissing c hc)
  case h_2 hfind =>
    have hmet : ∀ symbol ∈ registered, ∃ c ∈ candidates, c.symbol = symbol := fun symbol hmem =>
      not_isMissing_iff.1 (Bool.eq_false_iff.2 (List.find?_eq_none.1 hfind symbol hmem))
    exact ⟨fun h => ⟨hmet, Except.ok.inj h⟩, fun ⟨_, h⟩ => congrArg Except.ok h⟩

theorem ofCandidates_eq_error {failure : Failure} :
    ofCandidates table marker registered candidates = .error failure ↔
      ∃ met symbol rest, registered = met ++ symbol :: rest ∧
        (∀ earlier ∈ met, ∃ c ∈ candidates, c.symbol = earlier) ∧
        (∀ c ∈ candidates, c.symbol ≠ symbol) ∧
        failure = .unresolved symbol.text .declaredEnum := by
  unfold ofCandidates
  split
  case h_1 symbol hfind =>
    obtain ⟨hmissing, met, rest, hsplit, hmet⟩ := List.find?_eq_some_iff_append.1 hfind
    constructor
    · intro h
      cases h
      refine ⟨met, symbol, rest, hsplit, fun earlier hmem => ?_, isMissing_iff.1 hmissing, rfl⟩
      exact not_isMissing_iff.1 (by simpa using hmet earlier hmem)
    · rintro ⟨met', symbol', rest', hsplit', hmet', hmissing', rfl⟩
      -- The search stops at the first missing registration, and this is one.
      have hfind' : registered.find? (fun symbol => !candidates.any fun c => c.symbol == symbol) =
          some symbol' :=
        List.find?_eq_some_iff_append.2 ⟨isMissing_iff.2 hmissing', met', rest', hsplit',
          fun earlier hmem => by rw [not_isMissing_iff.2 (hmet' earlier hmem)]; rfl⟩
      cases hfind.symm.trans hfind'
      rfl
  case h_2 hfind =>
    refine ⟨fun h => (by cases h), ?_⟩
    rintro ⟨met, symbol, rest, rfl, _, hmissing, _⟩
    exact absurd (isMissing_iff.2 hmissing) (List.find?_eq_none.1 hfind symbol (by simp))

/-- A selection fails at the first registered enum that is none of the candidates. Otherwise it
splits right verdicts, one on each candidate, into the marked and the skipped enums, both in the
order of the candidates, and no two of the marked have the same symbol and the same gates. -/
theorem ofCandidates_eq_iff (table : SymbolTable) (marker : Symbol) (registered : List Symbol)
    (candidates : List Candidate) :
    (∀ selection, ofCandidates table marker registered candidates = .ok selection ↔
      (∀ symbol ∈ registered, ∃ c ∈ candidates, c.symbol = symbol) ∧
      (selection.marked.map MarkedEnum.key).Nodup ∧
      ∃ verdicts : Verdicts, verdicts.map Prod.fst = candidates ∧
        (∀ before c v after, verdicts = before ++ (c, v) :: after →
          v.Fits table marker registered before c) ∧
        selection.marked = verdicts.filterMap (fun (c, v) => v.markedEnum? c) ∧
        selection.skipped = verdicts.filterMap (fun (c, v) => v.skippedEnum? c)) ∧
    (∀ failure, ofCandidates table marker registered candidates = .error failure ↔
      ∃ met symbol rest, registered = met ++ symbol :: rest ∧
        (∀ earlier ∈ met, ∃ c ∈ candidates, c.symbol = earlier) ∧
        (∀ c ∈ candidates, c.symbol ≠ symbol) ∧
        failure = .unresolved symbol.text .declaredEnum) := by
  refine ⟨fun selection => ofCandidates_eq_ok.trans (and_congr_right fun _ => ⟨?_, ?_⟩),
    fun failure => ofCandidates_eq_error⟩
  · rintro rfl
    obtain ⟨verdicts, rfl, hright⟩ : ∃ verdicts : Verdicts, verdicts.map Prod.fst = candidates ∧
        verdicts.Right table marker registered := Verdicts.exists_right candidates
    rw [hright.foldl_eq]
    exact ⟨hright.nodup_keys, verdicts, rfl, hright, rfl, rfl⟩
  · rintro ⟨_, verdicts, rfl, hright, hmarked, hskipped⟩
    rw [Verdicts.Right.foldl_eq hright]
    cases selection
    exact (Selection.mk.injEq ..).mpr ⟨hmarked.symm, hskipped.symm⟩

end Selection

end DescriptionLookup
