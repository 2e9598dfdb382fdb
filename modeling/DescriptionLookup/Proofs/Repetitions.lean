import DescriptionLookup.Proofs.Verdicts
import Mathlib.Data.List.Pairwise

/-!
# Enums that are declared more than once

Two declarations of one enum count as the same if the lists of their gates are equal. What matters
for a build is the set of the gates: declarations with the same set exist together or not at all, in
whatever order the gates are written and however often.

* `Verdicts.Right.mem_keys_iff`: which keys are marked after all candidates are considered;
* `Compilation.described_apart_iff`: described enums differ in their symbols or in their sets of
  gates exactly if the declarations spell equal sets alike.

`described_twice` shows two declarations that do not.
-/

namespace DescriptionLookup

/-! ### Keys -/

namespace Verdicts

variable {table : SymbolTable} {marker : Symbol} {registered : List Symbol} {verdicts : Verdicts}

theorem Right.fits_of_mem (h : Right table marker registered verdicts) {c : Candidate} {v : Verdict}
    (hmem : (c, v) ∈ verdicts) :
    ∃ before after, verdicts = before ++ (c, v) :: after ∧
      v.Fits table marker registered before c := by
  obtain ⟨before, after, hsplit⟩ := List.append_of_mem hmem
  exact ⟨before, after, hsplit, h before c v after hsplit⟩

/-- A marked enum is a candidate that opts in and can be named. -/
theorem Right.exists_of_mem_marked (h : Right table marker registered verdicts) {e : MarkedEnum}
    (he : e ∈ (Selection.ofVerdicts verdicts).marked) :
    ∃ c ∈ verdicts.map Prod.fst, c.OptsIn table marker registered ∧ c.isNameable table = true ∧
      e.symbol = c.symbol ∧ e.decl = c.decl ∧ e.gates = c.gates := by
  obtain ⟨⟨c, v⟩, hmem, hmarked⟩ := List.mem_filterMap.1 he
  cases v with
  | marked origin =>
    cases hmarked
    obtain ⟨before, after, -, hfits⟩ := h.fits_of_mem hmem
    obtain ⟨hin, -, hnameable, -⟩ := (hfits.marked_iff origin).1 rfl
    exact ⟨c, List.mem_map_of_mem hmem, hin, hnameable, rfl, rfl, rfl⟩
  | unmarked => cases hmarked
  | skipped reason => cases hmarked

/-- The keys of the marked enums are those of the candidates that opt in and can be named: a
candidate that repeats an earlier one has the key of an enum that is marked. -/
theorem Right.mem_keys_iff (h : Right table marker registered verdicts)
    {key : Symbol × List String} :
    key ∈ (Selection.ofVerdicts verdicts).marked.map MarkedEnum.key ↔
      ∃ c ∈ verdicts.map Prod.fst, c.OptsIn table marker registered ∧
        c.isNameable table = true ∧ c.key = key := by
  constructor
  · intro hkey
    obtain ⟨e, he, rfl⟩ := List.mem_map.1 hkey
    obtain ⟨c, hc, hin, hnameable, hsymbol, -, hgates⟩ := h.exists_of_mem_marked he
    exact ⟨c, hc, hin, hnameable, Prod.ext hsymbol.symm hgates.symm⟩
  · rintro ⟨c, hc, hin, hnameable, rfl⟩
    obtain ⟨⟨found, v⟩, hmem, rfl⟩ := List.mem_map.1 hc
    obtain ⟨before, after, hsplit, hfits⟩ := h.fits_of_mem hmem
    refine Selection.mem_keys_ofVerdicts.2 ?_
    by_cases hrepeated : found.IsRepeated before
    · obtain ⟨earlier, origin, hearlier, hkey⟩ := hrepeated
      exact ⟨earlier, origin, hsplit ▸ List.mem_append_left _ hearlier, hkey⟩
    · cases v with
      | marked origin => exact ⟨_, origin, hmem, rfl⟩
      | unmarked => exact absurd hin (hfits.unmarked_iff.1 rfl)
      | skipped reason =>
        cases reason with
        | duplicate => exact absurd (hfits.duplicate_iff.1 rfl).2 hrepeated
        | notNameable =>
          rw [(hfits.notNameable_iff.1 rfl).2.2] at hnameable
          cases hnameable

end Verdicts

/-! ### Passes -/

/-- What distinguishes declarations that can exist in one build. -/
def DescribedEnum.key (e : DescribedEnum) : Symbol × List String := (e.symbol, e.gates)

namespace Compilation

variable {compilation : Compilation} {configuration : Configuration} {result : PassResult}

/-- An enum is marked in a pass, by a derive or by a registration. -/
def IsMarked (compilation : Compilation) (configuration : Configuration) (c : Candidate) : Prop :=
  ∃ marker registered,
    configuration.resolveMarker compilation.symbolTable compilation.crateName = .ok marker ∧
    configuration.registrations compilation.symbolTable = .ok registered ∧
    c.OptsIn compilation.symbolTable marker.symbol registered

theorem isMarked_iff {marker : Marker} {registered : List Symbol} {c : Candidate}
    (hmarker : configuration.resolveMarker compilation.symbolTable compilation.crateName =
      .ok marker)
    (hregistered : configuration.registrations compilation.symbolTable = .ok registered) :
    compilation.IsMarked configuration c ↔
      c.OptsIn compilation.symbolTable marker.symbol registered := by
  refine ⟨?_, fun h => ⟨marker, registered, hmarker, hregistered, h⟩⟩
  rintro ⟨marker', registered', hmarker', hregistered', h⟩
  cases hmarker.symm.trans hmarker'
  cases hregistered.symm.trans hregistered'
  exact h

/-- A pass is the report of a selection. -/
theorem generate_eq_ok_iff : compilation.generate configuration = .ok result ↔
    ∃ selection textAttribute,
      compilation.select configuration = .ok (selection, textAttribute) ∧
      result = {
        unit := .descriptions configuration.mount
          (selection.marked.map fun e => e.lookup textAttribute)
        described := selection.marked.map MarkedEnum.report
        skipped := selection.skipped } := by
  unfold generate
  simp only [Except.bind_eq_ok]
  constructor
  · rintro ⟨⟨selection, textAttribute⟩, hselect, h⟩
    exact ⟨selection, textAttribute, hselect, (Except.ok.inj h).symm⟩
  · rintro ⟨selection, textAttribute, hselect, rfl⟩
    exact ⟨_, hselect, rfl⟩

/-- A selection amounts to the right verdicts on all candidates. -/
theorem exists_verdicts {selection : Selection} {textAttribute : String}
    (h : compilation.select configuration = .ok (selection, textAttribute)) :
    ∃ marker registered, ∃ verdicts : Verdicts,
      configuration.resolveMarker compilation.symbolTable compilation.crateName = .ok marker ∧
      configuration.registrations compilation.symbolTable = .ok registered ∧
      verdicts.map Prod.fst = compilation.candidates ∧
      verdicts.Right compilation.symbolTable marker.symbol registered ∧
      selection = .ofVerdicts verdicts := by
  obtain ⟨marker, registered, hmarker, hregistered, hselection, -⟩ := select_eq_ok h
  obtain ⟨verdicts, hcandidates, hright⟩ : ∃ verdicts : Verdicts,
      verdicts.map Prod.fst = compilation.candidates ∧
        verdicts.Right compilation.symbolTable marker.symbol registered :=
    Verdicts.exists_right compilation.candidates
  refine ⟨marker, registered, verdicts, hmarker, hregistered, hcandidates, hright, ?_⟩
  rw [← (Selection.ofCandidates_eq_ok.1 hselection).2, ← hcandidates]
  exact hright.foldl_eq

/-- The keys of the described enums differ, and they are those of the marked enums that can be
named. -/
theorem keys_of_generate (h : compilation.generate configuration = .ok result) :
    (result.described.map DescribedEnum.key).Nodup ∧
      ∀ key, key ∈ result.described.map DescribedEnum.key ↔
        ∃ c ∈ compilation.candidates, compilation.IsMarked configuration c ∧
          c.isNameable compilation.symbolTable = true ∧ c.key = key := by
  obtain ⟨selection, textAttribute, hselect, rfl⟩ := generate_eq_ok_iff.1 h
  obtain ⟨marker, registered, verdicts, hmarker, hregistered, hcandidates, hright, rfl⟩ :=
    exists_verdicts hselect
  have hkeys : ((Selection.ofVerdicts verdicts).marked.map MarkedEnum.report).map
      DescribedEnum.key = (Selection.ofVerdicts verdicts).marked.map MarkedEnum.key := List.map_map
  dsimp only
  rw [hkeys]
  refine ⟨hright.nodup_keys, fun key => ?_⟩
  simp only [hright.mem_keys_iff, hcandidates, isMarked_iff hmarker hregistered]

end Compilation

/-! ### Sets of gates -/

/-- Two lists of gates hold the same gates, in whatever order and however often. -/
def SameGates (gates gates' : List String) : Prop := ∀ gate, gate ∈ gates ↔ gate ∈ gates'

theorem SameGates.symm {gates gates' : List String} (h : SameGates gates gates') :
    SameGates gates' gates := fun gate => (h gate).symm

/-- Two declarations of one enum exist in the same builds. -/
def Coexist (key key' : Symbol × List String) : Prop :=
  key.1 = key'.1 ∧ SameGates key.2 key'.2

theorem Coexist.symm {key key' : Symbol × List String} (h : Coexist key key') :
    Coexist key' key := ⟨h.1.symm, h.2.symm⟩

/-- No two described enums have the same symbol and the same set of gates, exactly if all marked
enums with the same symbol and the same set of gates that can be named have equal lists of gates.
What is equal in any case is described once. -/
theorem Compilation.described_apart_iff {compilation : Compilation} {configuration : Configuration}
    {result : PassResult} (h : compilation.generate configuration = .ok result) :
    (result.described.map DescribedEnum.key).Nodup ∧
      (result.described.Pairwise (fun e e' => ¬ Coexist e.key e'.key) ↔
        ∀ c ∈ compilation.candidates, ∀ c' ∈ compilation.candidates,
          compilation.IsMarked configuration c → c.isNameable compilation.symbolTable = true →
          compilation.IsMarked configuration c' → c'.isNameable compilation.symbolTable = true →
          c.symbol = c'.symbol → SameGates c.gates c'.gates → c.gates = c'.gates) := by
  obtain ⟨hnodup, hkeys⟩ := keys_of_generate h
  refine ⟨hnodup, ?_⟩
  have hsymm : Std.Symm fun key key' : Symbol × List String => ¬ Coexist key key' :=
    ⟨fun _ _ hne hsame => hne hsame.symm⟩
  rw [← List.pairwise_map (f := DescribedEnum.key) (R := fun key key' => ¬ Coexist key key')]
  constructor
  · intro hapart c hc c' hc' hmarked hnameable hmarked' hnameable' hsymbol hgates
    by_contra hne
    have hkey : c.key ≠ c'.key := fun heq => hne (congrArg Prod.snd heq)
    exact hapart.forall ((hkeys _).2 ⟨c, hc, hmarked, hnameable, rfl⟩)
      ((hkeys _).2 ⟨c', hc', hmarked', hnameable', rfl⟩) hkey ⟨hsymbol, hgates⟩
  · intro hspelled
    refine List.Nodup.pairwise_of_forall_ne hnodup fun key hkey key' hkey' hne hsame => hne ?_
    obtain ⟨c, hc, hmarked, hnameable, rfl⟩ := (hkeys key).1 hkey
    obtain ⟨c', hc', hmarked', hnameable', rfl⟩ := (hkeys key').1 hkey'
    have hgates := hspelled c hc c' hc' hmarked hnameable hmarked' hnameable' hsame.1 hsame.2
    exact Prod.ext hsame.1 hgates

/-! ### Declarations under two gates -/

/-- An attribute that has one word in parentheses. -/
def wordAttribute (name word : String) : Attribute :=
  ⟨.ofName name, .list .parenthesis [.word word .start]⟩

/-- The declaration of an enum that derives `Describe`, under gates with these words. -/
def kindUnder (words : List String) : Item :=
  .enumeration ⟨words.map (wordAttribute "cfg") ++ [wordAttribute "derive" "Describe"],
    .everywhere, "Kind", [], [], [⟨[], "One", true⟩]⟩

/-- A crate that imports `Describe` and declares an enum under each of these lists of gates. -/
def kindsCrate (words : List (List String)) : Compilation :=
  ((Compilation.empty "demo").addExtern "macros" "macros").addFile {
    path := "lib.rs"
    module := .root
    gates := []
    source := ⟨[], .imports true (.path "macros" (.name "Describe")) :: words.map kindUnder⟩ }

/-- The configuration with the marker `Describe`. -/
def describeOnly : Configuration := { marker := "macros::Describe" }

/-- An enum with the same gates in the same order is described once, and an alternative besides. -/
theorem described_apart_of_alternatives :
    ∃ result, (kindsCrate [["unix", "x"], ["windows"], ["unix", "x"]]).generate describeOnly =
        .ok result ∧
      result.described.map DescribedEnum.gates =
        [["#[cfg (unix)]", "#[cfg (x)]"], ["#[cfg (windows)]"]] ∧
      result.skipped.map SkippedEnum.reason = [.duplicate] ∧
      result.described.Pairwise fun e e' => ¬ Coexist e.key e'.key := by
  obtain ⟨hgenerate, hcandidates⟩ :
      ((kindsCrate [["unix", "x"], ["windows"], ["unix", "x"]]).generate
        describeOnly).toOption.map (fun result => (result.described.map DescribedEnum.gates,
          result.skipped.map SkippedEnum.reason)) =
        some ([["#[cfg (unix)]", "#[cfg (x)]"], ["#[cfg (windows)]"]], [.duplicate]) ∧
      (kindsCrate [["unix", "x"], ["windows"], ["unix", "x"]]).candidates.map Candidate.gates =
        [["#[cfg (unix)]", "#[cfg (x)]"], ["#[cfg (windows)]"],
          ["#[cfg (unix)]", "#[cfg (x)]"]] := by
    decide +kernel
  obtain ⟨result, hresult, hparts⟩ := Option.map_eq_some_iff.1 hgenerate
  obtain ⟨hgates, hreasons⟩ := Prod.mk.inj hparts
  have hrun := Except.toOption_eq_some.1 hresult
  refine ⟨result, hrun, hgates, hreasons, (Compilation.described_apart_iff hrun).2.2 ?_⟩
  intro c hc c' hc' _ _ _ _ _ hsame
  have hlists : ∀ c ∈ (kindsCrate [["unix", "x"], ["windows"], ["unix", "x"]]).candidates,
      c.gates = ["#[cfg (unix)]", "#[cfg (x)]"] ∨ c.gates = ["#[cfg (windows)]"] := by
    intro c hc
    have hmem := List.mem_map_of_mem (f := Candidate.gates) hc
    rw [hcandidates] at hmem
    simp at hmem
    tauto
  have hunix := hsame "#[cfg (unix)]"
  rcases hlists c hc with h | h <;> rcases hlists c' hc' with h' | h' <;> simp_all

/-- The same two gates in the other order: both declarations are described. -/
theorem described_twice :
    ∃ result, (kindsCrate [["unix", "x"], ["x", "unix"]]).generate describeOnly = .ok result ∧
      result.skipped = [] ∧
      ¬ result.described.Pairwise fun e e' => ¬ Coexist e.key e'.key := by
  have hgenerate : ((kindsCrate [["unix", "x"], ["x", "unix"]]).generate
      describeOnly).toOption.map (fun result => (result.described.map DescribedEnum.key,
        result.skipped)) =
      some ([(⟨.here, ["Kind"]⟩, ["#[cfg (unix)]", "#[cfg (x)]"]),
        (⟨.here, ["Kind"]⟩, ["#[cfg (x)]", "#[cfg (unix)]"])], []) := by
    decide +kernel
  obtain ⟨result, hresult, hparts⟩ := Option.map_eq_some_iff.1 hgenerate
  obtain ⟨hkeys, hskipped⟩ := Prod.mk.inj hparts
  refine ⟨result, Except.toOption_eq_some.1 hresult, hskipped, fun hapart => ?_⟩
  rw [← List.pairwise_map (f := DescribedEnum.key) (R := fun key key' => ¬ Coexist key key'),
    hkeys] at hapart
  refine List.rel_of_pairwise_cons hapart List.mem_cons_self ⟨rfl, fun gate => ?_⟩
  simp [or_comm]

end DescriptionLookup
