import DescriptionLookup.Proofs.CanonicalPaths
import DescriptionLookup.Proofs.Repetitions

/-!
# One more registration

Where no two enums have the same symbol and the same gates, nothing is repeated, and the verdict on
each enum stands by itself. To register one more enum then changes the verdicts on the declarations
of this enum only, and of these only on those that were not marked before.

* `Gains`: a list and the same list with further members;
* `Selection.foldl_add_of_nodup`: verdicts that stand by themselves;
* `Candidate.origin?_register`: how a candidate opts in with one more registration;
* `Compilation.generate_register`: a pass with one more registration.
-/

namespace DescriptionLookup

/-! ### Lists with further members -/

/-- The second list is the first one with further members of a kind. -/
inductive Gains {α : Type} (P : α → Prop) : List α → List α → Prop
  | nil : Gains P [] []
  | kept {a : α} {as bs : List α} : Gains P as bs → Gains P (a :: as) (a :: bs)
  | gained {b : α} {as bs : List α} : P b → Gains P as bs → Gains P as (b :: bs)

namespace Gains

variable {α β : Type} {P : α → Prop} {Q : β → Prop} {as bs : List α}

theorem sublist (h : Gains P as bs) : as.Sublist bs := by
  induction h with
  | nil => exact .slnil
  | kept _ ih => exact ih.cons_cons _
  | gained _ _ ih => exact ih.cons _

theorem map {f : α → β} (hf : ∀ a, P a → Q (f a)) (h : Gains P as bs) :
    Gains Q (as.map f) (bs.map f) := by
  induction h with
  | nil => exact .nil
  | kept _ ih => exact .kept ih
  | gained hb _ ih => exact .gained (hf _ hb) ih

/-- What a partial function yields more often than another one. -/
theorem filterMap {f g : α → Option β}
    (h : ∀ a, g a = f a ∨ f a = none ∧ ∀ b ∈ g a, Q b) (as : List α) :
    Gains Q (as.filterMap f) (as.filterMap g) := by
  induction as with
  | nil => exact .nil
  | cons a as ih =>
    rw [List.filterMap_cons, List.filterMap_cons]
    rcases h a with heq | ⟨hnone, hgained⟩
    · rw [heq]
      cases f a with
      | none => exact ih
      | some b => exact .kept ih
    · rw [hnone]
      cases hb : g a with
      | none => exact ih
      | some b => exact .gained (hgained b hb) ih

end Gains

/-! ### Verdicts that stand by themselves -/

section Verdicts

variable {table : SymbolTable} {marker : Symbol} {registered : List Symbol}

/-- The verdict on a candidate that repeats no other. -/
def Candidate.verdict (c : Candidate) (table : SymbolTable) (marker : Symbol)
    (registered : List Symbol) : Verdict :=
  match c.origin? table marker registered with
  | none => .unmarked
  | some origin => if c.isNameable table then .marked origin else .skipped .notNameable

theorem Selection.verdict_of_not_isRepeated {before : Verdicts} {c : Candidate}
    (h : ¬ c.IsRepeated before) :
    Selection.verdict table marker registered (.ofVerdicts before) c =
      c.verdict table marker registered := by
  unfold Selection.verdict Candidate.verdict
  rw [skipReason?_of_not_isRepeated h]
  cases c.origin? table marker registered with
  | none => rfl
  | some origin => cases c.isNameable table <;> rfl

/-- The selection among candidates none of which repeats another. -/
def Selection.ofDistinct (table : SymbolTable) (marker : Symbol) (registered : List Symbol)
    (candidates : List Candidate) : Selection :=
  ofVerdicts (candidates.map fun c => (c, c.verdict table marker registered))

/-- Among candidates with different keys every verdict stands by itself. -/
theorem Selection.foldl_add_of_nodup {candidates : List Candidate}
    (h : (candidates.map Candidate.key).Nodup) :
    candidates.foldl (add table marker registered) empty =
      ofDistinct table marker registered candidates := by
  unfold ofDistinct
  induction candidates using List.reverseRecOn with
  | nil => rfl
  | append_singleton init c ih =>
    rw [List.map_append, List.nodup_append] at h
    obtain ⟨hinit, -, hapart⟩ := h
    have hnew : ¬ c.IsRepeated (init.map fun c => (c, c.verdict table marker registered)) := by
      rintro ⟨earlier, origin, hmem, hkey⟩
      obtain ⟨found, hfound, heq⟩ := List.mem_map.1 hmem
      obtain rfl := congrArg Prod.fst heq
      exact hapart _ (List.mem_map_of_mem hfound) _ (List.mem_singleton_self _) hkey
    rw [List.foldl_append, ih hinit, List.map_append]
    show (ofVerdicts _).add table marker registered c = _
    rw [add_ofVerdicts, verdict_of_not_isRepeated hnew, List.map_singleton]

/-- A further registration counts for candidates of its symbol that did not opt in before. -/
theorem Candidate.origin?_register (c : Candidate) (symbol : Symbol) :
    c.origin? table marker (registered ++ [symbol]) =
      (c.origin? table marker registered).or
        (if c.symbol = symbol then some .registered else none) := by
  unfold Candidate.origin?
  rw [List.contains_append, List.contains_cons, List.contains_nil, Bool.or_false]
  by_cases hcarries : c.carries table marker = true
  · rw [if_pos hcarries, if_pos hcarries, Option.some_or]
  · rw [if_neg hcarries, if_neg hcarries]
    by_cases hregistered : registered.contains c.symbol = true
    · rw [if_pos hregistered, if_pos (by rw [hregistered, Bool.true_or]), Option.some_or]
    · rw [if_neg hregistered, Option.none_or, Bool.eq_false_iff.2 hregistered, Bool.false_or]
      simp only [beq_iff_eq]

/-- With a further registration the verdict on a candidate is the same, or it is a candidate of this
symbol that was unmarked and is registered now. -/
theorem Candidate.verdict_register (c : Candidate) (symbol : Symbol) :
    c.verdict table marker (registered ++ [symbol]) = c.verdict table marker registered ∨
      c.verdict table marker registered = .unmarked ∧ c.symbol = symbol ∧
        (c.verdict table marker (registered ++ [symbol]) = .marked .registered ∨
          c.verdict table marker (registered ++ [symbol]) = .skipped .notNameable) := by
  unfold Candidate.verdict
  rw [c.origin?_register symbol]
  cases c.origin? table marker registered with
  | some origin => exact .inl rfl
  | none =>
    by_cases hsymbol : c.symbol = symbol
    · rw [if_pos hsymbol, Option.none_or]
      refine .inr ⟨rfl, hsymbol, ?_⟩
      cases c.isNameable table with
      | true => exact .inl rfl
      | false => exact .inr rfl
    · rw [if_neg hsymbol]
      exact .inl rfl

/-- A candidate that opted in before is not affected. -/
theorem Candidate.verdict_register_of_optsIn {c : Candidate} {symbol : Symbol}
    (h : c.symbol = symbol → c.OptsIn table marker registered) :
    c.verdict table marker (registered ++ [symbol]) = c.verdict table marker registered := by
  rcases c.verdict_register symbol with heq | ⟨hunmarked, hsymbol, -⟩
  · exact heq
  · unfold Candidate.verdict at hunmarked
    cases horigin : c.origin? table marker registered with
    | none => exact absurd (h hsymbol) (Candidate.origin?_eq_none.1 horigin)
    | some origin =>
      rw [horigin] at hunmarked
      dsimp only at hunmarked
      split at hunmarked <;> cases hunmarked

namespace Selection

variable (candidates : List Candidate) (symbol : Symbol)

/-- A further registration adds marked enums of its symbol, as registered ones. -/
theorem marked_register :
    Gains (fun e : MarkedEnum => e.symbol = symbol ∧ e.origin = .registered)
      (ofDistinct table marker registered candidates).marked
      (ofDistinct table marker (registered ++ [symbol]) candidates).marked := by
  simp only [ofDistinct, ofVerdicts, List.filterMap_map]
  refine .filterMap (fun c => ?_) candidates
  dsimp only [Function.comp]
  rcases c.verdict_register symbol with heq | ⟨hunmarked, hsymbol, hmarked | hskipped⟩
  · exact .inl (by rw [heq])
  · rw [hunmarked, hmarked]
    refine .inr ⟨rfl, fun e he => ?_⟩
    cases he
    exact ⟨hsymbol, rfl⟩
  · rw [hunmarked, hskipped]
    exact .inl rfl

/-- A further registration adds skipped enums of its symbol. -/
theorem skipped_register :
    Gains (fun e : SkippedEnum => e.symbol = symbol)
      (ofDistinct table marker registered candidates).skipped
      (ofDistinct table marker (registered ++ [symbol]) candidates).skipped := by
  simp only [ofDistinct, ofVerdicts, List.filterMap_map]
  refine .filterMap (fun c => ?_) candidates
  dsimp only [Function.comp]
  rcases c.verdict_register symbol with heq | ⟨hunmarked, hsymbol, hmarked | hskipped⟩
  · exact .inl (by rw [heq])
  · rw [hunmarked, hmarked]
    exact .inl rfl
  · rw [hunmarked, hskipped]
    refine .inr ⟨rfl, fun e he => ?_⟩
    cases he
    exact hsymbol

/-- Where all candidates of its symbol opted in before, a further registration changes nothing. -/
theorem ofDistinct_register
    (h : ∀ c ∈ candidates, c.symbol = symbol → c.OptsIn table marker registered) :
    ofDistinct table marker (registered ++ [symbol]) candidates =
      ofDistinct table marker registered candidates := by
  refine congrArg ofVerdicts (List.map_congr_left fun c hc => Prod.ext rfl ?_)
  exact Candidate.verdict_register_of_optsIn (h c hc)

end Selection

end Verdicts

/-! ### Passes -/

/-- The configuration with one more registered enum. -/
def Configuration.register (configuration : Configuration) (text : String) : Configuration :=
  { configuration with registered := configuration.registered ++ [text] }

namespace Compilation

variable {compilation : Compilation} {configuration : Configuration} {text : String}
  {symbol : Symbol}

/-- The settings with one more registered enum are valid, and resolved to one more symbol. -/
theorem exists_registrations {registered : List Symbol}
    (hvalidate : configuration.validate = .ok ())
    (hregistered : configuration.registrations compilation.symbolTable = .ok registered)
    (htext : registration compilation.symbolTable text = .ok symbol) :
    (configuration.register text).validate = .ok () ∧
      (configuration.register text).registrations compilation.symbolTable =
        .ok (registered ++ [symbol]) := by
  obtain ⟨hmarker, hmount, hpaths⟩ := Configuration.validate_eq_ok_iff.1 hvalidate
  obtain ⟨path, hpath, -⟩ := Configuration.registration_eq_ok_iff.1 htext
  constructor
  · refine Configuration.validate_eq_ok_iff.2
      ⟨hmarker, hmount, List.forall_mem_append.2 ⟨hpaths, ?_⟩⟩
    exact fun other hother => List.mem_singleton.1 hother ▸ ⟨path, hpath⟩
  · unfold Configuration.registrations at hregistered ⊢
    rw [mapM_eq_ok_iff] at hregistered ⊢
    exact List.rel_append hregistered (.cons htext .nil)

/-- A further registration of a candidate only adds enums to what a pass reports: those under its
symbol that were not marked before, as registered ones or as ones that cannot be named. If there are
none, the whole result stays the same. -/
theorem generate_register {result : PassResult} {c : Candidate}
    (hkeys : (compilation.candidates.map Candidate.key).Nodup)
    (hgenerate : compilation.generate configuration = .ok result)
    (hc : c ∈ compilation.candidates)
    (htext : registration compilation.symbolTable text = .ok c.symbol) :
    ∃ result', compilation.generate (configuration.register text) = .ok result' ∧
      result.described.Sublist result'.described ∧ result.skipped.Sublist result'.skipped ∧
      Gains (fun e => e.symbol = c.symbol ∧ e.origin = .registered) result.described
        result'.described ∧
      Gains (fun e => e.symbol = c.symbol) result.skipped result'.skipped ∧
      ((∀ other ∈ compilation.candidates, other.symbol = c.symbol →
          compilation.IsMarked configuration other) →
        result' = result) := by
  obtain ⟨selection, textAttribute, hselect, rfl⟩ := generate_eq_ok_iff.1 hgenerate
  obtain ⟨hvalidate, marker, registered, hmarker, hregistered, hselection, htextAttribute⟩ :=
    select_eq_ok_iff.1 hselect
  obtain ⟨hvalidate', hregistered'⟩ := exists_registrations hvalidate hregistered htext
  obtain ⟨hmet, hfold⟩ := Selection.ofCandidates_eq_ok.1 hselection
  rw [Selection.foldl_add_of_nodup hkeys] at hfold
  have hmet' : ∀ symbol ∈ registered ++ [c.symbol],
      ∃ c ∈ compilation.candidates, c.symbol = symbol := by
    refine List.forall_mem_append.2 ⟨hmet, fun symbol hsymbol => ?_⟩
    exact ⟨c, hc, (List.mem_singleton.1 hsymbol).symm⟩
  have hselection' := Selection.ofCandidates_eq_ok.2
    ⟨hmet', @Selection.foldl_add_of_nodup compilation.symbolTable marker.symbol _ _ hkeys⟩
  have hselect' := select_eq_ok_iff.2 ⟨hvalidate', marker, registered ++ [c.symbol], hmarker,
    hregistered', hselection', htextAttribute⟩
  have hmarked := @Selection.marked_register compilation.symbolTable marker.symbol registered
    compilation.candidates c.symbol
  have hskipped := @Selection.skipped_register compilation.symbolTable marker.symbol registered
    compilation.candidates c.symbol
  rw [hfold] at hmarked hskipped
  have hdescribed := hmarked.map (f := MarkedEnum.report)
    (Q := fun e => e.symbol = c.symbol ∧ e.origin = .registered) fun _ h => h
  refine ⟨_, generate_eq_ok_iff.2 ⟨_, _, hselect', rfl⟩, hdescribed.sublist, hskipped.sublist,
    hdescribed, hskipped, fun hall => ?_⟩
  rw [Selection.ofDistinct_register compilation.candidates c.symbol fun other hother hsymbol =>
    (isMarked_iff hmarker hregistered).1 (hall other hother hsymbol), hfold]
  rfl

end Compilation

/-! ### An enum with alternatives -/

/-- The declaration of an enum under a gate, without the marker. -/
def plainKind (gate : String) (visibility : Visibility) : Item :=
  .enumeration ⟨[wordAttribute "cfg" gate], visibility, "Kind", [], [], [⟨[], "One", true⟩]⟩

/-- A crate with three alternatives of one enum in a module: one derives the marker, one does not,
and one is private besides. -/
def alternativesCrate : Compilation :=
  ((Compilation.empty "demo").addExtern "macros" "macros").addFile {
    path := "lib.rs"
    module := .root
    gates := []
    source := ⟨[], [.inlineModule ⟨[], .everywhere, "m"⟩
      [.imports true (.path "macros" (.name "Describe")), kindUnder ["a"],
        plainKind "b" .everywhere, plainKind "c" .inherited]]⟩ }

/-- To register the enum adds the second alternative to the described enums, and the third to the
skipped ones. -/
theorem generate_register_of_alternatives :
    ∃ result result', alternativesCrate.generate describeOnly = .ok result ∧
      alternativesCrate.generate (describeOnly.register "m::Kind") = .ok result' ∧
      result.described = [⟨⟨.here, ["m", "Kind"]⟩, .derived, ["#[cfg (a)]"]⟩] ∧
      result.skipped = [] ∧
      Gains (fun e => e.symbol = ⟨.here, ["m", "Kind"]⟩ ∧ e.origin = .registered) result.described
        result'.described ∧
      Gains (fun e => e.symbol = ⟨.here, ["m", "Kind"]⟩) result.skipped result'.skipped ∧
      result'.described.length = 2 ∧ result'.skipped.length = 1 := by
  obtain ⟨hkeys, hgenerate, htext, hsymbols, hlengths⟩ :
      (alternativesCrate.candidates.map Candidate.key).Nodup ∧
      (alternativesCrate.generate describeOnly).toOption.map
          (fun result => (result.described, result.skipped)) =
        some ([⟨⟨.here, ["m", "Kind"]⟩, .derived, ["#[cfg (a)]"]⟩], []) ∧
      (registration alternativesCrate.symbolTable "m::Kind").toOption =
        some ⟨.here, ["m", "Kind"]⟩ ∧
      alternativesCrate.candidates.map Candidate.symbol =
        List.replicate 3 ⟨.here, ["m", "Kind"]⟩ ∧
      (alternativesCrate.generate (describeOnly.register "m::Kind")).toOption.map
          (fun result => (result.described.length, result.skipped.length)) = some (2, 1) := by
    decide +kernel
  obtain ⟨result, hresult, hparts⟩ := Option.map_eq_some_iff.1 hgenerate
  obtain ⟨hdescribed, hskipped⟩ := Prod.mk.inj hparts
  have hmem : (⟨.here, ["m", "Kind"]⟩ : Symbol) ∈
      alternativesCrate.candidates.map Candidate.symbol := by
    rw [hsymbols]
    exact List.mem_cons_self
  obtain ⟨c, hc, hsymbol⟩ := List.mem_map.1 hmem
  have hregistration : registration alternativesCrate.symbolTable "m::Kind" = .ok c.symbol := by
    rw [hsymbol]
    exact Except.toOption_eq_some.1 htext
  have hrun := Except.toOption_eq_some.1 hresult
  obtain ⟨result', hrun', -, -, hgained, hgained', -⟩ :=
    Compilation.generate_register hkeys hrun hc hregistration
  rw [hrun'] at hlengths
  obtain ⟨hlength, hlength'⟩ := Prod.mk.inj (Option.some.inj hlengths)
  rw [hsymbol] at hgained hgained'
  exact ⟨result, result', hrun, hrun', hdescribed, hskipped, hgained, hgained', hlength, hlength'⟩

end DescriptionLookup
