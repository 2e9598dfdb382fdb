import DescriptionLookup.Lookup.Pass

/-!
# What a selection depends on

A pass asks a table three things: what the configured paths resolve to, whether a candidate carries
the marker, and whether the crate root can name it. Tables that give the same answers lead to the
same selection.

* `resolveMarker_eq`, `registrations_eq`: the configured paths;
* `ofCandidates_eq`: the candidates;
* `generate_eq_of_sameAnswers`: the whole pass.
-/

namespace DescriptionLookup

variable {table table' : SymbolTable}

/-- How a computation goes on matters only for what it can yield. -/
theorem Except.bind_congr_ok {ε α β : Type} {x : Except ε α} {f g : α → Except ε β}
    (h : ∀ a, x = .ok a → f a = g a) : x >>= f = x >>= g := by
  cases x with
  | error e => rfl
  | ok a => exact h a rfl

/-- What a computation and the next one yield together. -/
theorem Except.bind_eq_ok {ε α β : Type} {x : Except ε α} {f : α → Except ε β} {b : β} :
    x >>= f = .ok b ↔ ∃ a, x = .ok a ∧ f a = .ok b := by
  cases x with
  | error e =>
    refine ⟨fun h => ?_, fun ⟨_, h, _⟩ => ?_⟩ <;> cases h
  | ok a =>
    refine ⟨fun h => ⟨a, rfl, h⟩, fun ⟨_, ha, h⟩ => ?_⟩
    cases ha
    exact h

theorem Except.toOption_eq_some {ε α : Type} {x : Except ε α} {a : α} :
    x.toOption = some a ↔ x = .ok a := by
  cases x with
  | error e =>
    refine ⟨fun h => ?_, fun h => ?_⟩ <;> cases h
  | ok b => exact ⟨fun h => congrArg Except.ok (Option.some.inj h), fun h => by rw [h]; rfl⟩

/-! ### Configured paths -/

namespace Configuration

variable {configuration : Configuration}

theorem path_eq_ok {setting : Setting} {text : String} {path : Path}
    (h : Configuration.path setting text = .ok path) : Grammar.parsePath text = .ok path := by
  unfold Configuration.path at h
  generalize Grammar.parsePath text = parsed at h ⊢
  cases parsed with
  | error fault => cases h
  | ok found => exact congrArg Except.ok (Except.ok.inj h)

theorem path_eq_ok_iff {setting : Setting} {text : String} {path : Path} :
    Configuration.path setting text = .ok path ↔ Grammar.parsePath text = .ok path := by
  refine ⟨path_eq_ok, fun h => ?_⟩
  rw [Configuration.path, h]
  rfl

theorem resolveMarker_eq (crateName : String)
    (h : ∀ path, Grammar.parsePath configuration.marker = .ok path →
      table.resolveQualified path = table'.resolveQualified path) :
    configuration.resolveMarker table crateName = configuration.resolveMarker table' crateName := by
  unfold resolveMarker
  exact Except.bind_congr_ok fun path hpath => by rw [h path (path_eq_ok hpath)]

theorem registration_eq {text : String}
    (h : ∀ path, Grammar.parsePath text = .ok path →
      table.resolveQualified path = table'.resolveQualified path) :
    registration table text = registration table' text := by
  unfold registration
  exact Except.bind_congr_ok fun path hpath => by rw [h path (path_eq_ok hpath)]

theorem registrations_eq
    (h : ∀ text ∈ configuration.registered, ∀ path, Grammar.parsePath text = .ok path →
      table.resolveQualified path = table'.resolveQualified path) :
    configuration.registrations table = configuration.registrations table' := by
  unfold registrations
  generalize configuration.registered = texts at h
  induction texts with
  | nil => rw [List.mapM_nil, List.mapM_nil]
  | cons text rest ih =>
    rw [List.mapM_cons, List.mapM_cons, registration_eq (h text List.mem_cons_self),
      ih fun text hmem => h text (List.mem_cons_of_mem _ hmem)]

end Configuration

/-! ### Candidates -/

/-- Two tables say the same of a candidate. -/
structure Candidate.SameStanding (c : Candidate) (table table' : SymbolTable) (marker : Symbol) :
    Prop where
  carries : c.carries table marker = c.carries table' marker
  isNameable : c.isNameable table = c.isNameable table'

namespace Selection

variable {marker : Symbol} {registered : List Symbol}

theorem add_eq {c : Candidate} (h : c.SameStanding table table' marker) (selection : Selection) :
    selection.add table marker registered c = selection.add table' marker registered c := by
  simp only [add, Candidate.origin?, skipReason?, h.carries, h.isNameable]

/-- Tables that say the same of every candidate lead to the same selection. -/
theorem ofCandidates_eq {candidates : List Candidate}
    (h : ∀ c ∈ candidates, c.SameStanding table table' marker) :
    ofCandidates table marker registered candidates =
      ofCandidates table' marker registered candidates := by
  have hfold : ∀ selection : Selection,
      candidates.foldl (add table marker registered) selection =
        candidates.foldl (add table' marker registered) selection := by
    induction candidates with
    | nil => exact fun _ => rfl
    | cons c rest ih =>
      intro selection
      rw [List.foldl_cons, List.foldl_cons, add_eq (h c List.mem_cons_self)]
      exact ih (fun c hmem => h c (List.mem_cons_of_mem _ hmem)) _
  unfold ofCandidates
  rw [hfold]

/-- What is marked by one more candidate is this candidate. -/
theorem mem_marked_add {selection : Selection} {c : Candidate} {e : MarkedEnum}
    (h : e ∈ (selection.add table marker registered c).marked) :
    e ∈ selection.marked ∨ e.symbol = c.symbol ∧ e.decl = c.decl ∧ e.gates = c.gates := by
  unfold add at h
  split at h
  · exact .inl h
  · split at h
    · exact .inl h
    · rcases List.mem_append.1 h with h | h
      · exact .inl h
      · rw [List.mem_singleton.1 h]
        exact .inr ⟨rfl, rfl, rfl⟩

theorem mem_marked_foldl {candidates : List Candidate} {selection : Selection} {e : MarkedEnum}
    (h : e ∈ (candidates.foldl (add table marker registered) selection).marked) :
    e ∈ selection.marked ∨
      ∃ c ∈ candidates, e.symbol = c.symbol ∧ e.decl = c.decl ∧ e.gates = c.gates := by
  induction candidates generalizing selection with
  | nil => exact .inl h
  | cons c rest ih =>
    rcases ih h with h | ⟨c', hmem, hc'⟩
    · exact (mem_marked_add h).imp_right fun hc => ⟨c, List.mem_cons_self, hc⟩
    · exact .inr ⟨c', List.mem_cons_of_mem _ hmem, hc'⟩

/-- Every marked enum is one of the candidates. -/
theorem exists_candidate {candidates : List Candidate} {selection : Selection} {e : MarkedEnum}
    (h : ofCandidates table marker registered candidates = .ok selection)
    (he : e ∈ selection.marked) :
    ∃ c ∈ candidates, e.symbol = c.symbol ∧ e.decl = c.decl ∧ e.gates = c.gates := by
  unfold ofCandidates at h
  split at h
  · cases h
  · rw [← Except.ok.inj h] at he
    exact (mem_marked_foldl he).resolve_left List.not_mem_nil

end Selection

/-- Selecting takes valid settings; it is resolving what is configured, and then deciding on the
candidates. -/
theorem Compilation.select_eq_ok_iff {compilation : Compilation} {configuration : Configuration}
    {selection : Selection} {textAttribute : String} :
    compilation.select configuration = .ok (selection, textAttribute) ↔
      configuration.validate = .ok () ∧ ∃ marker registered,
        configuration.resolveMarker compilation.symbolTable compilation.crateName = .ok marker ∧
        configuration.registrations compilation.symbolTable = .ok registered ∧
        Selection.ofCandidates compilation.symbolTable marker.symbol registered
          compilation.candidates = .ok selection ∧
        marker.textAttribute = textAttribute := by
  unfold Compilation.select
  simp only [Except.bind_eq_ok]
  constructor
  · rintro ⟨_, hvalidate, marker, hmarker, registered, hregistered, found, hfound, h⟩
    cases h
    exact ⟨hvalidate, marker, registered, hmarker, hregistered, hfound, rfl⟩
  · rintro ⟨hvalidate, marker, registered, hmarker, hregistered, hfound, rfl⟩
    exact ⟨(), hvalidate, marker, hmarker, registered, hregistered, selection, hfound, rfl⟩

/-- Crates with the same candidates get the same answer, if their tables say the same of these and
of the configured paths. -/
theorem Compilation.generate_eq_of_sameAnswers {compilation compilation' : Compilation}
    {configuration : Configuration} (hname : compilation.crateName = compilation'.crateName)
    (hcandidates : compilation.candidates = compilation'.candidates)
    (hpaths : ∀ text ∈ configuration.marker :: configuration.registered, ∀ path,
      Grammar.parsePath text = .ok path →
      compilation.symbolTable.resolveQualified path =
        compilation'.symbolTable.resolveQualified path)
    (hstanding : ∀ marker, ∀ c ∈ compilation.candidates,
      c.SameStanding compilation.symbolTable compilation'.symbolTable marker) :
    compilation.generate configuration = compilation'.generate configuration := by
  have hselect : compilation.select configuration = compilation'.select configuration := by
    unfold select
    refine Except.bind_congr_ok fun _ _ => ?_
    dsimp only
    rw [Configuration.resolveMarker_eq _ (hpaths _ List.mem_cons_self), hname,
      Configuration.registrations_eq fun text htext => hpaths text (List.mem_cons_of_mem _ htext)]
    refine Except.bind_congr_ok fun marker _ => Except.bind_congr_ok fun registered _ => ?_
    rw [Selection.ofCandidates_eq (hstanding marker.symbol), hcandidates]
  rw [generate, generate, hselect]

theorem Compilation.select_eq_ok {compilation : Compilation} {configuration : Configuration}
    {selection : Selection} {textAttribute : String}
    (h : compilation.select configuration = .ok (selection, textAttribute)) :
    ∃ marker registered,
      configuration.resolveMarker compilation.symbolTable compilation.crateName = .ok marker ∧
      configuration.registrations compilation.symbolTable = .ok registered ∧
      Selection.ofCandidates compilation.symbolTable marker.symbol registered
        compilation.candidates = .ok selection ∧
      marker.textAttribute = textAttribute :=
  (select_eq_ok_iff.1 h).2

end DescriptionLookup
