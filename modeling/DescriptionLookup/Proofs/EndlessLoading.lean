import DescriptionLookup.Proofs.Layout
import Mathlib.Data.FinEnum
import Mathlib.Data.Set.Finite.List
import Mathlib.Logic.Relation

/-!
# When loading comes to an end

Loading follows the modules of a file, then those of their files, and so on. It keeps no record of
the files that it is in the middle of. So it goes on forever if a file leads to itself again, by the
same path and with the same directory for its children; and as only finitely many paths can be
opened, this is the only way in which it goes on forever.

* `IsEndless`: the bound on how deeply files are nested was met;
* `FileSystem.filesFrom_stable`: a result that does not come from the bound is the same for all
  larger bounds;
* `Visit.SameFile`: visits of the same file, which end alike;
* `FileSystem.Goes`, `FileSystem.LeadsBack`: loading gets from one file to another, and to the same
  file again;
* `FileSystem.load_ends_iff`: loading ends exactly for the crates that do not lead back;
* `FileSystem.not_leadsBack_of_plain`: without `path` attributes they do not.

`returningDisk` holds a crate that leads back.
-/

namespace DescriptionLookup

/-! ### Lists of computations -/

section Lists

variable {ε α β γ : Type}

/-- A computation over a list fails as its first member does that fails. -/
theorem mapM_eq_error_iff {f : α → Except ε β} {as : List α} {e : ε} :
    as.mapM f = .error e ↔ ∃ before a after, as = before ++ a :: after ∧
      (∀ b ∈ before, ∃ result, f b = .ok result) ∧ f a = .error e := by
  induction as with
  | nil =>
    refine ⟨nofun, ?_⟩
    rintro ⟨before, a, after, h, -⟩
    cases before <;> cases h
  | cons first rest ih =>
    rw [List.mapM_cons]
    cases hfirst : f first with
    | error e' =>
      constructor
      · intro h
        cases h
        exact ⟨[], first, rest, rfl, fun b hb => absurd hb List.not_mem_nil, hfirst⟩
      · rintro ⟨before, a, after, hsplit, hbefore, ha⟩
        rcases before with _ | ⟨b, before⟩
        · cases hsplit
          rw [hfirst] at ha
          cases ha
          rfl
        · cases hsplit
          obtain ⟨result, hresult⟩ := hbefore first List.mem_cons_self
          rw [hfirst] at hresult
          cases hresult
    | ok b =>
      have hrest : (do let b ← Except.ok b; let bs ← rest.mapM f; pure (b :: bs)) = .error e ↔
          rest.mapM f = .error e := by
        cases rest.mapM f with
        | error e' => exact Iff.rfl
        | ok bs => exact ⟨nofun, nofun⟩
      refine hrest.trans (ih.trans ?_)
      constructor
      · rintro ⟨before, a, after, rfl, hbefore, ha⟩
        exact ⟨first :: before, a, after, rfl, List.forall_mem_cons.2 ⟨⟨b, hfirst⟩, hbefore⟩, ha⟩
      · rintro ⟨before, a, after, hsplit, hbefore, ha⟩
        rcases before with _ | ⟨b', before⟩
        · cases hsplit
          rw [hfirst] at ha
          cases ha
        · cases hsplit
          exact ⟨before, a, after, rfl, (List.forall_mem_cons.1 hbefore).2, ha⟩

/-- All members of a list have a property, or there is a first that does not. -/
theorem forall_or_exists_first {p : α → Prop} (as : List α) :
    (∀ a ∈ as, p a) ∨
      ∃ before a after, as = before ++ a :: after ∧ (∀ b ∈ before, p b) ∧ ¬ p a := by
  induction as with
  | nil => exact .inl fun a ha => absurd ha List.not_mem_nil
  | cons first rest ih =>
    by_cases hfirst : p first
    · rcases ih with hall | ⟨before, a, after, rfl, hbefore, ha⟩
      · exact .inl (List.forall_mem_cons.2 ⟨hfirst, hall⟩)
      · exact .inr ⟨first :: before, a, after, rfl, List.forall_mem_cons.2 ⟨hfirst, hbefore⟩, ha⟩
    · exact .inr ⟨[], first, rest, rfl, fun b hb => absurd hb List.not_mem_nil, hfirst⟩

/-- Both computations succeed, or both fail in the same way. -/
inductive Alike : Except ε α → Except ε β → Prop
  | error (e : ε) : Alike (.error e) (.error e)
  | ok (a : α) (b : β) : Alike (.ok a) (.ok b)

/-- Computations that end alike for the members of two lists end alike for the lists. -/
theorem mapM_alike {f : α → Except ε γ} {R : α → α → Prop} {as bs : List α}
    (h : List.Forall₂ R as bs) (hf : ∀ a b, R a b → Alike (f a) (f b)) :
    Alike (as.mapM f) (bs.mapM f) := by
  induction h with
  | nil => exact .ok [] []
  | @cons a b as bs hab _ ih =>
    have hone := hf a b hab
    rw [List.mapM_cons, List.mapM_cons]
    generalize f a = first at hone ⊢
    generalize f b = first' at hone ⊢
    generalize as.mapM f = rest at ih ⊢
    generalize bs.mapM f = rest' at ih ⊢
    cases hone with
    | error e => exact .error e
    | ok x y =>
      cases ih with
      | error e => exact .error e
      | ok xs ys => exact .ok (x :: xs) (y :: ys)

end Lists

/-! ### The bound -/

/-- The bound on how deeply files are nested was met. -/
def IsEndless {α : Type} (result : Except Failure α) : Prop :=
  ∃ path, result = .error (.endlessModules path)

theorem not_isEndless_ok {α : Type} (a : α) : ¬ IsEndless (.ok a : Except Failure α) := by
  rintro ⟨path, h⟩
  cases h

theorem isEndless_map_iff {α β : Type} {f : α → β} {result : Except Failure α} :
    IsEndless (result.map f) ↔ IsEndless result := by
  cases result with
  | error failure =>
    constructor
    · rintro ⟨path, h⟩
      cases h
      exact ⟨path, rfl⟩
    · rintro ⟨path, h⟩
      cases h
      exact ⟨path, rfl⟩
  | ok a => exact ⟨fun h => absurd h (not_isEndless_ok _), fun h => absurd h (not_isEndless_ok _)⟩

/-- Where the bound is not met, larger bounds make no difference for a list if they make none for
its members. -/
theorem mapM_stable {α β : Type} {f g : α → Except Failure β} {as : List α}
    (h : ∀ a ∈ as, ¬ IsEndless (f a) → g a = f a) (hend : ¬ IsEndless (as.mapM f)) :
    as.mapM g = as.mapM f := by
  induction as with
  | nil => rfl
  | cons first rest ih =>
    rw [List.mapM_cons] at hend
    rw [List.mapM_cons, List.mapM_cons]
    cases hfirst : f first with
    | error failure =>
      rw [hfirst] at hend
      have hone : ¬ IsEndless (f first) := by
        rw [hfirst]
        rintro ⟨path, hpath⟩
        cases hpath
        exact hend ⟨path, rfl⟩
      rw [h first List.mem_cons_self hone, hfirst]
      rfl
    | ok b =>
      have hone : ¬ IsEndless (f first) := hfirst ▸ not_isEndless_ok b
      have hrest : ¬ IsEndless (rest.mapM f) := by
        rintro ⟨path, hpath⟩
        rw [hfirst, hpath] at hend
        exact hend ⟨path, rfl⟩
      rw [h first List.mem_cons_self hone, hfirst,
        ih (fun a ha => h a (List.mem_cons_of_mem _ ha)) hrest]

namespace FileSystem

variable {fs : FileSystem} {visit next again : Visit} {depth depth' : Nat} {root : String}

theorem not_isEndless_source (path : String) : ¬ IsEndless (fs.source path) := by
  rintro ⟨other, h⟩
  unfold FileSystem.source at h
  cases htext : fs.text path with
  | error failure =>
    rw [htext] at h
    cases h
    unfold text at htext
    cases hread : fs.read path with
    | error fault => rw [hread] at htext; cases htext
    | ok content =>
      rw [hread] at htext
      dsimp only at htext
      cases hcontent : String.fromUTF8? content with
      | none => rw [hcontent] at htext; cases htext
      | some text => rw [hcontent] at htext; cases htext
  | ok text =>
    rw [htext] at h
    dsimp only at h
    cases hparse : Grammar.parseFile text with
    | error fault => rw [hparse] at h; cases h
    | ok source => rw [hparse] at h; cases h

theorem isEndless_filesFrom_zero (visit : Visit) : IsEndless (fs.filesFrom 0 visit) := ⟨_, rfl⟩

/-- What a file leads to, if the bound is met, is the first of its modules for which it is. -/
theorem isEndless_filesFrom_succ_iff : IsEndless (fs.filesFrom (depth + 1) visit) ↔
    ∃ before next after, fs.steps visit = before ++ next :: after ∧
      (∀ other ∈ before, ∃ files, fs.filesFrom depth other = .ok files) ∧
      IsEndless (fs.filesFrom depth next) := by
  rw [filesFrom]
  cases hsource : fs.source visit.path with
  | error failure =>
    have hsteps : fs.steps visit = [] := by rw [steps, hsource]
    rw [hsteps]
    constructor
    · rintro ⟨path, h⟩
      cases h
      exact absurd ⟨path, hsource⟩ (not_isEndless_source visit.path)
    · rintro ⟨before, next, after, h, -⟩
      cases before <;> cases h
  | ok source =>
    rw [steps_of_source hsource]
    dsimp only
    rw [isEndless_map_iff]
    constructor
    · rintro ⟨path, h⟩
      obtain ⟨before, next, after, hsplit, hbefore, hnext⟩ := mapM_eq_error_iff.1 h
      exact ⟨before, next, after, hsplit, hbefore, path, hnext⟩
    · rintro ⟨before, next, after, hsplit, hbefore, path, hnext⟩
      exact ⟨path, mapM_eq_error_iff.2 ⟨before, next, after, hsplit, hbefore, hnext⟩⟩

/-- A result that does not come from the bound is the same for all larger bounds. -/
theorem filesFrom_stable (h : ¬ IsEndless (fs.filesFrom depth visit)) (hle : depth ≤ depth') :
    fs.filesFrom depth' visit = fs.filesFrom depth visit := by
  induction depth generalizing visit depth' with
  | zero => exact absurd (isEndless_filesFrom_zero visit) h
  | succ depth ih =>
    obtain ⟨depth', rfl⟩ : ∃ more, depth' = more + 1 := ⟨depth' - 1, by omega⟩
    rw [filesFrom] at h ⊢
    rw [filesFrom]
    cases hsource : fs.source visit.path with
    | error failure => rfl
    | ok source =>
      rw [hsource] at h
      dsimp only at h ⊢
      rw [isEndless_map_iff] at h
      -- None of the files below meets the smaller bound either, up to the first failure.
      rw [mapM_stable (fun next _ hnext => ih hnext (by omega)) h]

/-- With less depth the bound is met all the more. -/
theorem isEndless_of_le (h : IsEndless (fs.filesFrom depth visit)) (hle : depth' ≤ depth) :
    IsEndless (fs.filesFrom depth' visit) := by
  by_contra hend
  rw [filesFrom_stable hend hle] at h
  exact hend h

end FileSystem

/-! ### Visits of the same file -/

/-- The visits are of the same file, and look for its children in the same directory. -/
structure Visit.SameFile (visit visit' : Visit) : Prop where
  path : visit.path = visit'.path
  directory : visit.directory = visit'.directory

namespace FileSystem

variable {fs : FileSystem} {visit visit' next again : Visit} {depth depth' : Nat} {root : String}

/-- They lead to visits of the same files, -/
theorem steps_sameFile (h : visit.SameFile visit') :
    List.Forall₂ Visit.SameFile (fs.steps visit) (fs.steps visit') := by
  unfold steps
  rw [← h.path]
  cases fs.source visit.path with
  | error failure => exact .nil
  | ok source =>
    dsimp only
    rw [Visit.pending, Visit.pending, pendingModules_eq, pendingModules_eq, ← h.directory]
    generalize (visit.file source).gates = outer
    generalize (visit'.file source).gates = outer'
    induction fileModulesIn [] source.items with
    | nil => exact .nil
    | cons d rest ih =>
      -- Where a file is looked for depends neither on its module path nor on its gates.
      have hplaces : (d.pending visit'.module visit.directory outer').places =
          (d.pending visit.module visit.directory outer).places := rfl
      rw [List.map_cons, List.map_cons, List.filterMap_cons, List.filterMap_cons, follow?, follow?,
        hplaces]
      cases (d.pending visit.module visit.directory outer).places.find? fs.isFile with
      | none => exact ih
      | some found => exact .cons ⟨rfl, rfl⟩ ih

/-- and end alike. -/
theorem filesFrom_sameFile (h : visit.SameFile visit') (depth : Nat) :
    Alike (fs.filesFrom depth visit) (fs.filesFrom depth visit') := by
  induction depth generalizing visit visit' with
  | zero =>
    rw [filesFrom, filesFrom, h.path]
    exact .error _
  | succ depth ih =>
    have hsteps := fs.steps_sameFile h
    unfold steps at hsteps
    rw [filesFrom, filesFrom]
    rw [← h.path] at hsteps ⊢
    cases hsource : fs.source visit.path with
    | error failure => exact .error failure
    | ok source =>
      rw [hsource] at hsteps
      have halike := mapM_alike hsteps fun _ _ hsame => ih hsame
      dsimp only at halike ⊢
      generalize ((visit.pending source).filterMap fs.follow?).mapM (fs.filesFrom depth) = inner
        at halike ⊢
      generalize ((visit'.pending source).filterMap fs.follow?).mapM (fs.filesFrom depth) = inner'
        at halike ⊢
      cases halike with
      | error failure => exact .error failure
      | ok inner inner' => exact .ok _ _

theorem isEndless_of_sameFile (h : IsEndless (fs.filesFrom depth visit))
    (hsame : visit.SameFile visit') : IsEndless (fs.filesFrom depth visit') := by
  obtain ⟨path, hpath⟩ := h
  have halike := fs.filesFrom_sameFile hsame depth
  rw [hpath] at halike
  generalize fs.filesFrom depth visit' = result at halike ⊢
  cases halike
  exact ⟨path, rfl⟩

/-! ### Files that lead to files -/

/-- Loading gets from a file to another, as it does if all files before that one can be loaded. -/
def Goes (fs : FileSystem) (visit next : Visit) : Prop :=
  ∃ before after, fs.steps visit = before ++ next :: after ∧
    ∀ other ∈ before, ∃ depth files, fs.filesFrom depth other = .ok files

/-- Loading gets to a file, and from there to the same file again. -/
def LeadsBack (fs : FileSystem) (root : String) : Prop :=
  ∃ visit again, Relation.ReflTransGen fs.Goes (.root root) visit ∧
    Relation.TransGen fs.Goes visit again ∧ visit.SameFile again

theorem Goes.mem_steps (h : fs.Goes visit next) : next ∈ fs.steps visit := by
  obtain ⟨before, after, hsteps, -⟩ := h
  exact hsteps ▸ List.mem_append_right _ List.mem_cons_self

/-- If a file meets the bound, then so do those that lead to it with one more level. -/
theorem isEndless_of_goes (h : IsEndless (fs.filesFrom depth next)) (hgoes : fs.Goes visit next) :
    IsEndless (fs.filesFrom (depth + 1) visit) := by
  obtain ⟨before, after, hsteps, hbefore⟩ := hgoes
  -- What comes before can be loaded, but perhaps not with this depth.
  rcases forall_or_exists_first (p := fun other => ∃ files, fs.filesFrom depth other = .ok files)
    before with hall | ⟨earlier, first, later, rfl, hearlier, hfirst⟩
  · exact isEndless_filesFrom_succ_iff.2 ⟨before, next, after, hsteps, hall, h⟩
  · refine isEndless_filesFrom_succ_iff.2 ⟨earlier, first, later ++ next :: after, ?_, hearlier, ?_⟩
    · rw [hsteps, List.append_assoc, List.cons_append]
    · by_contra hend
      obtain ⟨enough, files, hfiles⟩ :=
        hbefore first (List.mem_append_right _ List.mem_cons_self)
      have hsame := filesFrom_stable hend (Nat.le_max_left depth enough)
      rw [filesFrom_mono (Nat.le_max_right depth enough) hfiles] at hsame
      exact hfirst ⟨files, hsame.symm⟩

theorem isEndless_of_reflTransGen (h : IsEndless (fs.filesFrom depth next))
    (hgoes : Relation.ReflTransGen fs.Goes visit next) : IsEndless (fs.filesFrom depth visit) := by
  induction hgoes using Relation.ReflTransGen.head_induction_on with
  | refl => exact h
  | head hstep _ ih => exact isEndless_of_le (isEndless_of_goes ih hstep) (Nat.le_succ depth)

/-- A crate that leads back meets every bound. -/
theorem LeadsBack.isEndless (h : fs.LeadsBack root) (depth : Nat) :
    IsEndless (fs.filesFrom depth (.root root)) := by
  obtain ⟨visit, again, hroot, hround, hsame⟩ := h
  refine isEndless_of_reflTransGen ?_ hroot
  obtain ⟨first, hfirst, hrest⟩ := Relation.TransGen.head'_iff.1 hround
  -- Once around costs at least one level.
  induction depth with
  | zero => exact isEndless_filesFrom_zero visit
  | succ depth ih =>
    have hagain := isEndless_of_sameFile ih hsame
    exact isEndless_of_goes (isEndless_of_reflTransGen hagain hrest) hfirst

/-- A file that meets the bound begins a chain of files that is as long. -/
theorem exists_chain (h : IsEndless (fs.filesFrom depth visit)) :
    ∃ chain : List Visit, chain.length = depth ∧ List.IsChain fs.Goes (visit :: chain) := by
  induction depth generalizing visit with
  | zero => exact ⟨[], rfl, .singleton visit⟩
  | succ depth ih =>
    obtain ⟨before, next, after, hsteps, hbefore, hnext⟩ := isEndless_filesFrom_succ_iff.1 h
    obtain ⟨chain, hlength, hchain⟩ := ih hnext
    refine ⟨next :: chain, congrArg (· + 1) hlength, .cons_cons ?_ hchain⟩
    exact ⟨before, after, hsteps, fun other hother => ⟨depth, hbefore other hother⟩⟩

/-! ### Paths that can be opened -/

theorem utf8ByteSize_le_of_isFile {path : String} (h : fs.isFile path = true) :
    path.utf8ByteSize ≤ maximalPath := by
  by_contra hlong
  have hlocate : ∀ place, fs.locate path ≠ .ok place := fun place hplace => by
    rw [locate, if_pos (Nat.lt_of_not_le hlong)] at hplace
    split_ifs at hplace
  unfold isFile find at h
  cases hplace : fs.locate path with
  | error fault => rw [hplace] at h; cases h
  | ok place => exact hlocate place hplace

/-- There are finitely many texts that are no longer than that. -/
theorem finite_utf8ByteSize_le (bound : Nat) :
    {text : String | text.utf8ByteSize ≤ bound}.Finite := by
  refine Set.Finite.of_injOn (f := fun text : String => text.toByteArray.data.toList) ?_ ?_
    (List.finite_length_le UInt8 bound)
  · intro text htext
    show text.toByteArray.data.toList.length ≤ bound
    rw [Array.length_toList, ByteArray.size_data, String.size_toByteArray]
    exact htext
  · intro text _ text' _ heq
    exact String.toByteArray_inj.1 (ByteArray.ext (Array.toList_inj.1 heq))

/-- A visit that loading gets to is of a file, and has the directory that goes with the file. -/
theorem Goes.found (h : fs.Goes visit next) :
    fs.isFile next.path = true ∧ next.directory = childDirectory next.path := by
  obtain ⟨source, -, d, -, hfollow⟩ := mem_steps_iff.1 h.mem_steps
  obtain ⟨found, hfind, rfl⟩ := Option.map_eq_some_iff.1 hfollow
  exact ⟨List.find?_some hfind, rfl⟩

/-- A crate that does not lead back stays below some bound. -/
theorem exists_bound (h : ¬ fs.LeadsBack root) :
    ∃ bound, ∀ depth, bound < depth → ¬ IsEndless (fs.filesFrom depth (.root root)) := by
  have hfinite := finite_utf8ByteSize_le maximalPath
  refine ⟨hfinite.toFinset.card, fun depth hdepth hendless => ?_⟩
  obtain ⟨chain, hlength, hchain⟩ := exists_chain hendless
  have hpairs : List.Pairwise (Relation.TransGen fs.Goes) (.root root :: chain) :=
    (hchain.imp fun _ _ => Relation.TransGen.single).pairwise
  obtain ⟨hroot, hpairs⟩ := List.pairwise_cons.1 hpairs
  have hfound : ∀ visit ∈ chain, fs.isFile visit.path = true ∧
      visit.directory = childDirectory visit.path := fun visit hvisit => by
    obtain ⟨before, -, hgoes⟩ := Relation.TransGen.tail'_iff.1 (hroot visit hvisit)
    exact hgoes.found
  -- No path comes twice, for it would lead back.
  have hnodup : (chain.map Visit.path).Nodup := by
    refine List.pairwise_map.2 (hpairs.imp_of_mem fun {visit again} hvisit hagain hround heq => ?_)
    refine h ⟨visit, again, (hroot visit hvisit).to_reflTransGen, hround, heq, ?_⟩
    rw [(hfound visit hvisit).2, (hfound again hagain).2, heq]
  have hsubset : (chain.map Visit.path).toFinset ⊆ hfinite.toFinset := by
    intro path hpath
    obtain ⟨visit, hvisit, rfl⟩ := List.mem_map.1 (List.mem_toFinset.1 hpath)
    exact hfinite.mem_toFinset.2 (utf8ByteSize_le_of_isFile (hfound visit hvisit).1)
  have hcard := Finset.card_le_card hsubset
  rw [List.toFinset_card_of_nodup hnodup, List.length_map, hlength] at hcard
  omega

end FileSystem

/-! ### The end of loading -/

/-- Loading ends with this result: it does not come from the bound, and is the same for all bounds
that are large enough. -/
def Compilation.EndsWith (fs : FileSystem) (crateName root : String)
    (result : Except Failure Compilation) : Prop :=
  ¬ IsEndless result ∧ ∃ bound, ∀ depth, bound ≤ depth →
    Compilation.runOn (Compilation.loadWithin FileSystem.disk depth crateName root) fs =
      (result, fs)

namespace FileSystem

variable {fs : FileSystem} {visit next again : Visit} {root crateName : String}

theorem isEndless_load_of_leadsBack (h : fs.LeadsBack root) (depth : Nat) :
    IsEndless (Compilation.runOn (Compilation.loadWithin disk depth crateName root) fs).1 := by
  rw [Compilation.loadWithin_disk]
  exact isEndless_map_iff.2 (h.isEndless depth)

theorem not_endsWith_of_leadsBack (h : fs.LeadsBack root) (result : Except Failure Compilation) :
    ¬ Compilation.EndsWith fs crateName root result := by
  rintro ⟨hend, bound, hbound⟩
  have hendless : IsEndless
      (Compilation.runOn (Compilation.loadWithin disk bound crateName root) fs).1 :=
    isEndless_load_of_leadsBack h bound
  rw [hbound bound le_rfl] at hendless
  exact hend hendless

/-- What loading comes to without meeting its bound is what it ends with. -/
theorem endsWith_of_not_isEndless (depth : Nat)
    (h : ¬ IsEndless (Compilation.runOn (Compilation.loadWithin disk depth crateName root) fs).1) :
    Compilation.EndsWith fs crateName root
      (Compilation.runOn (Compilation.loadWithin disk depth crateName root) fs).1 := by
  refine ⟨h, depth, fun depth' hle => ?_⟩
  rw [Compilation.loadWithin_disk] at h ⊢
  rw [Compilation.loadWithin_disk, filesFrom_stable (mt isEndless_map_iff.2 h) hle]

theorem exists_endsWith_of_not_leadsBack (h : ¬ fs.LeadsBack root) :
    ∃ result, Compilation.EndsWith fs crateName root result := by
  obtain ⟨bound, hbound⟩ := exists_bound h
  have hend := hbound (bound + 1) (Nat.lt_succ_self bound)
  refine ⟨_, endsWith_of_not_isEndless (bound + 1) ?_⟩
  rw [Compilation.loadWithin_disk]
  exact mt isEndless_map_iff.1 hend

/-- Loading ends, with a crate or a failure, exactly if the crate does not lead back to a file that
is being loaded. If it does, loading goes on beyond every bound. -/
theorem load_ends_iff (fs : FileSystem) (crateName root : String) :
    ((∃ result, Compilation.EndsWith fs crateName root result) ↔ ¬ fs.LeadsBack root) ∧
    (fs.LeadsBack root → ∀ depth, IsEndless
      (Compilation.runOn (Compilation.loadWithin disk depth crateName root) fs).1) := by
  refine ⟨⟨?_, exists_endsWith_of_not_leadsBack⟩, isEndless_load_of_leadsBack⟩
  rintro ⟨result, hresult⟩ hback
  exact not_endsWith_of_leadsBack hback result hresult

/-! ### Crates without places of their own -/

/-- Directories along names are longer and longer. -/
theorem length_opening_foldl_join {directory : String} {names : List String}
    (h : ∀ name ∈ names, IsPlainName name) :
    (Location.opening directory).length + names.length ≤
      (Location.opening (names.foldl Location.join directory)).length := by
  induction names generalizing directory with
  | nil => exact le_rfl
  | cons name rest ih =>
    have hname := h name List.mem_cons_self
    have hrest : (Location.opening (Location.join directory name)).length + rest.length ≤ _ :=
      ih fun other hother => h other (List.mem_cons_of_mem _ hother)
    have hslash : "/".length = 1 := rfl
    rw [Location.opening_join _ hname.notEmpty hname.slash, String.length_append,
      String.length_append] at hrest
    rw [List.length_cons, List.foldl_cons]
    omega

section Plain

variable (hplain : ∀ visit source, fs.Visits (.root root) visit →
  fs.source visit.path = .ok source → HasPlainModules source.items)
include hplain

/-- The children of a module's children have their files further down. -/
theorem length_opening_lt (hvisit : fs.Visits (.root root) visit) (hnext : next ∈ fs.steps visit) :
    (Location.opening visit.directory).length < (Location.opening next.directory).length := by
  have hlaid := isLaidOut_of_visits hplain hvisit
  have hlaid' := isLaidOut_of_visits hplain (hvisit.step hnext)
  obtain ⟨source, -, d, -, hfollow⟩ := mem_steps_iff.1 hnext
  obtain ⟨found, -, hmade⟩ := Option.map_eq_some_iff.1 hfollow
  set inner := d.around.map ModuleHead.name ++ [d.content.name] with hinner
  have hsegments : next.module.segments = visit.module.segments ++ inner := by
    rw [← hmade, hinner, ← List.append_assoc]
    rfl
  have hdirectory : next.directory = (inner.map unraw).foldl Location.join visit.directory := by
    rw [hlaid'.directory, layoutDirectory, hsegments, List.map_append, List.foldl_append,
      hlaid.directory]
    rfl
  have hplainNames : ∀ name ∈ inner.map unraw, IsPlainName name := fun name hname => by
    obtain ⟨segment, hsegment, rfl⟩ := List.mem_map.1 hname
    exact hlaid'.names segment (hsegments ▸ List.mem_append_right _ hsegment)
  have hlength : (Location.opening visit.directory).length + (inner.map unraw).length ≤ _ :=
    length_opening_foldl_join hplainNames
  rw [← hdirectory, List.length_map, hinner, List.length_append, List.length_singleton] at hlength
  omega

/-- A crate without `path` attributes and modules called `r#mod` does not lead back. -/
theorem not_leadsBack_of_plain : ¬ fs.LeadsBack root := by
  rintro ⟨visit, again, hroot, hround, hsame⟩
  have hvisit : fs.Visits (.root root) visit := by
    clear hround hsame
    induction hroot with
    | refl => exact .start
    | tail _ hgoes ih => exact ih.step hgoes.mem_steps
  have hlonger : fs.Visits (.root root) again ∧
      (Location.opening visit.directory).length < (Location.opening again.directory).length := by
    clear hsame
    induction hround with
    | single hgoes =>
      exact ⟨hvisit.step hgoes.mem_steps, length_opening_lt hplain hvisit hgoes.mem_steps⟩
    | tail _ hgoes ih =>
      have hlonger := length_opening_lt hplain ih.1 hgoes.mem_steps
      exact ⟨ih.1.step hgoes.mem_steps, lt_trans ih.2 hlonger⟩
  rw [hsame.directory] at hlonger
  exact lt_irrefl _ hlonger.2

end Plain

end FileSystem

/-- Loading the crate with files of all kinds ends. -/
theorem load_mixedDisk_ends :
    ∃ result, Compilation.EndsWith mixedDisk "demo" "src/lib.rs" result :=
  (FileSystem.load_ends_iff mixedDisk "demo" "src/lib.rs").1.2
    (FileSystem.not_leadsBack_of_plain hasPlainModules_mixedDisk)

/-! ### A crate that leads back -/

/-- A disk with a crate in which the file of `a` is said to be the file of `b` inside it, too. -/
def returningDisk : FileSystem :=
  [(["work", "src"], Entry.directory), (["work", "src", "a"], .directory),
    (["work", "src", "lib.rs"], .file "mod a;".toUTF8),
    (["work", "src", "a", "mod.rs"], .file "#[path = \"mod.rs\"] mod b;".toUTF8)].foldl
    (fun fs (place, entry) => fs.put place entry) (FileSystem.ofWorking "work")

/-- The visits of the file of `a`, for `a` itself and then for `b`. -/
def returningVisit (segments : List String) : Visit := ⟨"src/a/mod.rs", ⟨segments⟩, "src/a", []⟩

theorem steps_returningDisk :
    returningDisk.steps (.root "src/lib.rs") = [returningVisit ["a"]] ∧
      returningDisk.steps (returningVisit ["a"]) = [returningVisit ["a", "b"]] := by
  decide +kernel

theorem leadsBack_returningDisk : returningDisk.LeadsBack "src/lib.rs" := by
  have honly : ∀ {visit next : Visit}, returningDisk.steps visit = [next] →
      returningDisk.Goes visit next := fun hsteps =>
    ⟨[], [], hsteps, fun other hother => absurd hother List.not_mem_nil⟩
  exact ⟨_, _, .single (honly steps_returningDisk.1), .single (honly steps_returningDisk.2),
    ⟨rfl, rfl⟩⟩

/-- Loading it does not end. -/
theorem load_returningDisk_endless :
    ¬ ∃ result, Compilation.EndsWith returningDisk "demo" "src/lib.rs" result := by
  rintro ⟨result, hresult⟩
  exact FileSystem.not_endsWith_of_leadsBack leadsBack_returningDisk result hresult

end DescriptionLookup
