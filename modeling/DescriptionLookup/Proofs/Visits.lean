import DescriptionLookup.Crate.Loading
import DescriptionLookup.Disk.FileSystem
import Mathlib.Data.List.Forall2

/-!
# The files of a crate

On a file system that is a value, loading a crate is a recursion that changes nothing: it visits a
file, and then the files of the modules that this file declares.

* `Visit`, `FileSystem.filesFrom`: the recursion;
* `loadFile_disk`: it is what loading does;
* `FileSystem.Visits`, `FileSystem.Asks`: the files that are visited, and the places that are asked
  for on the way, whether or not there is a file.
-/

namespace DescriptionLookup

/-- A computation over a list succeeds exactly if it does for each member. -/
theorem mapM_eq_ok_iff {ε α β : Type} {f : α → Except ε β} {as : List α} {bs : List β} :
    as.mapM f = .ok bs ↔ List.Forall₂ (fun a b => f a = .ok b) as bs := by
  induction as generalizing bs with
  | nil =>
    rw [List.mapM_nil, List.forall₂_nil_left_iff]
    exact ⟨fun h => (Except.ok.inj h).symm, fun h => congrArg Except.ok h.symm⟩
  | cons a rest ih =>
    rw [List.mapM_cons, List.forall₂_cons_left_iff]
    constructor
    · intro h
      cases ha : f a with
      | error e => rw [ha] at h; cases h
      | ok b =>
        cases hrest : rest.mapM f with
        | error e => rw [ha, hrest] at h; cases h
        | ok bs' =>
          rw [ha, hrest] at h
          exact ⟨b, bs', rfl, ih.1 hrest, (Except.ok.inj h).symm⟩
    · rintro ⟨b, bs', ha, hrest, rfl⟩
      rw [ha, ih.2 hrest]
      rfl

section Pairs

variable {α β : Type} {R S : α → β → Prop} {as : List α} {bs : List β}

/-- Related lists stay so if it is enough for their members to be related in another way. -/
theorem forall₂_imp_of_mem (h : List.Forall₂ R as bs)
    (himp : ∀ a ∈ as, ∀ b ∈ bs, R a b → S a b) : List.Forall₂ S as bs := by
  induction h with
  | nil => exact .nil
  | cons hab _ ih =>
    exact .cons (himp _ List.mem_cons_self _ List.mem_cons_self hab) (ih fun a ha b hb =>
      himp a (List.mem_cons_of_mem _ ha) b (List.mem_cons_of_mem _ hb))

theorem exists_of_mem_forall₂ (h : List.Forall₂ R as bs) {a : α} (ha : a ∈ as) :
    ∃ b ∈ bs, R a b := by
  induction h with
  | nil => cases ha
  | cons hab _ ih =>
    rcases List.mem_cons.1 ha with rfl | ha
    · exact ⟨_, List.mem_cons_self, hab⟩
    · obtain ⟨b, hb, hR⟩ := ih ha
      exact ⟨b, List.mem_cons_of_mem _ hb, hR⟩

end Pairs

/-- A file that is read as the body of a module. -/
structure Visit where
  path : String
  module : ModulePath
  /-- Where the files of child modules are. -/
  directory : String
  /-- The gates of the module's declaration, and of those around it. -/
  gates : List String
deriving DecidableEq

namespace Visit

/-- The visit of the root file. -/
def root (path : String) : Visit := ⟨path, .root, Location.parent path, []⟩

/-- The file with its source. -/
def file (visit : Visit) (source : SourceText) : SourceFile where
  path := visit.path
  module := visit.module
  gates := visit.gates ++ DescriptionLookup.gates source.attributes
  source

/-- The modules that the file declares without a body. -/
def pending (visit : Visit) (source : SourceText) : List PendingModule :=
  pendingModules visit.module visit.directory (visit.file source).gates source.items

end Visit

/-- The visit of the file that holds the body of a module. -/
def PendingModule.visit (pending : PendingModule) (found : String) : Visit :=
  ⟨found, pending.module, childDirectory found, pending.gates⟩

namespace FileSystem

variable {fs other : FileSystem}

/-- The text in a file. -/
def text (fs : FileSystem) (path : String) : Except Failure String :=
  match fs.read path with
  | .error fault => .error (.disk path fault)
  | .ok content =>
    match String.fromUTF8? content with
    | none => .error (.disk path .notText)
    | some text => .ok text

/-- The parsed text in a file. -/
def source (fs : FileSystem) (path : String) : Except Failure SourceText :=
  match fs.text path with
  | .error failure => .error failure
  | .ok text => (Grammar.parseFile text).mapError (.source path)

theorem isFile_iff_read {path : String} :
    fs.isFile path = true ↔ ∃ content, fs.read path = .ok content := by
  rw [isFile, read]
  cases fs.find path with
  | error fault => exact ⟨nofun, nofun⟩
  | ok found =>
    obtain ⟨place, content | -⟩ := found
    · exact ⟨fun _ => ⟨content, rfl⟩, fun _ => rfl⟩
    · exact ⟨nofun, nofun⟩

theorem isFile_congr {path : String} (h : other.read path = fs.read path) :
    other.isFile path = fs.isFile path := by
  rw [Bool.eq_iff_iff, isFile_iff_read, isFile_iff_read, h]

theorem source_congr {path : String} (h : other.read path = fs.read path) :
    other.source path = fs.source path := by
  rw [source, source, text, text, h]

theorem isFile_of_source {path : String} {source : SourceText} (h : fs.source path = .ok source) :
    fs.isFile path = true := by
  refine isFile_iff_read.2 ?_
  unfold FileSystem.source text at h
  cases hread : fs.read path with
  | error fault => rw [hread] at h; cases h
  | ok content => exact ⟨content, rfl⟩

/-- Where two paths lead to the same content, the same source is read. -/
theorem source_of_read_eq {path path' : String} {source : SourceText}
    (hread : fs.read path = fs.read path') (h : fs.source path = .ok source) :
    fs.source path' = .ok source := by
  unfold FileSystem.source text at h ⊢
  rw [← hread]
  cases hcontent : fs.read path with
  | error fault => rw [hcontent] at h; cases h
  | ok content =>
    rw [hcontent] at h
    dsimp only at h ⊢
    cases htext : String.fromUTF8? content with
    | none => rw [htext] at h; cases h
    | some text =>
      rw [htext] at h
      dsimp only at h ⊢
      generalize Grammar.parseFile text = parsed at h ⊢
      cases parsed with
      | error fault => cases h
      | ok found => exact h

/-- The visit to which a module without a body leads, if there is a file for it. -/
def follow? (fs : FileSystem) (pending : PendingModule) : Option Visit :=
  (pending.places.find? fs.isFile).map pending.visit

/-- The files of a crate from one of them on, with files nested at most this deeply. -/
def filesFrom (fs : FileSystem) : Nat → Visit → Except Failure (List SourceFile)
  | 0, visit => .error (.endlessModules visit.path)
  | depth + 1, visit =>
    match fs.source visit.path with
    | .error failure => .error failure
    | .ok source =>
      (((visit.pending source).filterMap fs.follow?).mapM (filesFrom fs depth)).map fun inner =>
        visit.file source :: inner.flatten

/-! ### What is visited -/

/-- The visits to which a visit leads. -/
def steps (fs : FileSystem) (visit : Visit) : List Visit :=
  match fs.source visit.path with
  | .error _ => []
  | .ok source => (visit.pending source).filterMap fs.follow?

/-- The places that are asked for to find the file of a module: up to the first that has one. -/
def askedFor (fs : FileSystem) : List String → List String
  | [] => []
  | place :: rest => if fs.isFile place then [place] else place :: askedFor fs rest

/-- The places that a visit asks for. -/
def probes (fs : FileSystem) (visit : Visit) : List String :=
  match fs.source visit.path with
  | .error _ => []
  | .ok source => (visit.pending source).flatMap fun pending => fs.askedFor pending.places

/-- What is visited when loading begins with this visit. -/
inductive Visits (fs : FileSystem) (start : Visit) : Visit → Prop
  | start : Visits fs start start
  | step {visit next : Visit} : Visits fs start visit → next ∈ fs.steps visit →
      Visits fs start next

/-- The places that are asked for when loading begins with this visit. -/
def Asks (fs : FileSystem) (start : Visit) (place : String) : Prop :=
  ∃ visit, fs.Visits start visit ∧ place ∈ fs.probes visit

theorem steps_of_source {visit : Visit} {source : SourceText}
    (h : fs.source visit.path = .ok source) :
    fs.steps visit = (visit.pending source).filterMap fs.follow? := by
  rw [steps, h]

theorem probes_of_source {visit : Visit} {source : SourceText}
    (h : fs.source visit.path = .ok source) :
    fs.probes visit = (visit.pending source).flatMap fun pending => fs.askedFor pending.places := by
  rw [probes, h]

/-- These are all visits when loading begins with the first of them, each with the source it reads:
the list holds the visits to which its members lead. -/
structure Reads (fs : FileSystem) (start : Visit) (reads : List (Visit × SourceText)) : Prop where
  start : start ∈ reads.map Prod.fst
  source : ∀ read ∈ reads, fs.source read.1.path = .ok read.2
  closed : ∀ read ∈ reads, ∀ pending ∈ read.1.pending read.2, ∀ next ∈ fs.follow? pending,
    next ∈ reads.map Prod.fst

namespace Reads

variable {start visit : Visit} {reads : List (Visit × SourceText)}

theorem exists_of_visits (h : fs.Reads start reads) (hvisit : fs.Visits start visit) :
    ∃ read ∈ reads, read.1 = visit := by
  induction hvisit with
  | start => exact List.mem_map.1 h.start
  | step _ hnext ih =>
    obtain ⟨read, hread, rfl⟩ := ih
    rw [steps_of_source (h.source read hread)] at hnext
    obtain ⟨pending, hpending, hfollow⟩ := List.mem_filterMap.1 hnext
    exact List.mem_map.1 (h.closed read hread pending hpending _ hfollow)

theorem exists_of_asks (h : fs.Reads start reads) {place : String} (hasks : fs.Asks start place) :
    ∃ read ∈ reads, ∃ pending ∈ read.1.pending read.2, place ∈ fs.askedFor pending.places := by
  obtain ⟨visit, hvisit, hprobe⟩ := hasks
  obtain ⟨read, hread, rfl⟩ := h.exists_of_visits hvisit
  rw [probes_of_source (h.source read hread)] at hprobe
  exact ⟨read, hread, List.mem_flatMap.1 hprobe⟩

end Reads

/-- The files from a visit on are its own, and those from each further visit on. -/
theorem filesFrom_eq_ok_iff {depth : Nat} {visit : Visit} {files : List SourceFile} :
    fs.filesFrom (depth + 1) visit = .ok files ↔
      ∃ source inner, fs.source visit.path = .ok source ∧
        List.Forall₂ (fun next files => fs.filesFrom depth next = .ok files) (fs.steps visit)
          inner ∧
        files = visit.file source :: inner.flatten := by
  rw [filesFrom]
  cases hsource : fs.source visit.path with
  | error failure => simp
  | ok source =>
    rw [steps_of_source hsource]
    simp only [Except.ok.injEq]
    constructor
    · intro h
      cases hinner : ((visit.pending source).filterMap fs.follow?).mapM (fs.filesFrom depth) with
      | error failure => rw [hinner] at h; cases h
      | ok inner =>
        rw [hinner] at h
        exact ⟨source, inner, rfl, mapM_eq_ok_iff.1 hinner, (Except.ok.inj h).symm⟩
    · rintro ⟨_, inner, rfl, hinner, rfl⟩
      rw [mapM_eq_ok_iff.2 hinner]
      rfl

end FileSystem

/-! ### Loading -/

namespace Compilation

/-- The compilation with more files. -/
def addFiles (compilation : Compilation) (files : List SourceFile) : Compilation :=
  { compilation with files := compilation.files ++ files }

theorem files_addExterns (compilation : Compilation) (pairs : List (String × String)) :
    (compilation.addExterns pairs).files = compilation.files := by
  unfold addExterns
  induction pairs generalizing compilation with
  | nil => rfl
  | cons pair rest ih => exact ih _

theorem crateName_addExterns (compilation : Compilation) (pairs : List (String × String)) :
    (compilation.addExterns pairs).crateName = compilation.crateName := by
  unfold addExterns
  induction pairs generalizing compilation with
  | nil => rfl
  | cons pair rest ih => exact ih _

theorem externs_addExterns {compilation compilation' : Compilation}
    (h : compilation.externs = compilation'.externs) (pairs : List (String × String)) :
    (compilation.addExterns pairs).externs = (compilation'.addExterns pairs).externs := by
  unfold addExterns
  induction pairs generalizing compilation compilation' with
  | nil => exact h
  | cons pair rest ih => exact ih (by simp only [addExtern, h])

theorem addFiles_nil (compilation : Compilation) : compilation.addFiles [] = compilation := by
  simp [addFiles]

theorem addFiles_append (compilation : Compilation) (files files' : List SourceFile) :
    compilation.addFiles (files ++ files') = (compilation.addFiles files).addFiles files' := by
  simp [addFiles]

theorem addFiles_cons (compilation : Compilation) (file : SourceFile) (files : List SourceFile) :
    compilation.addFiles (file :: files) = (compilation.addFile file).addFiles files := by
  simp [addFiles, addFile]

section Disk

variable {fs : FileSystem} {α β : Type}

/-- Run a program on a file system. -/
def runOn (program : ExceptT Failure (StateM FileSystem) α) (fs : FileSystem) :
    Except Failure α × FileSystem :=
  program.run.run fs

theorem runOn_bind_ok {program : ExceptT Failure (StateM FileSystem) α}
    {next : α → ExceptT Failure (StateM FileSystem) β} {a : α} {fs' : FileSystem}
    (h : runOn program fs = (.ok a, fs')) : runOn (program >>= next) fs = runOn (next a) fs' := by
  unfold runOn at h ⊢
  rw [ExceptT.run_bind, StateT.run_bind, h]
  rfl

theorem runOn_bind_error {program : ExceptT Failure (StateM FileSystem) α}
    {next : α → ExceptT Failure (StateM FileSystem) β} {failure : Failure} {fs' : FileSystem}
    (h : runOn program fs = (.error failure, fs')) :
    runOn (program >>= next) fs = (.error failure, fs') := by
  unfold runOn at h ⊢
  rw [ExceptT.run_bind, StateT.run_bind, h]
  rfl

theorem runOn_liftM {program : StateM FileSystem α} {a : α} {fs' : FileSystem}
    (h : StateT.run program fs = (a, fs')) :
    runOn (liftM program : ExceptT Failure (StateM FileSystem) α) fs = (.ok a, fs') := by
  show (Except.ok (StateT.run program fs).1, (StateT.run program fs).2) = _
  rw [h]

theorem runOn_readText (fs : FileSystem) (path : String) :
    runOn (FileSystem.disk.readText path) fs = (fs.text path, fs) := by
  have hread : runOn (liftM (FileSystem.disk.read path) :
      ExceptT Failure (StateM FileSystem) (Except DiskFault ByteArray)) fs =
        (.ok (fs.read path), fs) := runOn_liftM rfl
  rw [Disk.readText, runOn_bind_ok hread, FileSystem.text]
  cases fs.read path with
  | error fault => rfl
  | ok content =>
    dsimp only
    cases String.fromUTF8? content <;> rfl

theorem findM?_disk (fs : FileSystem) (places : List String) :
    StateT.run (places.findM? fun place => FileSystem.disk.isFile place) fs =
      (places.find? fs.isFile, fs) := by
  induction places with
  | nil => rfl
  | cons place rest ih =>
    have hstep : StateT.run ((place :: rest).findM? fun place => FileSystem.disk.isFile place) fs =
        StateT.run (match fs.isFile place with
          | true => pure (some place)
          | false => rest.findM? fun place => FileSystem.disk.isFile place) fs := rfl
    rw [hstep, List.find?_cons]
    cases fs.isFile place with
    | true => rfl
    | false => exact ih

end Disk

section Pending

variable {depth : Nat}
  {load : Visit → Compilation → ExceptT Failure (StateM FileSystem) Compilation}

/-- Loads the file of a module, if there is one. -/
def loadPending (load : Visit → Compilation → ExceptT Failure (StateM FileSystem) Compilation)
    (compilation : Compilation) (pending : PendingModule) :
    ExceptT Failure (StateM FileSystem) Compilation := do
  match ← (pending.places.findM? fun place => FileSystem.disk.isFile place :
      StateM FileSystem (Option String)) with
  | none => return compilation
  | some found => load (pending.visit found) compilation

theorem runOn_loadPending
    (load : Visit → Compilation → ExceptT Failure (StateM FileSystem) Compilation)
    (fs : FileSystem) (compilation : Compilation) (pending : PendingModule) :
    runOn (loadPending load compilation pending) fs =
      match fs.follow? pending with
      | none => (.ok compilation, fs)
      | some visit => runOn (load visit compilation) fs := by
  have hfound : runOn (liftM (pending.places.findM? fun place => FileSystem.disk.isFile place :
      StateM FileSystem (Option String)) : ExceptT Failure (StateM FileSystem) (Option String)) fs =
      (.ok (pending.places.find? fs.isFile), fs) :=
    runOn_liftM (findM?_disk fs pending.places)
  rw [loadPending, runOn_bind_ok hfound, FileSystem.follow?]
  cases pending.places.find? fs.isFile <;> rfl

/-- What holds of one file holds of the files of several modules, one after the other. -/
theorem runOn_foldlM_loadPending
    (hload : ∀ visit compilation, runOn (load visit compilation) fs =
      ((fs.filesFrom depth visit).map compilation.addFiles, fs))
    (list : List PendingModule) (compilation : Compilation) :
    runOn (list.foldlM (loadPending load) compilation) fs =
      (((list.filterMap fs.follow?).mapM (fs.filesFrom depth)).map fun inner =>
        compilation.addFiles inner.flatten, fs) := by
  induction list generalizing compilation with
  | nil =>
    show (Except.ok compilation, fs) = (Except.ok (compilation.addFiles []), fs)
    rw [addFiles_nil]
  | cons pending rest ih =>
    have hone := runOn_loadPending load fs compilation pending
    rw [List.foldlM_cons, List.filterMap_cons]
    cases hfollow : fs.follow? pending with
    | none =>
      rw [hfollow] at hone
      rw [runOn_bind_ok hone, ih]
    | some visit =>
      rw [hfollow] at hone
      replace hone := hone.trans (hload visit compilation)
      dsimp only
      rw [List.mapM_cons]
      cases hfiles : fs.filesFrom depth visit with
      | error failure =>
        rw [hfiles] at hone
        rw [runOn_bind_error hone]
        rfl
      | ok files =>
        rw [hfiles] at hone
        rw [runOn_bind_ok hone, ih]
        cases (rest.filterMap fs.follow?).mapM (fs.filesFrom depth) with
        | error failure => rfl
        | ok inner =>
          show (Except.ok _, fs) = (Except.ok (compilation.addFiles (files ++ inner.flatten)), fs)
          rw [addFiles_append]

end Pending

/-- Loading a file adds it and the files of the modules it declares, and changes nothing. -/
theorem loadFile_disk (fs : FileSystem) (depth : Nat) (visit : Visit) (compilation : Compilation) :
    runOn (loadFile FileSystem.disk depth visit.path visit.module visit.directory visit.gates
        compilation) fs =
      ((fs.filesFrom depth visit).map compilation.addFiles, fs) := by
  induction depth generalizing visit compilation with
  | zero => rfl
  | succ depth ih =>
    rw [loadFile, FileSystem.filesFrom, FileSystem.source]
    have htext := runOn_readText fs visit.path
    cases hread : fs.text visit.path with
    | error failure =>
      rw [hread] at htext
      rw [runOn_bind_error htext]
      rfl
    | ok text =>
      rw [hread] at htext
      rw [runOn_bind_ok htext]
      dsimp only
      cases Grammar.parseFile text with
      | error fault => rfl
      | ok source =>
        have hfold := runOn_foldlM_loadPending ih (visit.pending source)
          (compilation.addFile (visit.file source))
        refine Eq.trans hfold ?_
        show _ = (Except.map _ (Except.map _ _), fs)
        cases ((visit.pending source).filterMap fs.follow?).mapM (fs.filesFrom depth) with
        | error failure => rfl
        | ok inner =>
          show (Except.ok _, fs) = (Except.ok _, fs)
          rw [addFiles_cons]

/-- Loading a crate from its root file is this recursion. -/
theorem loadWithin_disk (fs : FileSystem) (depth : Nat) (crateName root : String) :
    runOn (loadWithin FileSystem.disk depth crateName root) fs =
      ((fs.filesFrom depth (.root root)).map (empty crateName).addFiles, fs) :=
  loadFile_disk fs depth (.root root) (.empty crateName)

end Compilation

end DescriptionLookup
