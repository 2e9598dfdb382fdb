import DescriptionLookup.Build.Builder
import DescriptionLookup.Proofs.DiskChanges

/-!
# What a build depends on

A build reads the files that it reports as its inputs, and it asks for other places in vain: where a
module could have its file but has none, and for `lib.rs` in a package without a library. These are
all it depends on.

* `filesFrom_congr`: the files of a crate;
* `BuildOptions.run_congr`: a build. If the inputs are the same when the crate is loaded, and no
  place that was asked for in vain has a file now, another build yields the same.

`missing_file_counts` shows that the inputs alone are not enough.
-/

namespace DescriptionLookup

namespace FileSystem

variable {fs fs' : FileSystem}

/-! ### Files -/

/-- Which place is found depends only on those that are asked for. -/
theorem find?_congr {places : List String}
    (h : ∀ place ∈ fs.askedFor places, fs'.isFile place = fs.isFile place) :
    places.find? fs'.isFile = places.find? fs.isFile := by
  induction places with
  | nil => rfl
  | cons place rest ih =>
    rw [askedFor] at h
    cases hplace : fs.isFile place with
    | true =>
      rw [if_pos hplace] at h
      rw [List.find?_cons_of_pos hplace,
        List.find?_cons_of_pos ((h place List.mem_cons_self).trans hplace)]
    | false =>
      have hnot : ¬ fs.isFile place = true := by simp [hplace]
      rw [if_neg hnot] at h
      have hnot' : ¬ fs'.isFile place = true := by simp [h place List.mem_cons_self, hplace]
      rw [List.find?_cons_of_neg hnot, List.find?_cons_of_neg hnot']
      exact ih fun other hother => h other (List.mem_cons_of_mem _ hother)

/-- The place that is asked for and has a file is the one that is found. -/
theorem find?_of_mem_askedFor {places : List String} {place : String}
    (h : place ∈ fs.askedFor places) (hfile : fs.isFile place = true) :
    places.find? fs.isFile = some place := by
  induction places with
  | nil => cases h
  | cons first rest ih =>
    rw [askedFor] at h
    by_cases hfirst : fs.isFile first = true
    · rw [if_pos hfirst, List.mem_singleton] at h
      rw [List.find?_cons_of_pos hfirst, h]
    · rw [if_neg hfirst, List.mem_cons] at h
      rw [List.find?_cons_of_neg hfirst]
      rcases h with rfl | h
      · exact absurd hfile hfirst
      · exact ih h

/-- The first of the files from a visit on is the one that is visited. -/
theorem exists_mem_filesFrom {depth : Nat} {visit : Visit} {files : List SourceFile}
    (h : fs.filesFrom depth visit = .ok files) : ∃ file ∈ files, file.path = visit.path := by
  cases depth with
  | zero => cases h
  | succ depth =>
    obtain ⟨source, inner, -, -, rfl⟩ := filesFrom_eq_ok_iff.1 h
    exact ⟨visit.file source, List.mem_cons_self, rfl⟩

/-- What is read from a visit on depends only on the files that are read, and on the places that are
asked for in vain. -/
theorem filesFrom_congr {start visit : Visit} (hvisit : fs.Visits start visit)
    (hmissed : ∀ place, fs.Asks start place → fs.isFile place = false → fs'.isFile place = false)
    {depth : Nat} {files : List SourceFile} (hfiles : fs.filesFrom depth visit = .ok files)
    (hread : ∀ file ∈ files, fs'.read file.path = fs.read file.path) :
    fs'.filesFrom depth visit = .ok files := by
  induction depth generalizing visit files with
  | zero => cases hfiles
  | succ depth ih =>
    obtain ⟨source, inner, hsource, hinner, rfl⟩ := filesFrom_eq_ok_iff.1 hfiles
    have hsource' : fs'.source visit.path = .ok source :=
      (source_congr (hread (visit.file source) List.mem_cons_self)).trans hsource
    have hsteps : fs'.steps visit = fs.steps visit := by
      rw [steps_of_source hsource, steps_of_source hsource']
      refine List.filterMap_congr fun pending hpending => ?_
      rw [follow?, follow?]
      congr 1
      refine find?_congr fun place hplace => ?_
      cases hfile : fs.isFile place with
      | false =>
        refine hmissed place ⟨visit, hvisit, ?_⟩ hfile
        rw [probes_of_source hsource]
        exact List.mem_flatMap.2 ⟨pending, hpending, hplace⟩
      | true =>
        -- the place is visited next, so that it is among the files
        have hfound : fs.follow? pending = some (pending.visit place) := by
          rw [follow?, find?_of_mem_askedFor hplace hfile, Option.map_some]
        have hmem : pending.visit place ∈ fs.steps visit := by
          rw [steps_of_source hsource]
          exact List.mem_filterMap.2 ⟨pending, hpending, hfound⟩
        obtain ⟨files, hfiles, hrun⟩ := exists_of_mem_forall₂ hinner hmem
        obtain ⟨file, hmem, hpath⟩ := exists_mem_filesFrom hrun
        have hsame := hread file (List.mem_cons_of_mem _ (List.mem_flatten_of_mem hfiles hmem))
        rw [hpath] at hsame
        exact (isFile_congr hsame).trans hfile
    refine filesFrom_eq_ok_iff.2 ⟨source, inner, hsource', ?_, rfl⟩
    rw [hsteps]
    refine forall₂_imp_of_mem hinner fun next hmem files hfiles hrun => ?_
    exact ih (.step hvisit hmem) hrun fun file hfile =>
      hread file (List.mem_cons_of_mem _ (List.mem_flatten_of_mem hfiles hfile))

end FileSystem

namespace BuildOptions

open Compilation (runOn)

variable {options : BuildOptions} {environment : Environment} {fs fs' : FileSystem}

/-! ### The steps of a build -/

/-- What a build on a file system prints, and what becomes of it. -/
def outcome (options : BuildOptions) (environment : Environment) (fs : FileSystem) : BuildOutcome :=
  (StateT.run (options.run FileSystem.disk environment) fs).1

/-- The file system on which the crate is loaded: the directory of the generated files is there, and
the support file in it. -/
def prepared (options : BuildOptions) (environment : Environment) (fs : FileSystem) : FileSystem :=
  (runOn (options.prepare FileSystem.disk environment) fs).2

/-- The root file of the library of a package. -/
def libraryRoot (package : String) : String :=
  Location.join (Location.join package "src") "lib.rs"

/-- The root file of the crate. -/
def rootOn (options : BuildOptions) (environment : Environment) (fs : FileSystem) :
    Except Failure String :=
  match options.root? with
  | some root => .ok root
  | none =>
    match required environment "CARGO_MANIFEST_DIR" with
    | .error failure => .error failure
    | .ok package =>
      .ok (if fs.isFile (libraryRoot package) then libraryRoot package
        else Location.join (Location.join package "src") "main.rs")

theorem runOn_root (options : BuildOptions) (environment : Environment) (fs : FileSystem) :
    runOn (options.root FileSystem.disk environment) fs =
      (options.rootOn environment fs, fs) := by
  unfold root rootOn
  cases options.root? with
  | some root => rfl
  | none =>
    dsimp only
    cases required environment "CARGO_MANIFEST_DIR" with
    | error failure => rfl
    | ok package =>
      have hlibrary : runOn (liftM (FileSystem.disk.isFile (libraryRoot package)) :
          ExceptT Failure (StateM FileSystem) Bool) fs =
            (.ok (fs.isFile (libraryRoot package)), fs) :=
        Compilation.runOn_liftM rfl
      refine (Compilation.runOn_bind_ok hlibrary).trans ?_
      dsimp only
      cases fs.isFile (libraryRoot package) <;> rfl

/-- The crate that is loaded. -/
def crateOn (options : BuildOptions) (environment : Environment) (fs : FileSystem) :
    Except Failure Compilation := do
  let root ← options.rootOn environment fs
  let name ← options.crateName environment
  let files ← fs.filesFrom Compilation.maximalDepth (.root root)
  return ((Compilation.empty name).addFiles files).addExterns options.externs

theorem runOn_loadCrate (options : BuildOptions) (environment : Environment) (fs : FileSystem) :
    runOn (options.loadCrate FileSystem.disk environment) fs =
      (options.crateOn environment fs, fs) := by
  unfold loadCrate crateOn
  have hroot := runOn_root options environment fs
  cases hrootOn : options.rootOn environment fs with
  | error failure =>
    rw [hrootOn] at hroot
    exact Compilation.runOn_bind_error hroot
  | ok root =>
    rw [hrootOn] at hroot
    rw [Compilation.runOn_bind_ok hroot]
    cases options.crateName environment with
    | error failure => rfl
    | ok name =>
      have hload := Compilation.loadWithin_disk fs Compilation.maximalDepth name root
      show runOn (Compilation.loadWithin FileSystem.disk Compilation.maximalDepth name root >>= _)
        fs = _
      cases hfiles : fs.filesFrom Compilation.maximalDepth (.root root) with
      | error failure =>
        rw [hfiles] at hload
        rw [Compilation.runOn_bind_error hload]
        simp only [bind, Except.bind, hfiles]
      | ok files =>
        rw [hfiles] at hload
        rw [Compilation.runOn_bind_ok hload]
        simp only [bind, Except.bind, hfiles]
        rfl

theorem run_bind_of_eq {α β : Type} {program : StateM FileSystem α} {a : α}
    (h : StateT.run program fs = (a, fs')) (next : α → StateM FileSystem β) :
    StateT.run (program >>= next) fs = StateT.run (next a) fs' := by
  rw [StateT.run_bind, h]
  rfl

/-- A build whose output directory cannot be prepared ends there. -/
theorem run_of_prepare_error {failure : Failure} {prepared : FileSystem}
    (hprepare : runOn (options.prepare FileSystem.disk environment) fs =
      (.error failure, prepared)) :
    StateT.run (options.run FileSystem.disk environment) fs =
      (⟨[], .error failure⟩, prepared) := by
  rw [run, run_bind_of_eq hprepare]
  rfl

/-- A build whose crate cannot be loaded ends there. -/
theorem run_of_crateOn_error {directory support : String} {failure : Failure}
    {prepared : FileSystem}
    (hprepare : runOn (options.prepare FileSystem.disk environment) fs =
      (.ok (directory, support), prepared))
    (hcrate : options.crateOn environment prepared = .error failure) :
    StateT.run (options.run FileSystem.disk environment) fs =
      (⟨[], .error failure⟩, prepared) := by
  have hload := runOn_loadCrate options environment prepared
  rw [hcrate] at hload
  rw [run, run_bind_of_eq hprepare]
  dsimp only
  rw [run_bind_of_eq hload]
  rfl

/-- What becomes of a build once the crate is loaded. -/
theorem run_eq_finish {directory support : String} {prepared : FileSystem}
    {compilation : Compilation}
    (hprepare : runOn (options.prepare FileSystem.disk environment) fs =
      (.ok (directory, support), prepared))
    (hcrate : options.crateOn environment prepared = .ok compilation) :
    StateT.run (options.run FileSystem.disk environment) fs =
      StateT.run (options.finish FileSystem.disk directory support compilation) prepared := by
  have hload := runOn_loadCrate options environment prepared
  rw [hcrate] at hload
  rw [run, run_bind_of_eq hprepare]
  dsimp only
  rw [run_bind_of_eq hload]

theorem outcome_eq_finish {directory support : String} {prepared : FileSystem}
    {compilation : Compilation}
    (hprepare : runOn (options.prepare FileSystem.disk environment) fs =
      (.ok (directory, support), prepared))
    (hcrate : options.crateOn environment prepared = .ok compilation) :
    options.outcome environment fs =
      (StateT.run (options.finish FileSystem.disk directory support compilation) prepared).1 :=
  congrArg Prod.fst (run_eq_finish hprepare hcrate)

/-- A build that succeeds gets as far as that. -/
theorem exists_crateOn {report : BuildReport}
    (h : (options.outcome environment fs).report = .ok report) :
    ∃ directory support compilation,
      runOn (options.prepare FileSystem.disk environment) fs =
        (.ok (directory, support), options.prepared environment fs) ∧
      options.crateOn environment (options.prepared environment fs) = .ok compilation := by
  rcases hprepare : runOn (options.prepare FileSystem.disk environment) fs with
    ⟨failure | ⟨directory, support⟩, prepared⟩
  · rw [outcome, run_of_prepare_error hprepare] at h
    cases h
  · have hprepared : options.prepared environment fs = prepared := by
      rw [BuildOptions.prepared, hprepare]
    rw [hprepared]
    cases hcrate : options.crateOn environment prepared with
    | ok compilation => exact ⟨directory, support, compilation, rfl, rfl⟩
    | error failure =>
      rw [outcome, run_of_crateOn_error hprepare hcrate] at h
      cases h

theorem fileName_of_generate {compilation : Compilation} {configuration : Configuration}
    {result : PassResult} (h : compilation.generate configuration = .ok result) :
    result.unit.fileName = "enum_descriptions.rs" := by
  unfold Compilation.generate at h
  cases hselect : compilation.select configuration with
  | error failure => rw [hselect] at h; cases h
  | ok selected =>
    rw [hselect] at h
    obtain rfl := Except.ok.inj h
    rfl

/-- The file with the lookups cannot be written. -/
theorem run_finish_of_write_error {compilation : Compilation} {result : PassResult}
    (hgenerate : compilation.generate options.configuration = .ok result)
    (directory support : String) {failure : Failure}
    (hwrite : runOn (FileSystem.disk.writeIfChanged (Location.join directory result.unit.fileName)
      result.unit.text) fs = (.error failure, fs')) :
    StateT.run (options.finish FileSystem.disk directory support compilation) fs =
      (⟨options.inputDirectives (compilation.files.map SourceFile.path), .error failure⟩, fs') := by
  rw [finish, hgenerate]
  dsimp only
  rw [run_bind_of_eq hwrite]
  rfl

/-- The file with the lookups is written, or holds its text already. -/
theorem run_finish_of_write {compilation : Compilation} {result : PassResult}
    (hgenerate : compilation.generate options.configuration = .ok result)
    (directory support : String) {written : Bool}
    (hwrite : runOn (FileSystem.disk.writeIfChanged (Location.join directory result.unit.fileName)
      result.unit.text) fs = (.ok written, fs')) :
    StateT.run (options.finish FileSystem.disk directory support compilation) fs =
      (⟨options.inputDirectives (compilation.files.map SourceFile.path) ++
          options.warningDirectives result.skipped,
        .ok {
          supportPath := support
          outputPath := Location.join directory result.unit.fileName
          inputs := compilation.files.map SourceFile.path
          result
          written }⟩, fs') := by
  rw [finish, hgenerate]
  dsimp only
  rw [run_bind_of_eq hwrite]
  rfl

/-- What the last step of a build makes of a pass that succeeded. -/
theorem finish_eq {compilation : Compilation} {result : PassResult}
    (hgenerate : compilation.generate options.configuration = .ok result)
    (directory support : String) (fs : FileSystem) :
    (StateT.run (options.finish FileSystem.disk directory support compilation) fs).1 =
      match (runOn (FileSystem.disk.writeIfChanged (Location.join directory result.unit.fileName)
        result.unit.text) fs).1 with
      | .error failure =>
        ⟨options.inputDirectives (compilation.files.map SourceFile.path), .error failure⟩
      | .ok written =>
        ⟨options.inputDirectives (compilation.files.map SourceFile.path) ++
            options.warningDirectives result.skipped,
          .ok {
            supportPath := support
            outputPath := Location.join directory result.unit.fileName
            inputs := compilation.files.map SourceFile.path
            result
            written }⟩ := by
  rcases hwrite : runOn (FileSystem.disk.writeIfChanged
    (Location.join directory result.unit.fileName) result.unit.text) fs with
    ⟨failure | written, after⟩
  · rw [run_finish_of_write_error hgenerate directory support hwrite]
  · rw [run_finish_of_write hgenerate directory support hwrite]

theorem exists_generate {compilation : Compilation} {directory support : String}
    {report : BuildReport}
    (h : (StateT.run (options.finish FileSystem.disk directory support compilation) fs).1.report =
      .ok report) :
    compilation.generate options.configuration = .ok report.result ∧
      report.inputs = compilation.files.map SourceFile.path ∧
      (StateT.run (options.finish FileSystem.disk directory support compilation) fs).1.printed =
        options.inputDirectives (compilation.files.map SourceFile.path) ++
          options.warningDirectives report.result.skipped := by
  cases hgenerate : compilation.generate options.configuration with
  | error failure =>
    rw [finish, hgenerate] at h
    cases h
  | ok result =>
    rw [finish_eq hgenerate] at h ⊢
    cases hwrite : (runOn (FileSystem.disk.writeIfChanged
      (Location.join directory result.unit.fileName) result.unit.text) fs).1 with
    | error failure => rw [hwrite] at h; cases h
    | ok written =>
      rw [hwrite] at h
      cases h
      exact ⟨rfl, rfl, rfl⟩

/-- A file that can be written is written, unless it has the text already. -/
theorem writeIfChanged_of_write {path text : String}
    (h : ∃ written, fs.write path text.toUTF8 = .ok written) :
    ∃ written, (runOn (FileSystem.disk.writeIfChanged path text) fs).1 = .ok written := by
  obtain ⟨after, hafter⟩ := h
  rcases fs.runOn_writeIfChanged path text with
    ⟨-, hrun⟩ | ⟨-, ⟨_, -, hrun⟩ | ⟨fault, hfault, -⟩⟩
  · exact ⟨false, by rw [hrun]⟩
  · exact ⟨true, by rw [hrun]⟩
  · rw [hafter] at hfault
    cases hfault

/-! ### Builds that yield the same -/

/-- A build asks whether there is a file here: for the library of the package, or for a module. -/
def AsksFor (options : BuildOptions) (environment : Environment) (fs : FileSystem)
    (place : String) : Prop :=
  (options.root? = none ∧
    ∃ package, environment "CARGO_MANIFEST_DIR" = some package ∧ place = libraryRoot package) ∨
  ∃ root, options.rootOn environment fs = .ok root ∧ fs.Asks (.root root) place

/-- The directory of the generated files can be used: the support file gets written into it, and
any content can be written to the file with the lookups. -/
def HasUsableOutput (options : BuildOptions) (environment : Environment) (fs : FileSystem) : Prop :=
  ∃ directory support,
    (runOn (options.prepare FileSystem.disk environment) fs).1 = .ok (directory, support) ∧
      ∀ content, ∃ written, (options.prepared environment fs).write
        (Location.join directory "enum_descriptions.rs") content = .ok written

theorem rootOn_congr {root : String} (hroot : options.rootOn environment fs = .ok root)
    (hread : fs'.read root = fs.read root)
    (hmissed : ∀ place, options.AsksFor environment fs place → fs.isFile place = false →
      fs'.isFile place = false) :
    options.rootOn environment fs' = .ok root := by
  rw [← hroot]
  unfold rootOn at hroot ⊢
  cases hgiven : options.root? with
  | some root => rfl
  | none =>
    rw [hgiven] at hroot
    dsimp only at hroot ⊢
    cases hpackage : required environment "CARGO_MANIFEST_DIR" with
    | error failure => rfl
    | ok package =>
      have henvironment : environment "CARGO_MANIFEST_DIR" = some package := by
        unfold required at hpackage
        cases hvalue : environment "CARGO_MANIFEST_DIR" with
        | none => rw [hvalue] at hpackage; cases hpackage
        | some value => rw [hvalue] at hpackage; cases hpackage; rfl
      rw [hpackage] at hroot
      dsimp only at hroot ⊢
      cases hlibrary : fs.isFile (libraryRoot package) with
      | true =>
        rw [hlibrary, if_pos rfl, Except.ok.injEq] at hroot
        rw [hroot, FileSystem.isFile_congr hread, ← hroot, hlibrary]
      | false =>
        rw [hmissed _ (Or.inl ⟨hgiven, package, henvironment, rfl⟩) hlibrary]

theorem crateOn_congr {compilation : Compilation}
    (hcrate : options.crateOn environment fs = .ok compilation)
    (hread : ∀ file ∈ compilation.files, fs'.read file.path = fs.read file.path)
    (hmissed : ∀ place, options.AsksFor environment fs place → fs.isFile place = false →
      fs'.isFile place = false) :
    options.crateOn environment fs' = .ok compilation := by
  unfold crateOn at hcrate ⊢
  cases hroot : options.rootOn environment fs with
  | error failure => rw [hroot] at hcrate; cases hcrate
  | ok root =>
    rw [hroot] at hcrate
    cases hname : options.crateName environment with
    | error failure => rw [hname] at hcrate; cases hcrate
    | ok name =>
      rw [hname] at hcrate
      cases hfiles : fs.filesFrom Compilation.maximalDepth (.root root) with
      | error failure =>
        simp only [bind, Except.bind, hfiles] at hcrate
        cases hcrate
      | ok files =>
        simp only [bind, Except.bind, hfiles] at hcrate
        obtain rfl := Except.ok.inj hcrate
        have hfiles' : ∀ file ∈ files, fs'.read file.path = fs.read file.path := by
          simpa [Compilation.files_addExterns, Compilation.addFiles, Compilation.empty] using hread
        obtain ⟨file, hfile, hpath⟩ := FileSystem.exists_mem_filesFrom hfiles
        replace hpath : file.path = root := hpath
        have hroot' : options.rootOn environment fs' = .ok root :=
          rootOn_congr hroot (hpath ▸ hfiles' file hfile) hmissed
        have hloaded := FileSystem.filesFrom_congr .start
          (fun place hplace => hmissed place (Or.inr ⟨root, hroot, hplace⟩)) hfiles hfiles'
        simp only [bind, Except.bind, hroot', hloaded]
        rfl

/-- Another build yields the same and prints the same, if its output directory can be used, the
inputs of the first are the same when the crate is loaded, and no place that the first asked for in
vain has a file. -/
theorem run_congr {report : BuildReport}
    (hrun : (options.outcome environment fs).report = .ok report)
    (husable : options.HasUsableOutput environment fs')
    (hinputs : ∀ path ∈ report.inputs,
      (options.prepared environment fs').read path = (options.prepared environment fs).read path)
    (hmissed : ∀ place, options.AsksFor environment (options.prepared environment fs) place →
      (options.prepared environment fs).isFile place = false →
      (options.prepared environment fs').isFile place = false) :
    ∃ report', (options.outcome environment fs').report = .ok report' ∧
      report'.result = report.result ∧ report'.inputs = report.inputs ∧
      (options.outcome environment fs').printed = (options.outcome environment fs).printed := by
  obtain ⟨directory, support, compilation, hprepare, hcrate⟩ := exists_crateOn hrun
  have hfinish := outcome_eq_finish hprepare hcrate
  rw [hfinish] at hrun ⊢
  obtain ⟨hgenerate, hreport, hprinted⟩ := exists_generate hrun
  have hcrate' : options.crateOn environment (options.prepared environment fs') = .ok compilation :=
    crateOn_congr hcrate (fun file hfile => hinputs file.path
      (by rw [hreport]; exact List.mem_map_of_mem hfile)) hmissed
  obtain ⟨directory', support', hprepare', hwrite⟩ := husable
  have hstep : runOn (options.prepare FileSystem.disk environment) fs' =
      (.ok (directory', support'), options.prepared environment fs') :=
    Prod.ext hprepare' rfl
  have hfinish' := outcome_eq_finish hstep hcrate'
  have hname := fileName_of_generate hgenerate
  obtain ⟨written, hwritten⟩ :=
    writeIfChanged_of_write (hname ▸ hwrite report.result.unit.text.toUTF8)
  have hend := finish_eq hgenerate directory' support' (options.prepared environment fs')
  rw [hwritten] at hend
  rw [hfinish', hend, hprinted]
  exact ⟨_, rfl, rfl, hreport.symm, rfl⟩

/-- The output directory can be used if it can be prepared and no directory is in the way. -/
theorem hasUsableOutput (directory support : String)
    (hprepare : (runOn (options.prepare FileSystem.disk environment) fs).1.toOption =
      some (directory, support))
    (hplace : ((options.prepared environment fs).locate
      (Location.join directory "enum_descriptions.rs")).toOption ≠ none)
    (hfree : (options.prepared environment fs).isDirectory
      (Location.join directory "enum_descriptions.rs") = false) :
    options.HasUsableOutput environment fs := by
  refine ⟨directory, support, ?_, fun content => ?_⟩
  · exact Except.toOption_eq_some.1 hprepare
  · unfold FileSystem.isDirectory FileSystem.find at hfree
    unfold FileSystem.write
    cases hlocate : (options.prepared environment fs).locate
        (Location.join directory "enum_descriptions.rs") with
    | error fault => rw [hlocate] at hplace; exact absurd rfl hplace
    | ok place =>
      simp only [hlocate, bind, Except.bind] at hfree ⊢
      cases hentry : FileSystem.entry? (options.prepared environment fs) place with
      | none => exact ⟨_, rfl⟩
      | some entry =>
        cases entry with
        | file old => exact ⟨_, rfl⟩
        | directory => rw [hentry] at hfree; cases hfree

end BuildOptions

/-! ### Some packages -/

/-- A directory with a package whose sources have these names and texts. -/
def packageOf (sources : List (String × String)) : FileSystem :=
  sources.foldl (fun fs (name, text) => fs.put ["work", "src", name] (.file text.toUTF8))
    ((FileSystem.ofWorking "work").put ["work", "src"] .directory)

/-- The text of a file with an enum that derives the marker. -/
def kindText : String := "#[derive(macros::Describe)] pub enum Kind { One }"

/-- A build of the crate with root `src/lib.rs` and a marker `macros::Describe`. -/
def plainOptions : BuildOptions where
  root? := some "src/lib.rs"
  outDirectory? := some "out"
  crateName? := some "demo"
  externs := [("macros", "macros")]
  configuration := { marker := "macros::Describe" }

/-- An environment without variables. -/
def noVariables : Environment := fun _ => none

/-- The inputs of a build and the enums with a lookup, if it succeeds. -/
def yieldOf (fs : FileSystem) : Option (List String × List Symbol) :=
  (plainOptions.outcome noVariables fs).report.toOption.map fun report =>
    (report.inputs, report.result.described.map DescribedEnum.symbol)

/-- A package with a module that has a file, and one that has none. -/
def gappyPackage : FileSystem := packageOf [("lib.rs", "pub mod a; mod gone;"), ("a.rs", kindText)]

/-- What is read of it, each file with its source. -/
def gappyReads : List (Visit × SourceText) :=
  [(.root "src/lib.rs",
      ⟨[], [.fileModule ⟨[], .everywhere, "a"⟩, .fileModule ⟨[], .inherited, "gone"⟩]⟩),
    (⟨"src/a.rs", ⟨["a"]⟩, "src/a", []⟩,
      ⟨[], [.enumeration ⟨[⟨.ofName "derive", .list .parenthesis [.word "macros" .start,
        .mark ':' true .start, .mark ':' false .start, .word "Describe" .start]⟩],
        .everywhere, "Kind", [], [], [⟨[], "One", true⟩]⟩]⟩)]

/-- The package with one more file, which no module declares. -/
def furtherPackage : FileSystem :=
  gappyPackage.put ["work", "src", "b.rs"] (.file kindText.toUTF8)

/-- What a build meets in the package, and where it can write in the other. -/
theorem met_gappyPackage :
    (∀ read ∈ gappyReads,
      ((plainOptions.prepared noVariables gappyPackage).source read.1.path).toOption =
        some read.2 ∧
      ∀ pending ∈ read.1.pending read.2,
        (∀ next ∈ (plainOptions.prepared noVariables gappyPackage).follow? pending,
          next ∈ gappyReads.map Prod.fst) ∧
        ∀ place ∈ (plainOptions.prepared noVariables gappyPackage).askedFor pending.places,
          place ∈ ["src/a.rs", "src/gone.rs", "src/gone/mod.rs"]) ∧
    (Compilation.runOn (plainOptions.prepare FileSystem.disk noVariables)
      furtherPackage).1.toOption =
      some ("out", "out/enum_description_support.rs") ∧
    ((plainOptions.prepared noVariables furtherPackage).locate
      (Location.join "out" "enum_descriptions.rs")).toOption ≠ none ∧
    (plainOptions.prepared noVariables furtherPackage).isDirectory
      (Location.join "out" "enum_descriptions.rs") = false := by
  decide +kernel

theorem reads_gappyPackage : (plainOptions.prepared noVariables gappyPackage).Reads
    (.root "src/lib.rs") gappyReads where
  start := List.mem_cons_self
  source read hread := Except.toOption_eq_some.1 (met_gappyPackage.1 read hread).1
  closed read hread pending hpending := ((met_gappyPackage.1 read hread).2 pending hpending).1

theorem asksFor_gappyPackage {place : String}
    (h : plainOptions.AsksFor noVariables (plainOptions.prepared noVariables gappyPackage) place) :
    place ∈ ["src/a.rs", "src/gone.rs", "src/gone/mod.rs"] := by
  rcases h with ⟨hroot, -⟩ | ⟨root, hroot, hasks⟩
  · cases hroot
  · obtain rfl : root = "src/lib.rs" := (Except.ok.inj hroot).symm
    obtain ⟨read, hread, pending, hpending, hplace⟩ := reads_gappyPackage.exists_of_asks hasks
    exact ((met_gappyPackage.1 read hread).2 pending hpending).2 place hplace

theorem hasUsableOutput_furtherPackage :
    plainOptions.HasUsableOutput noVariables furtherPackage := by
  obtain ⟨-, hprepare, hplace, hfree⟩ := met_gappyPackage
  exact BuildOptions.hasUsableOutput "out" "out/enum_description_support.rs" hprepare hplace hfree

/-- A further file that no module declares makes no difference. -/
theorem run_congr_of_further_file :
    yieldOf gappyPackage = some (["src/lib.rs", "src/a.rs"], [⟨.here, ["a", "Kind"]⟩]) ∧
      yieldOf furtherPackage = some (["src/lib.rs", "src/a.rs"], [⟨.here, ["a", "Kind"]⟩]) := by
  obtain ⟨hyield, hread, hmissed⟩ :
      yieldOf gappyPackage = some (["src/lib.rs", "src/a.rs"], [⟨.here, ["a", "Kind"]⟩]) ∧
      (∀ path ∈ ["src/lib.rs", "src/a.rs"],
        (plainOptions.prepared noVariables furtherPackage).read path =
          (plainOptions.prepared noVariables gappyPackage).read path) ∧
      ∀ place ∈ ["src/a.rs", "src/gone.rs", "src/gone/mod.rs"],
        (plainOptions.prepared noVariables gappyPackage).isFile place = false →
          (plainOptions.prepared noVariables furtherPackage).isFile place = false := by
    decide +kernel
  obtain ⟨report, hreport, hpair⟩ := Option.map_eq_some_iff.1 hyield
  obtain ⟨hinputs, hsymbols⟩ := Prod.mk.inj hpair
  have hrun : (plainOptions.outcome noVariables gappyPackage).report = .ok report :=
    Except.toOption_eq_some.1 hreport
  obtain ⟨report', hrun', hresult, hsame, -⟩ := BuildOptions.run_congr hrun
    hasUsableOutput_furtherPackage (hinputs ▸ hread)
    fun place hplace => hmissed place (asksFor_gappyPackage hplace)
  refine ⟨hyield, ?_⟩
  rw [yieldOf, hrun']
  show some (report'.inputs, _) = _
  rw [hsame, hresult, hinputs, hsymbols]

/-! ### Places that are no inputs -/

/-- A package with a module that has no file. -/
def halfPackage : FileSystem := packageOf [("lib.rs", "pub mod a;")]

/-- The package with the file. -/
def wholePackage : FileSystem := packageOf [("lib.rs", "pub mod a;"), ("a.rs", kindText)]

/-- A package with a module whose path leads through the output directory, which is not there. -/
def detourPackage (text : String) : FileSystem :=
  (packageOf [("lib.rs", "#[path = \"../out/../y.rs\"] pub mod y;")]).put ["work", "y.rs"]
    (.file text.toUTF8)

/-- The inputs agree, but a module that had no file has one now, or the output directory is needed
to see that they do not. -/
theorem missing_file_counts :
    (yieldOf halfPackage = some (["src/lib.rs"], []) ∧
      (∀ path ∈ ["src/lib.rs"], wholePackage.read path = halfPackage.read path) ∧
      yieldOf wholePackage = some (["src/lib.rs", "src/a.rs"], [⟨.here, ["a", "Kind"]⟩])) ∧
    (yieldOf (detourPackage kindText) =
        some (["src/lib.rs", "src/../out/../y.rs"], [⟨.here, ["y", "Kind"]⟩]) ∧
      (∀ path ∈ ["src/lib.rs", "src/../out/../y.rs"],
        (detourPackage "").read path = (detourPackage kindText).read path) ∧
      yieldOf (detourPackage "") = some (["src/lib.rs", "src/../out/../y.rs"], [])) := by
  decide +kernel

end DescriptionLookup
