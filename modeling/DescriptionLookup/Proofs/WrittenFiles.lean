import DescriptionLookup.Proofs.Inputs

/-!
# What a build leaves behind

A build writes two files and makes directories for them; everything else on the disk stays as it is.

* `keeps_prepared`: before the crate is loaded, only the support file is written;
* `run_failed`: a build that fails leaves every other file alone;
* `run_succeeded`: a build that succeeds leaves the two texts behind, and the next one finds them and
  writes nothing.
-/

namespace DescriptionLookup

namespace BuildOptions

open Compilation (runOn)
open FileSystem (Keeps)
open Location (IsFileName)

variable {options : BuildOptions} {environment : Environment} {fs : FileSystem}

/-! ### The two files -/

/-- The disk after a build. -/
def after (options : BuildOptions) (environment : Environment) (fs : FileSystem) : FileSystem :=
  (StateT.run (options.run FileSystem.disk environment) fs).2

/-- The support file in a directory. -/
def supportPath (directory : String) : String :=
  Location.join directory GeneratedUnit.support.fileName

/-- The file with the lookups in a directory. -/
def outputPath (directory : String) : String := Location.join directory "enum_descriptions.rs"

theorem isFileName_support : IsFileName GeneratedUnit.support.fileName := by
  constructor <;> decide

theorem isFileName_output : IsFileName "enum_descriptions.rs" := by
  constructor <;> decide

theorem isFileName_library : IsFileName "lib.rs" := by
  constructor <;> decide

/-- The two files are not the same one. -/
theorem locate_outputPath_ne (fs : FileSystem) (directory : String) {place : Place}
    (h : fs.locate (outputPath directory) = .ok place) :
    fs.locate (supportPath directory) ≠ .ok place :=
  FileSystem.locate_join_ne isFileName_output isFileName_support (by decide) h

/-! ### Before the crate is loaded -/

section Prepare

variable {directory : String} {made : FileSystem}

theorem runOn_prepare_of_missing {failure : Failure}
    (h : options.outDirectory environment = .error failure) :
    runOn (options.prepare FileSystem.disk environment) fs = (.error failure, fs) := by
  rw [prepare, h]
  rfl

theorem runOn_prepare_of_not_made {failure : Failure}
    (h : options.outDirectory environment = .ok directory)
    (hmade : runOn (FileSystem.disk.ensureDirectories directory) fs = (.error failure, made)) :
    runOn (options.prepare FileSystem.disk environment) fs = (.error failure, made) := by
  rw [prepare, h]
  exact Compilation.runOn_bind_error hmade

theorem runOn_prepare_of_write {written : Except Failure Bool} {prepared : FileSystem}
    (h : options.outDirectory environment = .ok directory)
    (hmade : runOn (FileSystem.disk.ensureDirectories directory) fs = (.ok (), made))
    (hwrite : runOn (FileSystem.disk.writeIfChanged (supportPath directory)
      GeneratedUnit.support.text) made = (written, prepared)) :
    runOn (options.prepare FileSystem.disk environment) fs =
      (written.map fun _ => (directory, supportPath directory), prepared) := by
  rw [prepare, h]
  refine (Compilation.runOn_bind_ok hmade).trans ?_
  cases written with
  | error failure => exact Compilation.runOn_bind_error hwrite
  | ok written => exact Compilation.runOn_bind_ok hwrite

/-- What is known once the output directory is prepared. -/
theorem exists_of_prepare {support : String} {prepared : FileSystem}
    (h : runOn (options.prepare FileSystem.disk environment) fs =
      (.ok (directory, support), prepared)) :
    options.outDirectory environment = .ok directory ∧ support = supportPath directory ∧
      prepared.read support = .ok GeneratedUnit.support.text.toUTF8 := by
  cases hdirectory : options.outDirectory environment with
  | error failure =>
    rw [runOn_prepare_of_missing hdirectory] at h
    cases h
  | ok found =>
    rcases hmade : runOn (FileSystem.disk.ensureDirectories found) fs with ⟨failure | _, made⟩
    · rw [runOn_prepare_of_not_made hdirectory hmade] at h
      cases h
    · rcases hwrite : runOn (FileSystem.disk.writeIfChanged (supportPath found)
        GeneratedUnit.support.text) made with ⟨failure | written, after⟩
      · rw [runOn_prepare_of_write hdirectory hmade hwrite] at h
        cases h
      · rw [runOn_prepare_of_write hdirectory hmade hwrite] at h
        cases h
        exact ⟨rfl, rfl, FileSystem.read_of_writeIfChanged hwrite⟩

end Prepare

/-- The support file is found at this place. -/
def IsSupportPlace (options : BuildOptions) (environment : Environment) (fs : FileSystem)
    (place : Place) : Prop :=
  ∃ directory, options.outDirectory environment = .ok directory ∧
    fs.locate (supportPath directory) = .ok place

/-- Before the crate is loaded, only the support file is written. -/
theorem keeps_prepared (options : BuildOptions) (environment : Environment) (fs : FileSystem) :
    Keeps (options.IsSupportPlace environment (options.prepared environment fs)) fs
      (options.prepared environment fs) := by
  unfold prepared
  cases hdirectory : options.outDirectory environment with
  | error failure =>
    rw [runOn_prepare_of_missing hdirectory]
    exact .refl _ fs
  | ok directory =>
    have hdirectories := FileSystem.keeps_ensureDirectories directory fs
    rcases hmade : runOn (FileSystem.disk.ensureDirectories directory) fs with ⟨failure | _, made⟩
    · rw [hmade] at hdirectories
      rw [runOn_prepare_of_not_made hdirectory hmade]
      exact hdirectories.mono fun _ h => h.elim
    · rw [hmade] at hdirectories
      have hsupport := made.keeps_writeIfChanged (supportPath directory) GeneratedUnit.support.text
      rcases hwrite : runOn (FileSystem.disk.writeIfChanged (supportPath directory)
        GeneratedUnit.support.text) made with ⟨written, prepared⟩
      rw [hwrite] at hsupport
      rw [runOn_prepare_of_write hdirectory hmade hwrite]
      exact (hdirectories.mono fun _ h => h.elim).trans
        (hsupport.mono fun _ hplace => ⟨directory, hdirectory, hsupport.locate hplace⟩)

/-! ### Builds that fail -/

theorem run_finish_of_generate_error {compilation : Compilation} {failure : Failure}
    (hgenerate : compilation.generate options.configuration = .error failure)
    (directory support : String) :
    StateT.run (options.finish FileSystem.disk directory support compilation) fs =
      (⟨options.inputDirectives (compilation.files.map SourceFile.path), .error failure⟩, fs) := by
  rw [finish, hgenerate]
  rfl

/-- A build that fails writes nothing once the crate is being loaded. -/
theorem after_eq_prepared {failure : Failure}
    (h : (options.outcome environment fs).report = .error failure) :
    options.after environment fs = options.prepared environment fs := by
  rcases hprepare : runOn (options.prepare FileSystem.disk environment) fs with
    ⟨failure | ⟨directory, support⟩, made⟩
  · rw [after, prepared, run_of_prepare_error hprepare, hprepare]
  · rw [after, prepared, hprepare]
    cases hcrate : options.crateOn environment made with
    | error failure => rw [run_of_crateOn_error hprepare hcrate]
    | ok compilation =>
      rw [outcome, run_eq_finish hprepare hcrate] at h
      rw [run_eq_finish hprepare hcrate]
      cases hgenerate : compilation.generate options.configuration with
      | error failure => rw [run_finish_of_generate_error hgenerate]
      | ok result =>
        rcases made.runOn_writeIfChanged (Location.join directory result.unit.fileName)
          result.unit.text with ⟨-, hwrite⟩ | ⟨-, ⟨_, -, hwrite⟩ | ⟨_, -, hwrite⟩⟩
        · rw [run_finish_of_write hgenerate directory support hwrite] at h
          cases h
        · rw [run_finish_of_write hgenerate directory support hwrite] at h
          cases h
        · rw [run_finish_of_write_error hgenerate directory support hwrite]

/-- A build that fails leaves every file alone but the support file; that of the lookups is neither
changed nor made. The support file is there, if it could be written. -/
theorem run_failed {failure : Failure}
    (h : (options.outcome environment fs).report = .error failure) :
    (∀ place content,
      ¬ options.IsSupportPlace environment (options.after environment fs) place →
        ((options.after environment fs).HasFile place content ↔ fs.HasFile place content)) ∧
      (∀ directory place, options.outDirectory environment = .ok directory →
        (options.after environment fs).locate (outputPath directory) = .ok place →
        ∀ content, (options.after environment fs).HasFile place content ↔
          fs.HasFile place content) ∧
      ∀ directory made written, options.outDirectory environment = .ok directory →
        runOn (FileSystem.disk.ensureDirectories directory) fs = (.ok (), made) →
        (runOn (FileSystem.disk.writeIfChanged (supportPath directory)
          GeneratedUnit.support.text) made).1 = .ok written →
        (options.after environment fs).read (supportPath directory) =
          .ok GeneratedUnit.support.text.toUTF8 := by
  have hkeeps := options.keeps_prepared environment fs
  rw [after_eq_prepared h]
  refine ⟨hkeeps.file, fun directory place hdirectory hlocate content => ?_, ?_⟩
  · refine hkeeps.file place content ?_
    rintro ⟨directory', hdirectory', hsupport⟩
    obtain rfl : directory = directory' := Except.ok.inj (hdirectory.symm.trans hdirectory')
    exact locate_outputPath_ne _ directory hlocate hsupport
  · intro directory made written hdirectory hmade hwritten
    rcases hwrite : runOn (FileSystem.disk.writeIfChanged (supportPath directory)
      GeneratedUnit.support.text) made with ⟨written', prepared⟩
    rw [hwrite] at hwritten
    subst hwritten
    rw [BuildOptions.prepared, runOn_prepare_of_write hdirectory hmade hwrite]
    exact FileSystem.read_of_writeIfChanged hwrite

/-! ### Builds that succeed -/

/-- How a build that succeeds goes: the output directory is prepared, the crate is loaded, the pass
yields its result, and the file with the lookups is written or holds its text already. -/
structure Succeeds (options : BuildOptions) (environment : Environment) (fs : FileSystem)
    (report : BuildReport) (directory : String) (compilation : Compilation) : Prop where
  outDirectory : options.outDirectory environment = .ok directory
  prepare : runOn (options.prepare FileSystem.disk environment) fs =
    (.ok (directory, supportPath directory), options.prepared environment fs)
  crate : options.crateOn environment (options.prepared environment fs) = .ok compilation
  generate : compilation.generate options.configuration = .ok report.result
  write : runOn (FileSystem.disk.writeIfChanged (outputPath directory) report.result.unit.text)
    (options.prepared environment fs) = (.ok report.written, options.after environment fs)
  printed : (options.outcome environment fs).printed =
    options.inputDirectives report.inputs ++ options.warningDirectives report.result.skipped
  inputs : report.inputs = compilation.files.map SourceFile.path
  supportPath : report.supportPath = BuildOptions.supportPath directory
  outputPath : report.outputPath = BuildOptions.outputPath directory

theorem exists_succeeds {report : BuildReport}
    (h : (options.outcome environment fs).report = .ok report) :
    ∃ directory compilation, options.Succeeds environment fs report directory compilation := by
  obtain ⟨directory, support, compilation, hprepare, hcrate⟩ := exists_crateOn h
  obtain ⟨hdirectory, rfl, -⟩ := exists_of_prepare hprepare
  have hrun := run_eq_finish hprepare hcrate
  have hreport := h
  rw [outcome, hrun] at hreport
  obtain ⟨hgenerate, -, -⟩ := exists_generate hreport
  have hname := fileName_of_generate hgenerate
  rcases hwrite : runOn (FileSystem.disk.writeIfChanged
    (Location.join directory report.result.unit.fileName) report.result.unit.text)
    (options.prepared environment fs) with ⟨failure | written, after⟩
  · rw [run_finish_of_write_error hgenerate directory _ hwrite] at hreport
    cases hreport
  · have hfinish := run_finish_of_write hgenerate directory (supportPath directory) hwrite
    rw [hfinish] at hreport hrun
    rw [hname] at hwrite
    have hafter : options.after environment fs = after := congrArg Prod.snd hrun
    have heq := Except.ok.inj hreport
    have hwritten : written = report.written := congrArg BuildReport.written heq
    have hinputs : compilation.files.map SourceFile.path = report.inputs :=
      congrArg BuildReport.inputs heq
    refine ⟨directory, compilation, hdirectory, hprepare, hcrate, hgenerate, ?_, ?_,
      hinputs.symm, (congrArg BuildReport.supportPath heq).symm, ?_⟩
    · rw [hafter, ← hwritten]
      exact hwrite
    · rw [← hinputs]
      exact congrArg (fun run => run.1.printed) hrun
    · rw [← congrArg BuildReport.outputPath heq]
      exact congrArg (Location.join directory) hname

/-- A file of a crate is there. -/
theorem isFile_of_mem_filesFrom {depth : Nat} {visit : Visit} {files : List SourceFile}
    (h : fs.filesFrom depth visit = .ok files) {file : SourceFile} (hfile : file ∈ files) :
    fs.isFile file.path = true := by
  induction depth generalizing visit files with
  | zero => cases h
  | succ depth ih =>
    obtain ⟨source, inner, hsource, hinner, rfl⟩ := FileSystem.filesFrom_eq_ok_iff.1 h
    rcases List.mem_cons.1 hfile with rfl | hfile
    · exact FileSystem.isFile_of_source hsource
    · obtain ⟨files, hfiles, hmem⟩ := List.mem_flatten.1 hfile
      obtain ⟨next, -, hrun⟩ := exists_of_mem_forall₂ hinner.flip hfiles
      exact ih hrun hmem

theorem isFile_of_crateOn {compilation : Compilation}
    (h : options.crateOn environment fs = .ok compilation) {file : SourceFile}
    (hfile : file ∈ compilation.files) : fs.isFile file.path = true := by
  unfold crateOn at h
  obtain ⟨root, -, h⟩ := Except.bind_eq_ok.1 h
  obtain ⟨name, -, h⟩ := Except.bind_eq_ok.1 h
  obtain ⟨files, hfiles, h⟩ := Except.bind_eq_ok.1 h
  obtain rfl := Except.ok.inj h
  rw [Compilation.files_addExterns] at hfile
  exact isFile_of_mem_filesFrom hfiles hfile

namespace Succeeds

variable {report : BuildReport} {directory : String} {compilation : Compilation}
  (h : options.Succeeds environment fs report directory compilation)

include h

theorem read_outputPath : (options.after environment fs).read (BuildOptions.outputPath directory) =
    .ok report.result.unit.text.toUTF8 :=
  FileSystem.read_of_writeIfChanged h.write

/-- The file with the lookups is written if it did not hold its text already. -/
theorem written_cases :
    (options.prepared environment fs).read (BuildOptions.outputPath directory) =
        .ok report.result.unit.text.toUTF8 ∧ report.written = false ∧
        options.after environment fs = options.prepared environment fs ∨
      (options.prepared environment fs).read (BuildOptions.outputPath directory) ≠
        .ok report.result.unit.text.toUTF8 ∧ report.written = true ∧
        (options.prepared environment fs).write (BuildOptions.outputPath directory)
          report.result.unit.text.toUTF8 = .ok (options.after environment fs) := by
  have hwrite := h.write
  rcases (options.prepared environment fs).runOn_writeIfChanged
    (BuildOptions.outputPath directory) report.result.unit.text with
    ⟨hread, hrun⟩ | ⟨hread, ⟨_, hdone, hrun⟩ | ⟨_, -, hrun⟩⟩
  · rw [hrun, Prod.mk.injEq, Except.ok.injEq] at hwrite
    exact .inl ⟨hread, hwrite.1.symm, hwrite.2.symm⟩
  · rw [hrun, Prod.mk.injEq, Except.ok.injEq] at hwrite
    exact .inr ⟨hread, hwrite.1.symm, hwrite.2 ▸ hdone⟩
  · rw [hrun] at hwrite
    cases hwrite

/-- Where the file with the lookups was to be found before the build already, it is compared with
what it held then. -/
theorem prepared_read_iff {place : Place}
    (hlocate : fs.locate (BuildOptions.outputPath directory) = .ok place) {content : ByteArray} :
    (options.prepared environment fs).read (BuildOptions.outputPath directory) = .ok content ↔
      fs.read (BuildOptions.outputPath directory) = .ok content := by
  have hkeeps := options.keeps_prepared environment fs
  refine hkeeps.read_iff hlocate ?_
  rintro ⟨directory', hdirectory', hsupport⟩
  obtain rfl : directory = directory' := Except.ok.inj (h.outDirectory.symm.trans hdirectory')
  exact locate_outputPath_ne _ directory (hkeeps.locate hlocate) hsupport

/-- What is found after the build but in another place than the file with the lookups was found
before it was written. -/
theorem read_after_iff {path : String}
    (hpath : (options.prepared environment fs).locate path ≠
      (options.prepared environment fs).locate (BuildOptions.outputPath directory))
    {content : ByteArray} :
    (options.after environment fs).read path = .ok content ↔
      (options.prepared environment fs).read path = .ok content := by
  rcases h.written_cases with ⟨-, -, hafter⟩ | ⟨-, -, hwrite⟩
  · rw [hafter]
  · exact FileSystem.read_of_write_of_ne hwrite hpath

theorem exists_locate_outputPath : ∃ place,
    (options.prepared environment fs).locate (BuildOptions.outputPath directory) = .ok place := by
  rcases h.written_cases with ⟨hread, -, -⟩ | ⟨-, -, hwrite⟩
  · obtain ⟨place, hlocate, -⟩ := FileSystem.read_eq_ok_iff.1 hread
    exact ⟨place, hlocate⟩
  · obtain ⟨place, hlocate, -⟩ := FileSystem.write_eq_ok_iff.1 hwrite
    exact ⟨place, hlocate⟩

theorem read_supportPath : (options.after environment fs).read (BuildOptions.supportPath directory) =
    .ok GeneratedUnit.support.text.toUTF8 := by
  obtain ⟨place, hlocate⟩ := h.exists_locate_outputPath
  refine (h.read_after_iff ?_).2 (exists_of_prepare h.prepare).2.2
  rw [hlocate]
  exact locate_outputPath_ne _ directory hlocate

/-- After the build the output directory is ready. -/
theorem prepare_after : runOn (options.prepare FileSystem.disk environment)
    (options.after environment fs) =
      (.ok (directory, BuildOptions.supportPath directory), options.after environment fs) := by
  obtain ⟨place, hlocate, -⟩ := FileSystem.read_eq_ok_iff.1 h.read_outputPath
  obtain ⟨around, haround, hentry, -⟩ :=
    FileSystem.exists_of_locate_join isFileName_output hlocate
  exact runOn_prepare_of_write h.outDirectory (FileSystem.runOn_ensureDirectories haround hentry)
    (FileSystem.runOn_writeIfChanged_of_read h.read_supportPath)

/-- The crate is loaded again as it was, if it does not ask for the file with the lookups. -/
theorem crateOn_after
    (hapart : ∀ root, options.rootOn environment (options.prepared environment fs) = .ok root →
      ∀ path, (options.prepared environment fs).Asks (.root root) path ∨ path ∈ report.inputs →
        (options.prepared environment fs).locate path ≠
          (options.prepared environment fs).locate (BuildOptions.outputPath directory)) :
    options.crateOn environment (options.after environment fs) = .ok compilation := by
  obtain ⟨root, hroot, -⟩ := Except.bind_eq_ok.1 h.crate
  refine crateOn_congr h.crate (fun file hfile => ?_) fun path hasks hmissed => ?_
  · obtain ⟨content, hread⟩ := FileSystem.isFile_iff_read.1 (isFile_of_crateOn h.crate hfile)
    have hinput : file.path ∈ report.inputs := h.inputs ▸ List.mem_map_of_mem hfile
    rw [hread, (h.read_after_iff (hapart root hroot file.path (.inr hinput))).2 hread]
  · have hne : (options.prepared environment fs).locate path ≠
        (options.prepared environment fs).locate (BuildOptions.outputPath directory) := by
      rcases hasks with ⟨-, package, -, rfl⟩ | ⟨root', hroot', hasks⟩
      · obtain ⟨place, hlocate⟩ := h.exists_locate_outputPath
        rw [hlocate]
        exact FileSystem.locate_join_ne isFileName_output isFileName_library (by decide) hlocate
      · exact hapart root' hroot' path (.inl hasks)
    rw [← Bool.not_eq_true] at hmissed ⊢
    intro hfile
    obtain ⟨content, hread⟩ := FileSystem.isFile_iff_read.1 hfile
    exact hmissed (FileSystem.isFile_iff_read.2 ⟨content, (h.read_after_iff hne).1 hread⟩)

/-- Then the next build yields the same, and writes nothing. -/
theorem run_after
    (hcrate : options.crateOn environment (options.after environment fs) = .ok compilation) :
    StateT.run (options.run FileSystem.disk environment) (options.after environment fs) =
      (⟨(options.outcome environment fs).printed, .ok { report with written := false }⟩,
        options.after environment fs) := by
  have hname := fileName_of_generate h.generate
  have hwrite := FileSystem.runOn_writeIfChanged_of_read h.read_outputPath
  rw [BuildOptions.outputPath, ← hname] at hwrite
  rw [run_eq_finish h.prepare_after hcrate,
    run_finish_of_write h.generate directory _ hwrite, h.printed, hname, h.inputs, h.supportPath,
    h.outputPath]
  rfl

end Succeeds

/-- A build that succeeds leaves the two texts behind, and writes the lookups if they are not there
when the output directory is. Unless the crate asks for the file with the lookups, the next build
yields the same, writes nothing and leaves everything as it is. -/
theorem run_succeeded {report : BuildReport}
    (h : (options.outcome environment fs).report = .ok report) :
    (options.after environment fs).read report.supportPath =
        .ok GeneratedUnit.support.text.toUTF8 ∧
      (options.after environment fs).read report.outputPath =
        .ok report.result.unit.text.toUTF8 ∧
      (report.written = true ↔ (options.prepared environment fs).read report.outputPath ≠
        .ok report.result.unit.text.toUTF8) ∧
      (∀ place, fs.locate report.outputPath = .ok place →
        (report.written = true ↔ fs.read report.outputPath ≠
          .ok report.result.unit.text.toUTF8)) ∧
      ((∀ root, options.rootOn environment (options.prepared environment fs) = .ok root →
          ∀ path, (options.prepared environment fs).Asks (.root root) path ∨
              path ∈ report.inputs →
            (options.prepared environment fs).locate path ≠
              (options.prepared environment fs).locate report.outputPath) →
        StateT.run (options.run FileSystem.disk environment) (options.after environment fs) =
          (⟨(options.outcome environment fs).printed, .ok { report with written := false }⟩,
            options.after environment fs)) := by
  obtain ⟨directory, compilation, hrun⟩ := exists_succeeds h
  have hwritten : report.written = true ↔
      (options.prepared environment fs).read report.outputPath ≠
        .ok report.result.unit.text.toUTF8 := by
    rw [hrun.outputPath]
    rcases hrun.written_cases with ⟨hread, hwritten, -⟩ | ⟨hread, hwritten, -⟩
    · rw [hwritten]
      exact ⟨nofun, fun hne => absurd hread hne⟩
    · exact ⟨fun _ => hread, fun _ => hwritten⟩
  refine ⟨?_, ?_, hwritten, fun place hlocate => ?_, fun hapart => ?_⟩
  · rw [hrun.supportPath]
    exact hrun.read_supportPath
  · rw [hrun.outputPath]
    exact hrun.read_outputPath
  · rw [hwritten]
    rw [hrun.outputPath] at hlocate ⊢
    exact not_congr (hrun.prepared_read_iff hlocate)
  · rw [hrun.outputPath] at hapart
    exact hrun.run_after (hrun.crateOn_after hapart)

end BuildOptions

/-! ### Some builds -/

/-- The package with a module that has a file, and one that has none: its lookups are written once. -/
theorem run_succeeded_of_gappyPackage :
    ∃ report, (plainOptions.outcome noVariables gappyPackage).report = .ok report ∧
      report.written = true ∧
      StateT.run (plainOptions.run FileSystem.disk noVariables)
          (plainOptions.after noVariables gappyPackage) =
        (⟨(plainOptions.outcome noVariables gappyPackage).printed,
            .ok { report with written := false }⟩, plainOptions.after noVariables gappyPackage) := by
  obtain ⟨hmet, hapart⟩ :
      (plainOptions.outcome noVariables gappyPackage).report.toOption.map
          (fun report => (report.outputPath, report.inputs, report.written)) =
        some ("out/enum_descriptions.rs", ["src/lib.rs", "src/a.rs"], true) ∧
      ∀ path ∈ ["src/a.rs", "src/gone.rs", "src/gone/mod.rs"] ++ ["src/lib.rs", "src/a.rs"],
        ((plainOptions.prepared noVariables gappyPackage).locate path).toOption ≠
          ((plainOptions.prepared noVariables gappyPackage).locate
            "out/enum_descriptions.rs").toOption := by
    decide +kernel
  obtain ⟨report, hreport, hparts⟩ := Option.map_eq_some_iff.1 hmet
  simp only [Prod.mk.injEq] at hparts
  obtain ⟨houtput, hinputs, hwritten⟩ := hparts
  have hrun : (plainOptions.outcome noVariables gappyPackage).report = .ok report :=
    Except.toOption_eq_some.1 hreport
  obtain ⟨-, -, -, -, hagain⟩ := BuildOptions.run_succeeded hrun
  refine ⟨report, hrun, hwritten, hagain fun root hroot path hpath heq => ?_⟩
  have hmem : path ∈ ["src/a.rs", "src/gone.rs", "src/gone/mod.rs"] ++ ["src/lib.rs", "src/a.rs"] := by
    rw [hinputs] at hpath
    refine List.mem_append.2 (hpath.imp_left fun hasks => ?_)
    exact asksFor_gappyPackage (.inr ⟨root, hroot, hasks⟩)
  rw [houtput] at heq
  exact hapart path hmem (congrArg Except.toOption heq)

/-- A package without modules whose lookups are there already. -/
def finishedPackage : FileSystem :=
  ((packageOf [("lib.rs", "")]).put ["work", "out"] .directory).put
    ["work", "out", "enum_descriptions.rs"]
    (.file (GeneratedUnit.descriptions "crate" []).text.toUTF8)

/-- A build of a crate with a marker that nothing in it names. -/
def unmarkedOptions : BuildOptions := { plainOptions with configuration := { marker := "x::Y" } }

/-- The build fails. The lookups from before stay, and the support file is written. -/
theorem run_failed_of_unknown_marker :
    ∃ failure, (unmarkedOptions.outcome noVariables finishedPackage).report = .error failure ∧
      (unmarkedOptions.after noVariables finishedPackage).HasFile
        ["work", "out", "enum_descriptions.rs"]
          (GeneratedUnit.descriptions "crate" []).text.toUTF8 ∧
      (unmarkedOptions.after noVariables finishedPackage).read
        "out/enum_description_support.rs" = .ok GeneratedUnit.support.text.toUTF8 := by
  obtain ⟨hreport, hlocate, hmade, hwritten, hpath⟩ :
      (unmarkedOptions.outcome noVariables finishedPackage).report.toOption.isNone = true ∧
      ((unmarkedOptions.after noVariables finishedPackage).locate
        (BuildOptions.outputPath "out")).toOption = some ["work", "out", "enum_descriptions.rs"] ∧
      (Compilation.runOn (FileSystem.disk.ensureDirectories "out")
        finishedPackage).1.toOption = some () ∧
      (Compilation.runOn (FileSystem.disk.writeIfChanged (BuildOptions.supportPath "out")
        GeneratedUnit.support.text) (Compilation.runOn (FileSystem.disk.ensureDirectories "out")
          finishedPackage).2).1.toOption = some true ∧
      BuildOptions.supportPath "out" = "out/enum_description_support.rs" := by
    decide +kernel
  cases hfailure : (unmarkedOptions.outcome noVariables finishedPackage).report with
  | ok report => rw [hfailure] at hreport; cases hreport
  | error failure =>
    obtain ⟨-, hlookups, hsupport⟩ := BuildOptions.run_failed hfailure
    refine ⟨failure, rfl, ?_, ?_⟩
    · exact (hlookups "out" _ rfl (Except.toOption_eq_some.1 hlocate) _).2 rfl
    · rw [← hpath]
      exact hsupport "out" _ true rfl (Prod.ext (Except.toOption_eq_some.1 hmade) rfl)
        (Except.toOption_eq_some.1 hwritten)

/-- A build whose output directory is named by way of a directory that is not there. -/
def detourOptions : BuildOptions := { plainOptions with outDirectory? := some "new/../out" }

/-- Before the build no lookups are to be found there, since a directory is missing on the way; but
once it is made, they are, and are not written. -/
theorem written_behind_detour :
    (∀ content, finishedPackage.read "new/../out/enum_descriptions.rs" ≠ .ok content) ∧
      ∃ report, (detourOptions.outcome noVariables finishedPackage).report = .ok report ∧
        report.outputPath = "new/../out/enum_descriptions.rs" ∧ report.written = false := by
  obtain ⟨hmissing, hlocate, hprepare, hunit⟩ :
      (finishedPackage.locate "new/../out/enum_descriptions.rs").toOption = none ∧
      ((detourOptions.prepared noVariables finishedPackage).locate
        "new/../out/enum_descriptions.rs").toOption =
          some ["work", "out", "enum_descriptions.rs"] ∧
      (Compilation.runOn (detourOptions.prepare FileSystem.disk noVariables)
        finishedPackage).1.toOption =
          some ("new/../out", "new/../out/enum_description_support.rs") ∧
      ((detourOptions.crateOn noVariables
        (detourOptions.prepared noVariables finishedPackage)).toOption.bind fun compilation =>
          (compilation.generate detourOptions.configuration).toOption.map fun result =>
            result.unit) = some (GeneratedUnit.descriptions "crate" []) := by
    decide +kernel
  have hentry : (detourOptions.prepared noVariables finishedPackage).HasFile
      ["work", "out", "enum_descriptions.rs"]
        (GeneratedUnit.descriptions "crate" []).text.toUTF8 := rfl
  refine ⟨fun content hread => ?_, ?_⟩
  · obtain ⟨place, hplace, -⟩ := FileSystem.read_eq_ok_iff.1 hread
    rw [hplace] at hmissing
    cases hmissing
  · obtain ⟨compilation, hcrate, hresult⟩ := Option.bind_eq_some_iff.1 hunit
    obtain ⟨result, hgenerate, hunit⟩ := Option.map_eq_some_iff.1 hresult
    have hpath : Location.join "new/../out" result.unit.fileName =
        "new/../out/enum_descriptions.rs" := by
      rw [hunit]
      decide +kernel
    have hread : (detourOptions.prepared noVariables finishedPackage).read
        (Location.join "new/../out" result.unit.fileName) = .ok result.unit.text.toUTF8 := by
      rw [hpath, hunit]
      exact FileSystem.read_eq_ok_iff.2 ⟨_, Except.toOption_eq_some.1 hlocate, hentry⟩
    have hstep : Compilation.runOn (detourOptions.prepare FileSystem.disk noVariables)
        finishedPackage = (.ok ("new/../out", "new/../out/enum_description_support.rs"),
          detourOptions.prepared noVariables finishedPackage) :=
      Prod.ext (Except.toOption_eq_some.1 hprepare) rfl
    have hrun := BuildOptions.run_eq_finish hstep (Except.toOption_eq_some.1 hcrate)
    rw [BuildOptions.run_finish_of_write (Except.toOption_eq_some.1 hgenerate) _ _
      (FileSystem.runOn_writeIfChanged_of_read hread)] at hrun
    rw [BuildOptions.outcome, hrun]
    exact ⟨_, rfl, hpath, rfl⟩

end DescriptionLookup
