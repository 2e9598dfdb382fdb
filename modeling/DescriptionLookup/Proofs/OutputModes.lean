import DescriptionLookup.Build.CommandLine
import DescriptionLookup.Proofs.Questions
import DescriptionLookup.Proofs.WrittenFiles

/-!
# Lookups printed and lookups written

The command line prints the lookups, or it has a build write them to a directory. The build takes
another way: it has settings of its own, it prepares the directory before it loads the crate, and it
fails in its own places. As long as the directory can be used, and what is made in it changes no
answer to what loading the crate asks, both ways agree.

* `Arguments.ofArguments_outDirectory`: a directory may be given in front of any arguments;
* `CommandLine.runPrint_disk`, `CommandLine.runBuild_disk`: what each of the two ways comes to, in
  terms of the crate that is loaded;
* `CommandLine.run_outDirectory`: the two runs end alike, and the file holds what is printed.
-/

namespace DescriptionLookup

/-! ### Arguments with a directory -/

namespace Arguments

/-- The arguments with a directory for the generated files. -/
def withDirectory (a : Arguments) (directory : String) : Arguments :=
  { a with outDirectory? := some directory }

variable {a b : Arguments} {args : List String} (directory : String)

theorem setFlag?_withDirectory {flag value : String} (h : a.setFlag? flag value = some b)
    (hnone : b.outDirectory? = none) :
    a.outDirectory? = none ∧
      (a.withDirectory directory).setFlag? flag value = some (b.withDirectory directory) := by
  unfold setFlag? at h ⊢
  split at h <;> simp_all [withDirectory] <;> grind

theorem setRoot?_withDirectory {root : String} (h : a.setRoot? root = some b)
    (hnone : b.outDirectory? = none) :
    a.outDirectory? = none ∧
      (a.withDirectory directory).setRoot? root = some (b.withDirectory directory) := by
  unfold setRoot? at h ⊢
  split_ifs at h with hroot
  cases h
  exact ⟨hnone, if_neg hroot⟩

theorem complete_withDirectory (h : a.complete = .run b) (hnone : b.outDirectory? = none)
    (hsupport : b.support = false) :
    a.outDirectory? = none ∧
      (a.withDirectory directory).complete = .run (b.withDirectory directory) := by
  unfold complete at h ⊢
  split_ifs at h with hcomplete
  cases h
  refine ⟨hnone, if_neg ?_⟩
  simp_all [withDirectory]

theorem readPlain_withDirectory (h : a.readPlain args = .run b) (hnone : b.outDirectory? = none)
    (hsupport : b.support = false) :
    a.outDirectory? = none ∧
      (a.withDirectory directory).readPlain args = .run (b.withDirectory directory) := by
  induction args generalizing a with
  | nil => exact complete_withDirectory directory h hnone hsupport
  | cons arg rest ih =>
    rw [readPlain] at h ⊢
    cases hroot : a.setRoot? arg with
    | none => rw [hroot] at h; cases h
    | some next =>
      rw [hroot] at h
      obtain ⟨hnext, hrest⟩ := ih h
      obtain ⟨ha, hset⟩ := setRoot?_withDirectory directory hroot hnext
      rw [hset]
      exact ⟨ha, hrest⟩

theorem readShort_ne_run (arg : String) (b : Arguments) : readShort arg ≠ .run b := by
  unfold readShort
  split <;> exact nofun

/-- Arguments set the same whether there is a directory already or not, if they give none. -/
theorem read_withDirectory (h : a.read args = .run b) (hnone : b.outDirectory? = none)
    (hsupport : b.support = false) :
    a.outDirectory? = none ∧
      (a.withDirectory directory).read args = .run (b.withDirectory directory) := by
  induction a, args using read.induct
  case case1 a =>
    rw [read] at h ⊢
    exact complete_withDirectory directory h hnone hsupport
  case case2 a rest =>
    rw [read, if_pos rfl] at h ⊢
    exact readPlain_withDirectory directory h hnone hsupport
  case case6 a arg rest hplain hflag hsplit hgiven ih =>
    simp only [read, hplain, hflag, hsplit, hgiven, if_true, if_false] at h
    obtain ⟨ha, hread⟩ := ih h
    have hgiven' : ¬ (a.withDirectory directory).support = true := hgiven
    simp only [read, hplain, hflag, hsplit, hgiven', if_true, if_false]
    exact ⟨ha, hread⟩
  case case7 a arg rest hplain hflag flag value hsplit next hnext ih =>
    simp only [read, hplain, hflag, hsplit, hnext, if_true, if_false] at h
    obtain ⟨hrest, hread⟩ := ih h
    obtain ⟨ha, hset⟩ := setFlag?_withDirectory directory hnext hrest
    simp only [read, hplain, hflag, hsplit, hset, if_true, if_false]
    exact ⟨ha, hread⟩
  case case11 a arg hplain hflag flag _ _ _ hsplit value rest hvalue next hnext ih =>
    simp only [read, hplain, hflag, hsplit, hvalue, hnext, if_true, if_false] at h
    obtain ⟨hrest, hread⟩ := ih h
    obtain ⟨ha, hset⟩ := setFlag?_withDirectory directory hnext hrest
    simp only [read, hplain, hflag, hsplit, hvalue, hset, if_true, if_false]
    exact ⟨ha, hread⟩
  case case13 a arg rest hplain hflag hshort =>
    simp only [read, hplain, hflag, hshort, if_true, if_false] at h
    exact absurd h (readShort_ne_run arg b)
  case case14 a arg rest hplain hflag hshort next hnext ih =>
    simp only [read, hplain, hflag, hshort, hnext, if_false, Bool.false_eq_true] at h
    obtain ⟨hrest, hread⟩ := ih h
    obtain ⟨ha, hset⟩ := setRoot?_withDirectory directory hnext hrest
    simp only [read, hplain, hflag, hshort, hset, if_false, Bool.false_eq_true]
    exact ⟨ha, hread⟩
  all_goals simp_all [read]

/-- A directory may be given in front. -/
theorem ofArguments_outDirectory (h : Request.ofArguments args = .run b)
    (hnone : b.outDirectory? = none) (hsupport : b.support = false) (hdirectory : directory ≠ "") :
    Request.ofArguments (("--out-dir=" ++ directory) :: args) =
      .run (b.withDirectory directory) := by
  have hsplit : splitFlag ("--out-dir=" ++ directory) = ("out-dir", some directory) := by
    simp [splitFlag, String.toList_append]
  have hflag : ("--out-dir=" ++ directory).toList.take 2 = ['-', '-'] := by
    simp [String.toList_append]
  have hplain : "--out-dir=" ++ directory ≠ "--" := by
    intro heq
    have hlength : 10 + directory.length = 2 :=
      (String.length_append ..).symm.trans (congrArg String.length heq)
    omega
  have hset : setFlag? {} "out-dir" directory = some (withDirectory {} directory) := by
    simp [setFlag?, withDirectory, hdirectory]
  unfold Request.ofArguments at h ⊢
  simp only [read, hplain, hflag, hsplit, hset, if_true, if_false]
  exact (read_withDirectory directory h hnone hsupport).2
end Arguments
/-! ### The two ways -/

namespace BuildOptions

/-- The settings of a build that give the directory of the generated files alone. -/
def into (directory : String) : BuildOptions := { outDirectory? := some directory }

end BuildOptions

namespace CommandLine

open Compilation (runOn)
open BuildOptions (run_bind_of_eq)

variable {fs : FileSystem}

/-- The name of the crate on a file system. -/
def nameOn (a : Arguments) (root : String) (fs : FileSystem) : Except Failure String :=
  match a.crateName? with
  | some name => .ok name
  | none =>
    match (Location.parent? root).bind Location.parent? with
    | none => .error (.noCrateName root)
    | some package =>
      match fs.realName? (if package.isEmpty then "." else package) with
      | some name => .ok name
      | none => .error (.noCrateName root)

theorem runOn_crateName (a : Arguments) (root : String) (fs : FileSystem) :
    runOn (crateName FileSystem.disk a root) fs = (nameOn a root fs, fs) := by
  unfold crateName nameOn
  cases a.crateName? with
  | some name => rfl
  | none =>
    dsimp only
    cases (Location.parent? root).bind Location.parent? with
    | none => rfl
    | some package =>
      have hname : runOn (liftM (FileSystem.disk.realName?
          (if package.isEmpty then "." else package)) :
            ExceptT Failure (StateM FileSystem) (Option String)) fs =
          (.ok (fs.realName? (if package.isEmpty then "." else package)), fs) :=
        Compilation.runOn_liftM rfl
      refine (Compilation.runOn_bind_ok hname).trans ?_
      dsimp only
      cases fs.realName? (if package.isEmpty then "." else package) <;> rfl

/-- What is printed and reported of a pass over a crate, if the crate can be loaded at all. -/
def printedOutcome (configuration : Configuration) (crate : Except Failure Compilation) :
    RunOutcome :=
  match crate >>= fun compilation => compilation.generate configuration with
  | .error failure => failed failure
  | .ok result => ⟨0, result.unit.text, warnings result.skipped⟩

/-- The crate that either way loads. -/
theorem crateOn_buildOptions (a : Arguments) (root name directory : String) (fs : FileSystem) :
    (buildOptions a root name directory).crateOn noVariables fs =
      (fs.filesFrom Compilation.maximalDepth (.root root)).map fun files =>
        ((Compilation.empty name).addFiles files).addExterns
          ((markerCrate, markerCrate) :: a.externs.map externOf) := by
  unfold BuildOptions.crateOn
  show (fs.filesFrom Compilation.maximalDepth (.root root) >>= _) = _
  cases fs.filesFrom Compilation.maximalDepth (.root root) <;> rfl

/-- Printing the lookups is a pass over the crate that a build would load, and changes nothing. -/
theorem runPrint_disk (a : Arguments) (root name directory : String) (fs : FileSystem) :
    StateT.run (runPrint FileSystem.disk a root name) fs =
      (printedOutcome (configuration a)
        ((buildOptions a root name directory).crateOn noVariables fs), fs) := by
  have hload : runOn (Compilation.load FileSystem.disk name root) fs =
      ((fs.filesFrom Compilation.maximalDepth (.root root)).map
        (Compilation.empty name).addFiles, fs) :=
    Compilation.loadWithin_disk fs Compilation.maximalDepth name root
  rw [runPrint, run_bind_of_eq hload, crateOn_buildOptions]
  cases fs.filesFrom Compilation.maximalDepth (.root root) with
  | error failure => rfl
  | ok files =>
    unfold printedOutcome
    dsimp only [Except.map, bind, Except.bind]
    cases Compilation.generate _ (configuration a) <;> rfl

/-- A run that writes the lookups into a directory ends like one that prints them: it fails in the
same way, or the file holds what is printed, with the same warnings. -/
structure Agrees (directory : String) (printing : RunOutcome) (writing : RunOutcome × FileSystem) :
    Prop where
  code : writing.1.code = printing.code
  reported : writing.1.reported = printing.reported
  failure : printing.code ≠ 0 → writing.1 = printing
  written : printing.code = 0 →
    writing.2.read (BuildOptions.outputPath directory) = .ok printing.printed.toUTF8
  printed : printing.code = 0 → writing.1.printed =
    textOfLines [BuildOptions.supportPath directory, BuildOptions.outputPath directory]

theorem Agrees.of_code_ne (directory : String) {outcome : RunOutcome} (h : outcome.code ≠ 0)
    (fs : FileSystem) : Agrees directory outcome (outcome, fs) where
  code := rfl
  reported := rfl
  failure _ := rfl
  written hcode := absurd hcode h
  printed hcode := absurd hcode h

theorem Agrees.of_failed (directory : String) (cause : Failure) (fs : FileSystem) :
    Agrees directory (failed cause) (failed cause, fs) :=
  .of_code_ne directory Nat.one_ne_zero fs

theorem runBuild_of_run {options : BuildOptions} {outcome : BuildOutcome} {after : FileSystem}
    (h : StateT.run (options.run FileSystem.disk noVariables) fs = (outcome, after)) :
    StateT.run (runBuild FileSystem.disk options) fs =
      (match outcome.report with
        | .error failure => failed failure
        | .ok report => ⟨0, textOfLines [report.supportPath, report.outputPath],
            warnings report.result.skipped⟩, after) := by
  refine (run_bind_of_eq h _).trans ?_
  cases outcome.report <;> rfl

/-- A build that can use its directory makes of the crate that it loads what is printed of it. -/
theorem runBuild_disk {options : BuildOptions} {directory : String} {prepared : FileSystem}
    (hprepare : runOn (options.prepare FileSystem.disk noVariables) fs =
      (.ok (directory, BuildOptions.supportPath directory), prepared))
    (hwrite : ∀ content, ∃ written,
      prepared.write (BuildOptions.outputPath directory) content = .ok written) :
    Agrees directory
      (printedOutcome options.configuration (options.crateOn noVariables prepared))
      (StateT.run (runBuild FileSystem.disk options) fs) := by
  cases hcrate : options.crateOn noVariables prepared with
  | error failure =>
    rw [runBuild_of_run (BuildOptions.run_of_crateOn_error hprepare hcrate)]
    exact .of_failed directory failure prepared
  | ok compilation =>
    have hrun := BuildOptions.run_eq_finish hprepare hcrate
    unfold printedOutcome
    dsimp only [bind, Except.bind]
    cases hgenerate : compilation.generate options.configuration with
    | error failure =>
      rw [BuildOptions.run_finish_of_generate_error hgenerate] at hrun
      rw [runBuild_of_run hrun]
      exact .of_failed directory failure prepared
    | ok result =>
      have hname := BuildOptions.fileName_of_generate hgenerate
      obtain ⟨written, hwritten⟩ :=
        BuildOptions.writeIfChanged_of_write (hwrite result.unit.text.toUTF8)
      rcases hafter : runOn (FileSystem.disk.writeIfChanged (BuildOptions.outputPath directory)
        result.unit.text) prepared with ⟨outcome, after⟩
      rw [hafter] at hwritten
      subst hwritten
      have hread := FileSystem.read_of_writeIfChanged hafter
      rw [BuildOptions.outputPath, ← hname] at hafter
      rw [BuildOptions.run_finish_of_write hgenerate directory _ hafter] at hrun
      rw [runBuild_of_run hrun]
      exact {
        code := rfl
        reported := rfl
        failure := fun hcode => absurd rfl hcode
        written := fun _ => hread
        printed := fun _ => by rw [hname]; rfl }

/-! ### The two runs -/

/-- Once its arguments are read, a run finds the name of the crate and goes one of the two ways. -/
theorem run_of_arguments {args : List String} {a : Arguments} {root : String}
    (hargs : Request.ofArguments args = .run a) (hroot : a.root? = some root) (fs : FileSystem) :
    StateT.run (run FileSystem.disk args) fs =
      match nameOn a root fs with
      | .error failure => (failed failure, fs)
      | .ok name =>
        match a.outDirectory? with
        | some directory =>
          StateT.run (runBuild FileSystem.disk (buildOptions a root name directory)) fs
        | none =>
          if a.support then (⟨0, GeneratedUnit.support.text, ""⟩, fs)
          else StateT.run (runPrint FileSystem.disk a root name) fs := by
  unfold run
  rw [hargs]
  dsimp only
  rw [hroot]
  refine (run_bind_of_eq (runOn_crateName a root fs) _).trans ?_
  cases nameOn a root fs with
  | error failure => rfl
  | ok name =>
    dsimp only
    cases a.outDirectory? with
    | some directory => rfl
    | none => cases a.support <;> rfl

/-- A run with an output directory ends like the run without it. Both fail alike, or what one prints
is what the other writes to its file, with the same warnings. The directory has to be usable, and
what is made in it must not change an answer to what loading the crate asks. -/
theorem run_outDirectory {args args' : List String} {a : Arguments} {directory : String}
    (hargs : Request.ofArguments args = .run a) (hnone : a.outDirectory? = none)
    (hsupport : a.support = false)
    (hargs' : Request.ofArguments args' = .run (a.withDirectory directory))
    (husable : (BuildOptions.into directory).HasUsableOutput noVariables fs)
    (hsame : ∀ root, a.root? = some root → ∀ question ∈ fs.questions root,
      question.SameAnswer fs ((BuildOptions.into directory).prepared noVariables fs)) :
    Agrees directory (StateT.run (run FileSystem.disk args) fs).1
      (StateT.run (run FileSystem.disk args') fs) := by
  cases hroot : a.root? with
  | none =>
    have hroot' : (a.withDirectory directory).root? = none := hroot
    unfold run
    rw [hargs, hargs']
    dsimp only
    rw [hroot, hroot']
    exact .of_code_ne directory (Nat.succ_ne_zero 1) fs
  | some root =>
    have hname : nameOn (a.withDirectory directory) root fs = nameOn a root fs := rfl
    rw [run_of_arguments hargs hroot, run_of_arguments hargs' hroot, hname]
    cases nameOn a root fs with
    | error failure => exact .of_failed directory failure fs
    | ok name =>
      dsimp only
      rw [hnone, hsupport]
      show Agrees directory (StateT.run (runPrint FileSystem.disk a root name) fs).1
        (StateT.run (runBuild FileSystem.disk (buildOptions a root name directory)) fs)
      obtain ⟨found, support, hfirst, hwrite⟩ := husable
      have hprepare : runOn ((buildOptions a root name directory).prepare FileSystem.disk
          noVariables) fs =
            (.ok (found, support), (BuildOptions.into directory).prepared noVariables fs) :=
        Prod.ext hfirst rfl
      obtain ⟨hdirectory, rfl, -⟩ := BuildOptions.exists_of_prepare hprepare
      obtain rfl : directory = found := Except.ok.inj hdirectory
      have hcrate : (buildOptions a root name directory).crateOn noVariables
            ((BuildOptions.into directory).prepared noVariables fs) =
          (buildOptions a root name directory).crateOn noVariables fs := by
        rw [crateOn_buildOptions, crateOn_buildOptions,
          FileSystem.filesFrom_eq_of_sameAnswer (hsame root hroot)]
      have hagrees := runBuild_disk hprepare hwrite
      rw [hcrate] at hagrees
      rw [runPrint_disk a root name directory]
      exact hagrees

end CommandLine

/-! ### One package, both ways -/

/-- A package with a module that has no file, a marked enum, and one that cannot be named. -/
def warnedPackage : FileSystem :=
  packageOf [("lib.rs",
    "mod b;mod a\x7b#[derive(m::D)]enum K\x7bA\x7d\x7d#[derive(m::D)]enum L\x7bA\x7d")]

/-- The arguments for it. -/
def warnedArguments : List String :=
  ["src/lib.rs", "--crate-name", "demo", "--extern", "m", "--marker", "m::D"]

/-- What these arguments set. -/
def warnedSettings : Arguments where
  root? := some "src/lib.rs"
  crateName? := some "demo"
  externs := ["m"]
  marker? := some "m::D"

/-- The lookups are printed or written, with a warning about the enum that cannot be named. -/
theorem run_outDirectory_of_warnedPackage :
    ∃ printing : RunOutcome,
      (StateT.run (CommandLine.run FileSystem.disk warnedArguments) warnedPackage).1 = printing ∧
      printing.code = 0 ∧
      printing.reported = CommandLine.warnings [⟨⟨.here, ["a", "K"]⟩, .notNameable⟩] ∧
      CommandLine.Agrees "out" printing
        (StateT.run (CommandLine.run FileSystem.disk ("--out-dir=out" :: warnedArguments))
          warnedPackage) := by
  obtain ⟨hsame, hprepare, hplace, hfree, hcode, hreported⟩ :
      (∀ question ∈ warnedPackage.questions "src/lib.rs", question.SameAnswer warnedPackage
        ((BuildOptions.into "out").prepared noVariables warnedPackage)) ∧
      (Compilation.runOn ((BuildOptions.into "out").prepare FileSystem.disk noVariables)
        warnedPackage).1.toOption = some ("out", "out/enum_description_support.rs") ∧
      (((BuildOptions.into "out").prepared noVariables warnedPackage).locate
        (Location.join "out" "enum_descriptions.rs")).toOption ≠ none ∧
      ((BuildOptions.into "out").prepared noVariables warnedPackage).isDirectory
        (Location.join "out" "enum_descriptions.rs") = false ∧
      (StateT.run (CommandLine.run FileSystem.disk warnedArguments) warnedPackage).1.code = 0 ∧
      (StateT.run (CommandLine.run FileSystem.disk warnedArguments) warnedPackage).1.reported =
        CommandLine.warnings [⟨⟨.here, ["a", "K"]⟩, .notNameable⟩] := by
    decide +kernel
  have hargs : Request.ofArguments warnedArguments = .run warnedSettings := rfl
  have hargs' := Arguments.ofArguments_outDirectory "out" hargs rfl rfl (by decide)
  refine ⟨_, rfl, hcode, hreported, CommandLine.run_outDirectory hargs rfl rfl hargs'
    (BuildOptions.hasUsableOutput "out" "out/enum_description_support.rs" hprepare hplace hfree) ?_⟩
  intro root hroot
  cases hroot
  exact hsame

end DescriptionLookup
