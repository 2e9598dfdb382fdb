import DescriptionLookup.Proofs.Inputs

/-!
# What loading a crate asks

Loading asks a disk two kinds of questions: whether there is a file at a place, and what a file
holds. It asks them one by one, each because of the answers before, and no more once it fails. The
list of all of them is enough to load the crate: where they are answered alike, loading ends alike,
with the same files or with the same failure.

* `FileSystem.questions`: the questions of loading from a root file;
* `Compilation.load_recording`: these are what is asked of a disk that keeps a record;
* `FileSystem.filesFrom_eq_of_sameAnswer`: nothing else counts.
-/

namespace DescriptionLookup

/-- What loading asks of a disk. -/
inductive Question
  | isFile (path : String)
  | read (path : String)
deriving DecidableEq

/-- A question has the same answer on two file systems. -/
def Question.SameAnswer (fs fs' : FileSystem) : Question → Prop
  | .isFile path => fs'.isFile path = fs.isFile path
  | .read path => fs'.read path = fs.read path

instance (fs fs' : FileSystem) (question : Question) : Decidable (question.SameAnswer fs fs') :=
  match question with
  | .isFile path => inferInstanceAs (Decidable (fs'.isFile path = fs.isFile path))
  | .read path => inferInstanceAs (Decidable (fs'.read path = fs.read path))

namespace FileSystem

variable {fs fs' : FileSystem} {depth : Nat}

/-! ### Questions -/

/-- What is asked for the files of several modules, up to the first one that cannot be loaded;
`questions` are what is asked from a visit on, and `files` what comes of it. -/
def questionsFor (fs : FileSystem) (questions : Visit → List Question)
    (files : Visit → Except Failure (List SourceFile)) : List PendingModule → List Question
  | [] => []
  | pending :: rest =>
    (fs.askedFor pending.places).map .isFile ++
      match fs.follow? pending with
      | none => questionsFor fs questions files rest
      | some visit =>
        questions visit ++
          match files visit with
          | .error _ => []
          | .ok _ => questionsFor fs questions files rest

/-- What is asked for the files of a crate from one of them on, with files nested at most this
deeply. -/
def questionsFrom (fs : FileSystem) : Nat → Visit → List Question
  | 0, _ => []
  | depth + 1, visit =>
    .read visit.path ::
      match fs.source visit.path with
      | .error _ => []
      | .ok source =>
        fs.questionsFor (questionsFrom fs depth) (fs.filesFrom depth) (visit.pending source)

/-- What loading a crate from its root file asks. -/
def questions (fs : FileSystem) (root : String) : List Question :=
  fs.questionsFrom Compilation.maximalDepth (.root root)

/-! ### Nothing else counts -/

theorem follow?_eq_of_sameAnswer {pending : PendingModule}
    (h : ∀ place ∈ fs.askedFor pending.places, fs'.isFile place = fs.isFile place) :
    fs'.follow? pending = fs.follow? pending := by
  rw [follow?, follow?, find?_congr h]

/-- What is loaded for several modules depends only on what is asked, if that is so for each one. -/
theorem mapM_filesFrom_eq_of_sameAnswer
    (hone : ∀ visit,
      (∀ question ∈ fs.questionsFrom depth visit, question.SameAnswer fs fs') →
        fs'.filesFrom depth visit = fs.filesFrom depth visit)
    {list : List PendingModule}
    (h : ∀ question ∈ fs.questionsFor (fs.questionsFrom depth) (fs.filesFrom depth) list,
      question.SameAnswer fs fs') :
    (list.filterMap fs'.follow?).mapM (fs'.filesFrom depth) =
      (list.filterMap fs.follow?).mapM (fs.filesFrom depth) := by
  induction list with
  | nil => rfl
  | cons pending rest ih =>
    rw [questionsFor, List.forall_mem_append] at h
    obtain ⟨hplaces, hrest⟩ := h
    have hfollow : fs'.follow? pending = fs.follow? pending :=
      follow?_eq_of_sameAnswer fun place hplace => hplaces _ (List.mem_map_of_mem hplace)
    rw [List.filterMap_cons, List.filterMap_cons, hfollow]
    cases hvisit : fs.follow? pending with
    | none =>
      rw [hvisit] at hrest
      exact ih hrest
    | some visit =>
      rw [hvisit] at hrest
      dsimp only at hrest ⊢
      rw [List.forall_mem_append] at hrest
      rw [List.mapM_cons, List.mapM_cons, hone visit hrest.1]
      cases hfiles : fs.filesFrom depth visit with
      | error failure => rfl
      | ok files =>
        rw [hfiles] at hrest
        rw [ih hrest.2]

/-- Where all questions have the same answers, the same is loaded, or loading fails in the same
way. -/
theorem filesFrom_eq_of_sameAnswer {visit : Visit}
    (h : ∀ question ∈ fs.questionsFrom depth visit, question.SameAnswer fs fs') :
    fs'.filesFrom depth visit = fs.filesFrom depth visit := by
  induction depth generalizing visit with
  | zero => rfl
  | succ depth ih =>
    rw [questionsFrom, List.forall_mem_cons] at h
    obtain ⟨hread, hpending⟩ := h
    rw [filesFrom, filesFrom, source_congr hread]
    cases hsource : fs.source visit.path with
    | error failure => rfl
    | ok source =>
      rw [hsource] at hpending
      dsimp only
      rw [mapM_filesFrom_eq_of_sameAnswer (fun _ => ih) hpending]

/-! ### A disk that keeps a record -/

/-- A file system together with the questions so far. -/
abbrev Recorded := FileSystem × List Question

/-- An operation of the disk that is not recorded. -/
def unrecorded {α : Type} (operation : StateM FileSystem α) : StateM Recorded α := fun state =>
  let outcome := StateT.run operation state.1
  (outcome.1, outcome.2, state.2)

/-- The disk that answers as the file system does, and records the two kinds of questions. -/
def recording : Disk (StateM Recorded) where
  isFile path := fun state => (state.1.isFile path, state.1, state.2 ++ [.isFile path])
  isDirectory path := unrecorded (disk.isDirectory path)
  read path := fun state => (state.1.read path, state.1, state.2 ++ [.read path])
  write path text := unrecorded (disk.write path text)
  createDirectory path := unrecorded (disk.createDirectory path)
  realName? path := unrecorded (disk.realName? path)

end FileSystem

namespace Compilation

open FileSystem (Recorded recording)

section Programs

variable {σ α β : Type}

theorem run_bind_of_ok {program : ExceptT Failure (StateM σ) α}
    {next : α → ExceptT Failure (StateM σ) β} {a : α} {s s' : σ}
    (h : StateT.run program.run s = (.ok a, s')) :
    StateT.run (program >>= next).run s = StateT.run (next a).run s' := by
  rw [ExceptT.run_bind, StateT.run_bind, h]
  rfl

theorem run_bind_of_error {program : ExceptT Failure (StateM σ) α}
    {next : α → ExceptT Failure (StateM σ) β} {failure : Failure} {s s' : σ}
    (h : StateT.run program.run s = (.error failure, s')) :
    StateT.run (program >>= next).run s = (.error failure, s') := by
  rw [ExceptT.run_bind, StateT.run_bind, h]
  rfl

theorem run_liftM {program : StateM σ α} {a : α} {s s' : σ}
    (h : StateT.run program s = (a, s')) :
    StateT.run (liftM program : ExceptT Failure (StateM σ) α).run s = (.ok a, s') := by
  show (Except.ok (StateT.run program s).1, (StateT.run program s).2) = _
  rw [h]

end Programs

variable (fs : FileSystem) (asked : List Question)

theorem readText_recording (path : String) :
    StateT.run (recording.readText path).run (fs, asked) =
      (fs.text path, fs, asked ++ [.read path]) := by
  have hread : StateT.run (liftM (recording.read path) :
      ExceptT Failure (StateM Recorded) (Except DiskFault ByteArray)).run (fs, asked) =
        (.ok (fs.read path), fs, asked ++ [.read path]) := run_liftM rfl
  rw [Disk.readText, run_bind_of_ok hread, FileSystem.text]
  cases fs.read path with
  | error fault => rfl
  | ok content =>
    dsimp only
    cases String.fromUTF8? content <;> rfl

theorem findM?_recording (places : List String) :
    StateT.run (places.findM? fun place => recording.isFile place) (fs, asked) =
      (places.find? fs.isFile, fs, asked ++ (fs.askedFor places).map .isFile) := by
  induction places generalizing asked with
  | nil => rw [FileSystem.askedFor, List.map_nil, List.append_nil]; rfl
  | cons place rest ih =>
    have hstep : StateT.run ((place :: rest).findM? fun place => recording.isFile place)
          (fs, asked) =
        StateT.run (bif fs.isFile place then pure (some place)
          else rest.findM? fun place => recording.isFile place)
          (fs, asked ++ [.isFile place]) := rfl
    rw [hstep, List.find?_cons, FileSystem.askedFor]
    cases fs.isFile place with
    | true => rfl
    | false =>
      rw [cond_false, ih, if_neg Bool.false_ne_true, List.map_cons, List.append_assoc,
        List.singleton_append]

/-- Loads the file of a module, if there is one. -/
def recordPending (load : Visit → Compilation → ExceptT Failure (StateM Recorded) Compilation)
    (compilation : Compilation) (pending : PendingModule) :
    ExceptT Failure (StateM Recorded) Compilation := do
  match ← (pending.places.findM? fun place => recording.isFile place :
      StateM Recorded (Option String)) with
  | none => return compilation
  | some found => load (pending.visit found) compilation

/-- One module without a body: its places are asked for, and its file is loaded. -/
theorem run_recordPending
    (load : Visit → Compilation → ExceptT Failure (StateM Recorded) Compilation)
    (compilation : Compilation) (pending : PendingModule) :
    StateT.run (recordPending load compilation pending).run (fs, asked) =
      match fs.follow? pending with
      | none => (.ok compilation, fs, asked ++ (fs.askedFor pending.places).map .isFile)
      | some visit => StateT.run (load visit compilation).run
          (fs, asked ++ (fs.askedFor pending.places).map .isFile) := by
  have hfound : StateT.run (liftM (pending.places.findM? fun place => recording.isFile place :
      StateM Recorded (Option String)) :
        ExceptT Failure (StateM Recorded) (Option String)).run (fs, asked) =
      (.ok (pending.places.find? fs.isFile), fs,
        asked ++ (fs.askedFor pending.places).map .isFile) :=
    run_liftM (findM?_recording fs asked pending.places)
  rw [recordPending, run_bind_of_ok hfound, FileSystem.follow?]
  cases pending.places.find? fs.isFile <;> rfl

/-- What holds of the questions for one file holds of those for the files of several modules. -/
theorem foldlM_recordPending {depth : Nat}
    {load : Visit → Compilation → ExceptT Failure (StateM Recorded) Compilation}
    (hload : ∀ visit compilation asked, StateT.run (load visit compilation).run (fs, asked) =
      ((fs.filesFrom depth visit).map compilation.addFiles, fs,
        asked ++ fs.questionsFrom depth visit))
    (list : List PendingModule) (compilation : Compilation) :
    StateT.run (list.foldlM (recordPending load) compilation).run (fs, asked) =
      (((list.filterMap fs.follow?).mapM (fs.filesFrom depth)).map fun inner =>
          compilation.addFiles inner.flatten, fs,
        asked ++ fs.questionsFor (fs.questionsFrom depth) (fs.filesFrom depth) list) := by
  induction list generalizing compilation asked with
  | nil =>
    rw [FileSystem.questionsFor, List.append_nil]
    show (Except.ok compilation, fs, asked) = (Except.ok (compilation.addFiles []), fs, asked)
    rw [addFiles_nil]
  | cons pending rest ih =>
    have hone := run_recordPending fs asked load compilation pending
    rw [List.foldlM_cons, List.filterMap_cons, FileSystem.questionsFor, ← List.append_assoc]
    cases hfollow : fs.follow? pending with
    | none =>
      rw [hfollow] at hone
      rw [run_bind_of_ok hone, ih]
    | some visit =>
      rw [hfollow] at hone
      replace hone := hone.trans (hload visit compilation _)
      dsimp only
      rw [List.mapM_cons, ← List.append_assoc]
      cases hfiles : fs.filesFrom depth visit with
      | error failure =>
        rw [hfiles] at hone
        rw [run_bind_of_error hone, List.append_nil]
        rfl
      | ok files =>
        rw [hfiles] at hone
        rw [run_bind_of_ok hone, ih]
        cases (rest.filterMap fs.follow?).mapM (fs.filesFrom depth) with
        | error failure => rfl
        | ok inner =>
          show (Except.ok _, _) = (Except.ok (compilation.addFiles (files ++ inner.flatten)), _)
          rw [addFiles_append]

theorem loadFile_recording (depth : Nat) (visit : Visit) (compilation : Compilation) :
    StateT.run (loadFile recording depth visit.path visit.module visit.directory visit.gates
        compilation).run (fs, asked) =
      ((fs.filesFrom depth visit).map compilation.addFiles, fs,
        asked ++ fs.questionsFrom depth visit) := by
  induction depth generalizing visit compilation asked with
  | zero =>
    rw [FileSystem.questionsFrom, List.append_nil]
    rfl
  | succ depth ih =>
    rw [loadFile, FileSystem.filesFrom, FileSystem.questionsFrom, FileSystem.source,
      ← List.singleton_append, ← List.append_assoc]
    have htext := readText_recording fs asked visit.path
    cases hread : fs.text visit.path with
    | error failure =>
      rw [hread] at htext
      rw [run_bind_of_error htext, List.append_nil]
      rfl
    | ok text =>
      rw [hread] at htext
      rw [run_bind_of_ok htext]
      dsimp only
      cases Grammar.parseFile text with
      | error fault =>
        show _ = (_, fs, (asked ++ [.read visit.path]) ++ [])
        rw [List.append_nil]
        rfl
      | ok source =>
        have hfold := foldlM_recordPending fs (asked ++ [.read visit.path])
          (fun visit compilation asked => ih asked visit compilation) (visit.pending source)
          (compilation.addFile (visit.file source))
        refine Eq.trans hfold ?_
        show _ = (Except.map _ (Except.map _ _), _)
        cases ((visit.pending source).filterMap fs.follow?).mapM (fs.filesFrom depth) with
        | error failure => rfl
        | ok inner =>
          show (Except.ok _, _) = (Except.ok _, _)
          rw [addFiles_cons]
          rfl

/-- Loading a crate asks a disk that keeps a record these questions, and changes nothing. -/
theorem load_recording (crateName root : String) :
    StateT.run (load recording crateName root).run (fs, []) =
      ((fs.filesFrom maximalDepth (.root root)).map (empty crateName).addFiles, fs,
        fs.questions root) :=
  loadFile_recording fs [] maximalDepth (.root root) (.empty crateName)

end Compilation

end DescriptionLookup
