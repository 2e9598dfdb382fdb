import DescriptionLookup.Proofs.Directories
import DescriptionLookup.Proofs.Selections
import DescriptionLookup.Proofs.Visits

/-!
# What changes on a disk

Directories are added and never removed, and a file changes only when it is written. So a path that
leads somewhere goes on leading there, whatever is written, and files elsewhere stay as they are.

* `FileSystem.Keeps`: nothing has changed but the files at some places, and directories that were
  added; `Keeps.locate`, `Keeps.read_iff`: what that means for paths;
* `keeps_write`, `keeps_createDirectory`, `keeps_ensureDirectories`: the operations that change
  something;
* `runOn_writeIfChanged`: the cases of a conditional write;
* `exists_of_locate_join`: a file that is found in a directory is found at its own place;
* `runOn_ensureDirectories_of_isDirectory`: a directory that is there is not made again.
-/

namespace DescriptionLookup.FileSystem

open Location
open Compilation (runOn)

variable {fs fs' fs'' : FileSystem} {path : String} {place : Place} {content : ByteArray}

/-! ### Entries and paths -/

theorem ne_nil_of_not_directory (h : fs.entry? place ≠ some .directory) : place ≠ [] := by
  rintro rfl
  exact h rfl

theorem get_put (hplace : place ≠ []) (entry : Entry) (other : Place) :
    FileSystem.entry? (fs.put place entry) other =
      if other = place then some entry else fs.entry? other := by
  cases other with
  | nil => rw [if_neg (Ne.symm hplace)]; rfl
  | cons name rest => simp [FileSystem.entry?, put, Bindings.get?_insert]

/-- The file at a place, and its content. -/
def HasFile (fs : FileSystem) (place : Place) (content : ByteArray) : Prop :=
  fs.entry? place = some (.file content)

/-- The path can be looked for at all: it is neither empty nor too long, and no character in it is
forbidden. -/
structure IsOpenable (path : String) : Prop where
  zero : '\x00' ∉ path.toList
  notEmpty : path ≠ ""
  size : path.utf8ByteSize ≤ maximalPath

theorem IsOpenable.of_append {rest : String} (h : IsOpenable (path ++ rest)) (hne : path ≠ "") :
    IsOpenable path where
  zero hmem := h.zero (by rw [String.toList_append]; exact List.mem_append_left _ hmem)
  notEmpty := hne
  size := by
    have hsize := h.size
    rw [String.utf8ByteSize_append] at hsize
    omega

/-- A path leads to a place piece by piece. -/
theorem locate_eq_ok_iff : fs.locate path = .ok place ↔
    IsOpenable path ∧ fs.walk (pieces path.toList) (fs.origin path) = .ok place := by
  unfold locate
  constructor
  · intro h
    split at h
    · cases h
    next hzero =>
    split at h
    · cases h
    next hempty =>
    split at h
    · cases h
    next hsize =>
    exact ⟨⟨by simpa using hzero, by simpa using hempty, Nat.le_of_not_lt hsize⟩, h⟩
  · rintro ⟨hopen, h⟩
    rw [if_neg (by simpa using hopen.zero), if_neg (by simpa using hopen.notEmpty),
      if_neg (Nat.not_lt.2 hopen.size)]
    exact h

theorem read_eq_ok_iff : fs.read path = .ok content ↔
    ∃ place, fs.locate path = .ok place ∧ fs.HasFile place content := by
  unfold read find HasFile
  cases hlocate : fs.locate path with
  | error fault => simp [bind, Except.bind]
  | ok place =>
    simp only [bind, Except.bind, Except.ok.injEq, exists_eq_left']
    cases hentry : fs.entry? place with
    | none => simp [throw, throwThe, MonadExceptOf.throw]
    | some entry => cases entry <;> simp [throw, throwThe, MonadExceptOf.throw, pure, Except.pure]

theorem write_eq_ok_iff : fs.write path content = .ok fs' ↔
    ∃ place, fs.locate path = .ok place ∧ fs.entry? place ≠ some .directory ∧
      fs' = fs.put place (.file content) := by
  unfold write
  cases hlocate : fs.locate path with
  | error fault => simp [bind, Except.bind]
  | ok place =>
    simp only [bind, Except.bind, Except.ok.injEq, exists_eq_left']
    cases hentry : fs.entry? place with
    | none => simp [pure, Except.pure, eq_comm]
    | some entry =>
      cases entry <;> simp [throw, throwThe, MonadExceptOf.throw, pure, Except.pure, eq_comm]

theorem createDirectory_eq_ok_iff : fs.createDirectory path = .ok fs' ↔
    ∃ place, fs.locate (withoutSlashes path) = .ok place ∧ fs.entry? place = none ∧
      fs' = fs.put place .directory := by
  unfold createDirectory
  cases hlocate : fs.locate (withoutSlashes path) with
  | error fault => simp [bind, Except.bind]
  | ok place =>
    simp only [bind, Except.bind, Except.ok.injEq, exists_eq_left']
    cases hentry : fs.entry? place <;>
      simp [throw, throwThe, MonadExceptOf.throw, pure, Except.pure, eq_comm]

/-! ### What is kept -/

/-- Nothing has changed but files at some places, and directories that were added. -/
structure Keeps (changed : Place → Prop) (fs fs' : FileSystem) : Prop where
  working : fs'.working = fs.working
  directory : ∀ place, fs.entry? place = some .directory → fs'.entry? place = some .directory
  file : ∀ place content, ¬ changed place →
    (fs'.HasFile place content ↔ fs.HasFile place content)

/-- A step inside a directory is the same wherever the directory is there. -/
theorem step_eq_ok {piece : String} {next : Place} (h : fs.step place piece = .ok next)
    (hkeeps : fs.entry? place = some .directory → fs'.entry? place = some .directory) :
    fs'.step place piece = .ok next := by
  unfold step at h ⊢
  cases hentry : fs.entry? place with
  | none => rw [hentry] at h; cases h
  | some entry =>
    cases entry with
    | file content => rw [hentry] at h; cases h
    | directory =>
      rw [hentry] at h
      rw [hkeeps hentry]
      exact h

theorem walk_eq_ok {ps : List (List Char)} {start : Place} (h : fs.walk ps start = .ok place)
    (hkeeps : ∀ place, fs.entry? place = some .directory → fs'.entry? place = some .directory) :
    fs'.walk ps start = .ok place := by
  unfold walk at h ⊢
  induction ps generalizing start with
  | nil => exact h
  | cons piece rest ih =>
    simp only [List.map_cons, List.foldlM_cons] at h ⊢
    obtain ⟨next, hstep, hrest⟩ := Except.bind_eq_ok.1 h
    exact Except.bind_eq_ok.2 ⟨next, step_eq_ok hstep (hkeeps start), ih hrest⟩

/-- A path leads to the same place wherever the directories are there. -/
theorem locate_eq_ok (h : fs.locate path = .ok place) (hworking : fs'.working = fs.working)
    (hkeeps : ∀ place, fs.entry? place = some .directory → fs'.entry? place = some .directory) :
    fs'.locate path = .ok place := by
  obtain ⟨hopen, hwalk⟩ := locate_eq_ok_iff.1 h
  refine locate_eq_ok_iff.2 ⟨hopen, ?_⟩
  rw [origin, hworking]
  exact walk_eq_ok hwalk hkeeps

namespace Keeps

variable {changed changed' : Place → Prop}

theorem refl (changed : Place → Prop) (fs : FileSystem) : Keeps changed fs fs :=
  ⟨rfl, fun _ h => h, fun _ _ _ => Iff.rfl⟩

theorem trans (h : Keeps changed fs fs') (h' : Keeps changed fs' fs'') : Keeps changed fs fs'' where
  working := h'.working.trans h.working
  directory place hplace := h'.directory place (h.directory place hplace)
  file place content hplace := (h'.file place content hplace).trans (h.file place content hplace)

theorem mono (h : Keeps changed fs fs') (himp : ∀ place, changed place → changed' place) :
    Keeps changed' fs fs' :=
  ⟨h.working, h.directory, fun place content hplace => h.file place content (mt (himp place) hplace)⟩

theorem locate (h : Keeps changed fs fs') (hlocate : fs.locate path = .ok place) :
    fs'.locate path = .ok place :=
  locate_eq_ok hlocate h.working h.directory

/-- What a path to an unchanged place leads to can be read as before. -/
theorem read_iff (h : Keeps changed fs fs') (hlocate : fs.locate path = .ok place)
    (hplace : ¬ changed place) : fs'.read path = .ok content ↔ fs.read path = .ok content := by
  simp only [read_eq_ok_iff, hlocate, h.locate hlocate, Except.ok.injEq, exists_eq_left',
    h.file place content hplace]

end Keeps

theorem keeps_put_file (h : fs.entry? place ≠ some .directory) (content : ByteArray) :
    Keeps (· = place) fs (fs.put place (.file content)) where
  working := rfl
  directory other hother := by
    rw [get_put (ne_nil_of_not_directory h), if_neg (by rintro rfl; exact h hother), hother]
  file other content' hother := by
    rw [HasFile, get_put (ne_nil_of_not_directory h), if_neg hother, HasFile]

/-- Writing a file changes this file alone. -/
theorem keeps_write (h : fs.write path content = .ok fs') :
    Keeps (fs.locate path = .ok ·) fs fs' := by
  obtain ⟨place, hlocate, hentry, rfl⟩ := write_eq_ok_iff.1 h
  exact (keeps_put_file hentry content).mono fun _ heq => heq ▸ hlocate

/-- A file that was written holds what was written. -/
theorem read_of_write (h : fs.write path content = .ok fs') : fs'.read path = .ok content := by
  obtain ⟨place, hlocate, hentry, rfl⟩ := write_eq_ok_iff.1 h
  refine read_eq_ok_iff.2 ⟨place, (keeps_put_file hentry content).locate hlocate, ?_⟩
  rw [HasFile, get_put (ne_nil_of_not_directory hentry), if_pos rfl]

/-- Where paths lead does not change when a file is written. -/
theorem locate_of_write (h : fs.write path content = .ok fs') {other : String} :
    fs'.locate other = .ok place ↔ fs.locate other = .ok place := by
  refine ⟨fun hlocate => ?_, (keeps_write h).locate⟩
  obtain ⟨target, -, hentry, rfl⟩ := write_eq_ok_iff.1 h
  refine locate_eq_ok hlocate rfl fun other hother => ?_
  rw [get_put (ne_nil_of_not_directory hentry)] at hother
  split at hother
  · cases hother
  · exact hother

/-- A path that leads elsewhere leads to the same file as before. -/
theorem read_of_write_of_ne (h : fs.write path content = .ok fs') {other : String}
    (hne : fs.locate other ≠ fs.locate path) {content' : ByteArray} :
    fs'.read other = .ok content' ↔ fs.read other = .ok content' := by
  simp only [read_eq_ok_iff, locate_of_write h]
  refine exists_congr fun place => and_congr_right fun hlocate => ?_
  exact (keeps_write h).file place content' fun heq => hne (hlocate.trans heq.symm)

theorem keeps_createDirectory (h : fs.createDirectory path = .ok fs') :
    Keeps (fun _ => False) fs fs' := by
  obtain ⟨place, -, hentry, rfl⟩ := createDirectory_eq_ok_iff.1 h
  have hplace : place ≠ [] := ne_nil_of_not_directory (by rw [hentry]; exact nofun)
  refine ⟨rfl, fun other hother => ?_, fun other content _ => ?_⟩
  · rw [get_put hplace]
    split
    · rfl
    · exact hother
  · rw [HasFile, HasFile, get_put hplace]
    split
    · next heq => subst heq; simp [hentry]
    · rfl

/-! ### Operations of the disk -/

/-- An operation of the disk, whatever it yields, keeps all but the files at some places. -/
def KeepsOn {α : Type} (changed : Place → Prop) (program : StateM FileSystem α) : Prop :=
  ∀ fs, Keeps changed fs (StateT.run program fs).2

namespace KeepsOn

variable {α β : Type} {changed : Place → Prop}

theorem pure (a : α) : KeepsOn changed (Pure.pure a) := fun fs => .refl changed fs

theorem bind {program : StateM FileSystem α} {next : α → StateM FileSystem β}
    (h : KeepsOn changed program) (h' : ∀ a, KeepsOn changed (next a)) :
    KeepsOn changed (program >>= next) := by
  intro fs
  rw [StateT.run_bind]
  exact (h fs).trans (h' _ _)

end KeepsOn

theorem keepsOn_createDirectory (path : String) :
    KeepsOn (fun _ => False) (disk.createDirectory path) := by
  intro fs
  show Keeps _ fs (update (fun fs => fs.createDirectory path) fs).2
  cases h : fs.createDirectory path with
  | error fault =>
    simp only [update, h]
    exact .refl _ fs
  | ok fs' =>
    simp only [update, h]
    exact keeps_createDirectory h

theorem keepsOn_isDirectory (path : String) :
    KeepsOn (fun _ => False) (disk.isDirectory path) := fun fs => .refl _ fs

theorem keepsOn_ensureDirectory (path : String) :
    KeepsOn (fun _ => False) (disk.ensureDirectory path) := by
  refine .bind (keepsOn_createDirectory path) fun made => ?_
  cases made with
  | ok _ => exact .pure _
  | error fault =>
    refine .bind (keepsOn_isDirectory path) fun there => ?_
    cases there <;> exact .pure _

theorem keepsOn_ensureFirst (paths : List String) :
    KeepsOn (fun _ => False) (disk.ensureFirst paths) := by
  induction paths with
  | nil => exact .pure _
  | cons path outer ih =>
    unfold Disk.ensureFirst
    split
    · exact .pure _
    refine .bind (keepsOn_createDirectory path) fun made => ?_
    split
    · exact .pure _
    · refine .bind ih fun around => ?_
      split
      · exact .pure _
      · exact keepsOn_ensureDirectory path
    · refine .bind (keepsOn_isDirectory path) fun there => ?_
      cases there <;> exact .pure _

/-- Making directories changes no file. -/
theorem keeps_ensureDirectories (path : String) (fs : FileSystem) :
    Keeps (fun _ => False) fs (runOn (disk.ensureDirectories path) fs).2 := by
  have h := keepsOn_ensureFirst (ancestors path) fs
  unfold Disk.ensureDirectories
  rcases hrun : StateT.run (disk.ensureFirst (ancestors path)) fs with ⟨made, fs'⟩
  rw [hrun] at h
  rw [Compilation.runOn_bind_ok (Compilation.runOn_liftM hrun)]
  cases made <;> exact h

theorem beq_bytes_iff {bytes bytes' : ByteArray} : (bytes == bytes') = true ↔ bytes = bytes' := by
  rw [ByteArray.ext_iff]
  show (bytes.data == bytes'.data) = true ↔ _
  exact beq_iff_eq

/-- What follows on a write runs on the disk that has the file, or on the one that was there. -/
theorem runOn_write {α : Type} (path text : String) (fs : FileSystem)
    (next : Except DiskFault Unit → ExceptT Failure (StateM FileSystem) α) :
    (∃ fs', fs.write path text.toUTF8 = .ok fs' ∧
        runOn (liftM (disk.write path text) >>= next) fs = runOn (next (.ok ())) fs') ∨
      ∃ fault, fs.write path text.toUTF8 = .error fault ∧
        runOn (liftM (disk.write path text) >>= next) fs = runOn (next (.error fault)) fs := by
  have hrun : ∀ {done : Except DiskFault Unit} {after : FileSystem},
      update (fun fs => fs.write path text.toUTF8) fs = (done, after) →
        runOn (liftM (disk.write path text) >>= next) fs = runOn (next done) after :=
    fun h => Compilation.runOn_bind_ok (Compilation.runOn_liftM h)
  cases hdone : fs.write path text.toUTF8 with
  | ok after => exact .inl ⟨after, rfl, hrun (by rw [update, hdone])⟩
  | error fault => exact .inr ⟨fault, rfl, hrun (by rw [update, hdone])⟩

/-- A conditional write finds the text in the file, or writes it, or fails. -/
theorem runOn_writeIfChanged (path text : String) (fs : FileSystem) :
    (fs.read path = .ok text.toUTF8 ∧
        runOn (disk.writeIfChanged path text) fs = (.ok false, fs)) ∨
      (fs.read path ≠ .ok text.toUTF8 ∧
        ((∃ fs', fs.write path text.toUTF8 = .ok fs' ∧
            runOn (disk.writeIfChanged path text) fs = (.ok true, fs')) ∨
          ∃ fault, fs.write path text.toUTF8 = .error fault ∧
            runOn (disk.writeIfChanged path text) fs = (.error (.disk path fault), fs))) := by
  have hread : runOn (liftM (disk.read path) :
      ExceptT Failure (StateM FileSystem) (Except DiskFault ByteArray)) fs =
        (.ok (fs.read path), fs) :=
    Compilation.runOn_liftM rfl
  rw [Disk.writeIfChanged, Compilation.runOn_bind_ok hread]
  dsimp only
  clear hread
  cases fs.read path with
  | error fault =>
    right
    dsimp only
    rw [if_neg Bool.false_ne_true]
    exact ⟨nofun, runOn_write path text fs _⟩
  | ok content =>
    dsimp only
    by_cases htext : content = text.toUTF8
    · left
      rw [if_pos (beq_bytes_iff.2 htext)]
      exact ⟨congrArg Except.ok htext, rfl⟩
    · right
      rw [if_neg (mt beq_bytes_iff.1 htext)]
      exact ⟨fun heq => htext (Except.ok.inj heq), runOn_write path text fs _⟩

/-- A conditional write changes one file at most. -/
theorem keeps_writeIfChanged (path text : String) (fs : FileSystem) :
    Keeps (fs.locate path = .ok ·) fs (runOn (disk.writeIfChanged path text) fs).2 := by
  rcases fs.runOn_writeIfChanged path text with ⟨-, hrun⟩ | ⟨-, ⟨_, hwrite, hrun⟩ | ⟨_, -, hrun⟩⟩
  · rw [hrun]
    exact .refl _ fs
  · rw [hrun]
    exact keeps_write hwrite
  · rw [hrun]
    exact .refl _ fs

/-- After a conditional write that does not fail, the file holds the text. -/
theorem read_of_writeIfChanged {text : String} {written : Bool}
    (h : runOn (disk.writeIfChanged path text) fs = (.ok written, fs')) :
    fs'.read path = .ok text.toUTF8 := by
  rcases fs.runOn_writeIfChanged path text with
    ⟨hread, hrun⟩ | ⟨-, ⟨_, hwrite, hrun⟩ | ⟨_, -, hrun⟩⟩
  · rw [hrun] at h
    cases h
    exact hread
  · rw [hrun] at h
    cases h
    exact read_of_write hwrite
  · rw [hrun] at h
    cases h

/-- A text that is there is not written again. -/
theorem runOn_writeIfChanged_of_read {text : String} (h : fs.read path = .ok text.toUTF8) :
    runOn (disk.writeIfChanged path text) fs = (.ok false, fs) := by
  rcases fs.runOn_writeIfChanged path text with ⟨-, hrun⟩ | ⟨hne, -⟩
  · exact hrun
  · exact absurd h hne

/-! ### Files in a directory -/

theorem isDirectory_iff : fs.isDirectory path = true ↔
    ∃ place, fs.locate path = .ok place ∧ fs.entry? place = some .directory := by
  unfold isDirectory find
  cases fs.locate path with
  | error fault => simp [bind, Except.bind]
  | ok place =>
    simp only [bind, Except.bind, Except.ok.injEq, exists_eq_left']
    cases hentry : fs.entry? place with
    | none => simp [throw, throwThe, MonadExceptOf.throw]
    | some entry => cases entry <;> simp [pure, Except.pure]

/-- A name leads from a directory to the place of this name in it. -/
theorem step_eq_ok_of_isFileName {name : String} (hname : IsFileName name) {next : Place}
    (h : fs.step place name = .ok next) :
    fs.entry? place = some .directory ∧ next = place ++ [name] := by
  unfold step at h
  cases hentry : fs.entry? place with
  | none => rw [hentry] at h; cases h
  | some entry =>
    rw [hentry] at h
    cases entry with
    | file content => cases h
    | directory =>
      simp only [hname.notEmpty, hname.notHere, hname.notAbove, or_self, if_false] at h
      split at h
      · cases h
      · exact ⟨rfl, (Except.ok.inj h).symm⟩

theorem walk_append (ps qs : List (List Char)) (start : Place) :
    fs.walk (ps ++ qs) start = fs.walk ps start >>= fs.walk qs := by
  unfold walk
  rw [List.map_append, List.foldlM_append]

/-- A slash behind a path asks for a directory. -/
theorem walk_slash {ps : List (List Char)} {start : Place} :
    fs.walk (ps ++ [[]]) start = .ok place ↔
      fs.walk ps start = .ok place ∧ fs.entry? place = some .directory := by
  have hstep : ∀ next, fs.walk [[]] next = .ok place ↔
      next = place ∧ fs.entry? place = some .directory := by
    intro next
    show (fs.step next "" >>= pure) = .ok place ↔ _
    rw [bind_pure, step]
    cases hentry : fs.entry? next with
    | none => simp only [reduceCtorEq, false_iff]; rintro ⟨rfl, h⟩; rw [hentry] at h; cases h
    | some entry =>
      cases entry with
      | file content => simp only [reduceCtorEq, false_iff]; rintro ⟨rfl, h⟩; rw [hentry] at h; cases h
      | directory =>
        simp only [true_or, if_true, Except.ok.injEq]
        exact ⟨fun heq => ⟨heq, heq ▸ hentry⟩, And.left⟩
  rw [walk_append, Except.bind_eq_ok]
  constructor
  · rintro ⟨next, hwalk, hnext⟩
    obtain ⟨rfl, hentry⟩ := (hstep next).1 hnext
    exact ⟨hwalk, hentry⟩
  · rintro ⟨hwalk, hentry⟩
    exact ⟨place, hwalk, (hstep place).2 ⟨rfl, hentry⟩⟩

/-- To a directory only the names in a path lead. -/
theorem walk_named_iff {ps : List (List Char)} {start : Place}
    (hentry : fs.entry? place = some .directory) :
    fs.walk ps start = .ok place ↔ fs.walk (named ps) start = .ok place := by
  have hslash : ∀ ps, fs.walk ps start = .ok place ↔ fs.walk (ps ++ [[]]) start = .ok place :=
    fun ps => by rw [walk_slash, and_iff_left hentry]
  rw [hslash, hslash (named ps), walk_named ps (List.cons_ne_nil _ _)]

/-- The place that a directory stands at, which is where relative paths start if it has no name. -/
def directoryPlace (fs : FileSystem) (directory : String) : Except DiskFault Place :=
  if directory = "" then .ok fs.working else fs.locate directory

/-- A file that is found in a directory is found at its own place: behind that of the directory. -/
theorem exists_of_locate_join {directory name : String} (hname : IsFileName name)
    (h : fs.locate (join directory name) = .ok place) :
    ∃ around, fs.directoryPlace directory = .ok around ∧ fs.entry? around = some .directory ∧
      place = around ++ [name] := by
  obtain ⟨hopen, hwalk⟩ := locate_eq_ok_iff.1 h
  obtain ⟨habsolute, ps, hps, hnamed⟩ := pieces_join directory hname.isAbsolute
  rw [hps, hname.pieces, walk_append] at hwalk
  obtain ⟨around, haround, hstep⟩ := Except.bind_eq_ok.1 hwalk
  have hname' : fs.step around name = .ok place := by
    have hone : fs.walk [name.toList] around = fs.step around name := by
      simp [walk]
    rwa [hone] at hstep
  obtain ⟨hentry, hplace⟩ := step_eq_ok_of_isFileName hname hname'
  refine ⟨around, ?_, hentry, hplace⟩
  rw [walk_named_iff hentry, hnamed] at haround
  rw [origin, habsolute] at haround
  unfold directoryPlace
  by_cases hdirectory : directory = ""
  · subst hdirectory
    rw [if_pos rfl]
    exact haround
  · rw [if_neg hdirectory]
    obtain ⟨rest, hrest⟩ : ∃ rest, join directory name = directory ++ rest := by
      rw [join_eq directory hname.isAbsolute, opening, if_neg hdirectory]
      split
      · exact ⟨name, rfl⟩
      · exact ⟨"/" ++ name, String.append_assoc ..⟩
    rw [hrest] at hopen
    exact locate_eq_ok_iff.2 ⟨hopen.of_append hdirectory, (walk_named_iff hentry).2 haround⟩

/-- Files with different names are not the same one, whatever the spelling of their directories. -/
theorem locate_join_ne {directory directory' name name' : String} (hname : IsFileName name)
    (hname' : IsFileName name') (hne : name ≠ name') (h : fs.locate (join directory name) = .ok place) :
    fs.locate (join directory' name') ≠ .ok place := by
  intro h'
  obtain ⟨around, -, -, rfl⟩ := exists_of_locate_join hname h
  obtain ⟨around', -, -, hplace⟩ := exists_of_locate_join hname' h'
  exact hne (List.singleton_inj.1 (List.append_inj' hplace rfl).2)

theorem named_pieces_slashes (n : Nat) : named (pieces (List.replicate n '/')) = [] := by
  induction n with
  | zero => rfl
  | succ n ih =>
    rw [List.replicate_succ, pieces, if_pos rfl, named_void rfl]
    exact ih

/-- Slashes at the end of a path are no names, and they are all that is cut off. -/
theorem withoutSlashes_spec (path : String) :
    names (withoutSlashes path) = names path ∧
      isAbsolute (withoutSlashes path) = isAbsolute path ∧
      (path ≠ "" → withoutSlashes path ≠ "") ∧ ∃ rest, path = withoutSlashes path ++ rest := by
  have hsplit := List.takeWhile_append_dropWhile (p := (· == '/')) (l := path.toList.reverse)
  have hslashes : path.toList.reverse.takeWhile (· == '/') =
      List.replicate (path.toList.reverse.takeWhile (· == '/')).length '/' :=
    List.eq_replicate_of_mem fun c hc => by simpa using List.mem_takeWhile_imp hc
  have hpath : path.toList = (path.toList.reverse.dropWhile (· == '/')).reverse ++
      List.replicate (path.toList.reverse.takeWhile (· == '/')).length '/' := by
    rw [hslashes, ← List.reverse_inj] at hsplit
    rwa [List.reverse_append, List.reverse_reverse, List.reverse_replicate, eq_comm] at hsplit
  unfold withoutSlashes
  generalize path.toList.reverse.takeWhile (· == '/') = slashes at hpath
  generalize (path.toList.reverse.dropWhile (· == '/')).reverse = before at hpath ⊢
  cases before with
  | nil => exact ⟨rfl, rfl, id, "", (String.append_empty).symm⟩
  | cons c cs =>
    dsimp only
    refine ⟨?_, ?_, fun _ => by simp, String.ofList (List.replicate slashes.length '/'), ?_⟩
    · rw [names, names, hpath, String.toList_ofList]
      cases slashes with
      | nil => rw [List.length_nil, List.replicate_zero, List.append_nil]
      | cons slash rest =>
        rw [List.length_cons, List.replicate_succ, named_pieces_append, named_pieces_slashes,
          List.append_nil]
    · rw [isAbsolute, isAbsolute, hpath, String.toList_ofList]
      rfl
    · rw [← String.toList_inj, hpath, String.toList_append, String.toList_ofList,
        String.toList_ofList]

theorem createDirectory_of_locate (h : fs.locate path = .ok place)
    (hentry : fs.entry? place = some .directory) : fs.createDirectory path = .error .exists := by
  obtain ⟨hopen, hwalk⟩ := locate_eq_ok_iff.1 h
  obtain ⟨hnames, habsolute, hne, rest, hrest⟩ := withoutSlashes_spec path
  have hlocate : fs.locate (withoutSlashes path) = .ok place := by
    refine locate_eq_ok_iff.2 ⟨(hrest ▸ hopen).of_append (hne hopen.notEmpty), ?_⟩
    rw [walk_named_iff hentry] at hwalk ⊢
    rw [origin, habsolute]
    exact (congrArg (fs.walk · _) hnames).trans hwalk
  rw [createDirectory, hlocate]
  simp only [bind, Except.bind, hentry]
  rfl

/-- A directory that is there is not made again. -/
theorem runOn_ensureDirectories {directory : String} {around : Place}
    (h : fs.directoryPlace directory = .ok around) (hentry : fs.entry? around = some .directory) :
    runOn (disk.ensureDirectories directory) fs = (.ok (), fs) := by
  have hfirst : StateT.run (disk.ensureFirst (ancestors directory)) fs = (.ok (), fs) := by
    rw [ancestors, Location.around, Disk.ensureFirst]
    unfold directoryPlace at h
    by_cases hempty : directory = ""
    · rw [if_pos (String.isEmpty_iff.2 hempty)]
      rfl
    · rw [if_neg hempty] at h
      rw [if_neg (mt String.isEmpty_iff.1 hempty)]
      have hmade : StateT.run (disk.createDirectory directory) fs = (.error .exists, fs) := by
        show update (fun fs => fs.createDirectory directory) fs = _
        rw [update, createDirectory_of_locate h hentry]
      have hthere : StateT.run (disk.isDirectory directory) fs = (true, fs) := by
        show (fs.isDirectory directory, fs) = _
        rw [isDirectory_iff.2 ⟨around, h, hentry⟩]
      rw [StateT.run_bind, hmade]
      show StateT.run (disk.isDirectory directory >>= _) fs = _
      rw [StateT.run_bind, hthere]
      rfl
  rw [Disk.ensureDirectories, Compilation.runOn_bind_ok (Compilation.runOn_liftM hfirst)]
  rfl

end DescriptionLookup.FileSystem
