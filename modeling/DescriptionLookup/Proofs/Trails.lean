import DescriptionLookup.Crate.Loading
import DescriptionLookup.Disk.FileSystem
import Mathlib.Data.List.Basic

/-!
# Paths along the same names

The directory of a module can be spelled in several ways: with slashes that are doubled, or with dots
that lead nowhere. What such a path names, and what it leads to, depends on its trail alone: on
whether it is absolute, and on the names along it.

* `names`: the names along a path; `names_join`, `names_parent`, `name?_eq` say how they change;
* `SameTrail`: paths along the same names, and `SameTrail.childDirectory`;
* `childDirectory_module`: the children of a module in a file of its own are where those of a module
  in braces are;
* `Respells`: the same path behind two spellings of a directory; `Respells.read_eq` says that both
  lead to the same file, unless one of them is too long to be followed.
-/

namespace DescriptionLookup

namespace Location

/-! ### Pieces -/

theorem pieces_ne_nil (cs : List Char) : pieces cs ≠ [] := by
  cases cs with
  | nil => simp [pieces]
  | cons c rest =>
    simp only [pieces]
    split
    · simp
    · split <;> simp

theorem pieces_cons_of_ne {c : Char} (h : c ≠ '/') (cs : List Char) :
    ∃ first rest, pieces cs = first :: rest ∧ pieces (c :: cs) = (c :: first) :: rest := by
  cases hcs : pieces cs with
  | nil => exact absurd hcs (pieces_ne_nil cs)
  | cons first rest => exact ⟨first, rest, rfl, by simp [pieces, h, hcs]⟩

theorem pieces_append (cs rest : List Char) :
    pieces (cs ++ '/' :: rest) = pieces cs ++ pieces rest := by
  induction cs with
  | nil => simp [pieces]
  | cons c cs ih =>
    by_cases h : c = '/'
    · simp [pieces, h, ih]
    · obtain ⟨first, more, hcs, hpieces⟩ := pieces_cons_of_ne h cs
      rw [List.cons_append, hpieces, pieces, if_neg h, ih, hcs]
      rfl

theorem pieces_of_notMem {cs : List Char} (h : '/' ∉ cs) : pieces cs = [cs] := by
  induction cs with
  | nil => rfl
  | cons c cs ih =>
    obtain ⟨hc, hcs⟩ := not_or.1 (List.mem_cons.not.1 h)
    rw [pieces, if_neg (Ne.symm hc), ih hcs]

theorem slash_notMem_of_mem_pieces {cs piece : List Char} (h : piece ∈ pieces cs) :
    '/' ∉ piece := by
  induction cs generalizing piece with
  | nil => simp [List.mem_singleton.1 h]
  | cons c cs ih =>
    by_cases hc : c = '/'
    · rw [pieces, if_pos hc] at h
      rcases List.mem_cons.1 h with rfl | h
      · simp
      · exact ih h
    · obtain ⟨first, rest, hcs, hpieces⟩ := pieces_cons_of_ne hc cs
      rw [hpieces] at h
      rcases List.mem_cons.1 h with rfl | h
      · exact List.mem_cons.not.2 (not_or.2 ⟨Ne.symm hc, ih (hcs ▸ List.mem_cons_self)⟩)
      · exact ih (hcs ▸ List.mem_cons_of_mem _ h)

theorem pieces_joined {ps : List (List Char)} (hne : ps ≠ []) (h : ∀ piece ∈ ps, '/' ∉ piece) :
    pieces (joined ps) = ps := by
  induction ps with
  | nil => exact absurd rfl hne
  | cons piece rest ih =>
    have hpiece := pieces_of_notMem (h piece List.mem_cons_self)
    cases rest with
    | nil => simpa [joined, List.intercalate] using hpiece
    | cons next more =>
      have hjoined : joined (piece :: next :: more) = piece ++ '/' :: joined (next :: more) := by
        simp [joined, List.intercalate_cons_cons]
      rw [hjoined, pieces_append, hpiece,
        ih (List.cons_ne_nil _ _) fun p hp => h p (List.mem_cons_of_mem _ hp)]
      rfl

/-! ### Names along a path -/

/-- The pieces that are names. -/
def named (ps : List (List Char)) : List (List Char) := ps.filter fun piece => !isVoid piece

/-- The names along a path. -/
def names (path : String) : List (List Char) := named (pieces path.toList)

@[simp] theorem named_append (ps qs : List (List Char)) : named (ps ++ qs) = named ps ++ named qs :=
  List.filter_append ..

@[simp] theorem named_nil : named [] = [] := rfl

@[simp] theorem named_void {piece : List Char} (h : isVoid piece = true)
    (rest : List (List Char)) : named (piece :: rest) = named rest := by
  simp [named, h]

/-- The names of two paths with a slash between them. -/
theorem named_pieces_append (cs rest : List Char) :
    named (pieces (cs ++ '/' :: rest)) = named (pieces cs) ++ named (pieces rest) := by
  rw [pieces_append, named_append]

theorem isAbsolute_iff {path : String} : isAbsolute path = true ↔ path.toList.head? = some '/' := by
  simp [isAbsolute]

theorem join_of_isAbsolute (base : String) {path : String} (h : isAbsolute path = true) :
    join base path = path := by
  simp [join, h]

/-- A relative path goes on from the directory: its pieces come behind those of the directory. -/
theorem pieces_join (base : String) {path : String} (h : isAbsolute path = false) :
    isAbsolute (join base path) = isAbsolute base ∧
      ∃ ps, pieces (join base path).toList = ps ++ pieces path.toList ∧ named ps = names base := by
  by_cases hbase : base = ""
  · have hjoin : join base path = path := by simp [join, hbase]
    rw [hjoin, h, hbase]
    exact ⟨rfl, [], rfl, rfl⟩
  have hne : base.toList ≠ [] := fun heq => hbase (String.toList_eq_nil_iff.1 heq)
  have hhead : ∀ cs : List Char, (base.toList ++ cs).head? = base.toList.head? :=
    fun cs => List.head?_append_of_ne_nil _ hne
  by_cases hlast : base.toList.getLast? = some '/'
  · have hjoin : (join base path).toList = base.toList ++ path.toList := by
      simp [join, h, hbase, hlast]
    obtain ⟨cs, hcs⟩ := List.getLast?_eq_some_iff.1 hlast
    refine ⟨by rw [isAbsolute, hjoin, hhead, isAbsolute], pieces cs, ?_, ?_⟩
    · rw [hjoin, hcs, List.append_assoc, List.singleton_append, pieces_append]
    · rw [names, hcs, named_pieces_append]
      simp [pieces, named, isVoid]
  · have hjoin : (join base path).toList = base.toList ++ '/' :: path.toList := by
      simp [join, h, hbase, hlast]
    refine ⟨by rw [isAbsolute, hjoin, hhead, isAbsolute], pieces base.toList, ?_, rfl⟩
    rw [hjoin, pieces_append]

theorem names_join (base : String) {path : String} (h : isAbsolute path = false) :
    names (join base path) = names base ++ names path := by
  obtain ⟨-, ps, hps, hnamed⟩ := pieces_join base h
  rw [names, hps, named_append, hnamed]
  rfl

/-! ### The last name -/

/-- Names do not change if a dot at the beginning is left out. -/
theorem named_pieces_drop_lead (cs : List Char) :
    named (pieces (cs.drop (lead cs).length)) = named (pieces cs) := by
  unfold lead
  split
  · next rest => simp [pieces, isVoid]
  · simp [pieces, isVoid]
  · next rest => simp [pieces, isVoid]
  · rfl

theorem named_dropWhile (ps : List (List Char)) : named (ps.dropWhile isVoid) = named ps := by
  induction ps with
  | nil => rfl
  | cons piece rest ih =>
    cases h : isVoid piece with
    | true => rw [List.dropWhile_cons_of_pos h, ih, named_void h]
    | false => rw [List.dropWhile_cons_of_neg (by simp [h])]

theorem named_reverse (ps : List (List Char)) : named ps.reverse = (named ps).reverse :=
  List.filter_reverse

theorem named_backwards (cs : List Char) :
    named (backwards cs) = (named (pieces cs)).reverse := by
  rw [backwards, named_dropWhile, named_reverse, named_pieces_drop_lead]

/-- A path taken apart from its end: it has no names, or a last one with the others before it. -/
theorem backwards_cases (path : String) :
    (backwards path.toList = [] ∧ names path = []) ∨
    ∃ last outer, backwards path.toList = last :: outer ∧
      names path = named outer.reverse ++ [last] := by
  have hnamed := named_backwards path.toList
  cases hback : backwards path.toList with
  | nil =>
    rw [hback] at hnamed
    exact .inl ⟨rfl, List.reverse_eq_nil_iff.1 hnamed.symm⟩
  | cons last outer =>
    have hlast : isVoid last = false := by
      have hhead := List.head?_dropWhile_not isVoid
        ((pieces (path.toList.drop (lead path.toList).length)).reverse)
      rw [← backwards, hback] at hhead
      exact hhead
    refine .inr ⟨last, outer, rfl, ?_⟩
    have hcons : named (last :: outer) = last :: named outer := by simp [named, hlast]
    rw [hback, hcons] at hnamed
    rw [names, ← List.reverse_reverse (named (pieces path.toList)), ← hnamed, List.reverse_cons,
      named_reverse]

/-- The last name of a path, unless it leads to the directory above. -/
theorem name?_eq (path : String) :
    name? path = (names path).getLast?.bind fun piece =>
      if piece = ['.', '.'] then none else some (String.ofList piece) := by
  rcases backwards_cases path with ⟨hback, hnames⟩ | ⟨last, outer, hback, hnames⟩
  · rw [name?, hback, hnames]
    rfl
  · rw [name?, hback, hnames, List.getLast?_concat]
    rfl

/-! ### The path without its last name -/

theorem named_pieces_joined {ps : List (List Char)} (h : ∀ piece ∈ ps, '/' ∉ piece) :
    named (pieces (joined ps)) = named ps := by
  by_cases hne : ps = []
  · subst hne
    rfl
  · rw [pieces_joined hne h]

theorem head?_joined_cons (c : Char) (first : List Char) (rest : List (List Char)) :
    (joined ((c :: first) :: rest)).head? = some c := by
  cases rest <;> simp [joined, List.intercalate_cons_cons]

/-- The first pieces of a path, put together again behind what stands before them. -/
theorem named_pieces_lead {cs : List Char} {ps : List (List Char)}
    (h : ps <+: pieces (cs.drop (lead cs).length)) :
    named (pieces (lead cs ++ joined ps)) = named ps := by
  have hslash : ∀ piece ∈ ps, '/' ∉ piece := fun piece hpiece =>
    slash_notMem_of_mem_pieces (h.mem hpiece)
  unfold lead at h ⊢
  split at h
  · rw [List.singleton_append, pieces, if_pos rfl, named_void rfl, named_pieces_joined hslash]
  · -- nothing stands behind a dot alone
    have hps : ps = [] ∨ ps = [[]] := by simpa [pieces, List.prefix_cons_iff] using h
    rcases hps with rfl | rfl <;> rfl
  · next rest =>
    rcases ps with _ | ⟨first, more⟩
    · rfl
    · -- the slash behind the dot makes the first piece empty
      have hfirst : first = [] := by
        have hhead := List.cons_prefix_cons.1 (by simpa [pieces] using h)
        exact hhead.1
      subst hfirst
      cases more with
      | nil => rfl
      | cons next more =>
        have hjoined : joined ([] :: next :: more) = '/' :: joined (next :: more) := by
          simp [joined, List.intercalate_cons_cons]
        rw [hjoined, named_pieces_append,
          named_pieces_joined fun piece hpiece => hslash piece (List.mem_cons_of_mem _ hpiece)]
        rfl
  · rw [List.nil_append, named_pieces_joined hslash]

theorem head?_lead {cs : List Char} {ps : List (List Char)}
    (h : ps <+: pieces (cs.drop (lead cs).length)) :
    (lead cs ++ joined ps).head? = some '/' ↔ cs.head? = some '/' := by
  unfold lead at h ⊢
  split at h
  · simp
  · simp
  · simp
  · next hslash _ _ =>
    rcases cs with _ | ⟨c, rest⟩
    · have hps : ps = [] ∨ ps = [[]] := by simpa [pieces, List.prefix_cons_iff] using h
      rcases hps with rfl | rfl <;> simp [joined]
    · have hc : c ≠ '/' := fun heq => hslash rest (by rw [heq])
      obtain ⟨first, more, -, hpieces⟩ := pieces_cons_of_ne hc rest
      rw [List.length_nil, List.drop_zero, hpieces] at h
      rcases ps with _ | ⟨piece, behind⟩
      · simp [joined, hc]
      · rw [(List.cons_prefix_cons.1 h).1, List.nil_append, head?_joined_cons]
        simp

/-- The pieces before the last name of a path are the first ones. -/
theorem outer_prefix {cs last : List Char} {outer : List (List Char)}
    (h : backwards cs = last :: outer) :
    (outer.dropWhile isVoid).reverse <+: pieces (cs.drop (lead cs).length) := by
  have hsuffix : outer.dropWhile isVoid <:+ (pieces (cs.drop (lead cs).length)).reverse := by
    refine (List.dropWhile_suffix _).trans ?_
    refine (List.suffix_cons last outer).trans ?_
    rw [← h]
    exact List.dropWhile_suffix _
  simpa using List.reverse_prefix.2 hsuffix

/-- The path without its last name leads along the names before it. -/
theorem names_parent (path : String) :
    names (parent path) = (names path).dropLast ∧
      isAbsolute (parent path) = (isAbsolute path && !(names path).isEmpty) := by
  rcases backwards_cases path with ⟨hback, hnames⟩ | ⟨last, outer, hback, hnames⟩
  · have hparent : parent path = "" := by
      simp only [parent, parent?, hback]
      split <;> rfl
    rw [hparent, hnames]
    simp [names, pieces, named, isVoid, isAbsolute]
  · have hparent : (parent path).toList =
        lead path.toList ++ joined (outer.dropWhile isVoid).reverse := by
      simp [parent, parent?, hback]
    have hprefix := outer_prefix hback
    constructor
    · rw [names, hparent, named_pieces_lead hprefix, hnames, List.dropLast_concat, named_reverse,
        named_reverse, named_dropWhile]
    · rw [hnames, Bool.eq_iff_iff, isAbsolute_iff, hparent, head?_lead hprefix]
      simp [isAbsolute_iff]

/-! ### Spellings of a directory -/

/-- The paths lead along the same names, both from the root of the disk or neither. -/
structure SameTrail (path path' : String) : Prop where
  isAbsolute : isAbsolute path = isAbsolute path'
  names : names path = names path'

namespace SameTrail

variable {path path' base base' : String}

theorem refl (path : String) : SameTrail path path := ⟨rfl, rfl⟩

theorem symm (h : SameTrail path path') : SameTrail path' path := ⟨h.isAbsolute.symm, h.names.symm⟩

theorem trans {path'' : String} (h : SameTrail path path') (h' : SameTrail path' path'') :
    SameTrail path path'' :=
  ⟨h.isAbsolute.trans h'.isAbsolute, h.names.trans h'.names⟩

theorem join (h : SameTrail base base') (path : String) :
    SameTrail (join base path) (Location.join base' path) := by
  by_cases hpath : Location.isAbsolute path = true
  · rw [join_of_isAbsolute _ hpath, join_of_isAbsolute _ hpath]
    exact .refl path
  · replace hpath : Location.isAbsolute path = false := by simpa using hpath
    constructor
    · rw [(pieces_join base hpath).1, (pieces_join base' hpath).1, h.isAbsolute]
    · rw [names_join base hpath, names_join base' hpath, h.names]

theorem parent (h : SameTrail path path') : SameTrail (parent path) (Location.parent path') := by
  constructor
  · rw [(names_parent path).2, (names_parent path').2, h.isAbsolute, h.names]
  · rw [(names_parent path).1, (names_parent path').1, h.names]

theorem name?_eq (h : SameTrail path path') : name? path = name? path' := by
  rw [Location.name?_eq, Location.name?_eq, h.names]

/-- The children of modules in a file are in the same directory, however the file is spelled. -/
theorem childDirectory (h : SameTrail path path') :
    SameTrail (childDirectory path) (DescriptionLookup.childDirectory path') := by
  unfold DescriptionLookup.childDirectory stem?
  rw [← h.name?_eq]
  split
  · exact h.parent
  · cases name? path with
    | none => exact h.parent
    | some name => exact h.parent.join _

end SameTrail

/-! ### A file and a directory of one name -/

theorem stemOf_append_rs {name : String} (h : name ≠ "") : stemOf (name ++ ".rs") = name := by
  have hne : name.toList.reverse ≠ [] := by simpa using h
  have hreversed : (name ++ ".rs").toList.reverse = 's' :: 'r' :: '.' :: name.toList.reverse := by
    simp
  have hdrop : ((name ++ ".rs").toList.reverse.dropWhile (· != '.')).drop 1 =
      name.toList.reverse := by
    rw [hreversed]
    rfl
  rw [stemOf, hdrop]
  cases hcs : name.toList.reverse with
  | nil => exact absurd hcs hne
  | cons c rest =>
    show String.ofList (c :: rest).reverse = name
    rw [← hcs, List.reverse_reverse, String.ofList_toList]

theorem isAbsolute_eq_false {path : String} (h : '/' ∉ path.toList) : isAbsolute path = false := by
  rw [Bool.eq_false_iff, Ne, isAbsolute_iff]
  exact fun hhead => h (List.mem_of_mem_head? hhead)

/-- The children of a module in a file of its own name are where those of a module in braces are. -/
theorem childDirectory_module (directory : String) {name : String} (hne : name ≠ "")
    (hmod : name ≠ "mod") (hslash : '/' ∉ name.toList) :
    SameTrail (childDirectory (join directory (name ++ ".rs"))) (join directory name) := by
  have hslash' : '/' ∉ (name ++ ".rs").toList := by simpa using hslash
  have hrelative := isAbsolute_eq_false hslash'
  have hnames : names (join directory (name ++ ".rs")) =
      names directory ++ [(name ++ ".rs").toList] := by
    have hvoid : isVoid (name ++ ".rs").toList = false := by
      cases hcs : name.toList <;> simp [isVoid, hcs]
    have hfile : names (name ++ ".rs") = [(name ++ ".rs").toList] := by
      rw [names, pieces_of_notMem hslash', named, List.filter_singleton, hvoid]
      rfl
    rw [names_join directory hrelative, hfile]
  have hname : name? (join directory (name ++ ".rs")) = some (name ++ ".rs") := by
    have hdots : (name ++ ".rs").toList ≠ ['.', '.'] := by
      intro heq
      have hlast := congrArg List.getLast? heq
      simp at hlast
    rw [name?_eq, hnames, List.getLast?_concat, Option.bind_some, if_neg hdots,
      String.ofList_toList]
  have hparent : SameTrail (parent (join directory (name ++ ".rs"))) directory := by
    constructor
    · rw [(names_parent _).2, hnames, (pieces_join directory hrelative).1]
      simp
    · rw [(names_parent _).1, hnames, List.dropLast_concat]
  have hother : some (name ++ ".rs") ≠ some "mod.rs" := by
    intro heq
    have hmod' : name ++ ".rs" = "mod" ++ ".rs" := Option.some.inj heq
    exact hmod ((String.append_left_inj _).1 hmod')
  rw [childDirectory, stem?, hname, if_neg hother, Option.map_some, stemOf_append_rs hne]
  exact hparent.join name

/-- The second path is the first one behind another spelling of a directory. -/
def Respells (path path' : String) : Prop :=
  ∃ base base' rest, SameTrail base base' ∧ path = join base rest ∧ path' = join base' rest

theorem Respells.sameTrail {path path' : String} (h : Respells path path') :
    SameTrail path path' := by
  obtain ⟨base, base', rest, hbase, rfl, rfl⟩ := h
  exact hbase.join rest

end Location

/-! ### What a path leads to -/

namespace FileSystem

open Location

variable {fs : FileSystem}

/-- The place that the pieces of a path lead to. -/
def walk (fs : FileSystem) (ps : List (List Char)) (place : Place) : Except DiskFault Place :=
  (ps.map String.ofList).foldlM fs.step place

/-- A piece that is no name makes no difference where another one follows: both ask for a
directory. -/
theorem step_void {piece : List Char} (h : isVoid piece = true) (place : Place) (next : String) :
    (fs.step place (String.ofList piece) >>= fun place => fs.step place next) =
      fs.step place next := by
  have hpiece : String.ofList piece = "" ∨ String.ofList piece = "." := by
    rcases Bool.or_eq_true_iff.1 h with h | h
    · exact .inl (by rw [List.isEmpty_iff.1 h])
    · exact .inr (by rw [beq_iff_eq.1 h])
  have hstep : fs.entry? place = some .directory →
      fs.step place (String.ofList piece) = .ok place := by
    intro hentry
    rw [step, hentry]
    exact if_pos hpiece
  cases hentry : fs.entry? place with
  | none => simp only [step, hentry]; rfl
  | some entry =>
    cases entry with
    | file content => simp only [step, hentry]; rfl
    | directory => rw [hstep hentry]; rfl

theorem walk_void {piece : List Char} (h : isVoid piece = true) {rest : List (List Char)}
    (hrest : rest ≠ []) (place : Place) : fs.walk (piece :: rest) place = fs.walk rest place := by
  obtain ⟨next, more, rfl⟩ := List.exists_cons_of_ne_nil hrest
  simp only [walk, List.map_cons, List.foldlM_cons]
  rw [← bind_assoc, step_void h]

theorem walk_named (ps : List (List Char)) {rest : List (List Char)} (hrest : rest ≠ [])
    (place : Place) : fs.walk (ps ++ rest) place = fs.walk (named ps ++ rest) place := by
  induction ps generalizing place with
  | nil => rfl
  | cons piece ps ih =>
    cases h : isVoid piece with
    | true => rw [List.cons_append, walk_void h (List.append_ne_nil_of_right_ne_nil _ hrest), ih,
        named_void h]
    | false =>
      have hnamed : named (piece :: ps) = piece :: named ps := by simp [named, h]
      rw [hnamed]
      exact congrArg (fs.step place (String.ofList piece) >>= ·) (funext ih)

/-- Where paths start that lead from here, or from the root of the disk. -/
def origin (fs : FileSystem) (path : String) : Place :=
  if isAbsolute path then [] else fs.working

/-- A path leads to the same place behind two spellings of a directory. -/
theorem walk_respells {path path' : String} (h : Respells path path') :
    fs.walk (pieces path.toList) (fs.origin path) =
      fs.walk (pieces path'.toList) (fs.origin path') := by
  have horigin : fs.origin path = fs.origin path' := by
    rw [origin, origin, h.sameTrail.isAbsolute]
  obtain ⟨base, base', rest, hbase, rfl, rfl⟩ := h
  rw [horigin]
  by_cases hrest : isAbsolute rest = true
  · rw [join_of_isAbsolute _ hrest, join_of_isAbsolute _ hrest]
  · replace hrest : isAbsolute rest = false := by simpa using hrest
    obtain ⟨-, ps, hps, hnamed⟩ := pieces_join base hrest
    obtain ⟨-, ps', hps', hnamed'⟩ := pieces_join base' hrest
    rw [hps, hps', walk_named ps (pieces_ne_nil _), walk_named ps' (pieces_ne_nil _), hnamed,
      hnamed', hbase.names]

/-- A path that leads to a file leads there piece by piece. -/
theorem exists_walk {path : String} (h : fs.isFile path = true) :
    ∃ place content, fs.walk (pieces path.toList) (fs.origin path) = .ok place ∧
      fs.entry? place = some (.file content) ∧ fs.read path = .ok content := by
  obtain ⟨place, content, hfind⟩ : ∃ place content, fs.find path = .ok (place, .file content) := by
    unfold isFile at h
    split at h
    · next place content hfind => exact ⟨place, content, hfind⟩
    · cases h
  have hread : fs.read path = .ok content := by
    rw [read, hfind]
    rfl
  unfold find at hfind
  cases hlocate : fs.locate path with
  | error fault => rw [hlocate] at hfind; cases hfind
  | ok found =>
    rw [hlocate] at hfind
    simp only [bind, Except.bind] at hfind
    cases hentry : fs.entry? found with
    | none => rw [hentry] at hfind; cases hfind
    | some entry =>
      rw [hentry] at hfind
      cases hfind
      refine ⟨place, content, ?_, hentry, hread⟩
      unfold locate at hlocate
      split at hlocate
      · cases hlocate
      · split at hlocate
        · cases hlocate
        · split at hlocate
          · cases hlocate
          · exact hlocate

/-- Two spellings of a path to a file lead to the same file. -/
theorem read_eq_of_respells {path path' : String} (h : Respells path path')
    (hpath : fs.isFile path = true) (hpath' : fs.isFile path' = true) :
    fs.read path = fs.read path' := by
  obtain ⟨place, content, hwalk, hentry, hread⟩ := exists_walk hpath
  obtain ⟨place', content', hwalk', hentry', hread'⟩ := exists_walk hpath'
  rw [walk_respells h, hwalk'] at hwalk
  cases hwalk
  rw [hentry] at hentry'
  cases hentry'
  rw [hread, hread']

end FileSystem

end DescriptionLookup
