import DescriptionLookup.Proofs.Trails
import Mathlib.Data.List.DropRight

/-!
# Directories spelled out

Cutting the last name off a path does not restore the text of the directory that the name was put
into: slashes and dots at the end of the directory are lost. Directories without such an end are
restored, and these are all that loading meets.

* `opening`, `join_eq`: what comes before a relative path that is put into a directory;
* `IsTrimmed`: nothing of the text is lost when its last name is kept;
* `parent_join`, `name?_join`: the two parts of a file in such a directory;
* `isTrimmed_parent`, `isTrimmed_join`: where such directories come from.
-/

namespace DescriptionLookup.Location

/-- A name that a file can have. -/
structure IsFileName (name : String) : Prop where
  slash : '/' ∉ name.toList
  notEmpty : name ≠ ""
  notHere : name ≠ "."
  notAbove : name ≠ ".."

namespace IsFileName

variable {name : String}

theorem isAbsolute (h : IsFileName name) : isAbsolute name = false := isAbsolute_eq_false h.slash

theorem isAbsolute_append (h : IsFileName name) (rest : String) :
    Location.isAbsolute (name ++ rest) = false := by
  have hne : name.toList ≠ [] := by simpa using h.notEmpty
  have hname := h.isAbsolute
  rw [Location.isAbsolute] at hname ⊢
  rwa [String.toList_append, List.head?_append_of_ne_nil _ hne]

theorem pieces (h : IsFileName name) : pieces name.toList = [name.toList] :=
  pieces_of_notMem h.slash

theorem isVoid (h : IsFileName name) : isVoid name.toList = false := by
  have hdot : name.toList ≠ ['.'] := fun heq => h.notHere (String.toList_inj.1 heq)
  simp [Location.isVoid, h.notEmpty, hdot]

theorem names (h : IsFileName name) : names name = [name.toList] := by
  rw [Location.names, h.pieces, named, List.filter_singleton, h.isVoid]
  rfl

end IsFileName

/-- The last name of a file in a directory is that of the file. -/
theorem name?_join (directory : String) {name : String} (h : IsFileName name) :
    name? (join directory name) = some name := by
  have hdots : name.toList ≠ ['.', '.'] := fun heq => h.notAbove (String.toList_inj.1 heq)
  rw [name?_eq, names_join directory h.isAbsolute, h.names, List.getLast?_concat, Option.bind_some,
    if_neg hdots, String.ofList_toList]

/-! ### Putting paths behind each other -/

/-- What comes before a relative path behind a directory. -/
def opening (directory : String) : String :=
  if directory = "" then ""
  else if directory.toList.getLast? = some '/' then directory
  else directory ++ "/"

theorem join_eq (directory : String) {path : String} (h : isAbsolute path = false) :
    join directory path = opening directory ++ path := by
  unfold join opening
  simp only [h, Bool.false_eq_true, false_or, String.isEmpty_iff]
  split_ifs with hempty hlast
  · rw [String.empty_append]
  · rfl
  · rfl

theorem opening_join (directory : String) {name : String} (hne : name ≠ "")
    (hslash : '/' ∉ name.toList) :
    opening (join directory name) = opening directory ++ name ++ "/" := by
  rw [join_eq directory (isAbsolute_eq_false hslash)]
  have hempty : opening directory ++ name ≠ "" := by simp [hne]
  have hlast : (opening directory ++ name).toList.getLast? ≠ some '/' := by
    rw [String.toList_append, List.getLast?_append_of_ne_nil _ (by simpa using hne)]
    exact fun heq => hslash (List.mem_of_getLast? heq)
  generalize opening directory ++ name = joined at hempty hlast ⊢
  rw [opening, if_neg hempty, if_neg hlast]

/-- What stands behind a file name goes along with it. -/
theorem join_append (directory : String) {name : String} (h : IsFileName name) (rest : String) :
    join directory (name ++ rest) = join directory name ++ rest := by
  rw [join_eq _ (h.isAbsolute_append rest), join_eq _ h.isAbsolute, String.append_assoc]

/-- Going along a file name and then along a relative path. -/
theorem join_join (directory : String) {name : String} (h : IsFileName name) {path : String}
    (hpath : isAbsolute path = false) :
    join (join directory name) path = join directory name ++ "/" ++ path := by
  rw [join_eq _ hpath, opening_join _ h.notEmpty h.slash, join_eq _ h.isAbsolute]

/-! ### Texts and their pieces -/

theorem lead_append_drop (cs : List Char) : lead cs ++ cs.drop (lead cs).length = cs := by
  unfold lead
  split <;> rfl

theorem joined_pieces (cs : List Char) : joined (pieces cs) = cs := by
  induction cs with
  | nil => rfl
  | cons c cs ih =>
    by_cases h : c = '/'
    · obtain ⟨first, rest, hcs⟩ := List.exists_cons_of_ne_nil (pieces_ne_nil cs)
      rw [pieces, if_pos h, hcs, joined, List.intercalate_cons_cons, ← joined, ← hcs, ih, h]
      rfl
    · obtain ⟨first, rest, hcs, hpieces⟩ := pieces_cons_of_ne h cs
      rw [hcs] at ih
      rw [hpieces, ← ih]
      cases rest <;> simp [joined, List.intercalate_cons_cons]

@[simp] theorem joined_singleton (piece : List Char) : joined [piece] = piece := by simp [joined]

theorem joined_append {ps qs : List (List Char)} (hps : ps ≠ []) (hqs : qs ≠ []) :
    joined (ps ++ qs) = joined ps ++ '/' :: joined qs := by
  induction ps with
  | nil => exact absurd rfl hps
  | cons first rest ih =>
    cases rest with
    | nil =>
      obtain ⟨next, more, rfl⟩ := List.exists_cons_of_ne_nil hqs
      simp [joined, List.intercalate_cons_cons]
    | cons next more =>
      have ih := ih (List.cons_ne_nil _ _)
      simp only [joined, List.cons_append, List.intercalate_cons_cons] at ih ⊢
      rw [ih]
      simp

theorem lead_cases (cs : List Char) : lead cs = ['/'] ∨ lead cs = ['.'] ∨ lead cs = [] := by
  unfold lead
  split <;> simp

theorem lead_lead (cs : List Char) : lead (lead cs) = lead cs := by
  rcases lead_cases cs with h | h | h <;> rw [h] <;> rfl

/-- What stands before the names is there before the first slash behind it. -/
theorem lead_append_slash {cs : List Char} (h : cs ≠ []) (rest : List Char) :
    lead (cs ++ '/' :: rest) = lead cs := by
  obtain ⟨c, cs, rfl⟩ := List.exists_cons_of_ne_nil h
  by_cases hslash : c = '/'
  · subst hslash
    rfl
  by_cases hdot : c = '.'
  · subst hdot
    rcases cs with _ | ⟨d, cs⟩
    · rfl
    · by_cases hd : d = '/'
      · subst hd
        rfl
      · simp [lead, hd]
  · simp [lead, hslash, hdot]

theorem lead_eq_nil {cs : List Char} (h : '/' ∉ cs) (hdot : cs ≠ ['.']) : lead cs = [] := by
  unfold lead
  split
  · simp at h
  · exact absurd rfl hdot
  · simp at h
  · rfl

/-- The first pieces of a path have the same in front of them. -/
theorem lead_prefix {cs : List Char} {ps : List (List Char)}
    (h : ps <+: pieces (cs.drop (lead cs).length)) : lead (lead cs ++ joined ps) = lead cs := by
  by_cases hps : ps = []
  · subst hps
    simpa [joined] using lead_lead cs
  obtain ⟨rest, hrest⟩ := h
  have htext : lead cs ++ joined (ps ++ rest) = cs := by
    rw [hrest, joined_pieces, lead_append_drop]
  by_cases hne : rest = []
  · rw [hne, List.append_nil] at htext
    rw [htext]
  · rw [joined_append hps hne, ← List.append_assoc] at htext
    by_cases hempty : lead cs ++ joined ps = []
    · -- then the path would begin with a slash, which stands in front
      rw [hempty, List.nil_append] at htext
      rw [← htext] at hempty
      cases hempty
    · exact (lead_append_slash hempty _).symm.trans (congrArg lead htext)

/-! ### Directories without an end that does not count -/

/-- The text is what stands before its names, and then the pieces up to the last name. -/
def IsTrimmed (path : String) : Prop :=
  lead path.toList ++ joined (backwards path.toList).reverse = path.toList

theorem isTrimmed_empty : IsTrimmed "" := rfl

/-- A directory that is found by cutting off a name is trimmed. -/
theorem isTrimmed_parent (path : String) : IsTrimmed (parent path) := by
  rcases backwards_cases path with ⟨hback, -⟩ | ⟨last, outer, hback, -⟩
  · have hparent : parent path = "" := by
      simp only [parent, parent?, hback]
      split <;> rfl
    rw [hparent]
    exact isTrimmed_empty
  · have hparent : (parent path).toList =
        lead path.toList ++ joined (outer.dropWhile isVoid).reverse := by
      simp [parent, parent?, hback]
    have hfirst := outer_prefix hback
    have hlead := lead_prefix hfirst
    have hback' : backwards (parent path).toList = outer.dropWhile isVoid := by
      rw [hparent, backwards, hlead, List.drop_left]
      by_cases hnil : outer.dropWhile isVoid = []
      · rw [hnil]
        rfl
      · rw [pieces_joined (by simpa using hnil) fun piece hpiece =>
            slash_notMem_of_mem_pieces (hfirst.mem hpiece),
          List.reverse_reverse, List.dropWhile_idempotent]
    rw [IsTrimmed, hback', hparent, hlead]

namespace IsTrimmed

variable {directory name : String}

/-- There is no slash at the end, unless this is all. -/
theorem eq_of_getLast? (h : IsTrimmed directory) (hlast : directory.toList.getLast? = some '/') :
    directory = "/" := by
  rcases backwards_cases directory with ⟨hback, -⟩ | ⟨last, outer, hback, hnames⟩
  · have htext : lead directory.toList = directory.toList := by
      have htext := h
      rw [IsTrimmed, hback] at htext
      simpa [joined] using htext
    rw [← htext] at hlast
    rcases lead_cases directory.toList with hlead | hlead | hlead
    · exact String.toList_inj.1 (htext.symm.trans hlead)
    · rw [hlead] at hlast
      cases hlast
    · rw [hlead] at hlast
      cases hlast
  · -- A trimmed text ends with its last name, which has no slash.
    exfalso
    have hmem : last ∈ names directory := by simp [hnames]
    obtain ⟨hpiece, hvoid⟩ := List.mem_filter.1 hmem
    have hne : last ≠ [] := by
      rintro rfl
      cases hvoid
    have htext := h
    rw [IsTrimmed, hback, List.reverse_cons] at htext
    have hend : (joined (outer.reverse ++ [last])).getLast? = last.getLast? := by
      by_cases hnil : outer.reverse = []
      · rw [hnil]
        simp [joined]
      · have hslash : joined outer.reverse ++ '/' :: last =
            (joined outer.reverse ++ ['/']) ++ last := by simp
        rw [joined_append hnil (List.cons_ne_nil _ _), joined_singleton, hslash,
          List.getLast?_append_of_ne_nil _ hne]
    have hlast' : last.getLast? = some '/' := by
      rw [← hend]
      rw [← htext, List.getLast?_append_of_ne_nil] at hlast
      · exact hlast
      · rw [Ne, ← List.getLast?_eq_none_iff, hend, List.getLast?_eq_none_iff]
        exact hne
    exact slash_notMem_of_mem_pieces hpiece (List.mem_of_getLast? hlast')

/-- Where a file in a directory is. -/
theorem join_cases (h : IsTrimmed directory) (hname : IsFileName name) :
    (directory = "" ∧ join directory name = name) ∨
    (directory = "/" ∧ (join directory name).toList = '/' :: name.toList) ∨
    (directory.toList ≠ [] ∧
      (join directory name).toList = directory.toList ++ '/' :: name.toList) := by
  by_cases hempty : directory = ""
  · exact .inl ⟨hempty, by simp [join, hempty]⟩
  by_cases hlast : directory.toList.getLast? = some '/'
  · have hroot := h.eq_of_getLast? hlast
    exact .inr (.inl ⟨hroot, by simp [join, hroot, hname.isAbsolute]⟩)
  · exact .inr (.inr ⟨by simpa using hempty, by simp [join, hempty, hlast, hname.isAbsolute]⟩)

end IsTrimmed

/-- A path that ends with a file name, taken apart from its end. -/
theorem backwards_append {cs : List Char} (h : cs ≠ []) {name : String} (hname : IsFileName name) :
    backwards (cs ++ '/' :: name.toList) =
      name.toList :: (pieces (cs.drop (lead cs).length)).reverse := by
  have hdrop : (cs ++ '/' :: name.toList).drop (lead cs).length =
      cs.drop (lead cs).length ++ '/' :: name.toList := by
    have hle : (lead cs).length ≤ cs.length := by
      have := congrArg List.length (lead_append_drop cs)
      simp at this
      omega
    exact List.drop_append_of_le_length hle
  rw [backwards, lead_append_slash h, hdrop, pieces_append, hname.pieces, List.reverse_append,
    List.reverse_singleton, List.singleton_append,
    List.dropWhile_cons_of_neg (by simp [hname.isVoid])]

theorem backwards_name {name : String} (hname : IsFileName name) :
    lead name.toList = [] ∧ backwards name.toList = [name.toList] := by
  have hlead : lead name.toList = [] :=
    lead_eq_nil hname.slash fun heq => hname.notHere (String.toList_inj.1 heq)
  refine ⟨hlead, ?_⟩
  rw [backwards, hlead, List.length_nil, List.drop_zero, hname.pieces, List.reverse_singleton,
    List.dropWhile_cons_of_neg (by simp [hname.isVoid])]

theorem backwards_slash_name {name : String} (hname : IsFileName name) :
    backwards ('/' :: name.toList) = [name.toList] := by
  have hdrop : ('/' :: name.toList).drop (lead ('/' :: name.toList)).length = name.toList := rfl
  rw [backwards, hdrop, hname.pieces, List.reverse_singleton,
    List.dropWhile_cons_of_neg (by simp [hname.isVoid])]

section Join

variable {directory name : String} (h : IsTrimmed directory) (hname : IsFileName name)
include h hname

/-- The directory of a file is the one it was put into. -/
theorem parent_join : parent (join directory name) = directory := by
  rcases h.join_cases hname with ⟨rfl, hjoin⟩ | ⟨rfl, hjoin⟩ | ⟨hne, hjoin⟩
  · obtain ⟨hlead, hback⟩ := backwards_name hname
    simp [parent, parent?, hjoin, hlead, hback, joined]
  · simp [parent, parent?, hjoin, backwards_slash_name hname, joined, lead]
  · have htrim : lead directory.toList ++ joined
        ((pieces (directory.toList.drop (lead directory.toList).length)).reverse.dropWhile
          isVoid).reverse = directory.toList := h
    simp only [parent, parent?, hjoin, backwards_append hne hname, lead_append_slash hne, htrim,
      String.ofList_toList, Option.getD_some]

/-- A file in a directory could be a directory itself. -/
theorem isTrimmed_join : IsTrimmed (join directory name) := by
  rcases h.join_cases hname with ⟨rfl, hjoin⟩ | ⟨rfl, hjoin⟩ | ⟨hne, hjoin⟩
  · obtain ⟨hlead, hback⟩ := backwards_name hname
    rw [IsTrimmed, hjoin, hlead, hback]
    simp [joined]
  · rw [IsTrimmed, hjoin, backwards_slash_name hname]
    simp [joined, lead]
  · rw [IsTrimmed, hjoin, backwards_append hne hname, lead_append_slash hne, List.reverse_cons,
      List.reverse_reverse, joined_append (pieces_ne_nil _) (List.cons_ne_nil _ _), joined_pieces,
      ← List.append_assoc, lead_append_drop]
    simp [joined]

end Join

end DescriptionLookup.Location
