import DescriptionLookup.Proofs.WrittenPaths
import Mathlib.Data.List.DropRight
import Mathlib.Data.List.SplitBy

/-!
# Printing module paths

Reading a module path is lenient, so that many texts denote one path. What reading answers is plain,
as long as colons come in pairs: its names have no colons and no white space around them, and the
word `crate` is not the first of them. A plain path is printed as a text that denotes it again.

* `Text.IsTrimmed`: texts that trimming leaves alone, and what trimming makes of any text;
* `pieces_append`: what stands before the first colon of a text belongs to its first piece;
* `HasPairedColons.notMem_of_mem_pieces`: where colons come in pairs, no piece has one;
* `IsPlain.parse_text`, `isPlain_parse`: plain paths are read as they are, and only plain paths are
  read where colons come in pairs;
* `parse_written`: the two together.
-/

namespace DescriptionLookup

theorem eq_false_of_mem_head?_dropWhile {α : Type} (p : α → Bool) {l : List α} {x : α}
    (h : x ∈ (l.dropWhile p).head?) : p x = false := by
  have hnot := List.head?_dropWhile_not p l
  rwa [Option.mem_def.1 h] at hnot

/-! ### White space at the ends -/

namespace Text

/-- Neither the first character nor the last one is white space. -/
structure IsTrimmed (cs : List Char) : Prop where
  front : cs.head?.any isWhiteSpace = false
  back : cs.getLast?.any isWhiteSpace = false

instance (cs : List Char) : Decidable (IsTrimmed cs) :=
  decidable_of_iff (_ ∧ _) ⟨fun h => ⟨h.1, h.2⟩, fun h => ⟨h.front, h.back⟩⟩

variable {cs : List Char}

theorem isPrefix_trim (cs : List Char) : trim cs <+: cs.dropWhile isWhiteSpace :=
  List.rdropWhile_prefix _ _

theorem trim_subset (cs : List Char) : trim cs ⊆ cs :=
  ((isPrefix_trim cs).sublist.trans (List.dropWhile_sublist _)).subset

theorem IsTrimmed.trim_eq (h : IsTrimmed cs) : trim cs = cs := by
  have hfront : cs.dropWhile isWhiteSpace = cs := by
    cases cs with
    | nil => rfl
    | cons c cs => exact List.dropWhile_cons_of_neg (Bool.eq_false_iff.1 h.front)
  show (cs.dropWhile isWhiteSpace).rdropWhile isWhiteSpace = cs
  rw [hfront, List.rdropWhile_eq_self_iff]
  intro hne
  have hback := h.back
  rw [List.getLast?_eq_some_getLast hne] at hback
  exact Bool.eq_false_iff.1 hback

theorem isTrimmed_trim (cs : List Char) : IsTrimmed (trim cs) := by
  constructor
  · rw [Option.any_eq_false]
    intro c hc
    obtain ⟨behind, hbehind⟩ := isPrefix_trim cs
    refine eq_false_of_mem_head?_dropWhile isWhiteSpace (l := cs) ?_
    rw [← hbehind, List.head?_append, hc]
    rfl
  · rw [Option.any_eq_false]
    intro c hc
    have hne : trim cs ≠ [] := List.ne_nil_of_mem (List.mem_of_getLast? hc)
    rw [← List.getLast_of_mem_getLast? hc, ← Bool.not_eq_true]
    exact List.rdropWhile_last_not _ _ hne

end Text

namespace ModulePath

/-! ### Pieces -/

theorem pieces_separator (rest : List Char) : pieces (':' :: ':' :: rest) = [] :: pieces rest := by
  rw [pieces]

theorem pieces_ne_nil (cs : List Char) : pieces cs ≠ [] := by
  fun_cases pieces cs <;> simp

/-- What stands before the first colon of a text belongs to its first piece. -/
theorem pieces_append {cs rest piece : List Char} {more : List (List Char)} (h : ':' ∉ cs)
    (hrest : pieces rest = piece :: more) : pieces (cs ++ rest) = (cs ++ piece) :: more := by
  induction cs with
  | nil => exact hrest
  | cons c cs ih =>
    obtain ⟨hc, hcs⟩ := not_or.1 (mt List.mem_cons.2 h)
    rw [List.cons_append, pieces, ih hcs]
    · rfl
    · exact fun _ hcolon _ => hc hcolon.symm

/-- Names without colons are the pieces of a text in which separators stand between them. -/
theorem pieces_separated {first : List Char} {names : List String} (hfirst : ':' ∉ first)
    (hnames : ∀ name ∈ names, ':' ∉ name.toList) :
    pieces (first ++ (separated names).toList) = first :: names.map String.toList := by
  induction names generalizing first with
  | nil => simpa [separated] using pieces_append hfirst (show pieces [] = [[]] from rfl)
  | cons name names ih =>
    obtain ⟨hname, hnames⟩ := List.forall_mem_cons.1 hnames
    rw [Lexeme.toList_separated_cons, pieces_append hfirst (pieces_separator _), ih hname hnames,
      List.append_nil, List.map_cons]

/-- Every run of colons in the text consists of two of them. -/
def HasPairedColons (text : List Char) : Prop :=
  ∀ run ∈ text.splitBy (· == ·), ':' ∈ run → run.length = 2

instance (text : List Char) : Decidable (HasPairedColons text) :=
  inferInstanceAs (Decidable (∀ run ∈ _, _))

/-- A text is put together from runs without colons and from separators. Then no piece has a
colon, wherever the runs stand. -/
theorem colon_notMem_of_mem_pieces_flatten {runs : List (List Char)}
    (h : ∀ run ∈ runs, ':' ∈ run → run = [':', ':']) :
    ∀ piece ∈ pieces runs.flatten, ':' ∉ piece := by
  induction runs with
  | nil => simp [pieces]
  | cons run runs ih =>
    obtain ⟨hrun, hruns⟩ := List.forall_mem_cons.1 h
    have ih := ih hruns
    rw [List.flatten_cons]
    -- A separator is cut off as a whole; a run without colons makes the first piece longer.
    by_cases hcolon : ':' ∈ run
    · rw [hrun hcolon]
      exact List.forall_mem_cons.2 ⟨List.not_mem_nil, ih⟩
    · obtain ⟨piece, more, hpieces⟩ := List.exists_cons_of_ne_nil (pieces_ne_nil runs.flatten)
      rw [hpieces, List.forall_mem_cons] at ih
      rw [pieces_append hcolon hpieces]
      exact List.forall_mem_cons.2 ⟨List.not_mem_append hcolon ih.1, ih.2⟩

theorem HasPairedColons.notMem_of_mem_pieces {text : List Char} (h : HasPairedColons text) :
    ∀ piece ∈ pieces text, ':' ∉ piece := by
  rw [← List.flatten_splitBy (· == ·) text]
  refine colon_notMem_of_mem_pieces_flatten fun run hrun hcolon => ?_
  obtain ⟨c, d, rfl⟩ := List.length_eq_two.1 (h run hrun hcolon)
  have hsame : c = d := by simpa using List.isChain_of_mem_splitBy hrun
  subst hsame
  have hc : ':' = c := by simpa using hcolon
  rw [hc]

/-! ### Plain paths -/

/-- A name that is read as it is spelled: it is not empty, and has no colon and no white space at
its ends. -/
structure IsPlainName (name : String) : Prop where
  nonempty : name ≠ ""
  colonless : ':' ∉ name.toList
  trimmed : Text.IsTrimmed name.toList

instance (name : String) : Decidable (IsPlainName name) :=
  decidable_of_iff (_ ∧ _ ∧ _)
    ⟨fun h => ⟨h.1, h.2.1, h.2.2⟩, fun h => ⟨h.nonempty, h.colonless, h.trimmed⟩⟩

/-- All names of the path are plain, and the first one is not the word `crate`. -/
structure IsPlain (module : ModulePath) : Prop where
  names : ∀ name ∈ module.segments, IsPlainName name
  first : module.segments.head? ≠ some "crate"

instance (module : ModulePath) : Decidable module.IsPlain :=
  decidable_of_iff (_ ∧ _) ⟨fun h => ⟨h.1, h.2⟩, fun h => ⟨h.names, h.first⟩⟩

theorem IsPlainName.isEmpty_toList {name : String} (h : IsPlainName name) :
    name.toList.isEmpty = false := by
  rw [List.isEmpty_eq_false_iff, Ne, String.toList_eq_nil_iff]
  exact h.nonempty

/-- What trimming leaves of a piece without colons is a plain name, if it leaves anything. -/
theorem isPlainName_trim {piece : List Char} (hcolon : ':' ∉ piece) (hne : Text.trim piece ≠ []) :
    IsPlainName (String.ofList (Text.trim piece)) where
  nonempty h := hne (String.ofList_eq_empty_iff.1 h)
  colonless := by
    rw [String.toList_ofList]
    exact fun h => hcolon (Text.trim_subset piece h)
  trimmed := by
    rw [String.toList_ofList]
    exact Text.isTrimmed_trim piece

/-! ### Reading what is written -/

/-- Pieces that are plain names are read as they are. -/
theorem parse_of_pieces {text : String} {names : List String}
    (hpieces : pieces text.toList = names.map String.toList)
    (hplain : ∀ name ∈ names, IsPlainName name) :
    parse text = ⟨names.dropWhile (· == "crate")⟩ := by
  have htrim : (names.map String.toList).map Text.trim = names.map String.toList := by
    rw [List.map_map]
    exact List.map_congr_left fun name hname => (hplain name hname).trimmed.trim_eq
  have hfilter : (names.map String.toList).filter (fun piece => !piece.isEmpty) =
      names.map String.toList := by
    rw [List.filter_eq_self, List.forall_mem_map]
    intro name hname
    rw [(hplain name hname).isEmpty_toList, Bool.not_false]
  have hofList : (names.map String.toList).map String.ofList = names := by
    simp [Function.comp_def]
  rw [parse, hpieces, htrim, hfilter, hofList]

/-- The printed form of a plain path denotes the path. -/
theorem IsPlain.parse_text {module : ModulePath} (h : module.IsPlain) :
    parse module.text = module := by
  have hcrate : IsPlainName "crate" := by decide
  have hpieces : pieces module.text.toList = ("crate" :: module.segments).map String.toList := by
    rw [text, String.toList_append]
    exact pieces_separated hcrate.colonless fun name hname => (h.names name hname).colonless
  have hnames : module.segments.dropWhile (· == "crate") = module.segments := by
    obtain ⟨_ | ⟨name, rest⟩⟩ := module
    · rfl
    · have hname : name ≠ "crate" := fun hname => h.first (congrArg some hname)
      exact List.dropWhile_cons_of_neg (by simpa using hname)
  rw [parse_of_pieces hpieces (List.forall_mem_cons.2 ⟨hcrate, h.names⟩),
    List.dropWhile_cons_of_pos rfl, hnames]

/-- A text whose colons come in pairs denotes a plain path. -/
theorem isPlain_parse {text : String} (h : HasPairedColons text.toList) :
    (parse text).IsPlain where
  names name hname := by
    obtain ⟨cs, hcs, rfl⟩ := List.mem_map.1 ((List.dropWhile_sublist _).subset hname)
    obtain ⟨htrimmed, hne⟩ := List.mem_filter.1 hcs
    obtain ⟨piece, hpiece, rfl⟩ := List.mem_map.1 htrimmed
    exact isPlainName_trim (h.notMem_of_mem_pieces piece hpiece) (by simpa using hne)
  first hfirst := by
    have hnot : ("crate" == "crate") = false :=
      eq_false_of_mem_head?_dropWhile (· == "crate") hfirst
    cases hnot

/-- Module paths survive printing.

A plain path is the one that its printed form denotes, so that no two plain paths are printed alike.
Where the colons of a text come in pairs, the path that it denotes is printed as a text that denotes
the same. -/
theorem parse_written :
    (∀ module : ModulePath, module.IsPlain → parse module.text = module) ∧
    (∀ module other : ModulePath, module.IsPlain → other.IsPlain → module ≠ other →
      module.text ≠ other.text) ∧
    ∀ text : String, HasPairedColons text.toList → parse (parse text).text = parse text := by
  refine ⟨fun module => IsPlain.parse_text, fun module other hmodule hother hne htext => hne ?_,
    fun text htext => (isPlain_parse htext).parse_text⟩
  rw [← hmodule.parse_text, htext, hother.parse_text]

/-- The paths differ in the spelling of one name, and have the word `crate` for another. The text has
blanks of three kinds, an empty name, and the word `crate` twice in front. -/
theorem parse_written_of_blanks :
    let module : ModulePath := ⟨["net", "r#mod", "crate"]⟩
    let other : ModulePath := ⟨["net", "mod", "crate"]⟩
    let text := " crate ::crate:: \u3000net\u00a0:: ::r#mod::crate"
    (module.IsPlain ∧ other.IsPlain ∧ module ≠ other ∧ HasPairedColons text.toList) ∧
      parse module.text = module ∧ module.text ≠ other.text ∧
      parse (parse text).text = parse text ∧ parse text = module := by
  intro module other text
  have hmodule : module.IsPlain := by decide
  have hother : other.IsPlain := by decide
  have hne : module ≠ other := by decide
  have htext : HasPairedColons text.toList := by decide
  exact ⟨⟨hmodule, hother, hne, htext⟩, parse_written.1 module hmodule,
    parse_written.2.1 module other hmodule hother hne, parse_written.2.2 text htext, by decide⟩

/-- A colon that stands alone may end up in front of a separator, where it is taken for a part of
it. -/
example : parse "a: :: b" = ⟨["a:", "b"]⟩ ∧ parse (parse "a: :: b").text = ⟨["a", ":b"]⟩ := by
  decide

end ModulePath

end DescriptionLookup
