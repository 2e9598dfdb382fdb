import DescriptionLookup.Proofs.AcceptedGenerics
import DescriptionLookup.Proofs.PrintedTrees

/-!
# Printed parameters

Parameters, arguments and predicates that consist of names are read as they were printed, and what
is printed for all the parameters of an enum has its commas where the grammar wants them.

* `IsPhrase`: trees that are read as they were printed, also in front of a mark;
* `commaSeparated_lifetimesFirst`: the commas among entries in angle brackets;
* `Generics.IsPlain`, `cut_angled`: parameters that are made of names, and how they are printed.
-/

namespace DescriptionLookup

open Grammar TokenTree Lexeme Token Text

variable {trees : List TokenTree} {names : List String} {name : String}

/-! ### Phrases -/

theorem IsPrinted.append {behind : List TokenTree} (h : IsPrinted trees)
    (hbehind : IsPrinted behind) : IsPrinted (trees ++ behind) := by
  induction h with
  | nil => exact hbehind
  | word hname _ ih => exact .word hname ih
  | mark hc _ ih => exact .mark hc ih
  | joint hc hd _ ih => exact .joint hc hd ih
  | lifetime hname _ ih => exact .lifetime hname ih
  | literal value _ ih => exact .literal value ih
  | group d hcontent _ _ ih => exact .group d hcontent ih

/-- Trees that are read as they were printed, also where a mark follows without a gap. -/
structure IsPhrase (trees : List TokenTree) : Prop where
  printed : IsPrinted trees
  last : ∃ before name, trees = before ++ [ofWord name]

namespace IsPhrase

theorem stops (h : IsPhrase trees) {d : Char} (hd : d ∈ wordStops) (rest : List Char) :
    Stops trees (d :: rest) := by
  obtain ⟨before, name, rfl⟩ := h.last
  rintro d' hd'
  cases hd'
  refine ⟨hd, fun _ tree htree => ?_⟩
  rw [List.getLast?_concat] at htree
  cases htree
  rfl

theorem word (h : isWord name.toList = true) : IsPhrase [ofWord name] :=
  ⟨.word h .nil, [], name, rfl⟩

theorem behind {before : List TokenTree} (h : IsPhrase trees) (hbefore : IsPrinted before) :
    IsPhrase (before ++ trees) := by
  obtain ⟨first, name, rfl⟩ := h.last
  exact ⟨hbefore.append h.printed, before ++ first, name, (List.append_assoc ..).symm⟩

theorem behindMark {c : Char} (hc : c ∈ Cut.plainMarks) (h : IsPhrase trees) :
    IsPhrase (ofMark c :: trees) := h.behind (.mark hc .nil)

theorem path {first : String} (hfirst : isWord first.toList = true)
    (hnames : ∀ name ∈ names, isWord name.toList = true) :
    IsPhrase (ofWord first :: Grammar.separated names) := by
  induction names generalizing first with
  | nil => exact word hfirst
  | cons next names ih =>
    obtain ⟨hnext, hnames⟩ := List.forall_mem_cons.1 hnames
    exact (ih hnext hnames).behind
      (.word hfirst (.joint (by decide) (by decide) (.mark (by decide) .nil)))

end IsPhrase

theorem Grammar.IsLifetime.isPhrase (h : IsLifetime trees) : IsPhrase trees := by
  obtain @⟨name, hname⟩ := h
  exact ⟨.lifetime hname .nil, [ofJoint '\x27'], name, rfl⟩

theorem Grammar.IsNamePath.isPhrase (h : IsNamePath trees) : IsPhrase trees := by
  cases h with
  | relative hname hnames =>
    exact .path hname.isPathName.isWord fun name h => (hnames name h).isWord
  | absolute hname hnames =>
    exact (IsPhrase.path hname.isWord fun name h => (hnames name h).isWord).behind
      (.joint (by decide) (by decide) (.mark (by decide) .nil))

theorem Grammar.IsPlainBound.isPhrase (h : IsPlainBound trees) : IsPhrase trees := by
  cases h with
  | lifetime h => exact h.isPhrase
  | trait h => exact h.isPhrase
  | relaxed h => exact h.isPhrase.behindMark (by decide)

theorem Grammar.PlusSeparated.isPhrase {P : List TokenTree → Prop}
    (hP : ∀ {phrase}, P phrase → IsPhrase phrase)
    (h : PlusSeparated P trees) : IsPhrase trees := by
  induction h with
  | last h => exact hP h
  | cons h _ ih => exact (ih.behindMark (by decide)).behind (hP h).printed

theorem Grammar.IsPlainParam.isPhrase (h : IsPlainParam trees) : IsPhrase trees := by
  have hword : ∀ {name : String}, isIdentifier name = true → isWord name.toList = true :=
    fun h => IsPathName.isWord (.inl h)
  cases h with
  | lifetime h => exact h.isPhrase
  | boundedLifetime h hbounds =>
    exact ((hbounds.isPhrase IsLifetime.isPhrase).behindMark (by decide)).behind h.isPhrase.printed
  | type hname => exact .word (hword hname)
  | boundedType hname hbounds =>
    exact ((hbounds.isPhrase IsPlainBound.isPhrase).behindMark (by decide)).behind
      (.word (hword hname) .nil)
  | const hname hfirst hnames =>
    have hconst : isWord "const".toList = true := by decide +kernel
    exact (IsPhrase.path hfirst.isPathName.isWord fun name h => (hnames name h).isWord).behind
      (.word hconst (.word (hword hname) (.mark (by decide) .nil)))

theorem Grammar.IsPlainArgument.isPhrase (h : IsPlainArgument trees) : IsPhrase trees := by
  cases h with
  | lifetime h => exact h.isPhrase
  | type hname => exact .word (IsPathName.isWord (.inl hname))

theorem Grammar.IsPlainPredicate.isPhrase (h : IsPlainPredicate trees) : IsPhrase trees := by
  cases h with
  | lifetime h hbounds =>
    exact ((hbounds.isPhrase IsLifetime.isPhrase).behindMark (by decide)).behind h.isPhrase.printed
  | type hname hnames hbounds =>
    have hpath := IsPhrase.path hname.isPathName.isWord fun name h => (hnames name h).isWord
    exact ((hbounds.isPhrase IsPlainBound.isPhrase).behindMark (by decide)).behind hpath.printed

theorem Grammar.CommaSeparated.isPrinted {P : List TokenTree → Prop}
    (hP : ∀ {phrase}, P phrase → IsPhrase phrase) (h : CommaSeparated P trees) :
    IsPrinted trees := by
  induction h with
  | nil => exact .nil
  | last h => exact (hP h).printed
  | cons h _ ih => exact (hP h).printed.append (.mark (by decide) ih)

/-! ### Entries in angle brackets -/

section Entries

variable {P : List TokenTree → Prop} {entries : List AngleEntry}

theorem commaSeparated_append (h : ∀ e ∈ entries, P e.tokens) (hrest : CommaSeparated P trees) :
    CommaSeparated P (entries.flatMap (fun e => e.tokens ++ [commaToken]) ++ trees) := by
  induction entries with
  | nil => exact hrest
  | cons e entries ih =>
    obtain ⟨he, hentries⟩ := List.forall_mem_cons.1 h
    rw [List.flatMap_cons, List.append_assoc, List.append_assoc]
    exact .cons he (ih hentries)

theorem commaSeparated_withComma (h : ∀ e ∈ entries, P e.tokens)
    (hcommas : entries.Pairwise fun e _ => e.comma = true) :
    CommaSeparated P (entries.flatMap AngleEntry.withComma) := by
  induction entries with
  | nil => exact .nil
  | cons e entries ih =>
    obtain ⟨he, hentries⟩ := List.forall_mem_cons.1 h
    obtain ⟨hcomma, hcommas⟩ := List.pairwise_cons.1 hcommas
    rw [List.flatMap_cons, AngleEntry.withComma]
    cases hlast : e.comma with
    | true =>
      rw [if_pos rfl, List.append_assoc]
      exact .cons he (ih hentries hcommas)
    | false =>
      cases entries with
      | nil => simpa using .last he
      | cons next entries =>
        rw [hcomma next List.mem_cons_self] at hlast
        cases hlast

/-- With the separator, a comma stands behind each of the entries. -/
theorem flatMap_withComma_append (hcommas : entries.Pairwise fun e _ => e.comma = true) :
    entries.flatMap AngleEntry.withComma ++
        (if entries.getLast?.all (·.comma) then [] else [commaToken]) =
      entries.flatMap fun e => e.tokens ++ [commaToken] := by
  induction entries with
  | nil => rfl
  | cons e entries ih =>
    obtain ⟨hcomma, hcommas⟩ := List.pairwise_cons.1 hcommas
    cases entries with
    | nil => cases h : e.comma <;> simp [AngleEntry.withComma, h]
    | cons next entries =>
      have hnext := hcomma next List.mem_cons_self
      rw [List.getLast?_cons_cons, List.flatMap_cons, List.append_assoc, ih hcommas,
        AngleEntry.withComma, if_pos hnext]
      rfl

/-- Where a comma stands behind each entry but the last, one stands between any two of them when the
lifetimes come first. -/
theorem commaSeparated_lifetimesFirst (h : ∀ e ∈ entries, P e.tokens)
    (hcommas : entries.Pairwise fun e _ => e.comma = true) :
    CommaSeparated P (lifetimesFirst entries) := by
  have hlifetimes := hcommas.filter (·.isLifetime)
  have hothers := hcommas.filter (!·.isLifetime)
  have hmem : ∀ {p : AngleEntry → Bool}, ∀ e ∈ entries.filter p, P e.tokens :=
    fun e he => h e (List.mem_filter.1 he).1
  unfold lifetimesFirst
  dsimp only
  -- Behind the last lifetime a comma is missing only if nothing follows it.
  by_cases hnil : entries.filter (!·.isLifetime) = []
  · rw [hnil]
    simpa using commaSeparated_withComma hmem hlifetimes
  · have hempty : (entries.filter (!·.isLifetime)).isEmpty = false := by simpa using hnil
    rw [hempty, Bool.or_false, flatMap_withComma_append hlifetimes]
    exact commaSeparated_append hmem (commaSeparated_withComma hmem hothers)

theorem placelessAll_lifetimesFirst (entries : List AngleEntry) :
    placelessAll (lifetimesFirst entries) =
      lifetimesFirst (entries.map fun e => { e with tokens := placelessAll e.tokens }) := by
  have hwithComma : ∀ entries : List AngleEntry,
      placelessAll (entries.flatMap AngleEntry.withComma) =
        (entries.map fun e => { e with tokens := placelessAll e.tokens }).flatMap
          AngleEntry.withComma := by
    intro entries
    rw [placelessAll_flatMap, List.flatMap_map]
    congr 1
    funext e
    cases h : e.comma <;> simp [AngleEntry.withComma, h, placelessAll, TokenTree.placeless,
      commaToken]
  unfold lifetimesFirst
  simp only [placelessAll_append, hwithComma, List.filter_map, Function.comp_def, List.getLast?_map,
    Option.all_map, List.isEmpty_map]
  congr 2
  split <;> rfl

end Entries

/-! ### Parameters of an enum -/

/-- Parameters that are declared by names only, and handed on so; a comma stands behind each but the
last. -/
structure Generics.IsPlain (g : Generics) : Prop where
  declared : ∀ p ∈ g, IsPlainParam (placelessAll p.declared)
  name : ∀ p ∈ g, IsPlainArgument (placelessAll p.name)
  commas : g.Pairwise fun p _ => p.comma = true

namespace Generics

variable {g : Generics}

/-- What stands between the angles where the parameters are declared. -/
def declaredTokens (g : Generics) : List TokenTree :=
  placelessAll (lifetimesFirst (g.map fun p => ⟨p.kind == .lifetime, p.declared, p.comma⟩))

/-- What stands between the angles where the parameters are handed on. -/
def argumentTokens (g : Generics) : List TokenTree :=
  placelessAll (lifetimesFirst (g.map fun p => ⟨p.kind == .lifetime, p.name, p.comma⟩))

theorem IsPlain.declaredTokens (h : g.IsPlain) : CommaSeparated IsPlainParam g.declaredTokens := by
  rw [Generics.declaredTokens, placelessAll_lifetimesFirst, List.map_map]
  refine commaSeparated_lifetimesFirst (List.forall_mem_map.2 h.declared) ?_
  exact List.pairwise_map.2 h.commas

theorem IsPlain.argumentTokens (h : g.IsPlain) : ArePlainArguments g.argumentTokens := by
  rw [Generics.argumentTokens, placelessAll_lifetimesFirst, List.map_map]
  refine commaSeparated_lifetimesFirst (List.forall_mem_map.2 h.name) ?_
  exact List.pairwise_map.2 h.commas

end Generics

/-- Phrases in angle brackets are read as they were printed, in front of a blank or at the end. -/
theorem cut_angled {P : List TokenTree → Prop} (hP : ∀ {phrase}, P phrase → IsPhrase phrase)
    {entries : List AngleEntry} (h : CommaSeparated P (placelessAll (lifetimesFirst entries)))
    {rest : List Char} {more : List Lexeme} (hblank : ∀ d ∈ rest.head?, d = ' ')
    (hrest : Cut rest more) :
    Cut ((TokenTree.text (angled entries)).toList ++ rest)
      (lexemesAll (ofMark '<' :: (placelessAll (lifetimesFirst entries) ++ [ofMark '>'])) ++
        more) := by
  have hprinted : IsPrinted
      (ofMark '<' :: (placelessAll (lifetimesFirst entries) ++ [ofMark '>'])) :=
    .mark (by decide) ((h.isPrinted hP).append (.mark (by decide) .nil))
  have htokens : placelessAll (angled entries) =
      ofMark '<' :: (placelessAll (lifetimesFirst entries) ++ [ofMark '>']) := by
    simp [angled, placelessAll, TokenTree.placeless]
  have hstops : ∀ trees, Stops trees rest := by
    intro trees d hd
    obtain rfl := hblank d hd
    exact Stops.of_blank trees [] ' ' rfl
  rw [← text_placelessAll, htokens, TokenTree.text, String.toList_ofList]
  exact hprinted.cut (hstops _) hrest

/-- An angle ends the word in front of it. -/
theorem mem_wordStops_of_angled (entries : List AngleEntry) (rest : List Char) :
    ∀ d ∈ ((TokenTree.text (angled entries)).toList ++ rest).head?, d ∈ wordStops := by
  obtain ⟨more, hmore⟩ := exists_printAll_cons (ofMark '<')
    (lifetimesFirst entries ++ [.mark '>' false .start])
  have htext : (TokenTree.text (angled entries)).toList = '<' :: more := by
    rw [TokenTree.text, String.toList_ofList, angled, List.append_assoc, List.singleton_append,
      hmore]
    rfl
  rw [htext]
  simp [wordStops]

end DescriptionLookup
