import DescriptionLookup.Proofs.LexedTrees

/-!
# Respaced trees

Trees that were read from a text are read again from their printed form. There a word, a literal and
a mark that is not joint have a blank or the end of their group behind them; a joint mark stands
right in front of the token that it goes on with, as it did in the text.

* `Stops`: what may follow the printed form;
* `IsLexed.cut`: what the printed form is read as;
* `exists_ofText_attribute`: the same between the brackets of an attribute.
-/

namespace DescriptionLookup

open Grammar TokenTree Lexeme Token Text

/-- What follows the printed trees goes on with neither the last word nor the last operator. -/
def Stops (trees : List TokenTree) (rest : List Char) : Prop :=
  ∀ d ∈ rest.head?, d ∈ wordStops ∧
    (isMark d = true → ∀ tree ∈ trees.getLast?, tree.isPunctuation = false)

namespace Stops

variable {trees : List TokenTree} {tree next : TokenTree} {rest : List Char} {d : Char}

theorem of_blank (trees : List TokenTree) (rest : List Char) : Stops trees (' ' :: rest) := by
  have hblank : isMark ' ' = false := by decide
  rintro d hd
  cases hd
  exact ⟨by decide, by simp [hblank]⟩

theorem of_closing (hd : d ∈ [')', ']']) (trees : List TokenTree) (rest : List Char) :
    Stops trees (d :: rest) := by
  have hall : ∀ d ∈ [')', ']'], d ∈ wordStops ∧ isMark d = false :=
    List.all_iff_forall_prop.1 (by decide)
  rintro d' hd'
  cases hd'
  exact ⟨(hall d hd).1, by simp [(hall d hd).2]⟩

theorem wordStops (h : Stops trees rest) : ∀ d ∈ rest.head?, d ∈ wordStops := fun d hd => (h d hd).1

theorem head?_ne (h : Stops trees rest) (hd : d ∉ DescriptionLookup.Token.wordStops) :
    rest.head? ≠ some d := fun hhead => hd (h d hhead).1

theorem tail (h : Stops (tree :: next :: trees) rest) : Stops (next :: trees) rest := by
  simpa only [Stops, List.getLast?_cons_cons] using h

/-- A mark in front of a stop is not joint. -/
theorem mark?_eq_none {c : Char} {joint : Bool} {pos : Position}
    (h : Stops [.mark c joint pos] rest) : mark? rest = none := by
  cases rest with
  | nil => rfl
  | cons d rest =>
    refine Option.not_isSome_iff_eq_none.1 ?_
    rw [Cut.isSome_mark?_of_not (Bool.eq_false_iff.2 fun hmark => ?_) rest]
    · exact Bool.false_ne_true
    · have hnone := (h d rfl).2 hmark _ rfl
      cases hnone

end Stops

/-! ### Pieces -/

namespace Lexeme.Cut

variable {rest : List Char} {more : List Lexeme}

theorem blanks {blanks : List Char} (h : blanks ⊆ [' ']) (hrest : Cut rest more) :
    Cut (blanks ++ rest) more := by
  induction blanks with
  | nil => exact hrest
  | cons c blanks ih =>
    obtain ⟨hc, hblanks⟩ := List.cons_subset.1 h
    rw [List.mem_singleton.1 hc]
    exact (ih hblanks).blank (by decide)

/-- A mark that begins neither a comment nor a lifetime. -/
theorem of_mark? {c : Char} (hapostrophe : c ≠ '\x27') (hmark : mark? (c :: rest) = some c)
    (h : Cut rest more) : Cut (c :: rest) (.leaf (.mark c (mark? rest).isSome .start) :: more) :=
  Cut.cons (next?_of_mark? hapostrophe hmark) (Nat.lt_succ_self _) h

/-- The apostrophe of a lifetime. -/
theorem apostrophe (hchar : afterQuotedChar? .text rest = none)
    (hlifetime : beginsLifetime rest = true) (h : Cut rest more) :
    Cut ('\x27' :: rest) (.leaf (ofJoint '\x27') :: more) := by
  have hnext : next? .start ('\x27' :: rest) = some ([.leaf (ofJoint '\x27')], rest) := by
    show (token? _ _).map _ = _
    rw [token?_apostrophe hchar, if_pos hlifetime]
    rfl
  exact Cut.cons hnext (Nat.lt_succ_self _) h

theorem next?_of_begins_errorLiteral {text : List Char} (hhead : text.head? = some '(')
    (hbegins : errorLiteral.isPrefixOf text = true) :
    next? .start text = (token? .start text).map fun (token, rest) => ([leaf token], rest) := by
  obtain ⟨tail, rfl⟩ := List.head?_eq_some_iff.1 hhead
  exact if_pos hbegins

/-- What stands for a lost literal. -/
theorem lost (h : Cut rest more) : Cut (errorLiteral ++ rest)
    (.leaf (.literal (String.ofList errorLiteral) .start) :: more) := by
  have htoken : token? .start (errorLiteral ++ rest) =
      some (.literal (String.ofList errorLiteral) .start, rest) := rfl
  have hbegins := List.isPrefixOf_iff_prefix.2 (List.prefix_append errorLiteral rest)
  have hnext := next?_of_begins_errorLiteral rfl hbegins
  have hlength : 0 < errorLiteral.length := by decide
  refine Cut.cons (hnext.trans (by rw [htoken]; rfl)) ?_ h
  rw [List.length_append]
  omega

theorem isLiteral {text : String} (hliteral : IsLiteral text.toList)
    (hstop : ∀ d ∈ rest.head?, d ∈ wordStops) (h : Cut rest more) :
    Cut (text.toList ++ rest) (.leaf (.literal text .start) :: more) := by
  rcases hliteral with hliteral | hlost
  · exact Cut.literal hliteral hstop h
  · obtain rfl : text = String.ofList errorLiteral := by rw [← hlost, String.ofList_toList]
    rw [String.toList_ofList]
    exact lost h

end Lexeme.Cut

/-! ### Trees -/

section Trees

variable {trees tail : List TokenTree} {rest : List Char} {more : List Lexeme}

/-- Behind a tree that is not joint stands a blank in front of the next one, or what follows all
trees. -/
theorem exists_behind (tree : TokenTree) (hjoint : tree.isJoint = false)
    (hstop : Stops (tree :: tail) rest) :
    ∃ behind, printAll (tree :: tail) ++ rest = tree.print ++ behind ∧ Stops [tree] behind ∧
      ∀ ⦃lexemes⦄, (Stops tail rest → Cut (printAll tail ++ rest) lexemes) →
        Cut behind lexemes := by
  cases tail with
  | nil =>
    refine ⟨rest, by rw [printAll], hstop, fun lexemes h => h fun d hd => ⟨(hstop d hd).1, ?_⟩⟩
    simp
  | cons next tail =>
    refine ⟨' ' :: (printAll (next :: tail) ++ rest), ?_, .of_blank _ _,
      fun lexemes h => (h hstop.tail).blank (by decide)⟩
    rw [printAll_cons_cons, hjoint]
    simp

/-- A joint mark has the next tree right behind it. -/
theorem printAll_joint {tree next : TokenTree} (hjoint : tree.isJoint = true) :
    printAll (tree :: next :: tail) = tree.print ++ printAll (next :: tail) := by
  rw [printAll_cons_cons, if_pos hjoint, List.append_nil]

/-- The first character of a word, a literal or a group is no slash. -/
theorem IsLexed.exists_start {tree : TokenTree} (h : IsLexed (tree :: tail))
    (hmark : tree.isPunctuation = false) : ∃ c text, tree.print = c :: text ∧ c ≠ '/' := by
  cases h with
  | word _ hname _ =>
    obtain ⟨c, text, hlist, hstart⟩ := exists_start_of_isWord hname
    exact ⟨c, text, hlist, ne_of_isIdentifierStart hstart (by decide)⟩
  | @literal text _ _ hliteral _ =>
    rcases hliteral with hliteral | hlost
    · cases hlist : text.toList with
      | nil => rw [hlist] at hliteral; cases hliteral
      | cons c tail =>
        rw [hlist] at hliteral
        exact ⟨c, tail, hlist, (not_hidden_of_afterLiteral? hliteral).2.1⟩
    · exact ⟨'(', _, hlost, by decide⟩
  | mark => cases hmark
  | joint => cases hmark
  | @group d _ _ content _ _ _ =>
    obtain ⟨before, behind, -, -, -, hprint⟩ := exists_print_group d content _ _
    exact ⟨_, _, hprint, by cases d <;> decide⟩

theorem IsLexed.not_comment_of_start {tree : TokenTree} (h : IsLexed (tree :: tail))
    (hmark : tree.isPunctuation = false) (d : Char) :
    ¬ ['/', d] <+: printAll (tree :: tail) ++ rest := by
  obtain ⟨c, text, hprint, hc⟩ := h.exists_start hmark
  obtain ⟨more, hmore⟩ := exists_printAll_cons tree tail
  rw [hmore, hprint]
  rintro ⟨behind, hbehind⟩
  exact hc (List.cons.inj hbehind).1.symm

/-- No comment begins where trees are printed. -/
theorem IsLexed.not_comment (h : IsLexed trees) (hstop : Stops trees rest) {d : Char}
    (hd : d = '/' ∨ d = '*') : ¬ ['/', d] <+: printAll trees ++ rest := by
  have hd' : d ∉ wordStops := by rcases hd with rfl | rfl <;> decide
  -- A slash is no more than a mark, and a second character of a comment is not behind it.
  cases h with
  | nil =>
    rintro ⟨text, rfl : ['/', d] ++ text = rest⟩
    exact hstop.head?_ne (d := '/') (by decide) rfl
  | word _ hname htail => exact (IsLexed.word _ hname htail).not_comment_of_start rfl d
  | literal _ hliteral htail => exact (IsLexed.literal _ hliteral htail).not_comment_of_start rfl d
  | group delimiter _ _ hcontent htail =>
    exact (IsLexed.group delimiter _ _ hcontent htail).not_comment_of_start rfl d
  | @mark c pos tail hc hne htail =>
    obtain ⟨behind, hprint, hbehind, -⟩ := exists_behind (.mark c false pos) rfl hstop
    rw [hprint]
    rintro ⟨text, htext⟩
    cases htext
    exact hbehind.head?_ne hd' rfl
  | @joint c pos next tail hgoes htail =>
    rw [printAll_joint rfl]
    obtain ⟨behind, hprint⟩ := exists_printAll_cons next tail
    rw [hprint]
    rintro ⟨text, htext⟩
    generalize next.print = first at hgoes htext
    cases hgoes with
    | lifetime => cases htext
    | mark _ _ _ hslash =>
      cases htext
      rcases hd with rfl | rfl
      · exact (hslash rfl).1 rfl
      · exact (hslash rfl).2 rfl

/-- Where the printed form begins with a mark, one is read. -/
theorem IsLexed.isSome_mark? (h : IsLexed trees) (hstop : Stops trees rest) {c : Char}
    {text : List Char} (hprint : printAll trees ++ rest = c :: text) (hc : isMark c = true) :
    mark? (c :: text) = some c := by
  have hcomment : ∀ d, d = '/' ∨ d = '*' → c = '/' → text.head? ≠ some d := by
    rintro d hd rfl hhead
    obtain ⟨behind, rfl⟩ := List.head?_eq_some_iff.1 hhead
    exact h.not_comment hstop hd (hprint ▸ ⟨behind, rfl⟩)
  exact mark?_eq_some_iff.2 ⟨hc, fun heq =>
    ⟨hcomment '/' (.inl rfl) heq, hcomment '*' (.inr rfl) heq⟩⟩

theorem GoesOn.isMark {c : Char} {text : List Char} (h : GoesOn c text) : isMark c = true := by
  cases h with
  | mark hc => exact hc
  | lifetime => decide

theorem IsLexed.isMark {c : Char} {joint : Bool} {pos : Position}
    (h : IsLexed (.mark c joint pos :: tail)) : isMark c = true := by
  cases h with
  | mark _ hc _ _ => exact hc
  | joint _ hgoes _ => exact hgoes.isMark

/-- No mark stands behind the apostrophe of a lifetime. -/
theorem IsLexed.isJoint_of_beginsLifetime {tree : TokenTree} (h : IsLexed (tree :: tail))
    (hlifetime : beginsLifetime tree.print = true) : tree.isJoint = false := by
  cases tree with
  | mark c joint pos =>
    have hnone : afterWord? [c] = none := by
      refine Option.eq_none_iff_forall_ne_some.2 fun behind hword => ?_
      obtain ⟨d, text, heq, hstart⟩ := exists_start_of_afterWord? hword
      rw [← (List.cons.inj heq).1, isIdentifierStart_of_mark h.isMark] at hstart
      cases hstart
    rw [TokenTree.print, beginsLifetime, hnone] at hlifetime
    cases hlifetime
  | _ => rfl

/-- A group is read with its delimiters and what is printed between them. -/
theorem IsLexed.cut_group {content : List TokenTree} (d : Delimiter) (opened closed : Position)
    (hcontent : IsLexed content)
    (ih : ∀ ⦃rest : List Char⦄ ⦃more : List Lexeme⦄, Stops content rest → Cut rest more →
      Cut (printAll content ++ rest) (lexemesAll content ++ more))
    (hrest : Cut rest more) :
    Cut ((TokenTree.group d content opened closed).print ++ rest)
      (.opening d .start :: (lexemesAll content ++ .closing d .start :: more)) := by
  obtain ⟨before, behind, hbefore, hbehind, hbrace, hprint⟩ :=
    exists_print_group d content opened closed
  have hend : Stops content (behind ++ d.closing :: rest) := by
    cases behind with
    | nil =>
      cases d with
      | brace => exact absurd rfl (hbrace rfl)
      | _ => exact .of_closing (by decide) content rest
    | cons c behind =>
      obtain rfl : c = ' ' := by simpa using hbehind List.mem_cons_self
      exact .of_blank content _
  have hinner := ih hend (Cut.blanks hbehind (Cut.closing (d := d) hrest))
  have hcomment :
      ¬ ['/', '*'] <+: before ++ (printAll content ++ (behind ++ d.closing :: rest)) := by
    cases before with
    | nil => exact hcontent.not_comment hend (.inr rfl)
    | cons c before =>
      obtain rfl : c = ' ' := by simpa using hbefore List.mem_cons_self
      rintro ⟨text, htext⟩
      cases htext
  rw [hprint]
  simp only [List.cons_append, List.append_assoc, List.nil_append]
  exact Cut.opened hcomment (Cut.blanks hbefore hinner)

/-- What is printed is read again, in front of a stop. -/
theorem IsLexed.cut (h : IsLexed trees) (hstop : Stops trees rest) (hrest : Cut rest more) :
    Cut (printAll trees ++ rest) (lexemesAll trees ++ more) := by
  induction h generalizing rest more with
  | nil => exact hrest
  | @word name pos tail hname _ ih =>
    obtain ⟨behind, hprint, hbehind, hcut⟩ := exists_behind (.word name pos) rfl hstop
    rw [hprint]
    exact Cut.word hname hbehind.wordStops (hcut fun h => ih h hrest)
  | @literal text pos tail hliteral _ ih =>
    obtain ⟨behind, hprint, hbehind, hcut⟩ := exists_behind (.literal text pos) rfl hstop
    rw [hprint]
    exact Cut.isLiteral hliteral hbehind.wordStops (hcut fun h => ih h hrest)
  | @mark c pos tail hc hne htail ih =>
    have hlexed : IsLexed (.mark c false pos :: tail) := .mark pos hc hne htail
    obtain ⟨behind, hprint, hbehind, hcut⟩ := exists_behind (.mark c false pos) rfl hstop
    have hfirst : mark? (c :: behind) = some c := hlexed.isSome_mark? hstop hprint hc
    have hmark := Cut.of_mark? hne hfirst (hcut fun h => ih h hrest)
    rw [hbehind.mark?_eq_none] at hmark
    rw [hprint]
    exact hmark
  | @joint c pos next tail hgoes htail ih =>
    have hlexed : IsLexed (.mark c true pos :: next :: tail) := .joint pos hgoes htail
    have hcut := ih hstop.tail hrest
    have hprint : printAll (.mark c true pos :: next :: tail) ++ rest =
        c :: (printAll (next :: tail) ++ rest) := by rw [printAll_joint rfl]; rfl
    rw [hprint]
    generalize htext : next.print = text at hgoes
    cases hgoes with
    | @mark _ d text hc hne hd _ =>
      obtain ⟨behind, hnext⟩ := exists_printAll_cons next tail
      rw [htext] at hnext
      have hbehind : printAll (next :: tail) ++ rest = d :: (text ++ behind ++ rest) := by
        rw [hnext]
        rfl
      have hmark := Cut.of_mark? hne (hlexed.isSome_mark? hstop hprint hc) hcut
      rw [hbehind, htail.isSome_mark? hstop.tail hbehind hd] at hmark
      rw [hbehind]
      exact hmark
    | lifetime hlifetime hchar =>
      obtain ⟨behind, hnext, hbehind, -⟩ :=
        exists_behind next (htail.isJoint_of_beginsLifetime (htext ▸ hlifetime)) hstop.tail
      have hends := ends_of_stops hbehind.wordStops
      refine Cut.apostrophe ?_ ?_ hcut <;> rw [hnext, htext]
      · exact afterQuotedChar?_lifetime hends hchar hlifetime
      · rw [beginsLifetime_of_ends hends, hlifetime]
  | @group d opened closed content tail hcontent _ ih ih' =>
    obtain ⟨behind, hprint, -, hcut⟩ := exists_behind (.group d content opened closed) rfl hstop
    have hlexemes : lexemesAll (.group d content opened closed :: tail) ++ more =
        .opening d .start :: (lexemesAll content ++ (.closing d .start ::
          (lexemesAll tail ++ more))) := by
      simp [lexemesAll, lexemes]
    rw [hprint, hlexemes]
    exact hcontent.cut_group d opened closed @ih (hcut fun h => ih' h hrest)

/-- The printed form of an attribute is read as the attribute. -/
theorem exists_ofText_attribute (h : IsLexed trees) :
    ∃ found, TokenTree.ofText ("#[" ++ TokenTree.text trees ++ "]") = .ok found ∧
      placelessAll found = [ofMark '#', ofGroup .bracket (placelessAll trees)] := by
  have htext : ("#[" ++ TokenTree.text trees ++ "]").toList =
      '#' :: '[' :: (printAll trees ++ [']']) := by
    have hopening : "#[".toList = ['#', '['] := by decide +kernel
    have hclosing : "]".toList = [']'] := by decide +kernel
    rw [String.toList_append, String.toList_append, hopening, hclosing, TokenTree.text,
      String.toList_ofList]
    rfl
  have hstop : Stops trees [']'] := .of_closing (by decide) _ _
  have hinside : Cut (printAll trees ++ [']']) (lexemesAll trees ++ [.closing .bracket .start]) :=
    h.cut hstop (Cut.closing (d := .bracket) .nil)
  have hgroup : Cut ('[' :: (printAll trees ++ [']'])) (lexemesAll [ofGroup .bracket trees]) := by
    rw [lexemesAll, lexemes, lexemesAll, List.append_nil]
    exact Cut.opened (d := .bracket) (h.not_comment hstop (.inr rfl)) hinside
  have hcut : Cut ("#[" ++ TokenTree.text trees ++ "]").toList
      (lexemesAll [ofMark '#', ofGroup .bracket trees]) := by
    rw [htext]
    exact Cut.alone (by decide) (by decide) hgroup
  obtain ⟨found, hfound, hplaceless⟩ := exists_ofText (by rw [htext]; simp) hcut
  exact ⟨found, hfound, hplaceless⟩

end Trees

end DescriptionLookup
