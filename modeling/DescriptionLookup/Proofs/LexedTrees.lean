import DescriptionLookup.Proofs.ReadAlone
import DescriptionLookup.Proofs.TextPieces

/-!
# Lexed trees

The trees of a text keep how its tokens were written: words and literals are such when they stand
alone, and what follows a joint mark is a token that the mark goes on with.

* `text_placelessAll`: trees are printed without regard to their places;
* `IsLexed`: the trees this is said of;
* `Lexeme.Coherent`: the same of lexemes; `Cut.coherent`: the lexemes of a text;
* `isLexed_of_ofText`: the trees of a text.
-/

namespace DescriptionLookup

open Text Token Lexeme Grammar

namespace TokenTree

/-! ### What is printed -/

theorem printAll_cons_cons (tree next : TokenTree) (rest : List TokenTree) :
    printAll (tree :: next :: rest) =
      tree.print ++ (if tree.isJoint then [] else [' ']) ++ printAll (next :: rest) := by
  rw [printAll]
  simp

theorem exists_printAll_cons (tree : TokenTree) (rest : List TokenTree) :
    ∃ more, printAll (tree :: rest) = tree.print ++ more := by
  cases rest with
  | nil => exact ⟨[], by rw [printAll, List.append_nil]⟩
  | cons next rest => exact ⟨_, by rw [printAll_cons_cons, List.append_assoc]⟩

/-- A group is printed between its delimiters, perhaps with a blank on either side. -/
theorem exists_print_group (d : Delimiter) (content : List TokenTree) (opened closed : Position) :
    ∃ before behind : List Char, before ⊆ [' '] ∧ behind ⊆ [' '] ∧ (d = .brace → behind ≠ []) ∧
      (TokenTree.group d content opened closed).print =
        d.opening :: (before ++ (printAll content ++ (behind ++ [d.closing]))) := by
  cases d with
  | brace =>
    cases content with
    | nil => exact ⟨[], [' '], by simp, by simp, by simp, rfl⟩
    | cons tree rest => exact ⟨[' '], [' '], by simp, by simp, by simp, by
        rw [print] <;> simp [Delimiter.opening, Delimiter.closing]⟩
  | _ => exact ⟨[], [], by simp, by simp, by simp, by rw [print] <;> simp⟩

mutual

@[simp] theorem print_placeless (tree : TokenTree) : tree.placeless.print = tree.print := by
  cases tree with
  | group d content opened closed =>
    have hcontent := printAll_placelessAll content
    cases d <;> cases content <;> simp_all [placeless, placelessAll, print]
  | _ => rfl

@[simp] theorem printAll_placelessAll (trees : List TokenTree) :
    printAll (placelessAll trees) = printAll trees := by
  cases trees with
  | nil => rfl
  | cons tree rest =>
    have htree := print_placeless tree
    have hrest := printAll_placelessAll rest
    have hjoint : tree.placeless.isJoint = tree.isJoint := by cases tree <;> rfl
    cases rest with
    | nil => exact htree
    | cons next rest =>
      rw [placelessAll] at hrest
      rw [placelessAll, placelessAll, printAll_cons_cons, printAll_cons_cons, htree, hjoint, hrest]

end

@[simp] theorem text_placelessAll (trees : List TokenTree) :
    text (placelessAll trees) = text trees := by
  rw [text, text, printAll_placelessAll]

end TokenTree

/-! ### Trees -/

/-- A literal, or what stands for a lost one. -/
def IsLiteral (text : List Char) : Prop := afterLiteral? text = some [] ∨ text = errorLiteral

/-- What is written right behind a joint mark. -/
inductive GoesOn : Char → List Char → Prop
  | mark {c d : Char} {more : List Char} : isMark c = true → c ≠ '\x27' → isMark d = true →
    (c = '/' → d ≠ '/' ∧ d ≠ '*') → GoesOn c (d :: more)
  | lifetime {text : List Char} : beginsLifetime text = true → afterQuotedChar? .text text = none →
    GoesOn '\x27' text

/-- Trees as they are read from a text. -/
inductive IsLexed : List TokenTree → Prop
  | nil : IsLexed []
  | word {name : String} (pos : Position) {rest : List TokenTree} : isWord name.toList = true →
    IsLexed rest → IsLexed (.word name pos :: rest)
  | literal {text : String} (pos : Position) {rest : List TokenTree} : IsLiteral text.toList →
    IsLexed rest → IsLexed (.literal text pos :: rest)
  | mark {c : Char} (pos : Position) {rest : List TokenTree} : isMark c = true → c ≠ '\x27' →
    IsLexed rest → IsLexed (.mark c false pos :: rest)
  | joint {c : Char} (pos : Position) {next : TokenTree} {rest : List TokenTree} :
    GoesOn c next.print → IsLexed (next :: rest) → IsLexed (.mark c true pos :: next :: rest)
  | group (d : Delimiter) (opened closed : Position) {content rest : List TokenTree} :
    IsLexed content → IsLexed rest → IsLexed (.group d content opened closed :: rest)

namespace Lexeme

/-- Lexemes as they are read from a text. -/
inductive Coherent : List Lexeme → Prop
  | nil : Coherent []
  | opening (d : Delimiter) {rest : List Lexeme} : Coherent rest →
    Coherent (.opening d .start :: rest)
  | closing (d : Delimiter) {rest : List Lexeme} : Coherent rest →
    Coherent (.closing d .start :: rest)
  | word {name : String} {rest : List Lexeme} : isWord name.toList = true → Coherent rest →
    Coherent (.leaf (.word name .start) :: rest)
  | literal {text : String} {rest : List Lexeme} : IsLiteral text.toList → Coherent rest →
    Coherent (.leaf (.literal text .start) :: rest)
  | mark {c : Char} {rest : List Lexeme} : isMark c = true → c ≠ '\x27' → Coherent rest →
    Coherent (.leaf (.mark c false .start) :: rest)
  | joint {c : Char} {next : TokenTree} {rest : List Lexeme} : GoesOn c next.print →
    Coherent (.leaf next :: rest) → Coherent (.leaf (.mark c true .start) :: .leaf next :: rest)

/-! ### Single tokens -/

/-- The token at the beginning of a text, by its kinds. -/
inductive Reads : List Char → TokenTree → List Char → Prop
  | literal {x rest : List Char} : afterLiteral? (x ++ rest) = some rest →
    Reads (x ++ rest) (.literal (String.ofList x) .start) rest
  | mark {c : Char} {rest : List Char} : c ≠ '\x27' → mark? (c :: rest) = some c →
    Reads (c :: rest) (.mark c (mark? rest).isSome .start) rest
  | lifetime {rest : List Char} : afterQuotedChar? .text rest = none → beginsLifetime rest = true →
    Reads ('\x27' :: rest) (ofJoint '\x27') rest
  | word {x rest : List Char} : afterPlainWord? (x ++ rest) = some rest →
    Reads (x ++ rest) (ofWord (String.ofList x)) rest
  | lost (rest : List Char) :
    Reads (errorLiteral ++ rest) (.literal (String.ofList errorLiteral) .start) rest

theorem reads_of_token? {text rest : List Char} {token : TokenTree}
    (h : token? .start text = some (token, rest)) : Reads text token rest := by
  unfold token? at h
  split at h
  · next left hliteral =>
    cases h
    obtain ⟨x, rfl⟩ := suffix_of_afterLiteral? hliteral
    rw [before_append]
    exact .literal hliteral
  next hliteral =>
  split at h
  · next c hmark =>
    obtain ⟨more, rfl, -⟩ := exists_of_mark? hmark
    dsimp only [List.drop_succ_cons, List.drop_zero] at h
    split at h
    · next hapostrophe =>
      subst hapostrophe
      split at h
      · next hlifetime =>
        cases h
        exact .lifetime (by rwa [afterLiteral?_apostrophe] at hliteral) hlifetime
      · cases h
    · next hapostrophe =>
      cases h
      exact .mark hapostrophe hmark
  next hmark =>
  split at h
  · next left hword =>
    cases h
    have hsuffix : rest <:+ text := by
      unfold afterPlainWord? at hword
      split at hword
      · cases hword
      · exact isLocal_afterWord?.suffix hword
    obtain ⟨x, rfl⟩ := hsuffix
    rw [before_append]
    exact .word hword
  split at h
  · next herror =>
    obtain ⟨more, rfl⟩ := List.isPrefixOf_iff_prefix.1 herror
    cases h
    rw [List.drop_left]
    exact .lost more
  · cases h

namespace Cut

variable {text rest : List Char} {lexemes more : List Lexeme} {c : Char}

/-- The first lexeme of a text that begins with a token. -/
theorem exists_leaf (h : Cut (c :: text) lexemes) (hblank : isBlank c = false)
    (hcomment : comment? (c :: text) = none) (hclosing : Delimiter.ofClosing? c = none)
    (hopening : Delimiter.ofOpening? c = none) :
    ∃ token rest more, Reads (c :: text) token rest ∧ lexemes = .leaf token.placeless :: more := by
  cases h with
  | next hfound _ _ =>
    rw [next?_of_token? hblank hcomment hclosing hopening] at hfound
    obtain ⟨⟨token, rest⟩, htoken, heq⟩ := Option.map_eq_some_iff.1 hfound
    cases heq
    exact ⟨token, _, _, reads_of_token? htoken, rfl⟩

/-- What follows a joint mark. -/
theorem exists_leaf_of_mark? (h : Cut (c :: text) lexemes) (hmark : mark? (c :: text) = some c) :
    ∃ next more, lexemes = .leaf next :: more ∧ ∃ behind, next.print = c :: behind := by
  have hc := (mark?_eq_some_iff.1 hmark).1
  obtain ⟨hblank, hclosing, hopening⟩ := not_blank_of_isMark hc
  obtain ⟨token, rest, more, hreads, rfl⟩ :=
    h.exists_leaf hblank (comment?_of_mark? hmark) hclosing hopening
  refine ⟨_, more, rfl, ?_⟩
  rw [TokenTree.print_placeless]
  generalize htext : c :: text = whole at hreads
  cases hreads with
  | @literal x rest hliteral =>
    obtain ⟨x, rfl⟩ : ∃ y, x = c :: y := by
      cases x with
      | nil => cases afterLiteral?_alone hliteral
      | cons d x => exact ⟨x, by rw [(List.cons.inj htext).1]⟩
    exact ⟨x, by rw [TokenTree.print, String.toList_ofList]⟩
  | mark _ _ => exact ⟨[], by rw [(List.cons.inj htext).1]; rfl⟩
  | lifetime _ _ => exact ⟨[], by rw [(List.cons.inj htext).1]; rfl⟩
  | @word x rest hword =>
    -- No mark begins a word.
    obtain ⟨d, x, rfl, hstart⟩ := exists_start_of_isWord (isWord_of_afterPlainWord? hword)
    rw [← (List.cons.inj htext).1, isIdentifierStart_of_mark hc] at hstart
    cases hstart
  | lost rest =>
    obtain ⟨rfl, -⟩ := List.cons.inj htext
    exact absurd hc (by decide)

/-- What follows the apostrophe of a lifetime. -/
theorem exists_leaf_of_beginsLifetime (h : Cut text lexemes)
    (hlifetime : beginsLifetime text = true) (hchar : afterQuotedChar? .text text = none) :
    ∃ next more, lexemes = .leaf next :: more ∧ GoesOn '\x27' next.print := by
  obtain ⟨behind, hword⟩ : ∃ behind, afterWord? text = some behind := by
    cases hword : afterWord? text with
    | none => rw [beginsLifetime, hword] at hlifetime; cases hlifetime
    | some behind => exact ⟨behind, rfl⟩
  obtain ⟨c, tail, rfl, hstart⟩ := exists_start_of_afterWord? hword
  have hmark : isMark c = false := by
    refine Bool.eq_false_iff.2 fun hmark => ?_
    rw [isIdentifierStart_of_mark hmark] at hstart
    cases hstart
  obtain ⟨hclosing, hopening⟩ := not_delimiter_of_isIdentifierStart hstart
  obtain ⟨token, rest, more, hreads, rfl⟩ := h.exists_leaf (isBlank_eq_false hstart)
    (comment?_eq_none (ne_of_isIdentifierStart hstart (by decide)) _) hclosing hopening
  refine ⟨_, more, rfl, ?_⟩
  rw [TokenTree.print_placeless]
  generalize htext : c :: tail = whole at hreads hlifetime hchar
  cases hreads with
  | literal hliteral =>
    rw [TokenTree.print, String.toList_ofList]
    exact .lifetime (beginsLifetime_alone hlifetime (.inr hliteral))
      (afterQuotedChar?_alone hchar)
  | mark _ hmark' =>
    obtain ⟨rfl, -⟩ := List.cons.inj htext
    rw [(mark?_eq_some_iff.1 hmark').1] at hmark
    cases hmark
  | lifetime _ _ =>
    obtain ⟨rfl, -⟩ := List.cons.inj htext
    exact absurd hmark (by decide)
  | word hword =>
    rw [TokenTree.print, String.toList_ofList]
    exact .lifetime (beginsLifetime_alone hlifetime (.inl hword)) (afterQuotedChar?_alone hchar)
  | lost rest =>
    obtain ⟨rfl, -⟩ := List.cons.inj htext
    exact absurd hstart (by decide)

/-- What is read behind a mark, as far as the mark is joint. -/
theorem coherent_token {token : TokenTree} (hreads : Reads text token rest) (hrest : Cut rest more)
    (ih : Coherent more) : Coherent (.leaf token.placeless :: more) := by
  cases hreads with
  | literal hliteral =>
    exact .literal (.inl (by rw [String.toList_ofList]; exact afterLiteral?_alone hliteral)) ih
  | word hword =>
    exact .word (by rw [String.toList_ofList]; exact isWord_of_afterPlainWord? hword) ih
  | lost => exact .literal (.inr String.toList_ofList) ih
  | @mark c rest hapostrophe hmark =>
    obtain ⟨hc, hslash⟩ := mark?_eq_some_iff.1 hmark
    cases hjoint : mark? rest with
    | none => exact .mark hc hapostrophe ih
    | some d =>
      obtain ⟨tail, rfl, hd⟩ := exists_of_mark? hjoint
      obtain ⟨next, more, rfl, behind, hprint⟩ := hrest.exists_leaf_of_mark? hjoint
      refine .joint (hprint ▸ .mark hc hapostrophe hd fun hc => ?_) ih
      simpa using hslash hc
  | lifetime hchar hlifetime =>
    obtain ⟨next, more, rfl, hnext⟩ := hrest.exists_leaf_of_beginsLifetime hlifetime hchar
    exact .joint hnext ih

theorem coherent_documentation (enclosing : Bool) (content : List Char) (first last : Position)
    (ih : Coherent more) :
    Coherent ((ofDocumentation enclosing content first last).map placeless ++ more) := by
  have hdoc : isWord "doc".toList = true := by decide +kernel
  have hquoted : IsLiteral (Text.quoted (String.ofList content)).toList :=
    .inl (afterLiteral?_quoted _)
  have hinside : Coherent (.opening .bracket .start :: .leaf (ofWord "doc") ::
      .leaf (ofMark '=') :: .leaf (ofLiteral (Text.quoted (String.ofList content))) ::
      .closing .bracket .start :: more) :=
    .opening _ (.word hdoc (.mark (by decide) (by decide) (.literal hquoted (.closing _ ih))))
  cases enclosing with
  | false => exact .mark (by decide) (by decide) hinside
  | true => exact .mark (by decide) (by decide) (.mark (by decide) (by decide) hinside)

theorem coherent_of_map
    (h : (token? .start text).map (fun (token, rest') => ([leaf token], rest')) =
      some (lexemes, rest))
    (hrest : Cut rest more) (ih : Coherent more) : Coherent (lexemes.map placeless ++ more) := by
  obtain ⟨⟨token, rest'⟩, htoken, heq⟩ := Option.map_eq_some_iff.1 h
  cases heq
  exact coherent_token (reads_of_token? htoken) hrest ih

/-- The lexemes of a text. -/
theorem coherent (h : Cut text lexemes) : Coherent lexemes := by
  induction h with
  | nil => exact .nil
  | @next text rest lexemes more hnext _ hrest ih =>
    cases text with
    | nil => cases hnext
    | cons c tail =>
      rw [next?] at hnext
      split at hnext
      · cases hnext
        exact ih
      split at hnext
      · cases hnext
        exact ih
      · split at hnext
        · cases hnext
          exact coherent_documentation _ _ _ _ ih
        · cases hnext
      split at hnext
      · cases hnext
        exact .closing _ ih
      split at hnext
      · split at hnext
        · exact coherent_of_map hnext hrest ih
        · cases hnext
          exact .opening _ ih
      · exact coherent_of_map hnext hrest ih

end Cut

end Lexeme

/-! ### From lexemes to trees -/

theorem Lexeme.Coherent.tail {lexeme : Lexeme} {rest : List Lexeme}
    (h : Coherent (lexeme :: rest)) : Coherent rest := by
  cases h with
  | opening _ h | closing _ h | word _ h | literal _ h | mark _ _ h | joint _ h => exact h

theorem Lexeme.Coherent.of_append {lexemes more : List Lexeme} (h : Coherent (lexemes ++ more)) :
    Coherent more := by
  induction lexemes with
  | nil => exact h
  | cons lexeme lexemes ih => exact ih h.tail

open TokenTree in
/-- The trees of coherent lexemes. No token stands behind them that a joint mark could go on
with. -/
theorem isLexed_of_coherent : ∀ {trees : List TokenTree} {more : List Lexeme},
    (∀ token, more.head? ≠ some (.leaf token)) → Coherent (lexemesAll trees ++ more) →
    IsLexed trees
  | [], _, _, _ => .nil
  | .word name pos :: rest, more, hmore, h => by
    cases h with
    | word hname h => exact .word pos hname (isLexed_of_coherent hmore h)
  | .literal text pos :: rest, more, hmore, h => by
    cases h with
    | literal htext h => exact .literal pos htext (isLexed_of_coherent hmore h)
  | .group d content opened closed :: rest, more, hmore, h => by
    have hlexemes : lexemesAll (.group d content opened closed :: rest) ++ more =
        .opening d .start :: (lexemesAll content ++ (.closing d .start ::
          (lexemesAll rest ++ more))) := by
      simp [lexemesAll, lexemes]
    have hinside := (hlexemes ▸ h).tail
    exact .group d opened closed (isLexed_of_coherent (by simp) hinside)
      (isLexed_of_coherent hmore hinside.of_append.tail)
  | .mark c false pos :: rest, more, hmore, h => by
    cases h with
    | mark hc hne h => exact .mark pos hc hne (isLexed_of_coherent hmore h)
  | .mark c true pos :: rest, more, hmore, h => by
    have hrest : IsLexed rest := isLexed_of_coherent hmore h.tail
    rw [lexemesAll, List.append_assoc] at h
    generalize hbehind : lexemesAll rest ++ more = behind at h
    cases h with
    | @joint _ next behind hnext _ =>
      cases rest with
      | nil => exact absurd (congrArg List.head? hbehind) (hmore next)
      | cons tree rest =>
        have hgoes : GoesOn c tree.print := by
          cases tree with
          | group => cases hbehind
          | _ =>
            obtain ⟨hleaf, -⟩ := List.cons.inj hbehind
            rw [← Lexeme.leaf.inj hleaf, print_placeless] at hnext
            exact hnext
        exact .joint pos hgoes hrest

theorem isLexed_of_ofChars {pos : Position} {text : List Char} {trees : List TokenTree}
    (h : TokenTree.ofChars pos text = .ok trees) : IsLexed trees := by
  have hcoherent := (TokenTree.cut_of_ofChars h).coherent
  rw [← List.append_nil (TokenTree.lexemesAll trees)] at hcoherent
  exact isLexed_of_coherent (by simp) hcoherent

/-- The trees of a text. -/
theorem isLexed_of_ofText {text : String} {trees : List TokenTree}
    (h : TokenTree.ofText text = .ok trees) : IsLexed trees := by
  unfold TokenTree.ofText at h
  split at h <;> exact isLexed_of_ofChars h

end DescriptionLookup
