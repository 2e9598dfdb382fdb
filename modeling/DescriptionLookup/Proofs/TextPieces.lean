import DescriptionLookup.Lookup.Draft
import DescriptionLookup.Proofs.Acceptance
import DescriptionLookup.Proofs.LineBreaks
import DescriptionLookup.Proofs.Literals

/-!
# Texts in pieces

A text that is put together from lines is read line by line. What it is read as does not depend on
where it stands, so that it can be said without places.

* `Lexeme.Cut`: the lexemes of a text; `Cut.line`: a line and what follows it;
* `TokenTree.exists_ofText`, `TokenTree.cut_of_ofText`: from lexemes to trees and back;
* `Cut.word`, `Cut.mark`, `Cut.quoted`, `Cut.path`: the pieces of a line;
* `Draws`: the lexemes of lines.
-/

namespace DescriptionLookup

open Text

namespace Lexeme

open Token

/-! ### Lexemes without places -/

deriving instance DecidableEq for Lexeme

/-- The lexeme without the place it was read from. -/
def placeless : Lexeme → Lexeme
  | .opening d _ => .opening d .start
  | .closing d _ => .closing d .start
  | .leaf token => .leaf token.placeless

/-- What is at the beginning of a text does not depend on where the text begins. -/
theorem next?_placeless (pos pos' : Position) (text : List Char) :
    (next? pos text).map (fun found => (found.1.map placeless, found.2)) =
      (next? pos' text).map fun found => (found.1.map placeless, found.2) := by
  have htoken : (token? pos text).map (fun found => (found.1.placeless, found.2)) =
      (token? pos' text).map fun found => (found.1.placeless, found.2) := by
    unfold token?
    split
    · rfl
    · split
      · dsimp only
        split
        · split <;> rfl
        · rfl
      · split
        · rfl
        · split <;> rfl
  have hleaf : ((token? pos text).map fun found => ([leaf found.1], found.2)).map
        (fun found => (found.1.map placeless, found.2)) =
      ((token? pos' text).map fun found => ([leaf found.1], found.2)).map
        fun found => (found.1.map placeless, found.2) := by
    have h := congrArg (Option.map fun found : TokenTree × List Char =>
      ([leaf found.1], found.2)) htoken
    rw [Option.map_map, Option.map_map] at h ⊢
    exact h
  cases text with
  | nil => rfl
  | cons c rest =>
    rw [next?, next?]
    split
    · rfl
    split
    · rfl
    · next enclosing content behind _ =>
      split
      · cases enclosing <;> rfl
      · rfl
    split
    · rfl
    split
    · split
      · exact hleaf
      · rfl
    · exact hleaf

/-- The text is read to its end, as these lexemes. -/
inductive Cut : List Char → List Lexeme → Prop
  | nil : Cut [] []
  | next {text rest : List Char} {lexemes more : List Lexeme} :
    next? .start text = some (lexemes, rest) → rest.length < text.length → Cut rest more →
    Cut text (lexemes.map placeless ++ more)

namespace Cut

variable {text rest : List Char} {lexemes more : List Lexeme}

theorem eq_nil (h : Cut [] lexemes) : lexemes = [] := by
  cases h with
  | nil => rfl
  | next h => cases h

theorem dropBlanks (h : Cut text lexemes) : Cut (text.dropWhile isBlank) lexemes := by
  cases h with
  | nil => exact .nil
  | next h hlt hrest =>
    cases text with
    | nil => cases h
    | cons c behind =>
      by_cases hblank : isBlank c = true
      · rw [next?, if_pos hblank] at h
        cases h
        rwa [List.dropWhile_cons_of_pos hblank]
      · rw [List.dropWhile_cons_of_neg hblank]
        exact .next h hlt hrest

theorem blank {c : Char} (hblank : isBlank c = true) (h : Cut text lexemes) :
    Cut (c :: text) lexemes := by
  have hnext : next? .start (c :: text) = some ([], text.dropWhile isBlank) := by
    rw [next?, if_pos hblank]
  exact .next hnext (Nat.lt_succ_of_le (List.length_dropWhile_le ..)) h.dropBlanks

/-- Lines are read one by one. -/
theorem line (h : Cut text lexemes) (hrest : Cut rest more) :
    Cut (text ++ '\n' :: rest) (lexemes ++ more) := by
  induction h with
  | nil => exact hrest.blank (by decide)
  | @next text behind lexemes left hnext hlt hleft ih =>
    rcases next?_line hnext rest with hline | ⟨rfl, rfl, hline⟩
    · rw [List.append_assoc]
      refine .next hline ?_ ih
      rw [List.length_append, List.length_append]
      omega
    · obtain rfl := hleft.eq_nil
      refine .next hline ?_ hrest.dropBlanks
      have := List.length_dropWhile_le isBlank rest
      rw [List.length_append, List.length_cons]
      omega

theorem exists_ofText (h : Cut text lexemes) (pos : Position) :
    ∃ found, ofText pos text = (found, none) ∧ found.map placeless = lexemes := by
  induction h generalizing pos with
  | nil => exact ⟨[], by rw [ofText]; rfl, rfl⟩
  | @next text rest lexemes more hnext hlt _ ih =>
    have hplaceless := next?_placeless pos .start text
    rw [hnext, Option.map_some] at hplaceless
    obtain ⟨⟨here, behind⟩, hhere, heq⟩ := Option.map_eq_some_iff.1 hplaceless
    obtain ⟨hlexemes, rfl⟩ := Prod.mk.inj heq
    obtain ⟨found, hfound, hmore⟩ := ih (pos.afterAll (before text behind))
    refine ⟨here ++ found, ?_, by rw [List.map_append, hlexemes, hmore]⟩
    have hne : text.isEmpty = false := by
      cases text with
      | nil => cases hlt
      | cons c more => rfl
    rw [ofText, hne, hhere]
    simp [hlt, hfound]

end Cut

theorem cut_of_ofText {pos : Position} {text : List Char} {found : List Lexeme}
    (h : ofText pos text = (found, none)) : Cut text (found.map placeless) := by
  induction hlength : text.length using Nat.strong_induction_on generalizing text pos found with
  | _ n ih =>
    subst hlength
    rw [ofText] at h
    split at h
    · next hempty =>
      cases h
      rw [List.isEmpty_iff.1 hempty]
      exact .nil
    · split at h
      · cases h
      · next lexemes rest hnext =>
        split at h
        · next hlt =>
          obtain ⟨rfl, hstuck⟩ := Prod.mk.inj h
          have hrest := ih _ hlt (Prod.ext rfl hstuck) rfl
          have hplaceless := next?_placeless pos .start text
          rw [hnext, Option.map_some] at hplaceless
          obtain ⟨⟨here, behind⟩, hhere, heq⟩ := Option.map_eq_some_iff.1 hplaceless.symm
          obtain ⟨hlexemes, rfl⟩ := Prod.mk.inj heq
          rw [List.map_append, ← hlexemes]
          exact .next hhere hlt hrest
        · cases h

/-- The lexeme is a delimiter or a single token. -/
def IsSingle : Lexeme → Prop
  | .leaf (.group _ _ _ _) => False
  | _ => True

theorem isSingle_of_token? {pos : Position} {text rest : List Char} {token : TokenTree}
    (h : token? pos text = some (token, rest)) : (leaf token).IsSingle := by
  unfold token? at h
  split at h
  · cases h
    trivial
  split at h
  · dsimp only at h
    split at h
    · split at h
      · cases h
        trivial
      · cases h
    · cases h
      trivial
  split at h
  · cases h
    trivial
  split at h
  · cases h
    trivial
  · cases h

theorem isSingle_of_next? {pos : Position} {text rest : List Char} {lexemes : List Lexeme}
    (h : next? pos text = some (lexemes, rest)) : ∀ lexeme ∈ lexemes, lexeme.IsSingle := by
  have hleaf : ((token? pos text).map fun found => ([leaf found.1], found.2)) =
      some (lexemes, rest) → ∀ lexeme ∈ lexemes, lexeme.IsSingle := by
    intro hmap
    obtain ⟨⟨token, rest'⟩, htoken, heq⟩ := Option.map_eq_some_iff.1 hmap
    cases heq
    simpa using isSingle_of_token? htoken
  cases text with
  | nil => cases h
  | cons c more =>
    rw [next?] at h
    split at h
    · cases h
      simp
    split at h
    · cases h
      simp
    · next enclosing content behind _ =>
      split at h
      · cases h
        cases enclosing <;> simp [ofDocumentation, IsSingle]
      · cases h
    split at h
    · cases h
      simp [IsSingle]
    split at h
    · split at h
      · exact hleaf h
      · cases h
        simp [IsSingle]
    · exact hleaf h

theorem isSingle_of_ofText {pos : Position} {text : List Char} :
    ∀ lexeme ∈ (ofText pos text).1, lexeme.IsSingle := by
  fun_induction ofText pos text with
  | case1 => simp
  | case2 => simp
  | case3 pos text _ lexemes rest hnext hlt more stuck hmore ih =>
    rw [hmore] at ih
    exact List.forall_mem_append.2 ⟨isSingle_of_next? hnext, ih⟩
  | case4 => simp

theorem cut_of_eval {text : List Char} {lexemes : List Lexeme}
    (h : (ofText .start text).2 = none ∧ (ofText .start text).1.map placeless = lexemes) :
    Cut text lexemes := h.2 ▸ cut_of_ofText (Prod.ext rfl h.1)

end Lexeme

/-! ### Trees in pieces -/

namespace TokenTree

open Lexeme

mutual

/-- The lexemes of a tree, without places. -/
def lexemes : TokenTree → List Lexeme
  | .group d content _ _ => .opening d .start :: (lexemesAll content ++ [.closing d .start])
  | tree => [.leaf tree.placeless]

/-- The lexemes of trees, without places. -/
def lexemesAll : List TokenTree → List Lexeme
  | [] => []
  | tree :: rest => tree.lexemes ++ lexemesAll rest

end

@[simp] theorem lexemesAll_append (trees more : List TokenTree) :
    lexemesAll (trees ++ more) = lexemesAll trees ++ lexemesAll more := by
  induction trees with
  | nil => rfl
  | cons tree rest ih => rw [List.cons_append, lexemesAll, lexemesAll, ih, List.append_assoc]

@[simp] theorem lexemesAll_flatMap {α : Type} (as : List α) (f : α → List TokenTree) :
    lexemesAll (as.flatMap f) = as.flatMap fun a => lexemesAll (f a) := by
  induction as with
  | nil => rfl
  | cons a as ih => rw [List.flatMap_cons, List.flatMap_cons, lexemesAll_append, ih]

@[simp] theorem placelessAll_append (trees more : List TokenTree) :
    placelessAll (trees ++ more) = placelessAll trees ++ placelessAll more := by
  induction trees with
  | nil => rfl
  | cons tree rest ih => rw [List.cons_append, placelessAll, placelessAll, ih, List.cons_append]

theorem placelessAll_flatMap {α : Type} (as : List α) (f : α → List TokenTree) :
    placelessAll (as.flatMap f) = as.flatMap fun a => placelessAll (f a) := by
  induction as with
  | nil => rfl
  | cons a as ih => rw [List.flatMap_cons, List.flatMap_cons, placelessAll_append, ih]

mutual

@[simp] theorem placeless_placeless (tree : TokenTree) :
    tree.placeless.placeless = tree.placeless := by
  cases tree with
  | group d content opened closed =>
    simp only [placeless, placelessAll_placelessAll content]
  | _ => rfl

@[simp] theorem placelessAll_placelessAll (trees : List TokenTree) :
    placelessAll (placelessAll trees) = placelessAll trees := by
  cases trees with
  | nil => rfl
  | cons tree rest =>
    simp only [placelessAll, placeless_placeless tree, placelessAll_placelessAll rest]

end

mutual

@[simp] theorem lexemes_placeless (tree : TokenTree) : tree.placeless.lexemes = tree.lexemes := by
  cases tree with
  | group d content opened closed =>
    simp only [placeless, lexemes, lexemesAll_placelessAll content]
  | _ => rfl

@[simp] theorem lexemesAll_placelessAll (trees : List TokenTree) :
    lexemesAll (placelessAll trees) = lexemesAll trees := by
  cases trees with
  | nil => rfl
  | cons tree rest =>
    simp only [placelessAll, lexemesAll, lexemes_placeless tree, lexemesAll_placelessAll rest]

end

theorem eq_opening_of_placeless {lexeme : Lexeme} {d : Delimiter} {pos : Position}
    (h : lexeme.placeless = .opening d pos) : ∃ pos, lexeme = .opening d pos := by
  cases lexeme with
  | opening d' pos' => cases h; exact ⟨pos', rfl⟩
  | _ => cases h

theorem eq_closing_of_placeless {lexeme : Lexeme} {d : Delimiter} {pos : Position}
    (h : lexeme.placeless = .closing d pos) : ∃ pos, lexeme = .closing d pos := by
  cases lexeme with
  | closing d' pos' => cases h; exact ⟨pos', rfl⟩
  | _ => cases h

theorem eq_leaf_of_placeless {lexeme : Lexeme} {token : TokenTree}
    (h : lexeme.placeless = .leaf token) : ∃ token', lexeme = .leaf token' ∧
      token'.placeless = token := by
  cases lexeme with
  | leaf token' => exact ⟨token', rfl, Lexeme.leaf.inj h⟩
  | _ => cases h

mutual

/-- The lexemes of a tree are nested to the tree. -/
theorem nest_lexemes (stuck : Option Position) (tree : TokenTree) (groups : List OpenGroup)
    (trees : List TokenTree) {found more : List Lexeme}
    (h : found.map Lexeme.placeless = tree.lexemes ++ more) :
    ∃ tree' found', found'.map Lexeme.placeless = more ∧ tree'.placeless = tree.placeless ∧
      nest stuck groups trees found = nest stuck groups (tree' :: trees) found' := by
  cases tree with
  | group d content opened closed =>
    rw [lexemes, List.cons_append, List.append_assoc] at h
    obtain ⟨first, found, rfl, hfirst, hfound⟩ := List.map_eq_cons_iff.1 h
    obtain ⟨pos, rfl⟩ := eq_opening_of_placeless hfirst
    obtain ⟨content', found', hfound', hcontent, hnest⟩ :=
      nest_lexemesAll stuck content (⟨d, pos, trees⟩ :: groups) [] hfound
    obtain ⟨last, found', rfl, hlast, hmore⟩ := List.map_eq_cons_iff.1 hfound'
    obtain ⟨pos', rfl⟩ := eq_closing_of_placeless hlast
    refine ⟨.group d content' pos pos', found', hmore, by simp only [placeless, hcontent], ?_⟩
    rw [nest, hnest, nest, if_pos rfl, List.append_nil, List.reverse_reverse]
  | _ =>
    obtain ⟨first, found, rfl, hfirst, hfound⟩ := List.map_eq_cons_iff.1 h
    obtain ⟨token, rfl, htoken⟩ := eq_leaf_of_placeless hfirst
    exact ⟨token, found, hfound, htoken, by rw [nest]⟩

theorem nest_lexemesAll (stuck : Option Position) (content : List TokenTree)
    (groups : List OpenGroup) (trees : List TokenTree) {found more : List Lexeme}
    (h : found.map Lexeme.placeless = lexemesAll content ++ more) :
    ∃ content' found', found'.map Lexeme.placeless = more ∧
      placelessAll content' = placelessAll content ∧
      nest stuck groups trees found = nest stuck groups (content'.reverse ++ trees) found' := by
  cases content with
  | nil => exact ⟨[], found, h, rfl, rfl⟩
  | cons tree rest =>
    rw [lexemesAll, List.append_assoc] at h
    obtain ⟨tree', found', hfound', htree, hnest⟩ := nest_lexemes stuck tree groups trees h
    obtain ⟨rest', found'', hfound'', hrest, hnest'⟩ :=
      nest_lexemesAll stuck rest groups (tree' :: trees) hfound'
    refine ⟨tree' :: rest', found'', hfound'', ?_, ?_⟩
    · rw [placelessAll, placelessAll, htree, hrest]
    · rw [hnest, hnest', List.reverse_cons, List.append_assoc, List.singleton_append]

end

theorem ofText_eq_ofChars {text : String} (hmark : text.toList.head? ≠ some '\ufeff') :
    ofText text = ofChars .start text.toList := by
  rw [ofText]
  split
  · next rest heq =>
    rw [heq] at hmark
    exact absurd rfl hmark
  · rfl

/-- The trees of a text that is read to its end. -/
theorem exists_ofText {text : String} {trees : List TokenTree}
    (hmark : text.toList.head? ≠ some '\ufeff') (h : Cut text.toList (lexemesAll trees)) :
    ∃ found, ofText text = .ok found ∧ placelessAll found = placelessAll trees := by
  obtain ⟨lexemes, hlexemes, hplaceless⟩ := h.exists_ofText .start
  obtain ⟨found, left, hleft, hfound, hnest⟩ :=
    nest_lexemesAll none trees [] [] (hplaceless.trans (List.append_nil _).symm)
  obtain rfl := List.map_eq_nil_iff.1 hleft
  refine ⟨found, ?_, hfound⟩
  rw [ofText_eq_ofChars hmark, ofChars, hlexemes]
  dsimp only
  rw [hnest, List.append_nil, nest, List.reverse_reverse]

/-- A text that is one token. -/
theorem exists_ofText_single {text : String} {tree : TokenTree}
    (hmark : text.toList.head? ≠ some '\ufeff') (h : Cut text.toList (lexemesAll [tree])) :
    ∃ found, ofText text = .ok [found] ∧ found.placeless = tree.placeless := by
  obtain ⟨trees, htrees, hplaceless⟩ := exists_ofText hmark h
  obtain ⟨found, more, rfl, hfound, hmore⟩ := Grammar.placelessAll_eq_cons hplaceless
  obtain rfl := Grammar.eq_nil_of_placelessAll hmore
  exact ⟨found, htrees, hfound⟩

/-- What the lexemes stand for that are behind the delimiters of open groups and the trees before
these. -/
def lexemesBefore : List OpenGroup → List Lexeme
  | [] => []
  | innermost :: groups =>
    lexemesBefore groups ++ lexemesAll innermost.outer.reverse ++
      [.opening innermost.delimiter .start]

theorem lexemesAll_of_nest {stuck : Option Position} {groups : List OpenGroup}
    {trees result : List TokenTree} {found : List Lexeme}
    (hsingle : ∀ lexeme ∈ found, lexeme.IsSingle)
    (h : nest stuck groups trees found = .ok result) :
    stuck = none ∧ lexemesAll result =
      lexemesBefore groups ++ lexemesAll trees.reverse ++ found.map Lexeme.placeless := by
  fun_induction nest stuck groups trees found with
  | case1 groups trees pos => cases h
  | case2 trees hstuck =>
    cases h
    exact ⟨hstuck, by simp [lexemesBefore]⟩
  | case3 trees innermost groups => cases h
  | case4 groups trees token rest ih =>
    obtain ⟨hfirst, hrest⟩ := List.forall_mem_cons.1 hsingle
    obtain ⟨hstuck, hresult⟩ := ih hrest h
    refine ⟨hstuck, hresult.trans ?_⟩
    cases token with
    | group => exact hfirst.elim
    | _ => simp [lexemesAll, lexemes, Lexeme.placeless]
  | case5 groups trees d pos rest ih =>
    obtain ⟨hstuck, hresult⟩ := ih (List.forall_mem_cons.1 hsingle).2 h
    refine ⟨hstuck, hresult.trans ?_⟩
    simp [lexemesAll, lexemesBefore, Lexeme.placeless]
  | case6 trees d pos rest => cases h
  | case7 innermost groups trees pos rest ih =>
    obtain ⟨hstuck, hresult⟩ := ih (List.forall_mem_cons.1 hsingle).2 h
    refine ⟨hstuck, hresult.trans ?_⟩
    simp [lexemesAll, lexemesBefore, lexemes, Lexeme.placeless]
  | case8 => cases h

/-- What a text is read as, its lexemes are. -/
theorem cut_of_ofChars {pos : Position} {text : List Char} {trees : List TokenTree}
    (h : ofChars pos text = .ok trees) : Cut text (lexemesAll trees) := by
  rw [ofChars] at h
  rcases hfound : Lexeme.ofText pos text with ⟨found, stuck⟩
  have hsingle : ∀ lexeme ∈ (Lexeme.ofText pos text).1, lexeme.IsSingle :=
    Lexeme.isSingle_of_ofText
  rw [hfound] at h hsingle
  obtain ⟨rfl, hlexemes⟩ := lexemesAll_of_nest hsingle h
  simpa [hlexemes, lexemesBefore, lexemesAll] using Lexeme.cut_of_ofText hfound

theorem cut_of_ofText {text : String} {trees : List TokenTree}
    (hmark : text.toList.head? ≠ some '\ufeff') (h : ofText text = .ok trees) :
    Cut text.toList (lexemesAll trees) :=
  cut_of_ofChars ((ofText_eq_ofChars hmark).symm.trans h)

end TokenTree

/-! ### Pieces of lines -/

namespace Lexeme

open Token
open Grammar (ofWord ofMark ofJoint)
open TokenTree (lexemesAll)

/-! ### The beginning of a token -/

/-- The characters that open and close groups. -/
def delimiterChars : List Char := ['(', ')', '[', ']', '\x7b', '\x7d']

theorem not_delimiter {c : Char} (h : c ∉ delimiterChars) :
    Delimiter.ofClosing? c = none ∧ Delimiter.ofOpening? c = none := by
  simp only [delimiterChars, List.mem_cons, List.not_mem_nil, or_false, not_or] at h
  simp [Delimiter.ofClosing?, Delimiter.ofOpening?, h]

theorem not_delimiter_of_isIdentifierStart {c : Char} (h : isIdentifierStart c = true) :
    Delimiter.ofClosing? c = none ∧ Delimiter.ofOpening? c = none := by
  have hall : ∀ d ∈ delimiterChars, isIdentifierStart d = false :=
    List.all_iff_forall_prop.1 (by decide +kernel)
  exact not_delimiter fun hmem => ne_of_isIdentifierStart h (hall c hmem) rfl

/-- A token that no blank, comment or delimiter hides. -/
theorem next?_of_token? {c : Char} {text : List Char} (hblank : isBlank c = false)
    (hcomment : comment? (c :: text) = none) (hclosing : Delimiter.ofClosing? c = none)
    (hopening : Delimiter.ofOpening? c = none) :
    next? .start (c :: text) = (token? .start (c :: text)).map fun (token, rest) =>
      ([leaf token], rest) := by
  rw [next?, hblank, hcomment, hclosing, hopening]
  rfl

/-- No blank, comment or delimiter begins like a literal. -/
theorem not_hidden_of_afterLiteral? {c : Char} {more behind : List Char}
    (h : afterLiteral? (c :: more) = some behind) :
    isBlank c = false ∧ c ≠ '/' ∧ Delimiter.ofClosing? c = none ∧
      Delimiter.ofOpening? c = none := by
  rcases start_of_afterLiteral? h with hstart | rfl | rfl | hdigit
  · exact ⟨isBlank_eq_false hstart, ne_of_isIdentifierStart hstart (by decide),
      not_delimiter_of_isIdentifierStart hstart⟩
  · decide
  · decide
  · have hlow : 48 ≤ c.toNat := (Char.isDigit_iff_toNat.1 hdigit).1
    have hhigh : c.toNat ≤ 57 := (Char.isDigit_iff_toNat.1 hdigit).2
    have hall : ∀ n ∈ blankCodes, n < 48 ∨ 57 < n := by decide
    have hne : ∀ d ∈ '/' :: delimiterChars, d.toNat < 48 ∨ 57 < d.toNat :=
      List.all_iff_forall_prop.1 (by decide)
    have hmem : c ∉ '/' :: delimiterChars := fun hmem => by
      have := hne c hmem
      omega
    refine ⟨Bool.eq_false_iff.2 fun hblank => ?_, fun hslash => hmem (hslash ▸ List.mem_cons_self),
      not_delimiter fun hc => hmem (List.mem_cons_of_mem _ hc)⟩
    have := hall _ (toNat_mem_blankCodes hblank)
    omega

/-- A mark that begins neither a comment nor a lifetime. -/
theorem next?_of_mark? {c : Char} {rest : List Char} (hapostrophe : c ≠ '\x27')
    (hmark : mark? (c :: rest) = some c) :
    next? .start (c :: rest) = some ([.leaf (.mark c (mark? rest).isSome .start)], rest) := by
  have hc := (mark?_eq_some_iff.1 hmark).1
  have hliteral : afterLiteral? (c :: rest) = none := by
    have hall : ∀ c ∈ markChars, c ≠ '\x22' ∧ c.isDigit = false :=
      List.all_iff_forall_prop.1 (by decide +kernel)
    obtain ⟨hquote, hdigit⟩ := hall c (List.contains_iff_mem.1 hc)
    refine Option.eq_none_iff_forall_ne_some.2 fun behind hbehind => ?_
    rcases start_of_afterLiteral? hbehind with hstart | heq | heq | heq
    · rw [isIdentifierStart_of_mark hc] at hstart
      cases hstart
    · exact hquote heq
    · exact hapostrophe heq
    · rw [hdigit] at heq
      cases heq
  obtain ⟨hblank, hclosing, hopening⟩ := not_blank_of_isMark hc
  rw [next?_of_token? hblank (comment?_of_mark? hmark) hclosing hopening,
    token?_mark hliteral hmark hapostrophe]
  rfl

theorem afterLiteral?_quoted (value : String) :
    afterLiteral? (Text.quoted value).toList = some [] := by
  have htext : (Text.quoted value).toList = '\x22' :: (escapeAll value.toList ++ ['\x22']) := by
    simp [Text.quoted]
  rw [htext, afterLiteral?_quote, afterString?, readQuoted_escapeAll]
  rfl

namespace Cut

variable {text rest : List Char} {lexemes more : List Lexeme}

theorem cons {lexeme : Lexeme} (hnext : next? .start text = some ([lexeme], rest))
    (hlt : rest.length < text.length) (h : Cut rest more) : Cut text (lexeme.placeless :: more) :=
  .next hnext hlt h

theorem word {name : String} (hname : isWord name.toList = true)
    (hstop : ∀ d ∈ rest.head?, d ∈ wordStops) (h : Cut rest more) :
    Cut (name.toList ++ rest) (.leaf (.word name .start) :: more) := by
  have hne : 0 < name.toList.length := by
    obtain ⟨c, tail, hlist, -⟩ := exists_start_of_isWord hname
    simp [hlist]
  have hcons := Cut.cons (next?_word hname hstop .start) (by rw [List.length_append]; omega) h
  rwa [String.ofList_toList] at hcons

/-- The marks that begin neither a comment nor a lifetime. -/
def plainMarks : List Char := "~!@#$%^&*-=+|;:,<.>?".toList

theorem next?_plainMark {c : Char} (hmark : c ∈ plainMarks) (rest : List Char) :
    next? .start (c :: rest) = some ([.leaf (.mark c (mark? rest).isSome .start)], rest) := by
  have hall : ∀ c ∈ plainMarks, isMark c = true ∧ c ≠ '/' ∧ c ≠ '\x27' :=
    List.all_iff_forall_prop.1 (by decide +kernel)
  obtain ⟨hc, hslash, hapostrophe⟩ := hall c hmark
  exact next?_of_mark? hapostrophe (mark?_eq_some_iff.2 ⟨hc, fun heq => absurd heq hslash⟩)

theorem isSome_mark?_of_mem {c : Char} (h : c ∈ plainMarks) (rest : List Char) :
    (mark? (c :: rest)).isSome = true := by
  have hall : ∀ c ∈ plainMarks, isMark c = true ∧ c ≠ '/' :=
    List.all_iff_forall_prop.1 (by decide +kernel)
  obtain ⟨hc, hslash⟩ := hall c h
  unfold mark?
  split <;> simp_all

theorem isSome_mark?_of_not {c : Char} (h : isMark c = false) (rest : List Char) :
    (mark? (c :: rest)).isSome = false := by
  unfold mark?
  split <;> simp_all

theorem mark {c : Char} (hmark : c ∈ plainMarks) (h : Cut rest more) :
    Cut (c :: rest) (.leaf (.mark c (mark? rest).isSome .start) :: more) :=
  Cut.cons (next?_plainMark hmark rest) (Nat.lt_succ_self _) h

/-- A literal, in front of a stop. -/
theorem literal {text : String} (hliteral : afterLiteral? text.toList = some [])
    (hstop : ∀ d ∈ rest.head?, d ∈ wordStops) (h : Cut rest more) :
    Cut (text.toList ++ rest) (.leaf (.literal text .start) :: more) := by
  have hbehind := afterLiteral?_of_ends (ends_of_stops hstop) hliteral
  have htoken : token? .start (text.toList ++ rest) = some (.literal text .start, rest) := by
    rw [token?, hbehind]
    dsimp only
    rw [List.nil_append, before_append, String.ofList_toList]
  cases hlist : text.toList with
  | nil => rw [hlist] at hliteral; cases hliteral
  | cons c tail =>
    rw [hlist] at hliteral htoken
    obtain ⟨hblank, hslash, hclosing, hopening⟩ := not_hidden_of_afterLiteral? hliteral
    have hnext := next?_of_token? hblank (comment?_eq_none hslash (tail ++ rest)) hclosing hopening
    rw [← List.cons_append, htoken] at hnext
    have hshorter : rest.length < (c :: tail ++ rest).length := by
      rw [List.length_append, List.length_cons]
      omega
    exact Cut.cons hnext hshorter h

/-- The literal of a text, in front of a stop. -/
theorem quoted (value : String) (hstop : ∀ d ∈ rest.head?, d ∈ wordStops) (h : Cut rest more) :
    Cut ((Text.quoted value).toList ++ rest)
      (.leaf (.literal (Text.quoted value) .start) :: more) :=
  literal (afterLiteral?_quoted value) hstop h

/-- Names with `::` in front of each, in front of a stop. -/
theorem separated {names : List String} (hnames : ∀ name ∈ names, isWord name.toList = true)
    (hstop : ∀ d ∈ rest.head?, d ∈ wordStops) (h : Cut rest more) :
    Cut ((ModulePath.separated names).toList ++ rest)
      (TokenTree.lexemesAll (Grammar.separated names) ++ more) := by
  induction names with
  | nil => exact h
  | cons name names ih =>
    obtain ⟨hname, hnames⟩ := List.forall_mem_cons.1 hnames
    have hstop' : ∀ d ∈ ((ModulePath.separated names).toList ++ rest).head?, d ∈ wordStops := by
      cases names with
      | nil => exact hstop
      | cons => rw [toList_separated_cons]; simp [wordStops]
    have hmark : mark? (name.toList ++ ((ModulePath.separated names).toList ++ rest)) = none := by
      obtain ⟨c, tail, hlist, hstart⟩ := exists_start_of_isWord hname
      rw [hlist]
      exact mark?_eq_none hstart _
    have hcolon : ':' ∈ plainMarks := by decide
    have hcolons := Cut.mark hcolon (Cut.mark hcolon (Cut.word hname hstop' (ih hnames)))
    rw [hmark] at hcolons
    rw [toList_separated_cons, List.cons_append, List.cons_append, List.append_assoc]
    exact hcolons

/-- A mark with another one behind it. -/
theorem joint {c d : Char} (hc : c ∈ plainMarks) (hd : d ∈ plainMarks)
    (h : Cut (d :: rest) more) : Cut (c :: d :: rest) (.leaf (ofJoint c) :: more) := by
  have hcut := Cut.mark hc h
  rwa [isSome_mark?_of_mem hd] at hcut

/-- A mark with no other one behind it. -/
theorem alone {c d : Char} (hc : c ∈ plainMarks) (hd : isMark d = false)
    (h : Cut (d :: rest) more) : Cut (c :: d :: rest) (.leaf (ofMark c) :: more) := by
  have hcut := Cut.mark hc h
  rwa [isSome_mark?_of_not hd] at hcut

/-- A mark at the end of a line. -/
theorem lastMark {c : Char} (hc : c ∈ plainMarks) : Cut [c] [.leaf (ofMark c)] :=
  Cut.mark hc .nil

/-- A word with a blank behind it. -/
theorem wordBlank {name : String} (hname : isWord name.toList = true) (h : Cut rest more) :
    Cut (name.toList ++ ' ' :: rest) (.leaf (ofWord name) :: more) :=
  Cut.word hname (by simp [wordStops]) (h.blank (by decide))

/-- The beginning of a group, where no block comment follows. -/
theorem opened {d : Delimiter} (hrest : ¬ ['/', '*'] <+: rest) (h : Cut rest more) :
    Cut (d.opening :: rest) (.opening d .start :: more) := by
  have herror : ¬ errorLiteral.isPrefixOf (d.opening :: rest) = true := by
    rw [List.isPrefixOf_iff_prefix]
    rintro ⟨tail, htail⟩
    exact hrest ((List.cons.inj htail).2 ▸ ⟨_, rfl⟩)
  have hnext : next? .start (d.opening :: rest) = some ([.opening d .start], rest) := by
    cases d with
    | parenthesis => exact if_neg herror
    | bracket => rfl
    | brace => rfl
  exact Cut.cons hnext (Nat.lt_succ_self _) h

/-- The beginning of a group, where no comment follows. -/
theorem opening {d : Delimiter} (hrest : rest.head? ≠ some '/') (h : Cut rest more) :
    Cut (d.opening :: rest) (.opening d .start :: more) :=
  opened (by rintro ⟨tail, rfl⟩; exact hrest rfl) h

/-- The end of a group. -/
theorem closing {d : Delimiter} (h : Cut rest more) :
    Cut (d.closing :: rest) (.closing d .start :: more) := by
  have hnext : next? .start (d.closing :: rest) = some ([.closing d .start], rest) := by
    cases d <;> rfl
  exact Cut.cons hnext (Nat.lt_succ_self _) h

/-- A path from the crate root. -/
theorem path (hnames : ∀ name ∈ names, isWord name.toList = true)
    (hstop : ∀ d ∈ rest.head?, d ∈ wordStops) (h : Cut rest more) :
    Cut ("crate".toList ++ ((ModulePath.separated names).toList ++ rest))
      (lexemesAll (ofWord "crate" :: Grammar.separated names) ++ more) := by
  have hbehind : ∀ d ∈ ((ModulePath.separated names).toList ++ rest).head?, d ∈ wordStops := by
    cases names with
    | nil => exact hstop
    | cons => rw [toList_separated_cons]; simp [wordStops]
  exact Cut.word (by decide +kernel) hbehind (Cut.separated hnames hstop h)

end Cut

end Lexeme

/-! ### Lines -/

/-- A line with its indentation and line break. -/
def Line.written (l : Line) : List Char :=
  (if l.text.isEmpty then [] else (Draft.indentation l.level).toList ++ l.text.toList) ++ ['\n']

theorem Draft.toList_textOf (lines : List Line) :
    (Draft.textOf lines).toList = lines.flatMap Line.written := by
  have hlines : ∀ draft : Draft, (draft.lines lines).written.toList =
      draft.written.toList ++ lines.flatMap Line.written := by
    induction lines with
    | nil => simp
    | cons l rest ih =>
      intro draft
      have hline : (draft.line l).written.toList = draft.written.toList ++ l.written := by
        rw [Draft.line, Line.written]
        split <;> simp [Draft.breakLine, Draft.emit, Draft.indent]
      show ((draft.line l).lines rest).written.toList = _
      rw [ih, hline, List.flatMap_cons, List.append_assoc]
  exact (hlines Draft.empty).trans (by simp [Draft.empty])

open Lexeme

/-- The lines are read as these lexemes, whatever follows them. -/
def Draws (lines : List Line) (lexemes : List Lexeme) : Prop :=
  ∀ ⦃rest : List Char⦄ ⦃more : List Lexeme⦄, Cut rest more →
    Cut (lines.flatMap Line.written ++ rest) (lexemes ++ more)

namespace Draws

variable {lines lines' : List Line} {lexemes lexemes' : List Lexeme}

theorem nil : Draws [] [] := fun _ _ h => h

theorem append (h : Draws lines lexemes) (h' : Draws lines' lexemes') :
    Draws (lines ++ lines') (lexemes ++ lexemes') := by
  intro rest more hrest
  rw [List.flatMap_append, List.append_assoc, List.append_assoc]
  exact h (h' hrest)

/-- A line is read as its text. -/
theorem line {l : Line} (h : Cut l.text.toList lexemes) : Draws [l] lexemes := by
  intro rest more hrest
  have hblanks : ∀ n, Cut (List.replicate n ' ' ++ (l.text.toList ++ '\n' :: rest))
      (lexemes ++ more) := by
    intro n
    induction n with
    | zero => exact h.line hrest
    | succ n ih => exact ih.blank (by decide)
  rw [List.flatMap_singleton, Line.written, List.append_assoc]
  split
  · next hempty =>
    rw [String.isEmpty_iff.1 hempty] at h
    rw [h.eq_nil]
    exact hrest.blank (by decide)
  · rw [Draft.indentation, String.toList_ofList, List.append_assoc]
    exact hblanks _

theorem cons {l : Line} (h : Cut l.text.toList lexemes) (h' : Draws lines lexemes') :
    Draws (l :: lines) (lexemes ++ lexemes') := (line h).append h'

theorem flatMap {α : Type} {as : List α} {f : α → List Line} {g : α → List Lexeme}
    (h : ∀ a ∈ as, Draws (f a) (g a)) : Draws (as.flatMap f) (as.flatMap g) := by
  induction as with
  | nil => exact nil
  | cons a as ih =>
    obtain ⟨ha, has⟩ := List.forall_mem_cons.1 h
    rw [List.flatMap_cons, List.flatMap_cons]
    exact ha.append (ih has)

/-- What lines are read as, their text is. -/
theorem cut_textOf (h : Draws lines lexemes) : Cut (Draft.textOf lines).toList lexemes := by
  have hnil := h .nil
  rwa [List.append_nil, List.append_nil, ← Draft.toList_textOf] at hnil

end Draws

end DescriptionLookup
