import DescriptionLookup.Proofs.ParsedItems
import Mathlib.Data.Bool.AllAny
import Mathlib.Data.List.TakeWhile

/-!
# Reading written paths

The written form of a symbol is read as the path of the symbol: the word `crate`, and the names
behind it, each with two colons in front. Nothing else comes of it, however the names are spelled,
because a word ends where a colon follows, and no word is the beginning of a literal.

* `afterLiteral?_eq_none`: what begins like a word, and not like a string, is no literal;
* `Lexeme.next?_word`: a word in front of a colon, or of nothing, is one token;
* `Lexeme.readsAs_separated`: the trees of names with separators in front of them;
* `Grammar.exists_typePath_separated`: reading these trees as a path;
* `Grammar.parsePath_separated`: the two together.
-/

namespace DescriptionLookup

open Text Token

/-! ### The first character of a word -/

section Characters

variable {c : Char}

theorem le_toNat_of_isIdentifierStart (h : isIdentifierStart c = true) : 65 ≤ c.toNat := by
  simp only [isIdentifierStart, Bool.or_eq_true, beq_iff_eq] at h
  rcases h with rfl | h
  · decide
  · rw [show xidStart = (65, 91) :: xidStart.tail from rfl, Intervals.holds_cons] at h
    simp only [Bool.and_eq_true, decide_eq_true_eq] at h
    exact h.1

theorem ne_of_isIdentifierStart {d : Char} (h : isIdentifierStart c = true)
    (hd : isIdentifierStart d = false) : c ≠ d := by
  rintro rfl
  rw [h] at hd
  cases hd

/-- The code points of blanks. -/
def blankCodes : List Nat :=
  [0x9, 0xa, 0xb, 0xc, 0xd, 0x20, 0x85, 0xa0, 0x1680, 0x2000, 0x2001, 0x2002, 0x2003, 0x2004,
    0x2005, 0x2006, 0x2007, 0x2008, 0x2009, 0x200a, 0x200e, 0x200f, 0x2028, 0x2029, 0x202f, 0x205f,
    0x3000]

theorem toNat_mem_blankCodes (h : isBlank c = true) : c.toNat ∈ blankCodes := by
  simp only [isBlank, isWhiteSpace, Bool.or_eq_true, Bool.and_eq_true, decide_eq_true_eq,
    beq_iff_eq, ← Char.toNat_inj, Char.reduceToNat] at h
  simp only [blankCodes, List.mem_cons, List.not_mem_nil, or_false]
  omega

theorem isBlank_eq_false (h : isIdentifierStart c = true) : isBlank c = false := by
  have hall : ∀ n ∈ blankCodes, n ≠ 95 ∧ xidStart.holds n = false := by decide +kernel
  refine Bool.eq_false_iff.2 fun hblank => ?_
  obtain ⟨hne, hholds⟩ := hall _ (toNat_mem_blankCodes hblank)
  simp only [isIdentifierStart, hholds, Bool.or_false, beq_iff_eq] at h
  exact hne (congrArg Char.toNat h)

theorem not_digit_of_isIdentifierStart (h : isIdentifierStart c = true) :
    ¬ ('0' ≤ c ∧ c ≤ '9') := by
  rintro ⟨-, hle⟩
  have hlow := le_toNat_of_isIdentifierStart h
  have hhigh : c.toNat ≤ 57 := hle
  omega

theorem isDigit_eq_false (h : isIdentifierStart c = true) : c.isDigit = false := by
  have hlow := le_toNat_of_isIdentifierStart h
  refine Bool.eq_false_iff.2 fun hdigit => ?_
  have hhigh : c.toNat ≤ 57 := (Char.isDigit_iff_toNat.1 hdigit).2
  omega

theorem le_of_hexDigit? {d : Nat} (h : isIdentifierStart c = true) (hd : hexDigit? c = some d) :
    10 ≤ d := by
  unfold hexDigit? at hd
  rw [if_neg (not_digit_of_isIdentifierStart h)] at hd
  split at hd
  · next hletter =>
    have hlow : 97 ≤ c.toNat := hletter.1
    cases hd
    omega
  · split at hd
    · have hlow := le_toNat_of_isIdentifierStart h
      cases hd
      omega
    · cases hd

end Characters

/-! ### No literal begins like a word -/

namespace Token

section Literals

variable {c : Char} {text rest : List Char} {kind : StringKind}

theorem afterFloat?_eq_none (h : isIdentifierStart c = true) (rest : List Char) :
    afterFloat? (c :: rest) = none := by
  rw [afterFloat?, isDigit_eq_false h]
  rfl

theorem afterWhole?_eq_none (h : isIdentifierStart c = true) (rest : List Char) :
    afterWhole? (c :: rest) = none := by
  have hzero : c ≠ '0' := ne_of_isIdentifierStart h (by decide)
  have hdigits : afterDigits? 10 true (c :: rest) = none := by
    unfold afterDigits?
    cases hhex : hexDigit? c with
    | some d =>
      have hd := le_of_hexDigit? h hhex
      dsimp only
      rw [if_neg (by omega), if_neg (by omega), if_pos rfl]
    | none => by_cases hlow : c = '_' <;> simp [hlow]
  unfold afterWhole?
  split
  · next heq => exact absurd (List.cons.inj heq).1 hzero
  · next heq => exact absurd (List.cons.inj heq).1 hzero
  · next heq => exact absurd (List.cons.inj heq).1 hzero
  · rw [hdigits]
    rfl

theorem afterString?_eq_none (hquote : text.head? ≠ some '\x22') :
    afterString? kind text = none := by
  unfold afterString?
  split
  · exact absurd rfl hquote
  · rfl

theorem openRaw_eq_none {count : Nat} (hquote : text.head? ≠ some '\x22')
    (hhash : text.head? ≠ some '#') : openRaw count text = none := by
  unfold openRaw
  split
  · exact absurd rfl hhash
  · exact absurd rfl hquote
  · rfl

theorem afterRawString?_eq_none (h : openRaw 0 text = none) : afterRawString? kind text = none := by
  rw [afterRawString?, h]
  rfl

/-- The text begins like a word, and not like a string. -/
theorem afterLiteral?_eq_none (hstart : isIdentifierStart c = true)
    (hopening : ∀ opening ∈ stringOpenings, ¬ opening <+: c :: rest) :
    afterLiteral? (c :: rest) = none := by
  have hbehind : ∀ lead more d, c :: rest = lead ++ more → lead ++ [d] ∈ stringOpenings →
      more.head? ≠ some d := by
    intro lead more d heq hmem hhead
    obtain ⟨tail, rfl⟩ := List.head?_eq_some_iff.1 hhead
    exact hopening _ hmem ⟨tail, by simp [heq]⟩
  -- Numbers are out by the first character. What is left are the ways in which a string begins, and
  -- each of them but a quotation mark alone begins like a word, so that `hopening` is needed.
  unfold afterLiteral?
  rw [afterFloat?_eq_none hstart, afterWhole?_eq_none hstart]
  split
  case h_1 more heq =>
    rw [afterRawString?_eq_none]
    · rfl
    · have hquote := hbehind ['r'] more '\x22' heq (by decide)
      by_cases hhash : more.head? = some '#'
      · obtain ⟨tail, rfl⟩ := List.head?_eq_some_iff.1 hhash
        show openRaw 1 tail = none
        exact openRaw_eq_none (hbehind ['r', '#'] tail '\x22' heq (by decide))
          (hbehind ['r', '#'] tail '#' heq (by decide))
      · exact openRaw_eq_none hquote hhash
  case h_2 more heq =>
    rw [afterRawString?_eq_none (openRaw_eq_none (hbehind ['b', 'r'] more '\x22' heq (by decide))
      (hbehind ['b', 'r'] more '#' heq (by decide)))]
    rfl
  case h_3 more heq => exact absurd rfl (hbehind ['b'] ('\x27' :: more) '\x27' heq (by decide))
  case h_4 more _ _ heq =>
    rw [afterString?_eq_none (hbehind ['b'] more '\x22' heq (by decide))]
    rfl
  case h_5 more heq =>
    rw [afterRawString?_eq_none (openRaw_eq_none (hbehind ['c', 'r'] more '\x22' heq (by decide))
      (hbehind ['c', 'r'] more '#' heq (by decide)))]
    rfl
  case h_6 more _ heq =>
    rw [afterString?_eq_none (hbehind ['c'] more '\x22' heq (by decide))]
    rfl
  case h_7 heq => exact absurd (List.cons.inj heq).1 (ne_of_isIdentifierStart hstart (by decide))
  case h_8 =>
    have hquote : (c :: rest).head? ≠ some '\x22' := by
      simpa using ne_of_isIdentifierStart hstart (by decide)
    rw [afterString?_eq_none hquote]
    rfl

end Literals

/-! ### Words -/

section Words

variable {name rest : List Char}

/-- An identifier that is the whole text. -/
theorem afterIdentifier?_eq_nil_iff : afterIdentifier? name = some [] ↔
    ∃ c more, name = c :: more ∧ isIdentifierStart c = true ∧
      ∀ d ∈ more, isIdentifierPart d = true := by
  cases name with
  | nil => simp [afterIdentifier?]
  | cons c more =>
    simp only [afterIdentifier?, Option.ite_none_right_eq_some, Option.some.injEq,
      List.dropWhile_eq_nil_iff, List.cons.injEq]
    constructor
    · rintro ⟨hstart, hmore⟩
      exact ⟨c, more, ⟨rfl, rfl⟩, hstart, hmore⟩
    · rintro ⟨_, _, ⟨rfl, rfl⟩, hstart, hmore⟩
      exact ⟨hstart, hmore⟩

/-- Characters behind which no word goes on, and no string begins with a word in front of them. -/
def wordStops : List Char := [':', ' ', ';', ',', '(', ')', ']', '<']

theorem afterIdentifier?_append (h : afterIdentifier? name = some [])
    (hrest : ∀ d ∈ rest.head?, d ∈ wordStops) : afterIdentifier? (name ++ rest) = some rest := by
  obtain ⟨c, more, rfl, hstart, hmore⟩ := afterIdentifier?_eq_nil_iff.1 h
  have hbehind : rest.dropWhile isIdentifierPart = rest := by
    cases rest with
    | nil => rfl
    | cons d rest =>
      have hstops : ∀ d ∈ wordStops, ¬ isIdentifierPart d = true :=
        List.all_iff_forall_prop.1 (by decide +kernel)
      exact List.dropWhile_cons_of_neg (hstops d (hrest d rfl))
  rw [List.cons_append, afterIdentifier?, if_pos hstart, List.dropWhile_append_of_pos hmore,
    hbehind]

/-- A word, raw or not, ends where a stop follows. -/
theorem afterWord?_append (h : afterWord? name = some []) (hrest : ∀ d ∈ rest.head?, d ∈ wordStops) :
    afterWord? (name ++ rest) = some rest := by
  unfold afterWord? at h
  split at h
  · next body =>
    obtain ⟨behind, hbehind, h⟩ := Option.bind_eq_some_iff.1 h
    split at h
    · cases h
    · next hraw =>
      obtain rfl : behind = [] := Option.some.inj h
      -- What must never be raw is judged by the word alone, not by what follows.
      have hbody : before (body ++ rest) rest = before body [] := by simp [before]
      rw [List.cons_append, List.cons_append, afterWord?, afterIdentifier?_append hbehind hrest]
      show (if neverRaw.contains (String.ofList (before (body ++ rest) rest)) = true then _
        else _) = _
      rw [hbody, if_neg hraw]
  · have hname := afterIdentifier?_append h hrest
    obtain ⟨c, more, rfl, -, hmore⟩ := afterIdentifier?_eq_nil_iff.1 h
    unfold afterWord?
    split
    · next body heq =>
      obtain ⟨rfl, hmark⟩ := List.cons.inj heq
      rcases List.append_eq_cons_iff.1 hmark with ⟨-, rfl⟩ | ⟨more, rfl, -⟩
      · exact absurd (hrest '#' rfl) (by decide)
      · exact absurd (hmore '#' List.mem_cons_self) (by decide)
    · exact hname

theorem isWord_iff : isWord name = true ↔
    (∀ opening ∈ stringOpenings, ¬ opening <+: name) ∧ afterWord? name = some [] := by
  simp only [isWord, beq_iff_eq, afterPlainWord?, Option.ite_none_left_eq_some, List.any_eq_true,
    List.isPrefixOf_iff_prefix, not_exists, not_and]

theorem exists_start_of_isWord (h : isWord name = true) :
    ∃ c more, name = c :: more ∧ isIdentifierStart c = true := by
  have hword := (isWord_iff.1 h).2
  unfold afterWord? at hword
  split at hword
  · next body => exact ⟨'r', '#' :: body, rfl, by decide⟩
  · obtain ⟨c, more, rfl, hstart, -⟩ := afterIdentifier?_eq_nil_iff.1 hword
    exact ⟨c, more, rfl, hstart⟩

/-- The beginning of a string has no stop in it. -/
theorem not_opening_append (h : ∀ opening ∈ stringOpenings, ¬ opening <+: name)
    (hrest : ∀ d ∈ rest.head?, d ∈ wordStops) :
    ∀ opening ∈ stringOpenings, ¬ opening <+: name ++ rest := by
  have hall : ∀ opening ∈ stringOpenings, wordStops.all (· ∉ opening) = true := by decide
  intro opening hmem hprefix
  rcases List.prefix_or_prefix_of_prefix hprefix (List.prefix_append name rest) with
    hname | ⟨more, rfl⟩
  · exact h opening hmem hname
  · have hmore : more <+: rest := (List.prefix_append_right_inj name).1 hprefix
    cases more with
    | nil => exact h _ hmem (by simp)
    | cons d more =>
      have hstop : d ∈ wordStops :=
        hrest d (List.head?_eq_some_iff.2 ⟨_, hmore.choose_spec.symm⟩)
      exact List.all_iff_forall_prop.1 (hall _ hmem) d hstop
        (List.mem_append_right _ List.mem_cons_self)

end Words

end Token

/-! ### Tokens -/

namespace Lexeme

section Tokens

variable {c : Char} {name rest : List Char}

theorem mark?_eq_none (h : isIdentifierStart c = true) (rest : List Char) :
    mark? (c :: rest) = none := by
  have hall : (markChars.all fun d => !isIdentifierStart d) = true := by decide +kernel
  have hmark : isMark c = false := by
    refine Bool.eq_false_iff.2 fun hmark => ?_
    have hno := List.all_eq_true.1 hall c (List.contains_iff_mem.1 hmark)
    rw [h] at hno
    cases hno
  unfold mark?
  split
  · rfl
  · rfl
  · next heq =>
    cases heq
    rw [hmark]
    rfl
  · rfl

theorem comment?_eq_none (h : c ≠ '/') (rest : List Char) : comment? (c :: rest) = none := by
  unfold comment?
  split
  case h_10 => rfl
  all_goals
    next heq => exact absurd (List.cons.inj heq).1 h

/-- What begins like a word, and not like a string, is a word as far as that goes. -/
theorem token?_of_afterWord? {more behind : List Char} (hstart : isIdentifierStart c = true)
    (hopening : ∀ opening ∈ stringOpenings, ¬ opening <+: c :: more)
    (hword : afterWord? (c :: more) = some behind) (pos : Position) :
    token? pos (c :: more) =
      some (.word (String.ofList (before (c :: more) behind)) pos, behind) := by
  have hplain : afterPlainWord? (c :: more) = some behind := by
    rw [afterPlainWord?, hword, if_neg]
    simpa [List.any_eq_true, List.isPrefixOf_iff_prefix] using hopening
  rw [token?, afterLiteral?_eq_none hstart hopening, mark?_eq_none hstart, hplain]

theorem token?_word (hname : isWord name = true) (hrest : ∀ d ∈ rest.head?, d ∈ wordStops)
    (pos : Position) :
    token? pos (name ++ rest) = some (.word (String.ofList name) pos, rest) := by
  obtain ⟨hopening, hword⟩ := isWord_iff.1 hname
  have hopening' := not_opening_append hopening hrest
  have hword' := afterWord?_append hword hrest
  obtain ⟨c, more, rfl, hstart⟩ := exists_start_of_isWord hname
  rw [List.cons_append] at hopening' hword' ⊢
  rw [token?_of_afterWord? hstart hopening' hword', ← List.cons_append, before_append]

/-- A word in front of a stop, or of nothing, is one token. -/
theorem next?_word (hname : isWord name = true) (hrest : ∀ d ∈ rest.head?, d ∈ wordStops)
    (pos : Position) :
    next? pos (name ++ rest) = some ([.leaf (.word (String.ofList name) pos)], rest) := by
  have htoken := token?_word hname hrest pos
  obtain ⟨c, more, rfl, hstart⟩ := exists_start_of_isWord hname
  have hcomment : comment? (c :: (more ++ rest)) = none :=
    comment?_eq_none (ne_of_isIdentifierStart hstart (by decide)) _
  have hclosing : Delimiter.ofClosing? c = none := by
    simp [Delimiter.ofClosing?, ne_of_isIdentifierStart hstart (d := ')') (by decide),
      ne_of_isIdentifierStart hstart (d := ']') (by decide),
      ne_of_isIdentifierStart hstart (d := '\x7d') (by decide)]
  have hopening : Delimiter.ofOpening? c = none := by
    simp [Delimiter.ofOpening?, ne_of_isIdentifierStart hstart (d := '(') (by decide),
      ne_of_isIdentifierStart hstart (d := '[') (by decide),
      ne_of_isIdentifierStart hstart (d := '\x7b') (by decide)]
  rw [List.cons_append] at htoken ⊢
  rw [next?, isBlank_eq_false hstart, hcomment, hclosing, hopening, htoken]
  rfl

theorem next?_colon (rest : List Char) (pos : Position) :
    next? pos (':' :: rest) = some ([.leaf (.mark ':' (mark? rest).isSome pos)], rest) := rfl

end Tokens

/-! ### Trees -/

/-- The trees of names with separators in front of them. -/
inductive Separated : List String → List TokenTree → Prop
  | nil : Separated [] []
  | cons {names : List String} {trees : List TokenTree} (name : String)
    (first second pos : Position) : Separated names trees →
    Separated (name :: names)
      (.mark ':' true first :: .mark ':' false second :: .word name pos :: trees)

theorem Separated.length_le {names : List String} {trees : List TokenTree}
    (h : Separated names trees) : names.length ≤ trees.length := by
  induction h with
  | nil => exact Nat.le_refl 0
  | cons name first second pos _ ih =>
    simp only [List.length_cons]
    omega

/-- Wherever it begins, the text is read to its end, as trees of this kind. -/
def ReadsAs (text : List Char) (P : List TokenTree → Prop) : Prop :=
  ∀ pos, ∃ trees, ofText pos text = (trees.map .leaf, none) ∧ P trees

namespace ReadsAs

variable {text rest : List Char} {P Q : List TokenTree → Prop}

theorem imp (h : ReadsAs text P) (himp : ∀ trees, P trees → Q trees) : ReadsAs text Q := by
  intro pos
  obtain ⟨trees, htrees, hP⟩ := h pos
  exact ⟨trees, htrees, himp trees hP⟩

/-- One token, and what follows it. -/
theorem cons {tree : Position → TokenTree} (h : ReadsAs rest P)
    (hnext : ∀ pos, next? pos text = some ([.leaf (tree pos)], rest))
    (hlt : rest.length < text.length) :
    ReadsAs text fun trees => ∃ pos more, trees = tree pos :: more ∧ P more := by
  intro pos
  obtain ⟨trees, htrees, hP⟩ := h (pos.afterAll (before text rest))
  refine ⟨tree pos :: trees, ?_, pos, trees, rfl, hP⟩
  have hne : text.isEmpty = false := by
    cases text with
    | nil => cases hlt
    | cons c more => rfl
  rw [ofText, hne, hnext pos]
  simp [hlt, htrees]

end ReadsAs

theorem toList_separated_cons (name : String) (names : List String) :
    (ModulePath.separated (name :: names)).toList =
      ':' :: ':' :: (name.toList ++ (ModulePath.separated names).toList) := by
  simp [ModulePath.separated]

theorem head?_separated (names : List String) :
    ∀ d ∈ (ModulePath.separated names).toList.head?, d ∈ wordStops := by
  cases names with
  | nil => simp [ModulePath.separated]
  | cons name names => simp [toList_separated_cons, wordStops]

/-- A word in front of separated names. -/
theorem ReadsAs.word {name : String} {names : List String} {P : List TokenTree → Prop}
    (h : ReadsAs (ModulePath.separated names).toList P) (hname : isWord name.toList = true) :
    ReadsAs (name.toList ++ (ModulePath.separated names).toList) fun trees =>
      ∃ pos rest, trees = .word name pos :: rest ∧ P rest := by
  have hne : 0 < name.toList.length := by
    obtain ⟨c, more, hlist, -⟩ := exists_start_of_isWord hname
    simp [hlist]
  have hcons := h.cons (next?_word hname (head?_separated names))
    (by rw [List.length_append]; omega)
  rwa [String.ofList_toList] at hcons

theorem readsAs_separated {names : List String} (h : ∀ name ∈ names, isWord name.toList = true) :
    ReadsAs (ModulePath.separated names).toList (Separated names) := by
  induction names with
  | nil => exact fun pos => ⟨[], by rw [ofText]; rfl, .nil⟩
  | cons name names ih =>
    have hname := h name List.mem_cons_self
    have hword := (ih fun other hmem => h other (List.mem_cons_of_mem _ hmem)).word hname
    have hmark : mark? (name.toList ++ (ModulePath.separated names).toList) = none := by
      obtain ⟨c, more, hlist, hstart⟩ := exists_start_of_isWord hname
      rw [hlist]
      exact mark?_eq_none hstart _
    have hcolons := (hword.cons (next?_colon _) (by simp)).cons (next?_colon _) (by simp)
    rw [toList_separated_cons]
    refine hcolons.imp ?_
    -- The second colon is not joint, because no mark begins a word.
    rintro _ ⟨first, _, rfl, second, _, rfl, pos, trees, rfl, htrees⟩
    rw [hmark]
    exact .cons name first second pos htrees

theorem nest_leaves (trees before : List TokenTree) :
    TokenTree.nest none [] before (trees.map .leaf) = .ok (before.reverse ++ trees) := by
  induction trees generalizing before with
  | nil => simp [TokenTree.nest]
  | cons tree rest ih => simp [TokenTree.nest, ih]

theorem exists_ofText {names : List String} (h : ∀ name ∈ names, isWord name.toList = true) :
    ∃ pos trees, TokenTree.ofText ("crate" ++ ModulePath.separated names) =
      .ok (.word "crate" pos :: trees) ∧ Separated names trees := by
  have hcrate : isWord "crate".toList = true := by decide +kernel
  obtain ⟨_, htrees, pos, trees, rfl, hseparated⟩ :=
    (readsAs_separated h).word hcrate Position.start
  refine ⟨pos, trees, ?_, hseparated⟩
  rw [← String.toList_append] at htrees
  have hchars : TokenTree.ofText ("crate" ++ ModulePath.separated names) =
      TokenTree.ofChars .start ("crate" ++ ModulePath.separated names).toList := by
    rw [TokenTree.ofText, String.toList_append]
    rfl
  rw [hchars, TokenTree.ofChars, htrees]
  exact nest_leaves _ []

end Lexeme

/-! ### Phrases -/

namespace Grammar

open Lexeme Grammar.Parser

variable {g : Nonterminals} {close : Position} {within : Option Delimiter}
  {leftover : Option Fault} {read trees : List TokenTree} {names : List String} {name : String}

theorem bind_of_ok {α β : Type} {p : Parser α} {f : α → Parser β} {state state' : State} {a : α}
    (h : p state = .ok (a, state')) : (p >>= f) state = f a state' := by
  show (p state >>= fun answer => f answer.1 answer.2) = _
  rw [h]
  rfl

theorem identifier_word (h : isIdentifier name = true) (pos : Position) :
    identifier ⟨.word name pos :: trees, close, within, leftover, read⟩ =
      .ok (name, ⟨trees, close, within, leftover, .word name pos :: read⟩) := by
  show (if isIdentifier name = true then anyWord else _ : Parser String) _ = _
  rw [if_pos h]
  rfl

/-- A name of a path has no arguments where a separator follows, or nothing. -/
theorem segment_separated {pos : Position} (hname : IsSegment name ∨ name = "crate")
    (h : Separated names trees) :
    segment g false ⟨.word name pos :: trees, close, within, leftover, read⟩ =
      .ok ((name, none), ⟨trees, close, within, leftover, .word name pos :: read⟩) := by
  unfold segment
  show (if ((bareSegments.map Expected.word).any fun e => e.begins (.word name pos :: trees)) = true
    then _ else _ : Parser (String × Option Nat)) _ = _
  rcases hname with (hname | rfl) | rfl
  · obtain ⟨hreserved, -⟩ : name ∉ reservedWords ∧ isWord name.toList = true := by
      simpa [isIdentifier] using hname
    have hbare : ¬ ((bareSegments.map Expected.word).any fun e =>
        e.begins (.word name pos :: trees)) = true := by
      intro hany
      have hmem : name ∈ bareSegments := by simpa [Expected.begins] using hany
      have hall : ∀ word ∈ bareSegments, word ∈ reservedWords := by decide
      exact hreserved (hall name hmem)
    have hself : ¬ (name == "Self") = true := by
      rw [beq_iff_eq]
      rintro rfl
      exact hreserved (by decide)
    rw [if_neg hbare]
    show (if (name == "Self") = true then _ else _ : Parser (String × Option Nat)) _ = _
    rw [if_neg hself, bind_of_ok (identifier_word hname pos)]
    cases h <;> rfl
  · rfl
  · rfl

/-- What a loop over the segments of a path does: it ends where the trees do, and otherwise reads a
name behind a separator. -/
structure ReadsSegments (step : PathShape → Parser (Round PathShape PathShape)) (close : Position)
    (within : Option Delimiter) (leftover : Option Fault) : Prop where
  done : ∀ shape read, step shape ⟨[], close, within, leftover, read⟩ =
    .ok (.done shape, ⟨[], close, within, leftover, read⟩)
  again : ∀ {names name trees} first second pos shape read, IsSegment name →
    Separated names trees → ∃ read', step shape
        ⟨.mark ':' true first :: .mark ':' false second :: .word name pos :: trees,
          close, within, leftover, read⟩ =
      .ok (.again (shape.snoc name none), ⟨trees, close, within, leftover, read'⟩)

namespace ReadsSegments

variable {step : PathShape → Parser (Round PathShape PathShape)}

theorem exists_repeatUpTo (hstep : ReadsSegments step close within leftover)
    (h : Separated names trees) (hnames : ∀ name ∈ names, IsSegment name) {rounds : Nat}
    (hrounds : names.length < rounds) (shape : PathShape) (read : List TokenTree) :
    ∃ shape' read', repeatUpTo step rounds shape ⟨trees, close, within, leftover, read⟩ =
        .ok (shape', ⟨[], close, within, leftover, read'⟩) ∧
      shape'.path = { shape.path with segments := shape.path.segments ++ names } := by
  induction h generalizing rounds shape read with
  | nil =>
    obtain ⟨rounds, rfl⟩ := Nat.exists_eq_succ_of_ne_zero (Nat.ne_zero_of_lt hrounds)
    exact ⟨shape, read, bind_of_ok (hstep.done shape read), by simp⟩
  | cons name first second pos h ih =>
    obtain ⟨rounds, rfl⟩ := Nat.exists_eq_succ_of_ne_zero (Nat.ne_zero_of_lt hrounds)
    obtain ⟨between, hagain⟩ :=
      hstep.again first second pos shape read (hnames name List.mem_cons_self) h
    obtain ⟨shape', read', hrest, hpath⟩ :=
      ih (fun other hmem => hnames other (List.mem_cons_of_mem _ hmem))
        (Nat.lt_of_succ_lt_succ hrounds) (shape.snoc name none) between
    refine ⟨shape', read', (bind_of_ok hagain).trans hrest, ?_⟩
    rw [hpath]
    simp [PathShape.snoc]

theorem exists_repeated (hstep : ReadsSegments step close within leftover)
    (h : Separated names trees) (hnames : ∀ name ∈ names, IsSegment name) (shape : PathShape)
    (read : List TokenTree) :
    ∃ read', (repeated step shape >>= fun shape => pure shape.path)
        ⟨trees, close, within, leftover, read⟩ =
      .ok ({ shape.path with segments := shape.path.segments ++ names },
        ⟨[], close, within, leftover, read'⟩) := by
  obtain ⟨shape', read', hrepeat, hpath⟩ :=
    hstep.exists_repeatUpTo h hnames (Nat.lt_succ_of_le h.length_le) shape read
  refine ⟨read', (bind_of_ok (p := repeated step shape) hrepeat).trans ?_⟩
  rw [← hpath]
  rfl

end ReadsSegments

theorem exists_typePath_separated {pos : Position} (h : Separated names trees)
    (hnames : ∀ name ∈ names, IsSegment name) :
    ∃ read', typePath g ⟨.word "crate" pos :: trees, close, within, leftover, read⟩ =
      .ok (⟨false, "crate" :: names⟩, ⟨[], close, within, leftover, read'⟩) := by
  have habsolute : optionalMark "::" ⟨.word "crate" pos :: trees, close, within, leftover, read⟩ =
      .ok (false, ⟨.word "crate" pos :: trees, close, within, leftover, read⟩) := rfl
  unfold typePath path
  rw [bind_assoc, bind_of_ok habsolute, bind_assoc, bind_of_ok (segment_separated (.inr rfl) h)]
  refine ReadsSegments.exists_repeated ⟨fun shape read => rfl, ?_⟩ h hnames _ _
  intro names name trees first second pos shape read hname h
  let here : State := ⟨.mark ':' true first :: .mark ':' false second :: .word name pos :: trees,
    close, within, leftover, read⟩
  have hsees : seesMark "::" here = .ok (true, here) := rfl
  have hthird : seesThird (.group .parenthesis) here = .ok (false, here) := rfl
  have hmark : mark "::" here = .ok ((), ⟨.word name pos :: trees, close, within, leftover,
      .mark ':' false first :: .mark ':' true first :: read⟩) := rfl
  refine ⟨.word name pos :: .mark ':' false first :: .mark ':' true first :: read, ?_⟩
  rw [bind_of_ok hsees, bind_of_ok hthird, if_pos (show (true && !false) = true from rfl),
    bind_of_ok hmark, bind_of_ok (segment_separated (.inl hname) h)]
  rfl

/-- A path from the crate root is read as it is written. -/
theorem parsePath_separated (hnames : ∀ name ∈ names, IsSegment name) :
    parsePath ("crate" ++ ModulePath.separated names) = .ok ⟨false, "crate" :: names⟩ := by
  have hwords : ∀ name ∈ names, isWord name.toList = true := by
    intro name hmem
    rcases hnames name hmem with hname | rfl
    · exact (Bool.and_eq_true_iff.1 hname).2
    · decide +kernel
  obtain ⟨pos, trees, htrees, h⟩ := exists_ofText hwords
  have htype : ∀ g, ∃ read', typePath g ⟨.word "crate" pos :: trees, .start, none, none, []⟩ =
      .ok (⟨false, "crate" :: names⟩, ⟨[], .start, none, none, read'⟩) :=
    fun g => exists_typePath_separated h hnames
  obtain ⟨read', hread⟩ := htype (nonterminalsFor (.word "crate" pos :: trees))
  rw [parsePath, parseText, htrees]
  show readAll _ _ = _
  rw [readAll, hread]
  rfl

end Grammar

end DescriptionLookup
