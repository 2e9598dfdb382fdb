import DescriptionLookup.Proofs.ParsedItems

/-!
# What parsers accept

A parser accepts trees up to some rest if it reads them wherever they stand, leaves no group
unfinished, and gives an answer of a certain kind. Its transcript does not count. There is one rule
for every way of putting parsers together, so that a proof that a phrase is accepted goes through
the parser of the phrase line by line.

* `Parser.Accepts`: the trees that a parser reads, and its answer;
* `Parser.Looks`: parsers that read nothing, and so can be evaluated at once;
* `Repeats`, `AcceptsEach`: repetitions, round by round.
-/

namespace DescriptionLookup.Grammar

open TokenTree

/-! ### Trees without places -/

/-- A word, wherever it stands. -/
abbrev ofWord (name : String) : TokenTree := .word name .start

/-- A punctuation mark with a gap behind it. -/
abbrev ofMark (c : Char) : TokenTree := .mark c false .start

/-- A punctuation mark without a gap behind it. -/
abbrev ofJoint (c : Char) : TokenTree := .mark c true .start

/-- A literal, wherever it stands. -/
abbrev ofLiteral (text : String) : TokenTree := .literal text .start

/-- A group, wherever it stands. -/
abbrev ofGroup (d : Delimiter) (content : List TokenTree) : TokenTree :=
  .group d content .start .start

/-- Names with `::` in front of each. -/
def separated (names : List String) : List TokenTree :=
  names.flatMap fun name => [ofJoint ':', ofMark ':', ofWord name]

theorem placelessAll_behindFirst (trees : List TokenTree) :
    placelessAll (behindFirst trees) = behindFirst (placelessAll trees) := by
  fun_cases behindFirst trees with
  | case1 pos name pos' rest => rfl
  | case2 tree rest hlifetime =>
    rcases tree with _ | ⟨c, joint, pos⟩ | _ | _
    case mark =>
      rcases rest with _ | ⟨⟨name, pos'⟩ | _ | _ | _, rest⟩
      case cons.word =>
        have hne : ¬ (c = '\x27' ∧ joint = true) := by
          rintro ⟨rfl, rfl⟩
          exact hlifetime _ _ _ _ rfl rfl
        simp only [placelessAll, placeless]
        unfold behindFirst
        split <;> simp_all
      all_goals simp [placelessAll, placeless, behindFirst]
    all_goals simp [placelessAll, placeless, behindFirst]
  | case3 => rfl

theorem map_placelessAll_afterMarks? (cs : List Char) (trees : List TokenTree) :
    (afterMarks? cs trees).map placelessAll = afterMarks? cs (placelessAll trees) := by
  fun_induction afterMarks? cs trees with
  | case1 | case2 | case3 | case4 => simp_all [placelessAll, placeless, afterMarks?]
  | case5 cs trees h h' =>
    rcases cs with _ | ⟨c, cs⟩
    · simp [afterMarks?]
    rcases trees with _ | ⟨_ | ⟨d, joint, pos⟩ | _ | _, rest⟩
    case cons.mark =>
      cases cs with
      | nil => exact absurd rfl (h c d joint pos rest rfl)
      | cons c' cs =>
        cases joint with
        | true => exact absurd rfl (h' c (c' :: cs) d pos rest rfl)
        | false => simp [placelessAll, placeless, afterMarks?]
    all_goals simp [placelessAll, placeless, afterMarks?]

theorem begins_placelessAll (e : Expected) (trees : List TokenTree) :
    e.begins (placelessAll trees) = e.begins trees := by
  cases e with
  | mark text =>
    simp only [Expected.begins]
    rw [← map_placelessAll_afterMarks?, Option.isSome_map]
  | lifetime =>
    rcases trees with _ | ⟨_ | ⟨c, joint, pos⟩ | _ | _, _ | ⟨⟨name, pos'⟩ | _ | _ | _, rest⟩⟩ <;>
      simp only [placelessAll, placeless, Expected.begins]
    by_cases h : c = '\x27'
    · subst h
      cases joint <;> simp
    · simp [h]
  | literal =>
    rcases trees with _ | ⟨_ | ⟨c, joint, pos⟩ | _ | _, _ | ⟨⟨name, pos'⟩ | _ | _ | _, rest⟩⟩ <;>
      simp only [placelessAll, placeless, Expected.begins]
    by_cases h : c = '-'
    · subst h
      simp
    · simp [h]
  | _ =>
    rcases trees with _ | ⟨_ | _ | _ | _, rest⟩ <;>
      simp only [placelessAll, placeless, Expected.begins]

theorem eq_nil_of_placelessAll {trees : List TokenTree} (h : placelessAll trees = []) :
    trees = [] := by
  cases trees with
  | nil => rfl
  | cons => cases h

theorem placelessAll_eq_cons {trees rest : List TokenTree} {first : TokenTree}
    (h : placelessAll trees = first :: rest) :
    ∃ tree more, trees = tree :: more ∧ tree.placeless = first ∧ placelessAll more = rest := by
  cases trees with
  | nil => cases h
  | cons tree more => exact ⟨tree, more, rfl, List.cons.inj h⟩

theorem length_placelessAll (trees : List TokenTree) :
    (placelessAll trees).length = trees.length := by
  induction trees with
  | nil => rfl
  | cons tree rest ih => rw [placelessAll, List.length_cons, List.length_cons, ih]

theorem placeless_eq_word {tree : TokenTree} {name : String}
    (h : tree.placeless = .word name .start) : ∃ pos, tree = .word name pos := by
  cases tree with
  | word name' pos => cases h; exact ⟨pos, rfl⟩
  | _ => cases h

theorem placeless_eq_mark {tree : TokenTree} {c : Char} {joint : Bool}
    (h : tree.placeless = .mark c joint .start) : ∃ pos, tree = .mark c joint pos := by
  cases tree with
  | mark c' joint' pos => cases h; exact ⟨pos, rfl⟩
  | _ => cases h

theorem placeless_eq_literal {tree : TokenTree} {text : String}
    (h : tree.placeless = .literal text .start) : ∃ pos, tree = .literal text pos := by
  cases tree with
  | literal text' pos => cases h; exact ⟨pos, rfl⟩
  | _ => cases h

theorem placeless_eq_group {tree : TokenTree} {d : Delimiter} {content : List TokenTree}
    (h : tree.placeless = .group d content .start .start) : ∃ content' opened closed,
      tree = .group d content' opened closed ∧ placelessAll content' = content := by
  cases tree with
  | group d' content' opened closed => cases h; exact ⟨content', opened, closed, rfl, rfl⟩
  | _ => cases h

namespace Parser

variable {α β σ : Type} {trees mid rest : List TokenTree} {Q : α → Prop} {R : β → Prop}

/-! ### Acceptance -/

/-- These trees come next, wherever they stand, and every group so far was read to its end. -/
structure Faces (s : State) (trees : List TokenTree) : Prop where
  rest : placelessAll s.rest = trees
  leftover : s.leftover = none

/-- The parser reads these trees up to `rest`, with an answer like this. -/
def Accepts (p : Parser α) (trees : List TokenTree) (Q : α → Prop) (rest : List TokenTree) : Prop :=
  ∀ s, Faces s trees → ∃ a s', p s = .ok (a, s') ∧ Q a ∧ Faces s' rest

namespace Accepts

variable {p q : Parser α} {f : α → Parser β}

theorem imp {Q' : α → Prop} (h : Accepts p trees Q rest) (himp : ∀ a, Q a → Q' a) :
    Accepts p trees Q' rest := by
  intro s hs
  obtain ⟨a, s', hp, ha, hs'⟩ := h s hs
  exact ⟨a, s', hp, himp a ha, hs'⟩

protected theorem pure {a : α} (h : Q a) : Accepts (pure a) trees Q trees :=
  fun s hs => ⟨a, s, rfl, h, hs⟩

protected theorem bind {t : List TokenTree} (hp : Accepts p trees Q t)
    (hf : ∀ a, Q a → Accepts (f a) t R rest) : Accepts (p >>= f) trees R rest := by
  intro s hs
  obtain ⟨a, between, ha, hQ, hbetween⟩ := hp s hs
  obtain ⟨b, s', hb, hR, hs'⟩ := hf a hQ between hbetween
  exact ⟨b, s', bind_eq_ok.2 ⟨a, between, ha, hb⟩, hR, hs'⟩

/-- Go on with the one answer there is. -/
theorem andThen {a : α} (hp : Accepts p trees (· = a) mid) (hf : Accepts (f a) mid R rest) :
    Accepts (p >>= f) trees R rest := hp.bind fun _ h => h ▸ hf

theorem iteTrue {b : Bool} (hb : b = true) (hp : Accepts p trees Q rest) :
    Accepts (if b = true then p else q) trees Q rest := by rwa [if_pos hb]

theorem iteFalse {b : Bool} (hb : b = false) (hq : Accepts q trees Q rest) :
    Accepts (if b = true then p else q) trees Q rest := by rwa [if_neg (by simp [hb])]

end Accepts

/-! ### Looking ahead -/

/-- What a parser says of the trees that come next. -/
def glance (p : Parser Bool) (trees : List TokenTree) : Bool :=
  match p ⟨trees, .start, none, none, []⟩ with
  | .ok (answer, _) => answer
  | .error _ => false

/-- The parser only looks at the trees that come next, wherever they stand. -/
class Looks (p : Parser Bool) : Prop where
  eq_ok : ∀ s, p s = .ok (glance p (placelessAll s.rest), s)

namespace Looks

theorem of_eq {p : Parser Bool} {v : List TokenTree → Bool} (h : ∀ s, p s = .ok (v s.rest, s))
    (hv : ∀ trees, v (placelessAll trees) = v trees) : Looks p where
  eq_ok s := by
    have hglance : glance p (placelessAll s.rest) = v (placelessAll s.rest) := by
      rw [glance, h]
    rw [hglance, hv, h]

theorem glance_eq {p : Parser Bool} {v : List TokenTree → Bool}
    (h : ∀ s, p s = .ok (v s.rest, s)) (trees : List TokenTree) : glance p trees = v trees := by
  rw [glance, h]

theorem glance_placelessAll (p : Parser Bool) [hp : Looks p] (trees : List TokenTree) :
    glance p (placelessAll trees) = glance p trees :=
  (glance_eq (v := fun trees => glance p (placelessAll trees)) hp.eq_ok trees).symm

instance (e : Expected) : Looks (sees e) := .of_eq (fun _ => rfl) (begins_placelessAll e)

instance (e : Expected) : Looks (seesSecond e) :=
  .of_eq (v := fun trees => e.begins (behindFirst trees)) (fun _ => rfl) fun trees => by
    rw [← placelessAll_behindFirst, begins_placelessAll]

instance (e : Expected) : Looks (seesThird e) :=
  .of_eq (v := fun trees => e.begins (behindFirst (behindFirst trees))) (fun _ => rfl)
    fun trees => by
      rw [← placelessAll_behindFirst, ← placelessAll_behindFirst, begins_placelessAll]

instance (es : List Expected) : Looks (seesAny es) :=
  .of_eq (v := fun trees => es.any fun e => e.begins trees) (fun _ => rfl) fun trees => by
    simp only [begins_placelessAll]

instance : Looks atEnd :=
  .of_eq (v := List.isEmpty) (fun _ => rfl) fun trees => by cases trees <;> rfl

instance (text : String) : Looks (seesWord text) := inferInstanceAs (Looks (sees _))

instance (text : String) : Looks (seesMark text) := inferInstanceAs (Looks (sees _))

instance : Looks seesParentheses := inferInstanceAs (Looks (sees _))

instance : Looks seesBrackets := inferInstanceAs (Looks (sees _))

instance : Looks seesBraces := inferInstanceAs (Looks (sees _))

instance : Looks seesAnyWord where
  eq_ok := by
    rintro ⟨_ | ⟨_ | _ | _ | _, rest⟩, close, within, leftover, read⟩ <;> rfl

instance (b : Bool) : Looks (pure b) := .of_eq (v := fun _ => b) (fun _ => rfl) fun _ => rfl

instance {p : Parser Bool} {f : Bool → Parser Bool} [hp : Looks p] [hf : ∀ b, Looks (f b)] :
    Looks (p >>= f) := by
  refine .of_eq (v := fun trees => glance (f (glance p trees)) trees) (fun s => ?_) fun trees => ?_
  · refine bind_eq_ok.2 ⟨_, _, hp.eq_ok s, ?_⟩
    rw [(hf _).eq_ok, glance_placelessAll, glance_placelessAll]
  · rw [glance_placelessAll, glance_placelessAll]

instance {c : Prop} [Decidable c] {p q : Parser Bool} [hp : Looks p] [hq : Looks q] :
    Looks (if c then p else q) := by
  split
  · exact hp
  · exact hq

end Looks

@[simp] theorem glance_sees (e : Expected) (trees : List TokenTree) :
    glance (sees e) trees = e.begins trees := rfl

@[simp] theorem glance_seesSecond (e : Expected) (trees : List TokenTree) :
    glance (seesSecond e) trees = e.begins (behindFirst trees) := rfl

@[simp] theorem glance_seesAny (es : List Expected) (trees : List TokenTree) :
    glance (seesAny es) trees = es.any fun e => e.begins trees := rfl

@[simp] theorem glance_seesWord (text : String) (trees : List TokenTree) :
    glance (seesWord text) trees = (Expected.word text).begins trees := rfl

@[simp] theorem glance_seesMark (text : String) (trees : List TokenTree) :
    glance (seesMark text) trees = (Expected.mark text).begins trees := rfl

namespace Accepts

/-- Look, and go on with what is seen. -/
theorem look {p : Parser Bool} {f : Bool → Parser β} [hp : Looks p]
    (hf : Accepts (f (glance p trees)) trees R rest) : Accepts (p >>= f) trees R rest := by
  intro s hs
  obtain ⟨b, s', hb, hR, hs'⟩ := hf s hs
  exact ⟨b, s', bind_eq_ok.2 ⟨_, _, hp.eq_ok s, hs.rest ▸ hb⟩, hR, hs'⟩

theorem of_looks {p : Parser Bool} [hp : Looks p] {b : Bool} (hb : glance p trees = b) :
    Accepts p trees (· = b) trees :=
  fun s hs => ⟨_, s, hp.eq_ok s, by rw [hs.rest, hb], hs⟩

/-- Look, and go on with what is known to be seen. -/
theorem seeing {p : Parser Bool} {f : Bool → Parser β} [Looks p] {b : Bool}
    (hb : glance p trees = b) (hf : Accepts (f b) trees R rest) :
    Accepts (p >>= f) trees R rest := (of_looks hb).andThen hf

/-- What is tried ahead is not read. -/
theorem lookAhead {p : Parser α} {t : List TokenTree} (hp : Accepts p trees Q t) :
    Accepts (lookAhead p) trees (fun found => ∃ a, found = some a ∧ Q a) trees := by
  intro s hs
  obtain ⟨a, s', ha, hQ, -⟩ := hp s hs
  refine ⟨some a, s, ?_, ⟨a, rfl, hQ⟩, hs⟩
  unfold Parser.lookAhead
  rw [ha]

/-- Trying ahead succeeds, whatever it finds. -/
theorem lookAhead_any (p : Parser α) :
    Accepts (Parser.lookAhead p) trees (fun _ => True) trees := by
  intro s hs
  unfold Parser.lookAhead
  cases p s with
  | ok result => exact ⟨some result.1, s, rfl, trivial, hs⟩
  | error fault => exact ⟨none, s, rfl, trivial, hs⟩

/-- What is tried with success is read. -/
theorem attempt {p : Parser α} (hp : Accepts p trees Q rest) :
    Accepts (attempt p) trees (fun found => ∃ a, found = some a ∧ Q a) rest := by
  intro s hs
  obtain ⟨a, s', ha, hQ, hs'⟩ := hp s hs
  refine ⟨some a, s', ?_, ⟨a, rfl, hQ⟩, hs'⟩
  unfold Parser.attempt
  rw [ha]

/-- Where a phrase stands does not matter. -/
theorem here {f : Position → Parser β} (hf : ∀ pos, Accepts (f pos) trees R rest) :
    Accepts (Parser.here >>= f) trees R rest := by
  intro s hs
  have hhere : ∃ pos, Parser.here s = .ok (pos, s) := by
    obtain ⟨_ | ⟨tree, more⟩, close, within, leftover, read⟩ := s
    · exact ⟨close, rfl⟩
    · exact ⟨tree.pos, rfl⟩
  obtain ⟨pos, hpos⟩ := hhere
  obtain ⟨b, s', hb, hs'⟩ := hf pos s hs
  exact ⟨b, s', bind_eq_ok.2 ⟨pos, s, hpos, hb⟩, hs'⟩

/-- Keep the state, to come back to it. -/
theorem get {f : State → Parser β} (hf : ∀ s, Faces s trees → Accepts (f s) trees R rest) :
    Accepts (get >>= f) trees R rest := fun s hs => hf s hs s hs

/-- Come back to a state. -/
theorem set {s : State} {f : PUnit → Parser β} (hs : Faces s mid)
    (hf : Accepts (f ⟨⟩) mid R rest) : Accepts (set s >>= f) trees R rest := fun _ _ => hf s hs

end Accepts

/-! ### Tokens -/

theorem accepts_record (tokens : List TokenTree) : Accepts (record tokens) trees (· = ()) trees :=
  fun s hs => ⟨(), { s with read := tokens.reverse ++ s.read }, rfl, rfl, hs.rest, hs.leftover⟩

theorem accepts_mark {text : String} (h : afterMarks? text.toList trees = some rest) :
    Accepts (mark text) trees (· = ()) rest := by
  rintro ⟨found, close, within, leftover, read⟩ ⟨rfl, hleftover⟩
  obtain ⟨behind, hbehind, rfl⟩ : ∃ behind, afterMarks? text.toList found = some behind ∧
      placelessAll behind = rest := by
    rwa [← map_placelessAll_afterMarks?, Option.map_eq_some_iff] at h
  cases found with
  | nil => simp [afterMarks?] at hbehind
  | cons tree more =>
    refine ⟨(), ⟨behind, close, within, leftover,
      (operatorTokens tree.pos text.toList).reverse ++ read⟩, ?_, rfl, rfl, hleftover⟩
    unfold mark
    refine bind_eq_ok.2 ⟨_, _, rfl, ?_⟩
    dsimp only
    rw [hbehind]
    rfl

theorem accepts_anyWord (name : String) :
    Accepts anyWord (.word name .start :: rest) (· = name) rest := by
  rintro ⟨found, close, within, leftover, read⟩ ⟨hrest, hleftover⟩
  obtain ⟨tree, more, rfl, htree, rfl⟩ := placelessAll_eq_cons hrest
  obtain ⟨pos, rfl⟩ := placeless_eq_word htree
  exact ⟨name, ⟨more, close, within, leftover, .word name pos :: read⟩, rfl, rfl, rfl, hleftover⟩

theorem accepts_word (text : String) :
    Accepts (word text) (.word text .start :: rest) (· = ()) rest := by
  rintro ⟨found, close, within, leftover, read⟩ ⟨hrest, hleftover⟩
  obtain ⟨tree, more, rfl, htree, rfl⟩ := placelessAll_eq_cons hrest
  obtain ⟨pos, rfl⟩ := placeless_eq_word htree
  refine ⟨(), ⟨more, close, within, leftover, .word text pos :: read⟩, ?_, rfl, rfl, hleftover⟩
  show (if text = text then _ else _ : Parser Unit) _ = _
  rw [if_pos rfl]
  rfl

theorem accepts_identifier {name : String} (hname : isIdentifier name = true) :
    Accepts identifier (.word name .start :: rest) (· = name) rest := by
  rintro ⟨found, close, within, leftover, read⟩ ⟨hrest, hleftover⟩
  obtain ⟨tree, more, rfl, htree, rfl⟩ := placelessAll_eq_cons hrest
  obtain ⟨pos, rfl⟩ := placeless_eq_word htree
  refine ⟨name, ⟨more, close, within, leftover, .word name pos :: read⟩, ?_, rfl, rfl, hleftover⟩
  show (if isIdentifier name = true then anyWord else _ : Parser String) _ = _
  rw [if_pos hname]
  rfl

theorem accepts_lifetime (name : String) :
    Accepts lifetime (.mark '\x27' true .start :: .word name .start :: rest) (· = ()) rest := by
  rintro ⟨found, close, within, leftover, read⟩ ⟨hrest, hleftover⟩
  obtain ⟨tree, more, rfl, htree, hmore⟩ := placelessAll_eq_cons hrest
  obtain ⟨pos, rfl⟩ := placeless_eq_mark htree
  obtain ⟨tree, more, rfl, htree, rfl⟩ := placelessAll_eq_cons hmore
  obtain ⟨pos', rfl⟩ := placeless_eq_word htree
  exact ⟨(), ⟨more, close, within, leftover, .word name pos' :: .mark '\x27' true pos :: read⟩,
    rfl, rfl, rfl, hleftover⟩

theorem accepts_literal (text : String) :
    Accepts literal (.literal text .start :: rest) (· = text) rest := by
  rintro ⟨found, close, within, leftover, read⟩ ⟨hrest, hleftover⟩
  obtain ⟨tree, more, rfl, htree, rfl⟩ := placelessAll_eq_cons hrest
  obtain ⟨pos, rfl⟩ := placeless_eq_literal htree
  exact ⟨text, ⟨more, close, within, leftover, .literal text pos :: read⟩, rfl, rfl, rfl, hleftover⟩

theorem accepts_optionalMark {text : String} (h : afterMarks? text.toList trees = some rest) :
    Accepts (optionalMark text) trees (· = true) rest := by
  have hsees : (Expected.mark text).begins trees = true := by
    rw [Expected.begins, h]
    rfl
  exact .look (.iteTrue hsees ((accepts_mark h).andThen (.pure rfl)))

theorem accepts_optionalMark_absent {text : String}
    (h : (Expected.mark text).begins trees = false) :
    Accepts (optionalMark text) trees (· = false) trees :=
  .look (.iteFalse h (.pure rfl))

theorem accepts_optionalWord (text : String) :
    Accepts (optionalWord text) (.word text .start :: rest) (· = true) rest :=
  .look (.iteTrue (beq_self_eq_true text) ((accepts_word text).andThen (.pure rfl)))

theorem accepts_optionalWord_absent {text : String}
    (h : (Expected.word text).begins trees = false) :
    Accepts (optionalWord text) trees (· = false) trees :=
  .look (.iteFalse h (.pure rfl))

theorem accepts_optionalLifetime_absent (h : Expected.lifetime.begins trees = false) :
    Accepts optionalLifetime trees (· = false) trees :=
  .look (.iteFalse h (.pure rfl))

/-! ### Groups -/

theorem accepts_anyGroup (d : Delimiter) (content : List TokenTree) :
    Accepts anyGroup (.group d content .start .start :: rest)
      (fun found => found.1 = d ∧ placelessAll found.2 = content) rest := by
  rintro ⟨found, close, within, leftover, read⟩ ⟨hrest, hleftover⟩
  obtain ⟨tree, more, rfl, htree, rfl⟩ := placelessAll_eq_cons hrest
  obtain ⟨content, opened, closed, rfl, rfl⟩ := placeless_eq_group htree
  exact ⟨(d, content), ⟨more, close, within, leftover, .group d content opened closed :: read⟩,
    rfl, ⟨rfl, rfl⟩, rfl, hleftover⟩

theorem accepts_openGroup {d : Delimiter} {content : List TokenTree} {inner : Parser α}
    (h : Accepts inner content Q []) :
    Accepts (openGroup d inner) (.group d content .start .start :: rest)
      (fun found => Q found.1 ∧ found.2 = none) rest := by
  rintro ⟨found, close, within, leftover, read⟩ ⟨hrest, hleftover⟩
  obtain ⟨tree, more, rfl, htree, rfl⟩ := placelessAll_eq_cons hrest
  obtain ⟨content, opened, closed, rfl, rfl⟩ := placeless_eq_group htree
  obtain ⟨a, inside, ha, hQ, hinside⟩ := h ⟨content, closed, some d, leftover, []⟩ ⟨rfl, hleftover⟩
  have hnil : inside.rest = [] := by
    cases hrest : inside.rest with
    | nil => rfl
    | cons tree more =>
      have := hinside.rest
      rw [hrest] at this
      cases this
  refine ⟨(a, none), ⟨more, close, within, inside.leftover,
    .group d inside.read.reverse opened closed :: read⟩, ?_, ⟨hQ, rfl⟩, rfl, hinside.leftover⟩
  show (if d = d then _ else _ : Parser (α × Option Fault)) _ = _
  rw [if_pos rfl]
  refine bind_eq_ok.2 ⟨_, _, rfl, bind_eq_ok.2 ⟨a, inside, ha, bind_eq_ok.2 ⟨_, _, rfl,
    bind_eq_ok.2 ⟨_, _, rfl, ?_⟩⟩⟩⟩
  rw [leftoverOf, hnil]
  rfl

theorem accepts_remember_none : Accepts (remember none) trees (· = ()) trees :=
  fun s hs => ⟨(), _, rfl, rfl, hs.rest, by simp [hs.leftover]⟩

theorem accepts_group {d : Delimiter} {content : List TokenTree} {inner : Parser α}
    (h : Accepts inner content Q []) :
    Accepts (group d inner) (.group d content .start .start :: rest) Q rest := by
  refine (accepts_openGroup h).bind fun found hfound => ?_
  obtain ⟨a, left⟩ := found
  obtain ⟨ha, rfl⟩ := hfound
  exact accepts_remember_none.andThen (.pure ha)

/-! ### Transcripts -/

theorem accepts_captured {p : Parser α} (h : Accepts p trees Q rest) :
    Accepts (captured p) trees (fun found => Q found.1) rest := by
  intro s hs
  obtain ⟨a, s', ha, hQ, hs'⟩ := h { s with read := [] } ⟨hs.rest, hs.leftover⟩
  exact ⟨(a, s'.read.reverse), { s' with read := s.read },
    bind_eq_ok.2 ⟨s, s, rfl, bind_eq_ok.2 ⟨_, _, rfl, bind_eq_ok.2 ⟨a, s', ha, rfl⟩⟩⟩, hQ,
    hs'.rest, hs'.leftover⟩

theorem accepts_silently {p : Parser α} (h : Accepts p trees Q rest) :
    Accepts (silently p) trees Q rest := (accepts_captured h).bind fun _ ha => .pure ha

theorem accepts_verbatimIf {p : Parser α} {asks : α → Bool} (h : Accepts p trees Q rest) :
    Accepts (verbatimIf asks p) trees Q rest :=
  .get fun _ _ => (accepts_captured h).bind fun _ hfound =>
    .get fun _ _ => (accepts_record _).andThen (.pure hfound)

theorem accepts_omittedIf {p : Parser α} {asks : α → Bool} (h : Accepts p trees Q rest) :
    Accepts (omittedIf asks p) trees Q rest :=
  (accepts_captured h).bind fun _ hfound => (accepts_record _).andThen (.pure hfound)

/-! ### Repetitions -/

/-- The rounds of a repetition read these trees up to `rest`, if there are more rounds than trees
are left. -/
def Repeats (step : σ → Parser (Round σ α)) (first : σ) (trees : List TokenTree) (Q : α → Prop)
    (rest : List TokenTree) : Prop :=
  ∀ rounds, trees.length < rounds → Accepts (repeatUpTo step rounds first) trees Q rest

namespace Repeats

variable {step : σ → Parser (Round σ α)} {first : σ} {P : Round σ α → Prop}

theorem accepts (h : Repeats step first trees Q rest) :
    Accepts (repeated step first) trees Q rest := by
  refine .get fun s hs => h _ ?_
  rw [← hs.rest, length_placelessAll]
  exact Nat.lt_succ_self _

/-- The last round. -/
theorem done (h : Accepts (step first) trees P rest)
    (hP : ∀ round, P round → ∃ a, round = .done a ∧ Q a) : Repeats step first trees Q rest := by
  intro rounds hrounds
  obtain ⟨rounds, rfl⟩ := Nat.exists_eq_succ_of_ne_zero (Nat.ne_zero_of_lt hrounds)
  refine h.bind fun round hround => ?_
  obtain ⟨a, rfl, ha⟩ := hP round hround
  exact .pure ha

/-- A round that reads a tree, and the rounds behind it. -/
theorem again {t : List TokenTree} (h : Accepts (step first) trees P t)
    (hlength : t.length < trees.length)
    (hP : ∀ round, P round → ∃ next, round = .again next ∧ Repeats step next t Q rest) :
    Repeats step first trees Q rest := by
  intro rounds hrounds
  obtain ⟨rounds, rfl⟩ := Nat.exists_eq_succ_of_ne_zero (Nat.ne_zero_of_lt hrounds)
  refine h.bind fun round hround => ?_
  obtain ⟨next, rfl, hnext⟩ := hP round hround
  exact hnext rounds (by omega)

end Repeats

/-- The parser reads phrase by phrase up to the end, and the answers are like this. -/
inductive AcceptsEach (p : Parser α) : List TokenTree → (List α → Prop) → Prop
  | nil {Q : List α → Prop} : Q [] → AcceptsEach p [] Q
  | cons {trees mid : List TokenTree} {P : α → Prop} {Q : List α → Prop} :
    Accepts p trees P mid → mid.length < trees.length →
    (∀ a, P a → AcceptsEach p mid fun as => Q (a :: as)) → AcceptsEach p trees Q

/-- The same where commas stand between phrases. -/
inductive AcceptsCommas (p : Parser α) : List TokenTree → (List α → Prop) → Prop
  | nil {Q : List α → Prop} : Q [] → AcceptsCommas p [] Q
  | last {trees : List TokenTree} {P : α → Prop} {Q : List α → Prop} :
    Accepts p trees P [] → trees ≠ [] → (∀ a, P a → Q [a]) → AcceptsCommas p trees Q
  | cons {trees mid : List TokenTree} {joint : Bool} {P : α → Prop} {Q : List α → Prop} :
    Accepts p trees P (.mark ',' joint .start :: mid) → mid.length + 1 < trees.length →
    (∀ a, P a → AcceptsCommas p mid fun as => Q (a :: as)) → AcceptsCommas p trees Q

theorem accepts_untilEnd {p : Parser α} {Q : List α → Prop} (h : AcceptsEach p trees Q) :
    Accepts (untilEnd p) trees Q [] := by
  unfold untilEnd
  have hfound : ∀ found : List α, Repeats (fun found => do
      if ← atEnd then return .done found.reverse
      return .again ((← p) :: found)) found trees
      (fun as => ∃ more, as = found.reverse ++ more ∧ Q more) [] := by
    induction h with
    | nil hQ =>
      exact fun found => .done (P := (· = .done found.reverse)) (.look (.iteTrue rfl (.pure rfl)))
        fun _ h => ⟨_, h, [], (List.append_nil _).symm, hQ⟩
    | @cons trees mid P Q hp hlength _ ih =>
      intro found
      obtain ⟨tree, behind, rfl⟩ := List.exists_cons_of_length_pos (Nat.zero_lt_of_lt hlength)
      refine .again (P := fun round => ∃ a, round = .again (a :: found) ∧ P a)
        (.look (.iteFalse rfl (hp.bind fun a ha => .pure ⟨a, rfl, ha⟩))) hlength ?_
      rintro _ ⟨a, rfl, ha⟩
      refine ⟨_, rfl, fun rounds hrounds => (ih a ha (a :: found) rounds hrounds).imp ?_⟩
      rintro _ ⟨more, rfl, hQ⟩
      exact ⟨a :: more, by simp, hQ⟩
  exact (hfound []).accepts.imp fun as ⟨more, hmore, hQ⟩ => hmore ▸ hQ

theorem accepts_commaSeparated {p : Parser α} {Q : List α → Prop} (h : AcceptsCommas p trees Q) :
    Accepts (commaSeparated p) trees Q [] := by
  unfold commaSeparated
  have hfound : ∀ found : List α, Repeats (fun found => do
      if ← atEnd then return .done found.reverse
      let result ← p
      if ← atEnd then return .done (result :: found).reverse
      mark ","
      return .again (result :: found)) found trees
      (fun as => ∃ more, as = found.reverse ++ more ∧ Q more) [] := by
    induction h with
    | nil hQ =>
      exact fun found => .done (P := (· = .done found.reverse)) (.look (.iteTrue rfl (.pure rfl)))
        fun _ h => ⟨_, h, [], (List.append_nil _).symm, hQ⟩
    | @last trees P Q hp hne hQ =>
      intro found
      obtain ⟨tree, behind, rfl⟩ := List.exists_cons_of_ne_nil hne
      refine .done (P := fun round => ∃ a, round = .done (a :: found).reverse ∧ P a)
        (.look (.iteFalse rfl (hp.bind fun a ha => .look (.iteTrue rfl (.pure ⟨a, rfl, ha⟩))))) ?_
      rintro _ ⟨a, rfl, ha⟩
      exact ⟨_, rfl, [a], by simp, hQ a ha⟩
    | @cons trees mid joint P Q hp hlength _ ih =>
      intro found
      obtain ⟨tree, behind, rfl⟩ := List.exists_cons_of_length_pos (Nat.zero_lt_of_lt hlength)
      refine .again (P := fun round => ∃ a, round = .again (a :: found) ∧ P a)
        (.look (.iteFalse rfl (hp.bind fun a ha => .look (.iteFalse rfl
          ((accepts_mark rfl).andThen (.pure ⟨a, rfl, ha⟩)))))) (Nat.lt_of_succ_lt hlength) ?_
      rintro _ ⟨a, rfl, ha⟩
      refine ⟨_, rfl, fun rounds hrounds => (ih a ha (a :: found) rounds hrounds).imp ?_⟩
      rintro _ ⟨more, rfl, hQ⟩
      exact ⟨a :: more, by simp, hQ⟩
  exact (hfound []).accepts.imp fun as ⟨more, hmore, hQ⟩ => hmore ▸ hQ

end Parser

end DescriptionLookup.Grammar
