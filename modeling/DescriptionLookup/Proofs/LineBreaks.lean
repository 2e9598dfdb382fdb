import DescriptionLookup.Proofs.TokenEnds

/-!
# Line breaks

Tokens end at a line break, if not before, and block comments do not care how the text goes on
behind their end. So what is read at the beginning of a text that is read to its end alone, is also
read where a line break and anything else follow: `Lexeme.next?_line`. Only blanks go on over the
break.
-/

namespace DescriptionLookup

open Text

namespace Lexeme

open Token

section Lines

variable {x rest : List Char}

theorem head?_line {x : List Char} {c : Char} (hc : c ≠ '\n') (rest : List Char) :
    (x ++ '\n' :: rest).head? = some c ↔ x.head? = some c := by
  cases x with
  | nil => simp [hc.symm]
  | cons d more => rfl

/-! ### Comments -/

theorem lineComment_cons {c : Char} {more : List Char} (hline : c ≠ '\n')
    (hreturn : c = '\r' → more.head? ≠ some '\n') :
    lineComment (c :: more) = (c :: (lineComment more).1, (lineComment more).2) := by
  rw [lineComment]
  · exact hline
  · rintro _ rfl rfl
    exact hreturn rfl rfl

/-- A comment goes on to the end of its line. Where what it says counts, its carriage returns are in
front of line breaks, and so none of them is at its end. -/
theorem lineComment_line (x rest : List Char) :
    (lineComment (x ++ '\n' :: rest)).2 = (lineComment x).2 ++ '\n' :: rest ∧
      (returnsPaired (lineComment x).1 = true →
        (lineComment (x ++ '\n' :: rest)).1 = (lineComment x).1) := by
  fun_induction lineComment x with
  | case1 => exact ⟨rfl, fun _ => rfl⟩
  | case2 more => exact ⟨rfl, fun _ => rfl⟩
  | case3 more => exact ⟨rfl, fun _ => rfl⟩
  | case4 c more hline hreturn content behind heq ih =>
    by_cases hend : c = '\r' ∧ more = []
    · obtain ⟨rfl, rfl⟩ := hend
      cases heq
      exact ⟨rfl, nofun⟩
    · have hcons : lineComment (c :: (more ++ '\n' :: rest)) =
          (c :: (lineComment (more ++ '\n' :: rest)).1,
            (lineComment (more ++ '\n' :: rest)).2) := by
        refine lineComment_cons hline ?_
        rintro rfl hhead
        cases more with
        | nil => exact hend ⟨rfl, rfl⟩
        | cons d more =>
          cases hhead
          exact hreturn more rfl rfl
      rw [heq] at ih
      rw [List.cons_append, hcons]
      refine ⟨ih.1, fun hpaired => congrArg (c :: ·) (ih.2 ?_)⟩
      unfold returnsPaired at hpaired
      split at hpaired
      · next h => cases h
      · next h => cases h; exact (Bool.and_eq_true_iff.1 hpaired).2
      · next h => cases h; exact hpaired

theorem blockComment_line {depth : Nat} {x content behind : List Char}
    (h : blockComment depth x = some (content, behind)) (rest : List Char) :
    blockComment depth (x ++ rest) = some (content, behind ++ rest) := by
  fun_induction blockComment depth x generalizing content with
  | case1 depth more ih =>
    obtain ⟨⟨content', behind'⟩, hmore, heq⟩ := Option.map_eq_some_iff.1 h
    cases heq
    simp only [List.cons_append, blockComment, ih hmore, Option.map_some]
  | case2 more =>
    cases h
    rfl
  | case3 depth more hdepth ih =>
    obtain ⟨⟨content', behind'⟩, hmore, heq⟩ := Option.map_eq_some_iff.1 h
    cases heq
    simp only [List.cons_append, blockComment, if_neg hdepth, ih hmore, Option.map_some]
  | case4 depth c more hopen hclose ih =>
    obtain ⟨⟨content', behind'⟩, hmore, heq⟩ := Option.map_eq_some_iff.1 h
    cases heq
    have hne : more ≠ [] := by rintro rfl; cases hmore
    obtain ⟨d, more, rfl⟩ := List.exists_cons_of_ne_nil hne
    rw [List.cons_append, blockComment, ih hmore]
    · rfl
    · rintro _ rfl heq
      cases heq
      exact hopen more rfl rfl
    · rintro _ rfl heq
      cases heq
      exact hclose more rfl rfl
  | case5 depth => cases h

theorem comment?_outer {more : List Char} (h : more.head? ≠ some '/') :
    comment? ('/' :: '/' :: '/' :: more) =
      some (.documents false (lineComment more).1, (lineComment more).2) := by
  rw [comment?]
  rintro _ rfl
  exact h rfl

theorem comment?_plain {more : List Char} (h : more.head? ≠ some '!') (h' : more.head? ≠ some '/') :
    comment? ('/' :: '/' :: more) = some (.plain, (lineComment more).2) := by
  rw [comment?]
  · rintro _ rfl
    exact h rfl
  · rintro _ rfl
    exact h' rfl
  · rintro _ rfl
    exact h' rfl

theorem comment?_outerBlock {more : List Char} (h : more.head? ≠ some '/')
    (h' : more.head? ≠ some '*') :
    comment? ('/' :: '*' :: '*' :: more) =
      (blockComment 0 more).map fun (content, behind) => (.documents false content, behind) := by
  rw [comment?]
  · rintro _ rfl
    exact h rfl
  · rintro _ rfl
    exact h' rfl

theorem comment?_plainBlock {more : List Char} (h : more.head? ≠ some '!')
    (h' : more.head? ≠ some '*') :
    comment? ('/' :: '*' :: more) =
      (blockComment 0 more).map fun (_, behind) => (.plain, behind) := by
  rw [comment?]
  · rintro _ rfl
    exact h rfl
  · rintro _ rfl
    exact h' rfl
  · rintro _ rfl
    exact h' rfl
  · rintro _ rfl
    exact h' rfl

theorem comment?_of_not_prefix {text : List Char} (h : ¬ ['/', '/'] <+: text)
    (h' : ¬ ['/', '*'] <+: text) : comment? text = none := by
  unfold comment?
  split
  case h_10 => rfl
  all_goals
    exfalso
    first
      | exact h ⟨_, rfl⟩
      | exact h' ⟨_, rfl⟩

theorem head?_ne_line {x : List Char} {c : Char} (hc : c ≠ '\n') (h : ∀ more, x ≠ c :: more)
    (rest : List Char) : (x ++ '\n' :: rest).head? ≠ some c := by
  rw [Ne, head?_line hc]
  intro hhead
  obtain ⟨more, rfl⟩ := List.head?_eq_some_iff.1 hhead
  exact h more rfl

theorem comment?_line {x behind : List Char} {kind : Comment}
    (h : comment? x = some (kind, behind))
    (hpaired : ∀ enclosing content, kind = .documents enclosing content →
      returnsPaired content = true) (rest : List Char) :
    comment? (x ++ '\n' :: rest) = some (kind, behind ++ '\n' :: rest) := by
  unfold comment? at h
  split at h
  case h_1 more =>
    cases h
    obtain ⟨hsnd, hfst⟩ := lineComment_line more rest
    show some (Comment.documents true (lineComment (more ++ '\n' :: rest)).1,
      (lineComment (more ++ '\n' :: rest)).2) = _
    rw [hsnd, hfst (hpaired true _ rfl)]
  case h_2 more =>
    cases h
    exact congrArg (fun behind => some (Comment.plain, behind)) (lineComment_line more rest).1
  case h_3 more hmore =>
    cases h
    obtain ⟨hsnd, hfst⟩ := lineComment_line more rest
    refine (comment?_outer (head?_ne_line (by decide) (fun _ => hmore _) rest)).trans ?_
    rw [hsnd, hfst (hpaired false _ rfl)]
  case h_4 more hinner hruler houter =>
    cases h
    refine (comment?_plain (head?_ne_line (by decide) (fun _ => hinner _) rest)
      (head?_ne_line (by decide) (fun _ => houter _) rest)).trans ?_
    rw [(lineComment_line more rest).1]
  case h_5 more =>
    obtain ⟨⟨content, left⟩, hblock, heq⟩ := Option.map_eq_some_iff.1 h
    cases heq
    exact Option.map_eq_some_iff.2 ⟨_, blockComment_line hblock _, rfl⟩
  case h_6 more =>
    cases h
    rfl
  case h_7 more =>
    obtain ⟨⟨content, left⟩, hblock, heq⟩ := Option.map_eq_some_iff.1 h
    cases heq
    exact Option.map_eq_some_iff.2 ⟨_, blockComment_line hblock _, rfl⟩
  case h_8 more hempty hstars =>
    obtain ⟨⟨content, left⟩, hblock, heq⟩ := Option.map_eq_some_iff.1 h
    cases heq
    refine (comment?_outerBlock (head?_ne_line (by decide) (fun _ => hempty _) rest)
      (head?_ne_line (by decide) (fun _ => hstars _) rest)).trans ?_
    exact Option.map_eq_some_iff.2 ⟨_, blockComment_line hblock _, rfl⟩
  case h_9 more hinner _ _ houter =>
    obtain ⟨⟨content, left⟩, hblock, heq⟩ := Option.map_eq_some_iff.1 h
    cases heq
    refine (comment?_plainBlock (head?_ne_line (by decide) (fun _ => hinner _) rest)
      (head?_ne_line (by decide) (fun _ => houter _) rest)).trans ?_
    exact Option.map_eq_some_iff.2 ⟨_, blockComment_line hblock _, rfl⟩
  case h_10 => cases h

/-! ### Marks and tokens -/

theorem mark?_cons (c : Char) (text : List Char) :
    mark? (c :: text) = if c = '/' ∧ (text.head? = some '/' ∨ text.head? = some '*') then none
      else if isMark c then some c else none := by
  unfold mark?
  split
  · next heq => cases heq; simp
  · next heq => cases heq; simp
  · next hline hblock heq =>
    cases heq
    have hcomment : ¬ (c = '/' ∧ (text.head? = some '/' ∨ text.head? = some '*')) := by
      rintro ⟨rfl, hhead | hhead⟩ <;> obtain ⟨more, rfl⟩ := List.head?_eq_some_iff.1 hhead
      · exact hline more rfl rfl
      · exact hblock more rfl rfl
    rw [if_neg hcomment]
  · next heq => cases heq

theorem mark?_eq_some_iff {c : Char} {text : List Char} : mark? (c :: text) = some c ↔
    isMark c = true ∧ (c = '/' → text.head? ≠ some '/' ∧ text.head? ≠ some '*') := by
  rw [mark?_cons]
  by_cases hcomment : c = '/' ∧ (text.head? = some '/' ∨ text.head? = some '*')
  · rw [if_pos hcomment]
    exact iff_of_false nofun fun h =>
      hcomment.2.elim (h.2 hcomment.1).1 (h.2 hcomment.1).2
  · rw [if_neg hcomment]
    simp only [Option.ite_none_right_eq_some, and_true, iff_self_and]
    exact fun _ hc => not_or.1 fun hhead => hcomment ⟨hc, hhead⟩

/-- The facts about marks that the lexer relies on. -/
theorem not_blank_of_isMark {c : Char} (h : isMark c = true) :
    isBlank c = false ∧ Delimiter.ofClosing? c = none ∧ Delimiter.ofOpening? c = none := by
  have hall : ∀ c ∈ markChars, isBlank c = false ∧ Delimiter.ofClosing? c = none ∧
      Delimiter.ofOpening? c = none := List.all_iff_forall_prop.1 (by decide +kernel)
  exact hall c (List.contains_iff_mem.1 h)

theorem comment?_of_mark? {c : Char} {text : List Char} (h : mark? (c :: text) = some c) :
    comment? (c :: text) = none := by
  obtain ⟨-, hslash⟩ := mark?_eq_some_iff.1 h
  refine comment?_of_not_prefix ?_ ?_
  · rintro ⟨more, heq⟩
    cases heq
    exact (hslash rfl).1 rfl
  · rintro ⟨more, heq⟩
    cases heq
    exact (hslash rfl).2 rfl

/-- The mark at the beginning of a text stays when the end of a token follows. -/
theorem mark?_of_ends (hrest : Ends rest) (hx : x ≠ []) : mark? (x ++ rest) = mark? x := by
  cases x with
  | nil => exact absurd rfl hx
  | cons c more =>
    have hhead : ∀ d, d ∉ tokenEnds → ((more ++ rest).head? = some d ↔ more.head? = some d) := by
      intro d hd
      cases more with
      | nil => simpa using hrest.head?_ne hd
      | cons => rfl
    rw [List.cons_append, mark?_cons, mark?_cons]
    simp only [hhead '/' (by decide), hhead '*' (by decide)]

theorem mark?_line (x rest : List Char) : mark? (x ++ '\n' :: rest) = mark? x := by
  cases x with
  | nil => rfl
  | cons c more => exact mark?_of_ends (ends_line rest) (List.cons_ne_nil c more)

theorem beginsLifetime_of_ends (hrest : Ends rest) (x : List Char) :
    beginsLifetime (x ++ rest) = beginsLifetime x := by
  have hraw : ['r', '#'].isPrefixOf (x ++ rest) = ['r', '#'].isPrefixOf x :=
    isPrefixOf_append (hrest.not_mem (by decide)) x
  rw [beginsLifetime, beginsLifetime, afterWord?_of_ends hrest, hraw]
  cases afterWord? x with
  | none => rfl
  | some behind =>
    cases behind with
    | nil =>
      have hapostrophe : rest.head? ≠ some '\x27' := hrest.head?_ne (by decide)
      have hhash : rest.head? ≠ some '#' := hrest.head?_ne (by decide)
      show (rest.head? != some '\x27' && _) = true
      simp [hapostrophe, hhash]
    | cons => rfl

theorem isIdentifierStart_of_mark {c : Char} (h : isMark c = true) :
    isIdentifierStart c = false := by
  have hall : (markChars.all fun d => !isIdentifierStart d) = true := by decide +kernel
  simpa using List.all_eq_true.1 hall c (List.contains_iff_mem.1 h)

theorem exists_of_mark? {c : Char} (h : mark? x = some c) :
    ∃ more, x = c :: more ∧ isMark c = true := by
  unfold mark? at h
  split at h
  · cases h
  · cases h
  · next d more _ _ =>
    split at h
    · next hmark =>
      cases h
      exact ⟨more, rfl, hmark⟩
    · cases h
  · cases h

theorem exists_start_of_afterWord? {behind : List Char} (h : afterWord? x = some behind) :
    ∃ c more, x = c :: more ∧ isIdentifierStart c = true := by
  unfold afterWord? at h
  split at h
  · next body => exact ⟨'r', '#' :: body, rfl, by decide⟩
  · cases x with
    | nil => cases h
    | cons c more =>
      rw [afterIdentifier?] at h
      split at h
      · next hstart => exact ⟨c, more, rfl, hstart⟩
      · cases h

theorem token?_mark {c : Char} {more : List Char} (hliteral : afterLiteral? (c :: more) = none)
    (hmark : mark? (c :: more) = some c) (hne : c ≠ '\x27') (pos : Position) :
    token? pos (c :: more) = some (.mark c (mark? more).isSome pos, more) := by
  simp only [token?, hliteral, hmark, if_neg hne, List.drop_succ_cons, List.drop_zero]

theorem token?_apostrophe {more : List Char} (hliteral : afterQuotedChar? .text more = none)
    (pos : Position) :
    token? pos ('\x27' :: more) =
      if beginsLifetime more = true then some (.mark '\x27' true pos, more) else none := by
  rw [token?, afterLiteral?_apostrophe, hliteral]
  rfl

/-- An apostrophe in front of a lifetime begins no character, however the text goes on. -/
theorem afterQuotedChar?_lifetime (hrest : Ends rest) (h : afterQuotedChar? .text x = none)
    (hlifetime : beginsLifetime x = true) : afterQuotedChar? .text (x ++ rest) = none := by
  cases x with
  | nil => cases hlifetime
  | cons d more =>
    have hslash : d ≠ '\x5c' := by
      rintro rfl
      cases hlifetime
    rw [List.cons_append, afterQuotedChar?_cons hslash] at *
    unfold afterQuotedChar?.closing at h ⊢
    split at h
    · cases h
    · next hquote =>
      split
      · next behind heq =>
        cases more with
        | nil => exact absurd (congrArg List.head? heq) (hrest.head?_ne (by decide))
        | cons quote more =>
          cases heq
          exact absurd rfl (hquote more)
      · rfl

section Token

variable {pos : Position} {token : TokenTree} {behind : List Char}

/-- A mark at the end of a line is not joint, and one before stays what it is. -/
theorem token?_line_of_mark {c : Char} (hliteral : afterLiteral? x = none)
    (hmark : mark? x = some c) (h : token? pos x = some (token, behind)) (rest : List Char) :
    token? pos (x ++ '\n' :: rest) = some (token, behind ++ '\n' :: rest) := by
  obtain ⟨more, rfl, hc⟩ := exists_of_mark? hmark
  by_cases hapostrophe : c = '\x27'
  · subst hapostrophe
    rw [afterLiteral?_apostrophe] at hliteral
    rw [token?_apostrophe hliteral] at h
    split at h
    · next hlifetime =>
      cases h
      rw [List.cons_append, token?_apostrophe
        (afterQuotedChar?_lifetime (ends_line rest) hliteral hlifetime)]
      exact if_pos ((beginsLifetime_of_ends (ends_line rest) behind).trans hlifetime)
    · cases h
  · have hstart := isIdentifierStart_of_mark hc
    have hquote : c ≠ '\x22' := by
      rintro rfl
      exact absurd hc (by decide)
    have hnone : afterLiteral? (c :: (more ++ '\n' :: rest)) = none := by
      rw [afterLiteral?_number hstart hquote hapostrophe] at hliteral ⊢
      exact (number_of_ends (ends_line rest) (c :: more)).trans (by rw [hliteral]; rfl)
    rw [token?_mark hliteral hmark hapostrophe] at h
    cases h
    refine (token?_mark hnone ((mark?_line _ rest).trans hmark) hapostrophe pos).trans ?_
    rw [mark?_line]

theorem token?_line_of_word (hword : afterPlainWord? x = some behind) (pos : Position)
    (rest : List Char) : token? pos (x ++ '\n' :: rest) =
      some (.word (String.ofList (before x behind)) pos, behind ++ '\n' :: rest) := by
  unfold afterPlainWord? at hword
  split at hword
  · cases hword
  next hopening =>
  have hopening' : ∀ opening ∈ stringOpenings, ¬ opening <+: x := by
    simpa [List.any_eq_true, List.isPrefixOf_iff_prefix] using hopening
  obtain ⟨c, more, rfl, hstart⟩ := exists_start_of_afterWord? hword
  have hline : afterWord? (c :: (more ++ '\n' :: rest)) = some (behind ++ '\n' :: rest) :=
    (afterWord?_of_ends (ends_line rest) (c :: more)).trans (by rw [hword]; rfl)
  have hopening'' := not_opening_of_ends (ends_line rest) hopening'
  refine (token?_of_afterWord? hstart hopening'' hline pos).trans ?_
  exact congrArg (fun name => some (TokenTree.word (String.ofList name) pos, _))
    (before_append_append (c :: more) behind _)

theorem token?_line (h : token? pos x = some (token, behind)) (rest : List Char) :
    token? pos (x ++ '\n' :: rest) = some (token, behind ++ '\n' :: rest) := by
  have hfound := h
  unfold token? at h
  split at h
  · next left hliteral =>
    cases h
    rw [token?, afterLiteral?_of_ends (ends_line rest) hliteral]
    dsimp only
    rw [before_append_append]
  next hliteral =>
  split at h
  · next c hmark => exact token?_line_of_mark hliteral hmark hfound rest
  next hmark =>
  split at h
  · next hword =>
    cases h
    exact token?_line_of_word hword pos rest
  · split at h
    · next herror =>
      obtain ⟨more, rfl⟩ := List.isPrefixOf_iff_prefix.1 herror
      cases h
      rfl
    · cases h

end Token

/-! ### Lexemes -/

theorem comment?_of_line (h : ['/', '/'] <+: x) : ∃ found, comment? x = some found := by
  obtain ⟨more, rfl⟩ := h
  rw [List.cons_append, List.singleton_append]
  by_cases hinner : more.head? = some '!'
  · obtain ⟨more, rfl⟩ := List.head?_eq_some_iff.1 hinner
    exact ⟨_, rfl⟩
  by_cases houter : more.head? = some '/'
  · obtain ⟨more, rfl⟩ := List.head?_eq_some_iff.1 houter
    by_cases hruler : more.head? = some '/'
    · obtain ⟨more, rfl⟩ := List.head?_eq_some_iff.1 hruler
      exact ⟨_, rfl⟩
    · exact ⟨_, comment?_outer hruler⟩
  · exact ⟨_, comment?_plain hinner houter⟩

/-- Where something is read that is no comment, none begins if a line break follows. -/
theorem comment?_line_none {pos : Position} (h : comment? x = none)
    (htoken : ['/', '*'] <+: x → token? pos x ≠ none) (rest : List Char) :
    comment? (x ++ '\n' :: rest) = none := by
  refine comment?_of_not_prefix (fun hline => ?_) fun hblock => ?_
  · obtain ⟨found, hfound⟩ := comment?_of_line ((prefix_append_iff (by simp)).1 hline)
    rw [h] at hfound
    cases hfound
  · have hx := (prefix_append_iff (by simp)).1 hblock
    refine htoken hx ?_
    obtain ⟨more, rfl⟩ := hx
    rfl

/-- What is read at the beginning of a line is the same, whatever follows the line; only blanks go
on over its end. -/
theorem next?_line {pos : Position} {lexemes : List Lexeme} {behind : List Char}
    (h : next? pos x = some (lexemes, behind)) (rest : List Char) :
    next? pos (x ++ '\n' :: rest) = some (lexemes, behind ++ '\n' :: rest) ∨
      lexemes = [] ∧ behind = [] ∧
        next? pos (x ++ '\n' :: rest) = some ([], rest.dropWhile isBlank) := by
  cases x with
  | nil => cases h
  | cons c more =>
    rw [next?] at h
    split at h
    · next hblank =>
      cases h
      rw [List.cons_append, next?, if_pos hblank, List.dropWhile_append]
      split
      · next hempty =>
        exact .inr ⟨rfl, List.isEmpty_iff.1 hempty, rfl⟩
      · exact .inl rfl
    next hblank =>
    left
    rw [List.cons_append, next?, if_neg hblank, ← List.cons_append]
    split at h
    · next behind' hcomment =>
      cases h
      rw [comment?_line hcomment fun _ _ h => by cases h]
    · next enclosing content behind' hcomment =>
      split at h
      · next hpaired =>
        cases h
        rw [comment?_line hcomment (by rintro _ _ ⟨⟩; exact hpaired)]
        dsimp only
        rw [if_pos hpaired, before_append_append]
      · cases h
    next hcomment =>
    have herror : errorLiteral.isPrefixOf (c :: more ++ '\n' :: rest) =
        errorLiteral.isPrefixOf (c :: more) :=
      isPrefixOf_append (by rintro d ⟨⟩; decide) _
    have hnone : comment? (c :: more ++ '\n' :: rest) = none := by
      have htoken : ['/', '*'] <+: c :: more → token? pos (c :: more) ≠ none := by
        rintro ⟨inside, heq⟩ htoken
        cases heq
        cases h
      exact comment?_line_none hcomment htoken rest
    rw [hnone]
    dsimp only
    split at h
    · next hclosing =>
      cases h
      rfl
    next hclosing =>
    split at h
    · next d hopening =>
      rw [herror]
      split at h
      · obtain ⟨⟨token, behind'⟩, htoken, heq⟩ := Option.map_eq_some_iff.1 h
        cases heq
        rw [if_pos ‹_›, token?_line htoken]
        rfl
      · cases h
        rw [if_neg ‹_›]
    · next hopening =>
      obtain ⟨⟨token, behind'⟩, htoken, heq⟩ := Option.map_eq_some_iff.1 h
      cases heq
      rw [token?_line htoken]
      rfl

end Lines

end Lexeme

end DescriptionLookup
