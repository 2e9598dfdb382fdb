import DescriptionLookup.Proofs.WrittenPaths

/-!
# Where tokens end

Words and numbers end in front of a blank, a line break or a closing delimiter, if not before, and
strings do not care how the text goes on behind their end. So what is read at the beginning of a
text that ends there is also read where such a character and anything else follow:
`afterLiteral?_of_ends`.

Every scanner has a lemma of its own. Those that cannot fail half-way commute with adding what
follows; a string has to end in the text.
-/

namespace DescriptionLookup

open Text

namespace Token

/-- The characters that no word or number goes on with. -/
def tokenEnds : List Char := '\n' :: wordStops

/-- The text is empty or begins with the end of a token. -/
def Ends (rest : List Char) : Prop := ∀ d ∈ rest.head?, d ∈ tokenEnds

theorem ends_of_stops {rest : List Char} (h : ∀ d ∈ rest.head?, d ∈ wordStops) : Ends rest :=
  fun d hd => List.mem_cons_of_mem _ (h d hd)

theorem ends_line (rest : List Char) : Ends ('\n' :: rest) := by
  rintro d hd
  cases hd
  exact List.mem_cons_self

section Ends

variable {rest : List Char} {kind : StringKind}

theorem Ends.eq_false {d : Char} (h : Ends (d :: rest)) (p : Char → Bool)
    (hp : (tokenEnds.all fun d => !p d) = true) : p d = false := by
  simpa using List.all_eq_true.1 hp d (h d rfl)

theorem Ends.ne {d c : Char} (h : Ends (d :: rest)) (hc : c ∉ tokenEnds) : d ≠ c :=
  ne_of_mem_of_not_mem (h d rfl) hc

theorem Ends.head?_ne {c : Char} (h : Ends rest) (hc : c ∉ tokenEnds) : rest.head? ≠ some c :=
  fun hhead => hc (h c hhead)

theorem Ends.hexDigit? {d : Char} (h : Ends (d :: rest)) : hexDigit? d = none :=
  Option.isSome_eq_false_iff.1 (h.eq_false (fun d => (Text.hexDigit? d).isSome) (by decide))
    |> Option.isNone_iff_eq_none.1

theorem before_append_append (text rest behind : List Char) :
    before (text ++ behind) (rest ++ behind) = before text rest := by
  rw [before, before, List.length_append, List.length_append, Nat.add_sub_add_right,
    List.take_append_of_le_length (Nat.sub_le ..)]

/-- A text with more behind it has no more beginnings, as far as these do not go on with that. -/
theorem prefix_append_iff {start x : List Char} (h : ∀ d ∈ rest.head?, d ∉ start) :
    start <+: x ++ rest ↔ start <+: x := by
  refine ⟨fun hstart => ?_, fun hstart => hstart.trans (List.prefix_append ..)⟩
  rcases List.prefix_or_prefix_of_prefix hstart (List.prefix_append x _) with hx | ⟨more, rfl⟩
  · exact hx
  · cases more with
    | nil => simp
    | cons c more =>
      obtain ⟨behind, hbehind⟩ := (List.prefix_append_right_inj x).1 hstart
      exact absurd (by simp) (h c (by rw [← hbehind]; rfl))

theorem isPrefixOf_append {start : List Char} (h : ∀ d ∈ rest.head?, d ∉ start) (x : List Char) :
    start.isPrefixOf (x ++ rest) = start.isPrefixOf x := by
  rw [Bool.eq_iff_iff, List.isPrefixOf_iff_prefix, List.isPrefixOf_iff_prefix, prefix_append_iff h]

theorem Ends.not_mem {start : List Char} (h : Ends rest)
    (hstart : start.all (· ∉ tokenEnds) = true) : ∀ d ∈ rest.head?, d ∉ start :=
  fun d hd hmem => List.all_iff_forall_prop.1 hstart d hmem (h d hd)

/-! ### Words -/

theorem dropWhile_of_ends (hrest : Ends rest) (p : Char → Bool)
    (hp : (tokenEnds.all fun d => !p d) = true) (x : List Char) :
    (x ++ rest).dropWhile p = x.dropWhile p ++ rest := by
  rw [List.dropWhile_append]
  split
  · next h =>
    rw [List.isEmpty_iff.1 h, List.nil_append]
    cases rest with
    | nil => rfl
    | cons d rest => exact List.dropWhile_cons_of_neg (by simp [hrest.eq_false p hp])
  · rfl

theorem afterIdentifier?_of_ends (hrest : Ends rest) (x : List Char) :
    afterIdentifier? (x ++ rest) = (afterIdentifier? x).map (· ++ rest) := by
  cases x with
  | nil =>
    cases rest with
    | nil => rfl
    | cons d rest =>
      have hstart := hrest.eq_false isIdentifierStart (by decide +kernel)
      simp [afterIdentifier?, hstart]
  | cons c more =>
    rw [List.cons_append, afterIdentifier?, afterIdentifier?,
      dropWhile_of_ends hrest _ (by decide +kernel)]
    split <;> rfl

theorem skipSuffix_of_ends (hrest : Ends rest) (x : List Char) :
    skipSuffix (x ++ rest) = skipSuffix x ++ rest := by
  rw [skipSuffix, skipSuffix, afterIdentifier?_of_ends hrest]
  cases afterIdentifier? x <;> rfl

theorem afterWord?_of_not_raw {text : List Char} (h : ¬ ['r', '#'] <+: text) :
    afterWord? text = afterIdentifier? text := by
  unfold afterWord?
  split
  · next body => exact absurd ⟨body, rfl⟩ h
  · rfl

theorem afterWord?_of_ends (hrest : Ends rest) (x : List Char) :
    afterWord? (x ++ rest) = (afterWord? x).map (· ++ rest) := by
  by_cases hraw : ['r', '#'] <+: x
  · obtain ⟨body, rfl⟩ := hraw
    show afterWord? ('r' :: '#' :: (body ++ rest)) = (afterWord? ('r' :: '#' :: body)).map _
    rw [afterWord?, afterWord?, afterIdentifier?_of_ends hrest]
    cases afterIdentifier? body with
    | none => rfl
    | some behind =>
      simp only [Option.map_some, Option.bind_eq_bind, Option.bind_some, before_append_append]
      split <;> rfl
  · rw [afterWord?_of_not_raw hraw,
      afterWord?_of_not_raw (mt (prefix_append_iff (hrest.not_mem (by decide))).1 hraw),
      afterIdentifier?_of_ends hrest]

/-! ### Numbers -/

theorem afterDigits?_of_ends (hrest : Ends rest) (base : Nat) (empty : Bool) (x : List Char) :
    afterDigits? base empty (x ++ rest) = (afterDigits? base empty x).map (· ++ rest) := by
  induction x generalizing empty with
  | nil =>
    cases rest with
    | nil => cases empty <;> rfl
    | cons d rest =>
      have hlow : d ≠ '_' := hrest.ne (by decide)
      cases empty <;> simp [afterDigits?, hrest.hexDigit?, hlow]
  | cons c more ih =>
    rw [List.cons_append, afterDigits?, afterDigits?]
    split
    · split
      · exact ih _
      · split
        · rfl
        · split <;> rfl
    · split
      · split
        · rfl
        · exact ih _
      · split <;> rfl

theorem endOfNumber?_of_ends (hrest : Ends rest) (x : List Char) :
    endOfNumber? (x ++ rest) = (endOfNumber? x).map (· ++ rest) := by
  simp only [endOfNumber?, skipSuffix_of_ends hrest]
  cases skipSuffix x with
  | nil =>
    cases rest with
    | nil => rfl
    | cons d rest => simp [hrest.eq_false isIdentifierPart (by decide +kernel)]
  | cons c more => by_cases h : isIdentifierPart c = true <;> simp [h]

theorem afterExponent?_of_ends (hrest : Ends rest) (fallback : Option (List Char))
    (signed valued : Bool) (x : List Char) :
    afterExponent? (fallback.map (· ++ rest)) signed valued (x ++ rest) =
      (afterExponent? fallback signed valued x).map (· ++ rest) := by
  induction x generalizing signed valued with
  | nil =>
    cases rest with
    | nil => cases valued <;> simp [afterExponent?]
    | cons d rest =>
      have hplus : d ≠ '+' := hrest.ne (by decide)
      have hminus : d ≠ '-' := hrest.ne (by decide)
      have hlow : d ≠ '_' := hrest.ne (by decide)
      have hdigit := hrest.eq_false Char.isDigit (by decide)
      cases valued <;> simp [afterExponent?, hplus, hminus, hlow, hdigit]
  | cons c more ih =>
    rw [List.cons_append, afterExponent?, afterExponent?]
    split
    · split
      · rfl
      · split
        · rfl
        · exact ih _ _
    · split
      · exact ih _ _
      · split
        · exact ih _ _
        · split <;> rfl

theorem afterFraction?_of_ends (hrest : Ends rest) (pointed : Bool) (x : List Char) :
    afterFraction? pointed (x ++ rest) = (afterFraction? pointed x).map (· ++ rest) := by
  induction x generalizing pointed with
  | nil =>
    cases rest with
    | nil => cases pointed <;> rfl
    | cons d rest =>
      have hlow : d ≠ '_' := hrest.ne (by decide)
      have hpoint : d ≠ '.' := hrest.ne (by decide)
      have hsmall : d ≠ 'e' := hrest.ne (by decide)
      have hlarge : d ≠ 'E' := hrest.ne (by decide)
      have hdigit := hrest.eq_false Char.isDigit (by decide)
      cases pointed <;> simp [afterFraction?, hlow, hpoint, hsmall, hlarge, hdigit]
  | cons c more ih =>
    rw [List.cons_append, afterFraction?, afterFraction?]
    split
    · exact ih _
    · split
      · split
        · rfl
        · have hhead : (more ++ rest).head?.any (fun d => d == '.' || isIdentifierStart d) =
              more.head?.any (fun d => d == '.' || isIdentifierStart d) := by
            cases more with
            | nil =>
              cases rest with
              | nil => rfl
              | cons d rest =>
                exact hrest.eq_false (fun d => d == '.' || isIdentifierStart d) (by decide +kernel)
            | cons d more => rfl
          rw [hhead]
          split
          · rfl
          · exact ih _
      · split
        · rw [← afterExponent?_of_ends hrest]
          split <;> rfl
        · split <;> rfl

theorem afterFloat?_of_ends (hrest : Ends rest) (x : List Char) :
    afterFloat? (x ++ rest) = (afterFloat? x).map (· ++ rest) := by
  cases x with
  | nil =>
    cases rest with
    | nil => rfl
    | cons d rest => simp [afterFloat?, hrest.eq_false Char.isDigit (by decide)]
  | cons c more =>
    rw [List.cons_append, afterFloat?, afterFloat?, afterFraction?_of_ends hrest]
    split
    · cases afterFraction? false more with
      | none => rfl
      | some more => exact endOfNumber?_of_ends hrest more
    · rfl

theorem afterWhole?_of_ends (hrest : Ends rest) (x : List Char) :
    afterWhole? (x ++ rest) = (afterWhole? x).map (· ++ rest) := by
  have hend : ∀ base text, (afterDigits? base true (text ++ rest)).bind endOfNumber? =
      ((afterDigits? base true text).bind endOfNumber?).map (· ++ rest) := by
    intro base text
    rw [afterDigits?_of_ends hrest]
    cases afterDigits? base true text with
    | none => rfl
    | some more => exact endOfNumber?_of_ends hrest more
  have hbase : ∀ c digits, x ++ rest = '0' :: c :: digits → c ∉ tokenEnds →
      ∃ more, x = '0' :: c :: more ∧ digits = more ++ rest := by
    intro c digits heq hc
    have hstart : ['0', c].all (· ∉ tokenEnds) = true := by
      have hzero : '0' ∉ tokenEnds := by decide
      simp [hzero, hc]
    obtain ⟨more, rfl⟩ := (prefix_append_iff (hrest.not_mem hstart)).1 ⟨digits, heq.symm⟩
    exact ⟨more, rfl, by simpa using heq.symm⟩
  unfold afterWhole?
  split
  · next digits heq =>
    obtain ⟨more, rfl, rfl⟩ := hbase _ _ heq (by decide)
    exact hend 16 more
  · next digits heq =>
    obtain ⟨more, rfl, rfl⟩ := hbase _ _ heq (by decide)
    exact hend 8 more
  · next digits heq =>
    obtain ⟨more, rfl, rfl⟩ := hbase _ _ heq (by decide)
    exact hend 2 more
  · next hhex hoct hbin =>
    split
    · next digits => exact absurd rfl (hhex (digits ++ rest))
    · next digits => exact absurd rfl (hoct (digits ++ rest))
    · next digits => exact absurd rfl (hbin (digits ++ rest))
    · exact hend 10 x

/-! ### Strings -/

variable {x behind : List Char}

theorem readQuoted_append {state : QuoteState} {text : List Char}
    (h : readQuoted kind state x = some (text, behind)) (rest : List Char) :
    readQuoted kind state (x ++ rest) = some (text, behind ++ rest) := by
  induction x generalizing state text with
  | nil => cases h
  | cons c more ih =>
    rw [List.cons_append]
    unfold readQuoted at h ⊢
    cases hstep : state.step kind c with
    | none => rw [hstep] at h; cases h
    | some step =>
      rw [hstep] at h
      cases step with
      | close => cases h; rfl
      | next found state' =>
        dsimp only at h ⊢
        cases hmore : readQuoted kind state' more with
        | none => rw [hmore] at h; cases h
        | some result =>
          rw [hmore] at h
          cases h
          rw [ih hmore]

theorem readEscape_append {state : QuoteState} (h : readEscape kind state x = some behind)
    (rest : List Char) : readEscape kind state (x ++ rest) = some (behind ++ rest) := by
  induction x generalizing state with
  | nil => cases h
  | cons c more ih =>
    rw [List.cons_append]
    unfold readEscape at h ⊢
    split at h <;> simp_all

theorem startsWithHashes_of_ends (hrest : Ends rest) (hashes : Nat) (x : List Char) :
    startsWithHashes hashes (x ++ rest) = startsWithHashes hashes x := by
  induction hashes generalizing x with
  | zero => rfl
  | succ hashes ih =>
    cases x with
    | nil =>
      cases rest with
      | nil => rfl
      | cons d rest =>
        have hhash : d ≠ '#' := hrest.ne (by decide)
        simp [startsWithHashes, hhash]
    | cons c more => rw [List.cons_append, startsWithHashes, startsWithHashes, ih]

theorem le_length_of_startsWithHashes {hashes : Nat} (h : startsWithHashes hashes x = true) :
    hashes ≤ x.length := by
  induction hashes generalizing x with
  | zero => exact Nat.zero_le _
  | succ hashes ih =>
    cases x with
    | nil => cases h
    | cons c more => exact Nat.succ_le_succ (ih (Bool.and_eq_true_iff.1 h).2)

theorem openRaw_append {count : Nat} {opened : Nat × List Char} (h : openRaw count x = some opened)
    (rest : List Char) : openRaw count (x ++ rest) = some (opened.1, opened.2 ++ rest) := by
  induction x generalizing count with
  | nil => cases h
  | cons c more ih =>
    unfold openRaw at h
    split at h
    · next heq =>
      cases heq
      exact ih h
    · next heq =>
      cases heq
      split at h
      · next hcount =>
        cases h
        exact if_pos hcount
      · cases h
    · cases h

theorem readRaw_of_ends (hrest : Ends rest) {hashes : Nat} {text : List Char}
    (h : readRaw kind hashes x = some (text, behind)) :
    readRaw kind hashes (x ++ rest) = some (text, behind ++ rest) := by
  induction x generalizing text with
  | nil => cases h
  | cons c more ih =>
    unfold readRaw at h
    rw [List.cons_append, readRaw, startsWithHashes_of_ends hrest]
    split at h
    · next hclose =>
      cases h
      rw [if_pos hclose, List.drop_append_of_le_length (le_length_of_startsWithHashes hclose.2)]
    · next hclose =>
      split at h
      · cases h
      · next hreturn =>
        split at h
        · next hadmits =>
          obtain ⟨⟨text', behind'⟩, hmore, heq⟩ := Option.map_eq_some_iff.1 h
          cases heq
          rw [if_neg hclose, if_neg, if_pos hadmits, ih hmore]
          · rfl
          · rintro ⟨rfl, hhead⟩
            cases more with
            | nil => cases hmore
            | cons d more => exact hreturn ⟨rfl, hhead⟩
        · cases h

theorem afterString?_of_ends (hrest : Ends rest) (h : afterString? kind x = some behind) :
    afterString? kind (x ++ rest) = some (behind ++ rest) := by
  unfold afterString? at h
  split at h
  · next inside =>
    obtain ⟨⟨text, left⟩, hread, rfl⟩ := Option.map_eq_some_iff.1 h
    rw [List.cons_append, afterString?, readQuoted_append hread]
    exact congrArg some (skipSuffix_of_ends hrest left)
  · cases h

theorem afterRawString?_of_ends (hrest : Ends rest) (h : afterRawString? kind x = some behind) :
    afterRawString? kind (x ++ rest) = some (behind ++ rest) := by
  obtain ⟨⟨hashes, inside⟩, hopen, h⟩ := Option.bind_eq_some_iff.1 h
  obtain ⟨⟨text, left⟩, hread, h⟩ := Option.bind_eq_some_iff.1 h
  cases h
  rw [afterRawString?, openRaw_append hopen]
  simp only [Option.bind_eq_bind, Option.bind_some, readRaw_of_ends hrest hread,
    skipSuffix_of_ends hrest]
  rfl

theorem closing_of_ends (hrest : Ends rest) (h : afterQuotedChar?.closing x = some behind) :
    afterQuotedChar?.closing (x ++ rest) = some (behind ++ rest) := by
  unfold afterQuotedChar?.closing at h
  split at h
  · cases h
    rw [List.cons_append, afterQuotedChar?.closing, skipSuffix_of_ends hrest]
  · cases h

theorem afterQuotedChar?_of_ends (hrest : Ends rest) (h : afterQuotedChar? kind x = some behind) :
    afterQuotedChar? kind (x ++ rest) = some (behind ++ rest) := by
  unfold afterQuotedChar? at h ⊢
  split at h
  · next inside =>
    obtain ⟨left, hread, h⟩ := Option.bind_eq_some_iff.1 h
    simp only [List.cons_append, readEscape_append hread, Option.bind_some,
      closing_of_ends hrest h]
  · next c inside hslash =>
    split at h
    · next hadmits =>
      split
      · next heq => exact absurd (List.cons.inj heq).1 hslash
      · next heq =>
        cases heq
        rw [if_pos hadmits]
        exact closing_of_ends hrest h
      · next heq => cases heq
    · cases h
  · cases h

theorem afterQuotedChar?_cons {c : Char} (hslash : c ≠ '\x5c') (more : List Char) :
    afterQuotedChar? .text (c :: more) = afterQuotedChar?.closing more := by
  rw [afterQuotedChar?]
  · rfl
  · exact hslash

/-! ### Literals -/

/-- A literal that begins like a word is a string or a character. -/
theorem afterLiteral?_of_ends_of_start (hrest : Ends rest) {c : Char} {more : List Char}
    (hstart : isIdentifierStart c = true) (h : afterLiteral? (c :: more) = some behind) :
    afterLiteral? (c :: (more ++ rest)) = some (behind ++ rest) := by
  have hquoted : ∀ kind text, afterString? kind text = some behind →
      ∃ inside, text = '\x22' :: inside := by
    intro kind text htext
    unfold afterString? at htext
    split at htext
    · next inside => exact ⟨inside, rfl⟩
    · cases htext
  have horElse : ∀ a : Option (List Char), (a <|> none <|> none) = a := by
    rintro (_ | _) <;> rfl
  unfold afterLiteral? at h ⊢
  rw [afterFloat?_eq_none hstart, afterWhole?_eq_none hstart, horElse] at h ⊢
  split at h
  case h_1 inside heq =>
    cases heq
    exact afterRawString?_of_ends hrest h
  case h_2 inside heq =>
    cases heq
    exact afterRawString?_of_ends hrest h
  case h_3 inside heq =>
    cases heq
    exact afterQuotedChar?_of_ends hrest h
  case h_4 inside _ _ heq =>
    cases heq
    obtain ⟨inside, rfl⟩ := hquoted _ _ h
    exact afterString?_of_ends hrest h
  case h_5 inside heq =>
    cases heq
    exact afterRawString?_of_ends hrest h
  case h_6 inside _ heq =>
    cases heq
    obtain ⟨inside, rfl⟩ := hquoted _ _ h
    exact afterString?_of_ends hrest h
  case h_7 heq => exact absurd (List.cons.inj heq).1 (ne_of_isIdentifierStart hstart (by decide))
  case h_8 =>
    obtain ⟨inside, heq⟩ := hquoted _ _ h
    exact absurd (List.cons.inj heq).1 (ne_of_isIdentifierStart hstart (by decide))

theorem afterLiteral?_quote (inside : List Char) :
    afterLiteral? ('\x22' :: inside) = afterString? .text ('\x22' :: inside) := by
  show (afterString? .text ('\x22' :: inside) <|> none <|> none) = _
  cases afterString? .text ('\x22' :: inside) <;> rfl

theorem afterLiteral?_apostrophe (inside : List Char) :
    afterLiteral? ('\x27' :: inside) = afterQuotedChar? .text inside := by
  show (afterQuotedChar? .text inside <|> none <|> none) = _
  cases afterQuotedChar? .text inside <;> rfl

/-- What begins neither like a word nor with a quotation mark is at most a number. -/
theorem afterLiteral?_number {c : Char} (hstart : isIdentifierStart c = false)
    (hquote : c ≠ '\x22') (hapostrophe : c ≠ '\x27') (more : List Char) :
    afterLiteral? (c :: more) = (afterFloat? (c :: more) <|> afterWhole? (c :: more)) := by
  have hne : ∀ d, isIdentifierStart d = true → c ≠ d := by
    rintro _ hd rfl
    rw [hstart] at hd
    cases hd
  have hr := hne 'r' (by decide)
  have hb := hne 'b' (by decide)
  have hc := hne 'c' (by decide)
  unfold afterLiteral?
  split
  case h_8 => rw [afterString?_eq_none (by simpa using hquote)]; rfl
  all_goals next heq => exact absurd (List.cons.inj heq).1 (by assumption)

/-- What a literal begins with. -/
theorem start_of_afterLiteral? {c : Char} {more : List Char}
    (h : afterLiteral? (c :: more) = some behind) :
    isIdentifierStart c = true ∨ c = '\x22' ∨ c = '\x27' ∨ c.isDigit = true := by
  by_contra hnone
  obtain ⟨hstart, hquote, hapostrophe, hdigit⟩ : isIdentifierStart c = false ∧ c ≠ '\x22' ∧
      c ≠ '\x27' ∧ c.isDigit = false := by simpa [not_or] using hnone
  have hzero : c ≠ '0' := by
    rintro rfl
    cases hdigit
  have hdigits : afterDigits? 10 true (c :: more) = none := by
    unfold afterDigits?
    split
    · next value hvalue =>
      have hlarge : ¬ value < 10 := by
        unfold hexDigit? at hvalue
        split_ifs at hvalue with hrange hsmall hcapital
        · rw [Char.isDigit_iff_toNat.2 hrange] at hdigit
          cases hdigit
        · have : 97 ≤ c.toNat := hsmall.1
          cases hvalue
          omega
        · have : 65 ≤ c.toNat := hcapital.1
          cases hvalue
          omega
      simp [hlarge]
    · split <;> rfl
  have hwhole : afterWhole? (c :: more) = none := by
    unfold afterWhole?
    split
    case h_4 => rw [hdigits]; rfl
    all_goals next heq => exact absurd (List.cons.inj heq).1 hzero
  rw [afterLiteral?_number hstart hquote hapostrophe, hwhole, afterFloat?,
    if_neg (by simp [hdigit])] at h
  cases h

theorem number_of_ends (hrest : Ends rest) (x : List Char) :
    (afterFloat? (x ++ rest) <|> afterWhole? (x ++ rest)) =
      (afterFloat? x <|> afterWhole? x).map (· ++ rest) := by
  rw [afterFloat?_of_ends hrest, afterWhole?_of_ends hrest]
  cases afterFloat? x <;> rfl

theorem afterLiteral?_of_ends (hrest : Ends rest) (h : afterLiteral? x = some behind) :
    afterLiteral? (x ++ rest) = some (behind ++ rest) := by
  cases x with
  | nil => cases h
  | cons c more =>
    rw [List.cons_append]
    by_cases hstart : isIdentifierStart c = true
    · exact afterLiteral?_of_ends_of_start hrest hstart h
    by_cases hquote : c = '\x22'
    · subst hquote
      rw [afterLiteral?_quote] at h ⊢
      exact afterString?_of_ends hrest h
    by_cases hapostrophe : c = '\x27'
    · subst hapostrophe
      rw [afterLiteral?_apostrophe] at h ⊢
      exact afterQuotedChar?_of_ends hrest h
    rw [Bool.not_eq_true] at hstart
    rw [afterLiteral?_number hstart hquote hapostrophe] at h ⊢
    rw [← List.cons_append, number_of_ends hrest, h]
    rfl

/-- The beginning of a string has no end in it. -/
theorem not_opening_of_ends (hrest : Ends rest)
    (h : ∀ opening ∈ stringOpenings, ¬ opening <+: x) :
    ∀ opening ∈ stringOpenings, ¬ opening <+: x ++ rest := by
  have hall : ∀ opening ∈ stringOpenings, opening.all (· ∉ tokenEnds) = true := by decide
  intro opening hmem hbegins
  exact h opening hmem ((prefix_append_iff (hrest.not_mem (hall opening hmem))).1 hbegins)

end Ends

end Token

end DescriptionLookup
