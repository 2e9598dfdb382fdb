import DescriptionLookup.Proofs.LineBreaks

/-!
# Tokens read alone

A token that was read in front of anything is also read when nothing follows it: the scanners leave
the end of what they are given, and what they leave decides nothing about what they take.

* `IsLocal`: the scanners of which this holds;
* `isWord_of_afterPlainWord?`: a word is one when it stands alone;
* `afterLiteral?_alone`: a literal is one when it stands alone;
* `beginsLifetime_alone`: what follows the apostrophe of a lifetime.
-/

namespace DescriptionLookup

open Text

/-! ### Identifiers and numbers in the tables -/

/-- Every interval of the first list lies in one of the second; both are in order. -/
def Text.Intervals.within : Intervals → Intervals → Bool
  | inner, [] => inner.isEmpty
  | inner, (first, stop) :: outer =>
    let left := inner.dropWhile fun interval => first ≤ interval.1 && interval.2 ≤ stop
    left.head?.all (fun interval => first ≤ interval.1) && Intervals.within left outer

theorem Text.Intervals.holds_dropWhile {inner : Intervals} {n : Nat} (first stop : Nat)
    (h : inner.holds n = true) : (first ≤ n ∧ n < stop) ∨ Intervals.holds
      (inner.dropWhile fun interval => first ≤ interval.1 && interval.2 ≤ stop) n = true := by
  induction inner with
  | nil => cases h
  | cons interval inner ih =>
    obtain ⟨low, high⟩ := interval
    by_cases hin : first ≤ low ∧ high ≤ stop
    · rw [List.dropWhile_cons_of_pos (by simpa using hin)]
      simp only [Intervals.holds_cons, Bool.and_eq_true, Bool.or_eq_true, decide_eq_true_eq] at h
      rcases h with ⟨hlow, hhigh | hrest⟩
      · exact .inl ⟨by omega, by omega⟩
      · exact ih hrest
    · rw [List.dropWhile_cons_of_neg (by simpa using hin)]
      exact .inr h

theorem Text.Intervals.holds_of_within {inner outer : Intervals} {n : Nat}
    (h : inner.within outer = true) (hn : inner.holds n = true) : outer.holds n = true := by
  induction outer generalizing inner with
  | nil =>
    rw [Intervals.within, List.isEmpty_iff] at h
    rw [h] at hn
    cases hn
  | cons interval outer ih =>
    obtain ⟨first, stop⟩ := interval
    obtain ⟨hleft, hwithin⟩ := Bool.and_eq_true_iff.1 h
    rw [Intervals.holds_cons]
    rcases Intervals.holds_dropWhile first stop hn with ⟨hfirst, hstop⟩ | hmore
    · simp [hfirst, hstop]
    · -- What is left begins behind the first end of the outer interval.
      have hfirst : first ≤ n := by
        cases heq : inner.dropWhile fun interval => first ≤ interval.1 && interval.2 ≤ stop with
        | nil => rw [heq] at hmore; cases hmore
        | cons interval more =>
          obtain ⟨low, high⟩ := interval
          rw [heq] at hleft hmore
          have hlow : first ≤ low := by simpa using hleft
          simp only [Intervals.holds_cons, Bool.and_eq_true, decide_eq_true_eq] at hmore
          exact hlow.trans hmore.1
      simp [hfirst, ih hwithin hmore]

theorem isIdentifierPart_of_isIdentifierStart {c : Char} (h : isIdentifierStart c = true) :
    isIdentifierPart c = true := by
  have hwithin : xidStart.within xidContinue = true := by decide +kernel
  simp only [isIdentifierStart, Bool.or_eq_true, beq_iff_eq] at h
  rcases h with rfl | h
  · decide +kernel
  · exact Intervals.holds_of_within hwithin h

theorem isIdentifierPart_of_hexDigit? {c : Char} {d : Nat} (h : hexDigit? c = some d) :
    isIdentifierPart c = true := by
  have hall : ∀ n < 103, (hexDigit? (Char.ofNat n)).isSome = true → xidContinue.holds n = true := by
    decide +kernel
  have hlt : c.toNat < 103 := by
    unfold hexDigit? at h
    split_ifs at h with hdigit hsmall hlarge
    · have : c.toNat ≤ 57 := hdigit.2
      omega
    · have : c.toNat ≤ 102 := hsmall.2
      omega
    · have : c.toNat ≤ 70 := hlarge.2
      omega
  exact hall c.toNat hlt (by rw [Char.ofNat_toNat, h]; rfl)

namespace Token

/-- The scanner leaves an end of the text, and takes the same when only that is missing which it
left over. -/
structure IsLocal (f : List Char → Option (List Char)) : Prop where
  suffix : ∀ {x behind : List Char}, f x = some behind → behind <:+ x
  alone : ∀ {x behind rest : List Char}, f (x ++ rest) = some (behind ++ rest) → f x = some behind

section Local

variable {f g : List Char → Option (List Char)} {x behind rest : List Char} {c : Char}
  {kind : StringKind}

theorem not_append_suffix (h : behind ++ c :: rest <:+ rest) : False := by
  have hlength := h.length_le
  simp only [List.length_append, List.length_cons] at hlength
  omega

theorem eq_nil_of_append_suffix (h : behind ++ rest <:+ rest) : behind = [] := by
  have hlength := h.length_le
  rw [List.length_append] at hlength
  exact List.eq_nil_of_length_eq_zero (by omega)

theorem some_of_append (h : some (x ++ rest) = some (behind ++ rest)) : some x = some behind :=
  congrArg some (List.append_cancel_right (Option.some.inj h))

/-- What leaves at least what followed leaves something in front of it. -/
theorem exists_eq_append {mid : List Char} (h : behind ++ rest <:+ mid) :
    ∃ mid', mid = mid' ++ rest := by
  obtain ⟨mid', rfl⟩ := (List.suffix_append behind rest).trans h
  exact ⟨mid', rfl⟩

namespace IsLocal

/-- What was all taken is taken alone. -/
theorem taken (h : IsLocal f) (hx : f (x ++ rest) = some rest) : f x = some [] := h.alone hx

theorem none : IsLocal fun _ => none := ⟨nofun, nofun⟩

theorem bind (hf : IsLocal f) (hg : IsLocal g) : IsLocal fun x => (f x).bind g where
  suffix h := by
    obtain ⟨mid, hmid, hbehind⟩ := Option.bind_eq_some_iff.1 h
    exact (hg.suffix hbehind).trans (hf.suffix hmid)
  alone h := by
    obtain ⟨mid, hmid, hbehind⟩ := Option.bind_eq_some_iff.1 h
    obtain ⟨mid', rfl⟩ := exists_eq_append (hg.suffix hbehind)
    exact Option.bind_eq_some_iff.2 ⟨mid', hf.alone hmid, hg.alone hbehind⟩

theorem ite {p : Prop} [Decidable p] (hf : IsLocal f) (hg : IsLocal g) :
    IsLocal fun x => if p then f x else g x := by
  split
  · exact hf
  · exact hg

/-- A scanner that takes a first character, and decides by it how to go on. -/
theorem cons (next : Char → List Char → Option (List Char)) (hnil : f [] = Option.none)
    (hcons : ∀ c more, f (c :: more) = next c more) (h : ∀ c, IsLocal (next c)) : IsLocal f where
  suffix {x behind} hx := by
    cases x with
    | nil => rw [hnil] at hx; cases hx
    | cons c more =>
      rw [hcons] at hx
      exact ((h c).suffix hx).trans (List.suffix_cons ..)
  alone {x behind rest} hx := by
    cases x with
    | nil =>
      cases rest with
      | nil => rw [List.nil_append, hnil] at hx; cases hx
      | cons c rest =>
        rw [List.nil_append, hcons] at hx
        exact (not_append_suffix ((h c).suffix hx)).elim
    | cons c more =>
      rw [List.cons_append, hcons] at hx
      rw [hcons]
      exact (h c).alone hx

/-- A scanner that is at its end, or goes on in another state, after every character. -/
theorem of_step {State : Type} {f : State → List Char → Option (List Char)}
    (step : State → Char → Option (Option State)) (hnil : ∀ state, f state [] = Option.none)
    (hcons : ∀ state c more, f state (c :: more) = (step state c).bind fun next =>
      next.elim (some more) fun state' => f state' more) (state : State) : IsLocal (f state) := by
  have hsuffix : ∀ {state x behind}, f state x = some behind → behind <:+ x.tail := by
    intro state x behind hx
    induction x generalizing state with
    | nil => rw [hnil] at hx; cases hx
    | cons c more ih =>
      rw [hcons] at hx
      obtain ⟨next, -, hx⟩ := Option.bind_eq_some_iff.1 hx
      cases next with
      | none => cases hx; exact List.suffix_rfl
      | some state' => exact (ih hx).trans (List.tail_suffix more)
  refine ⟨fun hx => (hsuffix hx).trans (List.tail_suffix _), fun {x behind rest} hx => ?_⟩
  induction x generalizing state with
  | nil =>
    cases rest with
    | nil => rw [List.nil_append, hnil] at hx; cases hx
    | cons c rest => exact (not_append_suffix (hsuffix hx)).elim
  | cons c more ih =>
    rw [List.cons_append, hcons] at hx
    obtain ⟨next, hnext, hx⟩ := Option.bind_eq_some_iff.1 hx
    rw [hcons, hnext]
    cases next with
    | none => exact some_of_append hx
    | some state' => exact ih state' hx

end IsLocal

/-! ### Words -/

theorem isLocal_dropWhile (p : Char → Bool) : IsLocal fun x => some (x.dropWhile p) where
  suffix h := by
    cases h
    exact List.dropWhile_suffix p
  alone {x behind rest} h := by
    have hdrop := Option.some.inj h
    rw [List.dropWhile_append] at hdrop
    split at hdrop
    · next hempty =>
      obtain rfl := eq_nil_of_append_suffix (hdrop ▸ List.dropWhile_suffix p)
      rw [List.isEmpty_iff.1 hempty]
    · rw [List.append_cancel_right hdrop]

theorem isLocal_afterIdentifier? : IsLocal afterIdentifier? :=
  .cons _ rfl (fun _ _ => rfl) fun _ => .ite (isLocal_dropWhile _) .none

theorem isLocal_skipSuffix : IsLocal fun x => some (skipSuffix x) where
  suffix {x behind} h := by
    rw [← Option.some.inj h, skipSuffix]
    cases hsuffix : afterIdentifier? x with
    | none => exact List.suffix_rfl
    | some left => exact isLocal_afterIdentifier?.suffix hsuffix
  alone {x behind rest} h := by
    have hskip := Option.some.inj h
    rw [skipSuffix] at hskip
    refine congrArg some ?_
    cases hsuffix : afterIdentifier? (x ++ rest) with
    | some left =>
      rw [hsuffix, Option.getD_some] at hskip
      rw [skipSuffix, isLocal_afterIdentifier?.alone (hskip ▸ hsuffix), Option.getD_some]
    | none =>
      rw [hsuffix, Option.getD_none] at hskip
      rw [← List.append_cancel_right hskip, skipSuffix]
      cases x with
      | nil => rfl
      | cons c more =>
        rw [List.cons_append, afterIdentifier?] at hsuffix
        split at hsuffix
        · cases hsuffix
        · next hstart => rw [afterIdentifier?, if_neg hstart, Option.getD_none]

theorem isLocal_afterWord? : IsLocal afterWord? where
  suffix {x behind} h := by
    unfold afterWord? at h
    split at h
    · obtain ⟨left, hleft, h⟩ := Option.bind_eq_some_iff.1 h
      split at h
      · cases h
      · cases h
        exact (isLocal_afterIdentifier?.suffix hleft).trans (List.suffix_append ['r', '#'] _)
    · exact isLocal_afterIdentifier?.suffix h
  alone {x behind rest} h := by
    by_cases hraw : ['r', '#'] <+: x ++ rest
    · obtain ⟨body, hbody : 'r' :: '#' :: body = x ++ rest⟩ := hraw
      rw [← hbody] at h
      obtain ⟨left, hleft, h⟩ := Option.bind_eq_some_iff.1 h
      split at h
      · cases h
      next hnever =>
      cases h
      have hsuffix := isLocal_afterIdentifier?.suffix hleft
      rcases x with - | ⟨r, - | ⟨sharp, x⟩⟩
      · obtain rfl := hbody
        exact (not_append_suffix (hsuffix.trans (List.suffix_cons '#' _))).elim
      · obtain ⟨-, rfl⟩ := List.cons.inj hbody
        exact (not_append_suffix hsuffix).elim
      · obtain ⟨rfl, rfl, rfl⟩ : 'r' = r ∧ '#' = sharp ∧ body = x ++ rest := by simpa using hbody
        rw [before_append_append] at hnever
        rw [afterWord?, isLocal_afterIdentifier?.alone hleft]
        exact if_neg hnever
    · rw [afterWord?_of_not_raw hraw] at h
      rw [afterWord?_of_not_raw (fun hx => hraw (hx.trans (List.prefix_append ..)))]
      exact isLocal_afterIdentifier?.alone h

/-- A word that was read is a word. -/
theorem isWord_of_afterPlainWord? (h : afterPlainWord? (x ++ rest) = some rest) :
    isWord x = true := by
  unfold afterPlainWord? at h
  split at h
  · cases h
  · next hopening =>
    refine isWord_iff.2 ⟨fun opening hmem hbegins => hopening ?_, isLocal_afterWord?.taken h⟩
    have hmore : opening <+: x ++ rest := hbegins.trans (List.prefix_append ..)
    exact List.any_eq_true.2 ⟨opening, hmem, List.isPrefixOf_iff_prefix.2 hmore⟩

/-! ### Numbers -/

theorem suffix_of_afterDigits? {base : Nat} {empty : Bool}
    (h : afterDigits? base empty x = some behind) :
    behind <:+ x ∧ (empty = true → behind <:+ x.tail) := by
  induction x generalizing empty with
  | nil => cases empty <;> cases h; simp
  | cons c more ih =>
    have hmore : ∀ {empty}, afterDigits? base empty more = some behind → behind <:+ more :=
      fun h => (ih h).1
    have hcons : behind <:+ more → behind <:+ c :: more := (·.trans (List.suffix_cons ..))
    rw [afterDigits?] at h
    split at h <;> split_ifs at h <;> grind

theorem isLocal_afterDigits? (base : Nat) (empty : Bool) : IsLocal (afterDigits? base empty) := by
  refine ⟨fun h => (suffix_of_afterDigits? h).1, fun {x behind rest} h => ?_⟩
  induction x generalizing empty with
  | nil =>
    obtain rfl := eq_nil_of_append_suffix (suffix_of_afterDigits? h).1
    cases empty with
    | false => rfl
    | true =>
      -- A number needs a digit, and this one would have none.
      have htail := (suffix_of_afterDigits? h).2 rfl
      cases rest with
      | nil => cases h
      | cons c rest => exact (not_append_suffix htail).elim
  | cons c more ih =>
    rw [List.cons_append, afterDigits?] at h
    rw [afterDigits?]
    split at h <;> split_ifs at h ⊢ <;> first | exact ih _ h | exact some_of_append h

theorem isLocal_endOfNumber? : IsLocal endOfNumber? where
  suffix {x behind} h := by
    unfold endOfNumber? at h
    dsimp only at h
    split at h
    · cases h
    · exact isLocal_skipSuffix.suffix h
  alone {x behind rest} h := by
    unfold endOfNumber? at h ⊢
    dsimp only at h ⊢
    split at h
    · cases h
    · next hhead =>
      have hskip := Option.some.inj (isLocal_skipSuffix.alone h)
      rw [Option.some.inj h] at hhead
      rw [hskip, if_neg]
      cases behind with
      | nil => simp
      | cons c behind => exact hhead

/-- What is left behind an exponent: nothing of it, if it has no digit. -/
theorem suffix_of_afterExponent? {fallback : Option (List Char)} {signed valued : Bool}
    (h : afterExponent? fallback signed valued x = some behind) :
    valued = true ∧ behind <:+ x ∨
      valued = false ∧ (fallback = some behind ∨ behind <:+ x.tail) := by
  induction x generalizing signed valued with
  | nil =>
    cases valued
    · exact .inr ⟨rfl, .inl h⟩
    · cases h
      exact .inl ⟨rfl, List.suffix_rfl⟩
  | cons c more ih =>
    have hcons : behind <:+ more → behind <:+ c :: more := (·.trans (List.suffix_cons ..))
    have htail : behind <:+ more.tail → behind <:+ more := (·.trans (List.tail_suffix _))
    rw [afterExponent?] at h
    split_ifs at h <;> grind

theorem afterExponent?_alone {fallback : Option (List Char)} {signed valued : Bool}
    (h : afterExponent? (fallback.map (· ++ rest)) signed valued (x ++ rest) =
      some (behind ++ rest)) : afterExponent? fallback signed valued x = some behind := by
  have hfallback : fallback.map (· ++ rest) = some (behind ++ rest) → fallback = some behind := by
    intro hmap
    obtain ⟨text, rfl, heq⟩ := Option.map_eq_some_iff.1 hmap
    rw [List.append_cancel_right heq]
  induction x generalizing signed valued with
  | nil =>
    rcases suffix_of_afterExponent? h with ⟨rfl, hsuffix⟩ | ⟨rfl, hmap | hsuffix⟩
    · rw [eq_nil_of_append_suffix hsuffix]
      rfl
    · exact hfallback hmap
    · cases rest with
      | nil => rw [List.append_nil] at h; exact hfallback (by simpa [afterExponent?] using h)
      | cons c rest => exact (not_append_suffix hsuffix).elim
  | cons c more ih =>
    rw [List.cons_append, afterExponent?] at h
    rw [afterExponent?]
    split_ifs at h ⊢ <;> first | exact ih h | exact some_of_append h | exact hfallback h

/-- What is left behind a fraction: something of it was taken, if there was no point before. -/
theorem suffix_of_afterFraction? {pointed : Bool} (h : afterFraction? pointed x = some behind) :
    behind <:+ x ∧ (pointed = false → behind <:+ x.tail) := by
  induction x generalizing pointed with
  | nil => cases pointed <;> cases h; simp
  | cons c more ih =>
    have hmore : ∀ {pointed}, afterFraction? pointed more = some behind → behind <:+ more :=
      fun h => (ih h).1
    have hcons : behind <:+ more → behind <:+ c :: more := (·.trans (List.suffix_cons ..))
    have hexponent : ∀ {fallback}, afterExponent? fallback false false more = some behind →
        fallback = some behind ∨ behind <:+ more := by
      intro fallback h
      rcases suffix_of_afterExponent? h with ⟨hvalued, -⟩ | ⟨-, hback | htail⟩
      · cases hvalued
      · exact .inl hback
      · exact .inr (htail.trans (List.tail_suffix _))
    rw [afterFraction?] at h
    split_ifs at h <;> grind

theorem afterFraction?_alone {pointed : Bool}
    (h : afterFraction? pointed (x ++ rest) = some (behind ++ rest)) :
    afterFraction? pointed x = some behind := by
  induction x generalizing pointed with
  | nil =>
    obtain rfl := eq_nil_of_append_suffix (suffix_of_afterFraction? h).1
    cases pointed with
    | true => rfl
    | false =>
      -- There must be a point or an exponent, and there is nothing left.
      have htail := (suffix_of_afterFraction? h).2 rfl
      cases rest with
      | nil => cases h
      | cons c rest => exact (not_append_suffix htail).elim
  | cons c more ih =>
    rw [List.cons_append, afterFraction?] at h
    rw [afterFraction?]
    by_cases hdigit : c.isDigit = true ∨ c = '_'
    · rw [if_pos hdigit] at h ⊢
      exact ih h
    rw [if_neg hdigit] at h ⊢
    by_cases hpoint : c = '.'
    · rw [if_pos hpoint] at h ⊢
      split at h
      · next hpointed =>
        rw [if_pos hpointed]
        exact some_of_append h
      next hpointed =>
      split at h
      · cases h
      · next hnext =>
        have hahead : ¬ more.head?.any (fun d => d == '.' || isIdentifierStart d) = true := by
          cases more with
          | nil => simp
          | cons d more => exact hnext
        rw [if_neg hpointed, if_neg hahead]
        exact ih h
    rw [if_neg hpoint] at h ⊢
    split at h
    · next hexponent =>
      rw [if_pos hexponent]
      refine afterExponent?_alone (Eq.trans ?_ h)
      split <;> rfl
    · next hexponent =>
      rw [if_neg hexponent]
      split at h
      · next hpointed =>
        rw [if_pos hpointed]
        exact some_of_append h
      · cases h

theorem isLocal_afterFraction? (pointed : Bool) : IsLocal (afterFraction? pointed) :=
  ⟨fun h => (suffix_of_afterFraction? h).1, afterFraction?_alone⟩

theorem isLocal_afterFloat? : IsLocal afterFloat? :=
  .cons _ rfl (fun _ _ => rfl) fun _ =>
    .ite ((isLocal_afterFraction? false).bind isLocal_endOfNumber?) .none

/-- The characters behind a zero that tell the base of a number. -/
def radixMarks : List Char := ['x', 'o', 'b']

theorem afterWhole?_decimal (h : ∀ c ∈ radixMarks, ¬ ['0', c] <+: x) :
    afterWhole? x = (afterDigits? 10 true x).bind endOfNumber? := by
  unfold afterWhole?
  split
  · next digits => exact absurd ⟨digits, rfl⟩ (h 'x' (by decide))
  · next digits => exact absurd ⟨digits, rfl⟩ (h 'o' (by decide))
  · next digits => exact absurd ⟨digits, rfl⟩ (h 'b' (by decide))
  · rfl

theorem exists_radix (hc : c ∈ radixMarks) : ∃ base, ∀ digits,
    afterWhole? ('0' :: c :: digits) = (afterDigits? base true digits).bind endOfNumber? := by
  simp only [radixMarks, List.mem_cons, List.not_mem_nil, or_false] at hc
  rcases hc with rfl | rfl | rfl
  · exact ⟨16, fun _ => rfl⟩
  · exact ⟨8, fun _ => rfl⟩
  · exact ⟨2, fun _ => rfl⟩

theorem isLocal_afterWhole? : IsLocal afterWhole? := by
  have hdigits : ∀ base, IsLocal fun x => (afterDigits? base true x).bind endOfNumber? :=
    fun base => (isLocal_afterDigits? base true).bind isLocal_endOfNumber?
  refine ⟨fun {x behind} h => ?_, fun {x behind rest} h => ?_⟩
  · by_cases hradix : ∃ c ∈ radixMarks, ['0', c] <+: x
    · obtain ⟨c, hc, digits, rfl⟩ := hradix
      obtain ⟨base, hbase⟩ := exists_radix hc
      exact ((hdigits base).suffix ((hbase digits).symm.trans h)).trans (List.suffix_append ..)
    · simp only [not_exists, not_and] at hradix
      exact (hdigits 10).suffix ((afterWhole?_decimal hradix).symm.trans h)
  · by_cases hradix : ∃ c ∈ radixMarks, ['0', c] <+: x ++ rest
    · obtain ⟨c, hc, digits, hdigits' : '0' :: c :: digits = x ++ rest⟩ := hradix
      obtain ⟨base, hbase⟩ := exists_radix hc
      rw [← hdigits', hbase] at h
      rcases x with - | ⟨zero, - | ⟨c', x⟩⟩
      · obtain rfl := hdigits'
        exact (not_append_suffix (((hdigits base).suffix h).trans (List.suffix_cons ..))).elim
      · obtain ⟨-, rfl⟩ := List.cons.inj hdigits'
        exact (not_append_suffix ((hdigits base).suffix h)).elim
      · obtain ⟨rfl, rfl, rfl⟩ : '0' = zero ∧ c = c' ∧ digits = x ++ rest := by
          simpa using hdigits'
        rw [hbase]
        exact (hdigits base).alone h
    · simp only [not_exists, not_and] at hradix
      rw [afterWhole?_decimal hradix] at h
      rw [afterWhole?_decimal fun c hc hx => hradix c hc (hx.trans (List.prefix_append ..))]
      exact (hdigits 10).alone h

/-! ### Strings -/

/-- Where the reader of a quoted text stands after a character; nowhere, when that ends the text. -/
def quotedStep (kind : StringKind) (state : QuoteState) (c : Char) : Option (Option QuoteState) :=
  (state.step kind c).map fun
    | .close => none
    | .next _ state' => some state'

theorem isLocal_readQuoted (state : QuoteState) :
    IsLocal fun x => (readQuoted kind state x).map Prod.snd := by
  refine IsLocal.of_step (f := fun state x => (readQuoted kind state x).map Prod.snd)
    (quotedStep kind) (fun _ => rfl) (fun state c more => ?_) state
  show (readQuoted kind state (c :: more)).map Prod.snd = _
  rw [readQuoted, quotedStep]
  cases state.step kind c with
  | none => rfl
  | some next =>
    cases next with
    | close => rfl
    | next found state' =>
      rw [Option.map_some, Option.bind_some, Option.elim_some]
      dsimp only
      cases readQuoted kind state' more <;> rfl

/-- Where the reader of an escape stands after a character; nowhere, when that ends the escape. -/
def escapeStep (kind : StringKind) (state : QuoteState) (c : Char) : Option (Option QuoteState) :=
  match state.step kind c with
  | some (.next (some _) _) => some none
  | some (.next none .continuation) => none
  | some (.next none .continuationReturn) => none
  | some (.next none state') => some (some state')
  | _ => none

theorem isLocal_readEscape (state : QuoteState) : IsLocal (readEscape kind state) := by
  refine IsLocal.of_step (escapeStep kind) (fun _ => rfl) (fun state c more => ?_) state
  rw [readEscape, escapeStep]
  rcases state.step kind c with - | (- | ⟨- | found, state'⟩)
  · rfl
  · rfl
  · cases state' <;> rfl
  · rfl

theorem suffix_of_openRaw {count hashes : Nat} (h : openRaw count x = some (hashes, behind)) :
    behind <:+ x.tail := by
  induction x generalizing count with
  | nil => cases h
  | cons c more ih =>
    unfold openRaw at h
    split at h
    · next heq =>
      cases heq
      exact (ih h).trans (List.tail_suffix _)
    · next heq =>
      cases heq
      split at h
      · cases h
        exact List.suffix_rfl
      · cases h
    · cases h

theorem openRaw_alone {count hashes : Nat}
    (h : openRaw count (x ++ rest) = some (hashes, behind ++ rest)) :
    openRaw count x = some (hashes, behind) := by
  induction x generalizing count with
  | nil =>
    cases rest with
    | nil => cases h
    | cons c rest => exact (not_append_suffix (suffix_of_openRaw h)).elim
  | cons c more ih =>
    rw [List.cons_append] at h
    unfold openRaw at h
    split at h
    · next heq =>
      cases heq
      exact ih h
    · next heq =>
      cases heq
      split at h
      · next hcount =>
        obtain ⟨rfl, hmore⟩ := Prod.mk.inj (Option.some.inj h)
        rw [openRaw, if_pos hcount, List.append_cancel_right hmore]
      · cases h
    · cases h

theorem suffix_of_readRaw {hashes : Nat} {text : List Char}
    (h : readRaw kind hashes x = some (text, behind)) : behind <:+ x.tail := by
  induction x generalizing text with
  | nil => cases h
  | cons c more ih =>
    rw [readRaw] at h
    split_ifs at h
    · cases h
      exact List.drop_suffix ..
    · obtain ⟨⟨text', behind'⟩, hmore, heq⟩ := Option.map_eq_some_iff.1 h
      cases heq
      exact (ih hmore).trans (List.tail_suffix _)

theorem startsWithHashes_append {hashes : Nat} (h : hashes ≤ x.length) (rest : List Char) :
    startsWithHashes hashes (x ++ rest) = startsWithHashes hashes x := by
  induction hashes generalizing x with
  | zero => rfl
  | succ hashes ih =>
    cases x with
    | nil => cases h
    | cons c more =>
      rw [List.cons_append, startsWithHashes, startsWithHashes, ih (Nat.le_of_succ_le_succ h)]

theorem readRaw_alone {hashes : Nat} {text : List Char}
    (h : readRaw kind hashes (x ++ rest) = some (text, behind ++ rest)) :
    readRaw kind hashes x = some (text, behind) := by
  induction x generalizing text with
  | nil =>
    cases rest with
    | nil => cases h
    | cons c rest => exact (not_append_suffix (suffix_of_readRaw h)).elim
  | cons c more ih =>
    rw [List.cons_append, readRaw] at h
    rw [readRaw]
    split at h
    · next hclose =>
      -- The hashes that close the text stand in front of what is left over.
      obtain ⟨rfl, hdrop⟩ := Prod.mk.inj (Option.some.inj h)
      have hlength : hashes ≤ more.length := by
        have hle := le_length_of_startsWithHashes hclose.2
        have heq := congrArg List.length hdrop
        simp only [List.length_drop, List.length_append] at heq hle
        omega
      rw [List.drop_append_of_le_length hlength] at hdrop
      rw [startsWithHashes_append hlength] at hclose
      rw [if_pos hclose, List.append_cancel_right hdrop]
    next hclose =>
    have hopen : ¬ (c = '\x22' ∧ startsWithHashes hashes more = true) := by
      rintro ⟨hc, hhashes⟩
      refine hclose ⟨hc, ?_⟩
      rwa [startsWithHashes_append (le_length_of_startsWithHashes hhashes)]
    split at h
    · cases h
    next hreturn =>
    split at h
    · next hadmits =>
      obtain ⟨⟨text', behind'⟩, hmore, heq⟩ := Option.map_eq_some_iff.1 h
      cases heq
      have hne : more ≠ [] := by
        rintro rfl
        cases ih hmore
      obtain ⟨d, more, rfl⟩ := List.exists_cons_of_ne_nil hne
      have hpaired : ¬ (c = '\r' ∧ (d :: more).head? ≠ some '\n') := hreturn
      rw [if_neg hopen, if_neg hpaired, if_pos hadmits, ih hmore]
      rfl
    · cases h

theorem isLocal_afterString?_cons (c : Char) : IsLocal fun x => afterString? kind (c :: x) := by
  by_cases hquote : c = '\x22'
  · subst hquote
    have hinside : IsLocal fun x => ((readQuoted kind .plain x).map Prod.snd).bind fun left =>
        some (skipSuffix left) := (isLocal_readQuoted .plain).bind isLocal_skipSuffix
    have heq : (fun x => afterString? kind ('\x22' :: x)) = fun x =>
        ((readQuoted kind .plain x).map Prod.snd).bind fun left => some (skipSuffix left) := by
      funext x
      rw [afterString?]
      cases readQuoted kind .plain x <;> rfl
    rw [heq]
    exact hinside
  · have hnone : (fun x => afterString? kind (c :: x)) = fun _ => none :=
      funext fun x => afterString?_eq_none (by simpa using hquote)
    rw [hnone]
    exact .none

theorem isLocal_afterRawString? : IsLocal (afterRawString? kind) where
  suffix {x behind} h := by
    obtain ⟨⟨hashes, inside⟩, hopen, h⟩ := Option.bind_eq_some_iff.1 h
    obtain ⟨⟨text, left⟩, hread, h⟩ := Option.bind_eq_some_iff.1 h
    have hleft := (suffix_of_readRaw hread).trans (List.tail_suffix _)
    have hinside := (suffix_of_openRaw hopen).trans (List.tail_suffix _)
    exact ((isLocal_skipSuffix.suffix h).trans hleft).trans hinside
  alone {x behind rest} h := by
    obtain ⟨⟨hashes, inside⟩, hopen, h⟩ := Option.bind_eq_some_iff.1 h
    obtain ⟨⟨text, left⟩, hread, hskip⟩ := Option.bind_eq_some_iff.1 h
    obtain ⟨left, rfl⟩ := exists_eq_append (isLocal_skipSuffix.suffix hskip)
    have hleft := (suffix_of_readRaw hread).trans (List.tail_suffix _)
    obtain ⟨inside, rfl⟩ := exists_eq_append hleft
    rw [afterRawString?, openRaw_alone hopen]
    simp only [Option.bind_eq_bind, Option.bind_some, readRaw_alone hread]
    exact isLocal_skipSuffix.alone hskip

theorem isLocal_closing : IsLocal afterQuotedChar?.closing := by
  refine .cons (fun c x => if c = '\x27' then some (skipSuffix x) else none) rfl
    (fun c more => ?_) fun _ => .ite isLocal_skipSuffix .none
  unfold afterQuotedChar?.closing
  split <;> simp_all

theorem isLocal_afterQuotedChar? : IsLocal (afterQuotedChar? kind) := by
  refine .cons (fun c x => if c = '\x5c' then
      (readEscape kind .escape x).bind afterQuotedChar?.closing
    else if kind.admits c then afterQuotedChar?.closing x else none) rfl
    (fun c more => ?_)
    fun _ => .ite ((isLocal_readEscape .escape).bind isLocal_closing) (.ite isLocal_closing .none)
  unfold afterQuotedChar?
  split <;> simp_all

/-! ### Literals -/

/-- What the letters in front of a quotation mark lead to. -/
theorem afterLiteral?_of_start (hstart : isIdentifierStart c = true) (more : List Char) :
    afterLiteral? (c :: more) =
      if c = 'r' then afterRawString? .text more
      else if c = 'b' then
        match more with
        | 'r' :: inside => afterRawString? .bytes inside
        | '\x27' :: inside => afterQuotedChar? .bytes inside
        | inside => afterString? .bytes inside
      else if c = 'c' then
        match more with
        | 'r' :: inside => afterRawString? .zeroTerminated inside
        | inside => afterString? .zeroTerminated inside
      else none := by
  have horElse : ∀ a : Option (List Char), (a <|> none <|> none) = a := by
    rintro (_ | _) <;> rfl
  have hquote : afterString? .text (c :: more) = none :=
    afterString?_eq_none (by simpa using ne_of_isIdentifierStart hstart (by decide))
  have hapostrophe : c ≠ '\x27' := ne_of_isIdentifierStart hstart (by decide)
  unfold afterLiteral?
  rw [afterFloat?_eq_none hstart, afterWhole?_eq_none hstart, horElse]
  split <;> simp_all

theorem isLocal_bytes : IsLocal fun x => afterLiteral? ('b' :: x) := by
  have hcons : ∀ c more, afterLiteral? ('b' :: c :: more) =
      if c = 'r' then afterRawString? .bytes more
      else if c = '\x27' then afterQuotedChar? .bytes more
      else afterString? .bytes (c :: more) := by
    intro c more
    rw [afterLiteral?_of_start (by decide), if_neg (by decide), if_pos rfl]
    split <;> simp_all
  exact .cons _ rfl hcons fun c => .ite isLocal_afterRawString?
    (.ite isLocal_afterQuotedChar? (isLocal_afterString?_cons c))

theorem isLocal_zeroTerminated : IsLocal fun x => afterLiteral? ('c' :: x) := by
  have hcons : ∀ c more, afterLiteral? ('c' :: c :: more) =
      if c = 'r' then afterRawString? .zeroTerminated more
      else afterString? .zeroTerminated (c :: more) := by
    intro c more
    rw [afterLiteral?_of_start (by decide), if_neg (by decide), if_neg (by decide), if_pos rfl]
    split <;> simp_all
  exact .cons _ rfl hcons fun c => .ite isLocal_afterRawString? (isLocal_afterString?_cons c)

/-- Every literal but a number is read by a scanner that does not care for the rest. -/
theorem isLocal_afterLiteral?_cons (c : Char) :
    IsLocal (fun x => afterLiteral? (c :: x)) ∨
      ∀ x, afterLiteral? (c :: x) = (afterFloat? (c :: x) <|> afterWhole? (c :: x)) := by
  by_cases hstart : isIdentifierStart c = true
  · left
    by_cases hb : c = 'b'
    · exact hb ▸ isLocal_bytes
    by_cases hc : c = 'c'
    · exact hc ▸ isLocal_zeroTerminated
    have heq : (fun x => afterLiteral? (c :: x)) = fun x =>
        if c = 'r' then afterRawString? .text x else none :=
      funext fun x => by rw [afterLiteral?_of_start hstart, if_neg hb, if_neg hc]
    rw [heq]
    exact .ite isLocal_afterRawString? .none
  by_cases hquote : c = '\x22'
  · left
    subst hquote
    rw [funext afterLiteral?_quote]
    exact isLocal_afterString?_cons _
  by_cases hapostrophe : c = '\x27'
  · left
    subst hapostrophe
    rw [funext afterLiteral?_apostrophe]
    exact isLocal_afterQuotedChar?
  · exact .inr (afterLiteral?_number (Bool.not_eq_true _ ▸ hstart) hquote hapostrophe)

/-! ### Numbers again -/

theorem isIdentifierPart_of_afterDigits? {base : Nat} {empty : Bool}
    (h : afterDigits? base empty x = some behind) :
    ∀ d ∈ x, d ∈ behind ∨ isIdentifierPart d = true := by
  have hlow : isIdentifierPart '_' = true := by decide +kernel
  induction x generalizing empty with
  | nil => simp
  | cons c more ih =>
    have hhere : some (c :: more) = some behind →
        ∀ d ∈ c :: more, d ∈ behind ∨ isIdentifierPart d = true := by
      rintro ⟨⟩ d hd
      exact .inl hd
    have hcons : ∀ {empty}, isIdentifierPart c = true →
        afterDigits? base empty more = some behind →
        ∀ d ∈ c :: more, d ∈ behind ∨ isIdentifierPart d = true := fun hc h =>
      List.forall_mem_cons.2 ⟨.inr hc, ih h⟩
    rw [afterDigits?] at h
    split at h
    · next value hvalue =>
      split_ifs at h
      · exact hcons (isIdentifierPart_of_hexDigit? hvalue) h
      · exact hhere h
    · split_ifs at h with hc
      · exact hcons (hc ▸ hlow) h
      · exact hhere h

theorem isIdentifierPart_of_skipSuffix (h : skipSuffix x = []) :
    ∀ d ∈ x, isIdentifierPart d = true := by
  cases x with
  | nil => simp
  | cons c more =>
    rw [skipSuffix, afterIdentifier?] at h
    split at h
    · next hstart =>
      exact List.forall_mem_cons.2 ⟨isIdentifierPart_of_isIdentifierStart hstart,
        List.dropWhile_eq_nil_iff.1 h⟩
    · cases h

theorem isIdentifierPart_of_afterWhole? (h : afterWhole? x = some []) :
    ∀ d ∈ x, isIdentifierPart d = true := by
  have hdigits : ∀ base digits, (afterDigits? base true digits).bind endOfNumber? = some [] →
      ∀ d ∈ digits, isIdentifierPart d = true := by
    intro base digits h d hd
    obtain ⟨left, hleft, hend⟩ := Option.bind_eq_some_iff.1 h
    have hskip : skipSuffix left = [] := by
      unfold endOfNumber? at hend
      dsimp only at hend
      split at hend
      · cases hend
      · exact Option.some.inj hend
    rcases isIdentifierPart_of_afterDigits? hleft d hd with hmem | hpart
    · exact isIdentifierPart_of_skipSuffix hskip d hmem
    · exact hpart
  by_cases hradix : ∃ c ∈ radixMarks, ['0', c] <+: x
  · obtain ⟨c, hc, digits, rfl⟩ := hradix
    obtain ⟨base, hbase⟩ := exists_radix hc
    have hall : ∀ c ∈ '0' :: radixMarks, isIdentifierPart c = true :=
      List.all_iff_forall_prop.1 (by decide +kernel)
    exact List.forall_mem_cons.2 ⟨hall '0' (by simp), List.forall_mem_cons.2
      ⟨hall c (List.mem_cons_of_mem _ hc), hdigits base digits ((hbase digits).symm.trans h)⟩⟩
  · simp only [not_exists, not_and] at hradix
    exact hdigits 10 x ((afterWhole?_decimal hradix).symm.trans h)

/-- A text without a point, or anything else that ends identifiers, is a fraction to its end or
not at all. -/
theorem eq_nil_of_afterFloat? (hparts : ∀ d ∈ x, isIdentifierPart d = true)
    (h : afterFloat? x = some behind) : behind = [] := by
  have hsuffix := isLocal_afterFloat?.suffix h
  cases x with
  | nil => cases h
  | cons c more =>
    rw [afterFloat?] at h
    split at h
    · obtain ⟨left, -, hend⟩ := Option.bind_eq_some_iff.1 h
      unfold endOfNumber? at hend
      dsimp only at hend
      split at hend
      · cases hend
      · next hhead =>
        obtain rfl := Option.some.inj hend
        cases hskip : skipSuffix left with
        | nil => rfl
        | cons d behind =>
          rw [hskip] at hhead hsuffix
          exact absurd (hparts d (hsuffix.subset List.mem_cons_self)) hhead
    · cases h

theorem number_alone (h : (afterFloat? (x ++ rest) <|> afterWhole? (x ++ rest)) = some rest) :
    (afterFloat? x <|> afterWhole? x) = some [] := by
  cases hfloat : afterFloat? (x ++ rest) with
  | some left =>
    rw [hfloat] at h
    cases h
    rw [isLocal_afterFloat?.taken hfloat]
    rfl
  | none =>
    rw [hfloat] at h
    have hwhole := isLocal_afterWhole?.taken h
    cases hfloat' : afterFloat? x with
    | none => exact hwhole
    | some left =>
      rw [eq_nil_of_afterFloat? (isIdentifierPart_of_afterWhole? hwhole) hfloat']
      rfl

theorem suffix_of_afterLiteral? (h : afterLiteral? x = some behind) : behind <:+ x := by
  cases x with
  | nil => cases h
  | cons c more =>
    rcases isLocal_afterLiteral?_cons c with hlocal | hnumber
    · exact (hlocal.suffix h).trans (List.suffix_cons ..)
    · rw [hnumber] at h
      cases hfloat : afterFloat? (c :: more) with
      | some left =>
        rw [hfloat] at h
        exact isLocal_afterFloat?.suffix (hfloat.trans h)
      | none =>
        rw [hfloat] at h
        exact isLocal_afterWhole?.suffix h

/-- A literal that was read is a literal. -/
theorem afterLiteral?_alone (h : afterLiteral? (x ++ rest) = some rest) :
    afterLiteral? x = some [] := by
  cases x with
  | nil =>
    cases rest with
    | nil => cases h
    | cons c rest =>
      exfalso
      rcases isLocal_afterLiteral?_cons c with hlocal | hnumber
      · have hsuffix : [] ++ c :: rest <:+ rest := hlocal.suffix h
        exact not_append_suffix hsuffix
      · have hempty := number_alone (x := []) ((hnumber rest).symm.trans h)
        cases hempty
  | cons c more =>
    rcases isLocal_afterLiteral?_cons c with hlocal | hnumber
    · exact hlocal.taken h
    · rw [hnumber]
      exact number_alone ((hnumber (more ++ rest)).symm.trans h)

end Local

end Token

/-! ### Lifetimes -/

namespace Lexeme

open Token

variable {x rest : List Char}

/-- What begins no character in front of anything begins none alone. -/
theorem afterQuotedChar?_alone (h : afterQuotedChar? .text (x ++ rest) = none) :
    afterQuotedChar? .text x = none := by
  have hclosing : ∀ {text}, afterQuotedChar?.closing (text ++ rest) = none →
      afterQuotedChar?.closing text = none := by
    intro text htext
    unfold afterQuotedChar?.closing at htext ⊢
    split
    · cases htext
    · rfl
  cases x with
  | nil => rfl
  | cons c inside =>
    by_cases hslash : c = '\x5c'
    · subst hslash
      cases hescape : readEscape .text .escape inside with
      | none => rw [afterQuotedChar?, hescape]; rfl
      | some left =>
        rw [List.cons_append, afterQuotedChar?, readEscape_append hescape] at h
        rw [afterQuotedChar?, hescape]
        exact hclosing h
    · rw [List.cons_append, afterQuotedChar?_cons hslash] at h
      rw [afterQuotedChar?_cons hslash]
      exact hclosing h

/-- Whether an apostrophe in front of a string begins a lifetime is seen before its text. -/
theorem beginsLifetime_opening {opening : List Char} (hmem : opening ∈ stringOpenings)
    (more : List Char) : beginsLifetime (opening ++ more) = beginsLifetime opening := by
  have hstart : isIdentifierStart 'r' = true ∧ isIdentifierStart 'b' = true ∧
      isIdentifierStart 'c' = true ∧ isIdentifierStart '\x22' = false ∧
      isIdentifierStart '#' = false := by decide +kernel
  have hpart : isIdentifierPart 'r' = true ∧ isIdentifierPart '\x22' = false ∧
      isIdentifierPart '\x27' = false ∧ isIdentifierPart '#' = false := by decide +kernel
  simp only [stringOpenings, List.map_cons, List.map_nil, List.mem_cons, List.not_mem_nil,
    or_false] at hmem
  rcases hmem with rfl | rfl | rfl | rfl | rfl | rfl | rfl | rfl | rfl | rfl <;>
    simp [beginsLifetime, afterWord?, afterIdentifier?, hstart, hpart] <;> rfl

/-- What follows the apostrophe of a lifetime does so when nothing stands behind it. -/
theorem beginsLifetime_alone (h : beginsLifetime (x ++ rest) = true)
    (hx : afterPlainWord? (x ++ rest) = some rest ∨ afterLiteral? (x ++ rest) = some rest) :
    beginsLifetime x = true := by
  rcases hx with hword | hliteral
  · have hx := (isWord_iff.1 (isWord_of_afterPlainWord? hword)).2
    rw [beginsLifetime, hx]
    rfl
  · have halone := afterLiteral?_alone hliteral
    obtain ⟨behind, hbehind⟩ : ∃ behind, afterWord? (x ++ rest) = some behind := by
      cases hword : afterWord? (x ++ rest) with
      | none => rw [beginsLifetime, hword] at h; cases h
      | some behind => exact ⟨behind, rfl⟩
    cases x with
    | nil => cases halone
    | cons c more =>
      obtain ⟨c', more', heq, hstart⟩ := exists_start_of_afterWord? hbehind
      obtain ⟨rfl, rfl⟩ := List.cons.inj heq
      -- A literal that begins like a word has the beginning of a string.
      by_contra hlifetime
      refine Option.some_ne_none [] (halone.symm.trans (afterLiteral?_eq_none hstart ?_))
      rintro opening hmem ⟨inside, heq⟩
      rw [← heq, List.append_assoc, beginsLifetime_opening hmem] at h
      rw [← heq, beginsLifetime_opening hmem] at hlifetime
      exact hlifetime h

end Lexeme

end DescriptionLookup
