import DescriptionLookup.Text.StringLiteral
import Mathlib.Data.Nat.Digits.Defs

/-!
# String literals round trip

A text that is written as a string literal reads back as the text, whatever characters it has and
whatever follows the literal: `readQuoted_escapeAll`. Each character is read from its own written
form, and the reader is between two characters again behind it. The only one whose form depends on
what comes next is zero; both its forms read alike.
-/

namespace DescriptionLookup.Text

/-! ### Steps of the reader -/

theorem readQuoted_next {kind : StringKind} {state state' : QuoteState} {c : Char}
    {found : Option Char} (h : state.step kind c = some (.next found state')) (rest : List Char) :
    readQuoted kind state (c :: rest) =
      (readQuoted kind state' rest).map fun (text, behind) => (found.toList ++ text, behind) := by
  rw [readQuoted, h]
  dsimp only
  cases readQuoted kind state' rest <;> rfl

theorem readQuoted_silent {kind : StringKind} {state state' : QuoteState} {c : Char}
    (h : state.step kind c = some (.next none state')) (rest : List Char) :
    readQuoted kind state (c :: rest) = readQuoted kind state' rest := by
  rw [readQuoted_next h]
  cases readQuoted kind state' rest <;> rfl

/-! ### Code points -/

theorem hexDigit?_digitChar {d : Nat} (h : d < 16) : hexDigit? d.digitChar = some d := by
  have hall : ∀ d < 16, hexDigit? (Nat.digitChar d) = some d := by decide
  exact hall d h

theorem step_codePoint {d digits : Nat} (hd : d < 16) (hdigits : digits ≠ 6) (value : Nat) :
    (QuoteState.codePoint digits value).step .text d.digitChar =
      some (.next none (.codePoint (digits + 1) (value * 16 + d))) := by
  simp only [QuoteState.step, stepCodePoint, hexDigit?_digitChar hd, if_neg hdigits]

/-- The digits of a number are read as the number. -/
theorem readQuoted_hexDigits (n : Nat) (h : (hexDigits n).length ≤ 6) (rest : List Char) :
    readQuoted .text (.codePoint 0 0) (hexDigits n ++ rest) =
      readQuoted .text (.codePoint (hexDigits n).length n) rest := by
  induction n using Nat.strong_induction_on generalizing rest with
  | _ n ih =>
    by_cases hn : n < 16
    · rw [hexDigits, Nat.toDigits_of_lt_base hn, List.singleton_append,
        readQuoted_silent (step_codePoint hn (by decide) 0), List.length_singleton, Nat.zero_mul,
        Nat.zero_add, Nat.zero_add]
    · have hsplit : hexDigits n = hexDigits (n / 16) ++ [Nat.digitChar (n % 16)] :=
        Nat.toDigits_of_base_le (by decide) (by omega)
      have hlength : (hexDigits n).length = (hexDigits (n / 16)).length + 1 := by
        rw [hsplit, List.length_append, List.length_singleton]
      have hstep := step_codePoint (Nat.mod_lt n (by decide : 0 < 16))
        (by omega : (hexDigits (n / 16)).length ≠ 6) (n / 16)
      rw [hlength, hsplit, List.append_assoc, ih (n / 16) (by omega) (by omega),
        List.singleton_append, readQuoted_silent hstep, Nat.div_add_mod']

theorem length_hexDigits_le (c : Char) : (hexDigits c.toNat).length ≤ 6 := by
  refine Nat.toDigits_length 16 c.toNat 6 (by decide) ?_
  rcases c.valid with h | ⟨-, h⟩
  · exact lt_trans h (by decide)
  · exact lt_trans h (by decide)

theorem scalar?_toNat (c : Char) : scalar? c.toNat = some c := by
  have hvalid : c.toNat.isValidChar := c.valid
  rw [scalar?, if_pos hvalid, Char.ofNat_toNat]

theorem readQuoted_codePoint (c : Char) (rest : List Char) :
    readQuoted .text .plain ('\x5c' :: 'u' :: '\x7b' :: (hexDigits c.toNat ++ '\x7d' :: rest)) =
      (readQuoted .text .plain rest).map fun (text, behind) => (c :: text, behind) := by
  have hclose : (QuoteState.codePoint (hexDigits c.toNat).length c.toNat).step .text '\x7d' =
      some (.next (some c) .plain) := by
    have hdigits : (hexDigits c.toNat).length ≠ 0 :=
      List.length_pos_iff.2 (Nat.toDigits_ne_nil) |>.ne'
    simp only [QuoteState.step, stepCodePoint]
    rw [show hexDigit? '\x7d' = none by decide]
    simp only [if_neg hdigits, scalar?_toNat]
    rfl
  rw [readQuoted_silent rfl, readQuoted_silent rfl, readQuoted_silent rfl,
    readQuoted_hexDigits _ (length_hexDigits_le c), readQuoted_next hclose]
  rfl

/-! ### Texts -/

/-- An escape of one character is read as what it stands for. -/
theorem readQuoted_short {c mark : Char}
    (h : stepEscape .text mark = some (.next (some c) .plain)) (rest : List Char) :
    readQuoted .text .plain ('\x5c' :: mark :: rest) =
      (readQuoted .text .plain rest).map fun (text, behind) => (c :: text, behind) := by
  have hmark : QuoteState.escape.step .text mark = some (.next (some c) .plain) := h
  rw [readQuoted_silent rfl, readQuoted_next hmark]
  rfl

/-- A character is read from its written form, whatever that is. -/
theorem readQuoted_escape (c : Char) (next : Option Char) (rest : List Char) :
    readQuoted .text .plain (escape c next ++ rest) =
      (readQuoted .text .plain rest).map fun (text, behind) => (c :: text, behind) := by
  unfold escape
  split
  · next hzero =>
    subst hzero
    split
    · simp only [List.cons_append, List.nil_append]
      rw [readQuoted_silent rfl, readQuoted_silent rfl, readQuoted_silent rfl, readQuoted_next rfl]
      rfl
    · exact readQuoted_short rfl rest
  split
  · next h => subst h; exact readQuoted_short rfl rest
  split
  · next h => subst h; exact readQuoted_short rfl rest
  split
  · next h => subst h; exact readQuoted_short rfl rest
  split
  · next h => subst h; exact readQuoted_short rfl rest
  split
  · next h => subst h; exact readQuoted_short rfl rest
  split
  · simpa using readQuoted_codePoint c rest
  · next hreturn _ hquote hslash _ =>
    have hplain : QuoteState.plain.step .text c = some (.next (some c) .plain) := by
      simp [QuoteState.step, stepPlain, hreturn, hquote, hslash, StringKind.admits]
    exact readQuoted_next hplain rest

/-- A text is read back from its written form; `rest` is what follows the literal. -/
theorem readQuoted_escapeAll (text rest : List Char) :
    readQuoted .text .plain (escapeAll text ++ '\x22' :: rest) = some (text, rest) := by
  induction text with
  | nil => rfl
  | cons c more ih =>
    rw [escapeAll_cons, List.append_assoc, readQuoted_escape, ih]
    rfl

end DescriptionLookup.Text
