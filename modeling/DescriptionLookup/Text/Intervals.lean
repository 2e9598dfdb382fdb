/-!
# Intervals of code points

Character properties are tables of half-open intervals of code points. A table is in ascending
order, so a search stops at the first interval that begins beyond the code point sought.
-/

namespace DescriptionLookup.Text

/-- Half-open intervals of code points, ascending and disjoint. -/
abbrev Intervals := List (Nat × Nat)

/-- Whether one of the intervals holds the code point. -/
def Intervals.holds : Intervals → Nat → Bool
  | [], _ => false
  | (first, stop) :: rest, n => first ≤ n && (n < stop || Intervals.holds rest n)

@[simp] theorem Intervals.holds_nil (n : Nat) : Intervals.holds [] n = false := rfl

@[simp] theorem Intervals.holds_cons (first stop : Nat) (rest : Intervals) (n : Nat) :
    Intervals.holds ((first, stop) :: rest) n =
      (first ≤ n && (n < stop || Intervals.holds rest n)) := rfl

end DescriptionLookup.Text
