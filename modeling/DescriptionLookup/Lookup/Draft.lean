/-!
# Drafts

A text that is being written at its end: pieces of text, line breaks, and whole lines at a level of
indentation. A line without text is not indented.
-/

namespace DescriptionLookup

/-- A line: its level of indentation, and its text. -/
structure Line where
  level : Nat
  text : String
deriving DecidableEq

/-- A text that is being written. -/
structure Draft where
  written : String
deriving DecidableEq

namespace Draft

/-- Nothing is written yet. -/
def empty : Draft := ⟨""⟩

/-- Write a piece of text. -/
def emit (draft : Draft) (text : String) : Draft := ⟨draft.written ++ text⟩

/-- Break the line. -/
def breakLine (draft : Draft) : Draft := draft.emit "\n"

/-- The blanks at the start of a line of this level, four for each. -/
def indentation (level : Nat) : String := String.ofList (List.replicate (4 * level) ' ')

/-- Indent to a level. -/
def indent (draft : Draft) (level : Nat) : Draft := draft.emit (indentation level)

/-- Write a line. -/
def line (draft : Draft) (l : Line) : Draft :=
  if l.text.isEmpty then draft.breakLine
  else ((draft.indent l.level).emit l.text).breakLine

/-- Write lines. -/
def lines (draft : Draft) (ls : List Line) : Draft := ls.foldl line draft

/-- The text of lines. -/
def textOf (ls : List Line) : String := (empty.lines ls).written

@[simp] theorem lines_nil (draft : Draft) : draft.lines [] = draft := rfl

@[simp] theorem lines_append (draft : Draft) (xs ys : List Line) :
    draft.lines (xs ++ ys) = (draft.lines xs).lines ys := by
  simp [lines]

end Draft

end DescriptionLookup
