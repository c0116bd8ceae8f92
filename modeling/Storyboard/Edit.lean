import Storyboard.Text.Offset

/-!
# Edits

An edit puts a text in the place of a range of bytes. Edits are applied one at a time, the last range
first, each to the text as it stands at that moment. The application fails when a range is reversed,
leaves the text, or cuts a character.
-/

namespace Storyboard

/-- Put `text` in the place of the bytes from `start` to `stop`. -/
structure Edit where
  /-- Where the range begins. -/
  start : Nat
  /-- Where the range ends. -/
  stop : Nat
  /-- What is put there. -/
  text : String
deriving DecidableEq, Repr

namespace Edit

/-- An edit that only adds text. -/
def insertion (offset : Nat) (text : String) : Edit := ⟨offset, offset, text⟩

/-- Apply one edit to a text. -/
def perform? (text : List Char) (edit : Edit) : Option (List Char) := do
  if edit.stop < edit.start then none
  else
    let (before, rest) ← Text.splitAt? text edit.start
    let (_, after) ← Text.splitAt? rest (edit.stop - edit.start)
    return before ++ edit.text.toList ++ after

/-- The order of application: later ranges first, and of those that begin together the longer one. -/
def precedes (a b : Edit) : Bool :=
  decide (b.start < a.start) || (a.start == b.start && decide (b.stop ≤ a.stop))

/-- Apply all edits; of equal ranges the earlier in the list goes first. -/
def performAll? (source : List Char) (edits : List Edit) : Option (List Char) :=
  (edits.mergeSort precedes).foldlM perform? source

/-- Apply all edits to a text. -/
def splice? (source : String) (edits : List Edit) : Option String :=
  (performAll? source.toList edits).map String.ofList

end Edit

end Storyboard
