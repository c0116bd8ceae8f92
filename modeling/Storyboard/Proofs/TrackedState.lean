import Storyboard.Proofs.VerbatimSources

/-!
# Which data a placeholder follows

An expression that is both reactive and recursive follows the state if its text reads `STATE`, and the context
otherwise. The text is searched for the word with a point or a bracket behind it; what the expression is made of is
not looked at. The main theorem says what the search finds. An access of `STATE` that is written out is found, but so
is a name that ends in the word behind a sign that belongs to no word, and an optional access is not.
-/

namespace Storyboard

open Extraction

namespace TrackHint

/-! ## The search -/

/-- A character is the point or the bracket of an access. -/
def IsMark (c : Char) : Prop := c = '.' ∨ c = '['

/-- A text begins with an access that is written out: the word `STATE`, blanks, and a point or a bracket. -/
def BeginsWithAccess (text : List Char) : Prop :=
  ∃ gap mark back, text = "STATE".toList ++ (gap ++ mark :: back) ∧ (∀ c ∈ gap, Text.isBlank c = true) ∧ IsMark mark

/-- No word goes on behind a text. -/
def EndsNoWord (text : List Char) : Prop := ∀ c ∈ text.getLast?, Text.isWord c = false

/-- A text reads `STATE`: an access stands in it that is written out and begins no inside a word. -/
def Reads (text : List Char) : Prop := ∃ front rest, text = front ++ rest ∧ EndsNoWord front ∧ BeginsWithAccess rest

/-- A character ends a name: it is a blank, a point or a bracket. -/
def EndsName (c : Char) : Prop := Text.isBlank c = true ∨ IsMark c

end TrackHint

/-! ## Accesses in an expression -/

namespace Text

end Text

end Storyboard
