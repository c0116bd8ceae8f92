import Storyboard.Yaml.Scalar

/-!
# YAML documents

A JSON value in block style: one entry a line, two blanks per level, the items of a sequence at the
level of the key that holds them. A block is written without the margin of its first line, so that it
can begin on the line of a dash, a question mark or a colon.
-/

namespace Storyboard

namespace Yaml

/-- Doubles as in JSON text, but without the sign of a positive exponent. -/
def realLayout : RealLayout := ⟨-5, 16, true, false⟩

/-- A line break followed by a margin. -/
def newLine (margin : Nat) : String := "\n" ++ "".pushn ' ' margin

/-- The text of a number. -/
def renderNumber : Json.Number → String
  | .whole value => toString value
  | .real value => value.layOut realLayout

/-- Where the value of an entry stands. -/
inductive Place where
  /-- After a key on the same line. -/
  | afterKey
  /-- After a dash, a question mark or a colon that begins a line. -/
  | afterMark

mutual

/-- A value after its key or mark, which stand at the given margin. -/
def renderValue : Place → Nat → Json → String
  | _, _, .null => " null"
  | _, _, .bool value => if value then " true" else " false"
  | _, _, .number value => " " ++ renderNumber value
  | _, margin, .string text => " " ++ renderText (margin + 2) text
  | _, _, .array [] => " []"
  | _, _, .object [] => " \x7b\x7d"
  | .afterKey, margin, .array (item :: rest) =>
    newLine margin ++ String.intercalate (newLine margin) (renderItems margin (item :: rest))
  | .afterKey, margin, .object (entry :: rest) =>
    newLine (margin + 2) ++
      String.intercalate (newLine (margin + 2)) (renderEntries (margin + 2) (entry :: rest))
  | .afterMark, margin, .array (item :: rest) =>
    " " ++ String.intercalate (newLine (margin + 2)) (renderItems (margin + 2) (item :: rest))
  | .afterMark, margin, .object (entry :: rest) =>
    " " ++ String.intercalate (newLine (margin + 2)) (renderEntries (margin + 2) (entry :: rest))

/-- The items of a sequence at a margin. -/
def renderItems : Nat → List Json → List String
  | _, [] => []
  | margin, item :: rest => ("-" ++ renderValue .afterMark margin item) :: renderItems margin rest

/-- The entries of a mapping at a margin. -/
def renderEntries : Nat → List (String × Json) → List String
  | _, [] => []
  | margin, (key, value) :: rest =>
    let entry :=
      if isSimpleKey key then renderText (margin + 2) key ++ ":" ++ renderValue .afterKey margin value
      else
        "? " ++ renderText (margin + 2) key ++ newLine margin ++ ":" ++
          renderValue .afterMark margin value
    entry :: renderEntries margin rest

end

/-- The text of a document, ended by a line break. -/
def render : Json → String
  | .array (item :: rest) => String.intercalate "\n" (renderItems 0 (item :: rest)) ++ "\n"
  | .object (entry :: rest) => String.intercalate "\n" (renderEntries 0 (entry :: rest)) ++ "\n"
  | value => String.ofList ((renderValue .afterMark 0 value).toList.drop 1) ++ "\n"

end Yaml

end Storyboard
