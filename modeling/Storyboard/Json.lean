import Storyboard.Fields
import Storyboard.Number.Shortest

/-!
# JSON values

Values with ordered objects and a distinction between whole numbers and doubles, and their text:
compact on one line, or spread over lines with two blanks per level.
-/

namespace Storyboard

/-- A number is whole, or a double when it was written with a fraction, an exponent or too many
digits. -/
inductive Json.Number where
  | whole (value : Int)
  | real (value : Binary64)
deriving DecidableEq, Repr, Inhabited

/-- A JSON value; an object holds its fields in order. -/
inductive Json where
  | null
  | bool (value : Bool)
  | number (value : Json.Number)
  | string (text : String)
  | array (items : List Json)
  | object (fields : List (String × Json))
deriving Inhabited

namespace Json

/-- The text of a string value. -/
def asString? : Json → Option String
  | .string text => some text
  | _ => none

/-- The value of a field of an object. -/
def field? : Json → String → Option Json
  | .object fields, key => Fields.get? fields key
  | _, _ => none

/-- A natural number as a value. -/
def ofNat (n : Nat) : Json := .number (.whole n)

/-- An optional value, null when absent. -/
def ofOption (value? : Option Json) : Json := value?.getD .null

namespace Number

/-- Whether the number is a zero of any spelling. -/
def isZero : Number → Bool
  | .whole value => value == 0
  | .real value => value.isZero

/-- Doubles are positional from `0.00001` up to sixteen digits before the point. -/
def layout : RealLayout := ⟨-5, 16, true, true⟩

/-- The text of a number. -/
def render : Number → String
  | .whole value => toString value
  | .real value => value.layOut layout

end Number

/-- A lowercase hexadecimal digit. -/
def hexDigit (n : Nat) : Char := Nat.digitChar (n % 16)

/-- A character inside a quoted text: quotes, backslashes and control characters are escaped. -/
def escapeChar (c : Char) : List Char :=
  if c == '"' then ['\\', '"']
  else if c == '\\' then ['\\', '\\']
  else if c == '\n' then ['\\', 'n']
  else if c == '\r' then ['\\', 'r']
  else if c == '\t' then ['\\', 't']
  else if c.toNat == 8 then ['\\', 'b']
  else if c.toNat == 12 then ['\\', 'f']
  else if c.toNat < 32 then ['\\', 'u', '0', '0', hexDigit (c.toNat / 16), hexDigit c.toNat]
  else [c]

/-- A text between double quotes, as a list of characters. -/
def quoteChars (text : List Char) : List Char := '"' :: (text.flatMap escapeChar ++ ['"'])

/-- A text between double quotes. -/
def quote (text : String) : String := String.ofList (quoteChars text.toList)

/-- Items between brackets, separated by commas. -/
def bracketed (opening closing : String) (items : List String) : String :=
  opening ++ String.intercalate "," items ++ closing

mutual

/-- The text of a value on one line, without blanks. -/
def render : Json → String
  | .null => "null"
  | .bool value => if value then "true" else "false"
  | .number value => value.render
  | .string text => quote text
  | .array items => bracketed "[" "]" (renderItems items)
  | .object fields => bracketed "\x7b" "\x7d" (renderFields fields)

/-- The texts of the items of an array. -/
def renderItems : List Json → List String
  | [] => []
  | item :: rest => render item :: renderItems rest

/-- The texts of the fields of an object. -/
def renderFields : List (String × Json) → List String
  | [] => []
  | (name, value) :: rest => (quote name ++ ":" ++ render value) :: renderFields rest

end

/-- A line break followed by two blanks per level. -/
def lineBreak (level : Nat) : String := "\n" ++ "".pushn ' ' (2 * level)

/-- Items on lines of their own, one level deeper than their brackets. -/
def spread (level : Nat) (opening closing : String) (items : List String) : String :=
  if items.isEmpty then opening ++ closing
  else
    let inner := lineBreak (level + 1)
    opening ++ inner ++ String.intercalate ("," ++ inner) items ++ lineBreak level ++ closing

mutual

/-- The text of a value over several lines, standing at the given level. -/
def renderPretty : Nat → Json → String
  | _, .null => "null"
  | _, .bool value => if value then "true" else "false"
  | _, .number value => value.render
  | _, .string text => quote text
  | level, .array items => spread level "[" "]" (renderPrettyItems (level + 1) items)
  | level, .object fields => spread level "\x7b" "\x7d" (renderPrettyFields (level + 1) fields)

/-- The texts of the items of a spread array. -/
def renderPrettyItems : Nat → List Json → List String
  | _, [] => []
  | level, item :: rest => renderPretty level item :: renderPrettyItems level rest

/-- The texts of the fields of a spread object. -/
def renderPrettyFields : Nat → List (String × Json) → List String
  | _, [] => []
  | level, (name, value) :: rest =>
    (quote name ++ ": " ++ renderPretty level value) :: renderPrettyFields level rest

end

mutual

/-- A value in which every object holds each name once, at its first place and with its last value. -/
def normalize : Json → Json
  | .array items => .array (normalizeItems items)
  | .object fields => .object (Fields.ofEntries (normalizeFields fields))
  | value => value

/-- Normalize the items of an array. -/
def normalizeItems : List Json → List Json
  | [] => []
  | item :: rest => normalize item :: normalizeItems rest

/-- Normalize the values of an object's entries. -/
def normalizeFields : List (String × Json) → List (String × Json)
  | [] => []
  | (name, value) :: rest => (name, normalize value) :: normalizeFields rest

end

end Json

end Storyboard
