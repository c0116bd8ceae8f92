import Storyboard.Code.Literal
import Storyboard.Number.Shortest

/-!
# Written literals

How numbers and texts are written out. A number takes the shortest of a few spellings, a text stands in
double quotes with only those characters escaped that have to be.
-/

namespace Storyboard

namespace Printer

/-! ## Numbers -/

/-- Plain numbers have up to twenty-one digits before the point and up to six zeros after it. -/
def numberLayout : RealLayout := ⟨-6, 21, false, false⟩

/-- The shorter of two spellings, the first when they are equally long. -/
def shorter (first second : List Char) : List Char :=
  if second.length < first.length then second else first

/-- The digits of a natural number. -/
def decimalDigits (n : Nat) : List Char := Nat.toDigits 10 n

/-- A small fraction written with an exponent. -/
def smallFraction (text : List Char) : List Char :=
  match text with
  | '.' :: '0' :: rest =>
    let digits := rest.dropWhile (· == '0')
    let zeros := rest.length - digits.length
    if digits.isEmpty then text
    else shorter text (digits ++ ['e', '-'] ++ decimalDigits (digits.length + zeros + 1))
  | _ => text

/-- Zeros at the end written as an exponent. -/
def trailingZeros (text : List Char) : List Char :=
  let base := (text.reverse.dropWhile (· == '0')).reverse
  let zeros := text.length - base.length
  if zeros == 0 || base.isEmpty then text else shorter text (base ++ 'e' :: decimalDigits zeros)

/-- The natural number that digits write. -/
def digitsValue (digits : List Char) : Nat := digits.foldl (fun acc c => acc * 10 + (c.toNat - 48)) 0

/-- An exponent with its sign. -/
def exponentValue : List Char → Int
  | '-' :: digits => -(digitsValue digits : Int)
  | digits => digitsValue digits

/-- The digits of an integer with its sign. -/
def integerDigits (n : Int) : List Char :=
  if n < 0 then '-' :: decimalDigits n.natAbs else decimalDigits n.natAbs

/-- A number with a point and an exponent written without the point. -/
def withoutPoint (text : List Char) : List Char :=
  let whole := text.takeWhile (· != '.')
  let after := text.drop (whole.length + 1)
  let fraction := after.takeWhile (· != 'e')
  let power := after.drop (fraction.length + 1)
  if after.isEmpty || power.isEmpty then text
  else shorter text (whole ++ fraction ++ 'e' :: integerDigits (exponentValue power - fraction.length))

/-- The hexadecimal spelling of a natural number. -/
def hexadecimal (n : Nat) : List Char := '0' :: 'x' :: Nat.toDigits 16 n

/-- The spelling of a number of any size. -/
def spellNumber (value : Binary64) : List Char :=
  let plain := match (value.layOut numberLayout).toList with
    | '0' :: '.' :: rest => '.' :: rest
    | text => text
  match value.toNat? with
  | some n =>
    let hex := hexadecimal n
    if hex.length < plain.length then hex else withoutPoint (trailingZeros plain)
  | none => withoutPoint (trailingZeros (smallFraction plain))

/-- A number that is not negative. -/
def number (value : Binary64) : String :=
  if !value.isFinite then "Infinity"
  else
    match value.toNat? with
    | some n => if n < 1000 then toString n else String.ofList (spellNumber value)
    | none => String.ofList (spellNumber value)

/-- Whether a point after a number would be read as part of it. -/
def needsSpaceBeforePoint (value : Binary64) : Bool :=
  (number value).toList.all Char.isDigit

/-! ## Texts -/

/-- The character with a given code. -/
def isCode (code : Nat) (c : Char) : Bool := c.toNat == code

/-- Whether a text begins with the end of a script element, after its first character. -/
def endsScript (rest : List Char) : Bool :=
  "/script".toList.isPrefixOf ((rest.take 7).map Char.toLower)

/-- Characters in which no script element ends. -/
def guardScript : List Char → List Char
  | [] => []
  | c :: rest => if c == '<' && endsScript rest then '<' :: '\\' :: guardScript rest else c :: guardScript rest

/-- A text in which no script element ends. -/
def scriptGuarded (text : String) : String := String.ofList (guardScript text.toList)

/-- A text with its characters in ascending order. -/
def sorted (text : String) : String := String.ofList (text.toList.mergeSort (· ≤ ·))

/-- The lines of a text, the characters of the first one so far given. -/
def splitLines : List Char → List Char → List (List Char)
  | [], line => [line.reverse]
  | '\r' :: '\n' :: rest, line => line.reverse :: splitLines rest []
  | c :: rest, line =>
    if Literal.isLineEnd c then line.reverse :: splitLines rest [] else splitLines rest (c :: line)

/-- A character of a text with what follows it. -/
def escapeChar (c : Char) (rest : List Char) : List Char :=
  if c == '"' then ['\\', '"']
  else if c == '\\' then ['\\', '\\']
  else if c == '\n' then ['\\', 'n']
  else if c == '\r' then ['\\', 'r']
  else if isCode 0 c then
    if (rest.head?.map Char.isDigit).getD false then "\\x00".toList else "\\0".toList
  else if isCode 7 c then "\\x07".toList
  else if isCode 8 c then "\\b".toList
  else if isCode 11 c then "\\v".toList
  else if isCode 12 c then "\\f".toList
  else if isCode 27 c then "\\x1B".toList
  else if isCode 0xA0 c then "\\xA0".toList
  else if isCode 0x2028 c then "\\u2028".toList
  else if isCode 0x2029 c then "\\u2029".toList
  else if c == '<' && endsScript rest then "<\\".toList
  else [c]

/-- The characters of a text between its quotes. In a text that holds halves of pairs, U+FFFD stands before
the four digits of a half. -/
def escapeText (hasLoneHalves : Bool) : List Char → List Char
  | [] => []
  | '\uFFFD' :: w :: x :: y :: z :: rest =>
    if hasLoneHalves then
      (if [w, x, y, z] == "fffd".toList then ['\uFFFD'] else ['\\', 'u', w, x, y, z]) ++
        escapeText hasLoneHalves rest
    else '\uFFFD' :: escapeText hasLoneHalves (w :: x :: y :: z :: rest)
  | c :: rest => escapeChar c rest ++ escapeText hasLoneHalves rest

/-- A text in double quotes. -/
def text (value : String) (hasLoneHalves : Bool) : String :=
  String.ofList ('"' :: (escapeText hasLoneHalves value.toList ++ ['"']))

/-- The quotation mark for a directive, whose characters are written as they are: the one that does not
come first among them. -/
def directiveQuote : List Char → Char
  | [] => '"'
  | '\\' :: _ :: rest => directiveQuote rest
  | c :: rest =>
    if c == '"' then Char.ofNat 39
    else if c == Char.ofNat 39 then '"'
    else directiveQuote rest

/-- A directive. -/
def directive (raw : String) : String :=
  let quote := String.singleton (directiveQuote raw.toList)
  quote ++ raw ++ quote

end Printer

end Storyboard
