import Storyboard.Number.Binary64
import Storyboard.Json.Reader

/-!
# Literals

How the characters of number, text and template literals are read. A text may hold one half of a pair
of code units without the other; such a half has no character of its own and is written as U+FFFD
followed by the four hexadecimal digits of the half.
-/

namespace Storyboard

namespace Literal

/-! ## Numbers -/

/-- The value of a digit in a base. -/
def digitValue? (base : Nat) (c : Char) : Option Nat :=
  match Json.hexValue? c with
  | some value => if value < base then some value else none
  | none => none

/-- A run of digits: the digits, their value, and how many characters they take. -/
structure Digits where
  /-- The digits, the last first. -/
  digits : List Nat := []
  /-- The number that the digits write. -/
  value : Nat := 0
  /-- How many characters they take, separators included. -/
  width : Nat := 0

namespace Digits

/-- Add a digit to a run. -/
def push (run : Digits) (base value width : Nat) : Digits :=
  ⟨value :: run.digits, run.value * base + value, run.width + width⟩

/-- How many digits there are. -/
def count (run : Digits) : Nat := run.digits.length

/-- How many digits of a base are read as one exact number. -/
def exactCount (base : Nat) : Nat :=
  if base == 16 then 16 else if base == 8 then 21 else if base == 2 then 64 else 19

/-- The double that a run of digits writes. A long run is rounded after each digit, so the result need not be
the nearest double. -/
def toDouble (run : Digits) (base : Nat) : Binary64 :=
  if run.count ≤ exactCount base then .ofNat run.value else .ofDigits base run.digits.reverse

end Digits

/-- Continue a run of digits; an underscore stands between two digits. -/
def moreDigits? (base : Nat) : List Char → Digits → Option (Digits × List Char)
  | '_' :: c :: rest, digits =>
    match digitValue? base c with
    | some value => moreDigits? base rest (digits.push base value 2)
    | none => none
  | c :: rest, digits =>
    match digitValue? base c with
    | some value => moreDigits? base rest (digits.push base value 1)
    | none => if c == '_' then none else some (digits, c :: rest)
  | [], digits => some (digits, [])

/-- A run of at least one digit. -/
def someDigits? (base : Nat) : List Char → Option (Digits × List Char)
  | [] => none
  | c :: rest =>
    match digitValue? base c with
    | some value => moreDigits? base rest (({} : Digits).push base value 1)
    | none => none

/-- What a number literal stands for. -/
inductive Numeral where
  | double (value : Binary64)
  | integer (value : Nat)

/-- A numeral, how many characters it takes, and the rest. -/
abbrev NumeralRead := Numeral × Nat × List Char

/-- An exponent with its sign, how many characters it takes, and the rest; a text without one has
exponent zero. -/
def exponent? : List Char → Option (Int × Nat × List Char)
  | c :: sign :: rest =>
    if c == 'e' || c == 'E' then
      if sign == '+' || sign == '-' then
        (someDigits? 10 rest).map fun (digits, rest) =>
          (if sign == '-' then -(digits.value : Int) else digits.value, digits.width + 2, rest)
      else
        (someDigits? 10 (sign :: rest)).map fun (digits, rest) => (digits.value, digits.width + 1, rest)
    else some (0, 0, c :: sign :: rest)
  | [c] => if c == 'e' || c == 'E' then none else some (0, 0, [c])
  | [] => some (0, 0, [])

/-- The digits after a decimal point, which may be missing. -/
def fraction? (text : List Char) : Option (Digits × List Char) :=
  match text with
  | c :: _ => if c.isDigit then someDigits? 10 text else some ({}, text)
  | [] => some ({}, [])

/-- The part of a decimal numeral after its whole digits. -/
def afterWhole? (whole : Digits) (text : List Char) : Option NumeralRead := do
  let (fraction, width, rest) ← match text with
    | '.' :: rest => (fraction? rest).map fun (digits, rest) => (digits, digits.width + 1, rest)
    | _ => some ({}, 0, text)
  let (power, powerWidth, rest) ← exponent? rest
  if width + powerWidth == 0 then return (.double (whole.toDouble 10), whole.width, rest)
  else
    let digits := whole.value * Nat.pow 10 fraction.count + fraction.value
    return (.double (.ofDecimal false digits (power - fraction.count)), whole.width + width + powerWidth, rest)

/-- A numeral in a base other than ten, after its two leading characters. -/
def based? (base : Nat) (text : List Char) : Option NumeralRead := do
  let (digits, rest) ← someDigits? base text
  match rest with
  | 'n' :: rest => return (.integer digits.value, digits.width + 3, rest)
  | _ => return (.double (digits.toDouble base), digits.width + 2, rest)

/-- A run of digits without separators. -/
def plainDigits (base : Nat) (text : List Char) : Digits :=
  text.foldl (fun run c => run.push base (c.toNat - 48) 1) {}

/-- A numeral that begins with a zero and a further digit is octal unless it has a digit above seven. -/
def zeroLed? (text : List Char) : Option NumeralRead :=
  let run := text.takeWhile Char.isDigit
  let rest := text.dropWhile Char.isDigit
  if run.all (· ≤ '7') then some (.double ((plainDigits 8 (run.drop 1)).toDouble 8), run.length, rest)
  else afterWhole? (plainDigits 10 run) rest

/-- A decimal numeral, which may be a big integer. -/
def decimal? (text : List Char) : Option NumeralRead := do
  let (whole, rest) ← fraction? text
  match rest with
  | 'n' :: rest =>
    if whole.count == 0 then none else return (.integer whole.value, whole.width + 1, rest)
  | _ => afterWhole? whole rest

/-- A numeral at the beginning of a text. -/
def numeral? (text : List Char) : Option NumeralRead :=
  match text with
  | '0' :: mark :: rest =>
    if mark == 'x' || mark == 'X' then based? 16 rest
    else if mark == 'o' || mark == 'O' then based? 8 rest
    else if mark == 'b' || mark == 'B' then based? 2 rest
    else if mark.isDigit then zeroLed? text
    else if mark == 'n' then some (.integer 0, 2, rest)
    else if mark == '_' then none
    else decimal? text
  | _ => decimal? text

/-! ## Texts -/

/-- A piece of a decoded text: a character, or a half of a pair of code units. -/
inductive Piece where
  | char (c : Char)
  | half (unit : Nat)

/-- Hexadecimal digits up to a closing brace. -/
def bracedHex? : List Char → Nat → Option (Nat × List Char)
  | [], _ => none
  | c :: rest, value =>
    if c == '\x7d' then some (value, rest)
    else
      match Json.hexValue? c with
      | some digit => bracedHex? rest (value * 16 + digit)
      | none => none

/-- The code point of a `u` escape, after the `u`. -/
def codePoint? : List Char → Option (Nat × List Char)
  | '\x7b' :: c :: rest =>
    if c == '\x7d' then none
    else
      match bracedHex? (c :: rest) 0 with
      | some (value, rest) => if value ≤ 0x10FFFF then some (value, rest) else none
      | none => none
  | text => Json.readHex4 text

/-- Whether a code unit is the first half of a pair. -/
def isHighHalf (unit : Nat) : Bool := 0xD800 ≤ unit && unit ≤ 0xDBFF

/-- Whether a code unit is the second half of a pair. -/
def isLowHalf (unit : Nat) : Bool := 0xDC00 ≤ unit && unit ≤ 0xDFFF

/-- The piece of a code point. -/
def Piece.ofCodePoint (value : Nat) : Piece :=
  if isHighHalf value || isLowHalf value then .half value else .char (Char.ofNat value)

/-- The second half of a pair, written as an escape of four digits. -/
def lowHalf? : List Char → Option (Nat × List Char)
  | '\\' :: 'u' :: rest =>
    match Json.readHex4 rest with
    | some (value, rest) => if isLowHalf value then some (value, rest) else none
    | none => none
  | _ => none

/-- The piece of a `u` escape, after the `u`. -/
def unicodePiece? (text : List Char) : Option (Piece × List Char) := do
  let (value, rest) ← codePoint? text
  match if isHighHalf value then lowHalf? rest else none with
  | some (low, rest) =>
    return (.char (Char.ofNat (0x10000 + (value - 0xD800) * 1024 + (low - 0xDC00))), rest)
  | none => return (.ofCodePoint value, rest)

/-- The character of an octal escape of at most three digits, after the backslash. -/
def octalPiece (text : List Char) : Piece × List Char :=
  let width := match text with
    | c :: _ => if c ≤ '3' then 3 else 2
    | [] => 0
  let run := (text.take width).takeWhile fun c => '0' ≤ c && c ≤ '7'
  (.char (Char.ofNat (run.foldl (fun acc c => acc * 8 + (c.toNat - 48)) 0)), text.drop run.length)

/-- The character of an escape of one letter. -/
def letterEscape (c : Char) : Char :=
  if c == 'n' then '\n'
  else if c == 't' then '\t'
  else if c == 'r' then '\r'
  else if c == 'b' then '\x08'
  else if c == 'f' then '\x0c'
  else if c == 'v' then '\x0b'
  else c

/-- Whether a character ends a line of code. -/
def isLineEnd (c : Char) : Bool :=
  c == '\n' || c == '\r' || c == '\u2028' || c == '\u2029'

/-- What an escape stands for, after the backslash. A line end stands for nothing. -/
def escape? : List Char → Option (Option Piece × List Char)
  | [] => none
  | '\r' :: '\n' :: rest => some (none, rest)
  | 'x' :: rest =>
    match rest with
    | a :: b :: rest => do
      let a ← Json.hexValue? a
      let b ← Json.hexValue? b
      return (some (.char (Char.ofNat (a * 16 + b))), rest)
    | _ => none
  | 'u' :: rest => (unicodePiece? rest).map fun (piece, rest) => (some piece, rest)
  | c :: rest =>
    if isLineEnd c then some (none, rest)
    else if '0' ≤ c && c ≤ '7' then
      let (piece, rest) := octalPiece (c :: rest)
      some (some piece, rest)
    else some (some (.char (letterEscape c)), rest)

/-- Decode the escapes of a text, with at most `fuel` steps. -/
def decode? : Nat → List Char → Option (List Piece)
  | _, [] => some []
  | 0, _ :: _ => none
  | fuel + 1, '\\' :: rest => do
    let (piece, rest) ← escape? rest
    let pieces ← decode? fuel rest
    return piece.toList ++ pieces
  | fuel + 1, c :: rest => (decode? fuel rest).map (.char c :: ·)

/-- Whether a piece is a half of a pair. -/
def Piece.isHalf : Piece → Bool
  | .half _ => true
  | .char _ => false

/-- Four hexadecimal digits. -/
def hex4 (n : Nat) : List Char :=
  [n / 4096 % 16, n / 256 % 16, n / 16 % 16, n % 16].map Nat.digitChar

/-- The characters of a piece in a text that holds halves of pairs. -/
def Piece.encode : Piece → List Char
  | .char c => if c == '\uFFFD' then c :: hex4 0xFFFD else [c]
  | .half unit => '\uFFFD' :: hex4 unit

/-- The characters of a piece that is no half. -/
def Piece.plain : Piece → List Char
  | .char c => [c]
  | .half _ => []

/-- The value of a text literal from the characters between its quotes, and whether it holds halves of
pairs. -/
def text? (raw : List Char) : Option (String × Bool) := do
  let pieces ← decode? raw.length raw
  if pieces.any Piece.isHalf then return (String.ofList (pieces.flatMap Piece.encode), true)
  else return (String.ofList (pieces.flatMap Piece.plain), false)

/-- Whether the escapes of a template part are well formed; octal escapes are not. -/
def isTemplateText : Nat → List Char → Bool
  | _, [] => true
  | 0, _ :: _ => false
  | fuel + 1, '\\' :: c :: rest =>
    let octal := c.isDigit && (c != '0' || (rest.head?.map Char.isDigit).getD false)
    !octal &&
      match escape? (c :: rest) with
      | some (_, rest) => isTemplateText fuel rest
      | none => false
  | fuel + 1, _ :: rest => isTemplateText fuel rest

end Literal

end Storyboard
