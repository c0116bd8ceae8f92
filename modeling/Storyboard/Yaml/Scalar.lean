import Storyboard.Json

/-!
# YAML scalars

How a text is written so that it reads back as the same text: plain when nothing in it can be taken for
structure or for another kind of value, else between single quotes, as a literal block when it has
lines, and between double quotes when nothing else can hold it.
-/

namespace Storyboard

namespace Yaml

/-- Characters that end a line. -/
def isBreak (c : Char) : Bool :=
  c == '\n' || c == '\r' || c.toNat == 0x85 || c.toNat == 0x2028 || c.toNat == 0x2029

/-- Whether the neighbouring character, if any, separates tokens. -/
def separates : Option Char → Bool
  | none => true
  | some c => c == ' ' || c == '\t' || isBreak c || c.toNat == 0

/-- Characters that may stand in a document unescaped. -/
def isPrintable (c : Char) : Bool :=
  let n := c.toNat
  n == 10 || (0x20 ≤ n && n ≤ 0x7E) || (0xA0 ≤ n && n ≤ 0xD7FF) ||
    (0xE000 ≤ n && n ≤ 0xFFFD && n != 0xFEFF) || 0x10000 ≤ n

/-- Every character of a text with its two neighbours. -/
def windows (text : List Char) : List (Option Char × Char × Option Char) :=
  let before := none :: text.map some
  let after := (text.drop 1).map some ++ [none]
  before.zip (text.zip after)

/-- Whether two adjacent characters satisfy two conditions. -/
def hasAdjacent (first second : Char → Bool) (text : List Char) : Bool :=
  (text.zip (text.drop 1)).any fun (a, b) => first a && second b

/-- Characters that can not begin a plain scalar. -/
def startIndicators : List Char :=
  ['#', ',', '[', ']', '\x7b', '\x7d', '&', '*', '!', '|', '>', '\'', '"', '%', '@', Char.ofNat 96]

/-- Whether a text holds something that reads as structure outside of brackets. -/
def hasIndicator (text : List Char) : Bool :=
  ['-', '-', '-'].isPrefixOf text || ['.', '.', '.'].isPrefixOf text ||
    (text.head?.map startIndicators.contains).getD false ||
    (match text with
      | c :: rest => (c == '?' || c == '-') && separates rest.head?
      | [] => false) ||
    (windows text).any fun (before, c, after) =>
      (c == ':' && separates after) || (c == '#' && separates before)

/-- What decides how a text can be written. -/
structure Traits where
  /-- The text has more than one line. -/
  multiline : Bool
  /-- It can stand without quotes. -/
  plain : Bool
  /-- It can stand between single quotes. -/
  singleQuoted : Bool
  /-- It can stand as a literal block. -/
  literal : Bool

/-- The traits of a text. -/
def Traits.of (text : List Char) : Traits :=
  if text.isEmpty then ⟨false, true, true, false⟩
  else
    let isSpace : Char → Bool := (· == ' ')
    let atEdge (p : Char → Bool) := (text.head?.map p).getD false || (text.getLast?.map p).getD false
    let special := hasAdjacent isSpace isBreak text || text.any (!isPrintable ·)
    let breakSpace := hasAdjacent isBreak isSpace text
    let lines := text.any isBreak
    let edges := atEdge isSpace || atEdge isBreak
    { multiline := lines
      plain := !edges && !breakSpace && !special && !lines && !hasIndicator text
      singleQuoted := !breakSpace && !special
      literal := !((text.getLast?.map isSpace).getD false) && !special }

/-- The forms a scalar can take. -/
inductive Style where
  | plain
  | singleQuoted
  | doubleQuoted
  | literal
deriving DecidableEq, Repr

/-- The digits after a sign. -/
def afterSign : List Char → List Char
  | '-' :: rest => rest
  | '+' :: rest => rest
  | text => text

/-- Digits that are no number because they begin with a zero. -/
def isZeroLed (text : List Char) : Bool :=
  match afterSign text with
  | '0' :: rest => !rest.isEmpty && rest.all Char.isDigit
  | _ => false

/-- Whether a text is a nonempty row of digits of a base. -/
def isDigitRow (isDigit : Char → Bool) (text : List Char) : Bool := !text.isEmpty && text.all isDigit

/-- Hexadecimal digits. -/
def isHex (c : Char) : Bool :=
  c.isDigit || ('a' ≤ c && c ≤ 'f') || ('A' ≤ c && c ≤ 'F')

/-- Whether a text reads as a whole number in one of the four bases. -/
def isInteger (text : List Char) : Bool :=
  let unsigned := match text with
    | '+' :: rest => rest
    | _ => text
  let digits := match unsigned with
    | '-' :: rest => if unsigned.length == text.length then rest else unsigned
    | _ => unsigned
  match digits with
  | '0' :: 'x' :: rest => isDigitRow isHex rest
  | '0' :: 'o' :: rest => isDigitRow (fun c => '0' ≤ c && c ≤ '7') rest
  | '0' :: 'b' :: rest => isDigitRow (fun c => c == '0' || c == '1') rest
  | _ => isDigitRow Char.isDigit digits && !isZeroLed text

/-- Whether a text is a decimal number, with a fraction or an exponent or neither. -/
def isDecimal (text : List Char) : Bool :=
  let (whole, rest) := (match text with
    | '-' :: rest => rest
    | _ => text).span Char.isDigit
  let (fraction, rest) := match rest with
    | '.' :: rest => rest.span Char.isDigit
    | _ => ([], rest)
  let exponentFits := match rest with
    | [] => true
    | 'e' :: rest => isDigitRow Char.isDigit (afterSign rest)
    | 'E' :: rest => isDigitRow Char.isDigit (afterSign rest)
    | _ => false
  !(whole ++ fraction).isEmpty && exponentFits

/-- The double that a decimal text spells is not infinite. -/
def isFiniteDecimal (text : List Char) : Bool :=
  let unsigned := match text with
    | '-' :: rest => rest
    | _ => text
  let (mantissa, tail) := unsigned.span fun c => c != 'e' && c != 'E'
  let (whole, fraction) := mantissa.span (· != '.')
  let fraction := fraction.drop 1
  let exponentDigits := afterSign (tail.drop 1)
  let magnitude : Int := (exponentDigits.foldl (fun n c => min 100000 (n * 10 + (c.toNat - 48))) 0 : Nat)
  let exponent := if (tail.drop 1).head? == some '-' then -magnitude else magnitude
  let digits := (whole ++ fraction).foldl (fun n c => n * 10 + (c.toNat - 48)) 0
  (Binary64.ofDecimal false digits (exponent - fraction.length)).isFinite

/-- Whether a text reads as a floating point number. -/
def isFloat (text : List Char) : Bool :=
  let unsigned := match text with
    | '+' :: rest => rest
    | _ => text
  let doubled := text.head? == some '+' && (unsigned.head? == some '+' || unsigned.head? == some '-')
  let spelled := String.ofList
  !doubled && (
    [".inf", ".Inf", ".INF"].contains (spelled unsigned) ||
    ["-.inf", "-.Inf", "-.INF", ".nan", ".NaN", ".NAN"].contains (spelled text) ||
    (!isZeroLed text && isDecimal unsigned && isFiniteDecimal unsigned))

/-- Whether a text without quotes would read as something other than that text. -/
def readsAsOther (text : String) : Bool :=
  let lowered := text.map Char.toLower
  text == "" || lowered == "null" || text == "~" || lowered == "true" || lowered == "false" ||
    isInteger text.toList || isFloat text.toList || isZeroLed text.toList

/-- The form of a text. -/
def Style.of (text : String) : Style :=
  let traits := Traits.of text.toList
  let quoted := if traits.singleQuoted then Style.singleQuoted else .doubleQuoted
  if text.toList.contains '\n' then if traits.literal then .literal else .doubleQuoted
  else if readsAsOther text then quoted
  else if traits.plain then .plain
  else quoted

/-- Continue on a line after a break: leading breaks stay, and the first other character of each line
is set in by `margin`. -/
def indentLines (margin : List Char) (escape : Char → List Char) : Bool → List Char → List Char
  | _, [] => []
  | fresh, c :: rest =>
    if isBreak c then c :: indentLines margin escape true rest
    else (if fresh then margin else []) ++ escape c ++ indentLines margin escape false rest

/-- A literal block without its final line break, its lines set in by `margin` blanks. -/
def literalBlock (margin : Nat) (text : List Char) : List Char :=
  let edgeMark := match text with
    | c :: _ => if c == ' ' || isBreak c then ['2'] else []
    | [] => []
  let endMark := match text.reverse with
    | [] => ['-']
    | c :: rest =>
      if !isBreak c then ['-']
      else if (rest.head?.map isBreak).getD true then ['+']
      else []
  let body := indentLines (List.replicate margin ' ') (fun c => [c]) true text
  let whole := '|' :: (edgeMark ++ endMark ++ '\n' :: body)
  if whole.getLast? == some '\n' then whole.dropLast else whole

/-- A text between single quotes, where a quote is written twice. -/
def singleQuoted (margin : Nat) (text : List Char) : List Char :=
  let escape c := if c == '\'' then ['\'', '\''] else [c]
  let body := indentLines (List.replicate margin ' ') escape false text
  '\'' :: (body ++ ['\''])

/-- Uppercase hexadecimal digits of a number, at least `width` of them. -/
def hexUpper (width n : Nat) : List Char :=
  let digits := (Nat.toDigits 16 n).map Char.toUpper
  List.replicate (width - digits.length) '0' ++ digits

/-- The letter of a short escape. -/
def shortEscape? (n : Nat) : Option Char :=
  [(0, '0'), (7, 'a'), (8, 'b'), (9, 't'), (10, 'n'), (11, 'v'), (12, 'f'), (13, 'r'), (27, 'e'),
    (34, '"'), (92, '\\'), (0x85, 'N'), (0xA0, '_'), (0x2028, 'L'), (0x2029, 'P')].lookup n

/-- A character between double quotes. -/
def escapeDouble (c : Char) : List Char :=
  if isPrintable c && !isBreak c && c != '"' && c != '\\' then [c]
  else match shortEscape? c.toNat with
    | some letter => ['\\', letter]
    | none =>
      if c.toNat ≤ 0xFF then '\\' :: 'x' :: hexUpper 2 c.toNat
      else if c.toNat ≤ 0xFFFF then '\\' :: 'u' :: hexUpper 4 c.toNat
      else '\\' :: 'U' :: hexUpper 8 c.toNat

/-- A text in its form, further lines set in by `margin` blanks. -/
def renderText (margin : Nat) (text : String) : String :=
  match Style.of text with
  | .plain => text
  | .singleQuoted => String.ofList (singleQuoted margin text.toList)
  | .doubleQuoted => String.ofList ('"' :: (text.toList.flatMap escapeDouble ++ ['"']))
  | .literal => String.ofList (literalBlock margin text.toList)

/-- Whether a text can be a key on one line with its value. -/
def isSimpleKey (key : String) : Bool :=
  !(Traits.of key.toList).multiline && decide (key.utf8ByteSize ≤ 128)

end Yaml

end Storyboard
