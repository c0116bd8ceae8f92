import Storyboard.Json

/-!
# Reading JSON

The strict grammar: no comments, no trailing commas, no control characters in texts, surrogates only
in pairs. Arrays and objects nest at most `depthLimit` deep. The reader keeps every entry of an object
as written, also repeated names, so that a later pass can refuse or merge them. Each step gives a value
and the rest of the text, or nothing when the text is not of the expected form.
-/

namespace Storyboard

namespace Json

/-- How deep arrays and objects may nest, counting one more than the deepest accepted value. -/
def depthLimit : Nat := 128

/-- The four blank characters between tokens. -/
def isBlank (c : Char) : Bool := c == ' ' || c == '\n' || c == '\t' || c == '\r'

/-- Drop leading blanks. -/
def skipBlanks (text : List Char) : List Char := text.dropWhile isBlank

/-- The value of a hexadecimal digit. -/
def hexValue? (c : Char) : Option Nat :=
  if '0' ≤ c ∧ c ≤ '9' then some (c.toNat - 48)
  else if 'a' ≤ c ∧ c ≤ 'f' then some (c.toNat - 87)
  else if 'A' ≤ c ∧ c ≤ 'F' then some (c.toNat - 55)
  else none

/-- Four hexadecimal digits. -/
def readHex4 : List Char → Option (Nat × List Char)
  | a :: b :: c :: d :: rest => do
    let a ← hexValue? a
    let b ← hexValue? b
    let c ← hexValue? c
    let d ← hexValue? d
    return (((a * 16 + b) * 16 + c) * 16 + d, rest)
  | _ => none

/-- The character of a `u` escape, which is a pair of escapes outside the basic plane. -/
def readUnicodeEscape (text : List Char) : Option (Char × List Char) := do
  let (high, rest) ← readHex4 text
  if 0xDC00 ≤ high ∧ high ≤ 0xDFFF then none
  else if 0xD800 ≤ high ∧ high ≤ 0xDBFF then
    match rest with
    | '\\' :: 'u' :: rest =>
      let (low, rest) ← readHex4 rest
      if 0xDC00 ≤ low ∧ low ≤ 0xDFFF then
        return (Char.ofNat (0x10000 + (high - 0xD800) * 1024 + (low - 0xDC00)), rest)
      else none
    | _ => none
  else return (Char.ofNat high, rest)

/-- The character of a one letter escape. -/
def simpleEscape? (c : Char) : Option Char :=
  if c == '"' then some '"'
  else if c == '\\' then some '\\'
  else if c == '/' then some '/'
  else if c == 'b' then some (Char.ofNat 8)
  else if c == 'f' then some (Char.ofNat 12)
  else if c == 'n' then some '\n'
  else if c == 'r' then some '\r'
  else if c == 't' then some '\t'
  else none

/-- The characters of a text up to its closing quote. -/
def readChars : Nat → List Char → List Char → Option (String × List Char)
  | 0, _, _ => none
  | _ + 1, [], _ => none
  | fuel + 1, c :: rest, read =>
    if c == '"' then some (String.ofList read.reverse, rest)
    else if c == '\\' then
      match rest with
      | 'u' :: rest =>
        match readUnicodeEscape rest with
        | some (c, rest) => readChars fuel rest (c :: read)
        | none => none
      | c :: rest =>
        match simpleEscape? c with
        | some c => readChars fuel rest (c :: read)
        | none => none
      | [] => none
    else if c.toNat < 32 then none
    else readChars fuel rest (c :: read)

/-- A quoted text, its opening quote already read. -/
def readText (text : List Char) : Option (String × List Char) := readChars (text.length + 1) text []

/-- Append decimal digits to a number. -/
def addDigits (n : Nat) (digits : List Char) : Nat :=
  digits.foldl (fun acc c => acc * 10 + (c.toNat - 48)) n

/-- Whole numbers that fit 64 bits, signed below zero and unsigned above, stay whole. -/
def isWhole (negative : Bool) (digits : Nat) : Bool :=
  if negative then digits != 0 && decide (digits ≤ Nat.pow 2 63) else decide (digits < Nat.pow 2 64)

/-- Powers of ten with exponent up to 308, as doubles. -/
def powerOfTen (n : Nat) : Binary64 := Binary64.ofDecimal false 1 n

/-- Scale a double by a power of ten, in steps of at most 308 decades. -/
def scaleByTen (x : Binary64) (power : Int) : Nat → Binary64
  | 0 => x
  | fuel + 1 =>
    if power.natAbs ≤ 308 then
      if 0 ≤ power then x.mul (powerOfTen power.toNat) else x.div (powerOfTen power.natAbs)
    else if x.isZero then x
    else if 0 ≤ power then Binary64.ofMagnitudeBits false Binary64.infinityBits
    else scaleByTen (x.div (powerOfTen 308)) (power + 308) fuel

/-- The leading digits that fit 64 bits, and how many digits were left out. -/
def leadingDigits : List Char → Nat → Nat × Nat
  | [], n => (n, 0)
  | c :: rest, n =>
    let next := n * 10 + (c.toNat - 48)
    if next < Nat.pow 2 64 then leadingDigits rest next else (n, rest.length + 1)

/-- A double from its whole digits, fraction digits and exponent: the leading digits are scaled by a
power of ten, each step rounded. -/
def realOfParts (negative : Bool) (whole fraction : List Char) (exponent : Int) : Binary64 :=
  let (kept, dropped) := leadingDigits whole 0
  let (digits, power) :=
    if dropped > 0 then (kept, exponent + dropped)
    else
      let (all, dropped) := leadingDigits fraction kept
      (all, exponent - (fraction.length - dropped : Nat))
  let magnitude := scaleByTen (Binary64.ofNat digits) power 12
  if negative then magnitude.neg else magnitude

/-- An exponent after its mark. -/
def readExponent (text : List Char) : Option (Int × List Char) :=
  let (negative, text) := match text with
    | '-' :: rest => (true, rest)
    | '+' :: rest => (false, rest)
    | _ => (false, text)
  let (digits, rest) := text.span Char.isDigit
  if digits.isEmpty then none
  else
    let value := min (addDigits 0 digits) 100000
    some (if negative then -(value : Int) else value, rest)

/-- A number without its sign. -/
def readMagnitude (negative : Bool) (text : List Char) : Option (Number × List Char) := do
  let (whole, rest) := text.span Char.isDigit
  if whole.isEmpty || (whole.head? == some '0' && whole.length > 1) then none
  else
    let (fraction, rest) ← match rest with
      | '.' :: rest =>
        let (digits, rest) := rest.span Char.isDigit
        if digits.isEmpty then none else some (some digits, rest)
      | _ => some (none, rest)
    let (exponent, rest) ← match rest with
      | 'e' :: rest => (readExponent rest).map fun (e, rest) => (some e, rest)
      | 'E' :: rest => (readExponent rest).map fun (e, rest) => (some e, rest)
      | _ => some (none, rest)
    let digits := addDigits 0 whole
    if fraction.isNone && exponent.isNone && isWhole negative digits then
      return (.whole (if negative then -(digits : Int) else digits), rest)
    else
      return (.real (realOfParts negative whole (fraction.getD []) (exponent.getD 0)), rest)

/-- A number. -/
def readNumber : List Char → Option (Number × List Char)
  | '-' :: rest => readMagnitude true rest
  | text => readMagnitude false text

/-- Items up to a closing bracket, the first item due. -/
def readItems (item : List Char → Option (Json × List Char)) :
    Nat → List Char → List Json → Option (List Json × List Char)
  | 0, _, _ => none
  | fuel + 1, text, read => do
    let (value, rest) ← item text
    match skipBlanks rest with
    | ',' :: rest => readItems item fuel rest (value :: read)
    | ']' :: rest => some ((value :: read).reverse, rest)
    | _ => none

/-- Entries up to a closing brace, the first entry due. -/
def readEntries (item : List Char → Option (Json × List Char)) :
    Nat → List Char → List (String × Json) → Option (List (String × Json) × List Char)
  | 0, _, _ => none
  | fuel + 1, text, read =>
    match skipBlanks text with
    | '"' :: rest => do
      let (name, rest) ← readText rest
      match skipBlanks rest with
      | ':' :: rest =>
        let (value, rest) ← item rest
        match skipBlanks rest with
        | ',' :: rest => readEntries item fuel rest ((name, value) :: read)
        | '\x7d' :: rest => some (((name, value) :: read).reverse, rest)
        | _ => none
      | _ => none
    | _ => none

/-- A fixed word. -/
def readWord (word : List Char) (value : Json) (text : List Char) : Option (Json × List Char) :=
  if word.isPrefixOf text then some (value, text.drop word.length) else none

/-- One value after blanks, with the given number of levels left. -/
def readValue : Nat → List Char → Option (Json × List Char)
  | 0, _ => none
  | depth + 1, text =>
    match skipBlanks text with
    | [] => none
    | 'n' :: rest => readWord ['u', 'l', 'l'] .null rest
    | 't' :: rest => readWord ['r', 'u', 'e'] (.bool true) rest
    | 'f' :: rest => readWord ['a', 'l', 's', 'e'] (.bool false) rest
    | '"' :: rest => (readText rest).map fun (text, rest) => (.string text, rest)
    | '[' :: rest =>
      if depth == 0 then none
      else
        match skipBlanks rest with
        | ']' :: rest => some (.array [], rest)
        | _ =>
          (readItems (readValue depth) (rest.length + 1) rest []).map fun (items, rest) =>
            (.array items, rest)
    | '\x7b' :: rest =>
      if depth == 0 then none
      else
        match skipBlanks rest with
        | '\x7d' :: rest => some (.object [], rest)
        | _ =>
          (readEntries (readValue depth) (rest.length + 1) rest []).map fun (entries, rest) =>
            (.object entries, rest)
    | other => (readNumber other).map fun (value, rest) => (.number value, rest)

/-- The value a text spells, entries of objects as written. -/
def readRaw? (text : String) : Option Json :=
  match readValue depthLimit text.toList with
  | some (value, rest) => if (skipBlanks rest).isEmpty then some value else none
  | none => none

/-- The value a text spells. -/
def read? (text : String) : Option Json := (readRaw? text).map normalize

end Json

end Storyboard
