import Storyboard.Text.Letter

/-!
# Blanks, words and names

Character classes that decide where words begin and end: white space, word characters, and the
characters of identifiers.
-/

namespace Storyboard

namespace Text

/-- White space of every script. -/
def isBlank (c : Char) : Bool :=
  let n := c.toNat
  (9 ≤ n && n ≤ 13) || n == 0x20 || n == 0x85 || n == 0xA0 || n == 0x1680 ||
    (0x2000 ≤ n && n ≤ 0x200A) || n == 0x2028 || n == 0x2029 || n == 0x202F || n == 0x205F ||
    n == 0x3000

/-- Characters that end a line. -/
def isLineEnd (c : Char) : Bool :=
  let n := c.toNat
  (10 ≤ n && n ≤ 13) || n == 0x85 || n == 0x2028 || n == 0x2029

/-- The two joiners, which are invisible parts of words. -/
def isJoiner (c : Char) : Bool := c.toNat == 0x200C || c.toNat == 0x200D

/-- Enclosing marks, and circled or squared letters. -/
def enclosedRanges : List (Nat × Nat) := [
  (0x488, 0x489), (0x1ABE, 0x1ABE), (0x20DD, 0x20E0), (0x20E2, 0x20E4), (0x24B6, 0x24E9),
  (0xA670, 0xA672), (0x1F130, 0x1F149), (0x1F150, 0x1F169), (0x1F170, 0x1F189)]

/-- Word characters: letters, marks, digits, connectors and joiners. -/
def isWord (c : Char) : Bool :=
  isLetter c || isMark c || isJoiner c || inRanges enclosedRanges c.toNat

/-- Characters outside the letters that may still begin an identifier. -/
def extraStarts : List (Nat × Nat) :=
  [(0x1885, 0x1886), (0x2118, 0x2118), (0x212E, 0x212E), (0x309B, 0x309C)]

/-- Characters outside the marks that may still continue an identifier. -/
def extraContinues : List (Nat × Nat) :=
  [(0xB7, 0xB7), (0x387, 0x387), (0x1369, 0x1371), (0x19DA, 0x19DA), (0x30FB, 0x30FB),
    (0xFF65, 0xFF65)]

/-- Characters that can begin an identifier. -/
def isNameStart (c : Char) : Bool :=
  c == '$' || c == '_' || (isLetter c && c.toNat != 0x2E2F) || inRanges extraStarts c.toNat

/-- Characters that can continue an identifier. -/
def isNamePart (c : Char) : Bool :=
  isNameStart c || isMark c || isJoiner c || inRanges extraContinues c.toNat

end Text

end Storyboard
