/-!
# Byte offsets

Offsets into a text count the bytes of its UTF-8 form. An offset may fall inside a character or past
the end; the functions here say what that means. The central notion is the boundary: the greatest offset
not above a given one at which a character begins or the text ends.
-/

namespace Storyboard

namespace Text

/-- The number of bytes of a text. -/
def byteLength : List Char → Nat
  | [] => 0
  | c :: rest => c.utf8Size + byteLength rest

/-- Split a text at an offset; nothing when the offset is no boundary of the text. -/
def splitAt? : List Char → Nat → Option (List Char × List Char)
  | text, 0 => some ([], text)
  | [], _ + 1 => none
  | c :: rest, offset =>
    if c.utf8Size ≤ offset then
      (splitAt? rest (offset - c.utf8Size)).map fun (before, after) => (c :: before, after)
    else none

/-- The characters that end at or before an offset. -/
def before : List Char → Nat → List Char
  | [], _ => []
  | c :: rest, offset =>
    if c.utf8Size ≤ offset then c :: before rest (offset - c.utf8Size) else []

/-- The greatest boundary not above an offset. -/
def boundary (text : List Char) (offset : Nat) : Nat := byteLength (before text offset)

/-- The characters between two offsets. -/
def slice (text : List Char) (start stop : Nat) : List Char :=
  (before text stop).drop (before text start).length

/-- The text between two offsets. -/
def sliceString (text : String) (start stop : Nat) : String :=
  String.ofList (slice text.toList start stop)

/-- The characters that the bytes from `start` to `stop` touch, as positions counted in characters. A
range that is reversed is empty. -/
def characterRange (text : List Char) (start stop : Nat) : Nat × Nat :=
  let start := boundary text start
  let stop := boundary text (max stop start)
  ((before text start).length, (before text stop).length)

end Text

/-- A place in a text: lines count from one, columns count characters from zero. -/
structure Position where
  /-- One more than the number of line feeds before the place. -/
  line : Nat
  /-- The number of characters since the last line feed. -/
  column : Nat
deriving DecidableEq, Repr

/-- The place of a byte offset, which is moved down to a boundary. -/
def Position.ofOffset (text : List Char) (offset : Nat) : Position :=
  let read := Text.before text offset
  { line := read.count '\n' + 1, column := (read.reverse.takeWhile (· != '\n')).length }

end Storyboard
