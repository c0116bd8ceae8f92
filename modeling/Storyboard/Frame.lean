import Storyboard.Text.Offset
import Storyboard.Text.Blank
import Storyboard.Text.Width

/-!
# Code frames

A frame shows the lines of a text that a range touches, with the range drawn below them and a message
attached to its middle. A range over several lines is drawn as a bracket on the left instead.
-/

namespace Storyboard

/-- How serious a finding is. -/
inductive Severity where
  | warning
  | error
deriving DecidableEq, Repr

/-- The word that a frame begins with. -/
def Severity.title : Severity → String
  | .warning => "Warning"
  | .error => "Error"

namespace Frame

/-- The lines of a text with their terminators; a carriage return and a line feed end one line
together. -/
def splitLines : List Char → List Char → List (List Char)
  | [], [] => []
  | [], line => [line.reverse]
  | '\r' :: '\n' :: rest, line => ('\n' :: '\r' :: line).reverse :: splitLines rest []
  | c :: rest, line =>
    if Text.isLineEnd c then (c :: line).reverse :: splitLines rest []
    else splitLines rest (c :: line)

/-- The lines of a text, of which there is always one. -/
def linesOf (text : List Char) : List (List Char) :=
  match splitLines text [] with
  | [] => [[]]
  | lines => lines

/-- A line of the text, and where it stands. -/
structure Place where
  /-- The line's index, counted from zero. -/
  index : Nat
  /-- The number of characters before the line. -/
  offset : Nat
  /-- The line with its terminator. -/
  line : List Char

/-- The line that holds a character; the end of the text belongs to the last line. -/
def locate (index offset : Nat) (position : Nat) : List (List Char) → Place
  | [] => ⟨index, offset, []⟩
  | [line] => ⟨index, offset, line⟩
  | line :: next :: rest =>
    if position < offset + line.length then ⟨index, offset, line⟩
    else locate (index + 1) (offset + line.length) position (next :: rest)

/-- A line without trailing white space. -/
def trimmed (line : List Char) : List Char := (line.reverse.dropWhile Text.isBlank).reverse

/-- How wide the character in a column is drawn: a tabulator reaches the next multiple of four. -/
def cellWidth (column : Nat) (c : Char) : Nat :=
  if c == '\t' then 4 - column % 4
  else if Text.isBlank c then 1
  else Text.width c

/-- The width of each of the first columns of a line; beyond its end a column is one wide. -/
def columnWidths (line : List Char) (columns : Nat) : List Nat :=
  let text := trimmed line
  (List.range columns).map fun column => ((text[column]?).map (cellWidth column)).getD 1

/-- A line as it is drawn, white space as blanks. -/
def drawLine (line : List Char) : List Char :=
  let text := trimmed line
  (text.zip (List.range text.length)).flatMap fun (c, column) =>
    if Text.isBlank c then List.replicate (cellWidth column c) ' ' else [c]

/-- A mark for a column: the character of its first cell, and of its further cells. -/
abbrev Mark := Char × Char

/-- Draw a row of marks, each as wide as its column. -/
def drawRow (widths : List Nat) (mark : Nat → Mark) : List Char :=
  (widths.zip (List.range widths.length)).flatMap fun (width, column) =>
    match width with
    | 0 => []
    | more + 1 => (mark column).1 :: List.replicate more (mark column).2

/-- The mark below a column of a range from `start` to `stop` with its middle at `middle`. -/
def underline (start stop middle : Nat) (column : Nat) : Mark :=
  if column == middle then if start < stop then ('┬', '─') else ('│', ' ')
  else if start ≤ column && column < stop then ('─', '─')
  else (' ', ' ')

/-- The mark of the row that leads to the message. -/
def arrow (middle : Nat) (column : Nat) : Mark :=
  if column == middle then ('╰', '─')
  else if middle < column then ('─', '─')
  else (' ', ' ')

/-- A number set right in a field. -/
def numberField (width n : Nat) : List Char :=
  let digits := Nat.toDigits 10 n
  List.replicate (width - digits.length) ' ' ++ digits

/-- The rows of a frame whose range lies in one line. -/
def singleLineRows (margin : Nat) (message : List Char) (place : Place) (start stop : Nat) :
    List (List Char) :=
  let gap := List.replicate (margin + 2) ' '
  let s := start - place.offset
  let e := stop - place.offset
  let middle := (s + e) / 2
  let widths := columnWidths place.line (e + 2)
  [ ' ' :: (numberField margin (place.index + 1) ++ [' ', '│', ' '] ++ drawLine place.line),
    gap ++ ['│', ' '] ++ drawRow widths (underline s e middle),
    gap ++ ['│', ' '] ++ drawRow widths (arrow middle) ++ ' ' :: message ]

/-- The rows of a frame whose range spans several lines. -/
def multiLineRows (margin : Nat) (message : List Char) (first last : Place) : List (List Char) :=
  let gap := List.replicate (margin + 2) ' '
  let row (place : Place) (bracket : List Char) :=
    ' ' :: (numberField margin (place.index + 1) ++ [' ', '│', ' '] ++ bracket ++ drawLine place.line)
  let skipped := if first.index + 1 < last.index then [gap ++ ['┆', ' ', '┆', ' ', ' ', ' ']] else []
  let span := (columnWidths last.line (last.line.length + 2)).foldl (· + ·) 0
  row first ['╭', '─', '▶', ' '] :: (skipped ++ [
    row last ['├', '─', '▶', ' '],
    gap ++ ['│', ' ', '│', ' ', ' ', ' '] ++ List.replicate span ' ',
    gap ++ ['│', ' ', '╰', '─', '─', '─'] ++ List.replicate span '─' ++ ' ' :: message ])

/-- The frame of a range of bytes, as lines. -/
def lines (source file : List Char) (start stop : Nat) (severity : Severity) (message : List Char) :
    List (List Char) :=
  let (begins, ends) := Text.characterRange source start stop
  let all := linesOf source
  let first := locate 0 0 begins all
  let last := locate 0 0 (max begins (ends - 1)) all
  let margin := (Nat.toDigits 10 (last.index + 1)).length
  let gap := List.replicate (margin + 2) ' '
  let place := file ++ ':' :: (Nat.toDigits 10 (first.index + 1) ++
    ':' :: Nat.toDigits 10 (begins - first.offset + 1))
  let rows :=
    if first.index == last.index then singleLineRows margin message first begins ends
    else multiLineRows margin message first last
  (severity.title.toList ++ ':' :: ' ' :: message) ::
  (gap ++ ['╭', '─', '[', ' '] ++ place ++ [' ', ']']) ::
  (gap ++ ['│']) ::
  (rows ++ [List.replicate (margin + 2) '─' ++ ['╯']])

end Frame

/-- The frame of a range of bytes of a text. -/
def codeFrame (source file : String) (start stop : Nat) (severity : Severity) (message : String) :
    String :=
  let lines := Frame.lines source.toList file.toList start stop severity message.toList
  String.ofList (lines.flatMap (· ++ ['\n']))

end Storyboard
