import Storyboard.Code.Printer.Layout
import Storyboard.Code.Printer.Literal
import Storyboard.Code.Token

/-!
# Places and comments

What is written depends on its place: how deep it stands, how tightly the place binds, what the place would
misread, and which comments have not been written yet.
-/

namespace Storyboard

namespace Printer

/-! ## Levels -/

/-- How tightly places and expressions bind. -/
def commaLevel : Nat := 1

/-- The level of values that a generator gives. -/
def yieldLevel : Nat := 3

/-- The level of assignments. -/
def assignLevel : Nat := 4

/-- The level of choices. -/
def conditionalLevel : Nat := 5

/-- The level of tests for equality. -/
def equalLevel : Nat := 12

/-- The level of shifts. -/
def shiftLevel : Nat := 14

/-- The level of powers. -/
def powerLevel : Nat := 17

/-- The level of operators before an operand. -/
def beforeLevel : Nat := 18

/-- The level of operators after an operand. -/
def afterLevel : Nat := 19

/-- The level of constructions. -/
def newLevel : Nat := 20

/-- The level of calls. -/
def callLevel : Nat := 21

/-- The level of members. -/
def memberLevel : Nat := 22

/-! ## Places -/

/-- What begins where an expression begins. -/
inductive LineStart where
  | nothing
  | statement
  | arrowBody
  | defaultExport
deriving DecidableEq, Repr

/-- A comment that is written out. -/
structure WrittenComment where
  /-- Its text. -/
  text : String
  /-- What is known about it. -/
  comment : Comment

/-- The surroundings of what is written. -/
structure Setting where
  /-- How deep lines are indented. -/
  depth : Nat := 0
  /-- How tightly the place binds. -/
  level : Nat := 0
  /-- What begins here. -/
  start : LineStart := .nothing
  /-- Whether `in` would be read as part of the head of a loop. -/
  forbidsIn : Bool := false
  /-- Whether a call would be read as the call of a constructor. -/
  forbidsCall : Bool := false
  /-- The comments of the module. -/
  comments : List WrittenComment := []

/-- How nodes are written. -/
abbrev Writer := Setting → Node → Layout

namespace Setting

/-- A place where nothing is misread. -/
def inner (s : Setting) (level : Nat) : Setting :=
  { s with level, start := .nothing, forbidsIn := false, forbidsCall := false }

/-- The place of a first part, where nothing is misread but the beginning. -/
def leading (s : Setting) (level : Nat) : Setting :=
  { s with level, forbidsIn := false, forbidsCall := false }

/-- The place of a right operand. -/
def right (s : Setting) (level : Nat) : Setting := { s with level, start := .nothing }

/-- The place of a left operand. -/
def left (s : Setting) (level : Nat) : Setting := { s with level }

/-- A place where a call is read as what it is. -/
def allowCall (s : Setting) : Setting := { s with forbidsCall := false }

/-- A place where `in` is read as what it is. -/
def allowIn (s : Setting) : Setting := { s with forbidsIn := false }

/-- One level of indentation further. -/
def deeper (s : Setting) : Setting := { s with depth := s.depth + 1 }

/-- The comments that lead what begins at an offset. -/
def commentsAt (s : Setting) (offset : Nat) : List WrittenComment :=
  s.comments.filter fun comment => comment.comment.leads == offset

/-- Surroundings without the comments that lead what begins at an offset. -/
def without (s : Setting) (offset : Nat) : Setting :=
  { s with comments := s.comments.filter fun comment => comment.comment.leads != offset }

end Setting

/-- Parentheses if a condition holds. They do not change what the place forbids. -/
def wrap (condition : Bool) (s : Setting) (body : Setting → Layout) : Layout :=
  if condition then "(" ++ body { s with start := .nothing } ++ ")" else body s

/-- A text if a condition holds. -/
def when (condition : Bool) (text : String) : String := if condition then text else ""

/-- An optional part after a mark. -/
def after (mark : String) (part : Option String) : String :=
  match part with
  | some text => mark ++ text
  | none => ""

/-! ## Comments -/

/-- Whether a text begins with another one at some character. -/
def holds (text : List Char) (part : List Char) : Bool :=
  match text with
  | [] => part.isEmpty
  | c :: rest => part.isPrefixOf (c :: rest) || holds rest part

namespace WrittenComment

/-- The lines of a comment. -/
def lines (comment : WrittenComment) : List (List Char) := splitLines comment.text.toList []

/-- Whether a comment states rights to the code: it begins with an exclamation mark or has a tag for that. -/
def isLegal (comment : WrittenComment) : Bool :=
  let text := comment.text.toList.drop 2
  text.head? == some '!' || holds text "@license".toList || holds text "@preserve".toList

/-- A line of a comment that has several. It is indented anew unless a comment seems to begin with it, and
ended unless the comment seems to end with it. -/
def lineText (depth : Nat) (line : List Char) : Layout :=
  Layout.when (!"/*".toList.isPrefixOf line) (Layout.indent depth) ++
    Layout.text (String.ofList (guardScript (line.dropWhile Text.isBlank))) ++
    Layout.when (!"*/".toList.isSuffixOf line) "\n"

/-- What is written for a comment. -/
def layout (depth : Nat) (comment : WrittenComment) : Layout :=
  match comment.lines with
  | [_] => Layout.text (scriptGuarded comment.text)
  | lines => Layout.join (lines.map (lineText depth))

/-- What stands before a comment that leads something: the first begins a line if it did so, a later one
follows the comment before it. -/
def opening (depth : Nat) (comment : WrittenComment) (isFirst : Bool) : Layout :=
  if isFirst then
    if comment.comment.afterLineEnd then Layout.freshLine depth else Layout.indent depth
  else if comment.comment.afterLineEnd then Layout.newLine depth
  else if comment.isLegal then Layout.text "\n"
  else Layout.text " "

/-- What stands after the last comment that leads something: what it leads follows on the same line if it did
so. -/
def closing (comment : WrittenComment) : Layout :=
  if !comment.comment.isBlock || comment.comment.beforeLineEnd then Layout.text "\n" else Layout.joinNext

end WrittenComment

/-- The comments before something that begins at an offset. -/
def leadingComments (s : Setting) (offset : Nat) : Layout :=
  let group := s.commentsAt offset
  Layout.join (group.zipIdx.map fun (comment, i) =>
    comment.opening s.depth (i == 0) ++ comment.layout s.depth ++
      Layout.when (i + 1 == group.length) comment.closing)

/-- The comments before something inside a line, which they indent. -/
def inlineComments (s : Setting) (offset : Nat) : Layout :=
  if (s.commentsAt offset).isEmpty then Layout.empty
  else leadingComments s offset ++ Layout.indent s.depth

/-- Comments on lines of their own. -/
def commentLines (s : Setting) (group : List WrittenComment) : Layout :=
  Layout.join (group.map fun comment => Layout.newLine s.depth ++ comment.layout s.depth)

end Printer

end Storyboard
