/-!
# Layouts

What is written is put together from pieces, and only at the end becomes a text. Most pieces are texts; the
others are about lines and depend on what stands before them: an indentation becomes a single space when the
line before it is to be continued, and a fresh line begins only where none has begun.
-/

namespace Storyboard

/-- A piece of what is written. -/
inductive Piece where
  /-- A text. -/
  | text (value : String)
  /-- The indentation of a line. -/
  | indent (depth : Nat)
  /-- The beginning of a line, unless one has just begun, and its indentation. -/
  | freshLine (depth : Nat)
  /-- The next indentation is a single space. -/
  | joinNext
  /-- The next indentation is one in any case. -/
  | splitNext
deriving DecidableEq, Repr

/-- Pieces in the order they are written. -/
structure Layout where
  /-- The pieces. -/
  pieces : List Piece
deriving DecidableEq, Repr

/-- What has been written. -/
structure Page where
  /-- The characters, the last first. -/
  written : List Char := []
  /-- Whether the next indentation is a single space. -/
  joins : Bool := false
deriving DecidableEq, Repr

namespace Page

/-- Write a character several times. -/
def repeated (page : Page) (count : Nat) (c : Char) : Page :=
  { page with written := List.replicate count c ++ page.written }

/-- Indent a line, or continue the line before it. -/
def indent (page : Page) (depth : Nat) : Page :=
  if page.joins then { written := ' ' :: page.written } else page.repeated depth '\t'

/-- Write a piece. -/
def add (page : Page) : Piece → Page
  | .text value => { page with written := value.toList.reverse ++ page.written }
  | .indent depth => page.indent depth
  | .freshLine depth =>
    match page.written with
    | [] => page
    | '\t' :: _ => page
    | '\n' :: _ => page.indent depth
    | _ => (page.repeated 1 '\n').indent depth
  | .joinNext => { page with joins := true }
  | .splitNext => { page with joins := false }

end Page

namespace Layout

/-- A layout of a single text. -/
def text (value : String) : Layout := ⟨[.text value]⟩

instance : Coe String Layout := ⟨text⟩

instance : Append Layout := ⟨fun first second => ⟨first.pieces ++ second.pieces⟩⟩

@[simp] theorem pieces_append (first second : Layout) :
    (first ++ second).pieces = first.pieces ++ second.pieces := rfl

/-- The layout of nothing. -/
def empty : Layout := ⟨[]⟩

/-- The indentation of a line. -/
def indent (depth : Nat) : Layout := ⟨[.indent depth]⟩

/-- The end of a line and the indentation of the next one. -/
def newLine (depth : Nat) : Layout := text "\n" ++ indent depth

/-- A fresh line. -/
def freshLine (depth : Nat) : Layout := ⟨[.freshLine depth]⟩

/-- The next indentation is a single space. -/
def joinNext : Layout := ⟨[.joinNext]⟩

/-- The next indentation is one in any case. -/
def splitNext : Layout := ⟨[.splitNext]⟩

/-- One layout after the other. -/
def join (parts : List Layout) : Layout := ⟨parts.flatMap pieces⟩

/-- Layouts with a text between them. -/
def separated (mark : String) : List Layout → Layout
  | [] => empty
  | first :: rest => first ++ join (rest.map fun part => text mark ++ part)

/-- Layouts with commas between them. -/
def commas (parts : List Layout) : Layout := separated ", " parts

/-- A layout if a condition holds. -/
def when (condition : Bool) (layout : Layout) : Layout := if condition then layout else empty

/-- An optional part after a mark. -/
def after (mark : String) (part : Option Layout) : Layout :=
  match part with
  | some layout => text mark ++ layout
  | none => empty

/-- Items on lines of their own between brackets that stand at a depth. -/
def onLines (depth : Nat) (opening closing : String) (items : List Layout) : Layout :=
  text opening ++ separated "," (items.map fun item => newLine (depth + 1) ++ item) ++ newLine depth ++
    text closing

/-- Texts with layouts between them, each layout in the brackets of a template. -/
def template : List String → List Layout → Layout
  | first :: texts, value :: values =>
    text first ++ text "$\x7b" ++ value ++ text "\x7d" ++ template texts values
  | texts, _ => join (texts.map text)

/-- The text of a layout. -/
def render (layout : Layout) : String :=
  String.ofList (layout.pieces.foldl Page.add {}).written.reverse

end Layout

end Storyboard
