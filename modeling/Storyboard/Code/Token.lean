import Storyboard.Text.Blank
import Storyboard.Code.Tree
import Storyboard.Code.Literal

/-!
# Tokens

A source is read token by token, from a cursor that knows the characters ahead and their offset. Blanks
and comments before a token are skipped; the comments are kept with the token they lead, except those that
end the line of the token before them. Some tokens depend on what the grammar expects at their place: a
slash may begin a regular expression, a closing brace may continue a template, and inside markup other
rules hold. For these there are scanners of their own.
-/

namespace Storyboard

/-- The characters ahead and the offset of the first of them. -/
structure Cursor where
  /-- The characters ahead. -/
  rest : List Char
  /-- The offset of the first of them. -/
  offset : Nat
deriving Inhabited

/-- What a comment promises about the code after it. -/
inductive Promise where
  /-- A call has no effect but its result. -/
  | pure
  /-- Calls of a function have no effect but their results. -/
  | noSideEffects
deriving DecidableEq, Repr

/-- A comment that leads a token. -/
structure Comment where
  /-- The bytes it covers. -/
  span : Span
  /-- What it promises; such a comment is not written out as it is. -/
  promise : Option Promise
  /-- Whether it is closed explicitly, not by the end of its line. -/
  isBlock : Bool
  /-- Whether it begins on a line of its own. -/
  afterLineEnd : Bool
  /-- Whether its line ends after it. -/
  beforeLineEnd : Bool
  /-- The offset of the token that it leads. -/
  leads : Nat
deriving Repr, Inhabited

/-- What a token is. -/
inductive TokenKind where
  /-- An identifier or a word; one with an escape is never a word. -/
  | name (text : String) (isEscaped : Bool)
  /-- A private name, without its mark. -/
  | privateName (text : String)
  /-- A punctuation mark. -/
  | mark (text : String)
  /-- A number. -/
  | number (value : Binary64)
  /-- A big integer. -/
  | bigint (value : Nat)
  /-- A text. -/
  | text (value : String) (hasLoneHalves : Bool)
  /-- A part of a template. -/
  | template (raw : String) (isWellFormed isLast : Bool)
  /-- The end of the source. -/
  | finish
deriving DecidableEq, Repr, Inhabited

/-- A token and its surroundings. -/
structure Token where
  /-- What it is. -/
  kind : TokenKind
  /-- The bytes it covers. -/
  span : Span
  /-- Whether a line ends between it and the token before it. -/
  afterLineEnd : Bool
  /-- The comments that lead it. -/
  comments : List Comment
  /-- What the comments between it and the token before it promise. -/
  promises : List Promise
deriving Inhabited

namespace Cursor

/-- The cursor after characters that satisfy a condition, and those characters. -/
def takeWhile (condition : Char → Bool) : List Char → Nat → List Char × Cursor
  | [], offset => ([], ⟨[], offset⟩)
  | c :: rest, offset =>
    if condition c then
      let (taken, cursor) := takeWhile condition rest (offset + c.utf8Size)
      (c :: taken, cursor)
    else ([], ⟨c :: rest, offset⟩)

/-- The cursor a number of one-byte characters further. -/
def skip (cursor : Cursor) (count : Nat) : Cursor := ⟨cursor.rest.drop count, cursor.offset + count⟩

/-- Whether the characters ahead begin with a given text. -/
def startsWith (cursor : Cursor) (text : String) : Bool := text.toList.isPrefixOf cursor.rest

end Cursor

namespace Lexer

/-! ## Blanks and comments -/

/-- Blanks inside a line. -/
def isInlineBlank (c : Char) : Bool :=
  (Text.isBlank c || c == '\uFEFF' || c == '\u200B') && !Literal.isLineEnd c

/-- The promise that a comment begins with, from its text after the opening mark; blanks before it do not
count. -/
def promise? (text : List Char) : Option Promise :=
  let isBlank (c : Char) : Bool := c == ' ' || c == '\t' || c == '\x0c' || c == '\r' || c == '\n'
  match text.dropWhile isBlank with
  | c :: rest =>
    if c == '@' || c == '#' then
      if "__PURE__".toList.isPrefixOf rest then some .pure
      else if "__NO_SIDE_EFFECTS__".toList.isPrefixOf rest then some .noSideEffects
      else none
    else none
  | [] => none

/-- The text of a comment up to the end of its line. -/
def lineText (text : List Char) : List Char := text.takeWhile fun c => !Literal.isLineEnd c

/-- What has been seen between two tokens. -/
structure Gap where
  /-- Whether a line ended, for the attachment of comments. -/
  sawLineEnd : Bool := false
  /-- Whether a line ended since the last comment. -/
  atLineStart : Bool := false
  /-- Whether a line ended, also inside a comment. -/
  crossesLine : Bool := false
  /-- Whether a comment to the end of the line of the previous token may lead the next one. -/
  keepsLineComment : Bool := false
  /-- The comments that lead the next token, the last first. -/
  comments : List Comment := []
  /-- What all comments promise. -/
  promises : List Promise := []

namespace Gap

/-- A line ends. Comments on the line of the previous token lead nothing. -/
def endLine (gap : Gap) : Gap :=
  { gap with
    sawLineEnd := true
    atLineStart := true
    crossesLine := true
    comments :=
      if gap.sawLineEnd then
        match gap.comments with
        | last :: others => { last with beforeLineEnd := true } :: others
        | [] => []
      else [] }

/-- A comment to the end of its line is complete. -/
def addLineComment (gap : Gap) (promise : Option Promise) (start stop : Nat) : Gap :=
  { gap with
    sawLineEnd := true
    atLineStart := true
    promises := promise.toList ++ gap.promises
    comments :=
      if gap.sawLineEnd || gap.keepsLineComment then
        ⟨⟨start, stop⟩, promise, false, gap.atLineStart, true, 0⟩ :: gap.comments
      else [] }

/-- A closed comment is complete. -/
def addBlockComment (gap : Gap) (promise : Option Promise) (start stop : Nat) : Gap :=
  { gap with
    atLineStart := false
    promises := promise.toList ++ gap.promises
    comments := ⟨⟨start, stop⟩, promise, true, gap.atLineStart, false, 0⟩ :: gap.comments }

end Gap

/-- Where the scan of a gap stands. -/
inductive GapPlace where
  | between
  | inLine (promise : Option Promise) (start : Nat)
  | inBlock (promise : Option Promise) (start : Nat)

/-- Skip blanks and comments. A comment that is never closed is an error. -/
def skipGap : GapPlace → List Char → Nat → Gap → Option (Cursor × Gap)
  | .between, '/' :: '/' :: rest, offset, gap =>
    skipGap (.inLine (promise? (lineText rest)) offset) rest (offset + 2) gap
  | .between, '/' :: '*' :: rest, offset, gap =>
    skipGap (.inBlock (promise? rest) offset) rest (offset + 2) gap
  | .between, c :: rest, offset, gap =>
    if Literal.isLineEnd c then skipGap .between rest (offset + c.utf8Size) gap.endLine
    else if isInlineBlank c then skipGap .between rest (offset + c.utf8Size) gap
    else some (⟨c :: rest, offset⟩, gap)
  | .between, [], offset, gap => some (⟨[], offset⟩, gap)
  | .inLine promise start, c :: rest, offset, gap =>
    if Literal.isLineEnd c then
      skipGap .between rest (offset + c.utf8Size) (gap.addLineComment promise start offset).endLine
    else skipGap (.inLine promise start) rest (offset + c.utf8Size) gap
  | .inLine promise start, [], offset, gap => some (⟨[], offset⟩, gap.addLineComment promise start offset)
  | .inBlock promise start, '*' :: '/' :: rest, offset, gap =>
    skipGap .between rest (offset + 2) (gap.addBlockComment promise start (offset + 2))
  | .inBlock promise start, c :: rest, offset, gap =>
    skipGap (.inBlock promise start) rest (offset + c.utf8Size)
      (if Literal.isLineEnd c then { gap with crossesLine := true } else gap)
  | .inBlock _ _, [], _, _ => none

/-! ## Names -/

/-- The rest of a name that may hold escapes, with at most `fuel` steps. -/
def escapedName? : Nat → Cursor → List Char → Option (List Char × Cursor)
  | 0, _, _ => none
  | fuel + 1, ⟨'\\' :: 'u' :: rest, offset⟩, read => do
    let (value, after) ← Literal.codePoint? rest
    let c := Char.ofNat value
    if if read.isEmpty then Text.isNameStart c else Text.isNamePart c then
      escapedName? fuel ⟨after, offset + 2 + (rest.length - after.length)⟩ (c :: read)
    else none
  | fuel + 1, ⟨c :: rest, offset⟩, read =>
    if if read.isEmpty then Text.isNameStart c else Text.isNamePart c then
      escapedName? fuel ⟨rest, offset + c.utf8Size⟩ (c :: read)
    else if c == '\\' || read.isEmpty then none
    else some (read.reverse, ⟨c :: rest, offset⟩)
  | _ + 1, ⟨[], offset⟩, read => if read.isEmpty then none else some (read.reverse, ⟨[], offset⟩)

/-- A name, whether it holds an escape, and the cursor after it. -/
def name? (cursor : Cursor) : Option (String × Bool × Cursor) :=
  match cursor.rest with
  | [] => none
  | c :: _ =>
    if Text.isNameStart c || c == '\\' then
      let (plain, after) := Cursor.takeWhile Text.isNamePart cursor.rest cursor.offset
      if after.rest.head? == some '\\' then
        (escapedName? (cursor.rest.length + 1) cursor []).map fun (text, after) =>
          (String.ofList text, true, after)
      else some (String.ofList plain, false, after)
    else none

/-! ## Texts, templates and regular expressions -/

/-- The characters of a text up to its closing quote. -/
def quoted? (quote : Char) : List Char → Nat → List Char → Option (List Char × Cursor)
  | [], _, _ => none
  | '\\' :: '\r' :: '\n' :: rest, offset, read => quoted? quote rest (offset + 3) ('\n' :: '\r' :: '\\' :: read)
  | '\\' :: c :: rest, offset, read => quoted? quote rest (offset + 1 + c.utf8Size) (c :: '\\' :: read)
  | c :: rest, offset, read =>
    if c == quote then some (read.reverse, ⟨rest, offset + 1⟩)
    else if c == '\n' || c == '\r' then none
    else quoted? quote rest (offset + c.utf8Size) (c :: read)

/-- The quotation mark of templates. -/
def backquote : Char := Char.ofNat 96

/-- The other quotation mark of texts. -/
def apostrophe : Char := Char.ofNat 39

/-- The characters of a template part up to its closing quote or the next value; the flag tells which. -/
def templatePart? : List Char → Nat → List Char → Option (List Char × Bool × Cursor)
  | [], _, _ => none
  | '\\' :: c :: rest, offset, read => templatePart? rest (offset + 1 + c.utf8Size) (c :: '\\' :: read)
  | '$' :: '\x7b' :: rest, offset, read => some (read.reverse, false, ⟨rest, offset + 2⟩)
  | c :: rest, offset, read =>
    if c == backquote then some (read.reverse, true, ⟨rest, offset + 1⟩)
    else templatePart? rest (offset + c.utf8Size) (c :: read)

/-- Line ends of every kind become line feeds. -/
def unifyLineEnds : List Char → List Char
  | '\r' :: '\n' :: rest => '\n' :: unifyLineEnds rest
  | '\r' :: rest => '\n' :: unifyLineEnds rest
  | c :: rest => c :: unifyLineEnds rest
  | [] => []

/-- The template part after an opening quote or a closing brace. Its line ends are made alike only if its
escapes are well formed. -/
def template? (cursor : Cursor) : Option (TokenKind × Cursor) :=
  (templatePart? cursor.rest cursor.offset []).map fun (raw, isLast, after) =>
    let isWellFormed := Literal.isTemplateText raw.length raw
    (.template (String.ofList (if isWellFormed then unifyLineEnds raw else raw)) isWellFormed isLast, after)

/-- The characters of a regular expression up to its closing slash. -/
def pattern? : Bool → List Char → Nat → List Char → Option (List Char × Cursor)
  | _, [], _, _ => none
  | inClass, '\\' :: c :: rest, offset, read =>
    if Literal.isLineEnd c then none
    else pattern? inClass rest (offset + 1 + c.utf8Size) (c :: '\\' :: read)
  | inClass, c :: rest, offset, read =>
    if Literal.isLineEnd c then none
    else if c == '/' && !inClass then some (read.reverse, ⟨rest, offset + 1⟩)
    else pattern? (c == '[' || (inClass && c != ']')) rest (offset + c.utf8Size) (c :: read)

/-- Whether a list of characters has no character twice. -/
def allDistinct : List Char → Bool
  | [] => true
  | c :: rest => !rest.contains c && allDistinct rest

/-- Whether the flags of a regular expression are known and go together: none comes twice, and only one of
`u` and `v` is there. -/
def areFlags (flags : List Char) : Bool :=
  flags.all ("dgimsuvy".toList.contains ·) && allDistinct flags && !(flags.contains 'u' && flags.contains 'v')

/-- A regular expression after its opening slash: pattern, flags and the cursor after it. -/
def regex? (cursor : Cursor) : Option (String × String × Cursor) := do
  let (pattern, after) ← pattern? false cursor.rest cursor.offset []
  let (flags, after) := Cursor.takeWhile Text.isNamePart after.rest after.offset
  if areFlags flags && after.rest.head? != some '\\' then
    return (String.ofList pattern, String.ofList flags, after)
  else none

/-! ## Tokens -/

/-- The punctuation marks, each before those that begin it. A closing angle bracket stands alone: the
grammar joins it with what follows where that is an operator. -/
def marks : List String :=
  ["...", "===", "!==", "**=", "<<=", "&&=", "||=", "??=", "=>", "==", "!=", "<=", "<<", "++", "--", "+=",
    "-=", "*=", "/=", "%=", "&=", "|=", "^=", "&&", "||", "??", "?.", "**", "\x7b", "\x7d", "(", ")", "[",
    "]", ";", ",", "<", ">", "=", "!", "+", "-", "*", "/", "%", "&", "|", "^", "~", "?", ":", ".", "@"]

/-- Whether the text after a question mark with a point makes it a condition before a number. -/
def isConditionBeforeNumber : List Char → Bool
  | '?' :: '.' :: c :: _ => c.isDigit
  | _ => false

/-- The punctuation mark at a cursor. -/
def mark? (cursor : Cursor) : Option (TokenKind × Cursor) :=
  if isConditionBeforeNumber cursor.rest then some (.mark "?", cursor.skip 1)
  else (marks.find? cursor.startsWith).map fun text => (.mark text, cursor.skip text.length)

/-- Whether a character may not follow a number directly. -/
def sticksToNumber (c : Char) : Bool := Text.isNameStart c || c.isDigit || c == '\\'

/-- The number at a cursor. -/
def number? (cursor : Cursor) : Option (TokenKind × Cursor) := do
  let (numeral, width, rest) ← Literal.numeral? cursor.rest
  if (rest.head?.map sticksToNumber).getD false then none
  else
    let kind := match numeral with
      | .double value => .number value
      | .integer value => .bigint value
    return (kind, ⟨rest, cursor.offset + width⟩)

/-- The token at a cursor that stands on its first character. -/
def bare? (cursor : Cursor) : Option (TokenKind × Cursor) :=
  match cursor.rest with
  | [] => some (.finish, cursor)
  | c :: rest =>
    if c.isDigit || (c == '.' && (rest.head?.map Char.isDigit).getD false) then number? cursor
    else if c == '"' || c == apostrophe then do
      let (raw, after) ← quoted? c rest (cursor.offset + 1) []
      let (value, hasHalves) ← Literal.text? raw
      return (.text value hasHalves, after)
    else if c == backquote then template? (cursor.skip 1)
    else if c == '#' then
      (name? (cursor.skip 1)).map fun (text, _, after) => (.privateName text, after)
    else if Text.isNameStart c || c == '\\' then
      (name? cursor).map fun (text, isEscaped, after) => (.name text isEscaped, after)
    else mark? cursor

/-- Whether a line comment on the line of a token may lead the next token. -/
def keepsLineComment (kind : TokenKind) : Bool := kind == .mark "=" || kind == .mark "("

/-- The next token, the cursor on its first character and the cursor after it. Comments in the style of
markup are errors. -/
def next? (previous : Option TokenKind) (cursor : Cursor) : Option (Token × Cursor × Cursor) := do
  let gap : Gap := {
    sawLineEnd := previous.isNone
    atLineStart := previous.isNone
    crossesLine := previous.isNone
    keepsLineComment := (previous.map keepsLineComment).getD false }
  let (here, gap) ← skipGap .between cursor.rest cursor.offset gap
  if here.startsWith "<!--" || (gap.crossesLine && here.startsWith "-->") then none
  else
    let (kind, after) ← bare? here
    let comments := gap.comments.reverse.filter fun comment => comment.promise.isNone
    let comments := comments.map fun comment => { comment with leads := here.offset }
    return (⟨kind, ⟨here.offset, after.offset⟩, gap.crossesLine, comments, gap.promises⟩, here, after)

/-! ## Markup -/

/-- A name of markup, which may hold hyphens. -/
def markupName? (cursor : Cursor) : Option (String × Cursor) :=
  match cursor.rest with
  | [] => none
  | c :: _ =>
    if Text.isNameStart c then
      let (text, after) :=
        Cursor.takeWhile (fun c => Text.isNamePart c || c == '-') cursor.rest cursor.offset
      some (String.ofList text, after)
    else none

/-- The cursor after a text of markup that ends with a given quote; escapes have no meaning in it. -/
def afterMarkupText? (quote : Char) : List Char → Nat → Option Cursor
  | [], _ => none
  | c :: rest, offset =>
    if c == quote then some ⟨rest, offset + 1⟩ else afterMarkupText? quote rest (offset + c.utf8Size)

/-- The cursor after the text between two elements; it may not hold a closing brace or bracket. -/
def afterContent? : List Char → Nat → Option Cursor
  | [], offset => some ⟨[], offset⟩
  | c :: rest, offset =>
    if c == '<' || c == '\x7b' then some ⟨c :: rest, offset⟩
    else if c == '>' || c == '\x7d' then none
    else afterContent? rest (offset + c.utf8Size)

end Lexer

end Storyboard
