import Storyboard.Code.Token

/-!
# Reading by a grammar

The rules of the grammar read tokens from a source and build nodes. A rule either succeeds, leaving the
reader behind what it read, or fails; a failure that no other rule takes up means that the source is not
well formed. Rules call each other through goals, so that the depth of the recursion is one number.
-/

namespace Storyboard

namespace Grammar

/-- What the surroundings of a place allow. -/
structure Mode where
  /-- Whether markup is an expression. -/
  hasMarkup : Bool
  /-- Whether types may be written. -/
  hasTypes : Bool
  /-- Whether the place is inside a generator. -/
  yields : Bool := false
  /-- Whether the place may wait for a value. -/
  awaits : Bool := true
  /-- Whether the place is inside a function body. -/
  returns : Bool := false
  /-- Whether `in` is an operator here. -/
  allowsIn : Bool := true
  /-- Whether a parameter list may be followed by the type of a result. -/
  allowsResult : Bool := true
  /-- Whether the place only describes what is defined elsewhere. -/
  isAmbient : Bool := false
  /-- Whether the place is inside a decorator, where a bracket ends an expression. -/
  inDecorator : Bool := false
  /-- A bound on the number of items of any list. -/
  limit : Nat

/-- Where the reader stands. -/
structure Reading where
  /-- The token at the place. -/
  token : Token
  /-- The cursor on the first character of the token. -/
  here : Cursor
  /-- The cursor after the token. -/
  after : Cursor
  /-- Where the token before it ends. -/
  lastStop : Nat
  /-- The comments read so far, the last first. -/
  comments : List Comment
  /-- Where shorthand properties with a default stand that are not yet part of a target. -/
  covers : List Nat
  /-- Where spread values begin that a comma follows, so that they can not be the rest of a target. -/
  followed : List Nat

end Grammar

/-- A rule of the grammar. -/
abbrev Parse := ReaderT Grammar.Mode (StateT Grammar.Reading Option)

namespace Grammar

/-- What a rule is asked for by another one. -/
inductive Goal where
  /-- An expression without commas. -/
  | assignment
  /-- An expression. -/
  | expression
  /-- An operand of operators that bind more tightly than the given number. -/
  | operand (precedence : Nat)
  /-- An operand with the operators before it. -/
  | unary
  /-- An expression that can be called or written to. -/
  | leftSide
  /-- What follows the word `new`. -/
  | construct
  /-- A pattern. -/
  | pattern
  /-- A statement, which may have to stand alone. -/
  | statement (isSingle : Bool)
  /-- An element of markup. -/
  | markup

/-- How rules call each other. -/
abbrev Rules := Goal → Parse Node

/-! ## Looking at tokens -/

/-- The token at the place. -/
def token : Parse Token := return (← get).token

/-- What the token at the place is. -/
def kind : Parse TokenKind := return (← get).token.kind

/-- Where the token at the place begins. -/
def start : Parse Nat := return (← get).token.span.start

/-- Where the last token ended. -/
def lastStop : Parse Nat := return (← get).lastStop

/-- Fail unless a condition holds. -/
def ensure (condition : Bool) : Parse Unit := if condition then pure () else failure

/-- Whether the token at the place is a given mark. -/
def atMark (text : String) : Parse Bool := return (← kind) == .mark text

/-- Whether the token at the place is a given word. -/
def atWord (text : String) : Parse Bool := return (← kind) == .name text false

/-- Whether a line ends before the token at the place. -/
def afterLineEnd : Parse Bool := return (← token).afterLineEnd

/-! ## Moving on -/

/-- Move to the token that a scanner finds at a cursor. -/
def moveTo (previous : TokenKind) (cursor : Cursor) (lastStop : Nat) : Parse Unit := do
  let (token, here, after) ← Lexer.next? (some previous) cursor
  modify fun r => { r with
    token, here, after, lastStop
    comments := token.comments.reverse ++ r.comments }

/-- Move to the next token. -/
def advance : Parse Unit := do
  let r ← get
  moveTo r.token.kind r.after r.token.span.stop

/-- Replace the token at the place by another reading of it, which ends at a cursor. -/
def retake (kind : TokenKind) (after : Cursor) : Parse Unit :=
  modify fun r => { r with
    token := { r.token with kind, span := ⟨r.token.span.start, after.offset⟩ }
    after }

/-- Try a rule; if it fails nothing has happened. -/
def attempt {α : Type} (rule : Parse α) : Parse (Option α) := fun mode reading =>
  match rule mode reading with
  | some (value, next) => some (some value, next)
  | none => some (none, reading)

/-- What a rule would find, without moving. -/
def lookAhead {α : Type} (rule : Parse α) : Parse (Option α) := fun mode reading =>
  match rule mode reading with
  | some (value, _) => some (some value, reading)
  | none => some (none, reading)

/-- The token after the one at the place. -/
def peek : Parse (Option Token) := lookAhead do
  advance
  token

/-- Whether the token after the one at the place satisfies a condition. -/
def peekIs (condition : Token → Bool) : Parse Bool := return ((← peek).map condition).getD false

/-- Take a mark if it is there. -/
def eatMark (text : String) : Parse Bool := do
  if ← atMark text then
    advance
    return true
  else return false

/-- Take a word if it is there. -/
def eatWord (text : String) : Parse Bool := do
  if ← atWord text then
    advance
    return true
  else return false

/-- Take a mark that has to be there. -/
def expectMark (text : String) : Parse Unit := do ensure (← eatMark text)

/-- Take an opening angle bracket if it is there, also one that begins a longer mark. -/
def eatAngle : Parse Bool := do
  if (← get).here.startsWith "<" then
    retake (.mark "<") ((← get).here.skip 1)
    advance
    return true
  else return false

/-- Take a word that has to be there. -/
def expectWord (text : String) : Parse Unit := do ensure (← eatWord text)

/-- The node of a form from an offset up to the last token. -/
def close (start : Nat) (form : Form Node) : Parse Node := return .mk ⟨start, ← lastStop⟩ form

/-- Where a statement may end: before a closing brace, at the end of a line or of the source. -/
def canEndStatement : Parse Bool := do
  let token ← token
  return token.kind == .mark ";" || token.kind == .mark "\x7d" || token.kind == .finish ||
    token.afterLineEnd

/-- End a statement; its semicolon may be left out where a statement may end. -/
def endStatement : Parse Unit := do
  ensure (← canEndStatement)
  let _ ← eatMark ";"

/-! ## Lists -/

/-- Repeat a rule as long as it gives something. -/
def collectUpTo {α : Type} (item : Parse (Option α)) : Nat → Parse (List α)
  | 0 => failure
  | limit + 1 => do
    match ← item with
    | some value => return value :: (← collectUpTo item limit)
    | none => return []

/-- Repeat a rule as long as it gives something. -/
def collect {α : Type} (item : Parse (Option α)) : Parse (List α) := do
  collectUpTo item (← read).limit

/-- Extend a value as long as a rule can. -/
def extendUpTo {α : Type} (step : α → Parse (Option α)) : Nat → α → Parse α
  | 0, _ => failure
  | limit + 1, value => do
    match ← step value with
    | some next => extendUpTo step limit next
    | none => return value

/-- Extend a value as long as a rule can. -/
def extend {α : Type} (step : α → Parse (Option α)) (value : α) : Parse α := do
  extendUpTo step (← read).limit value

/-- Items up to a closing mark, which is taken. -/
def itemsUntil {α : Type} (closing : String) (item : Parse α) : Parse (List α) :=
  collect do
    if ← eatMark closing then return none
    else return some (← item)

/-- Items with commas between them up to a closing mark, which is taken. A comma may follow the last
item. -/
def commaList {α : Type} (closing : String) (item : Parse α) : Parse (List α) :=
  collect do
    if ← eatMark closing then return none
    else
      let value ← item
      unless ← eatMark "," do ensure (← atMark closing)
      return some value

/-- At least one item, with commas between them. -/
def commaSeparated {α : Type} (item : Parse α) : Parse (List α) := do
  let first ← item
  let others ← collect do
    if ← eatMark "," then return some (← item) else return none
  return first :: others

/-! ## Names -/

/-- Words that are never identifiers. -/
def reservedWords : List String :=
  ["break", "case", "catch", "class", "const", "continue", "debugger", "default", "delete", "do", "else",
    "enum", "export", "extends", "false", "finally", "for", "function", "if", "import", "in", "instanceof",
    "new", "null", "return", "super", "switch", "this", "throw", "true", "try", "typeof", "var", "void",
    "while", "with"]

/-- Whether a name can be an identifier where the mode is as given. -/
def isIdentifier (mode : Mode) (name : String) : Bool :=
  !reservedWords.contains name && !(mode.awaits && name == "await") && !(mode.yields && name == "yield")

/-- Whether the token at the place is an identifier. -/
def atIdentifier : Parse Bool := do
  match ← kind with
  | .name text _ => return isIdentifier (← read) text
  | _ => return false

/-- An identifier. -/
def identifierName : Parse String := do
  match ← kind with
  | .name text _ =>
    ensure (isIdentifier (← read) text)
    advance
    return text
  | _ => failure

/-- A name, which may be any word. -/
def anyName : Parse String := do
  match ← kind with
  | .name text _ =>
    advance
    return text
  | _ => failure

/-- An identifier that is read. -/
def identifierNode : Parse Node := do
  let start ← start
  let name ← identifierName
  close start (.identifier name)

/-- An identifier that is declared. -/
def bindingNode : Parse Node := do
  let start ← start
  let name ← identifierName
  close start (.binding name)

/-- The characters of a number at the place. -/
def writtenNumber : Parse String := do
  let r ← get
  return String.ofList (r.here.rest.take (r.token.span.stop - r.token.span.start))

/-- A text. -/
def textValue : Parse String := do
  match ← kind with
  | .text value _ =>
    advance
    return value
  | _ => failure

/-- Whether a token can be an operand that follows a word on its line: a name, a text or a number. -/
def isPlainOperand (token : Token) : Bool :=
  !token.afterLineEnd &&
    match token.kind with
    | .name _ _ => true
    | .number _ => true
    | .bigint _ => true
    | .text _ _ => true
    | _ => false

end Grammar

end Storyboard
