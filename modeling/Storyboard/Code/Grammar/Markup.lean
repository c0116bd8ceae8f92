import Storyboard.Code.Grammar.Pattern

/-!
# The grammar of markup

Elements with attributes and content. A rule for an element leaves the reader on its last bracket, since
only the place of the element tells whether code or content follows.
-/

namespace Storyboard

namespace Grammar

/-- A name inside markup at the place. -/
def markupPart : Parse String := do
  let (text, after) ← Lexer.markupName? (← get).here
  retake (.name text false) after
  advance
  return text

/-- Whether a name stands for an element of its own and not for a value. -/
def isElementName (name : String) : Bool :=
  name.contains '-' || (name.toList.head?.map Char.isLower).getD false

/-- The name of an element: plain, with a namespace, or a member of a value. -/
def elementName : Parse Node := do
  let start ← start
  let first ← markupPart
  if ← eatMark ":" then
    let second ← markupPart
    close start (.jsxName (first ++ ":" ++ second))
  else if ← atMark "." then
    ensure (!first.contains '-')
    let base ← close start (.jsxReference first)
    extend (fun object => do
      if ← eatMark "." then
        let property ← markupPart
        ensure (!property.contains '-')
        return some (← close start (.jsxMember object property))
      else return none) base
  else if isElementName first then close start (.jsxName first)
  else close start (.jsxReference first)

/-- How the name of an element is written, for names nested at most `depth` deep. -/
def elementNameText : Nat → Node → String
  | 0, _ => ""
  | depth + 1, node =>
    match node.form with
    | .jsxName name => name
    | .jsxReference name => name
    | .jsxMember object property => elementNameText depth object ++ "." ++ property
    | _ => ""

/-- An expression between braces. The reader stays on the closing brace. -/
def bracedExpression (rules : Rules) : Parse Node := do
  let value ← rules .expression
  ensure (← atMark "\x7d")
  return value

/-- The node of a form from an offset up to the end of the token at the place. -/
def closeHere (start : Nat) (form : Form Node) : Parse Node :=
  return .mk ⟨start, (← token).span.stop⟩ form

/-- The attributes of another value. -/
def spreadAttribute (rules : Rules) : Parse Node := do
  let start ← start
  expectMark "\x7b"
  expectMark "..."
  let value ← bracedExpression rules
  advance
  close start (.jsxSpread value)

/-- The value of an attribute, from its equals sign on. -/
def attributeValue (rules : Rules) : Parse Node := do
  let r ← get
  let (cursor, _) ← Lexer.skipGap .between r.after.rest r.after.offset {}
  match cursor.rest with
  | [] => failure
  | c :: rest =>
    if c == '"' || c == Lexer.apostrophe then
      let after ← Lexer.afterMarkupText? c rest (cursor.offset + 1)
      moveTo (.text "" false) after after.offset
      close cursor.offset .jsxString
    else
      advance
      let start ← start
      if ← eatMark "\x7b" then
        let value ← bracedExpression rules
        advance
        close start (.jsxContainer (some value))
      else
        let element ← rules .markup
        advance
        return element

/-- An attribute. -/
def elementAttribute (rules : Rules) : Parse Node := do
  if ← atMark "\x7b" then spreadAttribute rules
  else
    let start ← start
    let first ← markupPart
    let name ← if ← eatMark ":" then do
        let second ← markupPart
        pure (first ++ ":" ++ second)
      else pure first
    let value ← if ← atMark "=" then some <$> attributeValue rules else pure none
    close start (.jsxAttribute name value)

/-- Attributes up to the end of a tag. -/
def attributes (rules : Rules) : Parse (List Node) :=
  collect do
    if (← atMark "/") || (← atMark ">") then return none else return some (← elementAttribute rules)

/-- A value in the content of an element. The reader stays on the closing brace. -/
def contentValue (rules : Rules) : Parse Node := do
  let start ← start
  expectMark "\x7b"
  if ← atMark "\x7d" then closeHere start (.jsxContainer none)
  else if ← eatMark "..." then
    let value ← bracedExpression rules
    closeHere start (.jsxSpread value)
  else
    let value ← bracedExpression rules
    closeHere start (.jsxContainer (some value))

/-- Content up to the closing tag; the reader moves from the end of the opening tag to the slash of the
closing one. -/
def contentUpTo (rules : Rules) : Nat → Parse (List Node)
  | 0 => failure
  | limit + 1 => do
    let r ← get
    let from_ := r.after
    let cursor ← Lexer.afterContent? from_.rest from_.offset
    let text : List Node :=
      if cursor.offset == from_.offset then [] else [.mk ⟨from_.offset, cursor.offset⟩ .jsxText]
    moveTo (.text "" false) cursor cursor.offset
    if ← atMark "\x7b" then
      let value ← contentValue rules
      return text ++ value :: (← contentUpTo rules limit)
    else if ← peekIs fun t => t.kind == .mark "/" then
      expectMark "<"
      return text
    else
      let element ← rules .markup
      return text ++ element :: (← contentUpTo rules limit)

/-- Content and the closing tag, which has to repeat the name. The reader stays on the last bracket. -/
def contentAndClosing (rules : Rules) (name : Option Node) : Parse (List Node) := do
  let content ← contentUpTo rules (← read).limit
  expectMark "/"
  match name with
  | none => pure ()
  | some name =>
    let closing ← elementName
    let limit := (← read).limit
    ensure (elementNameText limit closing == elementNameText limit name)
  ensure (← atMark ">")
  return content

/-- An element or a fragment. The reader stays on the last bracket. -/
def element (rules : Rules) : Parse Node := do
  let start ← start
  expectMark "<"
  if ← atMark ">" then
    let content ← contentAndClosing rules none
    closeHere start (.jsxFragment content)
  else
    let name ← elementName
    let attributes ← attributes rules
    if ← eatMark "/" then
      ensure (← atMark ">")
      closeHere start (.jsxElement name attributes [])
    else
      ensure (← atMark ">")
      let content ← contentAndClosing rules (some name)
      closeHere start (.jsxElement name attributes content)

end Grammar

end Storyboard
