import Storyboard.Code.Grammar.Class
import Storyboard.Code.Grammar.Markup

/-!
# The grammar of expressions

From literals over members and calls to operators, assignments and lists of expressions. Parentheses group
and are no nodes: an expression in parentheses covers the same bytes as without them, but an expression that
begins with one covers the parenthesis too.
-/

namespace Storyboard

namespace Grammar

/-! ## Literals -/

/-- The texts and values of a template, from its opening quote on. Only a tag may take malformed
escapes. -/
def templateParts (rules : Rules) (isTagged : Bool) : Nat → Parse (List String × List Node)
  | 0 => failure
  | limit + 1 => do
    match ← kind with
    | .template raw isWellFormed isLast =>
      ensure (isTagged || isWellFormed)
      advance
      if isLast then return ([raw], [])
      else
        let value ← inside (rules .expression)
        ensure (← atMark "\x7d")
        let (kind, after) ← Lexer.template? ((← get).here.skip 1)
        retake kind after
        let (texts, values) ← templateParts rules isTagged limit
        return (raw :: texts, value :: values)
    | _ => failure

/-- A template. -/
def template (rules : Rules) : Parse Node := do
  let start ← start
  let (texts, values) ← templateParts rules false (← read).limit
  close start (.template texts values)

/-- A regular expression at a slash. -/
def regex : Parse Node := do
  let start ← start
  let (pattern, flags, after) ← Lexer.regex? ((← get).here.skip 1)
  retake (.mark "/") after
  advance
  close start (.regex pattern flags)

/-- The values of another collection. -/
def spread (rules : Rules) : Parse Node := do
  let start ← start
  expectMark "..."
  let value ← rules .assignment
  if ← atMark "," then modify fun r => { r with followed := start :: r.followed }
  close start (.spread value)

/-- An item of a list of values. -/
def listItem (rules : Rules) : Parse Node := do
  if ← atMark "..." then spread rules else rules .assignment

/-- An array after its opening bracket. -/
def array (rules : Rules) (start : Nat) : Parse Node := do
  let elements ← inside <| commaList "]" do
    if ← atMark "," then return .mk ⟨← Grammar.start, ← Grammar.start⟩ .hole else listItem rules
  close start (.array elements)

/-- Take the word `async` before a method of an object, unless the word is itself the key. -/
def asyncWord : Parse Bool := do
  if (← atWord "async") && (← peekIs fun t => !t.afterLineEnd && (beginsKey t || t.kind == .mark "*")) then
    advance
    return true
  else return false

/-- A property whose value is given by its name alone; a default makes sense only in a target. -/
def shorthand (rules : Rules) (start : Nat) (key : Node) : Parse Node := do
  let name ← shorthandName? (← read) key
  if ← eatMark "=" then
    let default ← inside (rules .assignment)
    let value ← close start (.assign "=" (.mk key.span (.targetName name)) default)
    modify fun r => { r with covers := start :: r.covers }
    close start (.property .plain key value false true false)
  else close start (.property .plain key (.mk key.span (.identifier name)) false true false)

/-- A property of an object. -/
def property (rules : Rules) : Parse Node := do
  if ← atMark "..." then spread rules
  else
    let start ← start
    let isAsync ← asyncWord
    let isGenerator ← eatMark "*"
    let kind ← if isAsync || isGenerator then pure PropertyKind.plain else accessorKind
    let (key, isComputed) ← key rules
    if (← atMark "(") || ((← read).hasTypes && (← atMark "<")) then
      let value ← methodFunction rules .plain kind isAsync isGenerator
      close start (.property kind key value (kind == .plain) false isComputed)
    else
      ensure (!isAsync && !isGenerator && kind == .plain)
      if ← eatMark ":" then
        let value ← rules .assignment
        close start (.property .plain key value false false isComputed)
      else
        ensure (!isComputed)
        shorthand rules start key

/-- An object after its opening brace. -/
def object (rules : Rules) (start : Nat) : Parse Node := do
  let properties ← inside (commaList "\x7d" (property rules))
  close start (.object properties)

/-- Note that a function stands in parentheses of its own. -/
def grouped (node : Node) : Node :=
  match node.form with
  | .function head name parameters body =>
    .mk node.span (.function { head with isGrouped := true } name parameters body)
  | .arrow head parameters body => .mk node.span (.arrow { head with isGrouped := true } parameters body)
  | _ => node

/-- An expression in parentheses. What is taken apart as a target has to be so inside them. -/
def parenthesized (rules : Rules) : Parse Node := do
  let covers := (← get).covers
  expectMark "("
  let value ← inside (rules .expression)
  expectMark ")"
  ensure ((← get).covers == covers)
  return grouped value

/-- A word that is a value of its own. -/
def wordValue (form : Form Node) : Parse Node := do
  let start ← start
  advance
  close start form

/-- An expression without operators, members and calls. -/
def primary (rules : Rules) : Parse Node := do
  let start ← start
  match ← kind with
  | .number value => wordValue (.number value)
  | .bigint value => wordValue (.bigint value)
  | .text value hasHalves => wordValue (.string value hasHalves)
  | .template _ _ _ => template rules
  | .mark "(" => parenthesized rules
  | .mark "[" =>
    advance
    array rules start
  | .mark "\x7b" =>
    advance
    object rules start
  | .mark "/" => regex
  | .mark "/=" => regex
  | .mark "@" => classNode rules .expression
  | .name "this" false => wordValue .this
  | .name "null" false => wordValue .nothing
  | .name "true" false => wordValue (.boolean true)
  | .name "false" false => wordValue (.boolean false)
  | .name "class" false => classNode rules .expression
  | .name _ _ => if ← atFunction then function rules .expression false else identifierNode
  | _ => failure

/-! ## Members and calls -/

/-- The arguments of a call with their parentheses. -/
def callArguments (rules : Rules) : Parse (List Node) := do
  expectMark "("
  inside (commaList ")" (listItem rules))

/-- A computed key after its opening bracket. -/
def computedKey (rules : Rules) : Parse Node := do
  let key ← inside (rules .expression)
  expectMark "]"
  return key

/-- An expression so far, and whether it can stop early at a missing value. -/
structure Access where
  /-- The expression. -/
  node : Node
  /-- Whether a part of it is optional. -/
  inChain : Bool := false

/-- A member by name, which may be private. -/
def namedMember (start : Nat) (access : Access) (isOptional : Bool) : Parse Access := do
  let inChain := access.inChain || isOptional
  match ← kind with
  | .privateName text =>
    advance
    return ⟨← close start (.privateMember access.node isOptional text), inChain⟩
  | _ =>
    let name ← anyName
    return ⟨← close start (.member access.node isOptional name), inChain⟩

/-- Reserved words that begin expressions. -/
def reservedExpressionWords : List String :=
  ["this", "super", "null", "true", "false", "function", "class", "new", "import", "typeof", "void", "delete"]

/-- Whether a token can begin an expression. -/
def beginsExpression (token : Token) : Bool :=
  match token.kind with
  | .name text _ => reservedExpressionWords.contains text || !reservedWords.contains text
  | .mark text => ["(", "[", "\x7b", "/", "/=", "+", "-", "~", "!", "++", "--", "<", "@"].contains text
  | .finish => false
  | _ => true

/-- Whether a token is an operator between two operands, or a word that gives an expression a type. -/
def isOperator (token : Token) : Bool :=
  match token.kind with
  | .mark text => (BinaryOperator.ofSymbol? text).isSome
  | .name text false =>
    (BinaryOperator.ofSymbol? text).isSome || text == "as" || text == "satisfies"
  | _ => false

/-- Whether a token shows that the angle brackets before it hold types: they are called, or no operand can
follow them. -/
def endsTypes (token : Token) : Bool :=
  match token.kind with
  | .template _ _ _ => true
  | .mark text =>
    if text == "(" then true
    else if text.startsWith ">" || ["<", "+", "-"].contains text then false
    else token.afterLineEnd || isOperator token || !beginsExpression token
  | _ => token.afterLineEnd || isOperator token || !beginsExpression token

/-- Whether the angle bracket before the place makes a comparison together with an equals sign. -/
def comparesAfterAngle : Parse Bool := do
  return (← start) == (← lastStop) && (← get).here.startsWith "="

/-- The types that an expression is applied to. -/
def callTypes : Parse (List TypeExpr) := do
  if (← read).hasTypes && ((← atMark "<") || (← atMark "<<")) then
    let typed : Parse (List TypeExpr) := do
      let _ ← eatAngle
      let types ← withTypes fun types => angledList (types .full)
      ensure (!(← comparesAfterAngle) && endsTypes (← token))
      return types
    return (← attempt typed).getD []
  else return []

/-- A member or call that is skipped when there is nothing to take it from. -/
def optionalAccess (rules : Rules) (start : Nat) (access : Access) : Parse Access := do
  let types ← callTypes
  if ← atMark "(" then
    let arguments ← callArguments rules
    return ⟨← close start (.call { isOptional := true, types } access.node arguments), true⟩
  else
    ensure types.isEmpty
    if ← eatMark "[" then
      let key ← computedKey rules
      return ⟨← close start (.index access.node true key), true⟩
    else namedMember start access true

/-- The rest of a tagged template. -/
def tagged (rules : Rules) (start : Nat) (access : Access) (types : List TypeExpr) : Parse Access := do
  ensure (!access.inChain)
  let (texts, values) ← templateParts rules true (← read).limit
  return ⟨← close start (.tagged access.node types texts values), false⟩

/-- The rest of a call. -/
def called (rules : Rules) (start : Nat) (access : Access) (types : List TypeExpr) : Parse Access := do
  let arguments ← callArguments rules
  return ⟨← close start (.call { types } access.node arguments), access.inChain⟩

/-- Extend an expression by the types it is applied to, if there are any. -/
def appliedStep (rules : Rules) (start : Nat) (access : Access) : Parse (Option Access) := do
  match ← callTypes with
  | [] => return none
  | types =>
    match ← kind with
    | .template _ _ _ => some <$> tagged rules start access types
    | .mark "(" => some <$> called rules start access types
    | _ => return some ⟨← close start (.typed (.instantiated types) access.node), access.inChain⟩

/-- Extend an expression by one member, call or tag. -/
def accessStep (rules : Rules) (start : Nat) (allowsCalls : Bool) (access : Access) :
    Parse (Option Access) := do
  match ← kind with
  | .mark "." =>
    advance
    some <$> namedMember start access false
  | .mark "?." =>
    ensure allowsCalls
    advance
    some <$> optionalAccess rules start access
  | .mark "[" =>
    if (← read).inDecorator then return none
    else
      advance
      let key ← computedKey rules
      return some ⟨← close start (.index access.node false key), access.inChain⟩
  | .template _ _ _ => some <$> tagged rules start access []
  | .mark "(" => if allowsCalls then some <$> called rules start access [] else return none
  | .mark "<" => if allowsCalls then appliedStep rules start access else return none
  | .mark "<<" => if allowsCalls then appliedStep rules start access else return none
  | .mark "!" =>
    if (← read).hasTypes && !(← afterLineEnd) then
      advance
      return some ⟨← close start (.typed .notNull access.node), access.inChain⟩
    else return none
  | _ => return none

/-- A reference to the class above, which has to be called or taken a member of. -/
def superclass : Parse Node := do
  let node ← wordValue .superclass
  ensure ((← atMark "(") || (← atMark ".") || (← atMark "["))
  return node

/-- A call of `import` after the word and its phase. -/
def importCall (rules : Rules) (start : Nat) (phase : Option String) : Parse Node := do
  expectMark "("
  let arguments ← inside (commaList ")" (rules .assignment))
  match arguments with
  | [source] => close start (.importCall phase source none)
  | [source, options] => close start (.importCall phase source (some options))
  | _ => failure

/-- An expression that begins with `import`. -/
def importExpression (rules : Rules) : Parse Node := do
  let start ← start
  expectWord "import"
  if ← eatMark "." then
    match ← kind with
    | .name "meta" false =>
      advance
      close start (.metaProperty "import" "meta")
    | .name "source" false =>
      advance
      importCall rules start (some "source")
    | .name "defer" false =>
      advance
      importCall rules start (some "defer")
    | _ => failure
  else importCall rules start none

/-- What `new` is called on, before its arguments. -/
def constructed (rules : Rules) : Parse Node := do
  let start ← start
  let base ← match ← kind with
    | .name "new" false => rules .construct
    | .name "super" false => superclass
    | .name "import" false => do
      let node ← importExpression rules
      match node.form with
      | .metaProperty _ _ => pure node
      | _ => failure
    | _ => primary rules
  let access ← extend (accessStep rules start false) { node := base }
  return access.node

/-- An expression that begins with `new`. -/
def construct (rules : Rules) : Parse Node := do
  let start ← start
  expectWord "new"
  if ← eatMark "." then
    expectWord "target"
    close start (.metaProperty "new" "target")
  else
    let callee ← constructed rules
    ensure (!(← atMark "?."))
    let types ← callTypes
    let arguments ← if ← atMark "(" then callArguments rules else pure []
    close start (.construct { types } callee arguments)

/-- An expression that can be called or written to. -/
def leftSide (rules : Rules) : Parse Node := do
  let start ← start
  let base ← match ← kind with
    | .name "super" false => superclass
    | .name "import" false => importExpression rules
    | .name "new" false => construct rules
    | _ => primary rules
  let access ← extend (accessStep rules start true) { node := base }
  if access.inChain then
    match access.node.form with
    | .typed (.instantiated types) applied =>
      let chain : Node := .mk applied.span (.chain applied)
      return .mk access.node.span (.typed (.instantiated types) chain)
    | _ => close start (.chain access.node)
  else return access.node

/-! ## Operators -/

/-- Join a closing angle bracket with the marks that follow it directly. -/
def joinAngles : Parse Unit := do
  if ← atMark ">" then
    let here := (← get).here
    match [">>>=", ">>>", ">>=", ">>", ">="].find? here.startsWith with
    | some text => retake (.mark text) (here.skip text.length)
    | none => pure ()
  else pure ()

/-- Whether a value is waited for at the place. -/
def atAwait : Parse Bool := do
  if ← atWord "await" then
    if (← read).awaits then return true else peekIs isPlainOperand
  else return false

/-- An operand with an increment or decrement after it. -/
def postfixed (rules : Rules) : Parse Node := do
  let start ← start
  let node ← leftSide rules
  if ((← atMark "++") || (← atMark "--")) && !(← afterLineEnd) then
    let increments ← atMark "++"
    let target ← simpleTarget node
    advance
    close start (.update increments false target)
  else return node

/-- The operator before one operand that stands at the place. -/
def unaryOperator? (kind : TokenKind) : Option UnaryOperator :=
  match kind with
  | .mark text => UnaryOperator.ofSymbol? text
  | .name text false => UnaryOperator.ofSymbol? text
  | _ => none

/-- An operand with the operators before it. -/
def unary (rules : Rules) : Parse Node := do
  let start ← start
  match unaryOperator? (← kind) with
  | some op =>
    advance
    let operand ← rules .unary
    close start (.unary op operand)
  | none =>
    if (← atMark "++") || (← atMark "--") then
      let increments ← atMark "++"
      advance
      let target ← simpleTarget (← rules .unary)
      close start (.update increments true target)
    else if ← atAwait then
      ensure (← read).awaits
      advance
      let value ← rules .unary
      close start (.awaited value)
    else if (← read).hasMarkup && (← atMark "<") then
      let node ← rules .markup
      advance
      return node
    else if (← read).hasTypes && (← atMark "<") then
      advance
      let type ← givenType
      expectMark ">"
      let value ← rules .unary
      close start (.typed (.assertion type) value)
    else postfixed rules

/-- The operator between two operands that stands at the place. -/
def binaryOperator? (kind : TokenKind) (allowsIn : Bool) : Option BinaryOperator :=
  match kind with
  | .mark text => BinaryOperator.ofSymbol? text
  | .name text false =>
    match BinaryOperator.ofSymbol? text with
    | some op => if op == .isIn && !allowsIn then none else some op
    | none => none
  | _ => none

/-- Whether a node joins two operands by `&&` or `||`. -/
def isAndOr (node : Node) : Bool :=
  match node.form with
  | .binary .and _ _ => true
  | .binary .or _ _ => true
  | _ => false

/-- Whether a node joins two operands by an operator that evaluates the second only when it has to. -/
def isLogical (node : Node) : Bool :=
  match node.form with
  | .binary op _ _ => op.isLogical
  | _ => false

/-- Whether a node is an operand with an operator before it. -/
def isPrefixed (node : Node) : Bool :=
  match node.form with
  | .unary _ _ => true
  | .awaited _ => true
  | _ => false

/-- Whether `??` may join two operands: neither may be a bare `&&` or `||`. The flags tell which operand
begins with a parenthesis. -/
def canCoalesce (left right : Node) (leftGrouped rightGrouped : Bool) : Bool :=
  if isLogical right then rightGrouped || !isAndOr right
  else leftGrouped || !isAndOr left

/-- Whether an operator at the place goes on after operators of a given precedence. -/
def bindsTighter (op : BinaryOperator) (precedence : Nat) : Bool :=
  if op == .power then precedence ≤ op.precedence else precedence < op.precedence

/-- How tightly the words that give an expression a type bind. -/
def typeWordPrecedence : Nat := 13

/-- An expression with a type after it, if there is one. -/
def typedStep (start precedence : Nat) (left : Node) : Parse (Option Node) := do
  if (← read).hasTypes && precedence < typeWordPrecedence && !(← afterLineEnd) then
    match ← kind with
    | .name "as" false =>
      advance
      let type ← givenType
      return some (← close start (.typed (.as type) left))
    | .name "satisfies" false =>
      advance
      let type ← withTypes fun types => types .full
      return some (← close start (.typed (.satisfies type) left))
    | _ => return none
  else return none

/-- Extend a left operand by one operator and its right operand. -/
def binaryStep (rules : Rules) (start precedence : Nat) (leftGrouped : Bool) (left : Node) :
    Parse (Option Node) := do
  joinAngles
  match ← typedStep start precedence left with
  | some node => return some node
  | none =>
    match binaryOperator? (← kind) (← read).allowsIn with
    | none => return none
    | some op =>
      if bindsTighter op precedence then
        advance
        let rightGrouped ← atMark "("
        let right ← rules (.operand op.precedence)
        ensure (op != .coalesce || canCoalesce left right leftGrouped rightGrouped)
        ensure (op != .power || leftGrouped || !isPrefixed left)
        return some (← close start (.binary op left right))
      else return none

/-- Whether a node looks for a private name in an object. -/
def isPrivateIn (node : Node) : Bool :=
  match node.form with
  | .privateIn _ _ => true
  | _ => false

/-- A private name that is looked for in an object, which may not be found by looking for another one. -/
def privateIn (rules : Rules) (start : Nat) (name : String) : Parse Node := do
  advance
  expectWord "in"
  let object ← rules (.operand BinaryOperator.isIn.precedence)
  ensure !(isPrivateIn object)
  close start (.privateIn name object)

/-- Note the promise that a call has no effect but its result; it is about the call that the expression begins
with. -/
def promisePure : Node → Node
  | .mk span (.call head callee arguments) => .mk span (.call { head with isPure := true } callee arguments)
  | .mk span (.construct head callee arguments) =>
    .mk span (.construct { head with isPure := true } callee arguments)
  | .mk span (.binary op left right) => .mk span (.binary op (promisePure left) right)
  | .mk span (.conditional test yes no) => .mk span (.conditional (promisePure test) yes no)
  | .mk span (.chain (.mk inner (.call head callee arguments))) =>
    .mk span (.chain (.mk inner (.call { head with isPure := true } callee arguments)))
  | node => node

/-- An operand of operators that bind more tightly than a given precedence. -/
def operand (rules : Rules) (precedence : Nat) : Parse Node := do
  let start ← start
  let promises := (← token).promises
  let leftGrouped ← atMark "("
  let left ← match ← kind with
    | .privateName name =>
      ensure (← read).allowsIn
      privateIn rules start name
    | _ => unary rules
  let left := if promises.contains .pure then promisePure left else left
  extend (binaryStep rules start precedence leftGrouped) left

/-! ## Assignments -/

/-- Whether a generator gives a value at the place. -/
def atYield : Parse Bool := do
  if ← atWord "yield" then
    if (← read).yields then return true else peekIs isPlainOperand
  else return false

/-- Whether a token can not begin a value that a generator gives. -/
def endsYield (kind : TokenKind) : Bool :=
  match kind with
  | .mark text => [")", "]", "\x7d", ",", ";", ":"].contains text
  | .name "in" false => true
  | .name "of" false => true
  | .finish => true
  | _ => false

/-- A value that a generator gives. -/
def yielded (rules : Rules) : Parse Node := do
  let start ← start
  ensure (← read).yields
  advance
  if ← afterLineEnd then close start (.yielded false none)
  else if ← eatMark "*" then
    let value ← rules .assignment
    close start (.yielded true (some value))
  else if endsYield (← kind) then close start (.yielded false none)
  else
    let value ← rules .assignment
    close start (.yielded false (some value))

/-- The assignment operator at the place. -/
def assignmentOperator? (kind : TokenKind) : Option String :=
  match kind with
  | .mark text => if assignmentSymbols.contains text then some text else none
  | _ => none

/-- A choice between two values, after its test. -/
def conditionalRest (rules : Rules) (start : Nat) (test : Node) : Parse Node := do
  if ← eatMark "?" then
    let yes ← withReader (fun mode => { mode with allowsIn := true, allowsResult := false })
      (rules .assignment)
    expectMark ":"
    let no ← rules .assignment
    close start (.conditional test yes no)
  else return test

/-- Whether a node is an identifier. -/
def isIdentifierNode (node : Node) : Bool :=
  match node.form with
  | .identifier _ => true
  | _ => false

/-- An expression without commas that is no arrow function in parentheses. -/
def plainAssignment (rules : Rules) : Parse Node := do
  let start ← start
  let left ← operand rules 0
  if isIdentifierNode left && (← atMark "=>") then
    let parameter ← loneParameter left
    arrowRest rules start {} [parameter]
  else
    match assignmentOperator? (← kind) with
    | some op =>
      let target ← target left
      advance
      let value ← rules .assignment
      close start (.assign op target value)
    | none => conditionalRest rules start left

/-- An expression without commas, apart from what a comment promises about it. -/
def unmarkedAssignment (rules : Rules) : Parse Node := do
  if ← atYield then yielded rules
  else
    match ← parenthesizedArrow rules with
    | some node => return node
    | none =>
      match ← asyncLoneArrow rules with
      | some node => return node
      | none => plainAssignment rules

/-- Note the promise that calls of a function have no effect but their results. -/
def promiseHarmless (node : Node) : Node :=
  match node.form with
  | .function head name parameters body =>
    .mk node.span (.function { head with isPure := true } name parameters body)
  | .arrow head parameters body => .mk node.span (.arrow { head with isPure := true } parameters body)
  | _ => node

/-- An expression without commas. -/
def assignment (rules : Rules) : Parse Node := do
  let promises := (← token).promises
  let node ← unmarkedAssignment rules
  return if promises.contains .noSideEffects then promiseHarmless node else node

/-- An expression. -/
def expression (rules : Rules) : Parse Node := do
  let start ← start
  let first ← rules .assignment
  if ← atMark "," then
    let others ← collect do
      if ← eatMark "," then return some (← rules .assignment) else return none
    close start (.sequence (first :: others))
  else return first

end Grammar

end Storyboard
