import Storyboard.Code.Grammar.Expression

/-!
# The grammar of statements

Declarations of variables, blocks, branches, loops and jumps. A statement that stands alone, such as the
branch of a condition, may not declare names of its block.
-/

namespace Storyboard

namespace Grammar

/-! ## Variables -/

/-- Whether variables hold something that is released at the end of their block. -/
def isResource : VariableKind → Bool
  | .resource => true
  | .asyncResource => true
  | _ => false

/-- Whether a declaration has to give a value to what it declares. -/
def needsValue (kind : VariableKind) (pattern : Node) : Bool :=
  !isBinding pattern || kind == .constant || isResource kind

/-- The mark in a typed module that a variable has a value though none is given. -/
def definiteMark : Parse Bool := do
  if (← read).hasTypes && !(← afterLineEnd) then eatMark "!" else return false

/-- A declared pattern with its value. -/
def declarator (rules : Rules) : Parse Node := do
  let start ← start
  let pattern ← rules .pattern
  let isDefinite ← definiteMark
  let type ← declaredType
  let value ← if ← eatMark "=" then some <$> rules .assignment else pure none
  ensure (!isDefinite || (type.isSome && value.isNone))
  close start (.declarator { mark := if isDefinite then "!" else "", type } pattern value)

/-- Whether a declarator declares a single name. -/
def declaresName (node : Node) : Bool :=
  match node.form with
  | .declarator _ pattern _ => isBinding pattern
  | _ => false

/-- Whether every declared pattern has the value it needs. -/
def hasValues (kind : VariableKind) (declarators : List Node) : Bool :=
  declarators.all fun node =>
    match node.form with
    | .declarator _ pattern value => value.isSome || !needsValue kind pattern
    | _ => false

/-- Whether a token is an identifier on the same line. -/
def isNameOnLine (token : Token) : Bool :=
  !token.afterLineEnd &&
    match token.kind with
    | .name text _ => !reservedWords.contains text
    | _ => false

/-- Whether the token after the place is an identifier on the same line. -/
def peekName : Parse Bool := peekIs isNameOnLine

/-- Whether the word `of` after the place is a name that a loop head declares: more of the declaration has to
follow it. -/
def declaresOf : Parse Bool := do
  let follows : Parse Bool := do
    advance
    ensure (← atWord "of")
    peekIs fun t => t.kind == .mark "=" || t.kind == .mark ";" || t.kind == .mark ":"
  return (← lookAhead follows).getD true

/-- The words of a declaration of variables at the place, which are taken; `let` has been checked to be
such a word. -/
def variableKind (inLoopHead : Bool) : Parse (Option VariableKind) := do
  if ← eatWord "var" then return some .var
  else if ← eatWord "const" then return some .constant
  else if ← eatWord "let" then return some .lexical
  else if (← atWord "using") && (← peekName) && (!inLoopHead || (← declaresOf)) then
    advance
    return some .resource
  else if ← atWord "await" then
    let words : Parse Unit := do
      advance
      ensure ((← atWord "using") && !(← afterLineEnd) && (← peekName))
      advance
    return (← attempt words).map fun _ => .asyncResource
  else return none

/-- The names and values of a declaration of variables. -/
def variableList (rules : Rules) (start : Nat) (kind : VariableKind) : Parse Node := do
  let declarators ← commaSeparated (declarator rules)
  ensure (!isResource kind || declarators.all declaresName)
  close start (.variableList kind declarators)

/-- Whether a node is a declaration of variables that all have the values they need. -/
def isComplete (node : Node) : Bool :=
  match node.form with
  | .variableList kind declarators => hasValues kind declarators
  | _ => true

/-- A declaration of variables as a statement. -/
def variableStatement (rules : Rules) (start : Nat) (kind : VariableKind) : Parse Node := do
  let node ← variableList rules start kind
  ensure ((← read).isAmbient || isComplete node)
  endStatement
  close start node.form

/-- End a statement that is an expression. -/
def endExpression (start : Nat) (value : Node) : Parse Node := do
  endStatement
  close start (.expressionStatement value)

/-- A statement that begins with `let`. Before an operator the word is an operand, before a member or a call
the beginning of an expression, and where it stands alone a name; otherwise it declares variables. -/
def letStatement (rules : Rules) (start : Nat) (isSingle : Bool) : Parse Node := do
  let next := ((← peek).map Token.kind).getD .finish
  if (binaryOperator? next true).isSome || (assignmentOperator? next).isSome then
    let value ← rules .assignment
    endExpression start value
  else if next == .mark "." || next == .mark "(" || next == .mark "?." then
    let value ← rules .expression
    endExpression start value
  else if next == .mark ";" || (isSingle && next != .mark "[") then
    let value ← identifierNode
    endExpression start value
  else
    ensure !isSingle
    expectWord "let"
    variableStatement rules start .lexical

/-! ## Blocks and branches -/

/-- A block. -/
def block (rules : Rules) : Parse Node := do
  let start ← start
  let body ← bracedStatements rules false
  close start (.block body)

/-- An expression in parentheses that belongs to a statement. -/
def condition (rules : Rules) : Parse Node := do
  expectMark "("
  let value ← rules .expression
  expectMark ")"
  return value

/-- A choice between statements. -/
def conditionalStatement (rules : Rules) (start : Nat) : Parse Node := do
  let test ← condition rules
  let yes ← rules (.statement true)
  let no ← if ← eatWord "else" then some <$> rules (.statement true) else pure none
  close start (.conditionalStatement test yes no)

/-- Whether a statement declares what is released at the end of its block. -/
def declaresResource (node : Node) : Bool :=
  match node.form with
  | .variableList kind _ => isResource kind
  | _ => false

/-- The statements of a case. -/
def caseBody (rules : Rules) : Parse (List Node) :=
  collect do
    if (← atWord "case") || (← atWord "default") || (← atMark "\x7d") then return none
    else
      let statement ← rules (.statement false)
      ensure !(declaresResource statement)
      return some statement

/-- A case of a switch. -/
def switchCase (rules : Rules) : Parse Node := do
  let start ← start
  let test ← if ← eatWord "default" then pure none
    else do
      expectWord "case"
      some <$> rules .expression
  expectMark ":"
  let body ← caseBody rules
  close start (.switchCase test body)

/-- A switch after its first word. -/
def switch (rules : Rules) (start : Nat) : Parse Node := do
  let subject ← condition rules
  expectMark "\x7b"
  let cases ← itemsUntil "\x7d" (switchCase rules)
  close start (.switch subject cases)

/-- What is done with a thrown value. -/
def catchClause (rules : Rules) : Parse (Option Node) := do
  let start ← start
  if ← eatWord "catch" then
    let parameter ← if ← eatMark "(" then do
        let pattern ← rules .pattern
        let type ← declaredType
        expectMark ")"
        if type.isNone then pure (some pattern)
        else do
          let typed ← close pattern.span.start (.parameter { type } [] pattern none)
          pure (some typed)
      else pure none
    let body ← block rules
    return some (← close start (.catchClause parameter body))
  else return none

/-- A block with handlers, after its first word. -/
def tryBlock (rules : Rules) (start : Nat) : Parse Node := do
  let body ← block rules
  let handler ← catchClause rules
  let finalizer ← if ← eatWord "finally" then some <$> block rules else pure none
  ensure (handler.isSome || finalizer.isSome)
  close start (.tryBlock body handler finalizer)

/-! ## Loops -/

/-- The part of a counting loop after its first semicolon. -/
def forRest (rules : Rules) (start : Nat) (first : Option Node) : Parse Node := do
  expectMark ";"
  let test ← if ← atMark ";" then pure none else some <$> rules .expression
  expectMark ";"
  let step ← if ← atMark ")" then pure none else some <$> rules .expression
  expectMark ")"
  let body ← rules (.statement true)
  close start (.forLoop first test step body)

/-- The part of a loop over the keys of an object after what takes the keys. -/
def forInRest (rules : Rules) (start : Nat) (left : Node) : Parse Node := do
  expectWord "in"
  let right ← rules .expression
  expectMark ")"
  let body ← rules (.statement true)
  close start (.forIn left right body)

/-- The part of a loop over values after what takes the values. -/
def forOfRest (rules : Rules) (start : Nat) (isAwait : Bool) (left : Node) : Parse Node := do
  expectWord "of"
  let right ← rules .assignment
  expectMark ")"
  let body ← rules (.statement true)
  close start (.forOf isAwait left right body)

/-- A loop whose head declares variables. Only one that counts needs values for them. -/
def forVariables (rules : Rules) (start : Nat) (isAwait : Bool) (left : Node) : Parse Node := do
  if ← atWord "of" then forOfRest rules start isAwait left
  else
    ensure (!isAwait)
    if ← atWord "in" then
      ensure !(declaresResource left)
      forInRest rules start left
    else
      ensure (isComplete left || declaresResource left)
      forRest rules start (some left)

/-- A loop whose head begins with an expression. -/
def forExpression (rules : Rules) (start : Nat) (isAwait : Bool) : Parse Node := do
  let isBareAsync := (← atWord "async") && (← peekIs fun t => t.kind == .name "of" false)
  let isBareLet ← atWord "let"
  let left ← withReader (fun mode => { mode with allowsIn := false }) (rules .expression)
  if ← atWord "of" then
    ensure (!isBareLet && (isAwait || !isBareAsync))
    let left ← target left
    forOfRest rules start isAwait left
  else
    ensure (!isAwait)
    if ← atWord "in" then
      let left ← target left
      forInRest rules start left
    else forRest rules start (some left)

/-- Whether a token after `let` shows that names are declared. -/
def beginsDeclared (token : Token) : Bool :=
  match token.kind with
  | .name text _ => text != "in"
  | .mark text => text == "[" || text == "\x7b"
  | _ => false

/-- A loop with a head, after its first word. -/
def forLoop (rules : Rules) (start : Nat) : Parse Node := do
  let isAwait ← eatWord "await"
  ensure (!isAwait || (← read).awaits)
  expectMark "("
  if ← atMark ";" then
    ensure (!isAwait)
    forRest rules start none
  else
    let first ← Grammar.start
    let isPlainLet := (← atWord "let") && !(← peekIs beginsDeclared)
    let kind ← if isPlainLet then pure none else variableKind true
    match kind with
    | some kind =>
      let left ← withReader (fun mode => { mode with allowsIn := false }) (variableList rules first kind)
      forVariables rules start isAwait left
    | none => forExpression rules start isAwait

/-- A loop that tests before each round, after its first word. -/
def whileLoop (rules : Rules) (start : Nat) : Parse Node := do
  let test ← condition rules
  let body ← rules (.statement true)
  close start (.whileLoop test body)

/-- A loop that tests after each round, after its first word. -/
def doWhile (rules : Rules) (start : Nat) : Parse Node := do
  let body ← rules (.statement true)
  expectWord "while"
  let test ← condition rules
  let _ ← eatMark ";"
  close start (.doWhile body test)

/-! ## Jumps -/

/-- The label of a jump, if it stands on the same line. -/
def jumpLabel : Parse (Option String) := do
  if ← canEndStatement then return none else some <$> identifierName

/-- A return after its first word. -/
def returned (rules : Rules) (start : Nat) : Parse Node := do
  ensure (← read).returns
  let value ← if ← canEndStatement then pure none else some <$> rules .expression
  endStatement
  close start (.returned value)

/-- A throw after its first word. -/
def thrown (rules : Rules) (start : Nat) : Parse Node := do
  ensure (!(← afterLineEnd))
  let value ← rules .expression
  endStatement
  close start (.thrown value)

/-! ## Types as statements -/

/-- The name of a declared type and its parameters. -/
def typeName : Parse (String × List TypeParameter) := do
  let name ← identifierName
  return (name, ← declaredTypeParameters)

/-- A name for a type. -/
def typeAlias (start : Nat) : Parse Node := do
  expectWord "type"
  let (name, parameters) ← typeName
  expectMark "="
  let type ← withTypes fun types => types .full
  endStatement
  close start (.typeDeclaration (.synonym name parameters type))

/-- A named object type. -/
def interfaceType (start : Nat) : Parse Node := do
  expectWord "interface"
  let (name, parameters) ← typeName
  let extended ← namedTypesAfter "extends"
  let members ← withTypes typeMembers
  close start (.typeDeclaration (.interface name parameters extended members))

/-- The key of a member of an enumeration, and whether it is computed: a name, a text, or a text in
brackets. -/
def enumKey (rules : Rules) : Parse (Node × Bool) := do
  let (key, isComputed) ← key rules
  match key.form with
  | .keyName _ => return (key, isComputed)
  | .string _ _ => return (key, isComputed)
  | .template [_] [] =>
    ensure isComputed
    return (key, isComputed)
  | _ => failure

/-- A member of an enumeration. -/
def enumMember (rules : Rules) : Parse Node := do
  let start ← start
  let (key, isComputed) ← enumKey rules
  let value ← if ← eatMark "=" then some <$> rules .assignment else pure none
  close start (.enumMember isComputed key value)

/-- An enumeration. -/
def enumeration (rules : Rules) (start : Nat) (isConst : Bool) : Parse Node := do
  expectWord "enum"
  let name ← identifierName
  expectMark "\x7b"
  let members ← commaList "\x7d" (enumMember rules)
  close start (.enumeration isConst name members)

/-- Whether a token can be the name of a space of names. -/
def namesSpace (token : Token) : Bool :=
  !token.afterLineEnd &&
    match token.kind with
    | .name text _ => !reservedWords.contains text
    | .text _ _ => true
    | _ => false

/-- The name of a space of names after its first word. -/
def namespaceName (word : String) : Parse NamespaceName := do
  match ← kind with
  | .text name _ =>
    advance
    return .module name
  | _ => return .path word (← qualifiedName)

/-- The statements of a space of names, which may be left out. -/
def namespaceBody (rules : Rules) (start : Nat) (name : NamespaceName) : Parse Node := do
  if ← atMark "\x7b" then
    let body ← withReader (fun mode => { mode with returns := false }) (bracedStatements rules true)
    close start (.namespaceBlock name true body)
  else
    endStatement
    close start (.namespaceBlock name false [])

/-- A space of names, if there is one. -/
def namespaceBlock? (rules : Rules) (start : Nat) : Parse (Option Node) := do
  if ((← atWord "namespace") || (← atWord "module")) && (← peekIs namesSpace) then
    let word ← anyName
    let name ← namespaceName word
    some <$> namespaceBody rules start name
  else if (← atWord "global") && (← peekIs fun t => t.kind == .mark "\x7b") then
    advance
    some <$> namespaceBody rules start .everywhere
  else return none

/-- Words that begin what may be described without being defined. -/
def ambientWords : List String :=
  ["var", "let", "const", "function", "async", "class", "abstract", "enum", "type", "interface", "namespace",
    "module", "global"]

/-- Whether a token begins what may be described without being defined. -/
def beginsAmbient (token : Token) : Bool :=
  !token.afterLineEnd &&
    match token.kind with
    | .name text false => ambientWords.contains text
    | _ => false

/-- A declaration that only describes what is defined elsewhere. -/
def ambient (rules : Rules) (start : Nat) : Parse Node := do
  expectWord "declare"
  let declaration ← withReader (fun mode => { mode with isAmbient := true }) (rules (.statement false))
  close start (.ambient declaration)

/-- A declaration that only a typed module can have, if there is one. -/
def typedStatement (rules : Rules) : Parse (Option Node) := do
  let start ← start
  if (← read).hasTypes then
    if (← atWord "declare") && (← peekIs beginsAmbient) then some <$> ambient rules start
    else if (← atWord "type") && (← peekName) then some <$> typeAlias start
    else if (← atWord "interface") && (← peekName) then some <$> interfaceType start
    else if ← atWord "enum" then some <$> enumeration rules start false
    else if (← atWord "const") && (← peekIs fun t => t.kind == .name "enum" false) then
      advance
      some <$> enumeration rules start true
    else if (← atWord "abstract") && (← peekIs fun t => t.kind == .name "class" false) then
      some <$> classNode rules .declaration
    else namespaceBlock? rules start
  else return none

/-! ## Statements -/

/-- A statement that begins with an expression, which may turn out to be a label. -/
def expressionStatement (rules : Rules) (start : Nat) : Parse Node := do
  let value ← rules .expression
  match value.form with
  | .identifier name =>
    if ← eatMark ":" then
      let body ← rules (.statement true)
      close start (.labeled name body)
    else endExpression start value
  | _ => endExpression start value

/-- A function as a statement; one that stands alone may not be asynchronous or a generator. -/
def functionStatement (rules : Rules) (isSingle : Bool) : Parse Node := do
  let node ← function rules .declaration true
  match node.form with
  | .function head _ _ _ =>
    ensure (!isSingle || (!head.isAsync && !head.isGenerator))
    return node
  | _ => failure

/-- A statement that begins with a given word, if that word begins one. -/
def wordStatement (rules : Rules) (start : Nat) (word : String) : Option (Parse Node) :=
  let after (rule : Parse Node) : Option (Parse Node) := some do
    advance
    rule
  match word with
  | "if" => after (conditionalStatement rules start)
  | "for" => after (forLoop rules start)
  | "while" => after (whileLoop rules start)
  | "do" => after (doWhile rules start)
  | "switch" => after (switch rules start)
  | "try" => after (tryBlock rules start)
  | "return" => after (returned rules start)
  | "throw" => after (thrown rules start)
  | "break" => after do
      let label ← jumpLabel
      endStatement
      close start (.breakTo label)
  | "continue" => after do
      let label ← jumpLabel
      endStatement
      close start (.continueTo label)
  | "debugger" => after do
      endStatement
      close start .debugger
  | "with" => after do
      let object ← condition rules
      let body ← rules (.statement true)
      close start (.withObject object body)
  | _ => none

/-- A statement that is no import or export. -/
def plainStatement (rules : Rules) (isSingle : Bool) : Parse Node := do
  let start ← start
  match ← typedStatement rules with
  | some node => return node
  | none =>
    match ← kind with
    | .mark "\x7b" => block rules
    | .mark ";" =>
      advance
      close start .empty
    | .name word false =>
      match wordStatement rules start word with
      | some rule => rule
      | none =>
        if word == "class" then
          ensure (!isSingle)
          classNode rules .declaration
        else if ← atFunction then functionStatement rules isSingle
        else if word == "let" then letStatement rules start isSingle
        else
          match ← variableKind false with
          | some kind =>
            ensure (!isSingle || kind == .var)
            variableStatement rules start kind
          | none => expressionStatement rules start
    | _ => expressionStatement rules start

end Grammar

end Storyboard
