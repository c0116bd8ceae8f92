import Storyboard.Code.Grammar.Statement

/-!
# The grammar of modules

Imports and exports, and the reading of a whole source.
-/

namespace Storyboard

namespace Grammar

/-! ## Names of modules -/

/-- A name by which a module exports something. -/
def exportedName : Parse ExportedName := do
  match ← kind with
  | .text value _ =>
    advance
    return .text value
  | _ => return .identifier (← anyName)

/-- The attributes that a module is imported with, if there are any. -/
def importAttributes : Parse (Option ImportAttributes) := do
  if (← atWord "with") || ((← atWord "assert") && !(← afterLineEnd)) then
    let word ← anyName
    expectMark "\x7b"
    let entries ← commaList "\x7d" do
      let name ← exportedName
      expectMark ":"
      return (name, ← textValue)
    return some { word, entries }
  else return none

/-- The name of another module. -/
def moduleName : Parse ModuleName := do
  let span := (← token).span
  let value ← textValue
  return { value, span, attributes := ← importAttributes }

/-! ## Imports -/

/-- Take the word `type` before a name that is imported or exported, in a typed module. Before `as` it is the
name, unless `as` is itself the name. -/
def typeModifier : Parse Bool := do
  let isName (token : Token) : Bool := beginsKey token && token.kind != .name "as" false
  let beforeName : Parse Bool := do
    advance
    if ← atWord "as" then
      advance
      if ← atWord "as" then peekIs fun t => beginsKey t
      else return !(← token).kind matches .name _ _
    else return isName (← token)
  if (← read).hasTypes && (← atWord "type") && (← lookAhead beforeName).getD false then
    advance
    return true
  else return false

/-- A name that is imported, under which it may be known by another one. -/
def importNamed : Parse Node := do
  let start ← start
  let isTypeOnly ← typeModifier
  let mode ← read
  let imported ← exportedName
  if ← eatWord "as" then
    let localName ← identifierName
    close start (.importNamed isTypeOnly imported localName)
  else
    match imported with
    | .identifier name =>
      ensure (isIdentifier mode name)
      close start (.importNamed isTypeOnly imported name)
    | .text _ => failure

/-- All exports under one name. -/
def importNamespace : Parse Node := do
  let start ← start
  expectMark "*"
  expectWord "as"
  let name ← identifierName
  close start (.importNamespace name)

/-- Names in braces, or all exports under one name. -/
def importList : Parse (List Node) := do
  if ← atMark "*" then return [← importNamespace]
  else
    expectMark "\x7b"
    commaList "\x7d" importNamed

/-- What is imported. -/
def importClause : Parse (List Node) := do
  let start ← start
  if ← atIdentifier then
    let name ← identifierName
    let first ← close start (.importDefault name)
    if ← eatMark "," then return first :: (← importList) else return [first]
  else importList

/-- The phase of an import at the place, which is taken. The word `source` is a phase before a name; before
`from` it is one only if no text follows, since then `from` is the name. -/
def importPhase : Parse (Option String) := do
  let sourcePhase : Parse Bool := do
    advance
    match ← kind with
    | .name text _ =>
      if text == "from" then peekIs fun t => !(t.kind matches .text _ _) else return true
    | _ => return false
  if (← atWord "defer") && (← peekIs fun t => t.kind == .mark "*") then
    advance
    return some "defer"
  else if (← atWord "source") && (← lookAhead sourcePhase).getD false then
    advance
    return some "source"
  else return none

/-- Whether an import takes only types. -/
def importsTypes : Parse Bool := do
  if (← read).hasTypes && (← atWord "type") then
    peekIs fun t =>
      match t.kind with
      | .name text _ => text != "from"
      | .mark text => text == "\x7b" || text == "*"
      | _ => false
  else return false

/-- What another name is given to. -/
def aliasSource : Parse AliasSource := do
  if (← atWord "require") && (← peekIs fun t => t.kind == .mark "(") then
    advance
    expectMark "("
    let name ← textValue
    expectMark ")"
    return .module name
  else return .path (← qualifiedName)

/-- Another name for a module or for a member of a space of names, after the first word. -/
def importAlias (start : Nat) : Parse Node := do
  ensure (← read).hasTypes
  let isTypeOnly ← importsTypes
  if isTypeOnly then advance
  let name ← identifierName
  expectMark "="
  let source ← aliasSource
  endStatement
  close start (.importAlias isTypeOnly name source)

/-- An import from another module, after the first word. -/
def importFrom (start : Nat) : Parse Node := do
  match ← kind with
  | .text _ _ =>
    let source ← moduleName
    endStatement
    close start (.importFrom { hasClause := false } [] source)
  | _ =>
    let isTypeOnly ← importsTypes
    if isTypeOnly then advance
    let phase ← importPhase
    let specifiers ← importClause
    expectWord "from"
    let source ← moduleName
    endStatement
    close start (.importFrom { isTypeOnly, phase } specifiers source)

/-- An import. -/
def importStatement : Parse Node := do
  let start ← start
  expectWord "import"
  match ← attempt (importAlias start) with
  | some node => return node
  | none => importFrom start

/-! ## Exports -/

/-- A name in a list of exports. -/
def placedName : Parse PlacedName := do
  let start ← start
  return { name := ← exportedName, start }

/-- A name that is exported, under which it may be known by another one. -/
def exportSpecifier : Parse Node := do
  let start ← start
  let isTypeOnly ← typeModifier
  let localName ← placedName
  let exported ← if ← eatWord "as" then placedName else pure localName
  close start (.exportSpecifier isTypeOnly localName exported)

/-- Words that are no names of a module's own variables, besides the reserved ones. -/
def restrictedWords : List String :=
  ["implements", "interface", "let", "package", "private", "protected", "public", "static", "yield", "await"]

/-- Whether a name can be exported from the module itself. -/
def isLocalName (node : Node) : Bool :=
  match node.form with
  | .exportSpecifier _ localName _ =>
    match localName.name with
    | .identifier name => !reservedWords.contains name && !restrictedWords.contains name
    | .text _ => false
  | _ => false

/-- Names that are exported, of this module or of another one. -/
def exportList (start : Nat) (isTypeOnly : Bool) : Parse Node := do
  expectMark "\x7b"
  let specifiers ← commaList "\x7d" exportSpecifier
  let source ← if ← eatWord "from" then some <$> moduleName else pure none
  ensure (source.isSome || specifiers.all isLocalName)
  endStatement
  close start (.exportNamed isTypeOnly none specifiers source)

/-- All exports of another module. -/
def exportAll (start : Nat) (isTypeOnly : Bool) : Parse Node := do
  expectMark "*"
  let exported ← if ← eatWord "as" then some <$> exportedName else pure none
  expectWord "from"
  let source ← moduleName
  endStatement
  close start (.exportAll isTypeOnly exported source)

/-- What a module exports by default: a function, a class or a named object type, or any value. -/
def defaultValue (rules : Rules) (decorators : List Node) : Parse Node := do
  let start ← start
  let atClass := (← atWord "class") || (← atMark "@") ||
    ((← atWord "abstract") && (← peekIs fun t => t.kind == .name "class" false))
  if atClass then
    let others ← Grammar.decorators rules
    ensure (decorators.isEmpty || others.isEmpty)
    classRest rules start (decorators ++ others) .declaration
  else
    ensure decorators.isEmpty
    if ← atFunction then function rules .declaration false
    else if (← atWord "interface") && (← peekName) then interfaceType start
    else
      let value ← rules .assignment
      endStatement
      return value

/-- What a module exports by default, after the word `default`. -/
def exportDefault (rules : Rules) (start : Nat) (decorators : List Node) : Parse Node := do
  let promises := (← token).promises
  let value ← defaultValue rules decorators
  let value := if promises.contains .noSideEffects then promiseHarmless value else value
  close start (.exportDefault value)

/-- Whether a node declares names. -/
def isDeclaration (node : Node) : Bool :=
  match node.form with
  | .variableList _ _ => true
  | .function head _ _ _ => head.role == .declaration
  | .classOf head _ _ _ _ => head.role == .declaration
  | .typeDeclaration _ => true
  | .enumeration _ _ _ => true
  | .ambient _ => true
  | .namespaceBlock _ _ _ => true
  | .importAlias _ _ _ => true
  | _ => false

/-- A declaration that is exported. Decorators belong to a class, and stand either before or after the word
`export`. -/
def exportedDeclaration (rules : Rules) (start : Nat) (decorators : List Node) : Parse Node := do
  let declaration ←
    if decorators.isEmpty then
      if ← atWord "import" then importStatement
      else if ← atMark "@" then classNode rules .declaration
      else plainStatement rules false
    else do classRest rules (← Grammar.start) decorators .declaration
  ensure (isDeclaration declaration && !declaresResource declaration)
  close start (.exportNamed false (some declaration) [] none)

/-- An export that only a typed module can have, if there is one. -/
def typedExport? (rules : Rules) (start : Nat) : Parse (Option Node) := do
  if !(← read).hasTypes then return none
  else if (← atWord "type") && (← peekIs fun t => t.kind == .mark "\x7b") then
    advance
    some <$> exportList start true
  else if (← atWord "type") && (← peekIs fun t => t.kind == .mark "*") then
    advance
    some <$> exportAll start true
  else if ← eatMark "=" then
    let value ← rules .expression
    endStatement
    some <$> close start (.exportWhole value)
  else if (← atWord "as") && (← peekIs fun t => t.kind == .name "namespace" false) then
    advance
    advance
    let name ← identifierName
    endStatement
    some <$> close start (.exportNamespace name)
  else return none

/-- An export, after the decorators of what it exports. -/
def exportStatement (rules : Rules) (decorators : List Node) : Parse Node := do
  let start ← start
  expectWord "export"
  match ← kind with
  | .mark "*" =>
    ensure decorators.isEmpty
    exportAll start false
  | .mark "\x7b" =>
    ensure decorators.isEmpty
    exportList start false
  | .name "default" false =>
    advance
    exportDefault rules start decorators
  | _ =>
    match ← typedExport? rules start with
    | some node =>
      ensure decorators.isEmpty
      return node
    | none => exportedDeclaration rules start decorators

/-- A class or an export after decorators. -/
def decoratedStatement (rules : Rules) (isSingle : Bool) : Parse Node := do
  let start ← start
  let decorators ← decorators rules
  if ← atWord "export" then exportStatement rules decorators
  else
    ensure (!isSingle)
    classRest rules start decorators .declaration

/-- A statement, apart from what a comment promises about it. -/
def unmarkedStatement (rules : Rules) (isSingle : Bool) : Parse Node := do
  match ← kind with
  | .name "import" false =>
    if ← peekIs fun t => t.kind == .mark "(" || t.kind == .mark "." then plainStatement rules isSingle
    else importStatement
  | .name "export" false => exportStatement rules []
  | .mark "@" => decoratedStatement rules isSingle
  | _ => plainStatement rules isSingle

/-- Note a promise about the function that constants are first given. -/
def promiseFirst : List Node → List Node
  | [] => []
  | first :: others =>
    match first.form with
    | .declarator head pattern (some value) =>
      .mk first.span (.declarator head pattern (some (promiseHarmless value))) :: others
    | _ => first :: others

/-- Note the promise that calls of the declared function have no effect but their results. -/
def promiseDeclared (node : Node) : Node :=
  match node.form with
  | .variableList .constant declarators =>
    .mk node.span (.variableList .constant (promiseFirst declarators))
  | .function _ _ _ _ => promiseHarmless node
  | _ => node

/-- Note a promise about what a statement declares or exports. -/
def promiseStatement (node : Node) : Node :=
  match node.form with
  | .exportNamed isTypeOnly (some declaration) specifiers source =>
    .mk node.span (.exportNamed isTypeOnly (some (promiseDeclared declaration)) specifiers source)
  | .exportDefault value => .mk node.span (.exportDefault (promiseHarmless value))
  | _ => promiseDeclared node

/-- A statement. -/
def statement (rules : Rules) (isSingle : Bool) : Parse Node := do
  let promises := (← token).promises
  let node ← unmarkedStatement rules isSingle
  return if promises.contains .noSideEffects then promiseStatement node else node

/-! ## Sources -/

/-- One step of the recursion between the rules. -/
def step (rules : Rules) : Rules
  | .assignment => assignment rules
  | .expression => expression rules
  | .operand precedence => operand rules precedence
  | .unary => unary rules
  | .leftSide => leftSide rules
  | .construct => construct rules
  | .pattern => pattern rules
  | .statement isSingle => statement rules isSingle
  | .markup => element rules

/-- The rules, calling each other at most `depth` deep. -/
def rules : Nat → Rules
  | 0, _ => failure
  | depth + 1, goal => step (rules depth) goal

end Grammar

/-- A dialect of the code. -/
structure Dialect where
  /-- Whether markup is an expression. -/
  hasMarkup : Bool := false
  /-- Whether types may be written. -/
  hasTypes : Bool := false
deriving DecidableEq, Repr

/-- A module that has been read. -/
structure SourceModule where
  /-- The tree of the whole module. -/
  program : Node
  /-- The comments that lead a token, in order. -/
  comments : List Comment

namespace SourceModule

/-- The cursor after a first line that names an interpreter. -/
def afterInterpreterLine (source : List Char) : Cursor :=
  match source with
  | '#' :: '!' :: _ => (Cursor.takeWhile (fun c => !Literal.isLineEnd c) source 0).2
  | _ => ⟨source, 0⟩

/-- Whether the source begins with a line that names an interpreter. -/
def interpreterLine? (source : List Char) : Option (List Char) :=
  match source with
  | '#' :: '!' :: _ => some (source.takeWhile fun c => !Literal.isLineEnd c)
  | _ => none

/-- Read a whole source; nothing when it is not well formed. -/
def parse? (dialect : Dialect) (source : String) : Option SourceModule := do
  let characters := source.toList
  let limit := characters.length + 2
  let mode : Grammar.Mode := { hasMarkup := dialect.hasMarkup, hasTypes := dialect.hasTypes, limit }
  let (token, here, after) ← Lexer.next? none (afterInterpreterLine characters)
  let first : Grammar.Reading :=
    { token, here, after, lastStop := 0, comments := token.comments.reverse, covers := [], followed := [] }
  let (body, last) ← Grammar.statementsUpTo (Grammar.rules (8 * limit)) .finish limit true mode first
  if last.covers.isEmpty then
    return {
      program := .mk ⟨0, source.utf8ByteSize⟩ (.program body)
      comments := last.comments.reverse }
  else none

end SourceModule

end Storyboard
