import Storyboard.Code.Grammar.Pattern

/-!
# The grammar of functions

Parameters, bodies, functions, methods and arrow functions.
-/

namespace Storyboard

namespace Grammar

/-! ## Bodies -/

/-- The text between the quotes of the token at the place, without decoding. -/
def rawText : Parse String := do
  match (← get).here.rest with
  | quote :: rest => do
    let (raw, _) ← Lexer.quoted? quote rest 0 []
    return String.ofList raw
  | [] => failure

/-- A statement at the beginning of a body, which is a directive when it is a mere text. -/
def prologueStatement (rules : Rules) : Parse Node := do
  match ← kind with
  | .text _ _ =>
    let raw ← rawText
    let statement ← rules (.statement false)
    match statement.form with
    | .expressionStatement (.mk _ (.string _ _)) => return .mk statement.span (.directive raw)
    | _ => return statement
  | _ => rules (.statement false)

/-- Whether a node is a directive. -/
def isDirective (node : Node) : Bool :=
  match node.form with
  | .directive _ => true
  | _ => false

/-- Statements up to a closing mark, or up to the end of the source. -/
def statementsUpTo (rules : Rules) (closing : TokenKind) : Nat → Bool → Parse (List Node)
  | 0, _ => failure
  | limit + 1, isPrologue => do
    if (← kind) == closing then return []
    else
      let statement ← if isPrologue then prologueStatement rules else rules (.statement false)
      let others ← statementsUpTo rules closing limit (isPrologue && isDirective statement)
      return statement :: others

/-- Statements between braces. -/
def bracedStatements (rules : Rules) (isPrologue : Bool) : Parse (List Node) := do
  expectMark "\x7b"
  let body ← statementsUpTo rules (.mark "\x7d") (← read).limit isPrologue
  expectMark "\x7d"
  return body

/-- The body of a function. -/
def functionBody (rules : Rules) : Parse Node := do
  let start ← start
  let body ← withReader (fun mode => { mode with returns := true, allowsResult := true })
    (bracedStatements rules true)
  close start (.functionBody body)

/-! ## Parameters -/

/-- The decorators at the place. -/
def decorators (rules : Rules) : Parse (List Node) :=
  collect do
    let start ← start
    if ← eatMark "@" then
      let value ← withReader (fun mode => { mode with inDecorator := true }) (rules .leftSide)
      return some (← close start (.decorator value))
    else return none

/-- Whose parameters are read. -/
inductive ParameterPlace where
  | plain
  | method
  | constructor
deriving DecidableEq

/-- Words that say who may use a member. -/
def accessWords : List String := ["public", "private", "protected"]

/-- Whether no word comes twice and at most one says who may use a member. -/
def areCompatible (words : List String) : Bool :=
  decide words.Nodup && (words.filter accessWords.contains).length ≤ 1

/-- Whether a token on the same line can follow a word before a parameter or a member. -/
def followsModifier (token : Token) : Bool :=
  beginsKey token || token.kind == .mark "\x7b" || token.kind == .mark "*" || token.kind == .mark "..."

/-- The words before a parameter of a constructor in a typed module. -/
def parameterModifiers : Parse (List String) := do
  let words ← collect do
    match ← kind with
    | .name text false =>
      if (accessWords ++ ["readonly", "override"]).contains text &&
          (← peekIs fun t => !t.afterLineEnd && followsModifier t) then
        advance
        return some text
      else return none
    | _ => return none
  ensure (areCompatible words)
  return words

/-- A parameter that takes all remaining arguments. -/
def restParameter (rules : Rules) (decorators : List Node) : Parse Node := do
  let start ← start
  expectMark "..."
  let pattern ← rules .pattern
  let rest ← close start (.rest pattern)
  let type ← declaredType
  ensure (← atMark ")")
  close start (.parameter { type } decorators rest none)

/-- A question mark after a parameter in a typed module, which excludes a default. -/
def optionalMark : Parse String := do
  if !(← read).hasTypes then return ""
  else if ← eatMark "?" then return "?"
  else return ""

/-- A parameter. Only methods of typed modules may decorate theirs, and only their constructors may put words
before them. -/
def parameter (rules : Rules) (place : ParameterPlace) : Parse Node := do
  let start ← start
  let hasTypes := (← read).hasTypes
  let decorators ← if hasTypes && place != .plain then decorators rules else pure []
  let modifiers ← if hasTypes && place == .constructor then parameterModifiers else pure []
  if ← atMark "..." then restParameter rules decorators
  else
    let pattern ← rules .pattern
    let mark ← optionalMark
    let type ← declaredType
    let default ← if ← eatMark "=" then some <$> inside (rules .assignment) else pure none
    ensure (mark.isEmpty || default.isNone)
    close start (.parameter { modifiers, mark, type } decorators pattern default)

/-- The parameter that gives a type to `this`. -/
def thisParameter : Parse Node := do
  let start ← start
  expectWord "this"
  let name ← close start (.binding "this")
  let type ← declaredType
  unless ← eatMark "," do ensure (← atMark ")")
  return .mk ⟨start, ← lastStop⟩ (.parameter { type } [] name none)

/-- A parameter list with its parentheses. -/
def parameters (rules : Rules) (place : ParameterPlace) : Parse (List Node) := do
  expectMark "("
  inside do
    let this ← if (← read).hasTypes && (← atWord "this") then some <$> thisParameter else pure none
    let others ← commaList ")" (parameter rules place)
    return this.toList ++ others

/-! ## Functions -/

/-- A function from its parameters on. Only in a typed module it may lack a body, and where it is only
described it has to. -/
def functionRest (rules : Rules) (start : Nat) (place : ParameterPlace) (head : FunctionHead)
    (name : Option Node) : Parse Node := do
  let inFunction (mode : Mode) : Mode :=
    { mode with yields := head.isGenerator, awaits := head.isAsync, allowsIn := true, allowsResult := true }
  withReader inFunction do
    let typeParameters ← declaredTypeParameters
    let parameters ← parameters rules place
    let result ← declaredResult
    let head := { head with typeParameters, result }
    if (← read).hasTypes && !(← atMark "\x7b") then
      endStatement
      close start (.function head name parameters none)
    else
      ensure !(← read).isAmbient
      let body ← functionBody rules
      close start (.function head name parameters (some body))

/-- A function from its first word on, and whether it has to have a name. -/
def function (rules : Rules) (role : Role) (needsName : Bool) : Parse Node := do
  let start ← start
  let isAsync ← eatWord "async"
  expectWord "function"
  let isGenerator ← eatMark "*"
  let nameMode (mode : Mode) : Mode :=
    if role == .expression then { mode with yields := isGenerator, awaits := isAsync } else mode
  let name ← withReader nameMode do
    if ← atIdentifier then some <$> bindingNode else pure none
  ensure (name.isSome || !needsName || !(← atMark "("))
  functionRest rules start .plain { role, isAsync, isGenerator } name

/-- Whether a function begins at the place. -/
def atFunction : Parse Bool := do
  if ← atWord "function" then return true
  else if ← atWord "async" then
    peekIs fun t => t.kind == .name "function" false && !t.afterLineEnd
  else return false

/-- Whether a parameter takes all remaining arguments. -/
def isRestParameter (node : Node) : Bool :=
  match node.form with
  | .parameter _ _ (.mk _ (.rest _)) _ => true
  | _ => false

/-- Whether a method has the parameters that its kind asks for: a getter has none but one for all arguments,
a setter has exactly one. -/
def hasRightArity (kind : PropertyKind) (parameters : List Node) : Bool :=
  let parameters := parameters.filter fun node => !node.isThisParameter
  match kind with
  | .plain => true
  | .getter => parameters.all isRestParameter
  | .setter => parameters.length == 1 && !parameters.any isRestParameter

/-- The function of a method, which begins at its parameters. -/
def methodFunction (rules : Rules) (place : ParameterPlace) (kind : PropertyKind)
    (isAsync isGenerator : Bool) : Parse Node := do
  let node ← functionRest rules (← start) place { role := .method, isAsync, isGenerator } none
  match node.form with
  | .function _ _ parameters _ =>
    ensure (hasRightArity kind parameters)
    return node
  | _ => failure

/-! ## Arrow functions -/

/-- The part of an arrow function from its arrow on. Its body waits for values only if the function itself is
asynchronous, and never gives values of a generator around it. -/
def arrowRest (rules : Rules) (start : Nat) (head : FunctionHead) (parameters : List Node) :
    Parse Node := do
  ensure (!(← afterLineEnd))
  expectMark "=>"
  withReader (fun mode => { mode with awaits := head.isAsync, yields := false }) do
    if ← atMark "\x7b" then
      let body ← functionBody rules
      close start (.arrow head parameters body)
    else
      let value ← rules .assignment
      let statement : Node := .mk value.span (.expressionStatement value)
      let body : Node := .mk value.span (.functionBody [statement])
      close start (.arrow { head with isConcise := true } parameters body)

/-- The part of an arrow function before its arrow, when its parameters are in parentheses. The flag tells
whether a type of the result may follow them. -/
def arrowHead (rules : Rules) (allowsResult : Bool) : Parse (FunctionHead × List Node) := do
  let isAsync ← eatWord "async"
  ensure (!(isAsync && (← afterLineEnd)))
  withReader (fun mode => { mode with awaits := mode.awaits || isAsync }) do
    let typeParameters ← declaredTypeParameters
    let parameters ← parameters rules .plain
    ensure (!parameters.any Node.isThisParameter)
    let result ← if allowsResult then declaredResult else pure none
    ensure ((← atMark "=>") && !(← afterLineEnd))
    return ({ isAsync, typeParameters, result }, parameters)

/-- An arrow function with a type of its result in the first branch of a choice, if there is one. The colon
before that type could be the one between the branches, so another one has to follow. -/
def arrowBeforeColon (rules : Rules) (start : Nat) : Parse (Option Node) := do
  match ← lookAhead (arrowHead rules true) with
  | some (head, _) =>
    if head.result.isNone then return none
    else
      attempt do
        let (head, parameters) ← arrowHead rules true
        let node ← arrowRest rules start head parameters
        ensure (← atMark ":")
        return node
  | none => return none

/-- An arrow function whose parameters are in parentheses, if there is one. -/
def parenthesizedArrow (rules : Rules) : Parse (Option Node) := do
  let start ← start
  let opens (kind : TokenKind) (hasTypes : Bool) : Bool :=
    kind == .mark "(" || (hasTypes && kind == .mark "<")
  let hasTypes := (← read).hasTypes
  let mayBegin ←
    if ← atWord "async" then peekIs fun t => opens t.kind hasTypes && !t.afterLineEnd
    else pure (opens (← kind) hasTypes)
  if mayBegin then
    let allowsResult := (← read).allowsResult
    match ← if allowsResult then pure none else arrowBeforeColon rules start with
    | some node => return some node
    | none =>
      match ← attempt (arrowHead rules allowsResult) with
      | some (head, parameters) => return some (← arrowRest rules start head parameters)
      | none => return none
  else return none

/-- The parameter of an arrow function that is a single name. -/
def loneParameter (node : Node) : Parse Node := do
  match node.form with
  | .identifier name => return .mk node.span (.parameter {} [] (.mk node.span (.binding name)) none)
  | _ => failure

/-- An asynchronous arrow function with a single name as its parameter, if there is one. -/
def asyncLoneArrow (rules : Rules) : Parse (Option Node) := do
  let start ← start
  if ← atWord "async" then
    let lone : Parse Node := do
      advance
      ensure (!(← afterLineEnd))
      let name ← identifierNode
      ensure ((← atMark "=>") && !(← afterLineEnd))
      loneParameter name
    match ← attempt lone with
    | some parameter => return some (← arrowRest rules start { isAsync := true } [parameter])
    | none => return none
  else return none

end Grammar

end Storyboard
