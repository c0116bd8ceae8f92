import Storyboard.Code.Printer.Types

/-!
# Written expressions

How expressions, patterns and targets are written out. Parentheses are written where an expression binds less
tightly than its place asks for, where its first word would be read as something else, and around some forms
in any case. Objects with more than one property and arrays with more than two elements take a line for each.
-/

namespace Storyboard

namespace Printer

/-! ## Promises -/

/-- What is written before a call that has no effect but its result. -/
def pureMark : String := "/* @__PURE__ */ "

/-- What is written before a function whose calls have no effect but their results. -/
def harmlessMark : String := "/* @__NO_SIDE_EFFECTS__ */"

/-! ## Collections -/

/-- Whether a node is a gap in an array. -/
def isHole (node : Node) : Bool :=
  match node.form with
  | .hole => true
  | _ => false

/-- The comma that a gap at the end of an array needs. -/
def lastComma (elements : List Node) : String := when ((elements.getLast?.map isHole).getD false) ","

/-- Items between brackets on one line. -/
def bracketed (write : Writer) (s : Setting) (elements : List Node) : Layout :=
  "[" ++ Layout.commas (elements.map (write (s.inner commaLevel))) ++ lastComma elements ++ "]"

/-- An array. -/
def array (write : Writer) (s : Setting) (elements : List Node) : Layout :=
  if 2 < elements.length then
    Layout.onLines s.depth "[" "]"
      ((elements.map (write (s.deeper.inner commaLevel))).zipIdx.map fun (item, i) =>
        item ++ when (i + 1 == elements.length) (lastComma elements))
  else bracketed write s elements

/-- An object that begins at an offset. Comments before it stand in its parentheses. -/
def object (write : Writer) (s : Setting) (start : Nat) (items : List Node) : Layout :=
  let hasComments := !(s.commentsAt start).isEmpty
  wrap (hasComments || s.start == .statement || s.start == .arrowBody) s fun s =>
    inlineComments s start ++ properties s (items.map (write ((listSetting s items).right commaLevel)))

/-- A key, in brackets if it is computed. -/
def keyText (write : Writer) (s : Setting) (key : Node) (isComputed : Bool) : Layout :=
  if isComputed then "[" ++ write (s.inner commaLevel) key ++ "]" else write (s.inner 0) key

/-! ## Functions -/

/-- A function from its type parameters up to the type of its result. -/
def functionSignature (write : Writer) (s : Setting) (head : FunctionHead) (parameters : List Node) : Layout :=
  typeParameterList s head.typeParameters ++ "(" ++
    parameterList (parameters.any Node.isThisParameter) (parameters.map (write (s.right 0))) ++ ")" ++
    typeSuffix s head.result

/-- The body of a function after a blank; what stands in its place if there is none. -/
def optionalBody (write : Writer) (s : Setting) (missing : String) (body : Option Node) : Layout :=
  match body with
  | some body => " " ++ write (s.right 0) body
  | none => Layout.text missing

/-- A function. -/
def functionText (write : Writer) (s : Setting) (head : FunctionHead) (name : Option Node)
    (parameters : List Node) (body : Option Node) : Layout :=
  let s := s.allowCall
  when head.isAsync "async " ++ "function" ++ when head.isGenerator "* " ++
    Layout.after (when (!head.isGenerator) " ") (name.map (write (s.inner 0))) ++
    functionSignature write s head parameters ++ optionalBody write s ";" body

/-- The word before a getter or setter. -/
def accessorWord : PropertyKind → String
  | .plain => ""
  | .getter => "get "
  | .setter => "set "

/-- What stands before the key of a method. -/
def methodWords (kind : PropertyKind) (head : FunctionHead) : String :=
  accessorWord kind ++ when head.isAsync "async " ++ when head.isGenerator "*"

/-- The expression that is the whole body of an arrow function. -/
def conciseValue? (body : Node) : Option Node :=
  match body.form with
  | .functionBody [statement] =>
    match statement.form with
    | .expressionStatement value => some value
    | _ => none
  | _ => none

/-- An arrow function. -/
def arrow (write : Writer) (s : Setting) (head : FunctionHead) (parameters : List Node) (body : Node) :
    Layout :=
  wrap (assignLevel ≤ s.level || head.isGrouped) s fun s =>
    when head.isPure (harmlessMark ++ " ") ++ when head.isAsync "async " ++
      functionSignature write s head parameters ++ " => " ++
      match if head.isConcise then conciseValue? body else none with
      | some value => write { s with level := commaLevel, start := .arrowBody } value
      | none => write (s.right 0) body

/-! ## Properties -/

/-- The name that an identifier reads. -/
def identifierName? (node : Node) : Option String :=
  match node.form with
  | .identifier name => some name
  | _ => none

/-- The name that a pattern declares, with or without a default. -/
def patternName? (node : Node) : Option String :=
  match node.form with
  | .binding name => some name
  | .defaulted (.mk _ (.binding name)) _ => some name
  | _ => none

/-- Whether a key is a given name. -/
def isKey (key : Node) (name : Option String) : Bool :=
  match key.form with
  | .keyName text => name == some text
  | _ => false

/-- Whether a node is a number without bound, which is written as a name. -/
def isInfinite (node : Node) : Bool :=
  match node.form with
  | .number value => !value.isFinite
  | _ => false

/-- The key of a property and a colon, unless the value is an identifier of the same name. What sets the
prototype of an object keeps its key. -/
def propertyKey (write : Writer) (s : Setting) (key value : Node) (isShorthand isComputed : Bool) : Layout :=
  let isImplied := isKey key (identifierName? value) && (isShorthand || !isKey key (some "__proto__"))
  Layout.when (!isImplied) (keyText write s key (isComputed || isInfinite key) ++ ": ")

/-- A property of an object. A type for `this` is left out. -/
def property (write : Writer) (s : Setting) (kind : PropertyKind) (key value : Node)
    (isMethod isShorthand isComputed : Bool) : Layout :=
  let plain := propertyKey write s key value isShorthand isComputed ++ write (s.inner commaLevel) value
  match value.form with
  | .function head _ parameters body =>
    if isMethod || kind != .plain then
      methodWords kind head ++ keyText write s key isComputed ++
        functionSignature write s head (parameters.filter fun node => !node.isThisParameter) ++
        optionalBody write s "" body
    else plain
  | _ => plain

/-! ## Operators -/

/-- Whether a node joins two operands by `&&` or `||`. -/
def isAndOr (node : Node) : Bool :=
  match node.form with
  | .binary .and _ _ => true
  | .binary .or _ _ => true
  | _ => false

/-- Whether a node is an operand with an operator before it. -/
def hasOperatorBefore (node : Node) : Bool :=
  match node.form with
  | .unary _ _ => true
  | .awaited _ => true
  | _ => false

/-- The levels of the two operands of an operator. Operands of the same logical operator are grouped in
either way without a difference. -/
def operandLevels (op : BinaryOperator) (left right : Node) : Nat × Nat :=
  match op with
  | .power => (if hasOperatorBefore left then callLevel else powerLevel, powerLevel - 1)
  | .coalesce =>
    (if isAndOr left then beforeLevel else op.precedence - 1,
      if isAndOr right then beforeLevel else op.precedence - 1)
  | _ => (op.precedence - 1, if op.isLogical then op.precedence - 1 else op.precedence)

/-- Two operands and the operator between them. -/
def binary (write : Writer) (s : Setting) (op : BinaryOperator) (left right : Node) : Layout :=
  let wraps := op.precedence ≤ s.level || (op == .isIn && s.forbidsIn)
  wrap wraps s fun s =>
    let s := if wraps then s.allowIn else s
    let levels := operandLevels op left right
    write (s.left levels.1) left ++ " " ++ op.symbol ++ " " ++ write (s.right levels.2) right

/-- Whether an operator before a node would be read together with the sign that the node begins or ends
with. -/
def sticksTo (op : UnaryOperator) : Node → Bool
  | .mk _ (.unary inner _) => op == inner && (op == .minus || op == .plus)
  | .mk _ (.update increments _ _) => op == if increments then .plus else .minus
  | .mk _ (.typed .notNull value) => sticksTo op value
  | .mk _ (.typed (.instantiated _) value) => sticksTo op value
  | _ => false

/-- An operand with an operator before it. -/
def unary (write : Writer) (s : Setting) (op : UnaryOperator) (operand : Node) : Layout :=
  wrap (beforeLevel ≤ s.level) s fun s =>
    let content := write (s.right powerLevel) operand
    op.symbol ++ when (op.isWord || sticksTo op operand) " " ++
      if op == .delete && isInfinite operand then "(0, " ++ content ++ ")" else content

/-- The operator of an update. -/
def updateSymbol (increments : Bool) : String := if increments then "++" else "--"

/-- A target that is changed by one. -/
def update (write : Writer) (s : Setting) (increments isBefore : Bool) (target : Node) : Layout :=
  if isBefore then
    wrap (beforeLevel ≤ s.level) s fun s => updateSymbol increments ++ write (s.right beforeLevel) target
  else
    wrap (afterLevel ≤ s.level) s fun s => write (s.left afterLevel) target ++ updateSymbol increments

/-- Whether a target takes an object apart. -/
def isObjectTarget (node : Node) : Bool :=
  match node.form with
  | .objectTarget _ => true
  | _ => false

/-- An assignment. -/
def assign (write : Writer) (s : Setting) (op : String) (target value : Node) : Layout :=
  let isMisread := (s.start == .statement || s.start == .arrowBody) && isObjectTarget target
  wrap (assignLevel ≤ s.level || isMisread) s fun s =>
    write (s.leading commaLevel) target ++ " " ++ op ++ " " ++ write (s.right commaLevel) value

/-- A choice between two values. -/
def conditional (write : Writer) (s : Setting) (test yes no : Node) : Layout :=
  wrap (conditionalLevel ≤ s.level) s fun s =>
    write (s.left conditionalLevel).allowCall test ++ " ? " ++ write (s.inner yieldLevel) yes ++ " : " ++
      write (s.right yieldLevel).allowCall no

/-- Expressions of which the last is the value. -/
def sequence (write : Writer) (s : Setting) (items : List Node) : Layout :=
  wrap (commaLevel ≤ s.level) s fun s =>
    let s := s.allowCall
    match items with
    | [] => Layout.empty
    | first :: others => Layout.commas (write (s.left 0) first :: others.map (write (s.right 0)))

/-! ## Members and calls -/

/-- The sign of an optional member or call. -/
def optionalSign (isOptional : Bool) : String := when isOptional "?."

/-- Arguments with their parentheses, the last of which ends at `stop`. If comments stand among them, each
argument and each comment takes a line. -/
def arguments (write : Writer) (s : Setting) (stop : Nat) (items : List Node) : Layout :=
  let atEnd := s.commentsAt (stop - 1)
  let deeper := s.deeper.inner commaLevel
  if atEnd.isEmpty && items.all fun item => (s.commentsAt item.span.start).isEmpty then
    "(" ++ Layout.commas (items.map (write (s.inner commaLevel))) ++ ")"
  else
    "(" ++ Layout.separated "," (items.map fun item =>
        commentLines deeper (s.commentsAt item.span.start) ++ Layout.newLine deeper.depth ++
          write (deeper.without item.span.start) item) ++
      commentLines deeper atEnd ++ Layout.newLine s.depth ++ ")"

/-- The arguments of an import with their parentheses, the last of which ends at `stop`. Comments before the
options are not written, and the last parenthesis is not indented. -/
def importArguments (write : Writer) (s : Setting) (stop : Nat) (source : Node) (options : Option Node) :
    Layout :=
  let atEnd := s.commentsAt (stop - 1)
  let deeper := s.deeper.inner commaLevel
  let items := source :: options.toList
  if atEnd.isEmpty && items.all fun item => (s.commentsAt item.span.start).isEmpty then
    "(" ++ Layout.commas (items.map (write (s.inner commaLevel))) ++ ")"
  else
    "(" ++ commentLines deeper (s.commentsAt source.span.start) ++ Layout.newLine deeper.depth ++
      write (deeper.without source.span.start) source ++
      Layout.after "," (options.map fun options => Layout.newLine deeper.depth ++ write deeper options) ++
      commentLines deeper atEnd ++ "\n)"

/-- Surroundings of what is called. In parentheses, or after a comment, it no longer begins the body of an
arrow function, but a statement still seems to begin with it. -/
def calleeSetting (s : Setting) (isApart : Bool) : Setting :=
  { s.leading afterLevel with start := if isApart && s.start == .arrowBody then .nothing else s.start }

/-- A call that ends at `stop`. -/
def call (write : Writer) (s : Setting) (stop : Nat) (head : CallHead) (callee : Node) (items : List Node) :
    Layout :=
  let wraps := newLevel ≤ s.level || s.forbidsCall || (head.isPure && afterLevel ≤ s.level)
  wrap wraps s fun inside =>
    when head.isPure pureMark ++ write (calleeSetting s (wraps || head.isPure)) callee ++
      optionalSign head.isOptional ++ angled (types inside head.types) ++ arguments write inside stop items

/-- A construction that ends at `stop`. -/
def construct (write : Writer) (s : Setting) (stop : Nat) (head : CallHead) (callee : Node)
    (items : List Node) : Layout :=
  wrap (callLevel ≤ s.level || (head.isPure && afterLevel ≤ s.level)) s fun s =>
    when head.isPure pureMark ++ "new " ++ write { s.inner newLevel with forbidsCall := true } callee ++
      angled (types s head.types) ++ arguments write s stop items

/-- Whether a point after a node would be read as part of a number. -/
def isPlainNumber (node : Node) : Bool :=
  match node.form with
  | .number value => needsSpaceBeforePoint value
  | _ => false

/-- What a member belongs to. -/
def owner (write : Writer) (s : Setting) (node : Node) : Layout := write (s.left afterLevel).allowIn node

/-- A member by name. -/
def member (write : Writer) (s : Setting) (object : Node) (isOptional : Bool) (name : String) : Layout :=
  owner write s object ++ (if isOptional then "?." else when (isPlainNumber object) " " ++ ".") ++ name

/-- A private member. -/
def privateMember (write : Writer) (s : Setting) (object : Node) (isOptional : Bool) (name : String) :
    Layout :=
  owner write s object ++ (if isOptional then "?." else ".") ++ "#" ++ name

/-- A member by a computed key. The name `let` before a bracket would be read as the word. -/
def index (write : Writer) (s : Setting) (object : Node) (isOptional : Bool) (key : Node) : Layout :=
  wrap (identifierName? object == some "let") s (fun s => owner write s object) ++ optionalSign isOptional ++
    "[" ++ write (s.inner 0) key ++ "]"

/-- A template. -/
def template (write : Writer) (s : Setting) (texts : List String) (values : List Node) : Layout :=
  let quote := String.singleton Lexer.backquote
  quote ++ Layout.template (texts.map scriptGuarded) (values.map (write (s.inner 0))) ++ quote

/-! ## Patterns and targets -/

/-- A property of an object pattern. -/
def patternProperty (write : Writer) (s : Setting) (key value : Node) (isComputed : Bool) : Layout :=
  if !isComputed && isKey key (patternName? value) then write (s.inner commaLevel) value
  else keyText write s key isComputed ++ ": " ++ write (s.inner commaLevel) value

/-- The given words among others, in the order in which they are given. -/
def ordered (words others : List String) : String :=
  String.join ((words.filter others.contains).map (· ++ " "))

/-- What may be said about a declared name before and after it. -/
def declaredName (s : Setting) (head : NameHead) (name : Layout) : Layout :=
  ordered ["public", "private", "protected", "override", "readonly"] head.modifiers ++ name ++ head.mark ++
    typeSuffix s head.type

/-- Whether a decorator can be written without parentheses. -/
def isDecoratorPath : Node → Bool
  | .mk _ (.identifier _) => true
  | .mk _ (.member _ _ _) => true
  | .mk _ (.privateMember _ _ _) => true
  | .mk _ (.index object _ _) => isDecoratorPath object
  | .mk _ (.call _ callee _) => isDecoratorPath callee
  | _ => false

/-- Decorators before something. -/
def decoratorsText (write : Writer) (s : Setting) (decorators : List Node) : Layout :=
  Layout.join (decorators.map fun node => write (s.inner 0) node ++ " ")

/-- A value after an equals sign, if there is one. -/
def valueSuffix (write : Writer) (s : Setting) (value : Option Node) : Layout :=
  Layout.after " = " (value.map (write s))

/-! ## Expressions -/

/-- Whether a node is a function that stands in parentheses of its own. -/
def isGroupedFunction (node : Node) : Bool :=
  match node.form with
  | .function head _ _ _ => head.isGrouped
  | _ => false

/-- Whether a type begins with a parenthesis. -/
def beginsParenthesized : TypeExpr → Bool
  | .function constructs _ => !constructs
  | _ => false

/-- An expression that is given a type. -/
def typed (write : Writer) (s : Setting) (use : TypeUse) (value : Node) : Layout :=
  match use with
  | .as content => wrap (shiftLevel ≤ s.level) s fun s =>
      write (s.left powerLevel) value ++ " as " ++ type s content
  | .satisfies content =>
    "(" ++ wrap (!isGroupedFunction value) s (fun s => write (s.inner s.level) value) ++ " satisfies " ++
      type s content ++ ")"
  | .notNull => write s value ++ "!"
  | .assertion content =>
    "(<" ++ when (beginsParenthesized content) " " ++ type s content ++ ">" ++
      write (s.right memberLevel) value ++ ")"
  | .instantiated content => write s value ++ angled (types s content)

/-- An expression, a part of one, a pattern or a target; nothing for other nodes. -/
def expression? (write : Writer) (s : Setting) (node : Node) : Option Layout :=
  match node.form with
  | .identifier name => some name
  | .nothing => some "null"
  | .boolean value => some (if value then "true" else "false")
  | .number value => some (number value)
  | .bigint value => some (toString value ++ "n")
  | .string value hasLoneHalves => some (text value hasLoneHalves)
  | .regex pattern flags => some ("/" ++ pattern ++ "/" ++ sorted flags)
  | .template texts values => some (template write s texts values)
  | .array elements => some (array write s elements)
  | .object items => some (object write s node.span.start items)
  | .arrow head parameters body => some (arrow write s head parameters body)
  | .unary op operand => some (unary write s op operand)
  | .update increments isBefore target => some (update write s increments isBefore target)
  | .binary op left right => some (binary write s op left right)
  | .assign op target value => some (assign write s op target value)
  | .conditional test yes no => some (conditional write s test yes no)
  | .call head callee items => some (call write s node.span.stop head callee items)
  | .construct head callee items => some (construct write s node.span.stop head callee items)
  | .member object isOptional name => some (member write s object isOptional name)
  | .privateMember object isOptional name => some (privateMember write s object isOptional name)
  | .index object isOptional key => some (index write s object isOptional key)
  | .chain content => some (wrap (afterLevel ≤ s.level) s fun s => write s content)
  | .sequence items => some (sequence write s items)
  | .yielded delegates value =>
    some (wrap (assignLevel ≤ s.level) s fun s =>
      "yield" ++ when delegates "*" ++ Layout.after " " (value.map (write (s.inner yieldLevel))))
  | .awaited value =>
    some (wrap (beforeLevel ≤ s.level) s fun s => "await " ++ write (s.right powerLevel) value)
  | .importCall phase source options =>
    some (wrap (newLevel ≤ s.level || s.forbidsCall) s fun s =>
      "import" ++ after "." phase ++ importArguments write s node.span.stop source options)
  | .metaProperty object name => some (object ++ "." ++ name)
  | .superclass => some "super"
  | .this => some "this"
  | .tagged tag arguments texts values =>
    some (write (s.leading afterLevel) tag ++ angled (types s arguments) ++ template write s texts values)
  | .privateIn name object =>
    some ("#" ++ name ++ " in " ++ write { s.inner equalLevel with forbidsIn := true } object)
  | .typed use value => some (typed write s use value)
  | .spread value => some ("..." ++ write (s.inner commaLevel) value)
  | .hole => some ""
  | .property kind key value isMethod isShorthand isComputed =>
    some (property write s kind key value isMethod isShorthand isComputed)
  | .keyName name => some name
  | .privateName name => some ("#" ++ name)
  | .decorator value => some ("@" ++ wrap (!isDecoratorPath value) (s.inner 0) fun s => write s value)
  | .binding name => some name
  | .objectPattern items => some (spaced (items.map (write (s.inner commaLevel))))
  | .patternProperty key value _ isComputed => some (patternProperty write s key value isComputed)
  | .arrayPattern elements => some (bracketed write s elements)
  | .defaulted pattern default =>
    some (write (s.inner commaLevel) pattern ++ valueSuffix write (s.inner commaLevel) (some default))
  | .rest pattern => some ("..." ++ write (s.inner commaLevel) pattern)
  | .parameter head decorators pattern default =>
    some (decoratorsText write s decorators ++ declaredName s head (write (s.inner commaLevel) pattern) ++
      valueSuffix write (s.right commaLevel) default)
  | .targetName name => some name
  | .targetMember object name => some (member write s object false name)
  | .targetPrivate object name => some (privateMember write s object false name)
  | .targetIndex object key => some (index write s object false key)
  | .objectTarget items =>
    some ("\x7b" ++ Layout.commas (items.map (write (s.inner commaLevel))) ++ "\x7d")
  | .targetProperty key value isComputed =>
    some (keyText write s key isComputed ++ ": " ++ write (s.inner commaLevel) value)
  | .targetShorthand name default => some (name ++ valueSuffix write (s.inner commaLevel) default)
  | .arrayTarget elements => some (bracketed write s elements)
  | .targetDefault target default =>
    some (write (s.inner commaLevel) target ++ valueSuffix write (s.inner commaLevel) (some default))
  | .targetRest target => some ("..." ++ write (s.inner commaLevel) target)
  | _ => none

end Printer

end Storyboard
