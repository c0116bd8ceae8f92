import Storyboard.Number.Binary64
import Storyboard.Code.Operator
import Storyboard.Code.TypeExpr

/-!
# Syntax trees

A module is a tree of nodes. A node is a form together with the bytes it covers, and a form is a shape
whose places hold further nodes. The children of a form stand in the order in which a walk over the module
meets them, and a child is always smaller than its parent, so every walk ends.

The places of a form tell apart the three things a name can be: a value that is read (an expression), a
name that is declared (a pattern), and a place that is written to (a target).
-/

namespace Storyboard

/-- The bytes of a source from `start` up to `stop`. -/
structure Span where
  /-- Where the range begins. -/
  start : Nat
  /-- Where the range ends. -/
  stop : Nat
deriving DecidableEq, Repr, Inhabited

/-- How variables are declared. -/
inductive VariableKind where
  | var
  | lexical
  | constant
  | resource
  | asyncResource
deriving DecidableEq, Repr

/-- How a property or a method is reached. -/
inductive PropertyKind where
  | plain
  | getter
  | setter
deriving DecidableEq, Repr

/-- Where a function or a class stands. -/
inductive Role where
  | declaration
  | expression
  | method
deriving DecidableEq, Repr

/-- The parts of a function that are no nodes. -/
structure FunctionHead where
  /-- Where it stands. -/
  role : Role := .expression
  /-- Whether it is asynchronous. -/
  isAsync : Bool := false
  /-- Whether it is a generator. -/
  isGenerator : Bool := false
  /-- Whether the body of an arrow function is a single expression. -/
  isConcise : Bool := false
  /-- Whether it stands in parentheses of its own, which mean that it is likely to be called at once. -/
  isGrouped : Bool := false
  /-- Whether a comment promises that calling it has no effect but its result. -/
  isPure : Bool := false
  /-- Its type parameters. -/
  typeParameters : List TypeParameter := []
  /-- The type of its result. -/
  result : Option TypeExpr := none

/-- The parts of a class that are no nodes. -/
structure ClassHead where
  /-- Where it stands. -/
  role : Role := .expression
  /-- Whether it is abstract. -/
  isAbstract : Bool := false
  /-- Its type parameters. -/
  typeParameters : List TypeParameter := []
  /-- The types that the class it extends is applied to. -/
  heritageArguments : List TypeExpr := []
  /-- The types it implements. -/
  implemented : List TypeExpr := []

/-- The parts of a class member that are no nodes. -/
structure MemberHead where
  /-- Whether it is a getter, a setter or neither. -/
  kind : PropertyKind := .plain
  /-- Whether it belongs to the class itself. -/
  isStatic : Bool := false
  /-- Whether its key is computed. -/
  isComputed : Bool := false
  /-- Whether it is a field with accessors. -/
  isAccessor : Bool := false
  /-- The words of a typed module before it, such as `private`. -/
  modifiers : List String := []
  /-- The mark after its key, which is `?`, `!` or nothing. -/
  mark : String := ""
  /-- Its type. -/
  type : Option TypeExpr := none

/-- What a typed module says about a declared name. -/
structure NameHead where
  /-- The words before it. -/
  modifiers : List String := []
  /-- The mark after it, which is `?`, `!` or nothing. -/
  mark : String := ""
  /-- Its type. -/
  type : Option TypeExpr := none

/-- A name by which a module exports something: an identifier or a text. -/
inductive ExportedName where
  | identifier (name : String)
  | text (value : String)
deriving DecidableEq, Repr

/-- The name without regard to how it is written. -/
def ExportedName.value : ExportedName → String
  | identifier name => name
  | text value => value

/-- The attributes that a module is imported with, after a word. -/
structure ImportAttributes where
  /-- The word, which is `with` or `assert`. -/
  word : String
  /-- The names and values. -/
  entries : List (ExportedName × String)
deriving DecidableEq, Repr

/-- The name of another module, where it is written, and the attributes it is imported with. -/
structure ModuleName where
  /-- The name. -/
  value : String
  /-- Where its text stands. -/
  span : Span
  /-- The attributes. -/
  attributes : Option ImportAttributes := none
deriving DecidableEq, Repr

/-- What an import is besides its specifiers and its source. -/
structure ImportHead where
  /-- Whether it imports only types. -/
  isTypeOnly : Bool := false
  /-- The phase up to which the module is loaded. -/
  phase : Option String := none
  /-- Whether it lists what it imports. -/
  hasClause : Bool := true
deriving DecidableEq, Repr

/-- A name in a list of exports, and where it is written. -/
structure PlacedName where
  /-- The name. -/
  name : ExportedName
  /-- Where it begins. -/
  start : Nat
deriving DecidableEq, Repr

/-- The parts of a call or a construction that are no nodes. -/
structure CallHead where
  /-- Whether it is skipped when there is nothing to call. -/
  isOptional : Bool := false
  /-- Whether a comment promises that it has no effect but its result. -/
  isPure : Bool := false
  /-- The types it is applied to. -/
  types : List TypeExpr := []

/-- How an expression is given a type. -/
inductive TypeUse where
  | as (type : TypeExpr)
  | satisfies (type : TypeExpr)
  | notNull
  | assertion (type : TypeExpr)
  | instantiated (types : List TypeExpr)

/-- How a space of names is called. -/
inductive NamespaceName where
  /-- By a path of names after a word, which is `namespace` or `module`. -/
  | path (word : String) (names : List String)
  /-- By the name of a module. -/
  | module (name : String)
  /-- The space of all modules. -/
  | everywhere

/-- What another name is given to. -/
inductive AliasSource where
  /-- A whole module. -/
  | module (name : String)
  /-- A member of a space of names. -/
  | path (names : List String)

/-- The shapes of nodes, whose places hold values of `α`. -/
inductive Form (α : Type) where
  -- expressions
  | identifier (name : String)
  | nothing
  | boolean (value : Bool)
  | number (value : Binary64)
  | bigint (value : Nat)
  | string (value : String) (hasLoneHalves : Bool)
  | regex (pattern flags : String)
  | template (texts : List String) (values : List α)
  | array (elements : List α)
  | object (properties : List α)
  | function (head : FunctionHead) (name : Option α) (parameters : List α) (body : Option α)
  | arrow (head : FunctionHead) (parameters : List α) (body : α)
  | classOf (head : ClassHead) (decorators : List α) (name heritage : Option α) (members : List α)
  | unary (op : UnaryOperator) (operand : α)
  | update (increments isBefore : Bool) (target : α)
  | binary (op : BinaryOperator) (left right : α)
  | assign (op : String) (target value : α)
  | conditional (test yes no : α)
  | call (head : CallHead) (callee : α) (arguments : List α)
  | construct (head : CallHead) (callee : α) (arguments : List α)
  | member (object : α) (isOptional : Bool) (property : String)
  | privateMember (object : α) (isOptional : Bool) (property : String)
  | index (object : α) (isOptional : Bool) (key : α)
  | chain (content : α)
  | sequence (items : List α)
  | yielded (delegates : Bool) (value : Option α)
  | awaited (value : α)
  | importCall (phase : Option String) (source : α) (options : Option α)
  | metaProperty (object property : String)
  | superclass
  | this
  | tagged (tag : α) (types : List TypeExpr) (texts : List String) (values : List α)
  | privateIn (name : String) (object : α)
  | jsxElement (name : α) (attributes children : List α)
  | jsxFragment (children : List α)
  | typed (use : TypeUse) (value : α)
  -- parts of expressions
  | spread (value : α)
  | hole
  | property (kind : PropertyKind) (key value : α) (isMethod isShorthand isComputed : Bool)
  | keyName (name : String)
  | privateName (name : String)
  | decorator (value : α)
  | jsxName (name : String)
  | jsxReference (name : String)
  | jsxMember (object : α) (property : String)
  | jsxAttribute (name : String) (value : Option α)
  | jsxSpread (value : α)
  | jsxString
  | jsxText
  | jsxContainer (value : Option α)
  -- patterns
  | binding (name : String)
  | objectPattern (properties : List α)
  | patternProperty (key value : α) (isShorthand isComputed : Bool)
  | arrayPattern (elements : List α)
  | defaulted (pattern default : α)
  | rest (pattern : α)
  | parameter (head : NameHead) (decorators : List α) (pattern : α) (default : Option α)
  -- targets
  | targetName (name : String)
  | targetMember (object : α) (property : String)
  | targetPrivate (object : α) (property : String)
  | targetIndex (object key : α)
  | objectTarget (properties : List α)
  | targetProperty (key value : α) (isComputed : Bool)
  | targetShorthand (name : String) (default : Option α)
  | arrayTarget (elements : List α)
  | targetDefault (target default : α)
  | targetRest (target : α)
  -- statements
  | expressionStatement (value : α)
  | directive (text : String)
  | block (body : List α)
  | variableList (kind : VariableKind) (declarators : List α)
  | declarator (head : NameHead) (pattern : α) (value : Option α)
  | conditionalStatement (test yes : α) (no : Option α)
  | forLoop (first test step : Option α) (body : α)
  | forIn (left right body : α)
  | forOf (isAwait : Bool) (left right body : α)
  | whileLoop (test body : α)
  | doWhile (body test : α)
  | returned (value : Option α)
  | breakTo (label : Option String)
  | continueTo (label : Option String)
  | thrown (value : α)
  | tryBlock (body : α) (handler finalizer : Option α)
  | catchClause (parameter : Option α) (body : α)
  | switch (subject : α) (cases : List α)
  | switchCase (test : Option α) (body : List α)
  | labeled (label : String) (body : α)
  | withObject (object body : α)
  | debugger
  | empty
  | typeDeclaration (declaration : TypeDeclaration)
  | enumeration (isConst : Bool) (name : String) (members : List α)
  | enumMember (isComputed : Bool) (key : α) (value : Option α)
  | ambient (declaration : α)
  | namespaceBlock (name : NamespaceName) (hasBody : Bool) (body : List α)
  -- class members
  | method (head : MemberHead) (decorators : List α) (key value : α)
  | field (head : MemberHead) (decorators : List α) (key : α) (value : Option α)
  | staticBlock (body : List α)
  | indexMember (member : TypeMember)
  -- modules
  | importFrom (head : ImportHead) (specifiers : List α) (source : ModuleName)
  | importDefault (localName : String)
  | importNamespace (localName : String)
  | importNamed (isTypeOnly : Bool) (imported : ExportedName) (localName : String)
  | exportNamed (isTypeOnly : Bool) (declaration : Option α) (specifiers : List α)
      (source : Option ModuleName)
  | exportSpecifier (isTypeOnly : Bool) (localName exported : PlacedName)
  | exportDefault (value : α)
  | exportAll (isTypeOnly : Bool) (exported : Option ExportedName) (source : ModuleName)
  | importAlias (isTypeOnly : Bool) (name : String) (source : AliasSource)
  | exportWhole (value : α)
  | exportNamespace (name : String)
  | functionBody (body : List α)
  | program (body : List α)

/-- A form and the bytes it covers. -/
inductive Node where
  | mk (span : Span) (form : Form Node)

namespace Form

/-- The nodes in the places of a form, in the order in which a walk meets them. -/
def children {α : Type} : Form α → List α
  | template _ values => values
  | array elements => elements
  | object properties => properties
  | function _ name parameters body => name.toList ++ parameters ++ body.toList
  | arrow _ parameters body => parameters ++ [body]
  | classOf _ decorators name heritage members =>
    decorators ++ name.toList ++ heritage.toList ++ members
  | unary _ operand => [operand]
  | update _ _ target => [target]
  | binary _ left right => [left, right]
  | assign _ target value => [target, value]
  | conditional test yes no => [test, yes, no]
  | call _ callee arguments => callee :: arguments
  | construct _ callee arguments => callee :: arguments
  | member owner _ _ => [owner]
  | privateMember owner _ _ => [owner]
  | index owner _ key => [owner, key]
  | chain content => [content]
  | sequence items => items
  | yielded _ value => value.toList
  | awaited value => [value]
  | importCall _ source options => source :: options.toList
  | tagged tag _ _ values => tag :: values
  | privateIn _ owner => [owner]
  | jsxElement name attributes content => name :: (attributes ++ content)
  | jsxFragment content => content
  | typed _ value => [value]
  | spread value => [value]
  | property _ key value _ _ _ => [key, value]
  | decorator value => [value]
  | jsxMember owner _ => [owner]
  | jsxAttribute _ value => value.toList
  | jsxSpread value => [value]
  | jsxContainer value => value.toList
  | objectPattern properties => properties
  | patternProperty key value _ _ => [key, value]
  | arrayPattern elements => elements
  | defaulted pattern default => [pattern, default]
  | rest pattern => [pattern]
  | parameter _ decorators pattern default => decorators ++ pattern :: default.toList
  | targetMember owner _ => [owner]
  | targetPrivate owner _ => [owner]
  | targetIndex owner key => [owner, key]
  | objectTarget properties => properties
  | targetProperty key value _ => [key, value]
  | targetShorthand _ default => default.toList
  | arrayTarget elements => elements
  | targetDefault target default => [target, default]
  | targetRest target => [target]
  | expressionStatement value => [value]
  | block body => body
  | variableList _ declarators => declarators
  | declarator _ pattern value => pattern :: value.toList
  | conditionalStatement test yes no => test :: yes :: no.toList
  | forLoop first test step body => first.toList ++ test.toList ++ step.toList ++ [body]
  | forIn left right body => [left, right, body]
  | forOf _ left right body => [left, right, body]
  | whileLoop test body => [test, body]
  | doWhile body test => [body, test]
  | returned value => value.toList
  | thrown value => [value]
  | tryBlock body handler finalizer => body :: (handler.toList ++ finalizer.toList)
  | catchClause pattern body => pattern.toList ++ [body]
  | switch subject cases => subject :: cases
  | switchCase test body => test.toList ++ body
  | labeled _ body => [body]
  | withObject owner body => [owner, body]
  | enumeration _ _ members => members
  | enumMember _ key value => key :: value.toList
  | ambient declaration => [declaration]
  | namespaceBlock _ _ body => body
  | method _ decorators key value => decorators ++ [key, value]
  | field _ decorators key value => decorators ++ key :: value.toList
  | staticBlock body => body
  | importFrom _ specifiers _ => specifiers
  | exportNamed _ declaration specifiers _ => declaration.toList ++ specifiers
  | exportDefault value => [value]
  | exportWhole value => [value]
  | functionBody body => body
  | program body => body
  | _ => []

/-- Whether a form is an expression, that is, computes a value where it stands. -/
def isExpression {α : Type} : Form α → Bool
  | identifier _ => true
  | nothing => true
  | boolean _ => true
  | number _ => true
  | bigint _ => true
  | string _ _ => true
  | regex _ _ => true
  | template _ _ => true
  | array _ => true
  | object _ => true
  | function head _ _ _ => head.role == .expression
  | arrow _ _ _ => true
  | classOf head _ _ _ _ => head.role == .expression
  | unary _ _ => true
  | update _ _ _ => true
  | binary _ _ _ => true
  | assign _ _ _ => true
  | conditional _ _ _ => true
  | call _ _ _ => true
  | construct _ _ _ => true
  | member _ _ _ => true
  | privateMember _ _ _ => true
  | index _ _ _ => true
  | chain _ => true
  | sequence _ => true
  | yielded _ _ => true
  | awaited _ => true
  | importCall _ _ _ => true
  | metaProperty _ _ => true
  | superclass => true
  | this => true
  | tagged _ _ _ _ => true
  | privateIn _ _ => true
  | jsxElement _ _ _ => true
  | jsxFragment _ => true
  | typed _ _ => true
  | _ => false

theorem sizeOf_lt_of_mem_toList {α : Type} [SizeOf α] {place : Option α} {child : α}
    (member : child ∈ place.toList) : sizeOf child < sizeOf place := by
  cases place with
  | none => simp at member
  | some content => simp_all

/-- A child is smaller than the form it stands in. -/
theorem sizeOf_lt_of_mem_children {α : Type} [SizeOf α] {form : Form α} {child : α}
    (member : child ∈ form.children) : sizeOf child < sizeOf form := by
  have inList : ∀ {list : List α}, child ∈ list → sizeOf child < sizeOf list :=
    fun h => List.sizeOf_lt_of_mem h
  have inOption : ∀ {place : Option α}, child ∈ place.toList → sizeOf child < sizeOf place :=
    fun h => sizeOf_lt_of_mem_toList h
  cases form <;> simp only [children, List.mem_cons, List.mem_append, List.not_mem_nil, or_false] at member
  all_goals grind

end Form

namespace Node

/-- The bytes that a node covers. -/
def span : Node → Span
  | mk span _ => span

/-- The form of a node. -/
def form : Node → Form Node
  | mk _ form => form

/-- The nodes directly below a node, in the order in which a walk meets them. -/
def children (node : Node) : List Node := node.form.children

/-- Whether a node is the parameter that gives a type to `this`. -/
def isThisParameter (node : Node) : Bool :=
  match node.form with
  | .parameter _ _ (.mk _ (.binding name)) _ => name == "this"
  | _ => false

/-- A child is smaller than its parent. -/
theorem sizeOf_lt_of_mem_children {node child : Node} (member : child ∈ node.children) :
    sizeOf child < sizeOf node := by
  cases node with
  | mk span form =>
    have below : sizeOf child < sizeOf form := Form.sizeOf_lt_of_mem_children member
    simp only [Node.mk.sizeOf_spec]
    omega

end Node

instance : Inhabited Node := ⟨.mk default .empty⟩

end Storyboard
