import Storyboard.Code.Grammar.Module
import Storyboard.Code.Printer.Expression
import Storyboard.Text.Offset

/-!
# Written statements

How statements, classes and functions are written out: a line for each, indented by the depth of the braces
around it, with the comments that lead it on the lines before. A statement that is the body of another one
continues its line. What the head of a loop forbids is forbidden in statements inside it, too.
-/

namespace Storyboard

namespace Printer

/-- A line that holds a statement, after the comments that lead it. -/
def line (s : Setting) (node : Node) (content : Layout) (ending : String) : Layout :=
  leadingComments s node.span.start ++ Layout.indent s.depth ++ content ++ ending

/-- What stands between braces on lines of its own; nothing takes no lines. -/
def braces (s : Setting) (isEmpty : Bool) (content : Layout) : Layout :=
  if isEmpty then Layout.text "\x7b\x7d"
  else "\x7b\n" ++ content ++ Layout.indent s.depth ++ "\x7d"

/-- A word and what stands in parentheses after it. -/
def headed (word : String) (content : Layout) : Layout := word ++ " (" ++ content ++ ")"

/-! ## Bodies -/

/-- Statements one after the other. -/
def statements (write : Writer) (s : Setting) (body : List Node) : Layout :=
  Layout.join (body.map (write (s.right 0)))

/-- Statements in braces. -/
def block (write : Writer) (s : Setting) (body : List Node) : Layout :=
  braces s body.isEmpty (statements write s.deeper body)

/-- The statements of a node that holds statements in braces. -/
def blockBody? (node : Node) : Option (List Node) :=
  match node.form with
  | .block body => some body
  | _ => none

/-- The braces of a node that holds statements in braces. -/
def blockOf (write : Writer) (s : Setting) (node : Node) : Layout :=
  block write s ((blockBody? node).getD [])

/-- The body of a statement, which continues its line. -/
def body (write : Writer) (s : Setting) (node : Node) : Layout :=
  match node.form with
  | .block content => " " ++ block write s content ++ "\n"
  | .empty => Layout.text ";\n"
  | _ => Layout.joinNext ++ write (s.right 0) node

/-- The text that a statement consists of. -/
def loneText? (write : Writer) (s : Setting) (node : Node) : Option Layout :=
  match node.form with
  | .expressionStatement value =>
    match value.form with
    | .string _ _ => some (write (s.inner 0) value)
    | _ => none
  | _ => none

/-- The statements of a function or module. If the first is a lone text, it takes parentheses, without which
it would be a directive. -/
def outerStatements (write : Writer) (s : Setting) (body : List Node) : Layout :=
  match body with
  | [] => Layout.empty
  | first :: rest =>
    match loneText? write s first with
    | some content => "(" ++ content ++ ");\n" ++ statements write s rest
    | none => statements write s body

/-- The body of a function that ends at `stop`. Comments before its end are kept. -/
def functionBody (write : Writer) (s : Setting) (stop : Nat) (body : List Node) : Layout :=
  let atEnd := s.commentsAt (stop - 1)
  if body.isEmpty && atEnd.all fun c => !c.comment.afterLineEnd && !c.comment.beforeLineEnd then
    "\x7b" ++ leadingComments s (stop - 1) ++ Layout.when (!atEnd.isEmpty) Layout.splitNext ++ "\x7d"
  else
    braces s false (outerStatements write s.deeper body ++ leadingComments s.deeper (stop - 1) ++
      Layout.when (!atEnd.isEmpty) Layout.splitNext)

/-! ## Classes -/

/-- The words before the key of a field with accessors. -/
def accessorFieldWords (head : MemberHead) : String :=
  ordered ["abstract", "public", "private", "protected"] head.modifiers ++ when head.isStatic "static " ++
    ordered ["override"] head.modifiers ++ "accessor "

/-- The words before the key of a member. -/
def memberWords (head : MemberHead) : String :=
  if head.isAccessor then accessorFieldWords head
  else
    ordered ["declare", "public", "private", "protected", "abstract"] head.modifiers ++
      when head.isStatic "static " ++ ordered ["readonly"] head.modifiers

/-- The key of a member with its mark. -/
def markedKey (write : Writer) (s : Setting) (head : MemberHead) (key : Node) : Layout :=
  keyText write s key head.isComputed ++ head.mark

/-- A method of a class. -/
def classMethod (write : Writer) (s : Setting) (head : MemberHead) (decorators : List Node)
    (key value : Node) : Layout :=
  match value.form with
  | .function function _ parameters content =>
    decoratorsText write s decorators ++
      ordered ["public", "private", "protected", "abstract"] head.modifiers ++ when head.isStatic "static " ++
      methodWords head.kind function ++ markedKey write s head key ++
      functionSignature write s function parameters ++ optionalBody write s ";" content ++ "\n"
  | _ => Layout.empty

/-- A field of a class. -/
def classField (write : Writer) (s : Setting) (head : MemberHead) (decorators : List Node) (key : Node)
    (value : Option Node) : Layout :=
  decoratorsText write s decorators ++ memberWords head ++ markedKey write s head key ++
    typeSuffix s head.type ++ valueSuffix write (s.inner commaLevel) value ++ ";\n"

/-- The members of a class, each after its comments. -/
def members (write : Writer) (s : Setting) (items : List Node) : Layout :=
  Layout.join (items.map fun item =>
    leadingComments s item.span.start ++ Layout.indent s.depth ++ write (s.right 0) item)

/-- A class. -/
def classText (write : Writer) (s : Setting) (head : ClassHead) (decorators : List Node)
    (name heritage : Option Node) (items : List Node) : Layout :=
  let s := s.allowCall
  decoratorsText write s decorators ++ when head.isAbstract "abstract " ++ "class" ++
    Layout.after " " (name.map (write (s.inner 0))) ++ typeParameterList s head.typeParameters ++
    Layout.after " extends " (heritage.map (write (s.inner afterLevel))) ++
    angled (types s head.heritageArguments) ++
    Layout.when (!head.implemented.isEmpty) (" implements " ++ Layout.commas (types s head.implemented)) ++
    " " ++ braces s items.isEmpty (members write s.deeper items)

/-! ## Declarations -/

/-- The word that declares variables. -/
def variableWord : VariableKind → String
  | .var => "var"
  | .lexical => "let"
  | .constant => "const"
  | .resource => "using"
  | .asyncResource => "await using"

/-- Declared variables. -/
def variableList (write : Writer) (s : Setting) (kind : VariableKind) (declarators : List Node) : Layout :=
  variableWord kind ++ " " ++ Layout.commas (declarators.map (write s))

/-- An enumeration. -/
def enumeration (write : Writer) (s : Setting) (isConst : Bool) (name : String) (items : List Node) :
    Layout :=
  let deeper := s.deeper
  when isConst "const " ++ "enum " ++ name ++ " " ++
    braces s items.isEmpty (Layout.join (items.zipIdx.map fun (item, i) =>
      leadingComments deeper item.span.start ++ Layout.indent deeper.depth ++ write (deeper.right 0) item ++
        when (i + 1 != items.length) "," ++ "\n"))

/-- The name of a space of names with the word before it. -/
def namespaceName : NamespaceName → String
  | .path word names => word ++ " " ++ path names
  | .module name => "module " ++ text name false
  | .everywhere => "global"

/-- A space of names. -/
def namespaceBlock (write : Writer) (s : Setting) (name : NamespaceName) (hasBody : Bool)
    (items : List Node) : Layout :=
  namespaceName name ++ if hasBody then " " ++ block write s items else Layout.text ";"

/-- What another name is given to. -/
def aliasSource : AliasSource → String
  | .module name => "require(" ++ text name false ++ ")"
  | .path names => path names

/-- Whether a node names an object type. -/
def isInterface (node : Node) : Bool :=
  match node.form with
  | .typeDeclaration declared => declared.isInterface
  | _ => false

/-- A declaration and how its line ends; nothing for other nodes. -/
def declaration? (write : Writer) (s : Setting) : Node → Option (Layout × String)
  | .mk _ (.variableList kind declarators) => some (variableList write s kind declarators, ";\n")
  | .mk _ (.function head name parameters content) =>
    some (functionText write s head name parameters content, "\n")
  | .mk _ (.classOf head decorators name heritage items) =>
    some (classText write s head decorators name heritage items, "\n")
  | .mk _ (.typeDeclaration declared) => some (typeDeclaration s declared, "\n")
  | .mk _ (.enumeration isConst name items) => some (enumeration write s isConst name items, "\n")
  | .mk _ (.namespaceBlock name hasBody items) => some (namespaceBlock write s name hasBody items, "\n")
  | .mk _ (.importAlias isTypeOnly name source) =>
    some (Layout.text ("import " ++ when isTypeOnly "type " ++ name ++ " = " ++ aliasSource source), ";\n")
  | .mk _ (.ambient declaration) =>
    (declaration? write s declaration).map fun (content, ending) =>
      (when (!isInterface declaration) "declare " ++ content, ending)
  | _ => none

/-- Whether a node declares a function whose calls have no effect but their results. -/
def declaresHarmless (node : Node) : Bool :=
  match node.form with
  | .function head _ _ _ => head.role == .declaration && head.isPure
  | _ => false

/-- A declared function. A promise about it takes a line of its own. -/
def declaredFunction (s : Setting) (node : Node) (isPure : Bool) (content : Layout) : Layout :=
  leadingComments s node.span.start ++
    Layout.when isPure (Layout.indent s.depth ++ harmlessMark ++ "\n") ++
    Layout.indent s.depth ++ content ++ "\n"

/-! ## Modules -/

/-- A name by which something is exported. -/
def exportedName : ExportedName → String
  | .identifier name => name
  | .text value => text value false

/-- The attributes that a module is imported with. -/
def importAttributes (attributes : ImportAttributes) : Layout :=
  attributes.word ++ " " ++ spaced (attributes.entries.map fun (key, value) =>
    Layout.text (exportedName key ++ ": " ++ text value false))

/-- The name of another module in quotation marks, with the attributes it is imported with. -/
def moduleName (quoted : String) (source : ModuleName) : Layout :=
  quoted ++ Layout.after " " (source.attributes.map importAttributes)

/-- What an import lists, with the word after it. -/
def importClause (write : Writer) (s : Setting) (specifiers : List Node) : Layout :=
  let isNamed (node : Node) : Bool :=
    match node.form with
    | .importNamed _ _ _ => true
    | _ => false
  let named := specifiers.filter isNamed
  let others := (specifiers.filter fun node => !isNamed node).map (write s)
  Layout.commas (others ++ if named.isEmpty && !others.isEmpty then [] else [spaced (named.map (write s))]) ++
    " from "

/-- An import. If it lists nothing, the name of the module is written as it is. -/
def importFrom (write : Writer) (s : Setting) (head : ImportHead) (specifiers : List Node)
    (source : ModuleName) : Layout :=
  let quoted := if head.hasClause && specifiers.isEmpty then "\"" ++ source.value ++ "\""
    else text source.value false
  "import " ++ when head.isTypeOnly "type " ++ after "" (head.phase.map (· ++ " ")) ++
    Layout.when head.hasClause (importClause write s specifiers) ++ moduleName quoted source

/-- A name that is imported, with the one under which it is known here. -/
def importNamed (isTypeOnly : Bool) (imported : ExportedName) (localName : String) : String :=
  when isTypeOnly "type " ++ exportedName imported ++ when (imported.value != localName) (" as " ++ localName)

/-- A name in a list of exports after its comments. -/
def placedName (s : Setting) (name : PlacedName) : Layout :=
  inlineComments s name.start ++ exportedName name.name

/-- A name that is exported, with the one under which it is known elsewhere. -/
def exportSpecifier (s : Setting) (isTypeOnly : Bool) (localName exported : PlacedName) : Layout :=
  when isTypeOnly "type " ++ placedName s localName ++
    Layout.when (localName.name.value != exported.name.value) (" as " ++ placedName s exported)

/-- An exported declaration with a promise about it before its line. -/
def exportedDeclaration (s : Setting) (node declaration : Node) (content : Layout) : Layout :=
  leadingComments s node.span.start ++
    Layout.when (declaresHarmless declaration) (harmlessMark ++ "\n") ++
    Layout.indent s.depth ++ content

/-- Exported names, or an exported declaration. -/
def exported (write : Writer) (s : Setting) (node : Node) (isTypeOnly : Bool) (declaration : Option Node)
    (specifiers : List Node) (source : Option ModuleName) : Layout :=
  match declaration with
  | some declaration =>
    match declaration? write s declaration with
    | some (content, ending) => exportedDeclaration s node declaration ("export " ++ content ++ ending)
    | none => Layout.empty
  | none =>
    line s node ("export " ++ when isTypeOnly "type " ++ spaced (specifiers.map (write s)) ++
      after " from " (source.map fun source => text source.value false)) ";\n"

/-- What a module exports by default. -/
def exportedDefault (write : Writer) (s : Setting) (node value : Node) : Layout :=
  let content :=
    if value.form.isExpression then
      write { s.inner commaLevel with start := .defaultExport } value ++ ";\n"
    else
      match declaration? write s value with
      | some (content, ending) => content ++ ending
      | none => Layout.empty
  exportedDeclaration s node value ("export default " ++ content)

/-! ## Conditions, loops and blocks -/

/-- Whether a statement ends with a condition to which an `else` after it would belong. -/
def endsOpen : Node → Bool
  | .mk _ (.conditionalStatement _ _ none) => true
  | .mk _ (.conditionalStatement _ _ (some no)) => endsOpen no
  | .mk _ (.forLoop _ _ _ content) => endsOpen content
  | .mk _ (.forIn _ _ content) => endsOpen content
  | .mk _ (.forOf _ _ _ content) => endsOpen content
  | .mk _ (.whileLoop _ content) => endsOpen content
  | .mk _ (.withObject _ content) => endsOpen content
  | .mk _ (.labeled _ content) => endsOpen content
  | _ => false

/-- What is done otherwise. -/
def otherwise (write : Writer) (s : Setting) (no : Node) : Layout :=
  "else" ++
    match no.form with
    | .conditionalStatement _ _ _ => Layout.joinNext ++ write ((s.right 0).without no.span.start) no
    | _ => body write s no

/-- A condition. What it guards takes braces if an `else` after it could be taken for its own. -/
def condition (write : Writer) (s : Setting) (test yes : Node) (no : Option Node) : Layout :=
  let rest := Layout.after "" (no.map (otherwise write s))
  let closed := if no.isSome then " " else "\n"
  headed "if" (write (s.inner 0) test) ++
    match yes.form with
    | .block content => " " ++ block write s content ++ closed ++ rest
    | _ =>
      if endsOpen yes then " " ++ block write s [yes] ++ closed ++ rest
      else body write s yes ++ Layout.when no.isSome (Layout.indent s.depth) ++ rest

/-- What a loop goes through: variables or a target. The name `async` would be read as the word. -/
def loopHead (write : Writer) (s : Setting) (node : Node) : Layout :=
  match node.form with
  | .variableList kind declarators => variableList write s kind declarators
  | .targetName "async" => Layout.text "(async)"
  | _ => write s node

/-- An optional part of the head of a loop. -/
def loopPart (write : Writer) (s : Setting) (node : Option Node) : Layout :=
  Layout.after " " (node.map (write (s.inner 0)))

/-- What a loop with a counter begins with: variables or an expression, in which `in` would be misread. -/
def loopStart (write : Writer) (s : Setting) (node : Node) : Layout :=
  let s := { s.inner 0 with forbidsIn := true }
  match node.form with
  | .variableList kind declarators => variableList write s kind declarators
  | _ => write s node

/-- A loop with a counter. -/
def forLoop (write : Writer) (s : Setting) (first test step : Option Node) (content : Node) : Layout :=
  headed "for" (Layout.after "" (first.map (loopStart write s)) ++ ";" ++ loopPart write s test ++ ";" ++
    loopPart write s step) ++ body write s content

/-- A loop whose body comes first. -/
def doWhile (write : Writer) (s : Setting) (content test : Node) : Layout :=
  "do" ++
    (match content.form with
      | .block statements => " " ++ block write s statements ++ " "
      | .empty => write (s.right 0) content
      | _ => "\n" ++ write (s.deeper.right 0) content ++ Layout.indent s.depth) ++
    headed "while" (write (s.inner 0) test)

/-- A case of a choice. -/
def switchCase (write : Writer) (s : Setting) (test : Option Node) (content : List Node) : Layout :=
  Layout.indent s.depth ++
    (match test with
      | some test => "case " ++ write (s.inner 0) test ++ ":"
      | none => Layout.text "default:") ++
    match content with
    | [single] => body write s single
    | several => "\n" ++ statements write s.deeper several

/-- Statements whose failures are caught. -/
def tryBlock (write : Writer) (s : Setting) (content : Node) (handler finalizer : Option Node) : Layout :=
  "try " ++ blockOf write s content ++ Layout.after " " (handler.map (write (s.right 0))) ++
    Layout.after " finally " (finalizer.map (blockOf write s))

/-- What is done with a failure, from an offset on. -/
def catchClause (write : Writer) (s : Setting) (start : Nat) (pattern : Option Node) (content : Node) :
    Layout :=
  leadingComments s start ++
    (match pattern with
      | some pattern => headed "catch" (write (s.inner 0) pattern)
      | none => Layout.text "catch") ++
    " " ++ inlineComments s content.span.start ++ blockOf write s content

/-! ## Statements -/

/-- A word that may be followed by a value. -/
def wordAndValue (write : Writer) (s : Setting) (word : String) (value : Option Node) : Layout :=
  word ++ loopPart write s value

/-- A function or class where an expression is expected; the flag asks for parentheses in any case. -/
def asExpression (s : Setting) (isGrouped : Bool) (content : Setting → Layout) : Layout :=
  wrap (s.start == .statement || s.start == .defaultExport || isGrouped) s content

/-- A statement, a part of one or a member of a class. -/
def statement (write : Writer) (s : Setting) (node : Node) : Layout :=
  match node.form with
  | .expressionStatement value => line s node (write { s.inner 0 with start := .statement } value) ";\n"
  | .directive raw => line s node (Layout.text (directive raw)) ";\n"
  | .block content => line s node (block write s content) "\n"
  | .declarator head pattern value =>
    declaredName s head (write (s.inner 0) pattern) ++ valueSuffix write (s.right commaLevel) value
  | .conditionalStatement test yes no => line s node (condition write s test yes no) ""
  | .forLoop first test step content => line s node (forLoop write s first test step content) ""
  | .forIn left right content =>
    line s node (headed "for" (loopHead write (s.inner commaLevel) left ++ " in " ++
      write (s.inner 0) right) ++ body write s content) ""
  | .forOf isAwait left right content =>
    line s node (headed (if isAwait then "for await" else "for")
      (loopHead write (s.inner commaLevel) left ++ " of " ++ write (s.inner commaLevel) right) ++
      body write s content) ""
  | .whileLoop test content =>
    line s node (headed "while" (write (s.inner 0) test) ++ body write s content) ""
  | .doWhile content test => line s node (doWhile write s content test) ";\n"
  | .returned value => line s node (wordAndValue write s "return" value) ";\n"
  | .breakTo label => line s node (Layout.text ("break" ++ after " " label)) ";\n"
  | .continueTo label => line s node (Layout.text ("continue" ++ after " " label)) ";\n"
  | .thrown value => line s node (wordAndValue write s "throw" (some value)) ";\n"
  | .tryBlock content handler finalizer => line s node (tryBlock write s content handler finalizer) "\n"
  | .catchClause pattern content => catchClause write s node.span.start pattern content
  | .switch subject cases =>
    line s node (headed "switch" (write (s.inner 0) subject) ++ " " ++
      braces s cases.isEmpty (statements write s.deeper cases)) "\n"
  | .switchCase test content => switchCase write s test content
  | .labeled label content => line s node (label ++ ":" ++ body write s content) ""
  | .withObject object content =>
    line s node ("with(" ++ write (s.inner 0) object ++ ")" ++ body write s content) ""
  | .debugger => line s node (Layout.text "debugger") ";\n"
  | .empty => line s node (Layout.text ";") "\n"
  | .enumMember isComputed key value =>
    keyText write s key isComputed ++ valueSuffix write (s.right 0) value
  | .method head decorators key value => classMethod write s head decorators key value
  | .field head decorators key value => classField write s head decorators key value
  | .staticBlock content => "static " ++ block write s content ++ "\n"
  | .indexMember (.mk _ shape) => memberText s shape ++ ";\n"
  | .importFrom head specifiers source => line s node (importFrom write s head specifiers source) ";\n"
  | .importDefault name => Layout.text name
  | .importNamespace name => Layout.text ("* as " ++ name)
  | .importNamed isTypeOnly imported localName => Layout.text (importNamed isTypeOnly imported localName)
  | .exportNamed isTypeOnly declaration specifiers source =>
    exported write s node isTypeOnly declaration specifiers source
  | .exportSpecifier isTypeOnly localName exported => exportSpecifier s isTypeOnly localName exported
  | .exportDefault value => exportedDefault write s node value
  | .exportAll isTypeOnly exported source =>
    line s node ("export " ++ when isTypeOnly "type " ++ "*" ++ after " as " (exported.map exportedName) ++
      " from " ++ moduleName (text source.value false) source) ";\n"
  | .exportWhole value => line s node ("export = " ++ write (s.inner 0) value) ";\n"
  | .exportNamespace name => line s node (Layout.text ("export as namespace " ++ name)) ";\n"
  | .functionBody content => functionBody write s node.span.stop content
  | .function head name parameters content =>
    if head.role == .declaration then
      declaredFunction s node head.isPure (functionText write s head name parameters content)
    else
      asExpression s head.isGrouped fun s =>
        when head.isPure (harmlessMark ++ " ") ++ functionText write s head name parameters content
  | .classOf head decorators name heritage items =>
    if head.role == .declaration then line s node (classText write s head decorators name heritage items) "\n"
    else asExpression s false fun s => classText write s head decorators name heritage items
  | _ =>
    match declaration? write s node with
    | some (content, ending) => line s node content ending
    | none => Layout.empty

/-- Nodes of any kind, at most `depth` deep. -/
def write : Nat → Writer
  | 0, _, _ => Layout.empty
  | depth + 1, s, node =>
    match expression? (write depth) s node with
    | some content => content
    | none => statement (write depth) s node

end Printer

namespace Node

/-- How many nodes stand on the longest way down from a node. -/
def height (node : Node) : Nat :=
  (node.children.attach.map fun child => height child.1).foldl max 0 + 1
termination_by sizeOf node
decreasing_by exact sizeOf_lt_of_mem_children child.2

end Node

namespace SourceModule

/-- The text of a module with the given statements in the place of its own, and with the comments that lead
them or stand at its end. -/
def print (module : SourceModule) (source : String) (body : List Node) : String :=
  let comments := module.comments.map fun comment =>
    { text := Text.sliceString source comment.span.start comment.span.stop, comment : Printer.WrittenComment }
  let s : Printer.Setting := { comments }
  let height := (body.map Node.height).foldl max 0
  let opening := match interpreterLine? source.toList with
    | some line => Layout.text (String.ofList line ++ "\n")
    | none => Layout.empty
  (opening ++ Printer.outerStatements (Printer.write height) s body ++
    Printer.leadingComments s source.utf8ByteSize).render

end SourceModule

end Storyboard
