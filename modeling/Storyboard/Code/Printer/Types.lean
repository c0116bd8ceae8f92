import Storyboard.Code.Printer.Setting
import Storyboard.Code.TypeExpr

/-!
# Written types

How types are written out. An object type takes a line for each member, and several type parameters take a
line each. No parentheses are written, so a type inside another one may come to be read differently.
-/

namespace Storyboard

namespace Printer

/-- Something in angle brackets, unless there is nothing. -/
def angled (items : List Layout) : Layout :=
  if items.isEmpty then Layout.empty else "<" ++ Layout.commas items ++ ">"

/-- A qualified name. -/
def path (names : List String) : String := ".".intercalate names

/-- The key of a member. -/
def memberKey : MemberKey → String
  | .name value => value
  | .text value => text value false
  | .number written => written
  | .computed names => "[" ++ path names ++ "]"
  | .computedText value => "[" ++ text value false ++ "]"
  | .computedNumber value => "[" ++ number value ++ "]"

/-- Parameters with commas between them. A type for `this` comes first and is followed by a blank in any
case. -/
def parameterList (hasThis : Bool) (items : List Layout) : Layout :=
  match items with
  | [this] => this ++ when hasThis " "
  | items => Layout.commas items

/-- Items in braces on one line. -/
def spaced (items : List Layout) : Layout :=
  if items.isEmpty then Layout.text "\x7b\x7d" else "\x7b " ++ Layout.commas items ++ " \x7d"

mutual

/-- What a parameter of a function type is called. -/
def parameterName : ParameterName → Layout
  | .name value => Layout.text value
  | .object items => spaced (parameterParts items)
  | .array items => "[" ++ Layout.commas (parameterParts items) ++ "]"

/-- The parts of a pattern that takes a parameter apart. -/
def parameterParts : List ParameterPart → List Layout
  | [] => []
  | .hole :: rest => Layout.empty :: parameterParts rest
  | .element content :: rest => parameterName content :: parameterParts rest
  | .rest content :: rest => ("..." ++ parameterName content) :: parameterParts rest
  | .property key content :: rest =>
    (memberKey key ++ ": " ++ parameterName content) :: parameterParts rest

end

/-- The properties of an object with their values. -/
def properties (s : Setting) (items : List Layout) : Layout :=
  match items with
  | [] => Layout.text "\x7b\x7d"
  | [single] => "\x7b " ++ single ++ " \x7d"
  | several => Layout.onLines s.depth "\x7b" "\x7d" several

/-- What an imported type is looked up with. -/
def lookupOptions (s : Setting) (options : LookupOptions) : Layout :=
  properties s [options.word ++ ": " ++ properties s (options.entries.map fun (name, isText, value) =>
    Layout.text ((if isText then text name false else name) ++ ": " ++ text value false))]

/-- Whether the first parameter of a function type gives a type to `this`. -/
def beginsWithThis : List TypedName → Bool
  | .mk false (.name name) _ _ :: _ => name == "this"
  | _ => false

/-- Surroundings of items that take a line each when there are several. -/
def listSetting {α : Type} (s : Setting) : List α → Setting
  | _ :: _ :: _ => s.deeper
  | _ => s

/-- Type parameters with their brackets: one stands on the line, several take a line each. -/
def parameterBrackets (s : Setting) (items : List Layout) : Layout :=
  match items with
  | [] => Layout.empty
  | [single] => "<" ++ single ++ ">"
  | several => Layout.onLines s.depth "<" ">" several

/-- The members of an object type in braces. -/
def memberBraces (s : Setting) (lines : List Layout) : Layout :=
  if lines.isEmpty then Layout.text "\x7b\x7d"
  else "\x7b\n" ++ Layout.join lines ++ Layout.indent s.depth ++ "\x7d"

mutual

/-- A type. -/
def type (s : Setting) : TypeExpr → Layout
  | .keyword name => Layout.text name
  | .reference name arguments => path name ++ angled (types s arguments)
  | .text value => Layout.text (text value false)
  | .number isNegative written => Layout.text (when isNegative "-" ++ written)
  | .bigint isNegative value => Layout.text (when isNegative "-" ++ toString value ++ "n")
  | .template texts values =>
    String.singleton Lexer.backquote ++ Layout.template texts (types s values) ++
      String.singleton Lexer.backquote
  | .imported isQuery source options name arguments =>
    when isQuery "typeof " ++ "import(" ++ text source false ++
      Layout.after ", " (options.map (lookupOptions s)) ++ ")" ++
      String.join (name.map fun part => "." ++ part) ++ angled (types s arguments)
  | .array element => type s element ++ "[]"
  | .tuple elements => "[" ++ Layout.commas (tupleElements s elements) ++ "]"
  | .union parts => Layout.separated " | " (types s parts)
  | .intersection parts => Layout.separated " & " (types s parts)
  | .object members => memberBraces s (typeMembers s.deeper members)
  | .function constructs signature => when constructs "new " ++ signatureText s " => " signature
  | .operator word operand => word ++ " " ++ type s operand
  | .marked mark isBefore operand =>
    when isBefore mark ++ type s operand ++ when (!isBefore) mark
  | .query name arguments => "typeof " ++ path name ++ angled (types s arguments)
  | .indexed object index => type s object ++ "[" ++ type s index ++ "]"
  | .conditional check bound yes no =>
    type s check ++ " extends " ++ type s bound ++ " ? " ++ type s yes ++ " : " ++ type s no
  | .infer name bound => "infer " ++ name ++ Layout.after " extends " (optionalType s bound)
  | .predicate asserts subject claim =>
    when asserts "asserts " ++ subject ++ Layout.after " is " (optionalType s claim)
  | .mapped readonlySign key keys renamed optionalSign value =>
    "\x7b " ++ (match readonlySign with | some sign => sign ++ "readonly " | none => "") ++ "[" ++ key ++
      " in " ++ type s keys ++ Layout.after " as " (optionalType s renamed) ++ "]" ++
      (match optionalSign with | some sign => sign ++ "?" | none => "") ++
      " " ++ Layout.after ": " (optionalType s value) ++ " \x7d"

/-- A type that may be missing. -/
def optionalType (s : Setting) : Option TypeExpr → Option Layout
  | none => none
  | some content => some (type s content)

/-- Several types. -/
def types (s : Setting) : List TypeExpr → List Layout
  | [] => []
  | first :: rest => type s first :: types s rest

/-- The elements of a tuple. -/
def tupleElements (s : Setting) : List TupleElement → List Layout
  | [] => []
  | .mk isRest label isOptional content :: rest =>
    (when isRest "..." ++ after "" label ++ when isOptional "?" ++ when label.isSome ": " ++
      type s content) :: tupleElements s rest

/-- Type parameters. -/
def typeParameters (s : Setting) : List TypeParameter → List Layout
  | [] => []
  | .mk words name bound default :: rest =>
    (String.join (words.map (· ++ " ")) ++ name ++ Layout.after " extends " (optionalType s bound) ++
      Layout.after " = " (optionalType s default)) :: typeParameters s rest

/-- The parameters of a function type. -/
def typedNames (s : Setting) : List TypedName → List Layout
  | [] => []
  | .mk isRest name isOptional content :: rest =>
    (when isRest "..." ++ parameterName name ++ when isOptional "?" ++
      Layout.after ": " (optionalType s content)) :: typedNames s rest

/-- The parameters and the result of a function type. -/
def signatureText (s : Setting) (mark : String) : Signature → Layout
  | .mk parameters names result =>
    parameterBrackets s (typeParameters (listSetting s parameters) parameters) ++ "(" ++
      parameterList (beginsWithThis names) (typedNames s names) ++ ")" ++
      Layout.after mark (optionalType s result)

/-- A member of an object type. -/
def memberText (s : Setting) : MemberShape → Layout
  | .property isReadonly key isOptional content =>
    when isReadonly "readonly " ++ memberKey key ++ when isOptional "?" ++
      Layout.after ": " (optionalType s content)
  | .method word key isOptional signature =>
    word ++ memberKey key ++ when isOptional "?" ++ signatureText s ": " signature
  | .index isReadonly name key value =>
    when isReadonly "readonly " ++ "[" ++ name ++ ": " ++ type s key ++ "]: " ++ type s value
  | .call constructs signature => when constructs "new " ++ signatureText s ": " signature

/-- The members of an object type, a line for each after the comments that lead it. -/
def typeMembers (s : Setting) : List TypeMember → List Layout
  | [] => []
  | .mk start shape :: rest =>
    (leadingComments s start ++ Layout.indent s.depth ++ memberText s shape ++ ";\n") :: typeMembers s rest

end

/-- Type parameters with their brackets, if there are any. -/
def typeParameterList (s : Setting) (parameters : List TypeParameter) : Layout :=
  parameterBrackets s (typeParameters (listSetting s parameters) parameters)

/-- The type after a colon, if there is one. -/
def typeSuffix (s : Setting) (content : Option TypeExpr) : Layout :=
  Layout.after ": " (optionalType s content)

/-- A declared type. -/
def typeDeclaration (s : Setting) : TypeDeclaration → Layout
  | .synonym name parameters content =>
    "type " ++ name ++ typeParameterList s parameters ++ " = " ++ type s content ++ ";"
  | .interface name parameters extended members =>
    "interface " ++ name ++ typeParameterList s parameters ++
      Layout.when (!extended.isEmpty) (" extends " ++ Layout.commas (types s extended)) ++ " " ++
      memberBraces s (typeMembers s.deeper members)

end Printer

end Storyboard
