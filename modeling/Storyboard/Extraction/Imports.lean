import Storyboard.Code.Tree
import Storyboard.Edit
import Storyboard.Extraction.Walk
import Storyboard.Options

/-!
# Imports of the framework

The markers of the runtime module exist only until compilation, so their import is removed, and so is the
default import of the functions from a file of the application. A style sheet that is imported from the
application becomes a call of the style loader, which is then imported from the element module.
-/

namespace Storyboard

/-- An import among the statements of a module. -/
structure ImportItem where
  /-- The whole import. -/
  node : Node
  /-- What it imports. -/
  specifiers : List Node
  /-- The module that it imports from. -/
  source : ModuleName

namespace ImportItem

/-- The import that a statement is. -/
def ofStatement? (statement : Node) : Option ImportItem :=
  match statement.form with
  | .importFrom _ specifiers source => some ⟨statement, specifiers, source⟩
  | _ => none

/-- The imports of a module. -/
def ofProgram (program : Node) : List ImportItem := program.children.filterMap ofStatement?

/-- The name of the default import. -/
def defaultName? (node : Node) : Option String :=
  match node.form with
  | .importDefault name => some name
  | _ => none

/-- Whether a specifier imports by name. -/
def isNamed (specifier : Node) : Bool :=
  match specifier.form with
  | .importNamed _ _ _ => true
  | _ => false

/-- Whether a specifier imports all exports. -/
def isNamespace (specifier : Node) : Bool :=
  match specifier.form with
  | .importNamespace _ => true
  | _ => false

/-- Whether a specifier imports an export under its own name. -/
def importsAsItself (name : String) (specifier : Node) : Bool :=
  match specifier.form with
  | .importNamed _ imported localName => localName == name && imported.value == name
  | _ => false

/-- Whether an import is from a file of the application. -/
def isRelative (item : ImportItem) : Bool := item.source.value.startsWith "."

/-- Whether an import is of a style sheet of the application. -/
def isStyleSheet (item : ImportItem) : Bool := item.isRelative && item.source.value.endsWith ".css"

end ImportItem

/-- The text of an import from the texts of its specifiers. -/
def renderImport (others named : List String) (source : String) : String :=
  let clauses :=
    others ++ if named.isEmpty then [] else ["\x7b " ++ ", ".intercalate named ++ " \x7d"]
  if clauses.isEmpty then "import " ++ source ++ ";"
  else "import " ++ ", ".intercalate clauses ++ " from " ++ source ++ ";"

namespace StyleSheetGate

/-- Whether a text begins with a quoted name of a style sheet. -/
def beginsWithQuotedSheet (text : List Char) : Bool :=
  let isQuote (c : Char) : Bool := c == '"' || c == Char.ofNat 39
  match text with
  | [] => false
  | c :: rest =>
    let name := rest.takeWhile fun c => !isQuote c
    let after := rest.dropWhile fun c => !isQuote c
    isQuote c && !after.isEmpty && ".css".toList.isSuffixOf name && 4 < name.length

/-- Whether a text begins with blanks, the word `from`, blanks and the quoted name of a style sheet. -/
def beginsWithSheetImport (text : List Char) : Bool :=
  match text.dropWhile Text.isBlank with
  | 'f' :: 'r' :: 'o' :: 'm' :: rest =>
    (rest.head?.map Text.isBlank).getD false && beginsWithQuotedSheet (rest.dropWhile Text.isBlank)
  | _ => false

/-- Whether a text looks like an import of a style sheet somewhere. -/
def isOpen : List Char → Bool
  | [] => false
  | c :: rest => (Text.isBlank c && beginsWithSheetImport rest) || isOpen rest

end StyleSheetGate

namespace Imports

/-- The edit that writes an import again with other specifiers, the named ones with some more. -/
def restate (source : SourceText) (item : ImportItem) (specifiers : List Node) (more : List String) : Edit :=
  let others := (specifiers.filter fun s => !ImportItem.isNamed s).map source.covered
  let named := (specifiers.filter ImportItem.isNamed).map source.covered
  let name := Text.sliceString source.text item.source.span.start item.source.span.stop
  ⟨item.node.span.start, item.node.span.stop, renderImport others (named ++ more) name⟩

/-- The edit that loads a style sheet under a name. -/
def loadStyle (source : SourceText) (options : Options) (item : ImportItem) (name : String) : Edit :=
  let sheet := Text.sliceString source.text item.source.span.start item.source.span.stop
  ⟨item.node.span.start, item.node.span.stop,
    "const " ++ name ++ " = " ++ options.styleLoader ++ "(" ++ sheet ++ ", import.meta.url);"⟩

/-- The name under which an import makes a style sheet known, if style sheets are looked for. -/
def styleName? (scansStyles : Bool) (item : ImportItem) : Option String :=
  if scansStyles && item.isStyleSheet then item.specifiers.findSome? ImportItem.defaultName? else none

/-- Whether a specifier is the default import of the functions. -/
def isResourceBinding (options : Options) (specifier : Node) : Bool :=
  ImportItem.defaultName? specifier == some options.resourceBinding

/-- The edit of a single import. -/
def edit? (source : SourceText) (options : Options) (scansStyles : Bool) (item : ImportItem) :
    Option Edit :=
  match styleName? scansStyles item with
  | some name => some (loadStyle source options item name)
  | none =>
    if item.source.value == options.runtimeModule then
      some ⟨item.node.span.start, item.node.span.stop, ""⟩
    else if item.isRelative && item.specifiers.any (isResourceBinding options) then
      some (restate source item (item.specifiers.filter fun s => !isResourceBinding options s) [])
    else none

/-- The edit that imports the style loader: into the last import of the element module if that can take
it, otherwise by a new import at the beginning. -/
def loaderEdit (source : SourceText) (options : Options) (elementImport : Option ImportItem) : Edit :=
  let fresh := Edit.insertion 0
    ("import \x7b " ++ options.styleLoader ++ " \x7d from " ++ Json.quote options.jsxModule ++ ";\n")
  match elementImport with
  | none => fresh
  | some item =>
    if item.specifiers.any ImportItem.isNamespace then fresh
    else restate source item item.specifiers [options.styleLoader]

/-- The edits of all imports of a module. -/
def edits (source : SourceText) (options : Options) (processCss : Bool) (program : Node) : List Edit :=
  let items := ImportItem.ofProgram program
  let scansStyles := processCss && StyleSheetGate.isOpen source.text.toList
  let elementImports := items.filter fun item => item.source.value == options.jsxModule
  let hasLoader := elementImports.any fun item =>
    item.specifiers.any (ImportItem.importsAsItself options.styleLoader)
  let loadsStyle := items.any fun item => (styleName? scansStyles item).isSome
  items.filterMap (edit? source options scansStyles) ++
    if loadsStyle && !hasLoader then [loaderEdit source options elementImports.getLast?] else []

end Imports

end Storyboard
