import Storyboard.Board
import Storyboard.Code.Printer.Statement
import Storyboard.Extraction.Extract
import Storyboard.Failure

/-!
# Loading resources

Generated modules load functions and style sheets that lie next to them. A function is loaded as bare code:
its imports are dropped, and what it exports by default stands as a statement of its own. If there is no
file of the asked name ending in `.js`, a file that ends in `.ts` instead may take its place.
-/

namespace Storyboard

namespace Loader

/-- A path without the scheme of files before it. -/
def withoutScheme (path : String) : String :=
  if path.startsWith "file://" then String.ofList (path.toList.drop 7) else path

/-- The path that a module at `base` means by `url`: it is taken relative to the directory of the module. -/
def resolve (url base : String) : String :=
  Path.join ((Path.parent? (withoutScheme base)).getD "") url

/-- The text of a file. -/
def readText (disk : Disk) (path : String) : Except Failure String :=
  Failure.blame path (disk.readText path)

/-- The text of a style sheet next to a module. -/
def loadStyle (disk : Disk) (url base : String) : Except Failure String :=
  readText disk (resolve url base)

/-! ## Functions -/

/-- A default export as bare code: an expression becomes a statement, a function or class stands as it is,
and a type is nothing. -/
def bareExport? (span : Span) (value : Node) : Option Node :=
  if value.form.isExpression then some (.mk span (.expressionStatement value))
  else
    match value.form with
    | .function _ _ _ _ => some value
    | .classOf _ _ _ _ _ => some value
    | _ => none

/-- A statement of a module as bare code; an import is nothing. -/
def bareStatement? (statement : Node) : Option Node :=
  match statement.form with
  | .importFrom _ _ _ => none
  | .exportDefault value => bareExport? statement.span value
  | _ => some statement

/-- The statements of a module as bare code. -/
def bareStatements (program : Node) : List Node := program.children.filterMap bareStatement?

/-- The text of a module as bare code. -/
def bareCode (source : SourceText) (dialect : Dialect) : Except CompileError String := do
  let module ← source.parse dialect
  return module.print source.text (bareStatements module.program)

/-- The file that may take the place of another one. -/
def typedPath (path : String) : String :=
  if path.endsWith ".js" then String.ofList (path.toList.take (path.length - 3)) ++ ".ts" else path

/-- The name of a function by the path of its file: everything before the first point. -/
def functionName (path : String) : String :=
  match Path.fileName? path with
  | some name => String.ofList (name.toList.takeWhile (· != '.'))
  | none => ""

/-- The function in a file next to a module. -/
def loadFunction (disk : Disk) (url base : String) : Except Failure FunctionResource := do
  let plain := resolve url base
  let isTyped := !disk.has plain && disk.has (typedPath plain)
  let path := if isTyped then typedPath plain else plain
  let text ← readText disk path
  let source ← (bareCode ⟨path, text⟩ { hasTypes := isTyped }).mapError .rejected
  return { name := functionName path, isTyped := if isTyped then some true else none, source }

end Loader

end Storyboard
