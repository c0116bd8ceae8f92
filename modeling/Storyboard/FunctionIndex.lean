import Storyboard.Extraction.Extract

/-!
# The index of functions

An application lists its functions in one module, which imports each of them by default and exports an
object of them by default. The module that is generated from it loads each listed function instead, so that
the application receives their sources.
-/

namespace Storyboard

namespace FunctionIndex

/-- The failure of an index at a place. -/
def failure (source : SourceText) (message : String) (node : Node) : CompileError :=
  let position := source.position node
  { code := CompileError.functionsCode
    message
    file := source.file
    line := position.line
    column := position.column }

/-- The modules that are imported by default, by the names they are given. -/
def defaultImports (program : Node) : Fields String :=
  (ImportItem.ofProgram program).foldl (fun acc item =>
    (item.specifiers.filterMap ImportItem.defaultName?).foldl
      (fun acc name => Fields.set acc name item.source.value) acc) []

/-- The declarators of a statement that declares variables, also when it exports them. -/
def declarators (statement : Node) : List Node :=
  match statement.form with
  | .variableList _ declarators => declarators
  | .exportNamed _ (some declaration) _ _ =>
    match declaration.form with
    | .variableList _ declarators => declarators
    | _ => []
  | _ => []

/-- The value that a declarator gives to a name. -/
def valueOf? (name : String) (declarator : Node) : Option Node :=
  match declarator.form with
  | .declarator _ pattern value =>
    match pattern.form with
    | .binding declared => if declared == name then value else none
    | _ => none
  | _ => none

/-- The first value that the top level of a module gives to a name. -/
def topLevelValue? (program : Node) (name : String) : Option Node :=
  program.children.findSome? fun statement => (declarators statement).findSome? (valueOf? name)

/-- The properties of an object. -/
def properties? (node : Node) : Option (List Node) :=
  match node.form with
  | .object properties => some properties
  | _ => none

/-- The name that is the value of a property. -/
def listedName? (property : Node) : Option String :=
  match property.form with
  | .property _ _ value _ _ _ =>
    match value.form with
    | .identifier name => some name
    | _ => none
  | _ => none

/-- The properties of the object that a module exports by default, directly or by a name. -/
def exportedProperties (source : SourceText) (program exported value : Node) :
    Except CompileError (List Node) :=
  match value.form with
  | .identifier name =>
    match (topLevelValue? program name).bind properties? with
    | some properties => .ok properties
    | none => .error (failure source ("No binding variable for functions: " ++ name) value)
  | .object properties => .ok properties
  | _ => .error (failure source ("invalid export default in file " ++ source.file) exported)

/-- The value that a statement exports by default. -/
def defaultExport? (statement : Node) : Option (Node × Node) :=
  match statement.form with
  | .exportDefault value => some (statement, value)
  | _ => none

/-- Keep the first of equal texts. -/
def distinct (names : List String) : List String :=
  names.foldl (fun acc name => if acc.contains name then acc else acc ++ [name]) []

/-- The names of the listed functions, each once. -/
def listedNames (source : SourceText) (program : Node) : Except CompileError (List String) := do
  let lists ← (program.children.filterMap defaultExport?).mapM fun (exported, value) =>
    exportedProperties source program exported value
  return distinct (lists.flatten.filterMap listedName?)

/-- The entry that loads a function. -/
def entry (source : SourceText) (options : Options) (program : Node) (imports : Fields String)
    (name : String) : Except CompileError String :=
  match Fields.get? imports name with
  | some file =>
    .ok ("  " ++ name ++ ": " ++ options.functionLoader ++ "(" ++ Json.quote file ++ ", import.meta.url)")
  | none => .error (failure source ("function \"" ++ name ++ "\" is not default-imported") program)

/-- The text of the module with the given entries. -/
def render (options : Options) (entries : List String) : String :=
  "import \x7b " ++ options.functionLoader ++ " \x7d from " ++ Json.quote options.jsxModule ++
    ";\nexport default \x7b\n" ++ ",\n".intercalate entries ++ "\n\x7d;\n"

/-- The module that loads the functions of an index; there is none when the index lists no function. -/
def generate (source : SourceText) (options : Options) : Except CompileError (Option String) := do
  let module ← source.parse source.dialect
  let program := module.program
  let names ← listedNames source program
  if names.isEmpty then return none
  else
    let entries ← names.mapM (entry source options program (defaultImports program))
    return some (render options entries)

end FunctionIndex

end Storyboard
