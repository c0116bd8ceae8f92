import Storyboard.Scope.Binding
import Storyboard.Code.Tree

/-!
# The names that code declares

Each part of the code that opens a scope declares the names of that scope as soon as it is entered,
wherever in it the declarations stand. A block declares what its own statements declare; a function body or
a module also declares every `var` below it that no other function or class holds. Names are collected from
patterns without looking into the expressions that stand in them.
-/

namespace Storyboard

namespace Node

/-- The names that a pattern or a parameter declares, in the order they are written. -/
def bindingNames (node : Node) : List String :=
  match node.form with
  | .binding name => [name]
  | form =>
    if form.isExpression then []
    else node.children.attach.flatMap fun ⟨child, _⟩ => bindingNames child
termination_by sizeOf node
decreasing_by exact sizeOf_lt_of_mem_children (by assumption)

/-- The names that a declaration of variables declares. -/
def variableNames (declarators : List Node) : List String :=
  declarators.flatMap fun node =>
    match node.form with
    | .declarator _ pattern _ => pattern.bindingNames
    | _ => []

/-- The names of every `var` in a statement, at any depth outside functions, classes and expressions. -/
def varNames (node : Node) : List String :=
  match node.form with
  | .variableList kind declarators => if kind == .var then variableNames declarators else []
  | .function _ _ _ _ => []
  | .classOf _ _ _ _ _ => []
  | form =>
    if form.isExpression then []
    else node.children.attach.flatMap fun ⟨child, _⟩ => varNames child
termination_by sizeOf node
decreasing_by exact sizeOf_lt_of_mem_children (by assumption)

/-- The names that a declaration itself adds to its block. -/
def declaredNames (node : Node) : List String :=
  match node.form with
  | .variableList kind declarators => if kind == .var then [] else variableNames declarators
  | .function head name _ _ => if head.role == .declaration then name.toList.flatMap bindingNames else []
  | .classOf head _ name _ _ => if head.role == .declaration then name.toList.flatMap bindingNames else []
  | _ => []

/-- The names that a statement adds to its block, also when it exports what it declares. -/
def lexicalNames (node : Node) : List String :=
  match node.form with
  | .exportNamed _ (some declaration) _ _ => declaration.declaredNames
  | .exportDefault value => value.declaredNames
  | _ => node.declaredNames

end Node

namespace Scope

/-- Declare the names that an import brings in. -/
def declareImport (scope : Scope) (source : String) (specifier : Node) : Scope :=
  match specifier.form with
  | .importDefault name => Fields.set scope name (.imported source .defaultExport)
  | .importNamespace name => Fields.set scope name (.imported source .allExports)
  | .importNamed _ imported name => Fields.set scope name (.imported source (.named imported.value))
  | _ => scope

/-- Declare the names that the imports among some statements bring in. -/
def declareImports (scope : Scope) (statements : List Node) : Scope :=
  statements.foldl (fun acc statement =>
    match statement.form with
    | .importFrom _ specifiers source =>
      specifiers.foldl (fun acc specifier => declareImport acc source.value specifier) acc
    | _ => acc) scope

/-- Declare what the statements of a block declare themselves. -/
def declareLexical (scope : Scope) (statements : List Node) : Scope :=
  scope.declareAll (statements.flatMap Node.lexicalNames)

/-- Declare what statements declare for the function or module around them. -/
def declareHoisted (scope : Scope) (statements : List Node) : Scope :=
  (scope.declareLexical statements).declareAll (statements.flatMap Node.varNames)

/-- The statements of a body. -/
def bodyStatements (body : Node) : List Node :=
  match body.form with
  | .functionBody statements => statements
  | _ => []

/-- The names of a module: its imports, what its statements declare, and every `var`. -/
def ofProgram (statements : List Node) : Scope :=
  (declareImports [] statements).declareHoisted statements

/-- The names of a function: its own, its parameters, and what its body declares. -/
def ofFunction (name : Option Node) (parameters : List Node) (body : Option Node) : Scope :=
  let outer := declareAll [] (name.toList.flatMap Node.bindingNames ++ parameters.flatMap Node.bindingNames)
  outer.declareHoisted (body.toList.flatMap bodyStatements)

/-- The names of a block. -/
def ofBlock (statements : List Node) : Scope := declareLexical [] statements

/-- The statements of a case. -/
def caseStatements (node : Node) : List Node :=
  match node.form with
  | .switchCase _ statements => statements
  | _ => []

/-- The names of the one block that all cases of a switch share. -/
def ofCases (cases : List Node) : Scope := declareLexical [] (cases.flatMap caseStatements)

/-- The names of a pattern. -/
def ofPattern (pattern : Node) : Scope := declareAll [] pattern.bindingNames

/-- The names of the head of a loop, unless it declares none or declares them by `var`. -/
def ofLoopHead? (head : Node) : Option Scope :=
  match head.form with
  | .variableList kind declarators =>
    if kind == .var then none else some (declareAll [] (Node.variableNames declarators))
  | _ => none

/-- The name of a class, if it has one. -/
def ofClass? (name : Option Node) : Option Scope :=
  name.map fun node => declareAll [] node.bindingNames

end Scope

namespace Node

/-- The scope that a node opens for the parts inside it. -/
def scope? (node : Node) : Option Scope :=
  match node.form with
  | .program body => some (.ofProgram body)
  | .function _ name parameters body => some (.ofFunction name parameters body)
  | .arrow _ parameters body => some (.ofFunction none parameters (some body))
  | .classOf _ _ name _ _ => Scope.ofClass? name
  | .block body => some (.ofBlock body)
  | .catchClause pattern _ => pattern.map .ofPattern
  | .forLoop first _ _ _ => first.bind Scope.ofLoopHead?
  | .forIn left _ _ => Scope.ofLoopHead? left
  | .forOf _ left _ _ => Scope.ofLoopHead? left
  | .switch _ cases => some (.ofCases cases)
  | _ => none

/-- The parts of a node that are outside the scope it opens: what a switch looks at. -/
def outerChildren (node : Node) : List Node :=
  match node.form with
  | .switch subject _ => [subject]
  | _ => []

/-- The parts of a node that are inside the scope it opens. -/
def innerChildren (node : Node) : List Node :=
  match node.form with
  | .switch _ cases => cases
  | _ => node.children

/-- The parts of a node are those outside and those inside its scope. -/
theorem children_eq_outer_append_inner (node : Node) :
    node.children = node.outerChildren ++ node.innerChildren := by
  unfold outerChildren innerChildren
  split <;> simp_all [children, Form.children]

theorem mem_children_of_mem_outer {node child : Node} (member : child ∈ node.outerChildren) :
    child ∈ node.children := by
  rw [children_eq_outer_append_inner]
  exact List.mem_append_left _ member

theorem mem_children_of_mem_inner {node child : Node} (member : child ∈ node.innerChildren) :
    child ∈ node.children := by
  rw [children_eq_outer_append_inner]
  exact List.mem_append_right _ member

end Node

end Storyboard
