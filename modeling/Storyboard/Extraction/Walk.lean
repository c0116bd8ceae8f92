import Storyboard.Diagnostic
import Storyboard.Edit
import Storyboard.Placeholder
import Storyboard.Scope.Declared
import Storyboard.Scope.Resolver

/-!
# Expressions that are evaluated later

A walk over a module decides for each expression whether it is plain data, which stays as it is, or has to
be evaluated later, and then a placeholder takes its place. The walk goes from the outside in and does not
look into what it replaces. Names that nothing declares are reported on the way. The decision about a node
depends only on the node and the scopes around it.
-/

namespace Storyboard

/-- The source that is worked on and the file it is from. -/
structure SourceText where
  /-- The name of the file. -/
  file : String
  /-- The whole text. -/
  text : String

namespace SourceText

/-- The text that a node covers. -/
def covered (source : SourceText) (node : Node) : String :=
  Text.sliceString source.text node.span.start node.span.stop

/-- The place where a node begins. -/
def position (source : SourceText) (node : Node) : Position :=
  Position.ofOffset source.text.toList node.span.start

/-- A frame that shows a node. -/
def frame (source : SourceText) (node : Node) (severity : Severity) (message : String) : String :=
  codeFrame source.text source.file node.span.start node.span.stop severity message

end SourceText

/-- A text literal that holds a placeholder. -/
def Placeholder.literal (placeholder : Placeholder) : String := Json.quote placeholder.render

/-- What is done with a node. -/
inductive Decision where
  /-- Its text is replaced. -/
  | replace (edit : Edit)
  /-- It stays, and its parts are decided on in turn. -/
  | descend (warnings : List Diagnostic)
  /-- It stays with all its parts. -/
  | keep (warnings : List Diagnostic)
  /-- The module can not be compiled. -/
  | refuse (error : CompileError)

namespace Decision

/-- Put a placeholder in the place of a node. -/
def replaceBy (node : Node) (placeholder : Placeholder) : Decision :=
  .replace ⟨node.span.start, node.span.stop, placeholder.literal⟩

end Decision

namespace Extraction

/-! ## Markers -/

/-- A call of a name: the name and the arguments. -/
def namedCall? (node : Node) : Option (String × List Node) :=
  match node.form with
  | .call head callee arguments =>
    match callee.form with
    | .identifier name => if head.isOptional then none else some (name, arguments)
    | _ => none
  | _ => none

/-- The marker that a call applies, with its arguments. -/
def markerCall? (resolver : Resolver) (node : Node) : Option (Marker × List Node) := do
  let (name, arguments) ← namedCall? node
  let marker ← resolver.marker? name
  return (marker, arguments)

/-- The failure of a marker that is not applied to exactly one argument. -/
def arityError (source : SourceText) (options : Options) (call : Node) (marker : Marker)
    (arguments : List Node) : CompileError :=
  let name := marker.name options
  let message :=
    "`" ++ name ++ "()` expects exactly one argument, received: " ++ toString arguments.length
  let position := source.position call
  { code := CompileError.arityCode
    message
    file := source.file
    line := position.line
    column := position.column
    context := some (source.frame call .error message)
    hints := ["wrap the whole expression: " ++ name ++ "(a + b)"] }

/-- The mode of a marker that is applied alone. -/
def modeOf : Marker → EvalMode
  | .reactive => .bind
  | .recursive => .recursive

/-- The placeholder of a marker and its arguments. A marker whose argument is a call of the other marker
gives a tracked placeholder. -/
def markerPlaceholder (source : SourceText) (resolver : Resolver) (call : Node) (marker : Marker)
    (arguments : List Node) : Except CompileError Placeholder :=
  match arguments with
  | [argument] =>
    match markerCall? resolver argument with
    | some (inner, innerArguments) =>
      if inner == marker then .ok (.plain (modeOf marker) (source.covered argument))
      else
        match innerArguments with
        | [innermost] => .ok (.tracked (source.covered innermost))
        | _ => .error (arityError source resolver.options argument inner innerArguments)
    | none => .ok (.plain (modeOf marker) (source.covered argument))
  | _ => .error (arityError source resolver.options call marker arguments)

/-- Whether a node is a call of the style loader. -/
def isStyleLoaderCall (resolver : Resolver) (node : Node) : Bool :=
  match namedCall? node with
  | some (name, _) => resolver.isStyleLoader name
  | none => false

/-! ## Plain data -/

/-- The warning about a name that nothing declares. -/
def freeNameWarning (source : SourceText) (node : Node) (name : String) : Diagnostic :=
  let message := "unknown variable \"" ++ name ++ "\""
  let position := source.position node
  { severity := .warning
    message
    file := source.file
    line := position.line
    column := position.column
    frame := source.frame node .warning message }

/-- The warnings about a name. -/
def nameWarnings (source : SourceText) (resolver : Resolver) (node : Node) (name : String) :
    List Diagnostic :=
  if resolver.classify name == .free then [freeNameWarning source node name] else []

/-- Whether a property has a key that plain data can have. -/
def hasPlainKey (property : Node) : Bool :=
  match property.form with
  | .property .plain key _ false _ isComputed =>
    match key.form with
    | .keyName _ => !isComputed
    | .string _ _ => true
    | _ => false
  | _ => false

/-- Whether a node is a property of the environment, such as `import.meta`. -/
def isMetaProperty (node : Node) : Bool :=
  match node.form with
  | .metaProperty _ _ => true
  | _ => false

/-- Whether a node is a number other than zero. -/
def isNonzeroNumber (node : Node) : Bool :=
  match node.form with
  | .number value => !value.isZero
  | _ => false

/-- Whether a node is an element that plain data can have. -/
def isPlainElement (node : Node) : Bool :=
  match node.form with
  | .spread _ => false
  | .hole => false
  | _ => true

/-- Whether an expression is plain data, apart from the expressions inside it. -/
def isPlainData (resolver : Resolver) (node : Node) : Bool :=
  match node.form with
  | .string _ _ => true
  | .number _ => true
  | .boolean _ => true
  | .nothing => true
  | .jsxElement _ _ _ => true
  | .jsxFragment _ => true
  | .metaProperty _ _ => true
  | .unary .minus operand => isNonzeroNumber operand
  | .member object _ _ => isMetaProperty object
  | .index object _ _ => isMetaProperty object
  | .identifier name => (resolver.classify name).isStatic
  | .object properties => properties.all hasPlainKey
  | .array elements => elements.all isPlainElement
  | _ => false

/-! ## Decisions -/

/-- The warnings about an expression that stays. -/
def plainWarnings (source : SourceText) (resolver : Resolver) (node : Node) : List Diagnostic :=
  match node.form with
  | .identifier name => nameWarnings source resolver node name
  | _ => []

/-- What is done with an expression that is not a marker. -/
def decidePlain (source : SourceText) (resolver : Resolver) (node : Node) : Decision :=
  if isPlainData resolver node then .descend (plainWarnings source resolver node)
  else .replaceBy node (.plain .once (source.covered node))

/-- What is done with an expression. -/
def decideExpression (source : SourceText) (resolver : Resolver) (node : Node) : Decision :=
  if isStyleLoaderCall resolver node then .descend []
  else
    match markerCall? resolver node with
    | some (marker, arguments) =>
      match markerPlaceholder source resolver node marker arguments with
      | .ok placeholder => .replaceBy node placeholder
      | .error error => .refuse error
    | none => decidePlain source resolver node

/-- What is done with a property that is given by a name alone. If the value is replaced, the name has to
be written as its key. -/
def decideShorthand (source : SourceText) (resolver : Resolver) (property value : Node) (name : String) :
    Decision :=
  if (resolver.classify name).isStatic then .keep (nameWarnings source resolver value name)
  else
    let literal := (Placeholder.plain .once (source.covered value)).literal
    .replace ⟨property.span.start, property.span.stop, name ++ ": " ++ literal⟩

/-- The value of a property that is given by a name alone. -/
def shorthandValue? (node : Node) : Option (Node × String) :=
  match node.form with
  | .property _ _ value _ true _ =>
    match value.form with
    | .identifier name => some (value, name)
    | _ => none
  | _ => none

/-- What is done with a node. -/
def decide (source : SourceText) (resolver : Resolver) (node : Node) : Decision :=
  match shorthandValue? node with
  | some (value, name) => decideShorthand source resolver node value name
  | none => if node.form.isExpression then decideExpression source resolver node else .descend []

/-! ## The walk -/

/-- What a walk finds. -/
structure Findings where
  /-- The replacements. -/
  edits : List Edit := []
  /-- The warnings. -/
  warnings : List Diagnostic := []

namespace Findings

/-- The findings of two walks, one after the other. -/
def append (first second : Findings) : Findings :=
  ⟨first.edits ++ second.edits, first.warnings ++ second.warnings⟩

/-- The findings of several walks, one after the other. -/
def concat (all : List Findings) : Findings := all.foldr append {}

end Findings

/-- The scopes around the parts inside a node. -/
def innerResolver (resolver : Resolver) (node : Node) : Resolver :=
  match node.scope? with
  | some scope => resolver.enter scope
  | none => resolver

/-- Decide on a node and on what is below it. -/
def visit (source : SourceText) (resolver : Resolver) (node : Node) : Except CompileError Findings :=
  match decide source resolver node with
  | .refuse error => .error error
  | .replace edit => .ok { edits := [edit] }
  | .keep warnings => .ok { warnings }
  | .descend warnings => do
    let outer ← node.outerChildren.attach.mapM fun ⟨child, _⟩ => visit source resolver child
    let inner ← node.innerChildren.attach.mapM fun ⟨child, _⟩ =>
      visit source (innerResolver resolver node) child
    return .concat ({ warnings } :: (outer ++ inner))
termination_by sizeOf node
decreasing_by
  · exact Node.sizeOf_lt_of_mem_children (Node.mem_children_of_mem_outer (by assumption))
  · exact Node.sizeOf_lt_of_mem_children (Node.mem_children_of_mem_inner (by assumption))

end Extraction

end Storyboard
