import Storyboard.Code.Grammar.Types

/-!
# Patterns and targets

A pattern declares names, a target is written to. Both can take objects and arrays apart. A target is first
read as an expression and then turned into a target, because only what follows it tells that it is one.
-/

namespace Storyboard

namespace Grammar

/-- Read inside brackets, where `in` is an operator again. -/
def inside {α : Type} (rule : Parse α) : Parse α :=
  withReader (fun mode => { mode with allowsIn := true, allowsResult := true, inDecorator := false }) rule

/-! ## Keys -/

/-- A key of a property or member, and whether it is computed. -/
def key (rules : Rules) : Parse (Node × Bool) := do
  let start ← start
  match ← kind with
  | .name text _ =>
    advance
    return (← close start (.keyName text), false)
  | .text value hasHalves =>
    advance
    return (← close start (.string value hasHalves), false)
  | .number value =>
    advance
    return (← close start (.number value), false)
  | .bigint value =>
    advance
    return (← close start (.bigint value), false)
  | .mark "[" =>
    advance
    let value ← inside (rules .assignment)
    expectMark "]"
    return (value, true)
  | _ => failure

/-- The name of a key that can stand for a property with a value of the same name. -/
def shorthandName? (mode : Mode) (key : Node) : Option String :=
  match key.form with
  | .keyName name => if isIdentifier mode name then some name else none
  | _ => none

/-! ## Patterns -/

/-- A pattern with the default that may follow it. -/
def withDefault (rules : Rules) (start : Nat) (pattern : Node) : Parse Node := do
  if ← eatMark "=" then
    let default ← inside (rules .assignment)
    close start (.defaulted pattern default)
  else return pattern

/-- A pattern that may have a default. -/
def patternElement (rules : Rules) : Parse Node := do
  let start ← start
  let pattern ← rules .pattern
  withDefault rules start pattern

/-- The last element of an array pattern, which takes all that is left. -/
def restPattern (rules : Rules) (closing : String) : Parse Node := do
  let start ← start
  expectMark "..."
  let pattern ← rules .pattern
  ensure (← atMark closing)
  close start (.rest pattern)

/-- An array pattern after its opening bracket. -/
def arrayPattern (rules : Rules) (start : Nat) : Parse Node := do
  let elements ← commaList "]" do
    if ← atMark "," then return .mk ⟨← Grammar.start, ← Grammar.start⟩ .hole
    else if ← atMark "..." then restPattern rules "]"
    else patternElement rules
  close start (.arrayPattern elements)

/-- A property of an object pattern. -/
def patternProperty (rules : Rules) : Parse Node := do
  let start ← start
  let (key, isComputed) ← key rules
  if ← eatMark ":" then
    let value ← patternElement rules
    close start (.patternProperty key value false isComputed)
  else
    let name ← shorthandName? (← read) key
    let value ← withDefault rules start (.mk key.span (.binding name))
    close start (.patternProperty key value true false)

/-- Whether a node is a single declared name. -/
def isBinding (node : Node) : Bool :=
  match node.form with
  | .binding _ => true
  | _ => false

/-- What is left of an object, which is a single name. -/
def restProperty (rules : Rules) : Parse Node := do
  let node ← restPattern rules "\x7d"
  match node.form with
  | .rest pattern =>
    ensure (isBinding pattern)
    return node
  | _ => failure

/-- An object pattern after its opening brace. -/
def objectPattern (rules : Rules) (start : Nat) : Parse Node := do
  let properties ← commaList "\x7d" do
    if ← atMark "..." then restProperty rules else patternProperty rules
  close start (.objectPattern properties)

/-- A pattern. -/
def pattern (rules : Rules) : Parse Node := do
  let start ← start
  if ← eatMark "[" then arrayPattern rules start
  else if ← eatMark "\x7b" then objectPattern rules start
  else bindingNode

/-! ## Targets -/

/-- Forget that a shorthand property with a default is not part of a target. -/
def dropCover (start : Nat) : Parse Unit :=
  modify fun r => { r with covers := r.covers.filter (· != start) }

/-- Whether a node is a name or a member, which may be given types. -/
def isPlace : Node → Bool
  | .mk _ (.identifier _) => true
  | .mk _ (.member _ false _) => true
  | .mk _ (.privateMember _ false _) => true
  | .mk _ (.index _ false _) => true
  | .mk _ (.typed _ value) => isPlace value
  | _ => false

/-- Turn an expression into a target, with patterns nested at most `depth` deep. -/
def toTarget : Nat → Node → Parse Node
  | 0, _ => failure
  | depth + 1, .mk span form =>
    let element (node : Node) : Parse Node :=
      match node.form with
      | .assign "=" target value => return .mk node.span (.targetDefault target value)
      | _ => toTarget depth node
    let item (node : Node) : Parse Node :=
      match node.form with
      | .hole => return node
      | .spread value => do
        ensure (!(← get).followed.contains node.span.start)
        return .mk node.span (.targetRest (← toTarget depth value))
      | _ => element node
    let property (node : Node) : Parse Node :=
      match node.form with
      | .property .plain _ (.mk _ (.identifier name)) false true _ =>
        return .mk node.span (.targetShorthand name none)
      | .property .plain (.mk _ (.keyName name)) (.mk _ (.assign _ _ value)) false true _ => do
        dropCover node.span.start
        return .mk node.span (.targetShorthand name (some value))
      | .property .plain key value false false isComputed => do
        return .mk node.span (.targetProperty key (← element value) isComputed)
      | .spread _ => item node
      | _ => failure
    match form with
    | .identifier name => return .mk span (.targetName name)
    | .member owner false name => return .mk span (.targetMember owner name)
    | .privateMember owner false name => return .mk span (.targetPrivate owner name)
    | .index owner false key => return .mk span (.targetIndex owner key)
    | .object properties => do
      return .mk span (.objectTarget (← properties.mapM property))
    | .array elements => do
      return .mk span (.arrayTarget (← elements.mapM item))
    | .typed (.instantiated _) _ => failure
    | .typed use value => do
      ensure (isPlace value)
      return .mk span (.typed use value)
    | _ => failure

/-- Turn an expression into a target. -/
def target (node : Node) : Parse Node := do toTarget (← read).limit node

/-- Turn an expression into a target that takes nothing apart. -/
def simpleTarget (node : Node) : Parse Node := do
  match node.form with
  | .object _ => failure
  | .array _ => failure
  | _ => target node

end Grammar

end Storyboard
