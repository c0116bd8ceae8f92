import Storyboard.Code.Grammar.Function

/-!
# The grammar of classes

A class has methods, fields and blocks of statements that run once. Its members may be decorated, and words
before them say how they may be used. Most of these words mean something only in typed modules, but all
modules may have them.
-/

namespace Storyboard

namespace Grammar

/-! ## Words before members -/

/-- Words that may stand before a member. -/
def memberWords : List String :=
  accessWords ++ ["readonly", "override", "abstract", "declare", "static", "accessor", "async"]

/-- Whether the token at the place is a word before a member, after the given ones. Only `static` may end its
line, it comes once, and before a brace it begins a block. -/
def atMemberWord (before : List String) : Parse Bool := do
  match ← kind with
  | .name text false =>
    if !memberWords.contains text then return false
    else if text == "static" then
      if before.contains text then return false
      else peekIs fun t => followsModifier t && t.kind != .mark "\x7b"
    else peekIs fun t => !t.afterLineEnd && followsModifier t
  | _ => return false

/-- The words before a member. -/
def memberModifiers : Parse (List String) := do
  let words ← extend (fun (words : List String) => do
    if ← atMemberWord words then return some (words ++ [← anyName]) else return none) []
  ensure (areCompatible words)
  return words

/-- A getter or setter, or nothing when the word is a key. -/
def accessorKind : Parse PropertyKind := do
  if (← atWord "get") && (← peekIs beginsKey) then
    advance
    return .getter
  else if (← atWord "set") && (← peekIs beginsKey) then
    advance
    return .setter
  else return .plain

/-! ## Keys -/

/-- The key of a class member, which may be private. -/
def classKey (rules : Rules) : Parse (Node × Bool) := do
  match ← kind with
  | .privateName text =>
    let start ← start
    ensure (text != "constructor")
    advance
    return (← close start (.privateName text), false)
  | _ => key rules

/-- Whether a key is private. -/
def isPrivateKey (key : Node) : Bool :=
  match key.form with
  | .privateName _ => true
  | _ => false

/-- Whether a key that is not computed has a given name. -/
def isKeyNamed (name : String) (key : Node) (isComputed : Bool) : Bool :=
  !isComputed &&
    match key.form with
    | .keyName text => text == name
    | .string text _ => text == name
    | _ => false

/-! ## Members -/

/-- A block of statements that runs once, after its first word. -/
def staticBlock (rules : Rules) (start : Nat) : Parse Node := do
  let inBlock (mode : Mode) : Mode := { mode with yields := false, awaits := true, returns := false }
  let body ← withReader inBlock (bracedStatements rules false)
  close start (.staticBlock body)

/-- A field from what follows its key and the question mark after it. -/
def field (rules : Rules) (start : Nat) (head : MemberHead) (decorators : List Node) (key : Node) :
    Parse Node := do
  let isDefinite ← eatMark "!"
  ensure (!(isDefinite && !head.mark.isEmpty))
  let mark := if isDefinite then "!" else head.mark
  let type ← declaredType
  let inField (mode : Mode) : Mode := { mode with yields := false, awaits := false, allowsIn := true }
  let value ← if ← eatMark "=" then some <$> withReader inField (rules .assignment) else pure none
  ensure (value.isNone || !head.modifiers.contains "abstract")
  ensure (!isKeyNamed "constructor" key head.isComputed)
  ensure (!(head.isStatic && isKeyNamed "prototype" key head.isComputed))
  endStatement
  close start (.field { head with mark, type } decorators key value)

/-- Whether a function can be that of a constructor: it has no type parameters, no type of a result and no
type for `this`. -/
def isConstructorFunction (node : Node) : Bool :=
  match node.form with
  | .function head _ parameters _ =>
    head.typeParameters.isEmpty && head.result.isNone && !head.isAsync && !head.isGenerator &&
      !parameters.any Node.isThisParameter
  | _ => false

/-- Whether a function has a body. -/
def hasBody (node : Node) : Bool :=
  match node.form with
  | .function _ _ _ body => body.isSome
  | _ => false

/-- A method from its parameters on. -/
def method (rules : Rules) (start : Nat) (head : MemberHead) (decorators : List Node) (key : Node)
    (isAsync isGenerator : Bool) : Parse Node := do
  let isConstructor := !head.isStatic && isKeyNamed "constructor" key head.isComputed
  let place : ParameterPlace := if isConstructor then .constructor else .method
  let value ← methodFunction rules place head.kind isAsync isGenerator
  ensure (!isConstructor || (head.kind == .plain && isConstructorFunction value &&
    head.modifiers.all accessWords.contains))
  ensure (!head.modifiers.contains "readonly")
  ensure (!(head.modifiers.contains "abstract" && hasBody value))
  ensure (!(head.isStatic && isKeyNamed "prototype" key head.isComputed))
  close start (.method { head with isAccessor := false } decorators key value)

/-- The members of every key, in a typed module. -/
def classIndex? (start : Nat) (isReadonly : Bool) : Parse (Option Node) := do
  if (← read).hasTypes && (← atMark "[") then
    attempt do
      let shape ← withTypes fun types => indexMember types isReadonly
      endStatement
      close start (.indexMember (.mk start shape))
  else return none

/-- A method or field after the words before it. -/
def namedClassMember (rules : Rules) (start : Nat) (decorators : List Node) (words : List String) :
    Parse Node := do
  let isAsync := words.contains "async"
  let isGenerator ← eatMark "*"
  let kind ← if isGenerator then pure PropertyKind.plain else accessorKind
  let (key, isComputed) ← classKey rules
  ensure (!(isPrivateKey key && words.any accessWords.contains))
  let mark := if ← eatMark "?" then "?" else ""
  let head : MemberHead := {
    kind
    isStatic := words.contains "static"
    isComputed
    isAccessor := words.contains "accessor"
    modifiers := words.filter fun word => !(["static", "accessor", "async"].contains word)
    mark }
  if isGenerator || kind != .plain || (← atMark "(") || (← atMark "<") then
    ensure (kind == .plain || (!isAsync && mark.isEmpty))
    method rules start head decorators key isAsync isGenerator
  else
    ensure !isAsync
    field rules start head decorators key

/-- A member of a class. -/
def classMember (rules : Rules) : Parse Node := do
  let start ← start
  let decorators ← decorators rules
  let words ← memberModifiers
  if (← atWord "static") && (← peekIs fun t => t.kind == .mark "\x7b") then
    ensure (decorators.isEmpty && words.isEmpty)
    advance
    staticBlock rules start
  else
    match ← if decorators.isEmpty then classIndex? start (words.contains "readonly") else pure none with
    | some node => return node
    | none =>
      let describes := words.contains "declare"
      withReader (fun mode => { mode with isAmbient := mode.isAmbient || describes })
        (namedClassMember rules start decorators words)

/-- The members of a class up to its closing brace; semicolons between them mean nothing. -/
def classMembers (rules : Rules) : Parse (List Node) := do
  let members ← itemsUntil "\x7d" do
    if ← eatMark ";" then return none else return some (← classMember rules)
  return members.reduceOption

/-! ## Classes -/

/-- What a class extends, with the types it is applied to. -/
def heritage (rules : Rules) : Parse (Option Node × List TypeExpr) := do
  if ← eatWord "extends" then
    let value ← rules .leftSide
    match value.form with
    | .typed (.instantiated types) applied => return (some applied, types)
    | _ =>
      let types ← if (← read).hasTypes then withTypes typeArguments else pure []
      return (some value, types)
  else return (none, [])

/-- A class after its decorators. -/
def classRest (rules : Rules) (start : Nat) (decorators : List Node) (role : Role) : Parse Node := do
  let isAbstract ← eatWord "abstract"
  expectWord "class"
  let name ← if (← atIdentifier) && !(← atWord "implements") then some <$> bindingNode else pure none
  let typeParameters ← declaredTypeParameters
  let (heritage, heritageArguments) ← heritage rules
  let implemented ← namedTypesAfter "implements"
  expectMark "\x7b"
  let inClass (mode : Mode) : Mode := { mode with allowsResult := true, inDecorator := false }
  let members ← withReader inClass (classMembers rules)
  close start (.classOf { role, isAbstract, typeParameters, heritageArguments, implemented } decorators name
    heritage members)

/-- A class with its decorators. -/
def classNode (rules : Rules) (role : Role) : Parse Node := do
  let start ← start
  let decorators ← decorators rules
  classRest rules start decorators role

end Grammar

end Storyboard
