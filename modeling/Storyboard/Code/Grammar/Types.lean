import Storyboard.Code.Grammar.Basic

/-!
# The grammar of types

Types are read in typed modules, and in a few places of other modules. They hold no expressions, so their
rules call each other and nothing else.
-/

namespace Storyboard

namespace Grammar

/-- What a rule for types is asked for by another one. -/
inductive TypeGoal where
  /-- Any type. -/
  | full
  /-- A type without a choice at its end. -/
  | unconditional
  /-- A type with the words before it; the flag tells that no choice may follow it. -/
  | operand (isBound : Bool)

/-- How rules for types call each other. -/
abbrev TypeRules := TypeGoal → Parse TypeExpr

/-- Words that are types of their own. -/
def typeWords : List String :=
  ["any", "unknown", "string", "number", "boolean", "void", "null", "undefined", "never", "object", "symbol",
    "bigint", "true", "false"]

/-- A name with its qualifiers. -/
def qualifiedName : Parse (List String) := do
  let first ← anyName
  let others ← collect do
    if ← eatMark "." then return some (← anyName) else return none
  return first :: others

/-- At least one item in angle brackets, the first of which has been taken. -/
def angledList {α : Type} (item : Parse α) : Parse (List α) := do
  let items ← commaList ">" item
  ensure !items.isEmpty
  return items

/-- The types that something is applied to, if there are any. -/
def typeArguments (types : TypeRules) : Parse (List TypeExpr) := do
  if ← afterLineEnd then return []
  else if ← eatAngle then angledList (types .full)
  else return []

/-- The words before a type parameter, in their usual order. -/
def parameterWords : Parse (List String) := do
  let isName (token : Token) : Bool :=
    match token.kind with
    | .name text _ => text != "extends"
    | _ => false
  let words ← collect do
    match ← kind with
    | .name text false =>
      if ["const", "in", "out"].contains text && (← peekIs isName) then
        advance
        return some text
      else return none
    | _ => return none
  return ["const", "in", "out"].filter words.contains

/-- Type parameters, if there are any. -/
def typeParameters (types : TypeRules) : Parse (List TypeParameter) := do
  if ← eatMark "<" then
    angledList do
      let words ← parameterWords
      let name ← identifierName
      let bound ← if ← eatWord "extends" then some <$> types .full else pure none
      let default ← if ← eatMark "=" then some <$> types .full else pure none
      return .mk words name bound default
  else return []

/-- The type after a colon, if there is one. -/
def typeAfterColon (types : TypeRules) : Parse (Option TypeExpr) := do
  if ← eatMark ":" then some <$> types .full else return none

/-! ## Members and parameters -/

/-- A computed key after its opening bracket. -/
def computedMemberKey : Parse MemberKey := do
  match ← kind with
  | .text value _ =>
    advance
    return .computedText value
  | .number value =>
    advance
    return .computedNumber value
  | _ => return .computed (← qualifiedName)

/-- The key of a member of an object type. -/
def memberKey : Parse MemberKey := do
  match ← kind with
  | .text value _ =>
    advance
    return .text value
  | .number _ =>
    let written ← writtenNumber
    advance
    return .number written
  | .mark "[" =>
    advance
    let key ← computedMemberKey
    expectMark "]"
    return key
  | _ => return .name (← anyName)

/-- Whether a token can begin the key of a member. -/
def beginsKey (token : Token) : Bool :=
  match token.kind with
  | .name _ _ => true
  | .text _ _ => true
  | .number _ => true
  | .bigint _ => true
  | .privateName _ => true
  | .mark text => text == "["
  | _ => false

/-- What a parameter of a function type is called, with patterns nested at most `depth` deep. -/
def parameterName : Nat → Parse ParameterName
  | 0 => failure
  | depth + 1 => do
    let rest (closing : String) : Parse ParameterPart := do
      expectMark "..."
      let content ← parameterName depth
      ensure (← atMark closing)
      return .rest content
    if ← eatMark "[" then
      return .array (← commaList "]" do
        if ← atMark "," then return .hole
        else if ← atMark "..." then rest "]"
        else return .element (← parameterName depth))
    else if ← eatMark "\x7b" then
      let mode ← read
      return .object (← commaList "\x7d" do
        if ← atMark "..." then rest "\x7d"
        else
          let key ← memberKey
          if ← eatMark ":" then return .property key (← parameterName depth)
          else
            match key with
            | .name value =>
              ensure (isIdentifier mode value)
              return .element (.name value)
            | _ => failure)
    else return .name (← identifierName)

/-- A parameter of a function type. One that takes all remaining arguments is the last. -/
def typedName (types : TypeRules) : Parse TypedName := do
  let isRest ← eatMark "..."
  let name ← parameterName (← read).limit
  let isOptional ← if isRest then pure false else eatMark "?"
  let type ← typeAfterColon types
  if isRest then ensure (← atMark ")")
  return .mk isRest name isOptional type

/-- The parameter of a function type that gives a type to `this`. -/
def thisName (types : TypeRules) : Parse TypedName := do
  expectWord "this"
  let type ← typeAfterColon types
  unless ← eatMark "," do ensure (← atMark ")")
  return .mk false (.name "this") false type

/-- The parameters of a function type after their opening parenthesis. -/
def typedNames (types : TypeRules) : Parse (List TypedName) := do
  let this ← if ← atWord "this" then some <$> thisName types else pure none
  let others ← commaList ")" (typedName types)
  return this.toList ++ others

/-- The type of a result, which may be a statement about a parameter. -/
def resultType (types : TypeRules) : Parse TypeExpr := do
  let subject : Parse String := do
    let name ← identifierName
    ensure ((← atWord "is") && !(← afterLineEnd))
    advance
    return name
  match ← attempt subject with
  | some name => return .predicate false name (some (← types .full))
  | none => types .full

/-- The parameters and the result of a function type, the result after a given mark. -/
def signature (types : TypeRules) (mark : String) : Parse Signature := do
  let parameters ← typeParameters types
  expectMark "("
  let names ← typedNames types
  if ← eatMark mark then return .mk parameters names (some (← resultType types))
  else
    ensure (mark == ":")
    return .mk parameters names none

/-- The members of every key: a name in brackets with its type, then the type of the members. -/
def indexMember (types : TypeRules) (isReadonly : Bool) : Parse MemberShape := do
  expectMark "["
  let name ← anyName
  expectMark ":"
  let key ← types .full
  expectMark "]"
  expectMark ":"
  return .index isReadonly name key (← types .full)

/-- A member of an object type that has a key. -/
def keyedMember (types : TypeRules) : Parse MemberShape := do
  let isReadonly ←
    if (← atWord "readonly") && (← peekIs fun t => beginsKey t && !t.afterLineEnd) then do
      advance
      pure true
    else pure false
  match ← attempt (indexMember types isReadonly) with
  | some found => return found
  | none =>
    let word ←
      if ((← atWord "get") || (← atWord "set")) && (← peekIs beginsKey) then do
        let word ← anyName
        pure (word ++ " ")
      else pure ""
    let key ← memberKey
    let isOptional ← eatMark "?"
    if (← atMark "(") || (← atMark "<") then
      return .method word key isOptional (← signature types ":")
    else return .property isReadonly key isOptional (← typeAfterColon types)

/-- A member of an object type. -/
def typeMember (types : TypeRules) : Parse TypeMember := do
  let start ← start
  if (← atMark "(") || (← atMark "<") then return .mk start (.call false (← signature types ":"))
  else if (← atWord "new") && (← peekIs fun t => t.kind == .mark "(" || t.kind == .mark "<") then
    advance
    return .mk start (.call true (← signature types ":"))
  else return .mk start (← keyedMember types)

/-- The members of an object type up to its closing brace. -/
def typeMembers (types : TypeRules) : Parse (List TypeMember) := do
  expectMark "\x7b"
  itemsUntil "\x7d" do
    let found ← typeMember types
    unless ← eatMark "," do endStatement
    return found

/-- A sign and a word that changes all members, such as `+readonly`; the sign is empty when left out. -/
def signed (word : Parse Unit) : Parse (Option String) := do
  let signed : Parse String := do
    let sign ← if ← eatMark "+" then pure "+" else if ← eatMark "-" then pure "-" else pure ""
    word
    return sign
  attempt signed

/-- An object type with a member for each key. -/
def mappedType (types : TypeRules) : Parse TypeExpr := do
  expectMark "\x7b"
  let readonlySign ← signed (expectWord "readonly")
  expectMark "["
  let key ← anyName
  expectWord "in"
  let keys ← types .full
  let renamed ← if ← eatWord "as" then some <$> types .full else pure none
  expectMark "]"
  let optionalSign ← signed (expectMark "?")
  let value ← typeAfterColon types
  let _ ← eatMark ";"
  expectMark "\x7d"
  return .mapped readonlySign key keys renamed optionalSign value

/-- An element of a tuple. -/
def tupleElement (types : TypeRules) : Parse TupleElement := do
  let isRest ← eatMark "..."
  let labeled : Parse (String × Bool) := do
    let name ← anyName
    let isOptional ← eatMark "?"
    expectMark ":"
    return (name, isOptional)
  match ← attempt labeled with
  | some (name, isOptional) => return .mk isRest (some name) isOptional (← types .full)
  | none => return .mk isRest none false (← types .full)

/-! ## Types without operators -/

/-- The texts and types of a template, from its opening quote on. -/
def typeTemplateParts (types : TypeRules) : Nat → Parse (List String × List TypeExpr)
  | 0 => failure
  | limit + 1 => do
    match ← kind with
    | .template raw _ isLast =>
      advance
      if isLast then return ([raw], [])
      else
        let value ← types .full
        ensure (← atMark "\x7d")
        let (kind, after) ← Lexer.template? ((← get).here.skip 1)
        retake kind after
        let (texts, values) ← typeTemplateParts types limit
        return (raw :: texts, value :: values)
    | _ => failure

/-- A name and a text in the options of an imported type. -/
def lookupEntry : Parse (String × Bool × String) := do
  let isText := match ← kind with
    | .text _ _ => true
    | _ => false
  let name ← if isText then textValue else anyName
  expectMark ":"
  return (name, isText, ← textValue)

/-- What an imported type is looked up with. -/
def lookupOptions : Parse LookupOptions := do
  expectMark "\x7b"
  let word ← anyName
  expectMark ":"
  expectMark "\x7b"
  let entries ← commaList "\x7d" lookupEntry
  let _ ← eatMark ","
  expectMark "\x7d"
  return { word, entries }

/-- A type of another module, after the words before it. -/
def importedType (types : TypeRules) (isQuery : Bool) : Parse TypeExpr := do
  expectWord "import"
  expectMark "("
  let source ← textValue
  let options ← if ← eatMark "," then some <$> lookupOptions else pure none
  expectMark ")"
  let name ← if ← eatMark "." then qualifiedName else pure []
  return .imported isQuery source options name (← typeArguments types)

/-- A number, which may be negative. -/
def numberType (isNegative : Bool) : Parse TypeExpr := do
  match ← kind with
  | .number _ =>
    let written ← writtenNumber
    advance
    return .number isNegative written
  | .bigint value =>
    advance
    return .bigint isNegative value
  | _ => failure

/-- The type `this`, or a statement about it. -/
def thisType (types : TypeRules) : Parse TypeExpr := do
  expectWord "this"
  if (← atWord "is") && !(← afterLineEnd) then
    advance
    return .predicate false "this" (some (← types .full))
  else return .keyword "this"

/-- A statement that has to hold about a parameter, after its first word. -/
def assertedType (types : TypeRules) : Parse TypeExpr := do
  let subject ← anyName
  if (← atWord "is") && !(← afterLineEnd) then
    advance
    return .predicate true subject (some (← types .full))
  else return .predicate true subject none

/-- A question mark before a type, which may be left out. -/
def questionedType (types : TypeRules) : Parse TypeExpr := do
  expectMark "?"
  let ends := match ← kind with
    | .mark text => [",", "\x7d", ")", ">", "=", "|"].contains text
    | _ => false
  if ends then return .keyword "unknown" else return .marked "?" true (← types .full)

/-- A type by its name, with the types it is applied to. -/
def referencedType (types : TypeRules) : Parse TypeExpr := do
  match ← kind with
  | .name text _ =>
    ensure (!reservedWords.contains text)
    let name ← qualifiedName
    return .reference name (← typeArguments types)
  | _ => failure

/-- Whether a token is a name on the same line that a statement can be about. -/
def isSubject (token : Token) : Bool :=
  !token.afterLineEnd &&
    match token.kind with
    | .name text _ => text == "this" || !reservedWords.contains text
    | _ => false

/-- A type that begins with a word. -/
def wordType (types : TypeRules) (word : String) : Parse TypeExpr := do
  match word with
  | "import" => importedType types false
  | "typeof" =>
    advance
    if ← atWord "import" then importedType types true
    else
      let name ← qualifiedName
      return .query name (← typeArguments types)
  | "this" => thisType types
  | "asserts" =>
    if ← peekIs isSubject then
      advance
      assertedType types
    else referencedType types
  | _ =>
    if typeWords.contains word && !(← peekIs fun t => t.kind == .mark ".") then
      advance
      return .keyword word
    else referencedType types

/-- A type without operators. Parentheses around it leave no trace. -/
def primaryType (types : TypeRules) : Parse TypeExpr := do
  match ← kind with
  | .text value _ =>
    advance
    return .text value
  | .number _ => numberType false
  | .bigint _ => numberType false
  | .mark "-" =>
    advance
    numberType true
  | .mark "?" => questionedType types
  | .mark "!" =>
    advance
    return .marked "!" true (← types (.operand false))
  | .mark "(" =>
    advance
    let content ← types .full
    expectMark ")"
    return content
  | .mark "[" =>
    advance
    return .tuple (← commaList "]" (tupleElement types))
  | .mark "\x7b" =>
    match ← attempt (mappedType types) with
    | some mapped => return mapped
    | none => return .object (← typeMembers types)
  | .template _ _ _ =>
    let (texts, values) ← typeTemplateParts types (← read).limit
    return .template texts values
  | .name text false => wordType types text
  | _ => referencedType types

/-! ## Types with operators -/

/-- Reserved words that begin types. -/
def reservedTypeWords : List String :=
  ["void", "null", "this", "typeof", "new", "true", "false", "import", "function"]

/-- Whether a token can begin a type. -/
def beginsType (token : Token) : Bool :=
  match token.kind with
  | .name text _ => reservedTypeWords.contains text || !reservedWords.contains text
  | .mark text => ["\x7b", "[", "(", "<", "|", "&", "*", "?", "!", "...", "-"].contains text
  | .text _ _ => true
  | .number _ => true
  | .bigint _ => true
  | .template _ _ _ => true
  | _ => false

/-- A type followed by brackets and marks on the same line. A question mark before another type belongs to a
choice. -/
def postfixType (types : TypeRules) : Parse TypeExpr := do
  extend (fun type => do
    if ← afterLineEnd then return none
    else
      match ← kind with
      | .mark "[" =>
        advance
        if ← eatMark "]" then return some (.array type)
        else
          let index ← types .full
          expectMark "]"
          return some (.indexed type index)
      | .mark "!" =>
        advance
        return some (.marked "!" false type)
      | .mark "?" =>
        if ← peekIs beginsType then return none
        else
          advance
          return some (.marked "?" false type)
      | _ => return none) (← primaryType types)

/-- Whether a type is an array or a tuple. -/
def isSequenceType : TypeExpr → Bool
  | .array _ => true
  | .tuple _ => true
  | _ => false

/-- A type with the words before it. Where no choice may follow, a question mark after the bound of a type
that is to be found belongs to the surroundings. -/
def operandType (types : TypeRules) (isBound : Bool) : Parse TypeExpr := do
  match ← kind with
  | .name "infer" false =>
    advance
    let name ← identifierName
    let bounded : Parse TypeExpr := do
      expectWord "extends"
      let bound ← types .unconditional
      ensure (isBound || !(← atMark "?"))
      return bound
    return .infer name (← attempt bounded)
  | .name text false =>
    if ["keyof", "unique", "readonly"].contains text then
      advance
      let operand ← types (.operand isBound)
      ensure (text != "readonly" || isSequenceType operand)
      return .operator text operand
    else postfixType types
  | _ => postfixType types

/-- Types joined by a mark, which may also stand before the first. -/
def joinedTypes (mark : String) (part : Parse TypeExpr) (join : List TypeExpr → TypeExpr) :
    Parse TypeExpr := do
  let leads ← eatMark mark
  let first ← part
  let others ← collect do
    if ← eatMark mark then return some (← part) else return none
  if others.isEmpty && !leads then return first else return join (first :: others)

/-- A function type. -/
def functionType (types : TypeRules) : Parse TypeExpr := do
  let isAbstract ← eatWord "abstract"
  let constructs ← eatWord "new"
  let type : TypeExpr := .function constructs (← signature types "=>")
  return if isAbstract then .operator "abstract" type else type

/-- A type without a choice at its end; the flag tells that none may follow it. -/
def unconditionalType (types : TypeRules) (isBound : Bool) : Parse TypeExpr := do
  let isAbstract := (← atWord "abstract") && (← peekIs fun t => t.kind == .name "new" false)
  let mayBeFunction := isAbstract || (← atMark "(") || (← atMark "<") || (← atWord "new")
  let found ← if mayBeFunction then attempt (functionType types) else pure none
  match found with
  | some type => return type
  | none => joinedTypes "|" (joinedTypes "&" (operandType types isBound) .intersection) .union

/-- Any type. -/
def fullType (types : TypeRules) : Parse TypeExpr := do
  let check ← unconditionalType types false
  if (← atWord "extends") && !(← afterLineEnd) then
    let choice : Parse TypeExpr := do
      advance
      let bound ← types .unconditional
      expectMark "?"
      let yes ← types .full
      expectMark ":"
      return .conditional check bound yes (← types .full)
    match ← attempt choice with
    | some type => return type
    | none => return check
  else return check

/-- The rules for types, nested at most `depth` deep. -/
def typeRules : Nat → TypeRules
  | 0, _ => failure
  | depth + 1, .full => fullType (typeRules depth)
  | depth + 1, .unconditional => unconditionalType (typeRules depth) true
  | depth + 1, .operand isBound => operandType (typeRules depth) isBound

/-- A rule for types at the depth that the source can need. -/
def withTypes {α : Type} (rule : TypeRules → Parse α) : Parse α := do
  rule (typeRules (4 * (← read).limit))

/-! ## Types in declarations -/

/-- A type that an expression is given; the word `const` asks for the most exact one. -/
def givenType : Parse TypeExpr := do
  if ← eatWord "const" then return .keyword "const" else withTypes fun types => types .full

/-- The type of a declared name, if there is one. -/
def declaredType : Parse (Option TypeExpr) := do
  if (← read).hasTypes then withTypes typeAfterColon else return none

/-- The type of a result, if there is one. -/
def declaredResult : Parse (Option TypeExpr) := do
  if (← read).hasTypes then
    if ← eatMark ":" then some <$> withTypes resultType else return none
  else return none

/-- The type parameters of a declaration, if there are any. -/
def declaredTypeParameters : Parse (List TypeParameter) := do
  if (← read).hasTypes then withTypes typeParameters else return []

/-- The types by name after a word, if it is there. -/
def namedTypesAfter (word : String) : Parse (List TypeExpr) := do
  if ← eatWord word then withTypes fun types => commaSeparated (referencedType types) else return []

end Grammar

end Storyboard
