import Storyboard.Number.Binary64

/-!
# Types

Types as they are written in typed modules. They never hold expressions, so they form a small language of
their own: a type is read and written, and nothing else depends on what it means.
-/

namespace Storyboard

/-- The key of a member of an object type. -/
inductive MemberKey where
  /-- A plain name. -/
  | name (value : String)
  /-- A text. -/
  | text (value : String)
  /-- A number as it is written. -/
  | number (written : String)
  /-- A value given by its qualified name. -/
  | computed (path : List String)
  /-- A text that is computed. -/
  | computedText (value : String)
  /-- A number that is computed. -/
  | computedNumber (value : Binary64)
deriving DecidableEq, Repr

mutual

/-- What a parameter of a function type is called: a name, or a pattern that takes the parameter apart. -/
inductive ParameterName where
  | name (value : String)
  | object (items : List ParameterPart)
  | array (items : List ParameterPart)

/-- A part of a pattern that takes a parameter apart. -/
inductive ParameterPart where
  | hole
  | element (content : ParameterName)
  | rest (content : ParameterName)
  | property (key : MemberKey) (content : ParameterName)

end

/-- What a type of another module is looked up with: a word and the texts it is given by name. -/
structure LookupOptions where
  /-- The word. -/
  word : String
  /-- The names, each with whether it is written as a text, and the texts. -/
  entries : List (String × Bool × String)
deriving DecidableEq, Repr

mutual

/-- A written type. -/
inductive TypeExpr where
  /-- A type with a name of its own, such as `string` or `this`. -/
  | keyword (name : String)
  /-- A name with its qualifiers and the types it is applied to. -/
  | reference (name : List String) (arguments : List TypeExpr)
  /-- The type of one text. -/
  | text (value : String)
  /-- The type of one number, which is kept as it is written. -/
  | number (isNegative : Bool) (written : String)
  /-- The type of one big integer. -/
  | bigint (isNegative : Bool) (value : Nat)
  /-- Texts with types between them. -/
  | template (texts : List String) (values : List TypeExpr)
  /-- A type of another module, or the type of one of its values, with the types it is applied to. -/
  | imported (isQuery : Bool) (source : String) (options : Option LookupOptions) (name : List String)
      (arguments : List TypeExpr)
  /-- An array of a type. -/
  | array (element : TypeExpr)
  /-- A fixed sequence of types. -/
  | tuple (elements : List TupleElement)
  /-- One of several types. -/
  | union (parts : List TypeExpr)
  /-- Several types at once. -/
  | intersection (parts : List TypeExpr)
  /-- The members of an object. -/
  | object (members : List TypeMember)
  /-- A function; the flag tells that it constructs. -/
  | function (constructs : Bool) (signature : Signature)
  /-- One of the words `keyof`, `unique`, `readonly` and `abstract` before a type. -/
  | operator (word : String) (operand : TypeExpr)
  /-- A mark before or after a type, which is `?` or `!`. -/
  | marked (mark : String) (isBefore : Bool) (operand : TypeExpr)
  /-- The type of a value. -/
  | query (name : List String) (arguments : List TypeExpr)
  /-- The type of a part of another type. -/
  | indexed (object index : TypeExpr)
  /-- A choice between two types. -/
  | conditional (check bound yes no : TypeExpr)
  /-- A type to be found by matching. -/
  | infer (name : String) (bound : Option TypeExpr)
  /-- A statement about a parameter. -/
  | predicate (asserts : Bool) (subject : String) (claim : Option TypeExpr)
  /-- An object with a member for each key; the two signs are the marks before `readonly` and `?`. -/
  | mapped (readonlySign : Option String) (key : String) (keys : TypeExpr) (renamed : Option TypeExpr)
      (optionalSign : Option String) (value : Option TypeExpr)

/-- An element of a tuple. -/
inductive TupleElement where
  | mk (isRest : Bool) (label : Option String) (isOptional : Bool) (type : TypeExpr)

/-- A type parameter with the words before it, its bound and its default. -/
inductive TypeParameter where
  | mk (words : List String) (name : String) (bound : Option TypeExpr) (default : Option TypeExpr)

/-- A parameter of a function type. -/
inductive TypedName where
  | mk (isRest : Bool) (name : ParameterName) (isOptional : Bool) (type : Option TypeExpr)

/-- The type parameters, parameters and result of a function type. -/
inductive Signature where
  | mk (typeParameters : List TypeParameter) (parameters : List TypedName) (result : Option TypeExpr)

/-- A member of an object type and the offset at which it begins. -/
inductive TypeMember where
  | mk (start : Nat) (shape : MemberShape)

/-- The shapes of the members of an object type. -/
inductive MemberShape where
  /-- A property. -/
  | property (isReadonly : Bool) (key : MemberKey) (isOptional : Bool) (type : Option TypeExpr)
  /-- A method; the word is `get ` or `set ` for accessors. -/
  | method (word : String) (key : MemberKey) (isOptional : Bool) (signature : Signature)
  /-- The members of every key. -/
  | index (isReadonly : Bool) (name : String) (key value : TypeExpr)
  /-- What a call gives; the flag tells that it constructs. -/
  | call (constructs : Bool) (signature : Signature)

end

instance : Inhabited TypeExpr := ⟨.keyword "any"⟩

/-- A type that is declared by name. -/
inductive TypeDeclaration where
  /-- Another name for a type. -/
  | synonym (name : String) (typeParameters : List TypeParameter) (type : TypeExpr)
  /-- A named object type, with those it extends. -/
  | interface (name : String) (typeParameters : List TypeParameter) (extended : List TypeExpr)
      (members : List TypeMember)

/-- Whether the declaration is a named object type. -/
def TypeDeclaration.isInterface : TypeDeclaration → Bool
  | synonym _ _ _ => false
  | interface _ _ _ _ => true

end Storyboard
