import Mathlib.Tactic.DeriveTraversable
import Storyboard.Proofs.OutermostEdits

/-!
# Outlines

What a node shows of itself to the nodes around it: the names that it declares, by each of the ways in which
they can be declared, and whether it can be a part of plain data. The outline of a node depends only on its
form and the outlines of its parts, and so do the scope that it opens and whether it is plain data itself.
So nodes of the same form whose parts have the same outlines open the same scope.
-/

namespace Storyboard

open Extraction

deriving instance Functor for Form

namespace Form

variable {α β γ : Type}

theorem children_map (f : α → β) (form : Form α) : (f <$> form).children = form.children.map f := by
  cases form <;> try rfl
  all_goals
    dsimp only [Functor.map, Form.map, children]
    simp only [List.map_append, List.map_cons, List.map_nil, Option.toList_map]

theorem isExpression_map (f : α → β) (form : Form α) : (f <$> form).isExpression = form.isExpression := by
  cases form <;> rfl

/-- Filling a form depends only on what its places are filled with. -/
theorem map_congr {f g : α → β} {form : Form α} (same : ∀ child ∈ form.children, f child = g child) :
    f <$> form = g <$> form := by
  have options : ∀ {place : Option α}, (∀ child ∈ place.toList, f child = g child) →
      Option.map f place = Option.map g place := by
    intro place each
    cases place with
    | none => rfl
    | some content => exact congrArg some (each content (by simp))
  cases form <;> try rfl
  all_goals
    dsimp only [Functor.map, Form.map, children] at same ⊢
    congr 1 <;> first
      | exact same _ (by simp)
      | exact List.map_congr_left fun child member => same child (by simp [member])
      | exact options fun child member => same child (by simp [member])

/-- Filling a form twice is filling it once. -/
theorem map_map (g : β → γ) (f : α → β) (form : Form α) :
    g <$> (f <$> form) = (fun child => g (f child)) <$> form := by
  cases form <;> try rfl
  all_goals
    dsimp only [Functor.map, Form.map]
    simp only [List.map_map, Option.map_map, Function.comp_def]

theorem parts_map (f : α → β) (form : Form α) :
    (f <$> form).parts = form.parts.map fun part => (part.1, f part.2) := by
  have inside : ∀ children : List α, (children.map f).map (Part.body, ·) =
      (children.map (Part.body, ·)).map fun part => (part.1, f part.2) := by
    simp [Function.comp_def]
  cases form with
  | function head name parameters body =>
      dsimp only [Functor.map, Form.map, parts]
      simp [Option.toList_map, Function.comp_def]
  | arrow head parameters body =>
      dsimp only [Functor.map, Form.map, parts]
      simp [Function.comp_def]
  | switch subject cases =>
      dsimp only [Functor.map, Form.map, parts]
      simp [Function.comp_def]
  | _ => first | rfl | exact (congrArg _ (children_map f _)).trans (inside _)

/-- A form without the positions that it holds besides nodes. -/
def unplaced : Form α → Form α
  | importFrom head specifiers source => importFrom head specifiers { source with span := ⟨0, 0⟩ }
  | exportNamed isTypeOnly declaration specifiers source =>
    exportNamed isTypeOnly declaration specifiers (source.map fun name => { name with span := ⟨0, 0⟩ })
  | exportSpecifier isTypeOnly used exported =>
    exportSpecifier isTypeOnly { used with start := 0 } { exported with start := 0 }
  | exportAll isTypeOnly exported source => exportAll isTypeOnly exported { source with span := ⟨0, 0⟩ }
  | form => form

/-- Whether a form holds positions besides nodes. -/
def isPlaced : Form α → Bool
  | importFrom _ _ _ => true
  | exportNamed _ _ _ _ => true
  | exportSpecifier _ _ _ => true
  | exportAll _ _ _ => true
  | _ => false

theorem unplaced_map (f : α → β) (form : Form α) : (f <$> form).unplaced = f <$> form.unplaced := by
  cases form <;> rfl

theorem parts_unplaced (form : Form α) : form.unplaced.parts = form.parts := by
  cases form <;> rfl

theorem isExpression_unplaced (form : Form α) : form.unplaced.isExpression = form.isExpression := by
  cases form <;> rfl

/-- Forms that agree without positions agree if they hold none. -/
theorem eq_of_unplaced_eq {form other : Form α} (same : form.unplaced = other.unplaced)
    (unplaced_other : other.isPlaced = false) : form = other := by
  have settled : ∀ {form : Form α}, form.isPlaced = false → form.unplaced = form := by
    intro form bare
    unfold unplaced
    split <;> simp_all [isPlaced]
  have kept : ∀ form : Form α, form.unplaced.isPlaced = form.isPlaced := by
    intro form
    cases form <;> rfl
  have bare : form.isPlaced = false := by rw [← kept form, same, kept other, unplaced_other]
  rw [← settled bare, same, settled unplaced_other]

end Form

/-- What a node shows of itself to the nodes around it. -/
@[ext]
structure Outline where
  /-- The names that it binds as a pattern. -/
  bindings : List String
  /-- The names that it binds as a declarator. -/
  declaratorNames : List String
  /-- The names that it hoists. -/
  hoisted : List String
  /-- The names that it declares itself. -/
  declared : List String
  /-- The names that it declares for its block. -/
  lexical : List String
  /-- The names that its statements hoist, if it is the body of a function. -/
  bodyHoisted : List String
  /-- The names that its statements declare, if it is the body of a function. -/
  bodyLexical : List String
  /-- The names that its statements declare, if it is a case of a switch. -/
  caseLexical : List String
  /-- The scope that it gives to a loop. -/
  loopScope : Option Scope
  /-- Whether it can be an element of plain data. -/
  isElement : Bool
  /-- Whether it is a number other than zero. -/
  isNonzero : Bool
  /-- Whether it is a property of the environment. -/
  isMeta : Bool

/-- The outline of a node. -/
def Node.outline (node : Node) : Outline where
  bindings := node.bindingNames
  declaratorNames := Node.variableNames [node]
  hoisted := node.varNames
  declared := node.declaredNames
  lexical := node.lexicalNames
  bodyHoisted := (Scope.bodyStatements node).flatMap Node.varNames
  bodyLexical := (Scope.bodyStatements node).flatMap Node.lexicalNames
  caseLexical := (Scope.caseStatements node).flatMap Node.lexicalNames
  loopScope := Scope.ofLoopHead? node
  isElement := isPlainElement node
  isNonzero := isNonzeroNumber node
  isMeta := isMetaProperty node

namespace Outline

/-- The names that a form declares itself. -/
def declaredBy : Form Outline → List String
  | .variableList kind declarators => if kind == .var then [] else declarators.flatMap declaratorNames
  | .function head name _ _ => if head.role == .declaration then name.toList.flatMap bindings else []
  | .classOf head _ name _ _ => if head.role == .declaration then name.toList.flatMap bindings else []
  | _ => []

/-- The names that a form hoists. -/
def hoistedBy : Form Outline → List String
  | .variableList kind declarators => if kind == .var then declarators.flatMap declaratorNames else []
  | .function _ _ _ _ => []
  | .classOf _ _ _ _ _ => []
  | form => if form.isExpression then [] else form.children.flatMap hoisted

/-- The outline of a form from the outlines of what stands in its places. -/
def ofForm (form : Form Outline) : Outline where
  bindings :=
    match form with
    | .binding name => [name]
    | form => if form.isExpression then [] else form.children.flatMap bindings
  declaratorNames :=
    match form with
    | .declarator _ pattern _ => pattern.bindings
    | _ => []
  hoisted := hoistedBy form
  declared := declaredBy form
  lexical :=
    match form with
    | .exportNamed _ (some declaration) _ _ => declaration.declared
    | .exportDefault value => value.declared
    | form => declaredBy form
  bodyHoisted :=
    match form with
    | .functionBody statements => statements.flatMap hoisted
    | _ => []
  bodyLexical :=
    match form with
    | .functionBody statements => statements.flatMap lexical
    | _ => []
  caseLexical :=
    match form with
    | .switchCase _ statements => statements.flatMap lexical
    | _ => []
  loopScope :=
    match form with
    | .variableList kind declarators =>
      if kind == .var then none else some (.declareAll [] (declarators.flatMap declaratorNames))
    | _ => none
  isElement :=
    match form with
    | .spread _ => false
    | .hole => false
    | _ => true
  isNonzero :=
    match form with
    | .number value => !value.isZero
    | _ => false
  isMeta :=
    match form with
    | .metaProperty _ _ => true
    | _ => false

/-- The scope of a function from the outlines of its name, its parameters and its body. -/
def functionScope (identifier : Option Outline) (parameters : List Outline) (body : Option Outline) :
    Scope :=
  ((Scope.declareAll [] (identifier.toList.flatMap bindings ++ parameters.flatMap bindings)).declareAll
    (body.toList.flatMap bodyLexical)).declareAll (body.toList.flatMap bodyHoisted)

/-- The scope that a form other than a module opens. -/
def scopeBy? : Form Outline → Option Scope
  | .function _ identifier parameters body => some (functionScope identifier parameters body)
  | .arrow _ parameters body => some (functionScope none parameters (some body))
  | .classOf _ _ identifier _ _ => identifier.map fun outline => .declareAll [] outline.bindings
  | .block body => some (.declareAll [] (body.flatMap lexical))
  | .catchClause pattern _ => pattern.map fun outline => .declareAll [] outline.bindings
  | .forLoop first _ _ _ => first.bind loopScope
  | .forIn left _ _ => left.loopScope
  | .forOf _ left _ _ => left.loopScope
  | .switch _ cases => some (.declareAll [] (cases.flatMap caseLexical))
  | _ => none

/-- Whether a form other than an object is plain data. -/
def isPlainBy (resolver : Resolver) : Form Outline → Bool
  | .string _ _ => true
  | .number _ => true
  | .boolean _ => true
  | .nothing => true
  | .jsxElement _ _ _ => true
  | .jsxFragment _ => true
  | .metaProperty _ _ => true
  | .unary .minus operand => operand.isNonzero
  | .member object _ _ => object.isMeta
  | .index object _ _ => object.isMeta
  | .identifier name => (resolver.classify name).isStatic
  | .array elements => elements.all isElement
  | _ => false

end Outline

namespace Node

theorem bindingNames_eq (node : Node) :
    node.bindingNames = (Outline.ofForm (outline <$> node.form)).bindings := by
  have deeper : (outline <$> node.form).children.flatMap Outline.bindings =
      node.children.flatMap bindingNames := by
    rw [Form.children_map, List.flatMap_map]
    rfl
  rw [bindingNames]
  simp only [List.flatMap_subtype, List.unattach_attach, ← deeper]
  obtain ⟨span, form⟩ := node
  cases form <;> rfl

theorem variableNames_eq (declarators : List Node) :
    variableNames declarators = (declarators.map outline).flatMap Outline.declaratorNames := by
  simp [variableNames, outline, List.flatMap_map]

theorem varNames_eq (node : Node) :
    node.varNames = (Outline.ofForm (outline <$> node.form)).hoisted := by
  have deeper : (outline <$> node.form).children.flatMap Outline.hoisted =
      node.children.flatMap varNames := by
    rw [Form.children_map, List.flatMap_map]
    rfl
  rw [varNames]
  simp only [List.flatMap_subtype, List.unattach_attach, variableNames_eq, ← deeper]
  obtain ⟨span, form⟩ := node
  cases form <;> rfl

theorem flatMap_bindingNames_eq (identifier : Option Node) :
    identifier.toList.flatMap bindingNames = (outline <$> identifier).toList.flatMap Outline.bindings := by
  cases identifier <;> rfl

theorem declaredNames_eq (node : Node) :
    node.declaredNames = Outline.declaredBy (outline <$> node.form) := by
  unfold declaredNames
  simp only [variableNames_eq, flatMap_bindingNames_eq]
  obtain ⟨span, form⟩ := node
  cases form <;> rfl

theorem lexicalNames_eq (node : Node) :
    node.lexicalNames = (Outline.ofForm (outline <$> node.form)).lexical := by
  unfold lexicalNames
  rw [declaredNames_eq]
  obtain ⟨span, form⟩ := node
  cases form with
  | exportNamed isTypeOnly declaration specifiers source => cases declaration <;> rfl
  | _ => rfl

theorem flatMap_outline (field : Outline → List String) (nodes : List Node) :
    (outline <$> nodes).flatMap field = nodes.flatMap fun node => field node.outline :=
  List.flatMap_map ..

/-- The outline of a node depends only on its form and the outlines of its parts. -/
theorem outline_eq (node : Node) : node.outline = .ofForm (outline <$> node.form) := by
  apply Outline.ext
  · exact bindingNames_eq node
  · obtain ⟨span, form⟩ := node
    cases form <;> first | rfl | exact List.append_nil _
  · exact varNames_eq node
  · exact declaredNames_eq node
  · exact lexicalNames_eq node
  · obtain ⟨span, form⟩ := node
    cases form <;> first | rfl | exact (flatMap_outline Outline.hoisted _).symm
  · obtain ⟨span, form⟩ := node
    cases form <;> first | rfl | exact (flatMap_outline Outline.lexical _).symm
  · obtain ⟨span, form⟩ := node
    cases form <;> first | rfl | exact (flatMap_outline Outline.lexical _).symm
  · obtain ⟨span, form⟩ := node
    cases form <;> try rfl
    rename_i kind declarators
    change (if _ then none else some (Scope.declareAll [] (variableNames declarators))) = _
    rw [variableNames_eq]
    rfl
  · obtain ⟨span, form⟩ := node
    cases form <;> rfl
  · obtain ⟨span, form⟩ := node
    cases form <;> rfl
  · obtain ⟨span, form⟩ := node
    cases form <;> rfl

/-- The scope that a node other than a module opens depends only on its form and the outlines of its
parts. -/
theorem scope?_eq {node : Node} (no_program : ∀ body, node.form ≠ .program body) :
    node.scope? = Outline.scopeBy? (outline <$> node.form) := by
  have functions : ∀ identifier parameters body, Scope.ofFunction identifier parameters body =
      Outline.functionScope (outline <$> identifier) (outline <$> parameters) (outline <$> body) := by
    intro identifier parameters body
    rw [Outline.functionScope, flatMap_outline, ← flatMap_bindingNames_eq]
    cases body <;> simp [Scope.ofFunction, Scope.declareHoisted, Scope.declareLexical, outline]
  obtain ⟨span, form⟩ := node
  cases form with
  | program body => exact absurd rfl (no_program body)
  | function head identifier parameters body => exact congrArg some (functions identifier parameters body)
  | arrow head parameters body => exact congrArg some (functions none parameters (some body))
  | classOf head decorators identifier heritage members => cases identifier <;> rfl
  | block body =>
      exact congrArg (fun names => some (Scope.declareAll [] names))
        (flatMap_outline Outline.lexical body).symm
  | catchClause pattern body => cases pattern <;> rfl
  | forLoop first test step body => cases first <;> rfl
  | switch subject cases =>
      have assoc := List.flatMap_assoc (l := cases) (f := Scope.caseStatements) (g := lexicalNames)
      exact congrArg (fun names => some (Scope.declareAll [] names))
        (assoc.trans (flatMap_outline Outline.caseLexical cases).symm)
  | _ => rfl

/-- Whether a node other than an object is plain data depends only on its form, the outlines of its parts
and the meanings of names. -/
theorem isPlainData_eq (resolver : Resolver) {node : Node}
    (no_object : ∀ properties, node.form ≠ .object properties) :
    isPlainData resolver node = Outline.isPlainBy resolver (outline <$> node.form) := by
  obtain ⟨span, form⟩ := node
  cases form with
  | unary op operand => cases op <;> rfl
  | object properties => exact absurd rfl (no_object properties)
  | array elements =>
      change elements.all isPlainElement = (elements.map outline).all Outline.isElement
      rw [List.all_map]
      rfl
  | _ => rfl

/-- What is observed of the outlines of the parts of a node can be read off from any shape that the form of
the node fills, up to positions. -/
theorem observe_eq {α β : Type} {observe : Form Outline → β}
    (blind : ∀ form, observe form.unplaced = observe form) {node : Node} {shape : Form α} {fill : α → Node}
    (filled : node.form.unplaced = (fill <$> shape).unplaced) :
    observe (outline <$> node.form) = observe ((fun place => (fill place).outline) <$> shape) := by
  rw [← blind, Form.unplaced_map, filled, ← Form.unplaced_map, blind, Form.map_map]

end Node

namespace Outline

theorem ofForm_unplaced (form : Form Outline) : ofForm form.unplaced = ofForm form := by
  cases form with
  | exportNamed isTypeOnly declaration specifiers source => cases declaration <;> rfl
  | _ => rfl

theorem scopeBy?_unplaced (form : Form Outline) : scopeBy? form.unplaced = scopeBy? form := by
  cases form <;> rfl

theorem isPlainBy_unplaced (resolver : Resolver) (form : Form Outline) :
    isPlainBy resolver form.unplaced = isPlainBy resolver form := by
  cases form <;> rfl

end Outline

end Storyboard
