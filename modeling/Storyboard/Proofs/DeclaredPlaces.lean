import Storyboard.Proofs.Declaration

/-!
# The places of declared names

Scopes are made by looking through code for what declares names, everywhere but in some parts of it. In code
whose parts are of the right kind this finds what the language says: names stand in certain places of patterns,
which are no keys and no defaults; the variables of a function or a module stand in certain places of its
statements, which are no functions, classes and expressions; and a block declares what its own statements declare
or export. So a scope holds exactly the names in these places, and a module also what it imports under names that
it does not declare.
-/

namespace Storyboard

namespace Node

/-! ## Patterns -/

/-- The parts of a pattern or a parameter that declare names: not its keys, its defaults and its decorators. -/
def bindingParts (node : Node) : List Node :=
  match node.form with
  | .objectPattern properties => properties
  | .patternProperty _ value _ _ => [value]
  | .arrayPattern elements => elements
  | .defaulted pattern _ => [pattern]
  | .rest pattern => [pattern]
  | .parameter _ _ pattern _ => [pattern]
  | _ => []

/-- A name stands in a pattern where it is declared. -/
inductive HasBinding : Node → String → Prop
  | here {node : Node} {name : String} (form_eq : node.form = .binding name) : HasBinding node name
  | inside {node part : Node} {name : String} (member : part ∈ node.bindingParts) (declared : HasBinding part name) :
      HasBinding node name

theorem hasBinding_iff {node : Node} {name : String} :
    node.HasBinding name ↔ node.form = .binding name ∨ ∃ part ∈ node.bindingParts, part.HasBinding name := by
  constructor
  · intro declared
    cases declared with
    | here form_eq => exact .inl form_eq
    | inside member declared => exact .inr ⟨_, member, declared⟩
  · rintro (form_eq | ⟨part, member, declared⟩)
    · exact .here form_eq
    · exact .inside member declared

/-- A key: a name, or an expression whether in brackets or not. -/
def IsKey (node : Node) : Prop := node.form.isExpression = true ∨ ∃ name, node.form = .keyName name

/-- A decorator with its expression. -/
def IsDecorator (node : Node) : Prop := ∃ value, node.form = .decorator value ∧ value.form.isExpression = true

/-- A pattern or a part of one, in which keys, defaults and decorators are what they have to be. -/
def HasPatternForm (node : Node) : Prop :=
  match node.form with
  | .binding _ => True
  | .hole => True
  | .objectPattern _ => True
  | .patternProperty key _ _ _ => key.IsKey
  | .arrayPattern _ => True
  | .defaulted _ default => default.form.isExpression = true
  | .rest _ => True
  | .parameter _ decorators _ default =>
    (∀ decorator ∈ decorators, decorator.IsDecorator) ∧ ∀ value ∈ default, value.form.isExpression = true
  | _ => False

/-- A pattern, a parameter or a part of these throughout. -/
inductive IsPattern : Node → Prop
  | intro {node : Node} (form : node.HasPatternForm) (parts : ∀ part ∈ node.bindingParts, IsPattern part) :
      IsPattern node

/-! ## Statements -/

/-- A target or a part of one, which is written to. -/
def HasTargetForm (node : Node) : Prop :=
  match node.form with
  | .targetName _ => True
  | .targetMember _ _ => True
  | .targetPrivate _ _ => True
  | .targetIndex _ _ => True
  | .objectTarget _ => True
  | .targetProperty _ _ _ => True
  | .targetShorthand _ _ => True
  | .arrayTarget _ => True
  | .targetDefault _ _ => True
  | .targetRest _ => True
  | .hole => True
  | _ => False

/-- A target throughout, in which keys and expressions may stand. -/
inductive IsTarget : Node → Prop
  | key {node : Node} (key : node.IsKey) : IsTarget node
  | intro {node : Node} (form : node.HasTargetForm) (parts : ∀ child ∈ node.children, IsTarget child) : IsTarget node

/-- A declaration of variables. -/
def IsVariableList (node : Node) : Prop := ∃ kind declarators, node.form = .variableList kind declarators

/-- The head of a loop as far as it is a declaration of variables. -/
def declaredHead (head : Node) : List Node :=
  match head.form with
  | .variableList _ _ => [head]
  | _ => []

/-- The parts of a statement that are statements, cases of a switch or handlers. A function and a class have none,
and neither has an expression. -/
def statementParts (node : Node) : List Node :=
  match node.form with
  | .block body => body
  | .conditionalStatement _ yes no => yes :: no.toList
  | .forLoop first _ _ body => first.toList.flatMap declaredHead ++ [body]
  | .forIn left _ body => declaredHead left ++ [body]
  | .forOf _ left _ body => declaredHead left ++ [body]
  | .whileLoop _ body => [body]
  | .doWhile body _ => [body]
  | .tryBlock body handler finalizer => body :: (handler.toList ++ finalizer.toList)
  | .catchClause _ body => [body]
  | .switch _ cases => cases
  | .switchCase _ body => body
  | .labeled _ body => [body]
  | .withObject _ body => [body]
  | .exportNamed _ declaration _ _ => declaration.toList
  | _ => []

/-- A declarator of a declaration declares a name. -/
def ListsBinding (declarators : List Node) (name : String) : Prop :=
  ∃ declarator ∈ declarators, ∃ head pattern value,
    declarator.form = .declarator head pattern value ∧ pattern.HasBinding name

/-- A `var` of a name stands in a statement, at any depth of statements. -/
inductive HasVariable : Node → String → Prop
  | here {node : Node} {declarators : List Node} {name : String}
      (form_eq : node.form = .variableList .var declarators) (listed : ListsBinding declarators name) :
      HasVariable node name
  | inside {node part : Node} {name : String} (member : part ∈ node.statementParts) (declared : HasVariable part name) :
      HasVariable node name

theorem hasVariable_iff {node : Node} {name : String} :
    node.HasVariable name ↔
      (∃ declarators, node.form = .variableList .var declarators ∧ ListsBinding declarators name) ∨
        ∃ part ∈ node.statementParts, part.HasVariable name := by
  constructor
  · intro declared
    cases declared with
    | here form_eq listed => exact .inl ⟨_, form_eq, listed⟩
    | inside member declared => exact .inr ⟨_, member, declared⟩
  · rintro (⟨declarators, form_eq, listed⟩ | ⟨part, member, declared⟩)
    · exact .here form_eq listed
    · exact .inside member declared

/-- A statement declares a name itself, by variables other than `var`, as a function or as a class, or it exports
a declaration that does. -/
inductive Declares : Node → String → Prop
  | declarators {node : Node} {kind : VariableKind} {declarators : List Node} {name : String}
      (form_eq : node.form = .variableList kind declarators) (lexical : kind ≠ .var)
      (listed : ListsBinding declarators name) : Declares node name
  | functionName {node identifier : Node} {head : FunctionHead} {parameters : List Node} {body : Option Node} {name : String}
      (form_eq : node.form = .function head (some identifier) parameters body) (role : head.role = .declaration)
      (named : identifier.form = .binding name) : Declares node name
  | className {node identifier : Node} {head : ClassHead} {decorators members : List Node} {heritage : Option Node}
      {name : String} (form_eq : node.form = .classOf head decorators (some identifier) heritage members)
      (role : head.role = .declaration) (named : identifier.form = .binding name) : Declares node name
  | exported {node declaration : Node} {isTypeOnly : Bool} {specifiers : List Node} {source : Option ModuleName}
      {name : String} (form_eq : node.form = .exportNamed isTypeOnly (some declaration) specifiers source)
      (declared : Declares declaration name) : Declares node name
  | exportedDefault {node value : Node} {name : String} (form_eq : node.form = .exportDefault value)
      (declared : Declares value name) : Declares node name

theorem declares_iff {node : Node} {name : String} :
    node.Declares name ↔
      (∃ kind declarators, node.form = .variableList kind declarators ∧ kind ≠ .var ∧ ListsBinding declarators name) ∨
      (∃ head identifier parameters body, node.form = .function head (some identifier) parameters body ∧
        head.role = .declaration ∧ identifier.form = .binding name) ∨
      (∃ head decorators identifier heritage members,
        node.form = .classOf head decorators (some identifier) heritage members ∧
          head.role = .declaration ∧ identifier.form = .binding name) ∨
      (∃ isTypeOnly declaration specifiers source,
        node.form = .exportNamed isTypeOnly (some declaration) specifiers source ∧ declaration.Declares name) ∨
      ∃ value, node.form = .exportDefault value ∧ value.Declares name := by
  constructor
  · intro declares
    cases declares with
    | declarators form_eq lexical listed => exact .inl ⟨_, _, form_eq, lexical, listed⟩
    | functionName form_eq role named => exact .inr (.inl ⟨_, _, _, _, form_eq, role, named⟩)
    | className form_eq role named => exact .inr (.inr (.inl ⟨_, _, _, _, _, form_eq, role, named⟩))
    | exported form_eq declared => exact .inr (.inr (.inr (.inl ⟨_, _, _, _, form_eq, declared⟩)))
    | exportedDefault form_eq declared => exact .inr (.inr (.inr (.inr ⟨_, form_eq, declared⟩)))
  · rintro (⟨kind, declarators, form_eq, lexical, listed⟩ | ⟨head, identifier, parameters, body, form_eq, role, named⟩ |
      ⟨head, decorators, identifier, heritage, members, form_eq, role, named⟩ |
      ⟨isTypeOnly, declaration, specifiers, source, form_eq, declared⟩ | ⟨value, form_eq, declared⟩)
    · exact .declarators form_eq lexical listed
    · exact .functionName form_eq role named
    · exact .className form_eq role named
    · exact .exported form_eq declared
    · exact .exportedDefault form_eq declared

/-- A single declared name. -/
def IsName (node : Node) : Prop := ∃ name, node.form = .binding name

/-- A declaration: of variables by patterns, or of a function or a class by a name if it has one. -/
def IsDeclaration (node : Node) : Prop :=
  match node.form with
  | .variableList _ declarators =>
    ∀ declarator ∈ declarators, ∃ head pattern value,
      declarator.form = .declarator head pattern value ∧ pattern.IsPattern
  | .function head identifier _ _ => head.role = .declaration ∧ ∀ own ∈ identifier, own.IsName
  | .classOf head _ identifier _ _ => head.role = .declaration ∧ ∀ own ∈ identifier, own.IsName
  | _ => False

/-- A name in a list of imports or exports. -/
def IsSpecifier (node : Node) : Prop :=
  match node.form with
  | .importDefault _ => True
  | .importNamespace _ => True
  | .importNamed _ _ _ => True
  | .exportSpecifier _ _ _ => True
  | _ => False

/-- An expression, or the declaration of a type, which declare no names of values. -/
def IsSilent (node : Node) : Prop :=
  node.form.isExpression = true ∨ ∃ declaration, node.form = .typeDeclaration declaration

/-- A statement, a case or a handler of a module without types, in which all parts but those that are statements
are what they have to be. -/
def HasStatementForm (node : Node) : Prop :=
  match node.form with
  | .variableList _ _ => node.IsDeclaration
  | .function _ _ _ _ => node.IsDeclaration
  | .classOf _ _ _ _ _ => node.IsDeclaration
  | .expressionStatement value => value.form.isExpression = true
  | .directive _ => True
  | .block _ => True
  | .conditionalStatement test _ _ => test.form.isExpression = true
  | .forLoop first test step _ =>
    (∀ head ∈ first, head.IsVariableList ∨ head.form.isExpression = true) ∧
      ∀ value ∈ test.toList ++ step.toList, value.form.isExpression = true
  | .forIn left right _ =>
    (left.IsVariableList ∨ left.IsTarget) ∧ right.form.isExpression = true
  | .forOf _ left right _ =>
    (left.IsVariableList ∨ left.IsTarget) ∧ right.form.isExpression = true
  | .whileLoop test _ => test.form.isExpression = true
  | .doWhile _ test => test.form.isExpression = true
  | .returned value => ∀ result ∈ value, result.form.isExpression = true
  | .breakTo _ => True
  | .continueTo _ => True
  | .thrown value => value.form.isExpression = true
  | .tryBlock _ _ _ => True
  | .catchClause pattern _ => ∀ caught ∈ pattern, caught.IsPattern
  | .switch subject _ => subject.form.isExpression = true
  | .switchCase test _ => ∀ value ∈ test, value.form.isExpression = true
  | .labeled _ _ => True
  | .withObject object _ => object.form.isExpression = true
  | .debugger => True
  | .empty => True
  | .importFrom _ specifiers _ => ∀ specifier ∈ specifiers, specifier.IsSpecifier
  | .exportNamed _ declaration specifiers _ =>
    (∀ declared ∈ declaration, declared.IsDeclaration) ∧ ∀ specifier ∈ specifiers, specifier.IsSpecifier
  | .exportDefault value => value.IsSilent ∨ value.IsDeclaration ∧ ¬value.IsVariableList
  | .exportAll _ _ _ => True
  | _ => False

/-- A statement throughout. -/
inductive IsStatement : Node → Prop
  | intro {node : Node} (form : node.HasStatementForm) (parts : ∀ part ∈ node.statementParts, IsStatement part) :
      IsStatement node

/-! ## Names of patterns -/

variable {node : Node} {name : String}

theorem not_binds (no_binding : node.form ≠ .binding name)
    (none_inside : node.form.isExpression = false → ∀ child ∈ node.children, ¬child.Binds name) : ¬node.Binds name := by
  rw [binds_iff]
  rintro (form_eq | ⟨goes_on, child, member, binds⟩)
  · exact no_binding form_eq
  · exact none_inside goes_on child member binds

theorem not_binds_of_isExpression (expression : node.form.isExpression = true) : ¬node.Binds name := by
  refine not_binds ?_ (fun goes_on => ?_)
  · intro form_eq
    rw [form_eq] at expression
    cases expression
  · simp [expression] at goes_on

theorem IsKey.not_binds (key : node.IsKey) : ¬node.Binds name := by
  rcases key with expression | ⟨own, form_eq⟩
  · exact not_binds_of_isExpression expression
  · exact Node.not_binds (by simp [form_eq]) (by simp [children, form_eq, Form.children])

theorem IsDecorator.not_binds (decorator : node.IsDecorator) : ¬node.Binds name := by
  obtain ⟨value, form_eq, expression⟩ := decorator
  refine Node.not_binds (by simp [form_eq]) fun _ child member => ?_
  rw [children, form_eq] at member
  rw [List.mem_singleton.mp member]
  exact not_binds_of_isExpression expression

/-- What is in a pattern is a part that declares names, a key, a default or a decorator. -/
theorem HasPatternForm.parts (form : node.HasPatternForm) :
    node.form.isExpression = false ∧ (∀ part ∈ node.bindingParts, part ∈ node.children) ∧
      ∀ child ∈ node.children, child ∈ node.bindingParts ∨ child.IsKey ∨ child.IsDecorator := by
  unfold HasPatternForm at form
  split at form
  case h_4 key value isShorthand isComputed form_eq =>
    simp only [bindingParts, children, form_eq, Form.children, Form.isExpression]
    refine ⟨trivial, by simp, fun child member => ?_⟩
    rcases List.mem_cons.mp member with rfl | member
    · exact .inr (.inl form)
    · exact .inl member
  case h_6 pattern default form_eq =>
    simp only [bindingParts, children, form_eq, Form.children, Form.isExpression]
    refine ⟨trivial, by simp, fun child member => ?_⟩
    rcases List.mem_cons.mp member with rfl | member
    · exact .inl (by simp)
    · rw [List.mem_singleton.mp member]
      exact .inr (.inl (.inl form))
  case h_8 head decorators pattern default form_eq =>
    simp only [bindingParts, children, form_eq, Form.children, Form.isExpression]
    refine ⟨trivial, by simp, fun child member => ?_⟩
    rcases List.mem_append.mp member with member | member
    · exact .inr (.inr (form.1 child member))
    · rcases List.mem_cons.mp member with rfl | member
      · exact .inl (by simp)
      · exact .inr (.inl (.inl (form.2 child (Option.mem_toList.mp member))))
  case h_9 => exact form.elim
  all_goals
    rename_i form_eq
    simp +contextual [bindingParts, children, form_eq, Form.children, Form.isExpression]

/-- A pattern declares what stands in it where names are declared. -/
theorem IsPattern.binds_iff_hasBinding (pattern : node.IsPattern) : node.Binds name ↔ node.HasBinding name := by
  induction pattern with
  | intro form _ ih =>
      obtain ⟨no_expression, inside, others⟩ := form.parts
      rw [binds_iff, hasBinding_iff]
      constructor
      · rintro (form_eq | ⟨-, child, member, binds⟩)
        · exact .inl form_eq
        · rcases others child member with part | key | decorator
          · exact .inr ⟨child, part, (ih child part).mp binds⟩
          · exact absurd binds key.not_binds
          · exact absurd binds decorator.not_binds
      · rintro (form_eq | ⟨part, member, declared⟩)
        · exact .inl form_eq
        · exact .inr ⟨no_expression, part, inside part member, (ih part member).mpr declared⟩

theorem IsName.binds_iff (single : node.IsName) : node.Binds name ↔ node.form = .binding name := by
  obtain ⟨own, form_eq⟩ := single
  rw [Node.binds_iff, children, form_eq]
  simp [Form.children]

/-! ## Variables of statements -/

theorem not_hoists (no_variables : ¬node.IsVariableList)
    (none_inside : node.keepsVariables = false → ∀ child ∈ node.children, ¬child.Hoists name) : ¬node.Hoists name := by
  rw [hoists_iff]
  rintro (⟨declarators, form_eq, -⟩ | ⟨goes_on, child, member, hoists⟩)
  · exact no_variables ⟨_, _, form_eq⟩
  · exact none_inside goes_on child member hoists

theorem keepsVariables_of_isExpression (expression : node.form.isExpression = true) : node.keepsVariables = true := by
  unfold keepsVariables
  split
  · rfl
  · rfl
  · rfl
  · exact expression

theorem not_hoists_of_isExpression (expression : node.form.isExpression = true) : ¬node.Hoists name := by
  refine not_hoists ?_ (fun goes_on => ?_)
  · rintro ⟨kind, declarators, form_eq⟩
    rw [form_eq] at expression
    cases expression
  · simp [keepsVariables_of_isExpression expression] at goes_on

theorem IsKey.not_hoists (key : node.IsKey) : ¬node.Hoists name := by
  rcases key with expression | ⟨own, form_eq⟩
  · exact not_hoists_of_isExpression expression
  · exact Node.not_hoists (by simp [IsVariableList, form_eq]) (by simp [children, form_eq, Form.children])

theorem IsDecorator.not_hoists (decorator : node.IsDecorator) : ¬node.Hoists name := by
  obtain ⟨value, form_eq, expression⟩ := decorator
  refine Node.not_hoists (by simp [IsVariableList, form_eq]) fun _ child member => ?_
  rw [children, form_eq] at member
  rw [List.mem_singleton.mp member]
  exact not_hoists_of_isExpression expression

/-- No variable is declared in a pattern. -/
theorem IsPattern.not_hoists (pattern : node.IsPattern) : ¬node.Hoists name := by
  induction pattern with
  | @intro node form _ ih =>
      refine Node.not_hoists ?_ fun _ child member => ?_
      · rintro ⟨kind, declarators, form_eq⟩
        simp [HasPatternForm, form_eq] at form
      · rcases form.parts.2.2 child member with part | key | decorator
        · exact ih child part
        · exact key.not_hoists
        · exact decorator.not_hoists

/-- No variable is declared in a target. -/
theorem IsTarget.not_hoists (target : node.IsTarget) : ¬node.Hoists name := by
  induction target with
  | key key => exact key.not_hoists
  | intro form _ ih =>
      refine Node.not_hoists ?_ fun _ => ih
      rintro ⟨kind, declarators, form_eq⟩
      simp [HasTargetForm, form_eq] at form

theorem IsSilent.not_hoists (silent : node.IsSilent) : ¬node.Hoists name := by
  rcases silent with expression | ⟨declaration, form_eq⟩
  · exact not_hoists_of_isExpression expression
  · exact Node.not_hoists (by simp [IsVariableList, form_eq]) (by simp [children, form_eq, Form.children])

theorem IsSpecifier.not_hoists (specifier : node.IsSpecifier) : ¬node.Hoists name := by
  unfold IsSpecifier at specifier
  split at specifier
  case h_5 => exact specifier.elim
  all_goals
    rename_i form_eq
    exact Node.not_hoists (by simp [IsVariableList, form_eq]) (by simp [children, form_eq, Form.children])

/-- A function and a class keep their variables. -/
theorem IsDeclaration.isVariableList_of_hoists (declaration : node.IsDeclaration) (hoists : node.Hoists name) :
    node.IsVariableList := by
  by_contra no_variables
  refine Node.not_hoists no_variables (fun goes_on => ?_) hoists
  unfold IsDeclaration at declaration
  split at declaration <;> rename_i form_eq
  · exact absurd ⟨_, _, form_eq⟩ no_variables
  · simp [keepsVariables, form_eq] at goes_on
  · simp [keepsVariables, form_eq] at goes_on
  · exact declaration.elim

/-- A part of a statement declares a variable only if it is one of the parts in which variables are looked for. -/
theorem HasStatementForm.parts (form : node.HasStatementForm) (goes_on : node.keepsVariables = false) {child : Node}
    (member : child ∈ node.children) (hoists : child.Hoists name) : child ∈ node.statementParts := by
  have head : ∀ {head : Node}, head.Hoists name → head.IsVariableList ∨ head.IsTarget → head ∈ declaredHead head := by
    rintro head hoists (⟨kind, declarators, form_eq⟩ | target)
    · simp [declaredHead, form_eq]
    · exact absurd hoists target.not_hoists
  have expression : ¬child.form.isExpression = true := fun expression => not_hoists_of_isExpression expression hoists
  have silent : ¬child.IsSilent := fun silent => silent.not_hoists hoists
  have specifier : ¬child.IsSpecifier := fun specifier => specifier.not_hoists hoists
  have pattern : ¬child.IsPattern := fun pattern => pattern.not_hoists hoists
  have declaration : child.IsDeclaration → child.IsVariableList := fun declaration =>
    declaration.isVariableList_of_hoists hoists
  unfold HasStatementForm at form
  split at form <;> rename_i form_eq <;> simp only [children, form_eq, Form.children, keepsVariables] at member goes_on
  all_goals simp only [statementParts, form_eq]
  all_goals grind

theorem mem_children_of_mem_statementParts {part : Node} (member : part ∈ node.statementParts) :
    node.keepsVariables = false ∧ part ∈ node.children := by
  have head : ∀ {head : Node}, part ∈ declaredHead head → part = head := by
    intro head member
    unfold declaredHead at member
    split at member
    · exact List.mem_singleton.mp member
    · cases member
  unfold statementParts at member
  split at member <;> rename_i form_eq <;> simp only [children, form_eq, Form.children, keepsVariables] at member ⊢
  all_goals simp only [Form.isExpression]
  all_goals grind

theorem listsBinding_iff {declarators : List Node}
    (patterns : ∀ declarator ∈ declarators, ∃ head pattern value,
      declarator.form = .declarator head pattern value ∧ pattern.IsPattern) :
    ListsBinding declarators name ↔ ∃ declarator ∈ declarators, declarator.DeclaratorBinds name := by
  refine exists_congr fun declarator => and_congr_right fun member => ?_
  obtain ⟨head, pattern, value, form_eq, isPattern⟩ := patterns declarator member
  simp [DeclaratorBinds, form_eq, isPattern.binds_iff_hasBinding]

/-- A statement declares the variables in it where variables are declared. -/
theorem IsStatement.hoists_iff_hasVariable (statement : node.IsStatement) : node.Hoists name ↔ node.HasVariable name := by
  induction statement with
  | @intro node form _ ih =>
      have here : (∃ declarators, node.form = .variableList .var declarators ∧
          ∃ declarator ∈ declarators, declarator.DeclaratorBinds name) ↔
          ∃ declarators, node.form = .variableList .var declarators ∧ ListsBinding declarators name := by
        refine exists_congr fun declarators => and_congr_right fun form_eq => ?_
        simp only [HasStatementForm, form_eq, IsDeclaration] at form
        rw [listsBinding_iff form]
      rw [hoists_iff, hasVariable_iff, here]
      refine or_congr_right ⟨?_, ?_⟩
      · rintro ⟨goes_on, child, member, hoists⟩
        have part := form.parts goes_on member hoists
        exact ⟨child, part, (ih child part).mp hoists⟩
      · rintro ⟨part, member, declared⟩
        obtain ⟨goes_on, inside⟩ := mem_children_of_mem_statementParts member
        exact ⟨goes_on, part, inside, (ih part member).mpr declared⟩

/-! ## Declarations of blocks -/

theorem IsDeclaration.declaresItself_iff (declaration : node.IsDeclaration) :
    node.DeclaresItself name ↔ node.Declares name := by
  constructor
  · intro itself
    cases itself with
    | declarators form_eq lexical member binds =>
        simp only [IsDeclaration, form_eq] at declaration
        exact .declarators form_eq lexical ((listsBinding_iff declaration).mpr ⟨_, member, binds⟩)
    | functionName form_eq role binds =>
        simp only [IsDeclaration, form_eq] at declaration
        exact .functionName form_eq role ((declaration.2 _ rfl).binds_iff.mp binds)
    | className form_eq role binds =>
        simp only [IsDeclaration, form_eq] at declaration
        exact .className form_eq role ((declaration.2 _ rfl).binds_iff.mp binds)
  · intro declares
    cases declares with
    | declarators form_eq lexical listed =>
        simp only [IsDeclaration, form_eq] at declaration
        obtain ⟨declarator, member, binds⟩ := (listsBinding_iff declaration).mp listed
        exact .declarators form_eq lexical member binds
    | functionName form_eq role named => exact .functionName form_eq role (binds_iff.mpr (.inl named))
    | className form_eq role named => exact .className form_eq role (binds_iff.mpr (.inl named))
    | exported form_eq _ => simp [IsDeclaration, form_eq] at declaration
    | exportedDefault form_eq _ => simp [IsDeclaration, form_eq] at declaration

theorem DeclaresItself.not_isSilent (itself : node.DeclaresItself name) : ¬node.IsSilent := by
  cases itself with
  | declarators form_eq _ _ _ => simp [IsSilent, form_eq, Form.isExpression]
  | functionName form_eq role _ => simp [IsSilent, form_eq, Form.isExpression, role]
  | className form_eq role _ => simp [IsSilent, form_eq, Form.isExpression, role]

theorem Declares.not_isSilent (declares : node.Declares name) : ¬node.IsSilent := by
  cases declares with
  | declarators form_eq _ _ => simp [IsSilent, form_eq, Form.isExpression]
  | functionName form_eq role _ => simp [IsSilent, form_eq, Form.isExpression, role]
  | className form_eq role _ => simp [IsSilent, form_eq, Form.isExpression, role]
  | exported form_eq _ => simp [IsSilent, form_eq, Form.isExpression]
  | exportedDefault form_eq _ => simp [IsSilent, form_eq, Form.isExpression]

/-- A statement declares for its block what it declares or exports itself. -/
theorem HasStatementForm.declaresLexically_iff (form : node.HasStatementForm) :
    node.DeclaresLexically name ↔ node.Declares name := by
  have declaration_of : ∀ {value : Node}, value.IsSilent ∨ value.IsDeclaration ∧ ¬value.IsVariableList →
      ¬value.IsSilent → value.IsDeclaration := fun either no_silent => (either.resolve_left no_silent).1
  constructor
  · intro declares
    cases declares with
    | own itself =>
        refine (IsDeclaration.declaresItself_iff ?_).mp itself
        cases itself with
        | declarators form_eq _ _ _ => simpa only [HasStatementForm, form_eq] using form
        | functionName form_eq _ _ => simpa only [HasStatementForm, form_eq] using form
        | className form_eq _ _ => simpa only [HasStatementForm, form_eq] using form
    | exported form_eq itself =>
        simp only [HasStatementForm, form_eq] at form
        exact .exported form_eq ((form.1 _ rfl).declaresItself_iff.mp itself)
    | exportedDefault form_eq itself =>
        simp only [HasStatementForm, form_eq] at form
        exact .exportedDefault form_eq ((declaration_of form itself.not_isSilent).declaresItself_iff.mp itself)
  · intro declares
    have own_of (declaration : node.IsDeclaration) : node.DeclaresLexically name :=
      .own (declaration.declaresItself_iff.mpr declares)
    cases declares with
    | declarators form_eq _ _ => exact own_of (by simpa only [HasStatementForm, form_eq] using form)
    | functionName form_eq _ _ => exact own_of (by simpa only [HasStatementForm, form_eq] using form)
    | className form_eq _ _ => exact own_of (by simpa only [HasStatementForm, form_eq] using form)
    | exported form_eq declared =>
        simp only [HasStatementForm, form_eq] at form
        exact .exported form_eq ((form.1 _ rfl).declaresItself_iff.mpr declared)
    | exportedDefault form_eq declared =>
        simp only [HasStatementForm, form_eq] at form
        exact .exportedDefault form_eq ((declaration_of form declared.not_isSilent).declaresItself_iff.mpr declared)

end Node

/-! ## Scopes -/

namespace Node

/-- Statements throughout. -/
def AreStatements (statements : List Node) : Prop := ∀ statement ∈ statements, statement.IsStatement

/-- A block declares what one of its statements declares. -/
def BlockDeclares (statements : List Node) (name : String) : Prop :=
  ∃ statement ∈ statements, statement.Declares name

/-- A module or the body of a function declares what one of its statements declares, and the variables in it. -/
def BodyDeclares (statements : List Node) (name : String) : Prop :=
  ∃ statement ∈ statements, statement.Declares name ∨ statement.HasVariable name

/-- Parameters declare what stands in one of them where names are declared. -/
def HeadDeclares (parameters : List Node) (name : String) : Prop :=
  ∃ parameter ∈ parameters, parameter.HasBinding name

/-- The head of a loop declares names by variables other than `var`. -/
def LoopDeclares (head : Node) (name : String) : Prop :=
  ∃ kind declarators, head.form = .variableList kind declarators ∧ kind ≠ .var ∧ ListsBinding declarators name

/-- A name that a node declares for the parts inside it. -/
def DeclaresInside (node : Node) (name : String) : Prop :=
  match node.form with
  | .program body => BodyDeclares body name
  | .function _ identifier parameters body =>
    HeadDeclares identifier.toList name ∨ HeadDeclares parameters name ∨
      BodyDeclares (body.toList.flatMap Scope.bodyStatements) name
  | .arrow _ parameters body => HeadDeclares parameters name ∨ BodyDeclares (Scope.bodyStatements body) name
  | .classOf _ _ identifier _ _ => HeadDeclares identifier.toList name
  | .block body => BlockDeclares body name
  | .switch _ cases => BlockDeclares (cases.flatMap Scope.caseStatements) name
  | .catchClause pattern _ => HeadDeclares pattern.toList name
  | .forLoop first _ _ _ => ∃ head ∈ first, LoopDeclares head name
  | .forIn left _ _ => LoopDeclares left name
  | .forOf _ left _ _ => LoopDeclares left name
  | _ => False

/-- What a node imports for the parts inside it: only a module has imports. -/
def importsInside (node : Node) : List (String × Binding) :=
  match node.form with
  | .program body => body.flatMap Scope.importBindings
  | _ => []

/-- What a node makes its scope from are statements, patterns and declarations. -/
def HasScopeForm (node : Node) : Prop :=
  match node.form with
  | .program body => AreStatements body
  | .function _ identifier parameters body =>
    (∀ own ∈ identifier, own.IsPattern) ∧ (∀ parameter ∈ parameters, parameter.IsPattern) ∧
      AreStatements (body.toList.flatMap Scope.bodyStatements)
  | .arrow _ parameters body =>
    (∀ parameter ∈ parameters, parameter.IsPattern) ∧ AreStatements (Scope.bodyStatements body)
  | .classOf _ _ identifier _ _ => ∀ own ∈ identifier, own.IsPattern
  | .block body => AreStatements body
  | .switch _ cases => AreStatements (cases.flatMap Scope.caseStatements)
  | .catchClause pattern _ => ∀ caught ∈ pattern, caught.IsPattern
  | .forLoop first _ _ _ => ∀ head ∈ first, head.IsVariableList → head.IsDeclaration
  | .forIn left _ _ => left.IsVariableList → left.IsDeclaration
  | .forOf _ left _ _ => left.IsVariableList → left.IsDeclaration
  | _ => True

variable {node : Node} {statements parameters : List Node} {name : String} {binding : Binding}

theorem declaresInBlock_iff_blockDeclares (shaped : AreStatements statements) :
    DeclaresInBlock statements name ↔ BlockDeclares statements name := by
  refine exists_congr fun statement => and_congr_right fun member => ?_
  cases shaped statement member with
  | intro form _ => exact form.declaresLexically_iff

theorem declaresInBody_iff_bodyDeclares (shaped : AreStatements statements) :
    DeclaresInBody statements name ↔ BodyDeclares statements name := by
  refine exists_congr fun statement => and_congr_right fun member => ?_
  rw [(shaped statement member).hoists_iff_hasVariable]
  cases shaped statement member with
  | intro form _ => rw [form.declaresLexically_iff]

theorem declaresInHead_iff_headDeclares (shaped : ∀ parameter ∈ parameters, parameter.IsPattern) :
    DeclaresInHead parameters name ↔ HeadDeclares parameters name :=
  exists_congr fun parameter => and_congr_right fun member => (shaped parameter member).binds_iff_hasBinding

theorem ite_declared_eq_some_iff {condition : Prop} [Decidable condition] {otherwise : Option Binding} :
    (if condition then some .declared else otherwise) = some binding ↔
      condition ∧ binding = .declared ∨ ¬condition ∧ otherwise = some binding := by
  split
  · rename_i holds
    simp [holds, eq_comm]
  · rename_i fails
    simp [fails]

/-- A scope of declarations alone holds just these. -/
theorem get?_declareAll_nil_eq_some_iff {names : List String} {declares : Prop} (same : name ∈ names ↔ declares) :
    Fields.get? (Scope.declareAll [] names) name = some binding ↔
      declares ∧ binding = .declared ∨ ¬declares ∧ ([] : List (String × Binding)).reverse.lookup name = some binding := by
  rw [Scope.get?_declareAll_nil, ite_declared_eq_some_iff, same]
  rfl

theorem get?_ofFunction_eq_some_iff {identifier body : Option Node}
    (own_shaped : ∀ own ∈ identifier, own.IsPattern) (head_shaped : ∀ parameter ∈ parameters, parameter.IsPattern)
    (body_shaped : AreStatements (body.toList.flatMap Scope.bodyStatements)) :
    Fields.get? (Scope.ofFunction identifier parameters body) name = some binding ↔
      (HeadDeclares identifier.toList name ∨ HeadDeclares parameters name ∨
        BodyDeclares (body.toList.flatMap Scope.bodyStatements) name) ∧ binding = .declared := by
  have own_shaped : ∀ own ∈ identifier.toList, own.IsPattern := fun own member =>
    own_shaped own (Option.mem_toList.mp member)
  rw [Scope.get?_ofFunction, ite_declared_eq_some_iff, declaresInBody_iff_bodyDeclares body_shaped,
    declaresInHead_iff_headDeclares head_shaped, declaresInHead_iff_headDeclares own_shaped]
  simp only [reduceCtorEq, and_false, or_false]
  exact and_congr_left fun _ => by tauto

theorem ofLoopHead?_bind_eq_some_iff {head : Node} (shaped : head.IsVariableList → head.IsDeclaration) :
    ((Scope.ofLoopHead? head).bind fun scope => Fields.get? scope name) = some binding ↔
      LoopDeclares head name ∧ binding = .declared := by
  unfold Scope.ofLoopHead?
  split
  · rename_i kind declarators form_eq
    have patterns := shaped ⟨_, _, form_eq⟩
    simp only [IsDeclaration, form_eq] at patterns
    by_cases isVar : kind = .var
    · simp [LoopDeclares, form_eq, isVar]
    · simp only [beq_iff_eq, isVar, if_false, Option.bind_some, LoopDeclares, form_eq, Form.variableList.injEq]
      rw [get?_declareAll_nil_eq_some_iff (mem_variableNames_iff.trans (listsBinding_iff patterns).symm)]
      simp [isVar]
  · rename_i no_variables
    have none_declared : ¬LoopDeclares head name := fun ⟨_, _, form_eq, _⟩ => no_variables _ _ form_eq
    simp [none_declared]

/-- The scope that code opens holds exactly the names that it declares in the places of the language, and a module
the names that it imports as well: of one name the last import, and that only if nothing in it declares the name. -/
theorem scope_holds_exactly_declared_names (shaped : node.HasScopeForm) (name : String) (binding : Binding) :
    (node.scope?.bind fun scope => Fields.get? scope name) = some binding ↔
      node.DeclaresInside name ∧ binding = .declared ∨
        ¬node.DeclaresInside name ∧ node.importsInside.reverse.lookup name = some binding := by
  unfold scope?
  split <;> rename_i form_eq <;>
    simp only [HasScopeForm, DeclaresInside, importsInside, form_eq, Option.bind_some] at shaped ⊢
  case h_1 body =>
    rw [Scope.get?_ofProgram, ite_declared_eq_some_iff, declaresInBody_iff_bodyDeclares shaped]
  case h_2 head identifier parameters body =>
    rw [get?_ofFunction_eq_some_iff shaped.1 shaped.2.1 shaped.2.2]
    simp
  case h_3 head parameters body =>
    rw [get?_ofFunction_eq_some_iff (by simp) shaped.1 (by simpa using shaped.2)]
    simp [HeadDeclares]
  case h_4 head decorators identifier heritage members =>
    cases identifier with
    | none => simp [Scope.ofClass?, HeadDeclares]
    | some identifier =>
        have names : name ∈ identifier.bindingNames ↔ HeadDeclares [identifier] name := by
          simp [HeadDeclares, mem_bindingNames_iff, (shaped identifier rfl).binds_iff_hasBinding]
        exact get?_declareAll_nil_eq_some_iff names
  case h_5 body =>
    rw [Scope.ofBlock, Scope.declareLexical, get?_declareAll_nil_eq_some_iff
      (mem_flatMap_lexicalNames_iff.trans (declaresInBlock_iff_blockDeclares shaped))]
  case h_6 pattern body =>
    cases pattern with
    | none => simp [HeadDeclares]
    | some pattern =>
        have names : name ∈ pattern.bindingNames ↔ HeadDeclares [pattern] name := by
          simp [HeadDeclares, mem_bindingNames_iff, (shaped pattern rfl).binds_iff_hasBinding]
        exact get?_declareAll_nil_eq_some_iff names
  case h_7 first test step body =>
    cases first with
    | none => simp
    | some first =>
        rw [Option.bind_some, ofLoopHead?_bind_eq_some_iff (shaped first rfl)]
        simp
  case h_8 left right body =>
    rw [ofLoopHead?_bind_eq_some_iff shaped]
    simp
  case h_9 isAwait left right body =>
    rw [ofLoopHead?_bind_eq_some_iff shaped]
    simp
  case h_10 subject cases =>
    rw [Scope.ofCases, Scope.declareLexical, get?_declareAll_nil_eq_some_iff
      (mem_flatMap_lexicalNames_iff.trans (declaresInBlock_iff_blockDeclares shaped))]
  case h_11 => simp

/-- A module that imports two names, declares one of them again by a pattern with a key and a default, and declares
a variable in the head of a loop in a branch. -/
def shadowingModule : Node :=
  let «at» (form : Form Node) : Node := .mk default form
  let named (name : String) : Node := «at» (.importNamed false (.identifier name) name)
  let element : Node := «at» (.defaulted («at» (.binding "seen")) («at» (.identifier "other")))
  let pattern : Node :=
    «at» (.objectPattern [«at» (.patternProperty («at» (.keyName "key")) («at» (.arrayPattern [element])) false false)])
  let deep : Node := «at» (.variableList .var [«at» (.declarator {} («at» (.binding "deep")) none)])
  «at» (.program [
    «at» (.importFrom {} [named "seen", named "kept"] ⟨"./m", default, none⟩),
    «at» (.variableList .constant [«at» (.declarator {} pattern (some («at» (.identifier "source"))))]),
    «at» (.conditionalStatement («at» (.identifier "seen"))
      («at» (.forOf false deep («at» (.identifier "seen")) («at» .empty))) none)])

theorem shadowingModule_hasScopeForm : shadowingModule.HasScopeForm := by
  have isPattern_iff (span : Span) (form : Form Node) : IsPattern (.mk span form) ↔
      HasPatternForm (.mk span form) ∧ ∀ part ∈ bindingParts (.mk span form), part.IsPattern :=
    ⟨fun | .intro form parts => ⟨form, parts⟩, fun ⟨form, parts⟩ => .intro form parts⟩
  have isStatement_iff (span : Span) (form : Form Node) : IsStatement (.mk span form) ↔
      HasStatementForm (.mk span form) ∧ ∀ part ∈ statementParts (.mk span form), part.IsStatement :=
    ⟨fun | .intro form parts => ⟨form, parts⟩, fun ⟨form, parts⟩ => .intro form parts⟩
  simp [shadowingModule, HasScopeForm, AreStatements, isStatement_iff, HasStatementForm, statementParts, declaredHead,
    IsDeclaration, IsVariableList, IsSpecifier, isPattern_iff, HasPatternForm, bindingParts, IsKey, Form.isExpression,
    Node.form]

theorem shadowingModule_declaresInside_iff {name : String} :
    shadowingModule.DeclaresInside name ↔ name = "seen" ∨ name = "deep" := by
  have hasBinding_iff (span : Span) (form : Form Node) := @hasBinding_iff (.mk span form) name
  have hasVariable_iff (span : Span) (form : Form Node) := @hasVariable_iff (.mk span form) name
  have declares_iff (span : Span) (form : Form Node) := @declares_iff (.mk span form) name
  simp [shadowingModule, DeclaresInside, BodyDeclares, declares_iff, hasVariable_iff, ListsBinding, hasBinding_iff,
    bindingParts, statementParts, declaredHead, Node.form, eq_comm]

/-- The pattern hides one of the imports; its key and its default are no names of the module. -/
theorem pattern_hides_import :
    shadowingModule.HasScopeForm ∧
      ∃ scope, shadowingModule.scope? = some scope ∧ Fields.get? scope "seen" = some .declared ∧
        Fields.get? scope "deep" = some .declared ∧ Fields.get? scope "kept" = some (.imported "./m" (.named "kept")) ∧
        Fields.get? scope "key" = none ∧ Fields.get? scope "other" = none := by
  have holds := @scope_holds_exactly_declared_names _ shadowingModule_hasScopeForm
  simp only [shadowingModule_declaresInside_iff] at holds
  obtain ⟨scope, opened⟩ : ∃ scope, shadowingModule.scope? = some scope := by
    unfold scope?
    exact ⟨_, rfl⟩
  simp only [opened, Option.bind_some] at holds
  have absent (name : String) (undeclared : ¬(name = "seen" ∨ name = "deep"))
      (no_import : shadowingModule.importsInside.reverse.lookup name = none) : Fields.get? scope name = none := by
    rw [Option.eq_none_iff_forall_ne_some]
    intro binding found
    simp [holds, undeclared, no_import] at found
  exact ⟨shadowingModule_hasScopeForm, scope, opened, (holds _ _).mpr (by simp), (holds _ _).mpr (by simp),
    (holds _ _).mpr (.inr ⟨by decide, rfl⟩), absent "key" (by decide) rfl, absent "other" (by decide) rfl⟩

end Node

end Storyboard
