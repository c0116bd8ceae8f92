import Storyboard.Proofs.RuleRanges

/-!
# Forms that rules give

What a rule gives is what its last step gives, so the forms of nodes follow from the rules without regard to the
tokens: the rules of expressions give expressions, and the rule of statements gives statements. Only a function needs a
look at the tokens. It has a name or else type parameters, since the rule refuses a parenthesis where the name belongs;
what is exported by default may do without a name.
-/

namespace Storyboard

namespace Form

/-- Whether a form can be exported by default: an expression, a function, a class or an object type. -/
def isDefaultValue {α : Type} : Form α → Bool
  | .function head _ _ _ => head.role != .method
  | .classOf head _ _ _ _ => head.role != .method
  | .typeDeclaration _ => true
  | form => form.isExpression

/-- Whether a form is a declared function that has neither a name nor type parameters. -/
def isUnnamedFunction {α : Type} : Form α → Bool
  | .function head name _ _ => head.role == .declaration && name.isNone && head.typeParameters.isEmpty
  | _ => false

/-- Whether a form is a statement of a module. -/
def isStatement : Form Node → Bool
  | .expressionStatement value => value.form.isExpression
  | .block _ => true
  | .variableList _ _ => true
  | .conditionalStatement _ _ _ => true
  | .forLoop _ _ _ _ => true
  | .forIn _ _ _ => true
  | .forOf _ _ _ _ => true
  | .whileLoop _ _ => true
  | .doWhile _ _ => true
  | .returned _ => true
  | .breakTo _ => true
  | .continueTo _ => true
  | .thrown _ => true
  | .tryBlock _ _ _ => true
  | .switch _ _ => true
  | .labeled _ _ => true
  | .withObject _ _ => true
  | .debugger => true
  | .empty => true
  | .function head name parameters body =>
    head.role == .declaration && !(Form.function head name parameters body).isUnnamedFunction
  | .classOf head _ _ _ _ => head.role == .declaration
  | .typeDeclaration _ => true
  | .enumeration _ _ _ => true
  | .ambient _ => true
  | .namespaceBlock _ _ _ => true
  | .importFrom _ _ _ => true
  | .importAlias _ _ _ => true
  | .exportNamed _ _ _ _ => true
  | .exportAll _ _ _ => true
  | .exportDefault value => value.form.isDefaultValue
  | .exportWhole _ => true
  | .exportNamespace _ => true
  | _ => false

theorem isDefaultValue_of_isExpression {α : Type} {form : Form α} (expression : form.isExpression = true) :
    form.isDefaultValue = true := by
  cases form with
  | function head name parameters body =>
      have role : head.role = .expression := eq_of_beq expression
      simp [isDefaultValue, role]
  | classOf head decorators name heritage members =>
      have role : head.role = .expression := eq_of_beq expression
      simp [isDefaultValue, role]
  | typeDeclaration => rfl
  | _ => exact expression

end Form

namespace Grammar

variable {α β : Type} {condition : β → Prop}

/-- Whatever a rule gives satisfies a condition. -/
def Gives (condition : β → Prop) (rule : Parse β) : Prop :=
  ∀ mode reading value next, rule mode reading = some (value, next) → condition value

namespace Gives

theorem pure {value : β} (holds : condition value) : Gives condition (Pure.pure value) := by
  rintro mode reading _ _ same
  cases same
  exact holds

theorem failure : Gives condition (Alternative.failure : Parse β) := fun _ _ _ _ failed => nomatch failed

/-- What the first rule gives may be known. -/
theorem bind_of {first : α → Prop} {rule : Parse α} {next : α → Parse β} (given : Gives first rule)
    (second : ∀ value, first value → Gives condition (next value)) : Gives condition (rule >>= next) := by
  intro mode reading value last read
  obtain ⟨_, between, read, read'⟩ := exists_of_bind read
  exact second _ (given _ _ _ _ read) mode between value last read'

theorem bind {rule : Parse α} {next : α → Parse β} (second : ∀ value, Gives condition (next value)) :
    Gives condition (rule >>= next) :=
  have given : Gives (fun _ => True) rule := fun _ _ _ _ _ => trivial
  bind_of given fun value _ => second value

theorem ite {test : Prop} [Decidable test] {yes no : Parse β} (yes_gives : Gives condition yes)
    (no_gives : Gives condition no) : Gives condition (if test then yes else no) := by
  split
  · exact yes_gives
  · exact no_gives

theorem withReader {change : Mode → Mode} {rule : Parse β} (gives : Gives condition rule) :
    Gives condition (MonadWithReader.withReader change rule) :=
  fun mode reading value next read => gives (change mode) reading value next read

theorem imp {stronger : β → Prop} {rule : Parse β} (gives : Gives stronger rule)
    (weaker : ∀ value, stronger value → condition value) : Gives condition rule :=
  fun mode reading value next read => weaker value (gives mode reading value next read)

theorem map {first : α → Prop} {rule : Parse α} {change : α → β} (given : Gives first rule)
    (holds : ∀ value, first value → condition (change value)) : Gives condition (change <$> rule) := by
  rw [map_eq_pure_bind]
  exact bind_of given fun value known => .pure (holds value known)

theorem attempt {rule : Parse β} (gives : Gives condition rule) :
    Gives (fun found => ∀ value ∈ found, condition value) (Grammar.attempt rule) := by
  intro mode reading found next read
  unfold Grammar.attempt at read
  split at read
  · rename_i found
    cases read
    rintro _ ⟨⟩
    exact gives _ _ _ _ found
  · cases read
    rintro _ ⟨⟩

/-- An extension of a value keeps a condition that each of its steps keeps. -/
theorem extend {step : β → Parse (Option β)} {value : β} (holds : condition value)
    (keeps : ∀ value, condition value → Gives (fun next => ∀ value ∈ next, condition value) (step value)) :
    Gives condition (Grammar.extend step value) := by
  refine .bind fun mode => ?_
  generalize mode.limit = limit
  induction limit generalizing value with
  | zero => exact .failure
  | succ limit ih =>
      refine .bind_of (keeps value holds) fun found known => ?_
      cases found with
      | none => exact .pure holds
      | some next => exact ih (known next rfl)

end Gives

/-- The form of a node is accepted. -/
def HasForm (accepts : Form Node → Bool) (node : Node) : Prop := accepts node.form = true

theorem gives_close {accepts : Form Node → Bool} {start : Nat} {form : Form Node} (accepted : accepts form = true) :
    Gives (HasForm accepts) (close start form) := by
  rintro mode reading _ _ same
  cases same
  exact accepted

/-- What is expected of what a goal gives. -/
def Goal.accepts : Goal → Form Node → Bool
  | .pattern => fun _ => true
  | .statement _ => Form.isStatement
  | _ => Form.isExpression

/-- Rules give what is expected. -/
def Rules.IsSound (rules : Rules) : Prop := ∀ goal : Goal, Gives (HasForm goal.accepts) (rules goal)

abbrev GivesExpression (rule : Parse Node) : Prop := Gives (HasForm Form.isExpression) rule

abbrev GivesStatement (rule : Parse Node) : Prop := Gives (HasForm Form.isStatement) rule

/-! ## Functions and classes -/

variable {rules : Rules} {accepts : Form Node → Bool}

theorem gives_classRest {start : Nat} {decorators : List Node} {role : Role}
    (accepted : ∀ head decorators name heritage members, head.role = role →
      accepts (.classOf head decorators name heritage members) = true) :
    Gives (HasForm accepts) (classRest rules start decorators role) := by
  have closes : ∀ head name heritage members, head.role = role →
      Gives (HasForm accepts) (close start (.classOf head decorators name heritage members)) :=
    fun _ _ _ _ same => gives_close (accepted _ _ _ _ _ same)
  dsimp only [classRest]
  refine .bind fun _ => .bind fun _ => .bind fun _ => .bind fun _ => .ite ?_ ?_
  all_goals
    refine .bind fun _ => .bind fun _ => .bind fun (_, _) => .bind fun _ => .bind fun _ => .bind fun _ => ?_
    exact closes _ _ _ _ rfl

theorem gives_classNode {role : Role}
    (accepted : ∀ head decorators name heritage members, head.role = role →
      accepts (.classOf head decorators name heritage members) = true) :
    Gives (HasForm accepts) (classNode rules role) :=
  .bind fun _ => .bind fun _ => gives_classRest accepted

/-- A function from its parameters on keeps its role and its name. -/
theorem gives_functionRest {start : Nat} {place : ParameterPlace} {head : FunctionHead} {name : Option Node} :
    Gives (fun node => ∃ head' parameters body, node.form = .function head' name parameters body ∧ head'.role = head.role)
      (functionRest rules start place head name) := by
  have closes : ∀ head' parameters body, head'.role = head.role →
      Gives (fun node => ∃ head' parameters body,
        node.form = .function head' name parameters body ∧ head'.role = head.role)
        (close start (.function head' name parameters body)) := by
    rintro head' parameters body role mode reading _ _ same
    cases same
    exact ⟨head', parameters, body, rfl, role⟩
  dsimp only [functionRest]
  refine .withReader (.bind fun _ => .bind fun _ => .bind fun _ => .bind fun _ => .bind fun _ => ?_)
  split
  · exact .bind fun _ => closes _ _ _ rfl
  · exact .bind fun _ => .bind fun _ => .bind fun _ => closes _ _ _ rfl

theorem gives_function {role : Role} {needsName : Bool} :
    Gives (fun node => ∃ head name parameters body, node.form = .function head name parameters body ∧ head.role = role)
      (function rules role needsName) := by
  have rest : ∀ start head name, head.role = role →
      Gives (fun node => ∃ head name parameters body,
        node.form = .function head name parameters body ∧ head.role = role)
        (functionRest rules start .plain head name) := by
    intro start head name role_eq
    refine .imp gives_functionRest fun node => ?_
    rintro ⟨head', parameters, body, form_eq, same⟩
    exact ⟨head', name, parameters, body, form_eq, same.trans role_eq⟩
  exact .bind fun _ => .bind fun _ => .bind fun _ => .bind fun _ => .bind fun _ => .bind fun _ => .bind fun _ => rest _ _ _ rfl

theorem gives_function_of_role {role : Role} {needsName : Bool}
    (accepted : ∀ head name parameters body, head.role = role → accepts (.function head name parameters body) = true) :
    Gives (HasForm accepts) (function rules role needsName) := by
  refine .imp gives_function fun node => ?_
  rintro ⟨head, name, parameters, body, form_eq, role_eq⟩
  rw [HasForm, form_eq]
  exact accepted _ _ _ _ role_eq

theorem gives_arrowRest {start : Nat} {head : FunctionHead} {parameters : List Node} :
    GivesExpression (arrowRest rules start head parameters) := by
  dsimp only [arrowRest]
  refine .bind fun _ => .bind fun _ => .bind fun _ => .withReader (.bind fun _ => ?_)
  split
  · exact .bind fun _ => gives_close rfl
  · exact .bind fun _ => gives_close rfl

/-! ## Arrow functions -/

/-- What is given, if anything, is an expression. -/
abbrev GivesExpressionIfAny (rule : Parse (Option Node)) : Prop :=
  Gives (fun found => ∀ node ∈ found, HasForm Form.isExpression node) rule

theorem gives_none : GivesExpressionIfAny (pure none) := .pure fun _ none_ => nomatch none_

theorem gives_some {rule : Parse Node} (gives : GivesExpression rule) :
    GivesExpressionIfAny (rule >>= fun node => pure (some node)) :=
  .bind_of gives fun _ known => .pure fun _ same => Option.some.inj same ▸ known

theorem gives_arrowBeforeColon {start : Nat} : GivesExpressionIfAny (arrowBeforeColon rules start) := by
  refine .bind fun ahead => ?_
  split
  · split
    · exact gives_none
    · exact .attempt (.bind fun _ => .bind_of gives_arrowRest fun _ known => .bind fun _ => .bind fun _ => .pure known)
  · exact gives_none

/-- What has been found already is given; otherwise a head of an arrow function is tried. -/
theorem gives_arrowUnlessFound {start : Nat} {allowsResult : Bool} {found : Option Node} :
    (∀ node ∈ found, HasForm Form.isExpression node) → GivesExpressionIfAny (match found with
      | some node => return some node
      | none => do
        match ← attempt (arrowHead rules allowsResult) with
        | some (head, parameters) => return some (← arrowRest rules start head parameters)
        | none => return none) := by
  intro known
  cases found with
  | some node => exact .pure fun _ same => known _ same
  | none =>
      refine .bind fun head => ?_
      split
      · exact gives_some gives_arrowRest
      · exact gives_none

theorem gives_parenthesizedArrow : GivesExpressionIfAny (parenthesizedArrow rules) := by
  dsimp only [parenthesizedArrow]
  refine .bind fun _ => .bind fun _ => .bind fun _ => ?_
  split
  all_goals
    refine .bind fun mayBegin => .ite (.bind fun _ => ?_) gives_none
    split
    · exact .bind_of gives_none fun _ => gives_arrowUnlessFound
    · exact .bind_of gives_arrowBeforeColon fun _ => gives_arrowUnlessFound

theorem gives_asyncLoneArrow : GivesExpressionIfAny (asyncLoneArrow rules) := by
  refine .bind fun start => .bind fun isAsync => ?_
  split
  · refine .bind fun found => ?_
    split
    · exact gives_some gives_arrowRest
    · exact gives_none
  · exact gives_none

/-! ## Operands -/

theorem gives_wordValue {form : Form Node} (accepted : form.isExpression = true) : GivesExpression (wordValue form) :=
  .bind fun _ => .bind fun _ => gives_close accepted

theorem gives_identifierNode : GivesExpression identifierNode := .bind fun _ => .bind fun _ => gives_close rfl

theorem gives_template : GivesExpression (template rules) := .bind fun _ => .bind fun _ => .bind fun _ => gives_close rfl

theorem gives_regex : GivesExpression regex :=
  .bind fun _ => .bind fun _ => .bind fun _ => .bind fun _ => .bind fun _ => gives_close rfl

theorem gives_array {start : Nat} : GivesExpression (array rules start) := .bind fun _ => gives_close rfl

theorem gives_object {start : Nat} : GivesExpression (object rules start) := .bind fun _ => gives_close rfl

theorem isExpression_grouped {node : Node} (known : HasForm Form.isExpression node) :
    HasForm Form.isExpression (grouped node) := by
  obtain ⟨span, form⟩ := node
  cases form <;> exact known

theorem isExpression_promiseHarmless {node : Node} (known : HasForm Form.isExpression node) :
    HasForm Form.isExpression (promiseHarmless node) := by
  obtain ⟨span, form⟩ := node
  cases form <;> exact known

theorem isExpression_promisePure {node : Node} (known : HasForm Form.isExpression node) :
    HasForm Form.isExpression (promisePure node) := by
  fun_cases promisePure node <;> first | rfl | exact known

theorem gives_superclass : GivesExpression superclass :=
  .bind_of (gives_wordValue rfl) fun _ known => .bind fun _ => .bind fun _ => .bind fun _ => .bind fun _ => .pure known

theorem gives_importCall {start : Nat} {phase : Option String} : GivesExpression (importCall rules start phase) := by
  refine .bind fun _ => .bind fun arguments => ?_
  split
  · exact gives_close rfl
  · exact gives_close rfl
  · exact .failure

theorem gives_importExpression : GivesExpression (importExpression rules) := by
  refine .bind fun _ => .bind fun _ => .bind fun isMember => ?_
  split
  · refine .bind fun kind => ?_
    split
    · exact .bind fun _ => gives_close rfl
    · exact .bind fun _ => gives_importCall
    · exact .bind fun _ => gives_importCall
    · exact .failure
  · exact gives_importCall

theorem gives_construct : GivesExpression (construct rules) := by
  refine .bind fun start => .bind fun _ => .bind fun isTarget => ?_
  split
  · exact .bind fun _ => gives_close rfl
  · refine .bind fun _ => .bind fun _ => .bind fun _ => .bind fun _ => .bind fun _ => ?_
    split
    · exact .bind fun _ => gives_close rfl
    · exact .bind fun _ => gives_close rfl

/-- What has been read so far is an expression. -/
abbrev GivesAccess (rule : Parse Access) : Prop := Gives (fun access => HasForm Form.isExpression access.node) rule

abbrev GivesAccessIfAny (rule : Parse (Option Access)) : Prop :=
  Gives (fun found => ∀ access ∈ found, HasForm Form.isExpression access.node) rule

theorem gives_access {start : Nat} {form : Form Node} {inChain : Bool} (accepted : form.isExpression = true) :
    GivesAccess (close start form >>= fun node => pure ⟨node, inChain⟩) :=
  .bind_of (gives_close accepted) fun _ known => .pure known

theorem GivesAccess.some {rule : Parse Access} (gives : GivesAccess rule) : GivesAccessIfAny (some <$> rule) :=
  .map gives fun _ known _ same => Option.some.inj same ▸ known

theorem gives_noAccess : GivesAccessIfAny (pure none) := .pure fun _ none_ => nomatch none_

theorem gives_someAccess {start : Nat} {form : Form Node} {inChain : Bool} (accepted : form.isExpression = true) :
    GivesAccessIfAny (close start form >>= fun node => pure (.some ⟨node, inChain⟩)) :=
  .bind_of (gives_close accepted) fun _ known => .pure fun _ same => Option.some.inj same ▸ known

theorem gives_namedMember {start : Nat} {access : Access} {isOptional : Bool} :
    GivesAccess (namedMember start access isOptional) := by
  refine .bind fun kind => ?_
  split
  · exact .bind fun _ => gives_access rfl
  · exact .bind fun _ => gives_access rfl

theorem gives_optionalAccess {start : Nat} {access : Access} : GivesAccess (optionalAccess rules start access) := by
  refine .bind fun types => .bind fun isCall => ?_
  split
  · exact .bind fun _ => gives_access rfl
  · refine .bind fun _ => .bind fun isIndex => ?_
    split
    · exact .bind fun _ => gives_access rfl
    · exact gives_namedMember

theorem gives_tagged {start : Nat} {access : Access} {types : List TypeExpr} :
    GivesAccess (tagged rules start access types) :=
  .bind fun _ => .bind fun _ => .bind fun _ => gives_access rfl

theorem gives_called {start : Nat} {access : Access} {types : List TypeExpr} :
    GivesAccess (called rules start access types) :=
  .bind fun _ => gives_access rfl

theorem gives_appliedStep {start : Nat} {access : Access} : GivesAccessIfAny (appliedStep rules start access) := by
  refine .bind fun types => ?_
  split
  · exact gives_noAccess
  · refine .bind fun kind => ?_
    split
    · exact GivesAccess.some gives_tagged
    · exact GivesAccess.some gives_called
    · exact gives_someAccess rfl

theorem gives_accessStep {start : Nat} {allowsCalls : Bool} {access : Access} :
    GivesAccessIfAny (accessStep rules start allowsCalls access) := by
  refine .bind fun kind => ?_
  split
  · exact .bind fun _ => GivesAccess.some gives_namedMember
  · exact .bind fun _ => .bind fun _ => GivesAccess.some gives_optionalAccess
  · refine .bind fun mode => .ite gives_noAccess (.bind fun _ => .bind fun _ => gives_someAccess rfl)
  · exact GivesAccess.some gives_tagged
  · exact .ite (GivesAccess.some gives_called) gives_noAccess
  · exact .ite gives_appliedStep gives_noAccess
  · exact .ite gives_appliedStep gives_noAccess
  · exact .bind fun _ => .bind fun _ => .ite (.bind fun _ => gives_someAccess rfl) gives_noAccess
  · exact gives_noAccess

theorem gives_extend_accessStep {start : Nat} {allowsCalls : Bool} {node : Node}
    (known : HasForm Form.isExpression node) : GivesAccess (extend (accessStep rules start allowsCalls) { node }) :=
  .extend known fun _ _ => gives_accessStep

theorem gives_accesses {start : Nat} {node : Node} (known : HasForm Form.isExpression node) : GivesExpression (do
    let access ← extend (accessStep rules start true) { node }
    if access.inChain then
      match access.node.form with
      | .typed (.instantiated types) applied =>
        let chain : Node := .mk applied.span (.chain applied)
        return .mk access.node.span (.typed (.instantiated types) chain)
      | _ => close start (.chain access.node)
    else return access.node) := by
  refine .bind_of (gives_extend_accessStep known) fun access known => ?_
  split
  · split
    · exact .pure rfl
    · exact gives_close rfl
  · exact .pure known

section

variable (sound : rules.IsSound)
include sound

theorem gives_parenthesized : GivesExpression (parenthesized rules) :=
  .bind fun _ => .bind fun _ => .bind_of (.withReader (sound .expression)) fun _ known =>
    .bind fun _ => .bind fun _ => .bind fun _ => .pure (isExpression_grouped known)

theorem gives_primary : GivesExpression (primary rules) := by
  refine .bind fun start => .bind fun kind => ?_
  split
  · exact gives_wordValue rfl
  · exact gives_wordValue rfl
  · exact gives_wordValue rfl
  · exact gives_template
  · exact gives_parenthesized sound
  · exact .bind fun _ => gives_array
  · exact .bind fun _ => gives_object
  · exact gives_regex
  · exact gives_regex
  · exact gives_classNode fun _ _ _ _ _ role => beq_iff_eq.mpr role
  · exact gives_wordValue rfl
  · exact gives_wordValue rfl
  · exact gives_wordValue rfl
  · exact gives_wordValue rfl
  · exact gives_classNode fun _ _ _ _ _ role => beq_iff_eq.mpr role
  · exact .bind fun _ => .ite (gives_function_of_role fun _ _ _ _ role => beq_iff_eq.mpr role) gives_identifierNode
  · exact .failure

theorem gives_leftSide : GivesExpression (leftSide rules) := by
  refine .bind fun start => .bind fun kind => ?_
  split
  · exact .bind_of gives_superclass fun _ => gives_accesses
  · exact .bind_of gives_importExpression fun _ => gives_accesses
  · exact .bind_of gives_construct fun _ => gives_accesses
  · exact .bind_of (gives_primary sound) fun _ => gives_accesses

end

/-! ## Operators and assignments -/

theorem gives_privateIn {start : Nat} {name : String} : GivesExpression (privateIn rules start name) :=
  .bind fun _ => .bind fun _ => .bind fun _ => .bind fun _ => gives_close rfl

theorem gives_typedStep {start precedence : Nat} {left : Node} : GivesExpressionIfAny (typedStep start precedence left) := by
  refine .bind fun mode => .bind fun _ => .ite (.bind fun kind => ?_) gives_none
  split
  · exact .bind fun _ => .bind fun _ => gives_some (gives_close rfl)
  · exact .bind fun _ => .bind fun _ => gives_some (gives_close rfl)
  · exact gives_none

theorem gives_binaryStep {start precedence : Nat} {leftGrouped : Bool} {left : Node} :
    GivesExpressionIfAny (binaryStep rules start precedence leftGrouped left) := by
  refine .bind fun _ => .bind_of gives_typedStep fun found known => ?_
  split
  · exact .pure fun _ same => known _ same
  · refine .bind fun kind => .bind fun mode => ?_
    split
    · exact gives_none
    · exact .ite (.bind fun _ => .bind fun _ => .bind fun _ => .bind fun _ => .bind fun _ => gives_some (gives_close rfl))
        gives_none

theorem gives_yielded : GivesExpression (yielded rules) := by
  dsimp only [yielded]
  refine .bind fun _ => .bind fun _ => .bind fun _ => .bind fun _ => .bind fun _ => .ite (gives_close rfl) ?_
  refine .bind fun _ => .ite (.bind fun _ => gives_close rfl) ?_
  exact .bind fun _ => .ite (gives_close rfl) (.bind fun _ => gives_close rfl)

theorem gives_conditionalRest {start : Nat} {test : Node} (known : HasForm Form.isExpression test) :
    GivesExpression (conditionalRest rules start test) :=
  .bind fun _ => .ite (.bind fun _ => .bind fun _ => .bind fun _ => gives_close rfl) (.pure known)

/-! ## Markup -/

theorem gives_closeHere {accepts : Form Node → Bool} {start : Nat} {form : Form Node} (accepted : accepts form = true) :
    Gives (HasForm accepts) (closeHere start form) := by
  rintro mode reading _ _ same
  cases same
  exact accepted

theorem gives_element : GivesExpression (element rules) := by
  refine .bind fun start => .bind fun _ => .bind fun isFragment => .ite (.bind fun _ => gives_closeHere rfl) ?_
  refine .bind fun name => .bind fun attributes => .bind fun isEmpty => ?_
  exact .ite (.bind fun _ => .bind fun _ => gives_closeHere rfl)
    (.bind fun _ => .bind fun _ => .bind fun _ => gives_closeHere rfl)

section

variable (sound : rules.IsSound)
include sound

theorem gives_postfixed : GivesExpression (postfixed rules) := by
  dsimp only [postfixed]
  refine .bind fun _ => .bind_of (gives_leftSide sound) fun node known => ?_
  refine .bind fun _ => .bind fun _ => .bind fun _ => .ite ?_ (.pure known)
  exact .bind fun _ => .bind fun _ => .bind fun _ => gives_close rfl

theorem gives_unary : GivesExpression (unary rules) := by
  refine .bind fun start => .bind fun kind => ?_
  split
  · exact .bind fun _ => .bind fun _ => gives_close rfl
  · refine .bind fun _ => .bind fun _ => .ite ?update (.bind fun _ => .ite ?awaited (.bind fun _ => .bind fun _ => ?_))
    case update => exact .bind fun _ => .bind fun _ => .bind fun _ => .bind fun _ => gives_close rfl
    case awaited => exact .bind fun _ => .bind fun _ => .bind fun _ => .bind fun _ => gives_close rfl
    refine .ite (.bind_of (sound .markup) fun _ known => .bind fun _ => .pure known) (.bind fun _ => .bind fun _ => ?_)
    exact .ite (.bind fun _ => .bind fun _ => .bind fun _ => .bind fun _ => gives_close rfl) (gives_postfixed sound)

theorem gives_operand {precedence : Nat} : GivesExpression (operand rules precedence) := by
  have rest : ∀ start leftGrouped left, HasForm Form.isExpression left →
      GivesExpression (extend (binaryStep rules start precedence leftGrouped) left) :=
    fun _ _ _ known => .extend known fun _ _ => gives_binaryStep
  refine .bind fun start => .bind fun token => .bind fun leftGrouped => .bind fun kind => ?_
  split
  all_goals split
  · exact .bind fun _ => .bind fun _ => .bind_of gives_privateIn fun _ known => rest _ _ _ (isExpression_promisePure known)
  · exact .bind_of (gives_unary sound) fun _ known => rest _ _ _ (isExpression_promisePure known)
  · exact .bind fun _ => .bind fun _ => .bind_of gives_privateIn fun _ known => rest _ _ _ known
  · exact .bind_of (gives_unary sound) fun _ known => rest _ _ _ known

theorem gives_plainAssignment : GivesExpression (plainAssignment rules) := by
  refine .bind fun start => .bind_of (gives_operand sound) fun left known => .bind fun _ => .ite ?_ (.bind fun kind => ?_)
  · exact .bind fun _ => gives_arrowRest
  · split
    · exact .bind fun _ => .bind fun _ => .bind fun _ => gives_close rfl
    · exact gives_conditionalRest known

theorem gives_unmarkedAssignment : GivesExpression (unmarkedAssignment rules) := by
  refine .bind fun _ => .ite gives_yielded (.bind_of gives_parenthesizedArrow fun found known => ?_)
  split
  · exact .pure (known _ rfl)
  · refine .bind_of gives_asyncLoneArrow fun found known => ?_
    split
    · exact .pure (known _ rfl)
    · exact gives_plainAssignment sound

theorem gives_assignment : GivesExpression (assignment rules) := by
  refine .bind fun token => .bind_of (gives_unmarkedAssignment sound) fun node known => .pure ?_
  split
  · exact isExpression_promiseHarmless known
  · exact known

theorem gives_expression : GivesExpression (expression rules) :=
  .bind fun _ => .bind_of (sound .assignment) fun _ known => .bind fun _ =>
    .ite (.bind fun _ => gives_close rfl) (.pure known)

end

/-! ## Statements -/

theorem gives_endExpression {start : Nat} {value : Node} (known : HasForm Form.isExpression value) :
    GivesStatement (endExpression start value) :=
  .bind fun _ => gives_close known

theorem gives_variableList {start : Nat} {kind : VariableKind} :
    Gives (HasForm fun form => form matches .variableList _ _) (variableList rules start kind) :=
  .bind fun _ => .bind fun _ => gives_close rfl

theorem gives_variableStatement {start : Nat} {kind : VariableKind} :
    GivesStatement (variableStatement rules start kind) := by
  refine .bind_of gives_variableList fun node known => .bind fun _ => .bind fun _ => .bind fun _ => gives_close ?_
  obtain ⟨span, form⟩ := node
  cases form <;> first | rfl | cases known

theorem gives_block : GivesStatement (block rules) := .bind fun _ => .bind fun _ => gives_close rfl

theorem gives_conditionalStatement {start : Nat} : GivesStatement (conditionalStatement rules start) := by
  dsimp only [conditionalStatement]
  exact .bind fun _ => .bind fun _ => .bind fun _ => .ite (.bind fun _ => gives_close rfl) (.bind fun _ => gives_close rfl)

theorem gives_switch {start : Nat} : GivesStatement (switch rules start) :=
  .bind fun _ => .bind fun _ => .bind fun _ => gives_close rfl

theorem gives_tryBlock {start : Nat} : GivesStatement (tryBlock rules start) := by
  dsimp only [tryBlock]
  refine .bind fun _ => .bind fun _ => .bind fun _ => .ite ?_ ?_
  · exact .bind fun _ => .bind fun _ => gives_close rfl
  · exact .bind fun _ => .bind fun _ => gives_close rfl

theorem gives_forRest {start : Nat} {first : Option Node} : GivesStatement (forRest rules start first) := by
  have body : ∀ test step : Option Node, GivesStatement (do
      expectMark ")"
      let body ← rules (.statement true)
      close start (.forLoop first test step body)) :=
    fun _ _ => .bind fun _ => .bind fun _ => gives_close rfl
  dsimp only [forRest]
  refine .bind fun _ => .bind fun _ => .ite ?_ ?_
  all_goals exact .bind fun _ => .bind fun _ => .bind fun _ => .ite (.bind fun _ => body _ _) (.bind fun _ => body _ _)

theorem gives_forInRest {start : Nat} {left : Node} : GivesStatement (forInRest rules start left) :=
  .bind fun _ => .bind fun _ => .bind fun _ => .bind fun _ => gives_close rfl

theorem gives_forOfRest {start : Nat} {isAwait : Bool} {left : Node} :
    GivesStatement (forOfRest rules start isAwait left) :=
  .bind fun _ => .bind fun _ => .bind fun _ => .bind fun _ => gives_close rfl

theorem gives_forVariables {start : Nat} {isAwait : Bool} {left : Node} :
    GivesStatement (forVariables rules start isAwait left) :=
  .bind fun _ => .ite gives_forOfRest (.bind fun _ => .bind fun _ =>
    .ite (.bind fun _ => gives_forInRest) (.bind fun _ => gives_forRest))

theorem gives_forExpression {start : Nat} {isAwait : Bool} : GivesStatement (forExpression rules start isAwait) := by
  dsimp only [forExpression]
  refine .bind fun _ => .bind fun _ => .bind fun _ => .bind fun _ => .bind fun _ => .ite ?_ ?_
  · exact .bind fun _ => .bind fun _ => gives_forOfRest
  · exact .bind fun _ => .bind fun _ => .ite (.bind fun _ => gives_forInRest) gives_forRest

theorem gives_forHead {start first : Nat} {isAwait : Bool} {found : Option VariableKind} :
    GivesStatement (match found with
      | some kind => do
        let left ← withReader (fun mode => { mode with allowsIn := false }) (variableList rules first kind)
        forVariables rules start isAwait left
      | none => forExpression rules start isAwait) := by
  split
  · exact .bind fun _ => gives_forVariables
  · exact gives_forExpression

theorem gives_forLoop {start : Nat} : GivesStatement (forLoop rules start) := by
  dsimp only [forLoop]
  refine .bind fun _ => .bind fun _ => .bind fun _ => .bind fun _ => .bind fun _ => .ite (.bind fun _ => gives_forRest) ?_
  refine .bind fun _ => .bind fun _ => .bind fun _ => .ite ?_ ?_
  · exact .bind fun _ => gives_forHead
  · exact .bind fun _ => gives_forHead

theorem gives_whileLoop {start : Nat} : GivesStatement (whileLoop rules start) :=
  .bind fun _ => .bind fun _ => gives_close rfl

theorem gives_doWhile {start : Nat} : GivesStatement (doWhile rules start) :=
  .bind fun _ => .bind fun _ => .bind fun _ => .bind fun _ => gives_close rfl

theorem gives_returned {start : Nat} : GivesStatement (returned rules start) := by
  dsimp only [returned]
  refine .bind fun _ => .bind fun _ => .bind fun _ => .ite ?_ ?_
  · exact .bind fun _ => .bind fun _ => gives_close rfl
  · exact .bind fun _ => .bind fun _ => gives_close rfl

theorem gives_thrown {start : Nat} : GivesStatement (thrown rules start) :=
  .bind fun _ => .bind fun _ => .bind fun _ => .bind fun _ => gives_close rfl

theorem gives_typeAlias {start : Nat} : GivesStatement (typeAlias start) :=
  .bind fun _ => .bind fun _ => .bind fun _ => .bind fun _ => .bind fun _ => gives_close rfl

theorem gives_interfaceType {accepts : Form Node → Bool} {start : Nat}
    (accepted : ∀ declaration, accepts (.typeDeclaration declaration) = true) :
    Gives (HasForm accepts) (interfaceType start) :=
  .bind fun _ => .bind fun _ => .bind fun _ => .bind fun _ => gives_close (accepted _)

theorem gives_enumeration {start : Nat} {isConst : Bool} : GivesStatement (enumeration rules start isConst) :=
  .bind fun _ => .bind fun _ => .bind fun _ => .bind fun _ => gives_close rfl

theorem gives_namespaceBody {start : Nat} {name : NamespaceName} : GivesStatement (namespaceBody rules start name) :=
  .bind fun _ => .ite (.bind fun _ => gives_close rfl) (.bind fun _ => gives_close rfl)

theorem gives_ambient {start : Nat} : GivesStatement (ambient rules start) :=
  .bind fun _ => .bind fun _ => gives_close rfl

/-- What is given, if anything, is a statement. -/
abbrev GivesStatementIfAny (rule : Parse (Option Node)) : Prop :=
  Gives (fun found => ∀ node ∈ found, HasForm Form.isStatement node) rule

theorem GivesStatement.some {rule : Parse Node} (gives : GivesStatement rule) : GivesStatementIfAny (some <$> rule) :=
  .map gives fun _ known _ same => Option.some.inj same ▸ known

theorem gives_noStatement : GivesStatementIfAny (pure none) := .pure fun _ none_ => nomatch none_

theorem gives_namespaceBlock? {start : Nat} : GivesStatementIfAny (namespaceBlock? rules start) := by
  dsimp only [namespaceBlock?]
  refine .bind fun _ => .bind fun _ => .bind fun _ => .ite ?_ (.bind fun _ => .bind fun _ => .ite ?_ gives_noStatement)
  · exact .bind fun _ => .bind fun _ => GivesStatement.some gives_namespaceBody
  · exact .bind fun _ => GivesStatement.some gives_namespaceBody

theorem gives_typedStatement : GivesStatementIfAny (typedStatement rules) := by
  dsimp only [typedStatement]
  refine .bind fun _ => .bind fun _ =>
    .ite (.bind fun _ => .bind fun _ => .ite (GivesStatement.some gives_ambient) ?_) gives_noStatement
  refine .bind fun _ => .bind fun _ => .ite (GivesStatement.some gives_typeAlias) ?_
  refine .bind fun _ => .bind fun _ => .ite (GivesStatement.some (gives_interfaceType fun _ => rfl)) ?_
  refine .bind fun _ => .ite (GivesStatement.some gives_enumeration) ?_
  refine .bind fun _ => .bind fun _ => .ite (.bind fun _ => GivesStatement.some gives_enumeration) ?_
  refine .bind fun _ => .bind fun _ => .ite ?_ gives_namespaceBlock?
  exact GivesStatement.some (gives_classNode fun _ _ _ _ _ role => beq_iff_eq.mpr role)

/-- A list of type parameters has one. -/
theorem gives_angledList {α : Type} {item : Parse α} : Gives (· ≠ []) (angledList item) := by
  refine .bind fun items mode reading _ _ read => ?_
  obtain ⟨some_item, same⟩ := of_ensure read
  cases same
  simpa using some_item

/-- A mark is taken exactly if it is there. -/
theorem eatMark_cases {mark : String} {mode : Mode} {reading next : Reading} {found : Bool}
    (read : eatMark mark mode reading = some (found, next)) :
    found = true ∧ reading.token.kind = .mark mark ∧ advance mode reading = some ((), next) ∨
      found = false ∧ reading.token.kind ≠ .mark mark ∧ next = reading := by
  have read := of_atMark read
  split_ifs at read with there
  · obtain ⟨_, _, moved, same⟩ := exists_of_bind read
    cases same
    exact .inl ⟨rfl, eq_of_beq there, moved⟩
  · cases read
    exact .inr ⟨rfl, by simpa using there, rfl⟩

/-- Where no type parameters are found nothing has been taken. -/
theorem eq_of_no_typeParameters {mode : Mode} {reading next : Reading}
    (read : declaredTypeParameters mode reading = some ([], next)) : next = reading := by
  obtain ⟨_, _, same, read⟩ := exists_of_bind read
  cases same
  split_ifs at read
  · obtain ⟨_, _, same, read⟩ := exists_of_bind read
    cases same
    obtain ⟨isListed, between, taken, listed⟩ := exists_of_bind read
    rcases eatMark_cases taken with ⟨rfl, -⟩ | ⟨rfl, -, same⟩
    · exact absurd rfl (gives_angledList _ _ _ _ listed)
    · rw [if_neg Bool.false_ne_true] at listed
      cases listed
      exact same
  · cases read
    rfl

/-- A mark that has to be there is there. -/
theorem kind_eq_of_expectMark {mark : String} {mode : Mode} {reading next : Reading} {value : Unit}
    (read : expectMark mark mode reading = some (value, next)) : reading.token.kind = .mark mark := by
  obtain ⟨isThere, between, taken, read⟩ := exists_of_bind read
  rcases eatMark_cases taken with ⟨-, there, -⟩ | ⟨rfl, -⟩
  · exact there
  · cases read

theorem of_withReader {change : Mode → Mode} {rule : Parse β} {mode : Mode} {reading : Reading}
    {result : Option (β × Reading)} (read : withReader change rule mode reading = result) :
    rule (change mode) reading = result :=
  read

/-- What stands before the parameters, if anything, are type parameters. -/
theorem isUnnamedFunction_of_functionRest {start : Nat} {place : ParameterPlace} {head : FunctionHead}
    {name : Option Node} {mode : Mode} {reading next : Reading} {node : Node}
    (read : functionRest rules start place head name mode reading = some (node, next))
    (no_parenthesis : reading.token.kind ≠ .mark "(") : node.form.isUnnamedFunction = false := by
  obtain ⟨typeParameters, between, found, read⟩ := exists_of_bind (of_withReader read)
  obtain ⟨_, _, taken, read⟩ := exists_of_bind read
  have some_parameter : typeParameters ≠ [] := by
    rintro rfl
    obtain ⟨_, _, taken, -⟩ := exists_of_bind taken
    exact no_parenthesis (eq_of_no_typeParameters found ▸ kind_eq_of_expectMark taken)
  have closes : ∀ result parameters body, Gives (fun node => node.form.isUnnamedFunction = false)
      (close start (.function { head with typeParameters, result } name parameters body)) := by
    rintro result parameters body mode reading _ _ same
    cases same
    simp [Node.form, Form.isUnnamedFunction, some_parameter]
  refine (?_ : Gives (fun node => node.form.isUnnamedFunction = false) _) _ _ _ _ read
  refine .bind fun _ => .bind fun _ => .bind fun _ => .ite ?_ ?_
  · exact .bind fun _ => closes _ _ _
  · exact .bind fun _ => .bind fun _ => .bind fun _ => closes _ _ _

/-- A function that has to have a name has one, or else it has type parameters. -/
theorem gives_function_of_needsName {role : Role} :
    Gives (fun node => node.form.isUnnamedFunction = false) (function rules role true) := by
  intro mode reading node next read
  obtain ⟨_, _, -, read⟩ := exists_of_bind read
  obtain ⟨_, _, -, read⟩ := exists_of_bind read
  obtain ⟨_, _, -, read⟩ := exists_of_bind read
  obtain ⟨_, _, -, read⟩ := exists_of_bind read
  obtain ⟨name, between, -, read⟩ := exists_of_bind read
  obtain ⟨needed, read⟩ := of_ensure (of_atMark read)
  cases name with
  | some name =>
      obtain ⟨head, parameters, body, form_eq, -⟩ := gives_functionRest _ _ _ _ read
      rw [form_eq]
      simp [Form.isUnnamedFunction]
  | none =>
      refine isUnnamedFunction_of_functionRest read fun parenthesis => ?_
      simp [parenthesis] at needed

theorem gives_functionStatement {isSingle : Bool} : GivesStatement (functionStatement rules isSingle) := by
  intro mode reading node next read
  obtain ⟨declared, between, found, read⟩ := exists_of_bind read
  obtain ⟨head, name, parameters, body, form_eq, role⟩ := gives_function _ _ _ _ found
  have named := gives_function_of_needsName _ _ _ _ found
  rw [form_eq] at read named
  obtain ⟨-, same⟩ := of_ensure read
  cases same
  rw [HasForm, form_eq, Form.isStatement, named, role]
  rfl

theorem gives_wordStatement {start : Nat} {word : String} {rule : Parse Node}
    (found : wordStatement rules start word = some rule) : GivesStatement rule := by
  unfold wordStatement at found
  split at found <;> cases found
  · exact .bind fun _ => gives_conditionalStatement
  · exact .bind fun _ => gives_forLoop
  · exact .bind fun _ => gives_whileLoop
  · exact .bind fun _ => gives_doWhile
  · exact .bind fun _ => gives_switch
  · exact .bind fun _ => gives_tryBlock
  · exact .bind fun _ => gives_returned
  · exact .bind fun _ => gives_thrown
  · exact .bind fun _ => .bind fun _ => .bind fun _ => gives_close rfl
  · exact .bind fun _ => .bind fun _ => .bind fun _ => gives_close rfl
  · exact .bind fun _ => .bind fun _ => gives_close rfl
  · exact .bind fun _ => .bind fun _ => .bind fun _ => gives_close rfl

/-! ## Imports and exports -/

theorem gives_importStatement : GivesStatement importStatement := by
  have aliases : ∀ start, GivesStatement (importAlias start) := by
    intro start
    dsimp only [importAlias]
    refine .bind fun _ => .bind fun _ => .bind fun _ => .ite (.bind fun _ => ?_) ?_
    · exact .bind fun _ => .bind fun _ => .bind fun _ => .bind fun _ => gives_close rfl
    · exact .bind fun _ => .bind fun _ => .bind fun _ => .bind fun _ => gives_close rfl
  have imports : ∀ start, GivesStatement (importFrom start) := by
    intro start
    refine .bind fun kind => ?_
    split
    · exact .bind fun _ => .bind fun _ => gives_close rfl
    · refine .bind fun _ => ?_
      dsimp only
      split
      · exact .bind fun _ => .bind fun _ => .bind fun _ => .bind fun _ => .bind fun _ => .bind fun _ => gives_close rfl
      · exact .bind fun _ => .bind fun _ => .bind fun _ => .bind fun _ => .bind fun _ => gives_close rfl
  refine .bind fun start => .bind fun _ => .bind_of (aliases start).attempt fun found known => ?_
  split
  · exact .pure (known _ rfl)
  · exact imports start

theorem gives_exportList {start : Nat} {isTypeOnly : Bool} : GivesStatement (exportList start isTypeOnly) := by
  dsimp only [exportList]
  refine .bind fun _ => .bind fun _ => .bind fun _ => .ite ?_ ?_
  · exact .bind fun _ => .bind fun _ => .bind fun _ => gives_close rfl
  · exact .bind fun _ => .bind fun _ => .bind fun _ => gives_close rfl

theorem gives_exportAll {start : Nat} {isTypeOnly : Bool} : GivesStatement (exportAll start isTypeOnly) := by
  dsimp only [exportAll]
  refine .bind fun _ => .bind fun _ => .ite ?_ ?_
  · exact .bind fun _ => .bind fun _ => .bind fun _ => .bind fun _ => gives_close rfl
  · exact .bind fun _ => .bind fun _ => .bind fun _ => .bind fun _ => gives_close rfl

theorem gives_typedExport? {start : Nat} : GivesStatementIfAny (typedExport? rules start) := by
  dsimp only [typedExport?]
  refine .bind fun _ => .ite gives_noStatement ?_
  refine .bind fun _ => .bind fun _ => .ite (.bind fun _ => GivesStatement.some gives_exportList) ?_
  refine .bind fun _ => .bind fun _ => .ite (.bind fun _ => GivesStatement.some gives_exportAll) ?_
  refine .bind fun _ => .ite (.bind fun _ => .bind fun _ => GivesStatement.some (gives_close rfl)) ?_
  refine .bind fun _ => .bind fun _ => .ite ?_ gives_noStatement
  exact .bind fun _ => .bind fun _ => .bind fun _ => .bind fun _ => GivesStatement.some (gives_close rfl)

/-! ## All rules -/

theorem isDefaultValue_promiseHarmless {node : Node} (known : HasForm Form.isDefaultValue node) :
    HasForm Form.isDefaultValue (promiseHarmless node) := by
  obtain ⟨span, form⟩ := node
  cases form <;> exact known

theorem isStatement_promiseHarmless {node : Node} (known : HasForm Form.isStatement node) :
    HasForm Form.isStatement (promiseHarmless node) := by
  obtain ⟨span, form⟩ := node
  cases form <;> exact known

theorem isStatement_promiseDeclared {node : Node} (known : HasForm Form.isStatement node) :
    HasForm Form.isStatement (promiseDeclared node) := by
  unfold promiseDeclared
  split
  · rfl
  · exact isStatement_promiseHarmless known
  · exact known

theorem isStatement_promiseStatement {node : Node} (known : HasForm Form.isStatement node) :
    HasForm Form.isStatement (promiseStatement node) := by
  unfold promiseStatement
  split
  · rfl
  · rename_i value form_eq
    rw [HasForm, form_eq] at known
    exact isDefaultValue_promiseHarmless known
  · exact isStatement_promiseDeclared known

section

variable (sound : rules.IsSound)
include sound

theorem gives_expressionStatement {start : Nat} : GivesStatement (expressionStatement rules start) := by
  refine .bind_of (sound .expression) fun value known => ?_
  split
  · exact .bind fun _ => .ite (.bind fun _ => gives_close rfl) (gives_endExpression known)
  · exact gives_endExpression known

theorem gives_letStatement {start : Nat} {isSingle : Bool} : GivesStatement (letStatement rules start isSingle) := by
  refine .bind fun next => .ite (.bind_of (sound .assignment) fun _ known => gives_endExpression known) ?_
  refine .ite (.bind_of (sound .expression) fun _ known => gives_endExpression known) ?_
  refine .ite (.bind_of gives_identifierNode fun _ known => gives_endExpression known) ?_
  exact .bind fun _ => .bind fun _ => gives_variableStatement

theorem gives_plainStatement {isSingle : Bool} : GivesStatement (plainStatement rules isSingle) := by
  refine .bind fun start => .bind_of gives_typedStatement fun found known => ?_
  split
  · exact .pure (known _ rfl)
  · refine .bind fun kind => ?_
    split
    · exact gives_block
    · exact .bind fun _ => gives_close rfl
    · split
      · exact gives_wordStatement ‹_›
      · refine .ite (.bind fun _ => gives_classNode fun _ _ _ _ _ role => beq_iff_eq.mpr role) ?_
        refine .bind fun _ => .ite gives_functionStatement (.ite (gives_letStatement sound) (.bind fun kind => ?_))
        split
        · exact .bind fun _ => gives_variableStatement
        · exact gives_expressionStatement sound
    · exact gives_expressionStatement sound

theorem gives_defaultValue {decorators : List Node} :
    Gives (HasForm Form.isDefaultValue) (defaultValue rules decorators) := by
  have class_ : ∀ head decorators name heritage members, head.role = .declaration →
      (Form.classOf head decorators name heritage members : Form Node).isDefaultValue = true :=
    fun head _ _ _ _ role => by simp [Form.isDefaultValue, role]
  have function_ : ∀ head name parameters body, head.role = .declaration →
      (Form.function head name parameters body : Form Node).isDefaultValue = true :=
    fun head _ _ _ role => by simp [Form.isDefaultValue, role]
  dsimp only [defaultValue]
  refine .bind fun _ => .bind fun _ => .bind fun _ => .bind fun _ => .bind fun _ => .ite ?_ (.bind fun _ => ?_)
  · exact .bind fun _ => .bind fun _ => gives_classRest class_
  · refine .bind fun _ => .ite (gives_function_of_role function_) ?_
    refine .bind fun _ => .bind fun _ => .ite (gives_interfaceType fun _ => rfl) ?_
    exact .bind_of (sound .assignment) fun _ known => .bind fun _ => .pure (Form.isDefaultValue_of_isExpression known)

theorem gives_exportDefault {start : Nat} {decorators : List Node} :
    GivesStatement (exportDefault rules start decorators) := by
  refine .bind fun token => .bind_of (gives_defaultValue sound) fun value known => ?_
  dsimp only
  split
  · exact gives_close (isDefaultValue_promiseHarmless known)
  · exact gives_close known

theorem gives_exportStatement {decorators : List Node} : GivesStatement (exportStatement rules decorators) := by
  have declared : ∀ start, GivesStatement (exportedDeclaration rules start decorators) := by
    intro start
    dsimp only [exportedDeclaration]
    refine .ite (.bind fun _ => .ite ?_ (.bind fun _ => .ite ?_ ?_)) (.bind fun _ => ?_)
    all_goals exact .bind fun _ => .bind fun _ => gives_close rfl
  refine .bind fun start => .bind fun _ => .bind fun kind => ?_
  split
  · exact .bind fun _ => gives_exportAll
  · exact .bind fun _ => gives_exportList
  · exact .bind fun _ => gives_exportDefault sound
  · refine .bind_of gives_typedExport? fun found known => ?_
    split
    · exact .bind fun _ => .pure (known _ rfl)
    · exact declared start

theorem gives_unmarkedStatement {isSingle : Bool} : GivesStatement (unmarkedStatement rules isSingle) := by
  refine .bind fun kind => ?_
  split
  · exact .bind fun _ => .ite (gives_plainStatement sound) gives_importStatement
  · exact gives_exportStatement sound
  · refine .bind fun start => .bind fun _ => .bind fun _ => .ite (gives_exportStatement sound) (.bind fun _ => ?_)
    exact gives_classRest fun _ _ _ _ _ role => beq_iff_eq.mpr role
  · exact gives_plainStatement sound

theorem gives_statement {isSingle : Bool} : GivesStatement (statement rules isSingle) := by
  refine .bind fun token => .bind_of (gives_unmarkedStatement sound) fun node known => .pure ?_
  split
  · exact isStatement_promiseStatement known
  · exact known

theorem isSound_step : (step rules).IsSound := by
  intro goal
  cases goal with
  | assignment => exact gives_assignment sound
  | expression => exact gives_expression sound
  | operand precedence => exact gives_operand sound
  | unary => exact gives_unary sound
  | leftSide => exact gives_leftSide sound
  | construct => exact gives_construct
  | pattern => exact fun _ _ _ _ _ => rfl
  | statement isSingle => exact gives_statement sound
  | markup => exact gives_element

theorem gives_prologueStatement :
    Gives (fun node => isDirective node = true ∨ HasForm Form.isStatement node) (prologueStatement rules) := by
  refine .bind fun kind => ?_
  split
  · refine .bind fun raw => .bind_of (sound (.statement false)) fun node known => ?_
    split
    · exact .pure (.inl rfl)
    · exact .pure (.inr known)
  · exact (sound (.statement false)).imp fun _ => .inr

/-- Directives come before all statements, and only in a prologue. -/
def IsBody (isPrologue : Bool) (body : List Node) : Prop :=
  ∃ directives statements, body = directives ++ statements ∧ (∀ node ∈ directives, isDirective node = true) ∧
    (∀ node ∈ statements, HasForm Form.isStatement node) ∧ (isPrologue = false → directives = [])

omit sound in
theorem isDirective_eq_false {node : Node} (known : HasForm Form.isStatement node) : isDirective node = false := by
  obtain ⟨span, form⟩ := node
  cases form <;> first | rfl | cases known

omit sound in
theorem IsBody.cons_directive {node : Node} {others : List Node} (directive : isDirective node = true)
    (body : IsBody (true && isDirective node) others) : IsBody true (node :: others) := by
  obtain ⟨directives, statements, rfl, first, rest, -⟩ := body
  exact ⟨node :: directives, statements, rfl, List.forall_mem_cons.mpr ⟨directive, first⟩, rest, by simp⟩

omit sound in
theorem IsBody.cons_statement {isPrologue : Bool} {node : Node} {others : List Node}
    (known : HasForm Form.isStatement node) (body : IsBody (isPrologue && isDirective node) others) :
    IsBody isPrologue (node :: others) := by
  obtain ⟨directives, statements, rfl, -, rest, none_left⟩ := body
  rw [none_left (by rw [isDirective_eq_false known, Bool.and_false])]
  exact ⟨[], node :: statements, rfl, by simp, List.forall_mem_cons.mpr ⟨known, rest⟩, fun _ => rfl⟩

theorem gives_statementsUpTo {closing : TokenKind} {limit : Nat} {isPrologue : Bool} :
    Gives (IsBody isPrologue) (statementsUpTo rules closing limit isPrologue) := by
  induction limit generalizing isPrologue with
  | zero => exact .failure
  | succ limit ih =>
      dsimp only [statementsUpTo]
      refine .bind fun _ => .ite (.pure ⟨[], [], rfl, by simp, by simp, fun _ => rfl⟩) ?_
      split
      · rename_i prologue
        rw [prologue]
        refine .bind_of (gives_prologueStatement sound) fun node known => .bind_of ih fun others body => .pure ?_
        rcases known with directive | known
        · exact body.cons_directive directive
        · exact body.cons_statement known
      · exact .bind_of (sound (.statement false)) fun node known => .bind_of ih fun others body =>
          .pure (body.cons_statement known)

end

theorem isSound_rules (depth : Nat) : (Grammar.rules depth).IsSound := by
  induction depth with
  | zero => exact fun _ => .failure
  | succ depth ih => exact isSound_step ih

end Grammar

/-- What is read as a module consists of directives and the statements behind them. -/
theorem SourceModule.exists_statements_of_parse? {dialect : Dialect} {source : String} {module : SourceModule}
    (parsed : parse? dialect source = some module) :
    ∃ directives statements, module.program.children = directives ++ statements ∧
      (∀ node ∈ directives, Grammar.isDirective node = true) ∧ ∀ node ∈ statements, node.form.isStatement = true := by
  obtain ⟨⟨token, here, after⟩, -, parsed⟩ := Option.bind_eq_some_iff.mp parsed
  obtain ⟨⟨body, last⟩, read, parsed⟩ := Option.bind_eq_some_iff.mp parsed
  dsimp only at parsed
  split_ifs at parsed
  cases parsed
  obtain ⟨directives, statements, body_eq, first, others, -⟩ :=
    Grammar.gives_statementsUpTo (Grammar.isSound_rules _) _ _ _ _ read
  exact ⟨directives, statements, body_eq, first, others⟩

end Storyboard
