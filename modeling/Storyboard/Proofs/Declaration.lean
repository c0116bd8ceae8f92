import Mathlib.Data.List.Basic
import Storyboard.Scope.Declared

/-!
# Declarations

What it means that code declares a name, said without collecting names: a pattern binds the names that
stand in it outside expressions, a statement hoists the variables that stand in it outside functions,
classes and expressions, and a statement declares lexically what it declares or exports itself. The lists
of names that scopes are made from hold exactly these names.
-/

namespace Storyboard

namespace Node

/-- What holds of a node as soon as it holds of its children holds of every node. -/
@[elab_as_elim]
theorem induction_children {motive : Node → Prop}
    (step : ∀ node, (∀ child ∈ node.children, motive child) → motive node) (node : Node) :
    motive node :=
  step node fun child _ => induction_children step child
termination_by sizeOf node
decreasing_by exact sizeOf_lt_of_mem_children (by assumption)

/-- A node stands in another, and no node around it in there stops the search. -/
inductive Holds (stops : Node → Bool) : Node → Node → Prop
  | self (node : Node) : Holds stops node node
  | inside {node child inner : Node} : stops node = false → child ∈ node.children →
      Holds stops child inner → Holds stops node inner

theorem holds_iff {stops : Node → Bool} {node inner : Node} :
    Holds stops node inner ↔
      inner = node ∨ stops node = false ∧ ∃ child ∈ node.children, Holds stops child inner := by
  constructor
  · intro holds
    cases holds with
    | self => exact .inl rfl
    | inside goes_on member holds => exact .inr ⟨goes_on, _, member, holds⟩
  · rintro (rfl | ⟨goes_on, child, member, holds⟩)
    · exact .self _
    · exact .inside goes_on member holds

/-! ## Names of patterns -/

/-- A pattern binds a name: a binding of that name stands in it outside expressions. -/
def Binds (pattern : Node) (name : String) : Prop :=
  ∃ leaf, Holds (fun node => node.form.isExpression) pattern leaf ∧ leaf.form = .binding name

theorem binds_iff {pattern : Node} {name : String} :
    pattern.Binds name ↔
      pattern.form = .binding name ∨
        pattern.form.isExpression = false ∧ ∃ child ∈ pattern.children, child.Binds name := by
  unfold Binds
  constructor
  · rintro ⟨leaf, holds, leaf_form⟩
    rcases holds_iff.mp holds with rfl | ⟨goes_on, child, member, holds⟩
    · exact .inl leaf_form
    · exact .inr ⟨goes_on, child, member, leaf, holds, leaf_form⟩
  · rintro (form_eq | ⟨goes_on, child, member, leaf, holds, leaf_form⟩)
    · exact ⟨pattern, .self _, form_eq⟩
    · exact ⟨leaf, .inside goes_on member holds, leaf_form⟩

theorem mem_bindingNames_iff {pattern : Node} {name : String} :
    name ∈ pattern.bindingNames ↔ pattern.Binds name := by
  induction pattern using induction_children with
  | step pattern ih =>
      rw [binds_iff, bindingNames]
      split
      · rename_i bound form_eq
        rw [form_eq, List.mem_singleton, Form.binding.injEq, children, form_eq]
        simp [Form.children, @eq_comm String bound name]
      · rename_i form no_binding
        have other : pattern.form ≠ .binding name := no_binding name
        cases expression : pattern.form.isExpression with
        | true => simp [other]
        | false =>
            simp only [other, false_or, true_and, Bool.false_eq_true, if_false, List.mem_flatMap,
              List.mem_attach, Subtype.exists]
            constructor
            · rintro ⟨child, member, name_mem⟩
              exact ⟨child, member, (ih child member).mp name_mem⟩
            · rintro ⟨child, member, binds⟩
              exact ⟨child, member, (ih child member).mpr binds⟩

instance (pattern : Node) (name : String) : Decidable (pattern.Binds name) :=
  decidable_of_iff _ mem_bindingNames_iff

/-- A declarator binds a name: its pattern does. -/
def DeclaratorBinds (declarator : Node) (name : String) : Prop :=
  ∃ head pattern value, declarator.form = .declarator head pattern value ∧ pattern.Binds name

theorem mem_variableNames_iff {declarators : List Node} {name : String} :
    name ∈ variableNames declarators ↔ ∃ declarator ∈ declarators, declarator.DeclaratorBinds name := by
  simp only [variableNames, List.mem_flatMap, DeclaratorBinds]
  constructor
  · rintro ⟨declarator, member, name_mem⟩
    refine ⟨declarator, member, ?_⟩
    split at name_mem
    · rename_i head pattern value form_eq
      exact ⟨head, pattern, value, form_eq, mem_bindingNames_iff.mp name_mem⟩
    · simp at name_mem
  · rintro ⟨declarator, member, head, pattern, value, form_eq, binds⟩
    refine ⟨declarator, member, ?_⟩
    rw [form_eq]
    exact mem_bindingNames_iff.mpr binds

/-! ## Hoisted variables -/

/-- Whether a `var` below a node belongs to the node and not to what is around it: functions and classes
keep theirs, and none stands in expressions or below the head of a declaration. -/
def keepsVariables (node : Node) : Bool :=
  match node.form with
  | .variableList _ _ => true
  | .function _ _ _ _ => true
  | .classOf _ _ _ _ _ => true
  | form => form.isExpression

/-- A statement hoists a name: a `var` of that name stands in it, at any depth that keeps no
variables. -/
def Hoists (statement : Node) (name : String) : Prop :=
  ∃ declaration declarators, Holds keepsVariables statement declaration ∧
    declaration.form = .variableList .var declarators ∧
      ∃ declarator ∈ declarators, declarator.DeclaratorBinds name

theorem hoists_iff {statement : Node} {name : String} :
    statement.Hoists name ↔
      (∃ declarators, statement.form = .variableList .var declarators ∧
        ∃ declarator ∈ declarators, declarator.DeclaratorBinds name) ∨
      statement.keepsVariables = false ∧ ∃ child ∈ statement.children, child.Hoists name := by
  unfold Hoists
  constructor
  · rintro ⟨declaration, declarators, holds, form_eq, binds⟩
    rcases holds_iff.mp holds with rfl | ⟨goes_on, child, member, holds⟩
    · exact .inl ⟨declarators, form_eq, binds⟩
    · exact .inr ⟨goes_on, child, member, declaration, declarators, holds, form_eq, binds⟩
  · rintro (⟨declarators, form_eq, binds⟩ |
      ⟨goes_on, child, member, declaration, declarators, holds, form_eq, binds⟩)
    · exact ⟨statement, declarators, .self _, form_eq, binds⟩
    · exact ⟨declaration, declarators, .inside goes_on member holds, form_eq, binds⟩

theorem mem_varNames_iff {statement : Node} {name : String} :
    name ∈ statement.varNames ↔ statement.Hoists name := by
  induction statement using induction_children with
  | step statement ih =>
      rw [hoists_iff, varNames]
      split
      · rename_i kind declarators form_eq
        cases kind <;> simp [form_eq, keepsVariables, mem_variableNames_iff]
      · rename_i form_eq
        simp [form_eq, keepsVariables]
      · rename_i form_eq
        simp [form_eq, keepsVariables]
      · rename_i form no_variables no_function no_class
        have other : ∀ declarators, statement.form ≠ .variableList .var declarators :=
          fun declarators => no_variables _ declarators
        have keeps : statement.keepsVariables = statement.form.isExpression := by
          unfold keepsVariables
          split
          · rename_i form_eq
            exact absurd form_eq (no_variables _ _)
          · rename_i form_eq
            exact absurd form_eq (no_function _ _ _ _)
          · rename_i form_eq
            exact absurd form_eq (no_class _ _ _ _ _)
          · rfl
        cases expression : statement.form.isExpression with
        | true => simp [other, keeps, expression]
        | false =>
            simp only [other, false_and, exists_false, false_or, keeps, expression, true_and,
              Bool.false_eq_true, if_false, List.mem_flatMap, List.mem_attach, Subtype.exists]
            constructor
            · rintro ⟨child, member, name_mem⟩
              exact ⟨child, member, (ih child member).mp name_mem⟩
            · rintro ⟨child, member, hoists⟩
              exact ⟨child, member, (ih child member).mpr hoists⟩

/-! ## Lexical declarations -/

/-- A declaration of variables other than `var`, of a function or of a class declares a name itself. -/
inductive DeclaresItself : Node → String → Prop
  | declarators {node declarator : Node} {kind : VariableKind} {declarators : List Node} {name : String} :
      node.form = .variableList kind declarators → kind ≠ .var → declarator ∈ declarators →
      declarator.DeclaratorBinds name → DeclaresItself node name
  | functionName {node identifier : Node} {head : FunctionHead} {parameters : List Node}
      {body : Option Node} {name : String} :
      node.form = .function head (some identifier) parameters body → head.role = .declaration →
      identifier.Binds name → DeclaresItself node name
  | className {node identifier : Node} {head : ClassHead} {decorators members : List Node}
      {heritage : Option Node} {name : String} :
      node.form = .classOf head decorators (some identifier) heritage members →
      head.role = .declaration → identifier.Binds name → DeclaresItself node name

/-- A statement declares a name for its block, itself or by exporting what it declares. -/
inductive DeclaresLexically : Node → String → Prop
  | own {node : Node} {name : String} : node.DeclaresItself name → DeclaresLexically node name
  | exported {node declaration : Node} {isTypeOnly : Bool} {specifiers : List Node}
      {source : Option ModuleName} {name : String} :
      node.form = .exportNamed isTypeOnly (some declaration) specifiers source →
      declaration.DeclaresItself name → DeclaresLexically node name
  | exportedDefault {node value : Node} {name : String} : node.form = .exportDefault value →
      value.DeclaresItself name → DeclaresLexically node name

theorem mem_declaredNames_iff {node : Node} {name : String} :
    name ∈ node.declaredNames ↔ node.DeclaresItself name := by
  constructor
  · intro member
    unfold declaredNames at member
    split at member
    · rename_i kind declarators form_eq
      split at member
      · simp at member
      · rename_i lexical
        obtain ⟨declarator, declarator_mem, binds⟩ := mem_variableNames_iff.mp member
        exact .declarators form_eq (by simpa using lexical) declarator_mem binds
    · rename_i head identifier parameters body form_eq
      split at member
      · rename_i declared
        obtain ⟨found, found_mem, name_mem⟩ := List.mem_flatMap.mp member
        obtain rfl := Option.mem_toList.mp found_mem
        exact .functionName form_eq (by simpa using declared) (mem_bindingNames_iff.mp name_mem)
      · simp at member
    · rename_i head decorators identifier heritage members form_eq
      split at member
      · rename_i declared
        obtain ⟨found, found_mem, name_mem⟩ := List.mem_flatMap.mp member
        obtain rfl := Option.mem_toList.mp found_mem
        exact .className form_eq (by simpa using declared) (mem_bindingNames_iff.mp name_mem)
      · simp at member
    · simp at member
  · intro declares
    cases declares with
    | declarators form_eq lexical member binds =>
        have bound := mem_variableNames_iff.mpr ⟨_, member, binds⟩
        simp [declaredNames, form_eq, lexical, bound]
    | functionName form_eq declared binds =>
        simp [declaredNames, form_eq, declared, mem_bindingNames_iff.mpr binds]
    | className form_eq declared binds =>
        simp [declaredNames, form_eq, declared, mem_bindingNames_iff.mpr binds]

theorem mem_lexicalNames_iff {node : Node} {name : String} :
    name ∈ node.lexicalNames ↔ node.DeclaresLexically name := by
  constructor
  · intro member
    unfold lexicalNames at member
    split at member
    · rename_i form_eq
      exact .exported form_eq (mem_declaredNames_iff.mp member)
    · rename_i form_eq
      exact .exportedDefault form_eq (mem_declaredNames_iff.mp member)
    · exact .own (mem_declaredNames_iff.mp member)
  · intro declares
    cases declares with
    | own itself =>
        have own_mem := mem_declaredNames_iff.mpr itself
        cases itself <;> simp_all [lexicalNames]
    | exported form_eq itself => simp [lexicalNames, form_eq, mem_declaredNames_iff.mpr itself]
    | exportedDefault form_eq itself =>
        simp [lexicalNames, form_eq, mem_declaredNames_iff.mpr itself]

end Node

/-! ## What scopes say -/

namespace Scope

theorem get?_declareAll (scope : Scope) (names : List String) (name : String) :
    Fields.get? (scope.declareAll names) name =
      if name ∈ names then some .declared else Fields.get? scope name := by
  induction names generalizing scope with
  | nil => simp [declareAll]
  | cons first names ih =>
      change Fields.get? (declareAll (Fields.set scope first .declared) names) name = _
      rw [ih]
      by_cases same : name = first
      · subst same
        simp [Fields.get?_set_self]
      · simp [Fields.get?_set_of_ne _ _ same, same]

/-- The name that a specifier of an import from a module brings in, and what it stands for. -/
def importBinding? (source : String) (specifier : Node) : Option (String × Binding) :=
  match specifier.form with
  | .importDefault name => some (name, .imported source .defaultExport)
  | .importNamespace name => some (name, .imported source .allExports)
  | .importNamed _ imported name => some (name, .imported source (.named imported.value))
  | _ => none

/-- The names that a statement imports and what they stand for. -/
def importBindings (statement : Node) : List (String × Binding) :=
  match statement.form with
  | .importFrom _ specifiers source => specifiers.filterMap (importBinding? source.value)
  | _ => []

theorem declareImport_eq (scope : Scope) (source : String) (specifier : Node) :
    declareImport scope source specifier = Fields.setAll scope (importBinding? source specifier).toList := by
  obtain ⟨span, form⟩ := specifier
  cases form <;> rfl

theorem foldl_declareImport (scope : Scope) (source : String) (specifiers : List Node) :
    specifiers.foldl (fun acc specifier => declareImport acc source specifier) scope =
      Fields.setAll scope (specifiers.filterMap (importBinding? source)) := by
  induction specifiers generalizing scope with
  | nil => rfl
  | cons specifier specifiers ih =>
      rw [List.foldl_cons, ih, declareImport_eq, List.filterMap_cons]
      cases importBinding? source specifier with
      | none => rfl
      | some entry => rfl

/-- The imports of a module declare their names one after the other. -/
theorem declareImports_eq (scope : Scope) (statements : List Node) :
    declareImports scope statements = Fields.setAll scope (statements.flatMap importBindings) := by
  induction statements generalizing scope with
  | nil => rfl
  | cons statement statements ih =>
      rw [declareImports, List.foldl_cons, List.flatMap_cons]
      change declareImports _ statements = _
      rw [ih, Fields.setAll, Fields.setAll, List.foldl_append]
      congr 1
      split
      · rename_i form_eq
        simp only [importBindings, form_eq]
        exact foldl_declareImport scope _ _
      · rename_i no_import
        have none : importBindings statement = [] := by
          unfold importBindings
          split
          · rename_i form_eq
            exact absurd form_eq (no_import _ _ _)
          · rfl
        rw [none]
        rfl

end Scope

namespace Node

/-- Some statement declares a name for its block. -/
def DeclaresInBlock (statements : List Node) (name : String) : Prop :=
  ∃ statement ∈ statements, statement.DeclaresLexically name

/-- Some statement declares a name for the function or module around it. -/
def DeclaresInBody (statements : List Node) (name : String) : Prop :=
  ∃ statement ∈ statements, statement.DeclaresLexically name ∨ statement.Hoists name

/-- Some parameter binds a name. -/
def DeclaresInHead (parameters : List Node) (name : String) : Prop :=
  ∃ parameter ∈ parameters, parameter.Binds name

/-- Some declarator binds a name. -/
def DeclaresByDeclarators (declarators : List Node) (name : String) : Prop :=
  ∃ declarator ∈ declarators, declarator.DeclaratorBinds name

theorem mem_flatMap_bindingNames_iff {parameters : List Node} {name : String} :
    name ∈ parameters.flatMap bindingNames ↔ DeclaresInHead parameters name := by
  simp [DeclaresInHead, mem_bindingNames_iff]

theorem mem_flatMap_lexicalNames_iff {statements : List Node} {name : String} :
    name ∈ statements.flatMap lexicalNames ↔ DeclaresInBlock statements name := by
  simp [DeclaresInBlock, mem_lexicalNames_iff]

theorem mem_hoistedNames_iff {statements : List Node} {name : String} :
    name ∈ statements.flatMap varNames ∨ name ∈ statements.flatMap lexicalNames ↔
      DeclaresInBody statements name := by
  simp only [DeclaresInBody, List.mem_flatMap, mem_varNames_iff, mem_lexicalNames_iff]
  constructor
  · rintro (⟨statement, member, hoists⟩ | ⟨statement, member, declares⟩)
    · exact ⟨statement, member, .inr hoists⟩
    · exact ⟨statement, member, .inl declares⟩
  · rintro ⟨statement, member, declares | hoists⟩
    · exact .inr ⟨statement, member, declares⟩
    · exact .inl ⟨statement, member, hoists⟩

instance (statements : List Node) (name : String) : Decidable (DeclaresInBlock statements name) :=
  decidable_of_iff _ mem_flatMap_lexicalNames_iff

instance (statements : List Node) (name : String) : Decidable (DeclaresInBody statements name) :=
  decidable_of_iff _ mem_hoistedNames_iff

instance (parameters : List Node) (name : String) : Decidable (DeclaresInHead parameters name) :=
  decidable_of_iff _ mem_flatMap_bindingNames_iff

instance (declarators : List Node) (name : String) : Decidable (DeclaresByDeclarators declarators name) :=
  decidable_of_iff _ mem_variableNames_iff

end Node

namespace Scope

theorem get?_declareHoisted (scope : Scope) (statements : List Node) (name : String) :
    Fields.get? (scope.declareHoisted statements) name =
      if Node.DeclaresInBody statements name then some .declared else Fields.get? scope name := by
  simp only [declareHoisted, declareLexical, get?_declareAll, ← Node.mem_hoistedNames_iff]
  by_cases hoisted : name ∈ statements.flatMap Node.varNames
  · simp [hoisted]
  · by_cases lexical : name ∈ statements.flatMap Node.lexicalNames <;> simp [hoisted, lexical]

/-- A module's name stands for a declaration in it, or else for its last import. -/
theorem get?_ofProgram (statements : List Node) (name : String) :
    Fields.get? (ofProgram statements) name =
      if Node.DeclaresInBody statements name then some .declared
      else (statements.flatMap importBindings).reverse.lookup name := by
  rw [ofProgram, get?_declareHoisted, declareImports_eq, Fields.get?_setAll]
  simp [Fields.get?]

theorem get?_ofFunction (identifier : Option Node) (parameters : List Node) (body : Option Node)
    (name : String) :
    Fields.get? (ofFunction identifier parameters body) name =
      if Node.DeclaresInBody (body.toList.flatMap bodyStatements) name ∨
          Node.DeclaresInHead parameters name ∨ Node.DeclaresInHead identifier.toList name then
        some .declared
      else none := by
  simp only [ofFunction, get?_declareHoisted, get?_declareAll, List.mem_append,
    Node.mem_flatMap_bindingNames_iff]
  by_cases inBody : Node.DeclaresInBody (body.toList.flatMap bodyStatements) name
  · simp [inBody]
  · by_cases inHead : Node.DeclaresInHead parameters name <;> simp [inBody, inHead, Fields.get?]

theorem get?_declareAll_nil (names : List String) (name : String) :
    Fields.get? (declareAll [] names) name = if name ∈ names then some .declared else none := by
  rw [get?_declareAll]
  rfl

end Scope

end Storyboard
