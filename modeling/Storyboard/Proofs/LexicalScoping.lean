import Storyboard.Proofs.Declaration
import Storyboard.Proofs.OutermostEdits

/-!
# Lexical scoping

The scopes of the language around a site, and what a name stands for there: what the innermost of them
that declares the name says. The scopes that a walk enters give the same answer, but for two cases. A walk
enters no scope in a static block of a class, and the scope of a function that it enters for the head holds
the names of the body as well. The main theorem says that a name is read wrongly exactly when one of these
two is the innermost scope on which the answer depends and what is farther out does not give the same
answer by chance.
-/

namespace Storyboard

open Extraction

/-- A scope of the language. -/
inductive LexicalScope where
  /-- A module, with the imports among its statements. -/
  | module (statements : List Node)
  /-- The name of a function, inside it. -/
  | functionName (identifier : Option Node)
  /-- The parameters of a function. -/
  | parameters (parameters : List Node)
  /-- The body of a function. -/
  | functionBody (body : Option Node)
  /-- A block. -/
  | block (statements : List Node)
  /-- The parameter of a handler. -/
  | handler (pattern : Node)
  /-- The head of a loop. -/
  | loopHead (declarators : List Node)
  /-- The block that the cases of a switch share. -/
  | cases (cases : List Node)
  /-- The name of a class, inside it. -/
  | className (identifier : Node)
  /-- A static block of a class. -/
  | staticBlock (statements : List Node)

namespace LexicalScope

/-- A scope declares a name in the module itself. -/
def Declares : LexicalScope → String → Prop
  | module statements => Node.DeclaresInBody statements
  | functionName identifier => Node.DeclaresInHead identifier.toList
  | parameters list => Node.DeclaresInHead list
  | functionBody body => Node.DeclaresInBody (body.toList.flatMap Scope.bodyStatements)
  | block statements => Node.DeclaresInBlock statements
  | handler pattern => pattern.Binds
  | loopHead declarators => Node.DeclaresByDeclarators declarators
  | cases list => Node.DeclaresInBlock (list.flatMap Scope.caseStatements)
  | className identifier => identifier.Binds
  | staticBlock statements => Node.DeclaresInBody statements

instance (scope : LexicalScope) (name : String) : Decidable (scope.Declares name) :=
  match scope with
  | module statements => inferInstanceAs (Decidable (Node.DeclaresInBody statements name))
  | functionName identifier => inferInstanceAs (Decidable (Node.DeclaresInHead identifier.toList name))
  | parameters list => inferInstanceAs (Decidable (Node.DeclaresInHead list name))
  | functionBody body =>
    inferInstanceAs (Decidable (Node.DeclaresInBody (body.toList.flatMap Scope.bodyStatements) name))
  | block statements => inferInstanceAs (Decidable (Node.DeclaresInBlock statements name))
  | handler pattern => inferInstanceAs (Decidable (pattern.Binds name))
  | loopHead declarators => inferInstanceAs (Decidable (Node.DeclaresByDeclarators declarators name))
  | cases list =>
    inferInstanceAs (Decidable (Node.DeclaresInBlock (list.flatMap Scope.caseStatements) name))
  | className identifier => inferInstanceAs (Decidable (identifier.Binds name))
  | staticBlock statements => inferInstanceAs (Decidable (Node.DeclaresInBody statements name))

/-- The imports of a scope, in order. -/
def imports : LexicalScope → List (String × Binding)
  | module statements => statements.flatMap Scope.importBindings
  | _ => []

/-- What a name stands for by the declarations of a scope. A module that is well formed declares a name at
most once; otherwise a declaration goes before an import and a later import before an earlier one. -/
def meaning? (scope : LexicalScope) (name : String) : Option Binding :=
  if scope.Declares name then some .declared else scope.imports.reverse.lookup name

/-- What a name stands for by several scopes, innermost first: what the first that knows the name says. -/
def meaningIn? (scopes : List LexicalScope) (name : String) : Option Binding :=
  scopes.findSome? fun scope => scope.meaning? name

end LexicalScope

/-- The scopes that the head of a loop opens: none unless it declares variables other than `var`. -/
def Node.loopScopes (head : Node) : List LexicalScope :=
  match head.form with
  | .variableList kind declarators => if kind = .var then [] else [.loopHead declarators]
  | _ => []

/-- The scopes that a function opens for one of its parts, innermost first. What the body declares is not
known in the head. -/
def LexicalScope.ofFunction (part : Part) (identifier : Option Node) (parameters : List Node)
    (body : Option Node) : List LexicalScope :=
  (if part = .body then [.functionBody body] else []) ++ [.parameters parameters, .functionName identifier]

/-- The scopes that a node opens for one of its parts, innermost first. The name of a class is known in all
its parts. -/
def Node.lexicalScopes (node : Node) (part : Part) : List LexicalScope :=
  match node.form with
  | .program body => [.module body]
  | .function _ identifier parameters body => LexicalScope.ofFunction part identifier parameters body
  | .arrow _ parameters body => LexicalScope.ofFunction part none parameters (some body)
  | .classOf _ _ identifier _ _ => identifier.toList.map .className
  | .staticBlock body => [.staticBlock body]
  | .block body => [.block body]
  | .catchClause pattern _ => pattern.toList.map .handler
  | .forLoop first _ _ _ => first.toList.flatMap Node.loopScopes
  | .forIn left _ _ => left.loopScopes
  | .forOf _ left _ _ => left.loopScopes
  | .switch _ cases => [.cases cases]
  | _ => []

/-- The name, the parameters and the body of a function. -/
def Node.signature? (node : Node) : Option (Option Node × List Node × Option Node) :=
  match node.form with
  | .function _ identifier parameters body => some (identifier, parameters, body)
  | .arrow _ parameters body => some (none, parameters, some body)
  | _ => none

namespace Step

/-- The scopes of the language that a step enters, innermost first. -/
def lexicalScopes (step : Step) : List LexicalScope :=
  match step.part with
  | .outside => []
  | part => step.node.lexicalScopes part

/-- What a name stands for by the scopes of the language that a step enters. -/
def meaning? (step : Step) (name : String) : Option Binding :=
  LexicalScope.meaningIn? step.lexicalScopes name

/-- What a name stands for by the scope that a walk enters in a step. -/
def lookup? (step : Step) (name : String) : Option Binding :=
  step.scope?.bind fun scope => Fields.get? scope name

/-- A step enters a static block that declares a name. -/
def EntersStaticBlock (step : Step) (name : String) : Prop :=
  step.part ≠ .outside ∧ ∃ body, step.node.form = .staticBlock body ∧ Node.DeclaresInBody body name

/-- A step enters the head of a function whose body, but not the head, declares a name. -/
def EntersHeadBeforeBody (step : Step) (name : String) : Prop :=
  step.part = .head ∧ ∃ identifier parameters body,
    step.node.signature? = some (identifier, parameters, body) ∧
    Node.DeclaresInBody (body.toList.flatMap Scope.bodyStatements) name ∧
    ¬Node.DeclaresInHead parameters name ∧ ¬Node.DeclaresInHead identifier.toList name

end Step

/-! ## The scopes that a walk enters -/

namespace LexicalScope

theorem meaningIn?_append (inner outer : List LexicalScope) (name : String) :
    meaningIn? (inner ++ outer) name = (meaningIn? inner name).or (meaningIn? outer name) := by
  simp [meaningIn?, List.findSome?_append]

/-- By scopes other than modules a name stands for a declaration if one of them declares it. -/
theorem meaningIn?_of_no_module {scopes : List LexicalScope} (name : String)
    (other : ∀ scope ∈ scopes, ∀ statements, scope ≠ module statements) :
    meaningIn? scopes name = if ∃ scope ∈ scopes, scope.Declares name then some .declared else none := by
  induction scopes with
  | nil => rfl
  | cons scope scopes ih =>
      have rest := ih fun inner member => other inner (List.mem_cons_of_mem _ member)
      have no_imports : scope.imports = [] := by
        unfold imports
        split
        · exact absurd rfl (other _ List.mem_cons_self _)
        · rfl
      unfold meaningIn? at rest ⊢
      by_cases declares : scope.Declares name
      · simp [meaning?, declares]
      · have unknown : scope.meaning? name = none := by simp [meaning?, declares, no_imports]
        simp [unknown, declares, rest]

end LexicalScope

namespace Scope

open LexicalScope

theorem get?_ofProgram_eq (statements : List Node) (name : String) :
    Fields.get? (ofProgram statements) name = meaningIn? [.module statements] name := by
  rw [get?_ofProgram, meaningIn?, List.findSome?_singleton]
  rfl

/-- A scope of declarations alone gives what scopes of the language that declare the same names give. -/
theorem get?_declareAll_eq {names : List String} {scopes : List LexicalScope} {name : String}
    (other : ∀ scope ∈ scopes, ∀ statements, scope ≠ .module statements)
    (same : name ∈ names ↔ ∃ scope ∈ scopes, scope.Declares name) :
    Fields.get? (declareAll [] names) name = meaningIn? scopes name := by
  rw [meaningIn?_of_no_module name other, get?_declareAll_nil]
  exact if_congr same rfl rfl

theorem get?_ofBlock (statements : List Node) (name : String) :
    Fields.get? (ofBlock statements) name = meaningIn? [.block statements] name :=
  get?_declareAll_eq (by simp) (by simp [Node.mem_flatMap_lexicalNames_iff, -List.mem_flatMap, Declares])

theorem get?_ofCases (list : List Node) (name : String) :
    Fields.get? (ofCases list) name = meaningIn? [.cases list] name :=
  get?_declareAll_eq (by simp) (by simp [Node.mem_flatMap_lexicalNames_iff, -List.mem_flatMap, Declares])

theorem get?_ofPattern (pattern : Node) (name : String) :
    Fields.get? (ofPattern pattern) name = meaningIn? [.handler pattern] name :=
  get?_declareAll_eq (by simp) (by simp [Node.mem_bindingNames_iff, Declares])

theorem get?_ofClass? (identifier : Option Node) (name : String) :
    (ofClass? identifier).bind (fun scope => Fields.get? scope name) =
      meaningIn? (identifier.toList.map .className) name := by
  cases identifier with
  | none => rfl
  | some identifier =>
      exact get?_declareAll_eq (by simp) (by simp [Node.mem_bindingNames_iff, Declares])

theorem get?_ofLoopHead? (head : Node) (name : String) :
    (ofLoopHead? head).bind (fun scope => Fields.get? scope name) = meaningIn? head.loopScopes name := by
  by_cases declares : ∃ kind declarators, head.form = .variableList kind declarators
  · obtain ⟨kind, declarators, form_eq⟩ := declares
    by_cases isVar : kind = .var
    · simp [ofLoopHead?, Node.loopScopes, form_eq, isVar, meaningIn?]
    · simp only [ofLoopHead?, Node.loopScopes, form_eq, isVar, beq_iff_eq, if_false, Option.bind_some]
      refine get?_declareAll_eq (by simp) ?_
      simp [Node.mem_variableNames_iff, Declares, Node.DeclaresByDeclarators]
  · have no_scope : ofLoopHead? head = none := by
      unfold ofLoopHead?
      split
      · rename_i form_eq
        exact absurd ⟨_, _, form_eq⟩ declares
      · rfl
    have no_scopes : head.loopScopes = [] := by
      unfold Node.loopScopes
      split
      · rename_i form_eq
        exact absurd ⟨_, _, form_eq⟩ declares
      · rfl
    rw [no_scope, no_scopes]
    rfl

/-- The scope of a function gives what the scopes for a part of it give, unless the part is the head and
only the body declares the name. -/
theorem get?_ofFunction_eq {part : Part} {identifier : Option Node} {parameters : List Node}
    {body : Option Node} {name : String}
    (known : part ≠ .body → Node.DeclaresInBody (body.toList.flatMap bodyStatements) name →
      Node.DeclaresInHead parameters name ∨ Node.DeclaresInHead identifier.toList name) :
    Fields.get? (ofFunction identifier parameters body) name =
      meaningIn? (LexicalScope.ofFunction part identifier parameters body) name := by
  have other : ∀ scope ∈ LexicalScope.ofFunction part identifier parameters body,
      ∀ statements, scope ≠ .module statements := by
    unfold LexicalScope.ofFunction
    split <;> simp
  rw [get?_ofFunction, meaningIn?_of_no_module name other]
  refine if_congr ?_ rfl rfl
  by_cases in_body : part = .body
  · simp [LexicalScope.ofFunction, in_body, Declares]
  · simp only [LexicalScope.ofFunction, in_body, if_false, List.nil_append, List.mem_cons, List.not_mem_nil,
      or_false, exists_eq_or_imp, exists_eq_left, Declares]
    exact ⟨fun declares => declares.elim (known in_body) id, .inr⟩

end Scope

/-! ## Steps and ways -/

namespace Step

theorem scope?_of_inside {step : Step} (inside : step.part ≠ .outside) :
    step.scope? = step.node.scope? := by
  unfold Step.scope?
  split <;> simp_all

theorem meaning?_of_inside {step : Step} (inside : step.part ≠ .outside) (name : String) :
    step.meaning? name = LexicalScope.meaningIn? (step.node.lexicalScopes step.part) name := by
  unfold meaning? lexicalScopes
  split <;> simp_all

/-- In a static block that declares a name a walk does not know the declaration. -/
theorem EntersStaticBlock.readings {step : Step} {name : String} (enters : step.EntersStaticBlock name) :
    step.lookup? name = none ∧ step.meaning? name = some .declared := by
  obtain ⟨inside, body, form_eq, declares⟩ := enters
  constructor
  · simp [lookup?, scope?_of_inside inside, Node.scope?, form_eq]
  · rw [meaning?_of_inside inside]
    simp [Node.lexicalScopes, form_eq, LexicalScope.meaningIn?, LexicalScope.meaning?,
      LexicalScope.Declares, declares]

theorem scopes_of_signature? {node : Node} {identifier : Option Node} {parameters : List Node}
    {body : Option Node} (signed : node.signature? = some (identifier, parameters, body)) :
    node.scope? = some (.ofFunction identifier parameters body) ∧ ∀ part,
      node.lexicalScopes part = LexicalScope.ofFunction part identifier parameters body := by
  unfold Node.signature? at signed
  split at signed
  · rename_i form_eq
    simp_all [Node.scope?, Node.lexicalScopes]
  · rename_i form_eq
    simp_all [Node.scope?, Node.lexicalScopes]
  · simp at signed

/-- In the head of a function a walk knows what only the body declares. -/
theorem EntersHeadBeforeBody.readings {step : Step} {name : String}
    (enters : step.EntersHeadBeforeBody name) :
    step.lookup? name = some .declared ∧ step.meaning? name = none := by
  obtain ⟨in_head, identifier, parameters, body, signed, in_body, no_parameter, no_name⟩ := enters
  have inside : step.part ≠ .outside := by simp [in_head]
  obtain ⟨entered, opened⟩ := scopes_of_signature? signed
  constructor
  · rw [lookup?, scope?_of_inside inside, entered, Option.bind_some, Scope.get?_ofFunction,
      if_pos (.inl in_body)]
  · rw [meaning?_of_inside inside, opened, in_head, LexicalScope.meaningIn?_of_no_module]
    · simp [LexicalScope.ofFunction, LexicalScope.Declares, no_parameter, no_name]
    · simp [LexicalScope.ofFunction]

/-- A step gives a name the same meaning in both readings, but for the two cases. -/
theorem lookup?_eq_meaning? {step : Step} {name : String} (no_block : ¬step.EntersStaticBlock name)
    (no_head : ¬step.EntersHeadBeforeBody name) : step.lookup? name = step.meaning? name := by
  by_cases outside : step.part = .outside
  · simp [lookup?, scope?, meaning?, lexicalScopes, outside, LexicalScope.meaningIn?]
  · cases signed : step.node.signature? with
    | some signature =>
        obtain ⟨identifier, parameters, body⟩ := signature
        obtain ⟨entered, opened⟩ := scopes_of_signature? signed
        rw [lookup?, scope?_of_inside outside, entered, meaning?_of_inside outside, opened]
        apply Scope.get?_ofFunction_eq
        intro no_body declares
        have in_head : step.part = .head := by cases part : step.part <;> simp_all
        by_contra unknown
        obtain ⟨no_parameter, no_name⟩ := not_or.mp unknown
        exact no_head ⟨in_head, identifier, parameters, body, signed, declares, no_parameter, no_name⟩
    | none =>
        rw [lookup?, scope?_of_inside outside, meaning?_of_inside outside]
        unfold Node.lexicalScopes
        split
        · rename_i form_eq
          simp only [Node.scope?, form_eq]
          exact Scope.get?_ofProgram_eq _ name
        · rename_i form_eq
          simp [Node.signature?, form_eq] at signed
        · rename_i form_eq
          simp [Node.signature?, form_eq] at signed
        · rename_i form_eq
          simp only [Node.scope?, form_eq]
          exact Scope.get?_ofClass? _ name
        · rename_i body form_eq
          have unknown : ¬Node.DeclaresInBody body name :=
            fun declares => no_block ⟨outside, body, form_eq, declares⟩
          simp [Node.scope?, form_eq, LexicalScope.meaningIn?, LexicalScope.meaning?, LexicalScope.imports,
            LexicalScope.Declares, unknown]
        · rename_i form_eq
          simp only [Node.scope?, form_eq]
          exact Scope.get?_ofBlock _ name
        · rename_i pattern _ form_eq
          simp only [Node.scope?, form_eq]
          cases pattern with
          | none => rfl
          | some pattern => exact Scope.get?_ofPattern pattern name
        · rename_i first _ _ _ form_eq
          simp only [Node.scope?, form_eq]
          cases first with
          | none => rfl
          | some first => simpa using Scope.get?_ofLoopHead? first name
        · rename_i form_eq
          simp only [Node.scope?, form_eq]
          exact Scope.get?_ofLoopHead? _ name
        · rename_i form_eq
          simp only [Node.scope?, form_eq]
          exact Scope.get?_ofLoopHead? _ name
        · rename_i form_eq
          simp only [Node.scope?, form_eq]
          exact Scope.get?_ofCases _ name
        · have no_scope : step.node.scope? = none := by
            unfold Node.scope?
            split <;> grind
          rw [no_scope]
          rfl

end Step

namespace Site

/-- The scopes of the language around a site, innermost first. -/
def lexicalScopes (site : Site) : List LexicalScope := site.around.flatMap Step.lexicalScopes

/-- What a name stands for at a site: what the innermost scope around it that declares or imports the name
says. -/
def meaning (site : Site) (name : String) : Option Binding := LexicalScope.meaningIn? site.lexicalScopes name

/-- What a name stands for by the scopes that a walk enters along a way. -/
def lookupAlong (steps : List Step) (name : String) : Option Binding :=
  steps.findSome? fun step => step.lookup? name

/-- What a name stands for by the scopes of the language along a way. -/
def meaningAlong (steps : List Step) (name : String) : Option Binding :=
  steps.findSome? fun step => step.meaning? name

theorem lookupAlong_cons (step : Step) (outer : List Step) (name : String) :
    lookupAlong (step :: outer) name = (step.lookup? name).or (lookupAlong outer name) := by
  rw [lookupAlong, List.findSome?_cons]
  cases step.lookup? name <;> rfl

theorem meaningAlong_cons (step : Step) (outer : List Step) (name : String) :
    meaningAlong (step :: outer) name = (step.meaning? name).or (meaningAlong outer name) := by
  rw [meaningAlong, List.findSome?_cons]
  cases step.meaning? name <;> rfl

theorem lookup_resolver (options : Options) (site : Site) (name : String) :
    (site.resolver options).lookup name = lookupAlong site.around name := by
  obtain ⟨node, steps⟩ := site
  induction steps with
  | nil => rfl
  | cons step steps ih =>
      simp only [Resolver.lookup, resolver, ScopeStack.lookup] at ih ⊢
      rw [lookupAlong_cons, ← ih, Step.lookup?]
      cases entered : step.scope? with
      | none => simp [entered]
      | some scope => cases found : Fields.get? scope name <;> simp [entered, found]

theorem meaning_eq_meaningAlong (site : Site) (name : String) :
    site.meaning name = meaningAlong site.around name := by
  obtain ⟨node, steps⟩ := site
  induction steps with
  | nil => rfl
  | cons step steps ih =>
      simp only [meaning, lexicalScopes] at ih ⊢
      rw [List.flatMap_cons, LexicalScope.meaningIn?_append, ih, meaningAlong_cons, Step.meaning?]

/-- A name is read wrongly along a way: the innermost step that gives it a meaning in either reading enters a
static block that declares it, and what the walk finds farther out is no declaration, or it enters the head
of a function of which only the body declares it, and what it stands for farther out is no declaration. -/
inductive IsMisread (name : String) : List Step → Prop
  | staticBlock {step : Step} {outer : List Step} : step.EntersStaticBlock name →
      lookupAlong outer name ≠ some .declared → IsMisread name (step :: outer)
  | head {step : Step} {outer : List Step} : step.EntersHeadBeforeBody name →
      meaningAlong outer name ≠ some .declared → IsMisread name (step :: outer)
  | farther {step : Step} {outer : List Step} : step.lookup? name = none → step.meaning? name = none →
      IsMisread name outer → IsMisread name (step :: outer)

/-- Along every way the two readings of a name agree exactly if the name is not read wrongly. -/
theorem lookupAlong_eq_meaningAlong_iff (steps : List Step) (name : String) :
    lookupAlong steps name = meaningAlong steps name ↔ ¬IsMisread name steps := by
  induction steps with
  | nil => exact iff_of_true rfl nofun
  | cons step outer ih =>
      rw [lookupAlong_cons, meaningAlong_cons]
      by_cases block : step.EntersStaticBlock name
      · obtain ⟨looked, meant⟩ := block.readings
        simp only [looked, meant, Option.none_or, Option.some_or]
        constructor
        · intro same misread
          cases misread with
          | staticBlock _ other => exact other same
          | head enters _ =>
              have known := enters.readings.1
              simp [looked] at known
          | farther _ unknown _ => simp [meant] at unknown
        · intro fine
          by_contra other
          exact fine (.staticBlock block other)
      · by_cases head : step.EntersHeadBeforeBody name
        · obtain ⟨looked, meant⟩ := head.readings
          simp only [looked, meant, Option.none_or, Option.some_or]
          constructor
          · intro same misread
            cases misread with
            | staticBlock enters _ => exact block enters
            | head _ other => exact other same.symm
            | farther unknown _ _ => simp [looked] at unknown
          · intro fine
            by_contra other
            exact fine (.head head fun same => other same.symm)
        · have same := Step.lookup?_eq_meaning? block head
          rw [same]
          cases meant : step.meaning? name with
          | some binding =>
              refine ⟨fun _ misread => ?_, fun _ => rfl⟩
              cases misread with
              | staticBlock enters _ => exact block enters
              | head enters _ => exact head enters
              | farther _ unknown _ => simp [meant] at unknown
          | none =>
              rw [Option.none_or, Option.none_or, ih, not_iff_not]
              constructor
              · exact fun misread => .farther (same.trans meant) meant misread
              · intro misread
                cases misread with
                | staticBlock enters _ => exact absurd enters block
                | head enters _ => exact absurd enters head
                | farther _ _ misread => exact misread

end Site

/-- Scopes give a name no meaning exactly if none of them declares or imports it. -/
theorem LexicalScope.meaningIn?_eq_none_iff {scopes : List LexicalScope} {name : String} :
    meaningIn? scopes name = none ↔
      ∀ scope ∈ scopes, ¬scope.Declares name ∧ name ∉ scope.imports.map Prod.fst := by
  rw [meaningIn?, List.findSome?_eq_none_iff]
  refine forall₂_congr fun scope _ => ?_
  unfold meaning?
  by_cases declares : scope.Declares name
  · simp [declares]
  · simp only [declares, if_false, not_false_eq_true, true_and, List.lookup_eq_none_iff, List.mem_reverse,
      List.mem_map, not_exists, not_and, bne_iff_ne]
    exact forall₂_congr fun entry _ => ne_comm

theorem Resolver.marker?_eq_some_iff {resolver : Resolver} {name : String} {marker : Marker} :
    resolver.marker? name = some marker ↔
      markerNamed? resolver.options name = some marker ∧
        resolver.lookup name = some (.imported resolver.options.runtimeModule (.named name)) := by
  unfold marker?
  split
  · rename_i known binding named found
    rw [named, found]
    by_cases imported : binding = .imported resolver.options.runtimeModule (.named name)
    · simp [Binding.isNamedImport, imported]
    · simp [Binding.isNamedImport, imported]
  · rename_i missing
    simp only [reduceCtorEq, false_iff, not_and]
    exact fun named found => missing _ _ named found

/-- A walk gives a name the meaning that the scopes of the language give it exactly if the name is not read
wrongly. Then it knows no meaning exactly if no scope around declares or imports the name, and a call of the
name is one of a marker exactly if the name stands for the runtime module's export of that name. -/
theorem lookup_eq_meaning_iff (options : Options) (site : Site) (name : String) :
    ((site.resolver options).lookup name = site.meaning name ↔ ¬Site.IsMisread name site.around) ∧
      (¬Site.IsMisread name site.around →
        ((site.resolver options).lookup name = none ↔
          ∀ scope ∈ site.lexicalScopes, ¬scope.Declares name ∧ name ∉ scope.imports.map Prod.fst) ∧
        ∀ marker arguments, namedCall? site.node = some (name, arguments) →
          (markerCall? (site.resolver options) site.node = some (marker, arguments) ↔
            Resolver.markerNamed? options name = some marker ∧
              site.meaning name = some (.imported options.runtimeModule (.named name)))) := by
  have agree : (site.resolver options).lookup name = site.meaning name ↔
      ¬Site.IsMisread name site.around := by
    rw [Site.lookup_resolver, Site.meaning_eq_meaningAlong]
    exact Site.lookupAlong_eq_meaningAlong_iff site.around name
  refine ⟨agree, fun fine => ?_⟩
  have same := agree.mpr fine
  constructor
  · rw [same]
    exact LexicalScope.meaningIn?_eq_none_iff
  · intro marker arguments called
    have applied : markerCall? (site.resolver options) site.node = some (marker, arguments) ↔
        (site.resolver options).marker? name = some marker := by
      cases found : (site.resolver options).marker? name <;> simp [markerCall?, called, found]
    rw [applied, Resolver.marker?_eq_some_iff, same]
    rfl

/-- Whether a step goes into a list of exports of the module itself. -/
def Step.isOwnExport (step : Step) : Bool :=
  match step.node.form with
  | .exportNamed _ _ _ source => source.isNone
  | _ => false

/-- The name that is used at a site: by an expression, by markup, by the target of an assignment or by an
export of what the module declares or imports. -/
def Site.reference? (site : Site) : Option String :=
  match site.node.form with
  | .identifier name => some name
  | .jsxReference name => some name
  | .targetName name => some name
  | .targetShorthand name _ => some name
  | .exportSpecifier _ used _ =>
    if site.around.head?.any Step.isOwnExport then some used.name.value else none
  | _ => none

/-- A source with a static block that declares the name it uses. -/
def staticDeclaration :
    { source : SourceText // source.text = "class A\x7bstatic\x7blet x;[x]\x7d\x7d" ∧
      passes (source.parse source.dialect) (fun module => module.program.sites.any fun site =>
        site.reference? == some "x" && site.meaning "x" == some .declared &&
          (site.resolver {}).lookup "x" == none) = true } :=
  ⟨⟨"a.js", "class A\x7bstatic\x7blet x;[x]\x7d\x7d"⟩, rfl, by decide +kernel⟩

/-- In a static block that declares a name a walk takes a use of the name for one of an unknown name. -/
theorem lookup_ne_meaning_in_static_block :
    ∃ (source : SourceText) (module : SourceModule) (site : Site),
      source.text = "class A\x7bstatic\x7blet x;[x]\x7d\x7d" ∧ source.parse source.dialect = .ok module ∧
        site ∈ module.program.sites ∧ site.reference? = some "x" ∧
        site.meaning "x" = some .declared ∧ (site.resolver {}).lookup "x" = none := by
  obtain ⟨source, text, settled⟩ := staticDeclaration
  obtain ⟨module, parsed, checked⟩ := exists_of_passes settled
  obtain ⟨site, member, reading⟩ := List.any_eq_true.mp checked
  simp only [Bool.and_eq_true, beq_iff_eq] at reading
  obtain ⟨⟨used, meant⟩, looked⟩ := reading
  exact ⟨source, module, site, text, parsed, member, used, meant, looked⟩

end Storyboard
