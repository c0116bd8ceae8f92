import Mathlib.Data.List.Basic
import Storyboard.Proofs.Site

/-!
# Scopes that are built

Which nodes build a scope, and from what. The scopes that a walk has entered when it comes to a site are those that are
built on the way to it: one for each node around the site that builds one, unless the site belongs to what a switch
looks at.
-/

namespace Storyboard

/-- The head of a loop that has one. -/
def Node.loopHead? (node : Node) : Option Node :=
  match node.form with
  | .forLoop first _ _ _ => first
  | .forIn left _ _ => some left
  | .forOf _ left _ _ => some left
  | _ => none

/-- A node builds a scope. -/
inductive Node.Builds (node : Node) : Scope → Prop
  /-- A module. -/
  | module {body : List Node} : node.form = .program body → Builds node (.ofProgram body)
  /-- A function, a method or an accessor. -/
  | function {head : FunctionHead} {name body : Option Node} {parameters : List Node} :
      node.form = .function head name parameters body → Builds node (.ofFunction name parameters body)
  /-- An arrow function. -/
  | arrow {head : FunctionHead} {parameters : List Node} {body : Node} :
      node.form = .arrow head parameters body → Builds node (.ofFunction none parameters (some body))
  /-- A class with a name. -/
  | namedClass {head : ClassHead} {decorators members : List Node} {name : Node} {heritage : Option Node} :
      node.form = .classOf head decorators (some name) heritage members →
        Builds node (Scope.declareAll [] name.bindingNames)
  /-- A block. -/
  | block {body : List Node} : node.form = .block body → Builds node (.ofBlock body)
  /-- A handler with a parameter. -/
  | handler {pattern body : Node} : node.form = .catchClause (some pattern) body → Builds node (.ofPattern pattern)
  /-- A loop with a head that declares, by `let`, `const` or `using`. -/
  | loop {first : Node} {kind : VariableKind} {declarators : List Node} : node.loopHead? = some first →
      first.form = .variableList kind declarators → kind ≠ .var →
        Builds node (Scope.declareAll [] (variableNames declarators))
  /-- The cases of a switch. -/
  | cases {subject : Node} {cases : List Node} : node.form = .switch subject cases → Builds node (.ofCases cases)

theorem Scope.ofLoopHead?_eq_some_iff {first : Node} {scope : Scope} :
    Scope.ofLoopHead? first = some scope ↔ ∃ kind declarators, first.form = .variableList kind declarators ∧
      kind ≠ .var ∧ Scope.declareAll [] (Node.variableNames declarators) = scope := by
  unfold Scope.ofLoopHead?
  split
  · rename_i kind declarators form_eq
    by_cases isVar : kind = .var <;> simp [form_eq, isVar]
  · rename_i other
    refine iff_of_false (by simp) ?_
    rintro ⟨kind, declarators, form_eq, -⟩
    exact other kind declarators form_eq

/-- The scope that a node opens is the one that it builds. -/
theorem Node.scope?_eq_some_iff {node : Node} {scope : Scope} : node.scope? = some scope ↔ node.Builds scope := by
  constructor
  · intro opened
    have looped : ∀ first, node.loopHead? = some first → Scope.ofLoopHead? first = some scope → node.Builds scope := by
      intro first head declared
      obtain ⟨kind, declarators, form_eq, no_var, rfl⟩ := Scope.ofLoopHead?_eq_some_iff.mp declared
      exact .loop head form_eq no_var
    unfold Node.scope? at opened
    split at opened
    · rename_i form_eq
      cases opened
      exact .module form_eq
    · rename_i form_eq
      cases opened
      exact .function form_eq
    · rename_i form_eq
      cases opened
      exact .arrow form_eq
    · rename_i name _ _ form_eq
      cases name with
      | none => cases opened
      | some name =>
          cases opened
          exact .namedClass form_eq
    · rename_i form_eq
      cases opened
      exact .block form_eq
    · rename_i pattern _ form_eq
      cases pattern with
      | none => cases opened
      | some pattern =>
          cases opened
          exact .handler form_eq
    · rename_i first _ _ _ form_eq
      obtain ⟨first, rfl, declared⟩ := Option.bind_eq_some_iff.mp opened
      exact looped first (by rw [loopHead?, form_eq]) declared
    · rename_i form_eq
      exact looped _ (by rw [loopHead?, form_eq]) opened
    · rename_i form_eq
      exact looped _ (by rw [loopHead?, form_eq]) opened
    · rename_i form_eq
      cases opened
      exact .cases form_eq
    · cases opened
  · intro builds
    cases builds with
    | module form_eq => simp [scope?, form_eq]
    | function form_eq => simp [scope?, form_eq]
    | arrow form_eq => simp [scope?, form_eq]
    | namedClass form_eq => simp [scope?, form_eq, Scope.ofClass?]
    | block form_eq => simp [scope?, form_eq]
    | handler form_eq => simp [scope?, form_eq]
    | loop head form_eq no_var =>
        have declared := Scope.ofLoopHead?_eq_some_iff.mpr ⟨_, _, form_eq, no_var, rfl⟩
        unfold loopHead? at head
        split at head
        · rename_i loop_form
          simp [scope?, loop_form, head, declared]
        · rename_i loop_form
          cases head
          simp [scope?, loop_form, declared]
        · rename_i loop_form
          cases head
          simp [scope?, loop_form, declared]
        · cases head
    | cases form_eq => simp [scope?, form_eq]

/-- A step goes into the scope that its node builds, unless it goes into what a switch looks at. -/
def Step.Builds (step : Step) (scope : Scope) : Prop := step.part ≠ .outside ∧ step.node.Builds scope

theorem Step.scope?_eq_some_iff {step : Step} {scope : Scope} : step.scope? = some scope ↔ step.Builds scope := by
  rw [Step.Builds, ← Node.scope?_eq_some_iff, Step.scope?]
  split
  · rename_i outside
    simp [outside]
  · rename_i inside
    exact (and_iff_right inside).symm

/-- The scopes that are built along a way, the outermost first. -/
inductive BuiltAlong : List Step → List Scope → Prop
  | start : BuiltAlong [] []
  | into {step : Step} {around : List Step} {scope : Scope} {scopes : List Scope} : step.Builds scope →
      BuiltAlong around scopes → BuiltAlong (step :: around) (scopes ++ [scope])
  | past {step : Step} {around : List Step} {scopes : List Scope} : (∀ scope, ¬step.Builds scope) →
      BuiltAlong around scopes → BuiltAlong (step :: around) scopes

/-- The scopes around a site are those that are built on the way to it. -/
theorem builtAlong_resolver (options : Options) (site : Site) :
    BuiltAlong site.around (site.resolver options).scopes.reverse := by
  obtain ⟨node, around⟩ := site
  simp only [Site.resolver]
  induction around with
  | nil => exact .start
  | cons step around ih =>
      cases entered : step.scope? with
      | none =>
          rw [List.filterMap_cons_none entered]
          refine .past (fun scope builds => ?_) ih
          rw [← Step.scope?_eq_some_iff, entered] at builds
          cases builds
      | some scope =>
          rw [List.filterMap_cons_some entered, List.reverse_cons]
          exact .into (Step.scope?_eq_some_iff.mp entered) ih

end Storyboard
