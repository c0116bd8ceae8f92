import Storyboard.Scope.Declared

/-!
# A survey of all scopes

Every part of a module that can open a scope, with the names it declares, in the order of their places.
-/

namespace Storyboard

/-- What is found at a place of a survey. -/
inductive SurveyContent where
  /-- The scope that the part opens, if it opens one. -/
  | scope (scope : Option Scope)
  /-- The names of a pattern. -/
  | names (names : List String)

/-- A part of a module that can open a scope. -/
structure SurveyEntry where
  /-- What kind of part it is. -/
  kind : String
  /-- Where it begins. -/
  start : Nat
  /-- What is found there. -/
  content : SurveyContent

namespace Node

/-- What a survey says about a single node. -/
def surveyEntry? (node : Node) : Option SurveyEntry :=
  let entry (kind : String) : Option SurveyEntry := some ⟨kind, node.span.start, .scope node.scope?⟩
  match node.form with
  | .program _ => entry "program"
  | .function _ _ _ _ => entry "function"
  | .arrow _ _ _ => entry "arrow"
  | .classOf _ _ _ _ _ => entry "class"
  | .block _ => entry "block"
  | .switch _ _ => entry "switch"
  | .catchClause _ _ => entry "catch"
  | .variableList _ _ => some ⟨"declaration", node.span.start, .scope (Scope.ofLoopHead? node)⟩
  | .declarator _ pattern _ => some ⟨"pattern", pattern.span.start, .names pattern.bindingNames⟩
  | _ => none

/-- The survey of a node and all that is below it, in the order of a walk. -/
def surveyInOrder (node : Node) : List SurveyEntry :=
  node.surveyEntry?.toList ++ node.children.attach.flatMap fun ⟨child, _⟩ => surveyInOrder child
termination_by sizeOf node
decreasing_by exact sizeOf_lt_of_mem_children (by assumption)

/-- The survey of a module, ordered by place. -/
def survey (node : Node) : List SurveyEntry :=
  node.surveyInOrder.mergeSort fun a b => a.start ≤ b.start

end Node

end Storyboard
