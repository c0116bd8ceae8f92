import Storyboard.Element.Lowering

/-!
# Markup

Nested element constructions that have not been evaluated. Evaluation goes depth first and through the
settings in order, and stops at the first failure.
-/

namespace Storyboard

mutual

/-- One element construction with its settings in the order of their author. -/
inductive Markup where
  | element (kind : ElementKind) (settings : List (String × Markup.Value))

/-- The value of a setting before evaluation. -/
inductive Markup.Value where
  | data (value : Json)
  | tree (tree : Markup.Tree)

/-- A part of the element tree before evaluation. -/
inductive Markup.Tree where
  | empty
  | text (text : String)
  | list (items : List Markup.Tree)
  | element (markup : Markup)
  | data (value : Json)

end

mutual

/-- Evaluate an element construction. -/
def Markup.lower : Markup → Except LowerError Lowered
  | .element kind settings => do
    let entries ← Markup.lowerSettings settings
    Storyboard.lower kind (Fields.ofEntries entries)

/-- Evaluate settings in order. -/
def Markup.lowerSettings : List (String × Markup.Value) → Except LowerError (List (String × Setting))
  | [] => .ok []
  | (name, value) :: rest => do
    let first ← value.evaluate
    let others ← Markup.lowerSettings rest
    return (name, first) :: others

/-- Evaluate the value of a setting. -/
def Markup.Value.evaluate : Markup.Value → Except LowerError Setting
  | .data value => .ok (.data value)
  | .tree tree => do return .tree (← tree.evaluate)

/-- Evaluate a part of the element tree. -/
def Markup.Tree.evaluate : Markup.Tree → Except LowerError Child
  | .empty => .ok .empty
  | .text text => .ok (.text text)
  | .list items => do return .list (← Markup.Tree.evaluateItems items)
  | .element markup => do return .lowered (← markup.lower)
  | .data value => .ok (.ofJson value)

/-- Evaluate parts of the element tree in order. -/
def Markup.Tree.evaluateItems : List Markup.Tree → Except LowerError (List Child)
  | [] => .ok []
  | item :: rest => do
    let first ← item.evaluate
    let others ← Markup.Tree.evaluateItems rest
    return first :: others

end

end Storyboard
