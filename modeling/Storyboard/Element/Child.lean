import Storyboard.Element.Encoding

/-!
# Children and settings

The inputs of an element construction: children, nested to any depth and not yet flattened, and
settings, each either plain data or a part of the element tree.
-/

namespace Storyboard

/-- A child before flattening. -/
inductive Child where
  | text (text : String)
  | lowered (lowered : Lowered)
  | list (items : List Child)
  | empty

namespace Child

mutual

/-- Plain data in the place of a child: only a text is text, null and truth values are nothing. -/
def ofJson : Json → Child
  | .string content => .text content
  | .array items => .list (ofJsonItems items)
  | .null => .empty
  | .bool _ => .empty
  | .number value => .lowered (.descriptor (.raw (.number value)))
  | .object fields => .lowered (.descriptor (.raw (.object fields)))

/-- Plain data items as children. -/
def ofJsonItems : List Json → List Child
  | [] => []
  | item :: rest => ofJson item :: ofJsonItems rest

end

mutual

/-- A child in the place of plain data. -/
def toJson : Child → Json
  | .text content => .string content
  | .lowered result => result.toJson
  | .list items => .array (toJsonItems items)
  | .empty => .null

/-- Children as plain data items. -/
def toJsonItems : List Child → List Json
  | [] => []
  | item :: rest => toJson item :: toJsonItems rest

end

end Child

/-- The value of a setting: plain data, or a part of the element tree. -/
inductive Setting where
  | data (value : Json)
  | tree (child : Child)

namespace Setting

/-- The text of a setting that is one. -/
def asString? : Setting → Option String
  | .data (.string content) => some content
  | .tree (.text content) => some content
  | _ => none

/-- Whether a setting counts as present: null, false, zero and the empty text do not. -/
def isTruthy : Setting → Bool
  | .data .null => false
  | .data (.bool value) => value
  | .data (.string content) => content != ""
  | .data (.number value) => !value.isZero
  | .tree .empty => false
  | .tree (.text content) => content != ""
  | _ => true

/-- A setting as plain data. -/
def toJson : Setting → Json
  | .data value => value
  | .tree child => child.toJson

/-- A setting as a child. -/
def toChild : Setting → Child
  | .data value => .ofJson value
  | .tree child => child

end Setting

/-- The settings of an element, in the order of their author. -/
abbrev Settings := Fields Setting

namespace Settings

/-- All settings as plain data. -/
def toFields (settings : Settings) : Fields Json := Fields.mapValues Setting.toJson settings

/-- All settings as one plain object. -/
def toJson (settings : Settings) : Json := .object (toFields settings)

/-- The child stored under a name, nothing when there is none. -/
def childAt (settings : Settings) (key : String) : Child :=
  ((Fields.get? settings key).map Setting.toChild).getD .empty

/-- The slot name stored under `slot`. -/
def slot? (settings : Settings) : Option String :=
  (Fields.get? settings "slot").bind fun setting => slotName? setting.toJson

end Settings

end Storyboard
