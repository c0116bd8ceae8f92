import Storyboard.Element.Child

/-!
# Lowering elements

Evaluating one element construction. Children are flattened into descriptors, grouped under the slots
they ask for, and attached to the unit that the element stands for. There are four ways to fail.
-/

namespace Storyboard

/-- Why an element construction fails. -/
inductive LowerError where
  | unsupportedNamespace (key : String)
  | mixedSlot (slot : String)
  | nonRouteChild
  | componentChild
deriving DecidableEq, Repr

/-- The text of a failure. -/
def LowerError.message : LowerError → String
  | .unsupportedNamespace key => "Unsupported namespace prop: \"" ++ key ++ "\""
  | .mixedSlot slot => "slot \"" ++ slot ++ "\" mixes routes and bricks"
  | .nonRouteChild => "a `routes` route only accepts routes as children"
  | .componentChild => "a component definition can not be used as a child"

/-- What an element stands for. -/
inductive ElementKind where
  | fragment
  | route
  | component
  | forEach
  | conditional
  | switch
  | legacyTemplate
  /-- A plain element name, in which an underscore stands for a point. -/
  | tag (name : String)
  /-- A component known by name. -/
  | reference (name : String)
deriving DecidableEq, Repr

/-- Where a setting of a plain element goes. -/
inductive SettingPlace where
  | property (name : String)
  | reserved (name : String)
  | slot
  | children
deriving DecidableEq, Repr

/-- Plain names that belong to the unit itself. -/
def reservedNames : List String := ["events", "lifeCycle", "if", "portal", "ref"]

/-- The rest of a text after a leading part. -/
def afterLeading? (leading text : String) : Option String :=
  if leading.toList.isPrefixOf text.toList then
    some (String.ofList (text.toList.drop leading.length))
  else none

/-- The place of a setting by its name; of the names with a colon only two namespaces are known. -/
def SettingPlace.ofKey (key : String) : Except LowerError SettingPlace :=
  if key.toList.contains ':' then
    match afterLeading? "prop:" key, afterLeading? "conf:" key with
    | some name, _ => .ok (.property name)
    | none, some name => .ok (.reserved name)
    | none, none => .error (.unsupportedNamespace key)
  else if key == "slot" then .ok .slot
  else if key == "children" then .ok .children
  else if reservedNames.contains key then .ok (.reserved key)
  else .ok (.property key)

namespace Child

mutual

/-- Flatten a child: texts become units, fragments are spliced in, components are refused. -/
def flatten : Child → Except LowerError (List Descriptor)
  | .empty => .ok []
  | .text content => .ok [.brick (.ofText content)]
  | .lowered (.descriptor descriptor) => .ok [descriptor]
  | .lowered (.fragment descriptors) => .ok descriptors
  | .lowered (.component _) => .error .componentChild
  | .list items => flattenItems items

/-- Flatten children one after the other. -/
def flattenItems : List Child → Except LowerError (List Descriptor)
  | [] => .ok []
  | item :: rest => do
    let first ← flatten item
    let others ← flattenItems rest
    return first ++ others

end

/-- The flattened child, every descriptor asking for the given slot if there is one. -/
def flattenInto (slot? : Option String) (child : Child) : Except LowerError (List Descriptor) := do
  let flat ← child.flatten
  return match slot? with
    | some slot => flat.map (Descriptor.withSlot slot)
    | none => flat

end Child

/-- Add a descriptor to a bucket of its kind. -/
def Bucket.add? : Bucket → Descriptor → Option Bucket
  | .routes rs, .route r => some (.routes (rs ++ [r]))
  | .bricks _, .route _ => none
  | .routes _, _ => none
  | .bricks bs, descriptor => some (.bricks (bs ++ [descriptor]))

/-- Place one descriptor in the slot it asks for, the unnamed slot when it asks for none. -/
def placeInSlot (slots : Fields Bucket) (descriptor : Descriptor) :
    Except LowerError (Fields Bucket) :=
  let (slot?, placed) := descriptor.takeSlot
  let slot := slot?.getD ""
  let bucket := (Fields.get? slots slot).getD (.empty placed.slotKind)
  match bucket.add? placed with
  | some bucket => .ok (Fields.set slots slot bucket)
  | none => .error (.mixedSlot slot)

/-- Group descriptors by slot: slots in the order of first use, descriptors in their own order. -/
def groupBySlot (descriptors : List Descriptor) : Except LowerError (Fields Bucket) :=
  descriptors.foldlM placeInSlot []

/-- What the settings of a plain element have been sorted into. -/
structure SortedSettings where
  /-- Properties of the unit. -/
  properties : Fields Json := []
  /-- Entries of the unit itself. -/
  reserved : Fields Json := []
  /-- The slot the unit asks for. -/
  slot : Option String := none
  /-- The children setting. -/
  children : Option Setting := none

/-- Sort one setting of a plain element into its place. -/
def SortedSettings.add (sorted : SortedSettings) (entry : String × Setting) :
    Except LowerError SortedSettings := do
  match ← SettingPlace.ofKey entry.1 with
  | .property name =>
    return { sorted with properties := Fields.set sorted.properties name entry.2.toJson }
  | .reserved name =>
    return { sorted with reserved := Fields.set sorted.reserved name entry.2.toJson }
  | .slot => return { sorted with slot := slotName? entry.2.toJson }
  | .children => return { sorted with children := some entry.2 }

/-- Attach children to the properties of a plain element: a text becomes its text property, anything
else takes the place of that property and goes into slots. -/
def attachChildren (properties : Fields Json) :
    Option Setting → Except LowerError (Fields Json × Option (Fields Bucket))
  | none => .ok (properties, none)
  | some setting =>
    if setting.isTruthy then
      match setting.toChild with
      | .text text => .ok (Fields.set properties textProperty (.string text), none)
      | child => do
        let slots ← groupBySlot (← child.flatten)
        return (Fields.erase properties textProperty, some slots)
    else .ok (properties, none)

/-- Lower a plain element. -/
def lowerElement (name : String) (settings : Settings) : Except LowerError Brick := do
  let sorted ← settings.foldlM SortedSettings.add {}
  let (properties, slots) ← attachChildren sorted.properties sorted.children
  return { name, properties := some properties, dataSource := none, slots, slot := sorted.slot,
           config := sorted.reserved }

/-- Lower a control node: its children always go into slots, and `value` is what it works on. -/
def lowerControl (name : String) (settings : Settings) : Except LowerError Brick := do
  let slots ← groupBySlot (← (settings.childAt "children").flatten)
  let rest := Fields.erase (Fields.erase (Fields.erase settings "children") "value") "slot"
  return { name, properties := none, dataSource := (Fields.get? settings "value").map Setting.toJson,
           slots := some slots, slot := settings.slot?, config := Settings.toFields rest }

/-- The routes among flattened children, which have to be routes throughout. -/
def routesOnly : List Descriptor → Except LowerError (List Route)
  | [] => .ok []
  | .route route :: rest => do return route :: (← routesOnly rest)
  | _ :: _ => .error .nonRouteChild

/-- Lower a route; its `type` says what it leads to. -/
def lowerRoute (settings : Settings) : Except LowerError Route := do
  let slot := settings.slot?
  let rest : Settings := Fields.erase settings "slot"
  match (Fields.get? settings "type").bind Setting.asString? with
  | some "redirect" => return { config := rest.toFields, body := .redirect, slot }
  | some "routes" =>
    let routes ← routesOnly (← (rest.childAt "children").flatten)
    return { config := Settings.toFields (Fields.erase rest "children"), body := .routes routes, slot }
  | _ =>
    let bricks ← (rest.childAt "view").flatten
    return { config := Settings.toFields (Fields.erase rest "view"), body := .bricks bricks, slot }

/-- Lower a component definition. -/
def lowerComponent (settings : Settings) : Except LowerError Component := do
  let bricks ← (settings.childAt "children").flatten
  return { config := Settings.toFields (Fields.erase settings "children"), bricks }

/-- Lower a fragment, whose slot overrides the slots of its children. -/
def lowerFragment (settings : Settings) : Except LowerError (List Descriptor) :=
  (settings.childAt "children").flattenInto settings.slot?

/-- The name of a plain element: an underscore stands for a point. -/
def tagName (name : String) : String := name.map fun c => if c == '_' then '.' else c

/-- Lower one element construction. -/
def lower (kind : ElementKind) (settings : Settings) : Except LowerError Lowered :=
  match kind with
  | .fragment => return .fragment (← lowerFragment settings)
  | .route => return .descriptor (.route (← lowerRoute settings))
  | .component => return .component (← lowerComponent settings)
  | .legacyTemplate => return .descriptor (.raw settings.toJson)
  | .tag name => return .descriptor (.brick (← lowerElement (tagName name) settings))
  | .reference name => return .descriptor (.brick (← lowerElement name settings))
  | .forEach => return .descriptor (.brick (← lowerControl ":forEach" settings))
  | .conditional => return .descriptor (.brick (← lowerControl ":if" settings))
  | .switch => return .descriptor (.brick (← lowerControl ":switch" settings))

end Storyboard
