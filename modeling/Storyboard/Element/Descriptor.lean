import Storyboard.Json

/-!
# Descriptors

What a user interface is built from once its elements have been evaluated. A brick is one unit with
properties and, under named slots, the descriptors placed inside it. A route maps a path to bricks, to
further routes or to another path. A component is a named list of bricks. Data that was already a
descriptor is carried as it is.
-/

namespace Storyboard

/-- The two kinds of content a slot can hold. -/
inductive SlotKind where
  | bricks
  | routes
deriving DecidableEq, Repr

/-- The name of a kind as it is written in a document. -/
def SlotKind.name : SlotKind → String
  | .bricks => "bricks"
  | .routes => "routes"

mutual

/-- One unit of a user interface. -/
structure Brick where
  /-- The name of the unit. -/
  name : String
  /-- Its properties; a control node has none at all. -/
  properties : Option (List (String × Json))
  /-- What a control node iterates over or tests. -/
  dataSource : Option Json
  /-- Its contents by slot name. -/
  slots : Option (List (String × Bucket))
  /-- The slot of the parent that the unit asks for, until it has been placed. -/
  slot : Option String
  /-- Entries that belong to the unit itself and not to its properties. -/
  config : List (String × Json)

/-- One entry of the routing table. -/
structure Route where
  /-- Entries that are passed through. -/
  config : List (String × Json)
  /-- What the route leads to. -/
  body : RouteBody
  /-- The slot of the parent that the route asks for, until it has been placed. -/
  slot : Option String

/-- What a route leads to. -/
inductive RouteBody where
  | redirect
  | routes (routes : List Route)
  | bricks (bricks : List Descriptor)

/-- The content of one slot, all of one kind. -/
inductive Bucket where
  | bricks (bricks : List Descriptor)
  | routes (routes : List Route)

/-- Anything that can be placed in a slot or a list of bricks. -/
inductive Descriptor where
  | brick (brick : Brick)
  | route (route : Route)
  | raw (value : Json)

end

instance : Inhabited Descriptor := ⟨.raw .null⟩

/-- A named reusable unit. -/
structure Component where
  /-- Entries that are passed through. -/
  config : Fields Json
  /-- What the component consists of. -/
  bricks : List Descriptor

/-- What one element construction gives. -/
inductive Lowered where
  | descriptor (descriptor : Descriptor)
  | fragment (descriptors : List Descriptor)
  | component (component : Component)

/-- The property that holds the text of a unit. -/
def textProperty : String := "textContent"

namespace Brick

/-- The value of a property. -/
def property? (brick : Brick) (key : String) : Option Json :=
  brick.properties.bind fun properties => Fields.get? properties key

/-- The text of a unit. -/
def text? (brick : Brick) : Option String := (brick.property? textProperty).bind Json.asString?

/-- The inline unit that stands for a piece of text. -/
def ofText (text : String) : Brick :=
  { name := "span", properties := some [(textProperty, .string text)], dataSource := none,
    slots := none, slot := none, config := [] }

end Brick

/-- The path of a route. -/
def Route.path? (route : Route) : Option String :=
  (Fields.get? route.config "path").bind Json.asString?

/-- The name of a component. -/
def Component.name? (component : Component) : Option String :=
  (Fields.get? component.config "name").bind Json.asString?

namespace Bucket

/-- A bucket of a kind, with nothing in it. -/
def empty : SlotKind → Bucket
  | .bricks => .bricks []
  | .routes => .routes []

/-- The kind of a bucket. -/
def kind : Bucket → SlotKind
  | .bricks _ => .bricks
  | .routes _ => .routes

/-- How many descriptors a bucket holds. -/
def size : Bucket → Nat
  | .bricks bs => bs.length
  | .routes rs => rs.length

/-- The content of a bucket as descriptors, in order. -/
def contents : Bucket → List Descriptor
  | .bricks bs => bs
  | .routes rs => rs.map .route

end Bucket

/-- A slot name as a text: a text names itself, other data is named by its JSON text, null names
nothing. -/
def slotName? : Json → Option String
  | .null => none
  | .string text => some text
  | value => some value.render

namespace Descriptor

/-- The kind of slot a descriptor can be placed in. -/
def slotKind : Descriptor → SlotKind
  | .route _ => .routes
  | _ => .bricks

/-- The slot a descriptor asks for. -/
def slot? : Descriptor → Option String
  | .brick b => b.slot
  | .route r => r.slot
  | .raw value => (value.field? "slot").bind Json.asString?

/-- Make a descriptor ask for a slot; data that is no object has no place for one. -/
def withSlot (slot : String) : Descriptor → Descriptor
  | .brick b => .brick { b with slot := some slot }
  | .route r => .route { r with slot := some slot }
  | .raw (.object fields) => .raw (.object (Fields.set fields "slot" (.string slot)))
  | .raw value => .raw value

/-- The slot a descriptor asks for when it is placed, and the descriptor without that request. -/
def takeSlot : Descriptor → Option String × Descriptor
  | .brick b => (b.slot, .brick { b with slot := none })
  | .route r => (r.slot, .route { r with slot := none })
  | .raw (.object fields) =>
    ((Fields.get? fields "slot").bind slotName?, .raw (.object (Fields.erase fields "slot")))
  | .raw value => (none, .raw value)

/-- The brick a descriptor is. -/
def brick? : Descriptor → Option Brick
  | .brick b => some b
  | _ => none

/-- The route a descriptor is. -/
def route? : Descriptor → Option Route
  | .route r => some r
  | _ => none

end Descriptor

end Storyboard
