import Storyboard.Element.Descriptor

/-!
# Descriptors as JSON

The document form of a descriptor. A brick writes its own fields first and its config after them; a
route and a component write their config first. A name written twice keeps its first place and its
last value.
-/

namespace Storyboard

/-- A field that is written only when it has a value. -/
def optionalField (name : String) (value? : Option Json) : List (String × Json) :=
  match value? with
  | some value => [(name, value)]
  | none => []

/-- The object that a list of entries writes. -/
def objectOf (entries : List (String × Json)) : Json := .object (Fields.ofEntries entries)

mutual

/-- The document form of a brick. -/
def Brick.toJson : Brick → Json
  | ⟨name, properties, dataSource, slots, slot, config⟩ =>
    objectOf (
      ("brick", .string name) ::
      (optionalField "properties" (properties.map .object) ++
      optionalField "dataSource" dataSource ++
      slotsField slots ++
      optionalField "slot" (slot.map .string) ++
      config))

/-- The `slots` entry of a brick, if it has one. -/
def slotsField : Option (List (String × Bucket)) → List (String × Json)
  | none => []
  | some slots => [("slots", .object (slotsToJson slots))]

/-- The document forms of the buckets of a brick. -/
def slotsToJson : List (String × Bucket) → List (String × Json)
  | [] => []
  | (name, bucket) :: rest => (name, bucket.toJson) :: slotsToJson rest

/-- The document form of a bucket. -/
def Bucket.toJson : Bucket → Json
  | .bricks bs => .object [("type", .string "bricks"), ("bricks", .array (bricksToJson bs))]
  | .routes rs => .object [("type", .string "routes"), ("routes", .array (routesToJson rs))]

/-- The document form of a route. -/
def Route.toJson : Route → Json
  | ⟨config, body, slot⟩ =>
    objectOf (config ++ body.entries ++ optionalField "slot" (slot.map .string))

/-- The entry that a route body writes. -/
def RouteBody.entries : RouteBody → List (String × Json)
  | .redirect => []
  | .routes rs => [("routes", .array (routesToJson rs))]
  | .bricks bs => [("bricks", .array (bricksToJson bs))]

/-- The document forms of routes. -/
def routesToJson : List Route → List Json
  | [] => []
  | route :: rest => route.toJson :: routesToJson rest

/-- The document form of a descriptor. -/
def Descriptor.toJson : Descriptor → Json
  | .brick b => b.toJson
  | .route r => r.toJson
  | .raw value => value

/-- The document forms of descriptors. -/
def bricksToJson : List Descriptor → List Json
  | [] => []
  | descriptor :: rest => descriptor.toJson :: bricksToJson rest

end

/-- The document form of the buckets of a brick. -/
def slotsJson (slots : Fields Bucket) : Json := .object (slotsToJson slots)

/-- The document form of a component. -/
def Component.toJson (component : Component) : Json :=
  objectOf (component.config ++ [("bricks", .array (bricksToJson component.bricks))])

/-- The document form of the result of an element construction. -/
def Lowered.toJson : Lowered → Json
  | .descriptor d => d.toJson
  | .fragment ds => .array (bricksToJson ds)
  | .component c => c.toJson

end Storyboard
