import Storyboard.Board
import Storyboard.Proofs.OwnFields

/-!
# What a board's document holds

Routes and components that are pushed onto a board stand in its document in the order of the pushes, with
its resources and its further entries; whatever else is pushed is handed back. The `meta` part is written
after the further entries, and what is computed for it after its own entries. The routes alone are written
first: a further entry named `routes` takes their place.
-/

namespace Storyboard

/-- The route that the result of an element construction is. -/
def Lowered.route? : Lowered → Option Route
  | .descriptor (.route r) => some r
  | _ => none

/-- The component that the result of an element construction is. -/
def Lowered.component? : Lowered → Option Component
  | .component c => some c
  | _ => none

/-- A result that a board hands back. -/
def Lowered.isRefused (value : Lowered) : Bool := value.route?.isNone && value.component?.isNone

namespace Board

/-- Push results one after the other and collect those that are handed back. -/
def pushAll (board : Board) : List Lowered → Board × List Lowered
  | [] => (board, [])
  | value :: rest =>
    match board.push value with
    | .ok grown => grown.pushAll rest
    | .error back =>
      let (last, others) := board.pushAll rest
      (last, back :: others)

/-- One push adds a route or a component at the end, or hands the result back as it is. -/
theorem push_eq (board : Board) (value : Lowered) :
    board.push value =
      if value.isRefused then .error value
      else .ok { board with
        routes := board.routes ++ value.route?.toList
        components := board.components ++ value.component?.toList } := by
  cases value with
  | component component => simp [push, Lowered.isRefused, Lowered.route?, Lowered.component?]
  | fragment descriptors => rfl
  | descriptor descriptor =>
      cases descriptor with
      | route route => simp [push, Lowered.isRefused, Lowered.route?, Lowered.component?]
      | brick brick => rfl
      | raw value => rfl

/-- Pushes add the routes and the components in order, hand back the rest in order and change nothing
else. -/
theorem pushAll_eq (board : Board) (values : List Lowered) :
    board.pushAll values =
      ({ board with
          routes := board.routes ++ values.filterMap Lowered.route?
          components := board.components ++ values.filterMap Lowered.component? },
        values.filter Lowered.isRefused) := by
  induction values generalizing board with
  | nil => simp [pushAll]
  | cons value rest ih =>
      rw [pushAll, push_eq]
      cases refused : value.isRefused with
      | true =>
          have no_route : value.route? = none := by simp_all [Lowered.isRefused]
          have no_component : value.component? = none := by simp_all [Lowered.isRefused]
          simp [ih, refused, no_route, no_component]
      | false =>
          rw [if_neg (by decide)]
          dsimp only
          rw [ih]
          cases route? : value.route? <;> cases component? : value.component? <;>
            simp [refused, route?, component?]

/-- The entries that a board computes for the `meta` part of its document, each with its value if it has
one. -/
def computedMeta (board : Board) : List (String × Option Json) :=
  [("customTemplates", some (.array (board.components.map Component.toJson))),
    ("functions", some (.array
      ((Fields.values board.resources.functions).map FunctionResource.toJson))),
    ("menus", board.resources.menus), ("contracts", board.resources.contracts),
    ("i18n", board.resources.i18n)]

theorem metaFields_eq (board : Board) :
    board.metaFields = Fields.setAll board.resources.metaEntries (writtenFields board.computedMeta) := by
  simp [metaFields, computedMeta, writtenFields, optionalField]

/-- What a board computes for the `meta` part hides an own entry of that name. -/
theorem get?_metaFields_of_mem {board : Board} {field : String × Option Json}
    (member : field ∈ board.computedMeta) :
    Fields.get? board.metaFields field.1 =
      field.2.or (Fields.get? board.resources.metaEntries field.1) := by
  rw [metaFields_eq, Fields.get?_setAll_eq_or,
    get?_ofEntries_writtenFields (by simp [computedMeta]) member]

/-- The own entries of the `meta` part are kept under every other name. -/
theorem get?_metaFields_of_not_mem {board : Board} {name : String}
    (free : name ∉ board.computedMeta.map Prod.fst) :
    Fields.get? board.metaFields name = Fields.get? board.resources.metaEntries name := by
  rw [metaFields_eq, Fields.get?_setAll_eq_or, get?_ofEntries_writtenFields_of_not_mem free,
    Option.none_or]

/-- The `meta` part of a document hides a further entry of that name, and a further entry named `routes`
hides the routes. -/
theorem field?_document {board : Board} (distinct : (Fields.keys board.extra).Nodup) (name : String) :
    board.document.field? name =
      (if name = "meta" then some (.object board.metaFields) else none).or
        ((Fields.get? board.extra name).or
          (if name = "routes" then some (.array (routesToJson board.routes)) else none)) := by
  have parts : board.document =
      objectOf (optionalField "routes" (some (.array (routesToJson board.routes))) ++
        (board.extra ++ optionalField "meta" (some (.object board.metaFields)))) := rfl
  rw [parts, field?_objectOf, Fields.get?_ofEntries_append, Fields.get?_ofEntries_append,
    Fields.get?_ofEntries_of_nodup distinct, get?_ofEntries_optionalField,
    get?_ofEntries_optionalField, Option.or_assoc]

/-- The document of a board holds everything that is on it: the routes, the components and the functions in
their order, the resources where they are given, and every other entry of the document and of its `meta`
part. -/
structure IsShown (board : Board) : Prop where
  routes : board.document.field? "routes" = some (.array (routesToJson board.routes))
  others : ∀ name, name ≠ "routes" → name ≠ "meta" →
    board.document.field? name = Fields.get? board.extra name
  metaPart : ∃ part, board.document.field? "meta" = some (.object part) ∧
    Fields.get? part "customTemplates" = some (.array (board.components.map Component.toJson)) ∧
    Fields.get? part "functions" =
      some (.array ((Fields.values board.resources.functions).map FunctionResource.toJson)) ∧
    (∀ field ∈ [("menus", board.resources.menus), ("contracts", board.resources.contracts),
        ("i18n", board.resources.i18n)],
      Fields.get? part field.1 = field.2.or (Fields.get? board.resources.metaEntries field.1)) ∧
    ∀ name, name ∉ ["customTemplates", "functions", "menus", "contracts", "i18n"] →
      Fields.get? part name = Fields.get? board.resources.metaEntries name

/-- Everything on a board is in its document, but for the routes: they are if no further entry named
`routes` says otherwise. -/
theorem isShown_iff {board : Board} (distinct : (Fields.keys board.extra).Nodup) :
    board.IsShown ↔ ∀ given, Fields.get? board.extra "routes" = some given →
      given = .array (routesToJson board.routes) := by
  have routes_eq : board.document.field? "routes" =
      (Fields.get? board.extra "routes").or (some (.array (routesToJson board.routes))) := by
    rw [field?_document distinct, if_neg (by decide), if_pos rfl, Option.none_or]
  constructor
  · rintro ⟨routes, -, -⟩ given found
    rw [routes_eq, found, Option.some_or, Option.some.injEq] at routes
    exact routes
  intro agrees
  refine ⟨?_, fun name no_routes no_meta => ?_, board.metaFields, ?_, ?_, ?_, ?_, ?_⟩
  · rw [routes_eq]
    cases found : Fields.get? board.extra "routes" with
    | none => rfl
    | some given => rw [agrees given found, Option.some_or]
  · rw [field?_document distinct, if_neg no_meta, if_neg no_routes, Option.none_or, Option.or_none]
  · rw [field?_document distinct, if_pos rfl, Option.some_or]
  · exact @get?_metaFields_of_mem board _ List.mem_cons_self
  · exact get?_metaFields_of_mem (List.mem_cons_of_mem _ List.mem_cons_self)
  · exact fun field member =>
      get?_metaFields_of_mem (List.mem_cons_of_mem _ (List.mem_cons_of_mem _ member))
  · exact fun name free => get?_metaFields_of_not_mem free

/-- Whatever is pushed onto a board with its resources and further entries: results that are neither routes
nor components are handed back as they are, the others come onto the board in order, and everything on the
board is in its document exactly if no further entry named `routes` says otherwise than the routes do. -/
theorem pushAll_isShown_iff {resources : Resources} {extra : Fields Json}
    (distinct : (Fields.keys extra).Nodup) (values : List Lowered) :
    ∃ board : Board, pushAll { resources, extra } values = (board, values.filter Lowered.isRefused) ∧
      board = { resources, extra, routes := values.filterMap Lowered.route?,
                components := values.filterMap Lowered.component? } ∧
      (board.IsShown ↔ ∀ given, Fields.get? extra "routes" = some given →
        given = .array (routesToJson (values.filterMap Lowered.route?))) := by
  refine ⟨_, ?_, rfl, isShown_iff distinct⟩
  rw [pushAll_eq]
  rfl

end Board

/-- The route to an empty page. -/
def homeRoute : Route where
  config := [("path", .string "/")]
  body := .bricks []
  slot := none

/-- A component without bricks. -/
def bannerComponent : Component where
  config := [("name", .string "banner")]
  bricks := []

/-- A function and a menu, and own entries of which one has the name of the menus. -/
def pageResources : Resources where
  metaEntries := [("menus", .null), ("theme", .string "dark")]
  functions := [("f", { name := "f", isTyped := none, source := "1" })]
  menus := some (.array [])

/-- A text unit between a route and a component is handed back, and everything else is in the document. -/
theorem route_and_component_are_shown :
    ∃ board : Board,
      Board.pushAll { resources := pageResources, extra := [("app", .string "shop")] }
        [.descriptor (.route homeRoute), .descriptor (.brick (.ofText "new")),
          .component bannerComponent] =
        (board, [.descriptor (.brick (.ofText "new"))]) ∧
      board.routes = [homeRoute] ∧ board.components = [bannerComponent] ∧ board.IsShown := by
  have distinct : (Fields.keys [("app", Json.string "shop")]).Nodup := by decide
  obtain ⟨board, pushed, rfl, shown⟩ :=
    @Board.pushAll_isShown_iff pageResources _ distinct
      [.descriptor (.route homeRoute), .descriptor (.brick (.ofText "new")), .component bannerComponent]
  refine ⟨_, pushed, rfl, rfl, shown.mpr ?_⟩
  intro given found
  simp [Fields.get?] at found

/-- A further entry named `routes` takes the place of the route that was pushed. -/
theorem entry_named_routes_hides_route :
    ∃ board : Board,
      Board.pushAll { extra := [("routes", .ofNat 5)] } [.descriptor (.route homeRoute)] = (board, []) ∧
      board.routes = [homeRoute] ∧ board.document.field? "routes" = some (.ofNat 5) ∧
      ¬board.IsShown := by
  obtain ⟨board, pushed, routes, hidden⟩ : ∃ board : Board,
      Board.pushAll { extra := [("routes", .ofNat 5)] } [.descriptor (.route homeRoute)] = (board, []) ∧
        board.routes = [homeRoute] ∧ board.document.field? "routes" = some (.ofNat 5) :=
    ⟨_, rfl, rfl, rfl⟩
  refine ⟨board, pushed, routes, hidden, fun shown => ?_⟩
  have equal := hidden.symm.trans shown.routes
  simp [Json.ofNat] at equal

end Storyboard
