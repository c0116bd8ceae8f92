import Storyboard.Proofs.LoweringFailures
import Storyboard.Proofs.OwnFields

/-!
# What elements pass on

A route, a component and a control node use a few of their settings themselves and pass the others on. What
they pass on are exactly the settings under other names, in the order of their author and with their data as it
is; and what they hold are exactly the descriptors in the children that they use, in order.
-/

namespace Storyboard

/-! ## Settings under other names -/

/-- Removing a name leaves the entries under other names. -/
theorem Fields.erase_eq_filter {α : Type} {fields : Fields α} (distinct : (keys fields).Nodup) (key : String) :
    erase fields key = fields.filter fun entry => entry.1 ≠ key := by
  induction fields with
  | nil => rfl
  | cons entry rest ih =>
      obtain ⟨name, value⟩ := entry
      obtain ⟨fresh, distinct⟩ := List.nodup_cons.mp distinct
      by_cases same : name = key
      · subst same
        have others : ∀ entry ∈ rest, entry.1 ≠ name := fun entry member same =>
          fresh (List.mem_map.mpr ⟨entry, member, same⟩)
        rw [erase, beq_self_eq_true, if_pos rfl, List.filter_cons_of_neg (by simp)]
        exact (List.filter_eq_self.mpr fun entry member => decide_eq_true (others entry member)).symm
      · rw [erase, if_neg (by simpa using same), ih distinct, List.filter_cons_of_pos (by simpa using same)]

namespace Settings

/-- The settings under other names than the given ones, in order, as plain data. -/
def besides (settings : Settings) (used : List String) : Fields Json :=
  (settings.filter fun entry => entry.1 ∉ used).map fun entry => (entry.1, entry.2.toJson)

theorem toFields_eq_besides (settings : Settings) : settings.toFields = settings.besides [] := by
  rw [besides, List.filter_eq_self.mpr (by simp), toFields, Fields.mapValues]

/-- Removing one more name. -/
theorem besides_erase {settings : Settings} (distinct : (Fields.keys settings).Nodup) (key : String)
    (used : List String) :
    besides (Fields.erase settings key) used = settings.besides (key :: used) := by
  rw [besides, besides, Fields.erase_eq_filter distinct, List.filter_filter]
  congr 2
  funext entry
  simp [Bool.and_comm]

/-- Removing one name of settings that are passed on. -/
theorem toFields_erase {settings : Settings} (distinct : (Fields.keys settings).Nodup) (key : String) :
    toFields (Fields.erase settings key) = settings.besides [key] := by
  rw [toFields_eq_besides, besides_erase distinct]

theorem toFields_erase_erase {settings : Settings} (distinct : (Fields.keys settings).Nodup) (first last : String) :
    toFields (Fields.erase (Fields.erase settings first) last) = settings.besides [first, last] := by
  rw [toFields_erase (Fields.nodup_keys_erase distinct first), besides_erase distinct]

end Settings

/-! ## What elements hold -/

theorem routesOnly_eq_ok_iff {descriptors : List Descriptor} {routes : List Route} :
    routesOnly descriptors = .ok routes ↔ routes.map .route = descriptors := by
  refine ⟨map_route_of_routesOnly, ?_⟩
  rintro rfl
  induction routes with
  | nil => rfl
  | cons route routes ih =>
      rw [List.map_cons, routesOnly, ih]
      rfl

theorem bind_pure_eq_ok_iff {ε α β : Type} {first : Except ε α} {make : α → β} {result : β} :
    (first >>= fun value => pure (make value)) = .ok result ↔ ∃ value, first = .ok value ∧ result = make value := by
  cases first with
  | error error => simp [bind, Except.bind]
  | ok value => simp [bind, Except.bind, pure, Except.pure, eq_comm]

theorem Child.flatten_bind_eq_ok_iff {α : Type} {child : Child} {next : List Descriptor → Except LowerError α}
    {value : α} :
    child.flatten >>= next = .ok value ↔ ¬child.HoldsComponent ∧ next child.leaves = .ok value := by
  rcases child.flatten_cases with ⟨holds, refused⟩ | ⟨free, flattened⟩
  · simp [holds, refused, bind, Except.bind]
  · simp [free, flattened, bind, Except.bind]

/-- What a route leads to by its type, and the names of the settings that it uses. -/
inductive RouteBody.IsGiven (settings : Settings) : List String → RouteBody → Prop
  /-- A redirection holds nothing. -/
  | redirect (leads : settings.routeType? = some "redirect") : IsGiven settings ["slot"] .redirect
  /-- Further routes are the descriptors in the children, which have to be routes. -/
  | routes {routes : List Route} (leads : settings.routeType? = some "routes")
      (free : ¬(settings.childAt "children").HoldsComponent)
      (contents : routes.map .route = (settings.childAt "children").leaves) :
      IsGiven settings ["slot", "children"] (.routes routes)
  /-- With any other type or none, a route holds the descriptors in its view. -/
  | view (no_redirect : settings.routeType? ≠ some "redirect") (no_routes : settings.routeType? ≠ some "routes")
      (free : ¬(settings.childAt "view").HoldsComponent) :
      IsGiven settings ["slot", "view"] (.bricks (settings.childAt "view").leaves)

/-- A route passes on the settings that it does not use, and asks for the slot that it is given. -/
def Route.IsGiven (route : Route) (settings : Settings) : Prop :=
  ∃ used, route.body.IsGiven settings used ∧ route.config = settings.besides used ∧ route.slot = settings.slot?

/-- A component passes on all settings but its children, and consists of the descriptors in these. -/
structure Component.IsGiven (component : Component) (settings : Settings) : Prop where
  config : component.config = settings.besides ["children"]
  free : ¬(settings.childAt "children").HoldsComponent
  bricks : component.bricks = (settings.childAt "children").leaves

/-- A control node passes on the settings that it does not use, and its slots group the descriptors in its
children. -/
structure Brick.IsGivenControl (brick : Brick) (settings : Settings) : Prop where
  config : brick.config = settings.besides ["children", "value", "slot"]
  properties : brick.properties = none
  dataSource : brick.dataSource = (Fields.get? settings "value").map Setting.toJson
  slot : brick.slot = settings.slot?
  free : ¬(settings.childAt "children").HoldsComponent
  contents : ∃ slots, brick.slots = some slots ∧ IsGrouping (settings.childAt "children").leaves slots

section
variable {settings : Settings}

theorem lowerComponent_eq_ok_iff (distinct : (Fields.keys settings).Nodup) {component : Component} :
    lowerComponent settings = .ok component ↔ component.IsGiven settings := by
  obtain ⟨config, bricks⟩ := component
  rw [lowerComponent, Child.flatten_bind_eq_ok_iff, Settings.toFields_erase distinct]
  constructor
  · rintro ⟨free, made⟩
    cases made
    exact ⟨rfl, free, rfl⟩
  · rintro ⟨same, free, held⟩
    cases same
    cases held
    exact ⟨free, rfl⟩

theorem lowerControl_eq (distinct : (Fields.keys settings).Nodup) (name : String) :
    lowerControl name settings =
      ((settings.childAt "children").flatten >>= fun flat => groupBySlot flat >>= fun slots =>
        pure { name, properties := none, dataSource := (Fields.get? settings "value").map Setting.toJson,
               slots := some slots, slot := settings.slot?,
               config := settings.besides ["children", "value", "slot"] }) := by
  have distinct_rest := Fields.nodup_keys_erase distinct "children"
  rw [← Settings.besides_erase distinct, ← Settings.toFields_erase_erase distinct_rest]
  rfl

theorem lowerControl_eq_ok_iff (distinct : (Fields.keys settings).Nodup) {name : String} {brick : Brick} :
    lowerControl name settings = .ok brick ↔ brick.name = name ∧ brick.IsGivenControl settings := by
  obtain ⟨own, properties, dataSource, slots?, slot, config⟩ := brick
  rw [lowerControl_eq distinct, Child.flatten_bind_eq_ok_iff]
  constructor
  · rintro ⟨free, made⟩
    obtain ⟨slots, grouped, made⟩ := exists_of_bind_eq_ok made
    cases made
    exact ⟨rfl, rfl, rfl, rfl, rfl, free, slots, rfl, groupBySlot_eq_ok_iff.mp grouped⟩
  · rintro ⟨rfl, same, no_properties, source, asked, free, slots, placed, grouping⟩
    cases same
    cases no_properties
    cases source
    cases asked
    cases placed
    rw [groupBySlot_eq_ok_iff.mpr grouping]
    exact ⟨free, rfl⟩

theorem lowerRoute_eq_ok_iff (distinct : (Fields.keys settings).Nodup) {route : Route} :
    lowerRoute settings = .ok route ↔ route.IsGiven settings := by
  obtain ⟨config, body, slot⟩ := route
  have kept : ∀ key, key ≠ "slot" →
      Settings.childAt (Fields.erase settings "slot") key = settings.childAt key := fun key apart => by
    rw [Settings.childAt, Fields.get?_erase_of_ne _ apart, Settings.childAt]
  rw [lowerRoute]
  split
  · rename_i leads
    rw [Settings.toFields_erase distinct]
    constructor
    · intro made
      cases made
      exact ⟨_, .redirect leads, rfl, rfl⟩
    · rintro ⟨used, given, same, asked⟩
      cases given with
      | redirect _ =>
          cases same
          cases asked
          rfl
      | routes other _ _ => simp [Settings.routeType?, leads] at other
      | view other _ _ => exact absurd leads other
  · rename_i leads
    rw [kept _ (by decide), Child.flatten_bind_eq_ok_iff, Settings.toFields_erase_erase distinct]
    constructor
    · rintro ⟨free, made⟩
      obtain ⟨routes, held, made⟩ := exists_of_bind_eq_ok made
      cases made
      exact ⟨_, .routes leads free (routesOnly_eq_ok_iff.mp held), rfl, rfl⟩
    · rintro ⟨used, given, same, asked⟩
      cases given with
      | redirect other => simp [Settings.routeType?, leads] at other
      | routes _ free contents =>
          cases same
          cases asked
          rw [routesOnly_eq_ok_iff.mpr contents]
          exact ⟨free, rfl⟩
      | view _ other _ => exact absurd leads other
  · rename_i no_redirect no_routes
    rw [kept _ (by decide), Child.flatten_bind_eq_ok_iff, Settings.toFields_erase_erase distinct]
    constructor
    · rintro ⟨free, made⟩
      cases made
      exact ⟨_, .view no_redirect no_routes free, rfl, rfl⟩
    · rintro ⟨used, given, same, asked⟩
      cases given with
      | redirect other => exact absurd other no_redirect
      | routes other _ _ => exact absurd other no_routes
      | view _ _ free =>
          cases same
          cases asked
          exact ⟨free, rfl⟩

end

/-- An element that is lowered passes on its settings under other names than those that it uses, in order and as
they are, and holds exactly the descriptors in the children that it uses: a route by its type, a component, and
a control node in the slots that these descriptors ask for. -/
theorem elements_pass_on_other_settings (entries : List (String × Setting)) (result : Lowered) :
    (lower .route (.ofEntries entries) = .ok result ↔
      ∃ route : Route, result = .descriptor (.route route) ∧ route.IsGiven (.ofEntries entries)) ∧
    (lower .component (.ofEntries entries) = .ok result ↔
      ∃ component : Component, result = .component component ∧ component.IsGiven (.ofEntries entries)) ∧
    ∀ kind : ElementKind, kind.IsControl →
      (lower kind (.ofEntries entries) = .ok result ↔
        ∃ brick : Brick, result = .descriptor (.brick brick) ∧ kind.brickName? = some brick.name ∧
          brick.IsGivenControl (.ofEntries entries)) := by
  have distinct := Fields.nodup_keys_ofEntries entries
  generalize Fields.ofEntries entries = settings at distinct
  refine ⟨?_, ?_, fun kind control => ?_⟩
  · rw [lower, bind_pure_eq_ok_iff]
    simp only [lowerRoute_eq_ok_iff distinct, and_comm]
  · rw [lower, bind_pure_eq_ok_iff]
    simp only [lowerComponent_eq_ok_iff distinct, and_comm]
  · cases kind with
    | forEach | conditional | switch =>
        rw [lower, bind_pure_eq_ok_iff]
        simp only [lowerControl_eq_ok_iff distinct, ElementKind.brickName?, Option.some.injEq, eq_comm, and_comm,
          and_assoc]
    | _ => exact control.elim

/-- Settings of a loop among which two are for others to read: a part of the element tree and a condition. -/
def loopSettings : List (String × Setting) :=
  [("portal", .tree (.text "b")), ("value", .data (.array [])), ("children", .tree (.list [.text "a", .empty])),
    ("slot", .data (.string "toolbar")), ("if", .data (.bool false))]

/-- A loop passes on the two as data and in their order, and places the one text that it holds. -/
theorem loop_passes_on_other_settings :
    ElementKind.forEach.IsControl ∧
      ∃ brick : Brick, lower .forEach (.ofEntries loopSettings) = .ok (.descriptor (.brick brick)) ∧
        brick.config = [("portal", .string "b"), ("if", .bool false)] ∧
        brick.slots = some [("", .bricks [.brick (.ofText "a")])] ∧
        brick.IsGivenControl (.ofEntries loopSettings) := by
  let brick : Brick :=
    { name := ":forEach", properties := none, dataSource := some (.array []),
      slots := some [("", .bricks [.brick (.ofText "a")])], slot := some "toolbar",
      config := [("portal", .string "b"), ("if", .bool false)] }
  have lowered : lower .forEach (.ofEntries loopSettings) = .ok (.descriptor (.brick brick)) := rfl
  have passed := (elements_pass_on_other_settings loopSettings (.descriptor (.brick brick))).2.2 .forEach trivial
  obtain ⟨other, same, -, given⟩ := passed.mp lowered
  cases same
  exact ⟨trivial, brick, lowered, rfl, rfl, given⟩

end Storyboard
