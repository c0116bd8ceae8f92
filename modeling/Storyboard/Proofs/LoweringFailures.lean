import Storyboard.Proofs.ElementSettings
import Storyboard.Proofs.SlotGrouping

/-!
# When lowering fails

Each kind of element has its own rules. A plain element refuses names in unknown namespaces before it looks at
its children; a component definition among children is refused before anything is placed; and what is placed in
slots, or taken for routes, has to be of one kind. Nothing else fails.
-/

namespace Storyboard

theorem bind_eq_error_iff {ε α β : Type} {first : Except ε α} {next : α → Except ε β} {error : ε} :
    first >>= next = .error error ↔
      first = .error error ∨ ∃ value, first = .ok value ∧ next value = .error error := by
  cases first with
  | error other => simp [bind, Except.bind]
  | ok value => simp [bind, Except.bind]

/-! ## Children -/

namespace Child

/-- A component definition is the child or stands in it, at any depth of lists. -/
inductive HoldsComponent : Child → Prop
  | self (component : Component) : HoldsComponent (.lowered (.component component))
  | inside {items : List Child} {item : Child} : item ∈ items → HoldsComponent item → HoldsComponent (.list items)

mutual

/-- The descriptors in a child, in order. -/
def leaves : Child → List Descriptor
  | .empty => []
  | .text content => [.brick (.ofText content)]
  | .lowered result => result.contents
  | .list items => leavesOfItems items

/-- The descriptors in children, in order. -/
def leavesOfItems : List Child → List Descriptor
  | [] => []
  | item :: rest => leaves item ++ leavesOfItems rest

end

mutual

/-- A child with a component definition in it is refused, any other is flattened. -/
theorem flatten_cases : (child : Child) →
    (child.HoldsComponent ∧ child.flatten = .error .componentChild) ∨
      (¬child.HoldsComponent ∧ child.flatten = .ok child.leaves)
  | .empty => .inr ⟨nofun, rfl⟩
  | .text _ => .inr ⟨nofun, rfl⟩
  | .lowered (.descriptor _) => .inr ⟨nofun, rfl⟩
  | .lowered (.fragment _) => .inr ⟨nofun, rfl⟩
  | .lowered (.component component) => .inl ⟨.self component, rfl⟩
  | .list items => by
      rw [flatten, leaves]
      rcases flattenItems_cases items with ⟨⟨item, member, holds⟩, refused⟩ | ⟨free, flat⟩
      · exact .inl ⟨.inside member holds, refused⟩
      · refine .inr ⟨?_, flat⟩
        rintro (_ | ⟨member, holds⟩)
        exact free _ member holds

theorem flattenItems_cases : (items : List Child) →
    ((∃ item ∈ items, item.HoldsComponent) ∧ flattenItems items = .error .componentChild) ∨
      ((∀ item ∈ items, ¬item.HoldsComponent) ∧ flattenItems items = .ok (leavesOfItems items))
  | [] => .inr ⟨nofun, rfl⟩
  | item :: rest => by
      rw [flattenItems, leavesOfItems]
      rcases flatten_cases item with ⟨holds, refused⟩ | ⟨free, flat⟩
      · rw [refused]
        exact .inl ⟨⟨item, List.mem_cons_self, holds⟩, rfl⟩
      · rw [flat]
        rcases flattenItems_cases rest with ⟨⟨other, member, holds⟩, refused⟩ | ⟨rest_free, rest_flat⟩
        · rw [refused]
          exact .inl ⟨⟨other, List.mem_cons_of_mem _ member, holds⟩, rfl⟩
        · rw [rest_flat]
          exact .inr ⟨List.forall_mem_cons.mpr ⟨free, rest_free⟩, rfl⟩

end

theorem flatten_eq_ok_iff {child : Child} {flat : List Descriptor} :
    child.flatten = .ok flat ↔ ¬child.HoldsComponent ∧ child.leaves = flat := by
  rcases child.flatten_cases with ⟨holds, refused⟩ | ⟨free, flattened⟩
  · simp [holds, refused]
  · simp [free, flattened]

theorem flatten_eq_error_iff {child : Child} {error : LowerError} :
    child.flatten = .error error ↔ child.HoldsComponent ∧ error = .componentChild := by
  rcases child.flatten_cases with ⟨holds, refused⟩ | ⟨free, flattened⟩
  · simp [holds, refused, eq_comm]
  · simp [free, flattened]

/-- Why a child can not be placed in slots: it holds a component definition, or else two of its descriptors ask
for one slot and differ in kind. -/
inductive FailsInSlots (child : Child) : LowerError → Prop
  | component (holds : child.HoldsComponent) : FailsInSlots child .componentChild
  | mixed {slot : String} (free : ¬child.HoldsComponent) (first : FirstMisfit child.leaves slot) :
      FailsInSlots child (.mixedSlot slot)

/-- Why a child can not be taken for routes: it holds a component definition, or else a descriptor that is no
route. -/
inductive FailsAsRoutes (child : Child) : LowerError → Prop
  | component (holds : child.HoldsComponent) : FailsAsRoutes child .componentChild
  | other {descriptor : Descriptor} (free : ¬child.HoldsComponent) (member : descriptor ∈ child.leaves)
      (no_route : descriptor.slotKind ≠ .routes) : FailsAsRoutes child .nonRouteChild

theorem flatten_groupBySlot_eq_error_iff {child : Child} {error : LowerError} :
    child.flatten >>= groupBySlot = .error error ↔ child.FailsInSlots error := by
  rw [bind_eq_error_iff, flatten_eq_error_iff]
  constructor
  · rintro (⟨holds, rfl⟩ | ⟨flat, flattened, refused⟩)
    · exact .component holds
    · obtain ⟨free, rfl⟩ := flatten_eq_ok_iff.mp flattened
      obtain ⟨slot, first, rfl⟩ := groupBySlot_eq_error_iff.mp refused
      exact .mixed free first
  · rintro (holds | ⟨free, first⟩)
    · exact .inl ⟨holds, rfl⟩
    · exact .inr ⟨_, flatten_eq_ok_iff.mpr ⟨free, rfl⟩, groupBySlot_eq_error_iff.mpr ⟨_, first, rfl⟩⟩

end Child

theorem routesOnly_eq_error_iff {descriptors : List Descriptor} {error : LowerError} :
    routesOnly descriptors = .error error ↔
      (∃ d ∈ descriptors, d.slotKind ≠ .routes) ∧ error = .nonRouteChild := by
  induction descriptors with
  | nil => simp [routesOnly]
  | cons descriptor rest ih =>
      cases descriptor with
      | route route =>
          rw [routesOnly, bind_eq_error_iff, ih]
          simp [Descriptor.slotKind, pure, Except.pure]
      | brick brick => simp [routesOnly, Descriptor.slotKind, eq_comm]
      | raw value => simp [routesOnly, Descriptor.slotKind, eq_comm]

theorem Child.flatten_routesOnly_eq_error_iff {child : Child} {error : LowerError} :
    child.flatten >>= routesOnly = .error error ↔ child.FailsAsRoutes error := by
  rw [bind_eq_error_iff, flatten_eq_error_iff]
  constructor
  · rintro (⟨holds, rfl⟩ | ⟨flat, flattened, refused⟩)
    · exact .component holds
    · obtain ⟨free, rfl⟩ := flatten_eq_ok_iff.mp flattened
      obtain ⟨⟨descriptor, member, no_route⟩, rfl⟩ := routesOnly_eq_error_iff.mp refused
      exact .other free member no_route
  · rintro (holds | ⟨free, member, no_route⟩)
    · exact .inl ⟨holds, rfl⟩
    · exact .inr ⟨_, flatten_eq_ok_iff.mpr ⟨free, rfl⟩, routesOnly_eq_error_iff.mpr ⟨⟨_, member, no_route⟩, rfl⟩⟩

/-! ## Elements -/

/-- A control node. -/
def ElementKind.IsControl : ElementKind → Prop
  | .forEach | .conditional | .switch => True
  | _ => False

/-- The type that the settings of a route name. -/
def Settings.routeType? (settings : Settings) : Option String :=
  (Fields.get? settings "type").bind Setting.asString?

/-- The rules by which elements fail, for each kind of element. -/
inductive ElementKind.Fails (settings : Settings) : ElementKind → LowerError → Prop
  /-- A plain element refuses the first name in an unknown namespace. -/
  | unknownName {kind : ElementKind} {entry : String × Setting} (plain : kind.IsPlain)
      (first : (settings.find? fun entry => hasUnknownNamespace entry.1) = some entry) :
      Fails settings kind (.unsupportedNamespace entry.1)
  /-- If there is none, it places children that are present and no text. -/
  | contents {kind : ElementKind} {given : Setting} {error : LowerError} (plain : kind.IsPlain)
      (known : ∀ entry ∈ settings, hasUnknownNamespace entry.1 = false)
      (children : Fields.get? settings "children" = some given) (truthy : given.isTruthy = true)
      (no_text : given.asString? = none) (fails : given.toChild.FailsInSlots error) :
      Fails settings kind error
  /-- A control node always places its children. -/
  | control {kind : ElementKind} {error : LowerError} (control : kind.IsControl)
      (fails : (settings.childAt "children").FailsInSlots error) : Fails settings kind error
  /-- A fragment and a component take any children but component definitions. -/
  | definition {kind : ElementKind} (takes : kind = .fragment ∨ kind = .component)
      (holds : (settings.childAt "children").HoldsComponent) : Fails settings kind .componentChild
  /-- A route that leads to further routes takes routes only. -/
  | routes {error : LowerError} (leads : settings.routeType? = some "routes")
      (fails : (settings.childAt "children").FailsAsRoutes error) : Fails settings .route error
  /-- A route that does not lead to another place has a view without component definitions. -/
  | view (no_routes : settings.routeType? ≠ some "routes") (no_redirect : settings.routeType? ≠ some "redirect")
      (holds : (settings.childAt "view").HoldsComponent) : Fails settings .route .componentChild

namespace ElementKind

variable {kind : ElementKind} {settings : Settings} {error : LowerError}

theorem IsPlain.not_isControl (plain : kind.IsPlain) : ¬kind.IsControl := by
  cases kind with
  | tag name => exact id
  | reference name => exact id
  | _ => exact plain.elim

/-- The rules for plain elements. -/
theorem fails_iff_of_isPlain (plain : kind.IsPlain) :
    kind.Fails settings error ↔
      (∃ entry, (settings.find? fun entry => hasUnknownNamespace entry.1) = some entry ∧
        error = .unsupportedNamespace entry.1) ∨
      ((settings.find? fun entry => hasUnknownNamespace entry.1) = none ∧
        ∃ given, Fields.get? settings "children" = some given ∧ given.isTruthy = true ∧ given.asString? = none ∧
          given.toChild.FailsInSlots error) := by
  have known_iff : (settings.find? fun entry => hasUnknownNamespace entry.1) = none ↔
      ∀ entry ∈ settings, hasUnknownNamespace entry.1 = false := by simp
  rw [known_iff]
  constructor
  · intro fails
    cases fails with
    | unknownName _ first => exact .inl ⟨_, first, rfl⟩
    | contents _ known children truthy no_text fails => exact .inr ⟨known, _, children, truthy, no_text, fails⟩
    | control control _ => exact absurd control plain.not_isControl
    | definition takes _ => rcases takes with rfl | rfl <;> exact plain.elim
    | routes _ _ => exact plain.elim
    | view _ _ _ => exact plain.elim
  · rintro (⟨entry, first, rfl⟩ | ⟨known, given, children, truthy, no_text, fails⟩)
    · exact .unknownName plain first
    · exact .contents plain known children truthy no_text fails

/-- The rule for control nodes. -/
theorem fails_iff_of_isControl (control : kind.IsControl) :
    kind.Fails settings error ↔ (settings.childAt "children").FailsInSlots error := by
  refine ⟨fun fails => ?_, .control control⟩
  cases fails with
  | unknownName plain _ => exact absurd control plain.not_isControl
  | contents plain _ _ _ _ _ => exact absurd control plain.not_isControl
  | control _ fails => exact fails
  | definition takes _ => rcases takes with rfl | rfl <;> exact control.elim
  | routes _ _ => exact control.elim
  | view _ _ _ => exact control.elim

/-- The rule for fragments and components. -/
theorem fails_iff_of_definition (takes : kind = .fragment ∨ kind = .component) :
    kind.Fails settings error ↔ (settings.childAt "children").HoldsComponent ∧ error = .componentChild := by
  constructor
  · intro fails
    cases fails with
    | unknownName plain _ => rcases takes with rfl | rfl <;> exact plain.elim
    | contents plain _ _ _ _ _ => rcases takes with rfl | rfl <;> exact plain.elim
    | control control _ => rcases takes with rfl | rfl <;> exact control.elim
    | definition _ holds => exact ⟨holds, rfl⟩
    | routes _ _ => simp at takes
    | view _ _ _ => simp at takes
  · rintro ⟨holds, rfl⟩
    exact .definition takes holds

/-- The rules for routes. -/
theorem fails_route_iff :
    ElementKind.route.Fails settings error ↔
      settings.routeType? = some "routes" ∧ (settings.childAt "children").FailsAsRoutes error ∨
      settings.routeType? ≠ some "routes" ∧ settings.routeType? ≠ some "redirect" ∧
        (settings.childAt "view").HoldsComponent ∧ error = .componentChild := by
  constructor
  · intro fails
    cases fails with
    | unknownName plain _ => exact plain.elim
    | contents plain _ _ _ _ _ => exact plain.elim
    | control control _ => exact control.elim
    | definition takes _ => simp at takes
    | routes leads fails => exact .inl ⟨leads, fails⟩
    | view no_routes no_redirect holds => exact .inr ⟨no_routes, no_redirect, holds, rfl⟩
  · rintro (⟨leads, fails⟩ | ⟨no_routes, no_redirect, holds, rfl⟩)
    · exact .routes leads fails
    · exact .view no_routes no_redirect holds

theorem not_fails_legacyTemplate : ¬ElementKind.legacyTemplate.Fails settings error := by
  intro fails
  cases fails with
  | unknownName plain _ => exact plain
  | contents plain _ _ _ _ _ => exact plain
  | control control _ => exact control
  | definition takes _ => simp at takes

end ElementKind

/-! ## Lowering -/

theorem bind_pure_eq_error_iff {ε α β : Type} {first : Except ε α} {make : α → β} {error : ε} :
    (first >>= fun value => pure (make value)) = .error error ↔ first = .error error := by
  simp [bind_eq_error_iff, pure, Except.pure]

theorem attachChildren_eq_error_iff (properties : Fields Json) {children : Option Setting} {error : LowerError} :
    attachChildren properties children = .error error ↔
      ∃ given, children = some given ∧ given.isTruthy = true ∧ given.asString? = none ∧
        given.toChild.FailsInSlots error := by
  cases children with
  | none => simp [attachChildren]
  | some given =>
      simp only [Option.some.injEq, exists_eq_left']
      rw [attachChildren_eq, ← Child.flatten_groupBySlot_eq_error_iff]
      cases given.isTruthy with
      | false => simp
      | true =>
          cases given.asString? with
          | some text => simp
          | none =>
              rw [if_pos rfl, ← bind_assoc, bind_pure_eq_error_iff]
              simp

theorem lowerElement_eq_error_iff {kind : ElementKind} (plain : kind.IsPlain) (name : String)
    {settings : Settings} (distinct : (Fields.keys settings).Nodup) {error : LowerError} :
    lowerElement name settings = .error error ↔ kind.Fails settings error := by
  rw [lowerElement_eq name distinct, ElementKind.fails_iff_of_isPlain plain]
  cases settings.find? fun entry => hasUnknownNamespace entry.1 with
  | some entry =>
      simp only [Except.error.injEq, Option.some.injEq, exists_eq_left', reduceCtorEq, false_and, or_false]
      exact eq_comm
  | none =>
      simp only [reduceCtorEq, false_and, exists_false, true_and, false_or]
      rw [← attachChildren_eq_error_iff (Fields.ofEntries (settings.given propertyName?))]
      exact bind_pure_eq_error_iff

theorem lowerControl_eq_error_iff {name : String} {settings : Settings} {error : LowerError} :
    lowerControl name settings = .error error ↔ (settings.childAt "children").FailsInSlots error := by
  rw [lowerControl, ← bind_assoc, bind_pure_eq_error_iff, Child.flatten_groupBySlot_eq_error_iff]

theorem lowerRoute_eq_error_iff {settings : Settings} {error : LowerError} :
    lowerRoute settings = .error error ↔ ElementKind.route.Fails settings error := by
  have kept : ∀ key, key ≠ "slot" →
      Settings.childAt (Fields.erase settings "slot") key = settings.childAt key := fun key apart => by
    rw [Settings.childAt, Fields.get?_erase_of_ne _ apart, Settings.childAt]
  rw [ElementKind.fails_route_iff, lowerRoute, Settings.routeType?]
  split
  · rename_i redirect
    simp [redirect, pure, Except.pure]
  · rename_i leads
    rw [← bind_assoc, bind_pure_eq_error_iff, kept _ (by decide), Child.flatten_routesOnly_eq_error_iff]
    simp [leads]
  · rename_i no_redirect no_routes
    rw [bind_pure_eq_error_iff, kept _ (by decide), Child.flatten_eq_error_iff]
    constructor
    · exact fun view => .inr ⟨no_routes, no_redirect, view⟩
    · rintro (⟨leads, -⟩ | ⟨-, -, view⟩)
      · exact absurd leads no_routes
      · exact view

/-- Lowering fails exactly by the rules for the kind of the element, and with the failure that they give; in
every other case it succeeds. -/
theorem lower_fails_exactly_by_rules (kind : ElementKind) (entries : List (String × Setting)) :
    (∀ error, lower kind (.ofEntries entries) = .error error ↔ kind.Fails (.ofEntries entries) error) ∧
      ((∃ value, lower kind (.ofEntries entries) = .ok value) ↔ ∀ error, ¬kind.Fails (.ofEntries entries) error) := by
  have exactly : ∀ error, lower kind (.ofEntries entries) = .error error ↔
      kind.Fails (.ofEntries entries) error := by
    intro error
    have distinct := Fields.nodup_keys_ofEntries entries
    generalize Fields.ofEntries entries = settings at distinct
    cases kind with
    | fragment =>
        rw [ElementKind.fails_iff_of_definition (.inl rfl), ← Child.flatten_eq_error_iff]
        simp only [lower, lowerFragment, Child.flattenInto, bind_pure_eq_error_iff]
    | route => rw [lower, bind_pure_eq_error_iff, lowerRoute_eq_error_iff]
    | component =>
        rw [ElementKind.fails_iff_of_definition (.inr rfl), ← Child.flatten_eq_error_iff]
        simp only [lower, lowerComponent, bind_pure_eq_error_iff]
    | legacyTemplate => simp [lower, ElementKind.not_fails_legacyTemplate, pure, Except.pure]
    | tag name =>
        have plain : (ElementKind.tag name).IsPlain := trivial
        rw [lower, bind_pure_eq_error_iff, lowerElement_eq_error_iff plain _ distinct]
    | reference name =>
        have plain : (ElementKind.reference name).IsPlain := trivial
        rw [lower, bind_pure_eq_error_iff, lowerElement_eq_error_iff plain _ distinct]
    | forEach | conditional | switch =>
        refine Iff.trans ?_ (ElementKind.fails_iff_of_isControl ?_).symm
        · rw [lower, bind_pure_eq_error_iff, lowerControl_eq_error_iff]
        · trivial
  refine ⟨exactly, ?_⟩
  cases lowered : lower kind (.ofEntries entries) with
  | ok value => simp [← exactly, lowered]
  | error error => simpa [lowered] using ⟨error, (exactly error).mp lowered⟩

/-- A box with a component definition in its children and a name in an unknown namespace after them. -/
def refusedSettings : List (String × Setting) :=
  [("children", .tree (.list [.text "a", .lowered (.component ⟨[], []⟩)])), ("on:click", .data .null)]

/-- The name is refused before the children are looked at, and a loop with these settings refuses the children. -/
theorem unknown_name_is_refused_before_children :
    (ElementKind.tag "eo_box").Fails (.ofEntries refusedSettings) (.unsupportedNamespace "on:click") ∧
      ¬(ElementKind.tag "eo_box").Fails (.ofEntries refusedSettings) .componentChild ∧
      ElementKind.forEach.Fails (.ofEntries refusedSettings) .componentChild := by
  have refused : lower (.tag "eo_box") (.ofEntries refusedSettings) = .error (.unsupportedNamespace "on:click") := rfl
  have box := (lower_fails_exactly_by_rules (.tag "eo_box") refusedSettings).1
  refine ⟨(box _).mp refused, ?_, ((lower_fails_exactly_by_rules .forEach refusedSettings).1 _).mp rfl⟩
  rw [← box, refused]
  simp

end Storyboard
