import Storyboard.Proofs.SlotContents

/-!
# The own fields of a document form

A brick, a route and a component each write some fields of their own: what they are, what they hold and
where they go. The settings that an element passes on are written into the same object. A route and a
component write their own fields last, so such a setting can at most stand in for a field that they lack.
A brick writes them first, so a setting under one of their names takes the place of the field.
-/

namespace Storyboard

/-! ## Fields and settings in one object -/

/-- The entries that fields write, each if it has a value. -/
def writtenFields (fields : List (String × Option Json)) : List (String × Json) :=
  fields.flatMap fun field => optionalField field.1 field.2

theorem get?_ofEntries_optionalField (name other : String) (value? : Option Json) :
    Fields.get? (.ofEntries (optionalField name value?)) other = if other = name then value? else none := by
  cases value? with
  | none => simp [optionalField, Fields.ofEntries, Fields.setAll, Fields.get?]
  | some value =>
      by_cases same : other = name
      · subst same
        simp [optionalField, Fields.ofEntries, Fields.setAll, Fields.get?_set_self]
      · simp [optionalField, Fields.ofEntries, Fields.setAll, Fields.get?_set_of_ne _ _ same, same,
          Fields.get?]

theorem get?_ofEntries_writtenFields_of_not_mem {fields : List (String × Option Json)} {name : String}
    (fresh : name ∉ fields.map Prod.fst) : Fields.get? (.ofEntries (writtenFields fields)) name = none := by
  induction fields with
  | nil => rfl
  | cons field rest ih =>
      rw [List.map_cons, List.mem_cons, not_or] at fresh
      rw [writtenFields, List.flatMap_cons, Fields.get?_ofEntries_append, ← writtenFields, ih fresh.2,
        get?_ofEntries_optionalField, if_neg fresh.1, Option.or_none]

/-- Fields with distinct names are read back as they were written. -/
theorem get?_ofEntries_writtenFields {fields : List (String × Option Json)}
    (distinct : (fields.map Prod.fst).Nodup) {field : String × Option Json} (member : field ∈ fields) :
    Fields.get? (.ofEntries (writtenFields fields)) field.1 = field.2 := by
  induction fields with
  | nil => simp at member
  | cons first rest ih =>
      rw [List.map_cons, List.nodup_cons] at distinct
      rw [writtenFields, List.flatMap_cons, Fields.get?_ofEntries_append, ← writtenFields,
        get?_ofEntries_optionalField]
      rcases List.mem_cons.mp member with rfl | later
      · rw [get?_ofEntries_writtenFields_of_not_mem distinct.1, if_pos rfl, Option.none_or]
      · have apart : field.1 ≠ first.1 := fun same =>
          distinct.1 (same ▸ List.mem_map_of_mem later)
        rw [ih distinct.2 later, if_neg apart, Option.or_none]

/-! ## Own fields -/

/-- The fields that a brick writes of its own, each with its value if it has one. -/
def Brick.ownFields (brick : Brick) : List (String × Option Json) :=
  [("brick", some (.string brick.name)), ("properties", brick.properties.map .object),
    ("dataSource", brick.dataSource), ("slots", brick.slots.map slotsJson),
    ("slot", brick.slot.map .string)]

/-- The routes that a route leads to, in their document form. -/
def RouteBody.routesJson? : RouteBody → Option Json
  | .routes rs => some (.array (routesToJson rs))
  | _ => none

/-- The bricks that a route leads to, in their document form. -/
def RouteBody.bricksJson? : RouteBody → Option Json
  | .bricks bs => some (.array (bricksToJson bs))
  | _ => none

/-- The fields that a route writes of its own: of the two bodies at most one has a value. -/
def Route.ownFields (route : Route) : List (String × Option Json) :=
  [("routes", route.body.routesJson?), ("bricks", route.body.bricksJson?),
    ("slot", route.slot.map .string)]

/-- The field that a component writes of its own. -/
def Component.ownFields (component : Component) : List (String × Option Json) :=
  [("bricks", some (.array (bricksToJson component.bricks)))]

/-- The own fields of the result of an element construction; a fragment is no object, and data that is
carried as it is has none of its own. -/
def Lowered.ownFields : Lowered → List (String × Option Json)
  | .descriptor (.brick brick) => brick.ownFields
  | .descriptor (.route route) => route.ownFields
  | .component c => c.ownFields
  | _ => []

/-- The document form of a result has every own field that has a value, with that value, and none of the
others. -/
def Lowered.ShowsOwnFields (value : Lowered) : Prop :=
  ∀ field ∈ value.ownFields, value.toJson.field? field.1 = field.2

theorem field?_objectOf (entries : List (String × Json)) (name : String) :
    (objectOf entries).field? name = Fields.get? (.ofEntries entries) name := rfl

theorem Brick.toJson_eq (brick : Brick) :
    brick.toJson = objectOf (writtenFields brick.ownFields ++ brick.config) := by
  obtain ⟨name, properties, dataSource, slots, slot, config⟩ := brick
  cases slots <;> simp [Brick.toJson, ownFields, writtenFields, slotsField, slotsJson, optionalField]

theorem Route.toJson_eq (route : Route) :
    route.toJson = objectOf (route.config ++ writtenFields route.ownFields) := by
  obtain ⟨config, body, slot⟩ := route
  cases body <;>
    simp [Route.toJson, ownFields, writtenFields, RouteBody.entries, RouteBody.routesJson?,
      RouteBody.bricksJson?, optionalField]

theorem Component.toJson_eq (component : Component) :
    component.toJson = objectOf (component.config ++ writtenFields component.ownFields) := rfl

/-- In the document form of a brick its config hides its own fields. -/
theorem Brick.field?_toJson {brick : Brick} (distinct : (Fields.keys brick.config).Nodup)
    {field : String × Option Json} (member : field ∈ brick.ownFields) :
    brick.toJson.field? field.1 = (Fields.get? brick.config field.1).or field.2 := by
  rw [toJson_eq, field?_objectOf, Fields.get?_ofEntries_append,
    Fields.get?_ofEntries_of_nodup distinct, get?_ofEntries_writtenFields (by simp [ownFields]) member]

/-- In the document form of a route its own fields hide its config. -/
theorem Route.field?_toJson {route : Route} (distinct : (Fields.keys route.config).Nodup)
    {field : String × Option Json} (member : field ∈ route.ownFields) :
    route.toJson.field? field.1 = field.2.or (Fields.get? route.config field.1) := by
  rw [toJson_eq, field?_objectOf, Fields.get?_ofEntries_append,
    Fields.get?_ofEntries_of_nodup distinct, get?_ofEntries_writtenFields (by simp [ownFields]) member]

/-- A component always has its own field, whatever its config. -/
theorem Component.field?_toJson {component : Component} {field : String × Option Json}
    (member : field ∈ component.ownFields) : component.toJson.field? field.1 = field.2 := by
  rw [toJson_eq, field?_objectOf, Fields.get?_ofEntries_append,
    get?_ofEntries_writtenFields (by simp [ownFields]) member]
  obtain rfl := List.mem_singleton.mp member
  rfl

/-! ## What an element passes on -/

/-- The name of the brick that an element becomes, if it becomes one. -/
def ElementKind.brickName? : ElementKind → Option String
  | .tag name => some (tagName name)
  | .reference name => some name
  | .forEach => some ":forEach"
  | .conditional => some ":if"
  | .switch => some ":switch"
  | _ => none

/-- The setting that an element passes on under a name that its result may need for a field of its own.
A plain element passes on what stands in the `conf` namespace, the others their settings as they are,
except for the slot that they ask for. -/
def ElementKind.passedOn? (kind : ElementKind) (settings : Settings) (name : String) : Option Json :=
  match kind with
  | .tag _ | .reference _ => (Fields.get? settings ("conf:" ++ name)).map Setting.toJson
  | .forEach | .conditional | .switch | .route =>
    if name = "slot" then none else (Fields.get? settings name).map Setting.toJson
  | _ => none

theorem afterLeading?_eq_some_iff {leading text rest : String} :
    afterLeading? leading text = some rest ↔ text = leading ++ rest := by
  unfold afterLeading?
  split
  · rename_i leads
    obtain ⟨tail, tail_eq⟩ := List.isPrefixOf_iff_prefix.mp leads
    rw [← tail_eq, ← String.length_toList, List.drop_left, Option.some.injEq, ← String.toList_inj,
      ← String.toList_inj, String.toList_append, ← tail_eq, List.append_cancel_left_eq, String.toList_ofList]
  · rename_i leads
    refine ⟨by simp, ?_⟩
    rintro rfl
    simp [String.toList_append] at leads

/-- A setting belongs to the unit itself if it stands in the `conf` namespace or has a reserved name. -/
theorem SettingPlace.ofKey_eq_reserved_iff {key name : String} :
    SettingPlace.ofKey key = .ok (.reserved name) ↔
      key = "conf:" ++ name ∨ (key = name ∧ name ∈ reservedNames) := by
  unfold ofKey
  by_cases colon : key.toList.contains ':' = true
  · have not_reserved : ¬(key = name ∧ name ∈ reservedNames) := by
      rintro ⟨rfl, reserved⟩
      have plain : ∀ name ∈ reservedNames, name.toList.contains ':' = false := by decide
      rw [plain key reserved] at colon
      exact absurd colon (by decide)
    rw [if_pos colon, or_iff_left not_reserved]
    cases property_eq : afterLeading? "prop:" key with
    | some property =>
        rw [afterLeading?_eq_some_iff] at property_eq
        simp [property_eq, ← String.toList_inj]
    | none =>
        cases rest_eq : afterLeading? "conf:" key with
        | none =>
            refine ⟨by simp, ?_⟩
            intro leads
            rw [afterLeading?_eq_some_iff.mpr leads] at rest_eq
            simp at rest_eq
        | some rest =>
            rw [afterLeading?_eq_some_iff.mp rest_eq]
            simp [← String.toList_inj]
  · have not_conf : key ≠ "conf:" ++ name := by
      rintro rfl
      simp at colon
    rw [if_neg colon, or_iff_right not_conf]
    have slot_free : "slot" ∉ reservedNames := by decide
    have children_free : "children" ∉ reservedNames := by decide
    split
    · rename_i slot
      obtain rfl := beq_iff_eq.mp slot
      refine ⟨by simp, ?_⟩
      rintro ⟨rfl, reserved⟩
      exact absurd reserved slot_free
    split
    · rename_i children
      obtain rfl := beq_iff_eq.mp children
      refine ⟨by simp, ?_⟩
      rintro ⟨rfl, reserved⟩
      exact absurd reserved children_free
    split
    · rename_i reserved
      rw [List.contains_iff_mem] at reserved
      simp only [Except.ok.injEq, SettingPlace.reserved.injEq, iff_self_and]
      rintro rfl
      exact reserved
    · rename_i free
      refine ⟨by simp, ?_⟩
      rintro ⟨rfl, reserved⟩
      exact absurd (List.contains_iff_mem.mpr reserved) free

namespace SortedSettings

/-- Sorting a setting changes the entry of a free name only if the setting stands under that name in the
`conf` namespace. -/
theorem get?_reserved_of_add {sorted next : SortedSettings} {entry : String × Setting}
    (added : sorted.add entry = .ok next) {name : String} (free : name ∉ reservedNames) :
    Fields.get? next.reserved name =
      if entry.1 = "conf:" ++ name then some entry.2.toJson else Fields.get? sorted.reserved name := by
  obtain ⟨place, place_eq, added⟩ := exists_of_bind_eq_ok added
  have named : entry.1 = "conf:" ++ name ↔ place = .reserved name := by
    have there : SettingPlace.ofKey entry.1 = .ok (.reserved name) ↔ _ :=
      SettingPlace.ofKey_eq_reserved_iff
    rw [or_iff_left (fun reserved => free reserved.2), place_eq, Except.ok.injEq] at there
    exact there.symm
  simp only [named]
  cases place with
  | reserved own =>
      obtain rfl := Except.ok.inj added
      by_cases same : own = name
      · subst same
        rw [if_pos rfl, Fields.get?_set_self]
      · rw [if_neg (by simpa using same), Fields.get?_set_of_ne _ _ (Ne.symm same)]
  | property _ | slot | children =>
      obtain rfl := Except.ok.inj added
      rw [if_neg (by simp)]

theorem nodup_reserved_of_add {sorted next : SortedSettings} {entry : String × Setting}
    (added : sorted.add entry = .ok next) (distinct : (Fields.keys sorted.reserved).Nodup) :
    (Fields.keys next.reserved).Nodup := by
  obtain ⟨place, -, added⟩ := exists_of_bind_eq_ok added
  cases place <;> obtain rfl := Except.ok.inj added
  case reserved name => exact Fields.nodup_keys_set distinct _ _
  all_goals exact distinct

/-- Sorting settings keeps the names of a unit's entries distinct, and a free name has the setting that
stands under it in the `conf` namespace. -/
theorem reserved_of_foldlM {settings : Settings} (distinct : (Fields.keys settings).Nodup)
    {start sorted : SortedSettings} (start_distinct : (Fields.keys start.reserved).Nodup)
    (folded : settings.foldlM SortedSettings.add start = .ok sorted) :
    (Fields.keys sorted.reserved).Nodup ∧ ∀ name ∉ reservedNames,
      Fields.get? sorted.reserved name =
        ((Fields.get? settings ("conf:" ++ name)).map Setting.toJson).or
          (Fields.get? start.reserved name) := by
  induction settings generalizing start with
  | nil =>
      obtain rfl := Except.ok.inj folded
      exact ⟨start_distinct, fun name _ => rfl⟩
  | cons entry rest ih =>
      obtain ⟨fresh, distinct⟩ := List.nodup_cons.mp distinct
      rw [List.foldlM_cons] at folded
      obtain ⟨next, added, folded⟩ := exists_of_bind_eq_ok folded
      obtain ⟨sorted_distinct, entries⟩ := ih distinct (nodup_reserved_of_add added start_distinct) folded
      refine ⟨sorted_distinct, fun name free => ?_⟩
      rw [entries name free, get?_reserved_of_add added free, Fields.get?]
      by_cases same : entry.1 = "conf:" ++ name
      · rw [← same, Fields.get?_eq_none_iff.mpr fresh]
        simp
      · simp [same]

end SortedSettings

/-! ## Element constructions -/

/-- What a plain element passes on is what stands in the `conf` namespace. -/
theorem config_of_lowerElement {name : String} {settings : Settings}
    (distinct : (Fields.keys settings).Nodup) {brick : Brick}
    (lowered : lowerElement name settings = .ok brick) :
    brick.name = name ∧ (Fields.keys brick.config).Nodup ∧ ∀ other ∉ reservedNames,
      Fields.get? brick.config other = (Fields.get? settings ("conf:" ++ other)).map Setting.toJson := by
  obtain ⟨sorted, folded, lowered⟩ := exists_of_bind_eq_ok lowered
  obtain ⟨attached, -, lowered⟩ := exists_of_bind_eq_ok lowered
  obtain rfl := Except.ok.inj lowered
  have start_distinct : (Fields.keys ({} : SortedSettings).reserved).Nodup := List.nodup_nil
  obtain ⟨config_distinct, entries⟩ := SortedSettings.reserved_of_foldlM distinct start_distinct folded
  refine ⟨rfl, config_distinct, fun other free => ?_⟩
  rw [entries other free, Fields.get?, Option.or_none]

theorem Settings.get?_toFields (settings : Settings) (name : String) :
    Fields.get? settings.toFields name = (Fields.get? settings name).map Setting.toJson :=
  Fields.get?_mapValues Setting.toJson settings name

theorem Settings.nodup_keys_toFields {settings : Settings} (distinct : (Fields.keys settings).Nodup) :
    (Fields.keys settings.toFields).Nodup := by
  rwa [toFields, Fields.keys_mapValues]

/-- Settings without one of them, as plain data. -/
theorem Settings.get?_toFields_erase {settings : Settings} (distinct : (Fields.keys settings).Nodup)
    (used name : String) :
    Fields.get? (toFields (Fields.erase settings used)) name =
      if name = used then none else (Fields.get? settings name).map Setting.toJson := by
  rw [get?_toFields]
  split
  · rename_i same
    rw [same, Fields.get?_erase_self distinct, Option.map_none]
  · rename_i apart
    rw [Fields.get?_erase_of_ne _ apart]

/-- What a control node passes on are its settings except for the three that it uses itself. -/
theorem config_of_lowerControl {name : String} {settings : Settings}
    (distinct : (Fields.keys settings).Nodup) {brick : Brick}
    (lowered : lowerControl name settings = .ok brick) :
    brick.name = name ∧ (Fields.keys brick.config).Nodup ∧ ∀ other ∉ ["children", "value"],
      Fields.get? brick.config other =
        if other = "slot" then none else (Fields.get? settings other).map Setting.toJson := by
  obtain ⟨flat, -, lowered⟩ := exists_of_bind_eq_ok lowered
  obtain ⟨slots, -, lowered⟩ := exists_of_bind_eq_ok lowered
  obtain rfl := Except.ok.inj lowered
  have some_distinct := Fields.nodup_keys_erase (Fields.nodup_keys_erase distinct "children") "value"
  refine ⟨rfl, Settings.nodup_keys_toFields (Fields.nodup_keys_erase some_distinct "slot"), ?_⟩
  intro other free
  simp only [List.mem_cons, List.not_mem_nil, or_false, not_or] at free
  rw [Settings.get?_toFields_erase some_distinct, Fields.get?_erase_of_ne _ free.2,
    Fields.get?_erase_of_ne _ free.1]

/-- What a route passes on are its settings except for the slot and for what it leads to. -/
theorem config_of_lowerRoute {settings : Settings} (distinct : (Fields.keys settings).Nodup)
    {route : Route} (lowered : lowerRoute settings = .ok route) :
    (Fields.keys route.config).Nodup ∧ ∀ other ∉ ["children", "view"],
      Fields.get? route.config other =
        if other = "slot" then none else (Fields.get? settings other).map Setting.toJson := by
  let rest : Settings := Fields.erase settings "slot"
  have rest_distinct : (Fields.keys rest).Nodup := Fields.nodup_keys_erase distinct "slot"
  have passed := Settings.get?_toFields_erase distinct "slot"
  have passed_but : ∀ used other, other ≠ used →
      Fields.get? (Settings.toFields (Fields.erase rest used)) other = Fields.get? rest.toFields other := by
    intro used other apart
    rw [Settings.get?_toFields_erase rest_distinct, if_neg apart, Settings.get?_toFields]
  have distinct_but := fun used =>
    Settings.nodup_keys_toFields (Fields.nodup_keys_erase rest_distinct used)
  unfold lowerRoute at lowered
  dsimp only at lowered
  simp only [List.mem_cons, List.not_mem_nil, or_false, not_or]
  split at lowered
  · obtain rfl := Except.ok.inj lowered
    exact ⟨Settings.nodup_keys_toFields rest_distinct, fun other _ => passed other⟩
  · obtain ⟨flat, -, lowered⟩ := exists_of_bind_eq_ok lowered
    obtain ⟨routes, -, lowered⟩ := exists_of_bind_eq_ok lowered
    obtain rfl := Except.ok.inj lowered
    exact ⟨distinct_but _, fun other free => (passed_but _ other free.1).trans (passed other)⟩
  · obtain ⟨bricks, -, lowered⟩ := exists_of_bind_eq_ok lowered
    obtain rfl := Except.ok.inj lowered
    exact ⟨distinct_but _, fun other free => (passed_but _ other free.2).trans (passed other)⟩

/-- A plain element shows what stands in the `conf` namespace under the name of an own field, and the own
field where nothing does. -/
theorem lowerElement_shows {name : String} {settings : Settings} (distinct : (Fields.keys settings).Nodup)
    {brick : Brick} (lowered : lowerElement name settings = .ok brick) :
    brick.name = name ∧ ∀ field ∈ brick.ownFields, brick.toJson.field? field.1 =
      ((Fields.get? settings ("conf:" ++ field.1)).map Setting.toJson).or field.2 := by
  obtain ⟨name_eq, config_distinct, passed⟩ := config_of_lowerElement distinct lowered
  refine ⟨name_eq, fun field member => ?_⟩
  have free : ∀ own ∈ ["brick", "properties", "dataSource", "slots", "slot"], own ∉ reservedNames := by
    decide
  have named : field.1 ∈ brick.ownFields.map Prod.fst := List.mem_map_of_mem member
  rw [Brick.field?_toJson config_distinct member, passed field.1 (free field.1 named)]

/-- A control node shows what it passes on under the name of an own field, and the own field where it
passes on nothing. -/
theorem lowerControl_shows {name : String} {settings : Settings} (distinct : (Fields.keys settings).Nodup)
    {brick : Brick} (lowered : lowerControl name settings = .ok brick) :
    brick.name = name ∧ ∀ field ∈ brick.ownFields, brick.toJson.field? field.1 =
      (if field.1 = "slot" then none else (Fields.get? settings field.1).map Setting.toJson).or field.2 := by
  obtain ⟨name_eq, config_distinct, passed⟩ := config_of_lowerControl distinct lowered
  refine ⟨name_eq, fun field member => ?_⟩
  have free : ∀ own ∈ ["brick", "properties", "dataSource", "slots", "slot"],
      own ∉ ["children", "value"] := by decide
  have named : field.1 ∈ brick.ownFields.map Prod.fst := List.mem_map_of_mem member
  rw [Brick.field?_toJson config_distinct member, passed field.1 (free field.1 named)]

/-- A route shows its own fields, and what it passes on in the place of one that it lacks. -/
theorem lowerRoute_shows {settings : Settings} (distinct : (Fields.keys settings).Nodup)
    {route : Route} (lowered : lowerRoute settings = .ok route) :
    ∀ field ∈ route.ownFields, route.toJson.field? field.1 = field.2.or
      (if field.1 = "slot" then none else (Fields.get? settings field.1).map Setting.toJson) := by
  intro field member
  obtain ⟨config_distinct, passed⟩ := config_of_lowerRoute distinct lowered
  have free : ∀ own ∈ ["routes", "bricks", "slot"], own ∉ ["children", "view"] := by decide
  have named : field.1 ∈ route.ownFields.map Prod.fst := List.mem_map_of_mem member
  rw [Route.field?_toJson config_distinct member, passed field.1 (free field.1 named)]

/-- An element that becomes a brick becomes one of its name, which shows what the element passes on before
its own fields. -/
theorem lower_shows_of_named {kind : ElementKind} {settings : Settings}
    (distinct : (Fields.keys settings).Nodup) {value : Lowered} (lowered : lower kind settings = .ok value)
    {name : String} (named : kind.brickName? = some name) :
    ∃ brick : Brick, value = .descriptor (.brick brick) ∧ brick.name = name ∧
      ∀ field ∈ brick.ownFields,
        brick.toJson.field? field.1 = (kind.passedOn? settings field.1).or field.2 := by
  cases kind with
  | fragment | route | component | legacyTemplate => simp [ElementKind.brickName?] at named
  | tag _ | reference _ =>
      obtain rfl := Option.some.inj named
      obtain ⟨brick, brick_eq, given⟩ := exists_of_bind_eq_ok lowered
      obtain rfl := Except.ok.inj given
      exact ⟨brick, rfl, lowerElement_shows distinct brick_eq⟩
  | forEach | conditional | switch =>
      obtain rfl := Option.some.inj named
      obtain ⟨brick, brick_eq, given⟩ := exists_of_bind_eq_ok lowered
      obtain rfl := Except.ok.inj given
      exact ⟨brick, rfl, lowerControl_shows distinct brick_eq⟩

/-- An element that becomes no brick shows the own fields of its result before what it passes on. -/
theorem lower_shows_of_nameless {kind : ElementKind} {settings : Settings}
    (distinct : (Fields.keys settings).Nodup) {value : Lowered} (lowered : lower kind settings = .ok value)
    (nameless : kind.brickName? = none) :
    ∀ field ∈ value.ownFields,
      value.toJson.field? field.1 = field.2.or (kind.passedOn? settings field.1) := by
  cases kind with
  | tag _ | reference _ | forEach | conditional | switch => simp [ElementKind.brickName?] at nameless
  | route =>
      obtain ⟨route, route_eq, given⟩ := exists_of_bind_eq_ok lowered
      obtain rfl := Except.ok.inj given
      exact lowerRoute_shows distinct route_eq
  | component =>
      obtain ⟨component, -, given⟩ := exists_of_bind_eq_ok lowered
      obtain rfl := Except.ok.inj given
      exact fun field member => (Component.field?_toJson member).trans Option.or_none.symm
  | fragment =>
      obtain ⟨descriptors, -, given⟩ := exists_of_bind_eq_ok lowered
      obtain rfl := Except.ok.inj given
      simp [Lowered.ownFields]
  | legacyTemplate =>
      obtain rfl := Except.ok.inj lowered
      simp [Lowered.ownFields]

/-- A setting that an element passes on leaves an own field of its result alone: it says the same, or the
result is no brick and has a value for the field. -/
def ElementKind.Leaves (kind : ElementKind) (settings : Settings) (field : String × Option Json) : Prop :=
  ∀ given, kind.passedOn? settings field.1 = some given →
    field.2 = some given ∨ kind.brickName? = none ∧ field.2.isSome

/-- The document form of what an element is lowered to shows its own fields exactly if no setting that the
element passes on says otherwise under the name of one; for a route and a component, if none is passed on
under the name of a field that the result lacks. A brick has the name that its element gives. -/
theorem shows_own_fields_iff {kind : ElementKind} {entries : List (String × Setting)} {value : Lowered}
    (lowered : lower kind (.ofEntries entries) = .ok value) :
    (∀ name, kind.brickName? = some name →
      ∃ brick : Brick, value = .descriptor (.brick brick) ∧ brick.name = name) ∧
    (value.ShowsOwnFields ↔ ∀ field ∈ value.ownFields, kind.Leaves (.ofEntries entries) field) := by
  have distinct : (Fields.keys (Fields.ofEntries entries)).Nodup := Fields.nodup_keys_ofEntries entries
  refine ⟨fun name named => ?_, ?_⟩
  · obtain ⟨brick, value_eq, name_eq, -⟩ := lower_shows_of_named distinct lowered named
    exact ⟨brick, value_eq, name_eq⟩
  refine forall₂_congr fun field member => ?_
  unfold ElementKind.Leaves
  cases name? : kind.brickName? with
  | none =>
      rw [lower_shows_of_nameless distinct lowered name? field member]
      cases field.2 <;> cases kind.passedOn? (.ofEntries entries) field.1 <;> simp
  | some name =>
      obtain ⟨brick, rfl, -, shown⟩ := lower_shows_of_named distinct lowered name?
      change brick.toJson.field? field.1 = field.2 ↔ _
      rw [shown field member]
      cases kind.passedOn? (.ofEntries entries) field.1 with
      | none => simp
      | some given =>
          simp only [Option.some_or, Option.some.injEq, forall_eq', reduceCtorEq, false_and, or_false]
          exact eq_comm

/-- Settings of a button: one in each namespace, a plain one and a slot. -/
def buttonSettings : List (String × Setting) :=
  [("label", .data (.string "Go")), ("prop:brick", .data (.string "oak")),
    ("conf:meta", .data (.bool true)), ("slot", .data (.string "foot"))]

/-- The button with these settings. -/
def button : Brick where
  name := "ui.button"
  properties := some [("label", .string "Go"), ("brick", .string "oak")]
  dataSource := none
  slots := none
  slot := some "foot"
  config := [("meta", .bool true)]

/-- A property may have the name of an own field. -/
theorem button_shows_own_fields :
    lower (.tag "ui_button") (.ofEntries buttonSettings) = .ok (.descriptor (.brick button)) ∧
      (Lowered.descriptor (.brick button)).ShowsOwnFields := by
  have name_eq : tagName "ui_button" = "ui.button" := by
    rw [tagName, ← String.toList_inj, String.toList_map]
    rfl
  have lowered : lower (.tag "ui_button") (.ofEntries buttonSettings) =
      .ok (.descriptor (.brick button)) := by
    rw [lower, name_eq]
    rfl
  refine ⟨lowered, (shows_own_fields_iff lowered).2.mpr ?_⟩
  intro field member given passed
  have nothing : ∀ own ∈ ["brick", "properties", "dataSource", "slots", "slot"],
      ElementKind.passedOn? (.tag "ui_button") (.ofEntries buttonSettings) own = none := by
    simp [ElementKind.passedOn?, buttonSettings, Fields.ofEntries, Fields.setAll, Fields.set, Fields.get?]
  have named : field.1 ∈ button.ownFields.map Prod.fst := List.mem_map_of_mem member
  rw [nothing field.1 named] at passed
  simp at passed

/-- A loop with a setting named `brick` is written as a brick of that name. -/
theorem loop_with_brick_setting_loses_name :
    ∃ loop : Brick, lower .forEach (.ofEntries [("brick", .data (.string "li"))]) =
        .ok (.descriptor (.brick loop)) ∧
      loop.name = ":forEach" ∧ loop.toJson.field? "brick" = some (.string "li") ∧
      ¬(Lowered.descriptor (.brick loop)).ShowsOwnFields := by
  obtain ⟨loop, lowered, name_eq, shown⟩ :
      ∃ loop : Brick, lower .forEach (.ofEntries [("brick", .data (.string "li"))]) =
          .ok (.descriptor (.brick loop)) ∧
        loop.name = ":forEach" ∧ loop.toJson.field? "brick" = some (.string "li") :=
    ⟨_, rfl, rfl, rfl⟩
  refine ⟨loop, lowered, name_eq, shown, fun shows => ?_⟩
  have named : loop.toJson.field? "brick" = some (.string loop.name) :=
    shows ("brick", some (.string loop.name)) List.mem_cons_self
  rw [name_eq, shown] at named
  simp at named

end Storyboard
