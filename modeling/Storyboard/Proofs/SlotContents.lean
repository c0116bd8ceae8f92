import Storyboard.Element.Markup

/-!
# What the slots of lowered bricks hold

Lowering places every child in the slot that it asks for and takes the request off it. So wherever a brick
stands inside the result of an element tree, a brick with slots has no text of its own, none of its slots is
empty, and nothing in them still asks for a slot. The data in the tree is in normal form, each object giving
a name once; of two requests in one object, the second would stay.
-/

namespace Storyboard

theorem exists_of_bind_eq_ok {ε α β : Type} {first : Except ε α} {next : α → Except ε β} {result : β}
    (run : first >>= next = .ok result) : ∃ value, first = .ok value ∧ next value = .ok result := by
  cases first with
  | error error => simp [bind, Except.bind] at run
  | ok value => exact ⟨value, rfl, run⟩

/-! ## Bricks inside a result -/

/-- What a route leads to, as descriptors in order. -/
def RouteBody.contents : RouteBody → List Descriptor
  | .redirect => []
  | .routes rs => rs.map .route
  | .bricks bs => bs

/-- The descriptors that an element construction gives, in order. -/
def Lowered.contents : Lowered → List Descriptor
  | .descriptor d => [d]
  | .fragment ds => ds
  | .component c => c.bricks

/-- A brick stands inside a descriptor, which may be the brick itself. Data that is carried as it is
holds no brick. -/
inductive Descriptor.Holds : Descriptor → Brick → Prop
  | self (brick : Brick) : Holds (.brick brick) brick
  | inSlot {outer inner : Brick} {slots : Fields Bucket} {entry : String × Bucket} {child : Descriptor} :
      outer.slots = some slots → entry ∈ slots → child ∈ entry.2.contents → Holds child inner →
      Holds (.brick outer) inner
  | inRoute {route : Route} {child : Descriptor} {inner : Brick} :
      child ∈ route.body.contents → Holds child inner → Holds (.route route) inner

/-- The rules for the slots of a brick. -/
structure Brick.KeepsSlotRules (brick : Brick) : Prop where
  /-- A brick with slots has no text of its own. -/
  no_text : ∀ slots, brick.slots = some slots → brick.property? textProperty = none
  /-- No slot is empty. -/
  filled : ∀ slots, brick.slots = some slots → ∀ entry ∈ slots, 0 < entry.2.size
  /-- Nothing in a slot asks for a slot. -/
  placed : ∀ slots, brick.slots = some slots → ∀ entry ∈ slots, ∀ child ∈ entry.2.contents,
    child.slot? = none

/-! ## Data in normal form -/

namespace Json

/-- An object in normal form gives every name once. -/
theorem nodup_keys_of_normalize {fields : List (String × Json)}
    (normal : (Json.object fields).normalize = .object fields) : (Fields.keys fields).Nodup := by
  rw [normalize, Json.object.injEq] at normal
  rw [← normal]
  exact Fields.nodup_keys_ofEntries _

end Json

mutual

/-- All data in an element construction is in normal form. -/
def Markup.HasNormalData : Markup → Prop
  | .element _ settings => Markup.settingsHaveNormalData settings

/-- All data in settings is in normal form. -/
def Markup.settingsHaveNormalData : List (String × Markup.Value) → Prop
  | [] => True
  | (_, value) :: rest => value.HasNormalData ∧ Markup.settingsHaveNormalData rest

/-- All data in the value of a setting is in normal form. -/
def Markup.Value.HasNormalData : Markup.Value → Prop
  | .data value => value.normalize = value
  | .tree tree => tree.HasNormalData

/-- All data in a part of the element tree is in normal form. -/
def Markup.Tree.HasNormalData : Markup.Tree → Prop
  | .empty => True
  | .text _ => True
  | .list items => Markup.Tree.itemsHaveNormalData items
  | .element markup => markup.HasNormalData
  | .data value => value.normalize = value

/-- All data in parts of the element tree is in normal form. -/
def Markup.Tree.itemsHaveNormalData : List Markup.Tree → Prop
  | [] => True
  | item :: rest => item.HasNormalData ∧ Markup.Tree.itemsHaveNormalData rest

end

/-! ## Descriptors -/

namespace Descriptor

/-- Every brick inside a descriptor keeps the rules, and data that is an object gives every name once. -/
structure IsSound (descriptor : Descriptor) : Prop where
  bricks : ∀ brick, descriptor.Holds brick → brick.KeepsSlotRules
  names : ∀ fields, descriptor = .raw (.object fields) → (Fields.keys fields).Nodup

theorem isSound_brick {brick : Brick} (rules : brick.KeepsSlotRules)
    (inside : ∀ slots, brick.slots = some slots → ∀ entry ∈ slots, ∀ child ∈ entry.2.contents,
      child.IsSound) : (Descriptor.brick brick).IsSound := by
  refine ⟨?_, by simp⟩
  intro inner holds
  cases holds with
  | self => exact rules
  | inSlot slots_eq entry_mem child_mem holds =>
      exact (inside _ slots_eq _ entry_mem _ child_mem).bricks inner holds

theorem isSound_route {route : Route} (inside : ∀ child ∈ route.body.contents, child.IsSound) :
    (Descriptor.route route).IsSound := by
  refine ⟨?_, by simp⟩
  intro inner holds
  cases holds with
  | inRoute child_mem holds => exact (inside _ child_mem).bricks inner holds

theorem isSound_object {fields : Fields Json} (distinct : (Fields.keys fields).Nodup) :
    (Descriptor.raw (.object fields)).IsSound := by
  refine ⟨?_, ?_⟩
  · intro inner holds
    cases holds
  · intro others equal
    rw [Descriptor.raw.injEq, Json.object.injEq] at equal
    rwa [← equal]

theorem isSound_raw {value : Json} (no_object : ∀ fields, value ≠ .object fields) :
    (Descriptor.raw value).IsSound := by
  refine ⟨?_, ?_⟩
  · intro inner holds
    cases holds
  · intro fields equal
    exact absurd (Descriptor.raw.inj equal) (no_object fields)

/-- The slot that a brick asks for plays no part in the rules. -/
theorem IsSound.brick_slot {brick : Brick} (sound : (Descriptor.brick brick).IsSound)
    (slot : Option String) : (Descriptor.brick { brick with slot }).IsSound := by
  refine ⟨?_, by simp⟩
  intro inner holds
  cases holds with
  | self =>
      have rules := sound.bricks brick (.self brick)
      exact ⟨rules.no_text, rules.filled, rules.placed⟩
  | inSlot slots_eq entry_mem child_mem holds =>
      have same : brick.slots = some _ := slots_eq
      exact sound.bricks inner (.inSlot same entry_mem child_mem holds)

theorem IsSound.route_slot {route : Route} (sound : (Descriptor.route route).IsSound)
    (slot : Option String) : (Descriptor.route { route with slot }).IsSound := by
  refine ⟨?_, by simp⟩
  intro inner holds
  cases holds with
  | inRoute child_mem holds =>
      have same : _ ∈ route.body.contents := child_mem
      exact sound.bricks inner (.inRoute same holds)

theorem IsSound.withSlot {descriptor : Descriptor} (sound : descriptor.IsSound) (slot : String) :
    (descriptor.withSlot slot).IsSound := by
  unfold Descriptor.withSlot
  split
  · exact sound.brick_slot (some slot)
  · exact sound.route_slot (some slot)
  · exact isSound_object (Fields.nodup_keys_set (sound.names _ rfl) _ _)
  · exact sound

/-- A descriptor whose request for a slot has been taken is sound as before. -/
theorem IsSound.takeSlot {descriptor : Descriptor} (sound : descriptor.IsSound) :
    descriptor.takeSlot.2.IsSound := by
  unfold Descriptor.takeSlot
  split
  · exact sound.brick_slot none
  · exact sound.route_slot none
  · exact isSound_object ((sound.names _ rfl).sublist (Fields.keys_erase_sublist _ _))
  · exact sound

/-- A descriptor whose request for a slot has been taken asks for none. -/
theorem IsSound.slot?_takeSlot {descriptor : Descriptor} (sound : descriptor.IsSound) :
    descriptor.takeSlot.2.slot? = none := by
  unfold Descriptor.takeSlot
  split
  · rfl
  · rfl
  · simp [Descriptor.slot?, Json.field?, Fields.get?_erase_self (sound.names _ rfl)]
  · rename_i value no_object
    cases value with
    | object fields => exact absurd rfl (no_object fields)
    | _ => rfl

end Descriptor

/-! ## Slots -/

/-- No bucket is empty, and what is in it is sound and asks for no slot. -/
def AreSoundSlots (slots : Fields Bucket) : Prop :=
  ∀ entry ∈ slots, 0 < entry.2.size ∧
    ∀ child ∈ entry.2.contents, child.IsSound ∧ child.slot? = none

theorem Bucket.contents_of_add? {bucket grown : Bucket} {descriptor : Descriptor}
    (added : bucket.add? descriptor = some grown) :
    0 < grown.size ∧ grown.contents = bucket.contents ++ [descriptor] := by
  unfold Bucket.add? at added
  split at added <;> simp only [Option.some.injEq, reduceCtorEq] at added
  all_goals
    subst added
    simp [Bucket.size, Bucket.contents]

theorem Bucket.contents_empty (kind : SlotKind) : (Bucket.empty kind).contents = [] := by
  cases kind <;> rfl

/-- Placing a sound descriptor keeps the slots sound. -/
theorem placeInSlot_sound {slots grown : Fields Bucket} {descriptor : Descriptor}
    (sound : AreSoundSlots slots) (descriptor_sound : descriptor.IsSound)
    (placed : placeInSlot slots descriptor = .ok grown) : AreSoundSlots grown := by
  unfold placeInSlot at placed
  split at placed
  rename_i slot? taken takeSlot_eq
  have taken_sound : taken.IsSound := by simpa [takeSlot_eq] using descriptor_sound.takeSlot
  have taken_free : taken.slot? = none := by simpa [takeSlot_eq] using descriptor_sound.slot?_takeSlot
  dsimp only at placed
  generalize slot?.getD "" = slot at placed
  split at placed
  · rename_i bucket added
    obtain rfl := Except.ok.inj placed
    obtain ⟨filled, contents_eq⟩ := Bucket.contents_of_add? added
    intro entry member
    rcases Fields.mem_of_mem_set member with rfl | old
    · refine ⟨filled, ?_⟩
      intro child child_mem
      rw [contents_eq, List.mem_append, List.mem_singleton] at child_mem
      rcases child_mem with before | rfl
      · cases found : Fields.get? slots slot with
        | none => simp [found, Bucket.contents_empty] at before
        | some known =>
            rw [found, Option.getD_some] at before
            exact (sound _ (Fields.mem_of_get? found)).2 child before
      · exact ⟨taken_sound, taken_free⟩
    · exact sound entry old
  · simp at placed

/-- Grouping sound descriptors gives sound slots. -/
theorem groupBySlot_sound {descriptors : List Descriptor} {slots : Fields Bucket}
    (sound : ∀ descriptor ∈ descriptors, descriptor.IsSound)
    (grouped : groupBySlot descriptors = .ok slots) : AreSoundSlots slots := by
  -- From any sound slots on, so that the induction can go along the fold.
  have along : ∀ start, AreSoundSlots start → descriptors.foldlM placeInSlot start = .ok slots →
      AreSoundSlots slots := by
    clear grouped
    induction descriptors with
    | nil =>
        intro start start_sound folded
        obtain rfl := Except.ok.inj folded
        exact start_sound
    | cons descriptor rest ih =>
        intro start start_sound folded
        rw [List.foldlM_cons] at folded
        obtain ⟨grown, placed, folded⟩ := exists_of_bind_eq_ok folded
        have grown_sound := placeInSlot_sound start_sound (sound _ List.mem_cons_self) placed
        exact ih (fun other member => sound other (List.mem_cons_of_mem _ member)) grown grown_sound folded
  exact along [] (by simp [AreSoundSlots]) grouped

/-- A brick without text whose slots are sound is sound. -/
theorem isSound_of_slots {brick : Brick} {slots : Fields Bucket} (slots_eq : brick.slots = some slots)
    (sound : AreSoundSlots slots) (no_text : brick.property? textProperty = none) :
    (Descriptor.brick brick).IsSound := by
  refine Descriptor.isSound_brick ⟨fun _ _ => no_text, ?_, ?_⟩ ?_ <;>
    intro others equal entry member <;>
    obtain rfl := Option.some.inj (slots_eq.symm.trans equal)
  · exact (sound entry member).1
  · exact fun child child_mem => ((sound entry member).2 child child_mem).2
  · exact fun child child_mem => ((sound entry member).2 child child_mem).1

theorem isSound_of_no_slots {brick : Brick} (no_slots : brick.slots = none) :
    (Descriptor.brick brick).IsSound := by
  refine Descriptor.isSound_brick ⟨?_, ?_, ?_⟩ ?_ <;> simp [no_slots]

/-! ## Children -/

/-- Whatever a child is flattened into is sound. -/
def Child.IsSound (child : Child) : Prop :=
  ∀ descriptors, child.flatten = .ok descriptors → ∀ descriptor ∈ descriptors, descriptor.IsSound

namespace Child

theorem isSound_empty : Child.empty.IsSound := by
  intro descriptors flattened
  obtain rfl := Except.ok.inj flattened
  simp

theorem isSound_text (text : String) : (Child.text text).IsSound := by
  intro descriptors flattened
  obtain rfl := Except.ok.inj flattened
  intro descriptor member
  obtain rfl := List.mem_singleton.mp member
  exact isSound_of_no_slots rfl

theorem isSound_lowered {lowered : Lowered} (sound : ∀ descriptor ∈ lowered.contents, descriptor.IsSound) :
    (Child.lowered lowered).IsSound := by
  intro descriptors flattened
  cases lowered with
  | descriptor descriptor =>
      obtain rfl := Except.ok.inj flattened
      exact sound
  | fragment descriptors =>
      obtain rfl := Except.ok.inj flattened
      exact sound
  | component component => simp [flatten] at flattened

theorem isSound_list {items : List Child} (sound : ∀ item ∈ items, item.IsSound) :
    (Child.list items).IsSound := by
  intro descriptors flattened
  rw [flatten] at flattened
  induction items generalizing descriptors with
  | nil =>
      obtain rfl := Except.ok.inj flattened
      simp
  | cons item rest ih =>
      obtain ⟨first, first_eq, flattened⟩ := exists_of_bind_eq_ok flattened
      obtain ⟨others, others_eq, flattened⟩ := exists_of_bind_eq_ok flattened
      obtain rfl := Except.ok.inj flattened
      intro descriptor member
      rcases List.mem_append.mp member with inFirst | inOthers
      · exact sound item List.mem_cons_self first first_eq descriptor inFirst
      · exact ih (fun other member => sound other (List.mem_cons_of_mem _ member)) others others_eq
          descriptor inOthers

mutual

/-- Data in normal form gives a sound child. -/
theorem isSound_ofJson : (value : Json) → value.normalize = value → (ofJson value).IsSound
  | .string content, _ => isSound_text content
  | .null, _ => isSound_empty
  | .bool _, _ => isSound_empty
  | .number number, _ => isSound_lowered (by
      intro descriptor member
      obtain rfl := List.mem_singleton.mp member
      exact Descriptor.isSound_raw (by simp))
  | .object fields, normal => isSound_lowered (by
      intro descriptor member
      obtain rfl := List.mem_singleton.mp member
      exact Descriptor.isSound_object (Json.nodup_keys_of_normalize normal))
  | .array items, normal => isSound_list
      (isSound_ofJsonItems items (by rwa [Json.normalize, Json.array.injEq] at normal))

theorem isSound_ofJsonItems : (items : List Json) → Json.normalizeItems items = items →
    ∀ child ∈ ofJsonItems items, child.IsSound
  | [], _ => by simp [ofJsonItems]
  | item :: rest, normal => by
      rw [Json.normalizeItems, List.cons.injEq] at normal
      intro child member
      rw [ofJsonItems, List.mem_cons] at member
      rcases member with rfl | later
      · exact isSound_ofJson item normal.1
      · exact isSound_ofJsonItems rest normal.2 child later

end

theorem flattenInto_sound {child : Child} (sound : child.IsSound) {slot? : Option String}
    {descriptors : List Descriptor} (flattened : child.flattenInto slot? = .ok descriptors) :
    ∀ descriptor ∈ descriptors, descriptor.IsSound := by
  obtain ⟨flat, flat_eq, flattened⟩ := exists_of_bind_eq_ok flattened
  obtain rfl := Except.ok.inj flattened
  cases slot? with
  | none => exact sound flat flat_eq
  | some slot =>
      intro descriptor member
      obtain ⟨before, before_mem, rfl⟩ := List.mem_map.mp member
      exact (sound flat flat_eq before before_mem).withSlot slot

end Child

/-! ## Element constructions -/

/-- Every setting is sound in the place of a child. -/
def Settings.AreSound (settings : Settings) : Prop := ∀ entry ∈ settings, entry.2.toChild.IsSound

namespace Settings

theorem AreSound.erase {settings : Settings} (sound : settings.AreSound) (key : String) :
    Settings.AreSound (Fields.erase settings key) := by
  intro entry member
  exact sound entry (Fields.mem_of_mem_erase member)

theorem AreSound.childAt {settings : Settings} (sound : settings.AreSound) (key : String) :
    (settings.childAt key).IsSound := by
  unfold Settings.childAt
  cases found : Fields.get? settings key with
  | none => exact Child.isSound_empty
  | some setting => exact sound _ (Fields.mem_of_get? found)

end Settings

/-- Sorting settings keeps the names of properties distinct and takes the children from the settings. -/
theorem SortedSettings.sound_of_add {sorted next : SortedSettings} {entry : String × Setting}
    (added : sorted.add entry = .ok next) (entry_sound : entry.2.toChild.IsSound)
    (distinct : (Fields.keys sorted.properties).Nodup)
    (children : ∀ setting, sorted.children = some setting → setting.toChild.IsSound) :
    (Fields.keys next.properties).Nodup ∧
      ∀ setting, next.children = some setting → setting.toChild.IsSound := by
  obtain ⟨place, -, added⟩ := exists_of_bind_eq_ok added
  cases place with
  | property name =>
      obtain rfl := Except.ok.inj added
      exact ⟨Fields.nodup_keys_set distinct _ _, children⟩
  | reserved name =>
      obtain rfl := Except.ok.inj added
      exact ⟨distinct, children⟩
  | slot =>
      obtain rfl := Except.ok.inj added
      exact ⟨distinct, children⟩
  | children =>
      obtain rfl := Except.ok.inj added
      refine ⟨distinct, ?_⟩
      intro setting equal
      obtain rfl := Option.some.inj equal
      exact entry_sound

theorem SortedSettings.sound_of_foldlM {settings : Settings} (sound : settings.AreSound)
    {start sorted : SortedSettings} (folded : settings.foldlM SortedSettings.add start = .ok sorted)
    (distinct : (Fields.keys start.properties).Nodup)
    (children : ∀ setting, start.children = some setting → setting.toChild.IsSound) :
    (Fields.keys sorted.properties).Nodup ∧
      ∀ setting, sorted.children = some setting → setting.toChild.IsSound := by
  induction settings generalizing start with
  | nil =>
      obtain rfl := Except.ok.inj folded
      exact ⟨distinct, children⟩
  | cons entry rest ih =>
      rw [List.foldlM_cons] at folded
      obtain ⟨next, added, folded⟩ := exists_of_bind_eq_ok folded
      obtain ⟨distinct, children⟩ := sound_of_add added (sound _ List.mem_cons_self) distinct children
      exact ih (fun other member => sound other (List.mem_cons_of_mem _ member)) folded distinct children

/-- Slots are attached only where the text property is taken away. -/
theorem attachChildren_sound {properties attached : Fields Json} {children : Option Setting}
    {slots : Option (Fields Bucket)} (distinct : (Fields.keys properties).Nodup)
    (sound : ∀ setting, children = some setting → setting.toChild.IsSound)
    (attaches : attachChildren properties children = .ok (attached, slots)) :
    slots = none ∨ ∃ grouped, slots = some grouped ∧ AreSoundSlots grouped ∧
      Fields.get? attached textProperty = none := by
  unfold attachChildren at attaches
  split at attaches
  · exact .inl (by simpa using (Prod.mk.inj (Except.ok.inj attaches)).2.symm)
  · rename_i setting
    split at attaches
    · split at attaches
      · exact .inl (by simpa using (Prod.mk.inj (Except.ok.inj attaches)).2.symm)
      · obtain ⟨flat, flat_eq, attaches⟩ := exists_of_bind_eq_ok attaches
        obtain ⟨grouped, grouped_eq, attaches⟩ := exists_of_bind_eq_ok attaches
        obtain ⟨rfl, rfl⟩ := Prod.mk.inj (Except.ok.inj attaches)
        have grouped_sound := groupBySlot_sound (sound setting rfl flat flat_eq) grouped_eq
        exact .inr ⟨grouped, rfl, grouped_sound, Fields.get?_erase_self distinct _⟩
    · exact .inl (by simpa using (Prod.mk.inj (Except.ok.inj attaches)).2.symm)

theorem lowerElement_sound {name : String} {settings : Settings} {brick : Brick}
    (sound : settings.AreSound) (lowered : lowerElement name settings = .ok brick) :
    (Descriptor.brick brick).IsSound := by
  obtain ⟨sorted, sorted_eq, lowered⟩ := exists_of_bind_eq_ok lowered
  obtain ⟨⟨properties, slots⟩, attaches, lowered⟩ := exists_of_bind_eq_ok lowered
  obtain rfl := Except.ok.inj lowered
  obtain ⟨distinct, children⟩ :=
    SortedSettings.sound_of_foldlM sound sorted_eq (by simp [Fields.keys]) (by simp)
  rcases attachChildren_sound distinct children attaches with rfl | ⟨grouped, rfl, grouped_sound, no_text⟩
  · exact isSound_of_no_slots rfl
  · exact isSound_of_slots rfl grouped_sound no_text

theorem lowerControl_sound {name : String} {settings : Settings} {brick : Brick}
    (sound : settings.AreSound) (lowered : lowerControl name settings = .ok brick) :
    (Descriptor.brick brick).IsSound := by
  obtain ⟨flat, flat_eq, lowered⟩ := exists_of_bind_eq_ok lowered
  obtain ⟨slots, grouped, lowered⟩ := exists_of_bind_eq_ok lowered
  obtain rfl := Except.ok.inj lowered
  exact isSound_of_slots rfl (groupBySlot_sound (sound.childAt "children" flat flat_eq) grouped) rfl

theorem map_route_of_routesOnly {descriptors : List Descriptor} {routes : List Route}
    (only : routesOnly descriptors = .ok routes) : routes.map .route = descriptors := by
  induction descriptors generalizing routes with
  | nil =>
      obtain rfl := Except.ok.inj only
      rfl
  | cons descriptor rest ih =>
      cases descriptor with
      | route route =>
          obtain ⟨others, others_eq, only⟩ := exists_of_bind_eq_ok only
          obtain rfl := Except.ok.inj only
          rw [List.map_cons, ih others_eq]
      | brick brick => simp [routesOnly] at only
      | raw value => simp [routesOnly] at only

theorem lowerRoute_sound {settings : Settings} {route : Route} (sound : settings.AreSound)
    (lowered : lowerRoute settings = .ok route) : (Descriptor.route route).IsSound := by
  apply Descriptor.isSound_route
  have rest_sound := sound.erase "slot"
  unfold lowerRoute at lowered
  dsimp only at lowered
  split at lowered
  · obtain rfl := Except.ok.inj lowered
    simp [RouteBody.contents]
  · obtain ⟨flat, flat_eq, lowered⟩ := exists_of_bind_eq_ok lowered
    obtain ⟨routes, only, lowered⟩ := exists_of_bind_eq_ok lowered
    obtain rfl := Except.ok.inj lowered
    rw [RouteBody.contents, map_route_of_routesOnly only]
    exact rest_sound.childAt "children" flat flat_eq
  · obtain ⟨flat, flat_eq, lowered⟩ := exists_of_bind_eq_ok lowered
    obtain rfl := Except.ok.inj lowered
    exact rest_sound.childAt "view" flat flat_eq

/-- An element construction with sound settings gives sound descriptors. -/
theorem lower_sound {kind : ElementKind} {entries : List (String × Setting)} {result : Lowered}
    (sound : ∀ entry ∈ entries, entry.2.toChild.IsSound)
    (lowered : lower kind (Fields.ofEntries entries) = .ok result) :
    ∀ descriptor ∈ result.contents, descriptor.IsSound := by
  have settings_sound : Settings.AreSound (Fields.ofEntries entries) :=
    fun entry member => sound entry (Fields.mem_of_mem_ofEntries member)
  cases kind with
  | fragment =>
      obtain ⟨descriptors, flattened, lowered⟩ := exists_of_bind_eq_ok lowered
      obtain rfl := Except.ok.inj lowered
      exact Child.flattenInto_sound (settings_sound.childAt "children") flattened
  | route =>
      obtain ⟨route, route_eq, lowered⟩ := exists_of_bind_eq_ok lowered
      obtain rfl := Except.ok.inj lowered
      simpa [Lowered.contents] using lowerRoute_sound settings_sound route_eq
  | component =>
      obtain ⟨component, component_eq, lowered⟩ := exists_of_bind_eq_ok lowered
      obtain rfl := Except.ok.inj lowered
      obtain ⟨flat, flat_eq, component_eq⟩ := exists_of_bind_eq_ok component_eq
      obtain rfl := Except.ok.inj component_eq
      exact settings_sound.childAt "children" flat flat_eq
  | legacyTemplate =>
      obtain rfl := Except.ok.inj lowered
      intro descriptor member
      obtain rfl := List.mem_singleton.mp member
      apply Descriptor.isSound_object
      rw [Settings.toFields, Fields.keys_mapValues]
      exact Fields.nodup_keys_ofEntries entries
  | tag name =>
      obtain ⟨brick, brick_eq, lowered⟩ := exists_of_bind_eq_ok lowered
      obtain rfl := Except.ok.inj lowered
      simpa [Lowered.contents] using lowerElement_sound settings_sound brick_eq
  | reference name =>
      obtain ⟨brick, brick_eq, lowered⟩ := exists_of_bind_eq_ok lowered
      obtain rfl := Except.ok.inj lowered
      simpa [Lowered.contents] using lowerElement_sound settings_sound brick_eq
  | forEach | conditional | switch =>
      obtain ⟨brick, brick_eq, lowered⟩ := exists_of_bind_eq_ok lowered
      obtain rfl := Except.ok.inj lowered
      simpa [Lowered.contents] using lowerControl_sound settings_sound brick_eq

/-! ## Element trees -/

mutual

/-- An element tree with data in normal form is lowered to sound descriptors. -/
theorem Markup.lower_sound : (markup : Markup) → markup.HasNormalData → ∀ {result : Lowered},
    markup.lower = .ok result → ∀ descriptor ∈ result.contents, descriptor.IsSound
  | .element kind settings, normal, result, lowered => by
      obtain ⟨entries, entries_eq, lowered⟩ := exists_of_bind_eq_ok lowered
      exact Storyboard.lower_sound (Markup.lowerSettings_sound settings normal entries_eq) lowered

theorem Markup.lowerSettings_sound : (settings : List (String × Markup.Value)) →
    Markup.settingsHaveNormalData settings → ∀ {entries : List (String × Setting)},
    Markup.lowerSettings settings = .ok entries → ∀ entry ∈ entries, entry.2.toChild.IsSound
  | [], _, entries, lowered => by
      obtain rfl := Except.ok.inj lowered
      simp
  | (name, value) :: rest, normal, entries, lowered => by
      obtain ⟨first, first_eq, lowered⟩ := exists_of_bind_eq_ok lowered
      obtain ⟨others, others_eq, lowered⟩ := exists_of_bind_eq_ok lowered
      obtain rfl := Except.ok.inj lowered
      intro entry member
      rcases List.mem_cons.mp member with rfl | later
      · exact Markup.Value.evaluate_sound value normal.1 first_eq
      · exact Markup.lowerSettings_sound rest normal.2 others_eq entry later

theorem Markup.Value.evaluate_sound : (value : Markup.Value) → value.HasNormalData →
    ∀ {setting : Setting}, value.evaluate = .ok setting → setting.toChild.IsSound
  | .data value, normal, setting, evaluated => by
      obtain rfl := Except.ok.inj evaluated
      exact Child.isSound_ofJson value normal
  | .tree tree, normal, setting, evaluated => by
      obtain ⟨child, child_eq, evaluated⟩ := exists_of_bind_eq_ok evaluated
      obtain rfl := Except.ok.inj evaluated
      exact Markup.Tree.evaluate_sound tree normal child_eq

theorem Markup.Tree.evaluate_sound : (tree : Markup.Tree) → tree.HasNormalData →
    ∀ {child : Child}, tree.evaluate = .ok child → child.IsSound
  | .empty, _, child, evaluated => by
      obtain rfl := Except.ok.inj evaluated
      exact Child.isSound_empty
  | .text text, _, child, evaluated => by
      obtain rfl := Except.ok.inj evaluated
      exact Child.isSound_text text
  | .list items, normal, child, evaluated => by
      obtain ⟨children, children_eq, evaluated⟩ := exists_of_bind_eq_ok evaluated
      obtain rfl := Except.ok.inj evaluated
      exact Child.isSound_list (Markup.Tree.evaluateItems_sound items normal children_eq)
  | .element markup, normal, child, evaluated => by
      obtain ⟨lowered, lowered_eq, evaluated⟩ := exists_of_bind_eq_ok evaluated
      obtain rfl := Except.ok.inj evaluated
      exact Child.isSound_lowered (Markup.lower_sound markup normal lowered_eq)
  | .data value, normal, child, evaluated => by
      obtain rfl := Except.ok.inj evaluated
      exact Child.isSound_ofJson value normal

theorem Markup.Tree.evaluateItems_sound : (items : List Markup.Tree) →
    Markup.Tree.itemsHaveNormalData items → ∀ {children : List Child},
    Markup.Tree.evaluateItems items = .ok children → ∀ child ∈ children, child.IsSound
  | [], _, children, evaluated => by
      obtain rfl := Except.ok.inj evaluated
      simp
  | item :: rest, normal, children, evaluated => by
      obtain ⟨first, first_eq, evaluated⟩ := exists_of_bind_eq_ok evaluated
      obtain ⟨others, others_eq, evaluated⟩ := exists_of_bind_eq_ok evaluated
      obtain rfl := Except.ok.inj evaluated
      intro child member
      rcases List.mem_cons.mp member with rfl | later
      · exact Markup.Tree.evaluate_sound item normal.1 first_eq
      · exact Markup.Tree.evaluateItems_sound rest normal.2 others_eq child later

end

/-- Every brick inside what an element tree is lowered to keeps the rules for slots: it has slots or a
text but not both, none of its slots is empty, and nothing in them asks for a slot. -/
theorem bricks_keep_slot_rules {markup : Markup} (normal : markup.HasNormalData) {result : Lowered}
    (lowered : markup.lower = .ok result) :
    ∀ descriptor ∈ result.contents, ∀ brick, descriptor.Holds brick → brick.KeepsSlotRules :=
  fun descriptor member => (Markup.lower_sound markup normal lowered descriptor member).bricks

/-- A box with a text and a fragment in it. -/
def sampleMarkup : Markup :=
  .element (.tag "box") [("textContent", .data (.string "old")),
    ("children", .tree (.list [.text "new", .element (.element .fragment
      [("slot", .data (.string "foot")),
        ("children", .tree (.data (.object [("id", .string "t"), ("slot", .string "head")])))])]))]

/-- The text property of the box gives way to slots, and the data goes into the slot of its fragment. -/
theorem box_keeps_slot_rules :
    ∃ box : Brick, sampleMarkup.lower = .ok (.descriptor (.brick box)) ∧
      box.slots = some [("", .bricks [.brick (.ofText "new")]),
        ("foot", .bricks [.raw (.object [("id", .string "t")])])] ∧
      box.KeepsSlotRules := by
  obtain ⟨box, lowered, slots⟩ : ∃ box : Brick,
      sampleMarkup.lower = .ok (.descriptor (.brick box)) ∧
        box.slots = some [("", .bricks [.brick (.ofText "new")]),
          ("foot", .bricks [.raw (.object [("id", .string "t")])])] := ⟨_, rfl, rfl⟩
  have normal : sampleMarkup.HasNormalData := by
    simp [sampleMarkup, Markup.HasNormalData, Markup.settingsHaveNormalData, Markup.Value.HasNormalData,
      Markup.Tree.HasNormalData, Markup.Tree.itemsHaveNormalData, Json.normalize, Json.normalizeFields,
      Fields.ofEntries, Fields.setAll, Fields.set]
  exact ⟨box, lowered, slots, bricks_keep_slot_rules normal lowered _ List.mem_cons_self box (.self box)⟩

end Storyboard
