import Storyboard.Proofs.SlotContents

/-!
# Regrouped children

Lists inside a list of children, children that are nothing, and fragments that ask for no slot are only
ways to write the children down: taking them apart or putting them together changes no lowering, neither
its result nor its failure. Flattening reads regrouped children alike, and every lowering that takes
children reads them by flattening.
-/

namespace Storyboard

/-- Two lists of children that differ by grouping only: in how they are divided into lists, in children
that are nothing, and in fragments without a slot. It is the least such equivalence, at every place of a
list and to any depth. -/
inductive Child.Regrouped : List Child → List Child → Prop
  | refl (items : List Child) : Regrouped items items
  | symm {left right : List Child} : Regrouped left right → Regrouped right left
  | trans {left middle right : List Child} :
      Regrouped left middle → Regrouped middle right → Regrouped left right
  | append {front before back after : List Child} :
      Regrouped front before → Regrouped back after → Regrouped (front ++ back) (before ++ after)
  | nested (items : List Child) : Regrouped [.list items] items
  | empty : Regrouped [.empty] []
  | fragment {settings : Settings} {result : Lowered} :
      settings.slot? = none → lower .fragment settings = .ok result →
      Regrouped [.lowered result] [settings.childAt "children"]

/-- The constructions that flatten their children; a route does so when it leads to further routes. -/
def ElementKind.TakesChildren (settings : Settings) : ElementKind → Prop
  | .legacyTemplate => False
  | .route => (Fields.get? settings "type").bind Setting.asString? = some "routes"
  | _ => True

/-! ## Flattening -/

namespace Child

theorem flattenItems_append (front back : List Child) :
    flattenItems (front ++ back) = do
      let first ← flattenItems front
      let others ← flattenItems back
      return first ++ others := by
  induction front with
  | nil => cases h : flattenItems back <;> simp [flattenItems, h] <;> rfl
  | cons item rest ih =>
      rw [List.cons_append, flattenItems, flattenItems, ih]
      simp only [bind_assoc, pure_bind, List.append_assoc]

theorem flattenItems_singleton (item : Child) : flattenItems [item] = flatten item := by
  cases h : flatten item <;> simp [flattenItems, h, bind, Except.bind, pure, Except.pure]

/-- A fragment without a slot flattens to what its children flatten to. -/
theorem flatten_fragment {settings : Settings} {result : Lowered} (unslotted : settings.slot? = none)
    (lowers : lower .fragment settings = .ok result) :
    flatten (.lowered result) = flatten (settings.childAt "children") := by
  obtain ⟨descriptors, flat, made⟩ := exists_of_bind_eq_ok lowers
  obtain rfl : Lowered.fragment descriptors = result := by simpa [pure, Except.pure] using made
  obtain ⟨others, read, same⟩ := exists_of_bind_eq_ok flat
  rw [unslotted] at same
  obtain rfl : others = descriptors := by simpa [pure, Except.pure] using same
  rw [read, flatten]

/-- Regrouped children flatten to the same descriptors, or fail alike. -/
theorem flattenItems_eq_of_regrouped {left right : List Child} (regrouped : Regrouped left right) :
    flattenItems left = flattenItems right := by
  induction regrouped with
  | refl items => rfl
  | symm _ ih => exact ih.symm
  | trans _ _ first second => exact first.trans second
  | append _ _ first second => rw [flattenItems_append, flattenItems_append, first, second]
  | nested items => exact flattenItems_singleton _
  | empty => exact flattenItems_singleton _
  | fragment unslotted lowers =>
      rw [flattenItems_singleton, flattenItems_singleton, flatten_fragment unslotted lowers]

/-- What is regrouped inside a list is regrouped in the list around it. -/
theorem Regrouped.inside {left right : List Child} (regrouped : Regrouped left right) :
    Regrouped [.list left] [.list right] :=
  ((nested left).trans regrouped).trans (nested right).symm

end Child

/-! ## Settings that differ in one value -/

namespace Fields

variable {α : Type}

theorem erase_set_self (fields : Fields α) (key : String) (value : α) :
    erase (set fields key value) key = erase fields key := by
  induction fields with
  | nil => simp [set_nil, erase_cons, erase_nil]
  | cons entry rest ih =>
      obtain ⟨name, old⟩ := entry
      by_cases same : name = key
      · simp [set_cons, erase_cons, same]
      · simp [set_cons, erase_cons, same, ih]

theorem erase_set_of_ne (fields : Fields α) {key other : String} (value : α) (differ : other ≠ key) :
    erase (set fields key value) other = set (erase fields other) key value := by
  induction fields with
  | nil => simp [set_nil, erase_cons, erase_nil, differ.symm]
  | cons entry rest ih =>
      obtain ⟨name, old⟩ := entry
      by_cases same : name = key
      · subst same
        simp [set_cons, erase_cons, differ.symm]
      · by_cases found : name = other
        · subst found
          simp [set_cons, erase_cons, differ]
        · simp [set_cons, erase_cons, same, found, ih]

end Fields

theorem childAt_set_children (settings : Settings) (given : Setting) :
    Settings.childAt (Fields.set settings "children" given) "children" = given.toChild := by
  rw [Settings.childAt, Fields.get?_set_self]
  rfl

theorem slot?_set_children (settings : Settings) (given : Setting) :
    Settings.slot? (Fields.set settings "children" given) = settings.slot? := by
  rw [Settings.slot?, Settings.slot?, Fields.get?_set_of_ne _ _ (by decide)]

/-! ## Plain elements

The children of a plain element are put aside while its settings are sorted, so two values with the same
effect at the end have the same effect throughout. -/

theorem attachChildren_of_toChild_list {given : Setting} {items : List Child}
    (listed : given.toChild = .list items) (properties : Fields Json) :
    attachChildren properties (some given) = do
      let slots ← groupBySlot (← Child.flattenItems items)
      return (Fields.erase properties textProperty, some slots) := by
  have truthy : given.isTruthy = true := by
    cases given with
    | tree child => simp_all [Setting.toChild, Setting.isTruthy]
    | data value => cases value <;> simp_all [Setting.toChild, Setting.isTruthy, Child.ofJson]
  simp only [attachChildren, truthy, if_true, listed, Child.flatten]

/-- Two states of the sorting that differ in the children alone, which attach alike. -/
structure SortedSettings.Alike (first second : SortedSettings) : Prop where
  properties : first.properties = second.properties
  reserved : first.reserved = second.reserved
  slot : first.slot = second.slot
  children : ∀ properties, attachChildren properties first.children =
    attachChildren properties second.children

namespace SortedSettings

theorem Alike.refl (sorted : SortedSettings) : sorted.Alike sorted := ⟨rfl, rfl, rfl, fun _ => rfl⟩

/-- Sorting one more setting keeps two states alike. -/
theorem add_bind_of_alike {β : Type} {finish : SortedSettings → Except LowerError β}
    (ends : ∀ first second, Alike first second → finish first = finish second)
    {first second : SortedSettings} (alike : first.Alike second) (entry : String × Setting) :
    (add first entry >>= finish) = (add second entry >>= finish) := by
  rw [add, add]
  cases SettingPlace.ofKey entry.1 with
  | error failure => rfl
  | ok place =>
      cases place with
      | property name =>
          refine ends _ _ ⟨?_, alike.reserved, alike.slot, alike.children⟩
          rw [alike.properties]
      | reserved name =>
          refine ends _ _ ⟨alike.properties, ?_, alike.slot, alike.children⟩
          rw [alike.reserved]
      | slot => exact ends _ _ ⟨alike.properties, alike.reserved, rfl, alike.children⟩
      | children => exact ends _ _ ⟨alike.properties, alike.reserved, alike.slot, fun _ => rfl⟩

/-- Sorting all further settings keeps two states alike. -/
theorem foldlM_bind_of_alike {β : Type} {finish : SortedSettings → Except LowerError β}
    (ends : ∀ first second, Alike first second → finish first = finish second) (settings : Settings)
    {first second : SortedSettings} (alike : first.Alike second) :
    (settings.foldlM add first >>= finish) = (settings.foldlM add second >>= finish) := by
  induction settings generalizing first second with
  | nil => exact ends first second alike
  | cons entry rest ih =>
      rw [List.foldlM_cons, List.foldlM_cons, bind_assoc, bind_assoc]
      exact add_bind_of_alike (fun _ _ still => ih still) alike entry

/-- Sorting children that attach alike. -/
theorem add_children_bind {β : Type} {finish : SortedSettings → Except LowerError β}
    (ends : ∀ first second, Alike first second → finish first = finish second)
    {given other : Setting} (attached : ∀ properties, attachChildren properties (some given) =
      attachChildren properties (some other)) (sorted : SortedSettings) :
    (add sorted ("children", given) >>= finish) = (add sorted ("children", other) >>= finish) := by
  have place : SettingPlace.ofKey "children" = .ok .children := rfl
  simp only [add, place]
  exact ends _ _ ⟨rfl, rfl, rfl, attached⟩

/-- Sorting settings that differ in children that attach alike. -/
theorem foldlM_set_children_bind {β : Type} {finish : SortedSettings → Except LowerError β}
    (ends : ∀ first second, Alike first second → finish first = finish second)
    {given other : Setting} (attached : ∀ properties, attachChildren properties (some given) =
      attachChildren properties (some other)) (settings : Settings) (sorted : SortedSettings) :
    ((Fields.set settings "children" given).foldlM add sorted >>= finish) =
      ((Fields.set settings "children" other).foldlM add sorted >>= finish) := by
  induction settings generalizing sorted with
  | nil =>
      rw [Fields.set, Fields.set, List.foldlM_cons, List.foldlM_cons, bind_assoc, bind_assoc]
      exact add_children_bind ends attached sorted
  | cons entry rest ih =>
      obtain ⟨name, old⟩ := entry
      by_cases same : name = "children"
      · subst same
        simp only [Fields.set, beq_self_eq_true, if_true, List.foldlM_cons, bind_assoc]
        exact add_children_bind (fun _ _ alike => foldlM_bind_of_alike ends rest alike) attached sorted
      · simp only [Fields.set, beq_iff_eq, same, if_false, List.foldlM_cons, bind_assoc]
        cases add sorted (name, old) with
        | error failure => rfl
        | ok next => exact ih next

end SortedSettings

theorem lowerElement_set_children (name : String) (settings : Settings) {given other : Setting}
    (attached : ∀ properties, attachChildren properties (some given) =
      attachChildren properties (some other)) :
    lowerElement name (Fields.set settings "children" given) =
      lowerElement name (Fields.set settings "children" other) := by
  refine SortedSettings.foldlM_set_children_bind ?_ attached settings {}
  intro first second alike
  rw [alike.properties, alike.reserved, alike.slot, alike.children]

/-! ## The other constructions

They take the children out of the settings and flatten them, so only the flattened children count. -/

theorem lowerControl_set_children (name : String) (settings : Settings) {given other : Setting}
    (flat : given.toChild.flatten = other.toChild.flatten) :
    lowerControl name (Fields.set settings "children" given) =
      lowerControl name (Fields.set settings "children" other) := by
  simp only [lowerControl, childAt_set_children, slot?_set_children, Fields.erase_set_self, flat,
    Fields.get?_set_of_ne settings _ (show "value" ≠ "children" by decide)]

theorem lowerComponent_set_children (settings : Settings) {given other : Setting}
    (flat : given.toChild.flatten = other.toChild.flatten) :
    lowerComponent (Fields.set settings "children" given) =
      lowerComponent (Fields.set settings "children" other) := by
  simp only [lowerComponent, childAt_set_children, Fields.erase_set_self, flat]

theorem lowerFragment_set_children (settings : Settings) {given other : Setting}
    (flat : given.toChild.flatten = other.toChild.flatten) :
    lowerFragment (Fields.set settings "children" given) =
      lowerFragment (Fields.set settings "children" other) := by
  simp only [lowerFragment, Child.flattenInto, childAt_set_children, slot?_set_children, flat]

/-- A route that leads to further routes; any other keeps its `children` as a plain entry. -/
theorem lowerRoute_set_children {settings : Settings}
    (leads : (Fields.get? settings "type").bind Setting.asString? = some "routes")
    {given other : Setting} (flat : given.toChild.flatten = other.toChild.flatten) :
    lowerRoute (Fields.set settings "children" given) =
      lowerRoute (Fields.set settings "children" other) := by
  simp only [lowerRoute, slot?_set_children, leads,
    Fields.get?_set_of_ne settings _ (show "type" ≠ "children" by decide),
    Fields.erase_set_of_ne settings _ (show "slot" ≠ "children" by decide), childAt_set_children,
    Fields.erase_set_self, flat]

/-! ## Lowering -/

/-- Regrouping the children of a construction that takes children leaves its outcome as it is. -/
theorem lower_eq_of_regrouped {kind : ElementKind} {settings : Settings}
    (takes : kind.TakesChildren settings) {given other : Setting} {left right : List Child}
    (given_list : given.toChild = .list left) (other_list : other.toChild = .list right)
    (regrouped : Child.Regrouped left right) :
    lower kind (Fields.set settings "children" given) =
      lower kind (Fields.set settings "children" other) := by
  have items := Child.flattenItems_eq_of_regrouped regrouped
  have flat : given.toChild.flatten = other.toChild.flatten := by
    rw [given_list, other_list, Child.flatten, Child.flatten, items]
  have attached : ∀ properties, attachChildren properties (some given) =
      attachChildren properties (some other) := by
    intro properties
    rw [attachChildren_of_toChild_list given_list, attachChildren_of_toChild_list other_list, items]
  cases kind with
  | fragment => simp only [lower, lowerFragment_set_children settings flat]
  | route => simp only [lower, lowerRoute_set_children takes flat]
  | component => simp only [lower, lowerComponent_set_children settings flat]
  | forEach => simp only [lower, lowerControl_set_children _ settings flat]
  | conditional => simp only [lower, lowerControl_set_children _ settings flat]
  | switch => simp only [lower, lowerControl_set_children _ settings flat]
  | legacyTemplate => exact takes.elim
  | tag name => simp only [lower, lowerElement_set_children _ settings attached]
  | reference name => simp only [lower, lowerElement_set_children _ settings attached]

/-- A text, nothing, and a list with a fragment around a text lower as the two texts do. -/
theorem fragment_in_nested_list_lowers_as_text :
    lower (.tag "eo_box") (Fields.set [("slot", .data (.string "side"))] "children"
        (.tree (.list [.text "a", .empty, .list [.lowered (.fragment [.brick (.ofText "b")])]]))) =
      lower (.tag "eo_box") (Fields.set [("slot", .data (.string "side"))] "children"
        (.data (.array [.string "a", .string "b"]))) := by
  have takes : (ElementKind.tag "eo_box").TakesChildren [("slot", .data (.string "side"))] := trivial
  have single : lower .fragment [("children", .tree (.text "b"))] =
      .ok (.fragment [.brick (.ofText "b")]) := rfl
  have inner := (Child.Regrouped.fragment rfl single).inside.trans (.nested [.text "b"])
  exact lower_eq_of_regrouped takes rfl rfl
    ((Child.Regrouped.refl [.text "a"]).append (Child.Regrouped.empty.append inner))

end Storyboard
