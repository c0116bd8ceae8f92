import Storyboard.Proofs.OwnFields

/-!
# Where the settings of a plain element go

A setting of a plain element gives a property or an entry of the unit itself, by its own name or by what follows
its namespace; `slot` and `children` have a use of their own. Settings that give one name share the place of the
first and leave the value of the last. Children then decide about the text property: a text becomes it, and
children in slots take its place.
-/

namespace Storyboard

/-! ## Names -/

/-- Whether a name stands in a namespace that is not known. -/
def hasUnknownNamespace (key : String) : Bool :=
  key.toList.contains ':' && !"prop:".toList.isPrefixOf key.toList && !"conf:".toList.isPrefixOf key.toList

/-- The name of the property that a setting gives: the name in the namespace `prop`, or a name in no namespace
that has no other use. -/
def propertyName? (key : String) : Option String :=
  if key.toList.contains ':' then afterLeading? "prop:" key
  else if key ∈ "slot" :: "children" :: reservedNames then none
  else some key

/-- The name of the entry of the unit itself that a setting gives: the name in the namespace `conf`, or a
reserved name in no namespace. -/
def reservedName? (key : String) : Option String :=
  if key.toList.contains ':' then afterLeading? "conf:" key
  else if key ∈ reservedNames then some key
  else none

theorem propertyName?_eq_some_iff {key name : String} :
    propertyName? key = some name ↔
      key = "prop:" ++ name ∨
        key = name ∧ ':' ∉ name.toList ∧ name ∉ "slot" :: "children" :: reservedNames := by
  unfold propertyName?
  by_cases colon : key.toList.contains ':' = true
  · rw [if_pos colon, afterLeading?_eq_some_iff, or_iff_left]
    rintro ⟨rfl, plain, -⟩
    exact plain (List.contains_iff_mem.mp colon)
  · rw [if_neg colon]
    have other : key ≠ "prop:" ++ name := by
      rintro rfl
      simp at colon
    rw [or_iff_right other]
    rw [List.contains_iff_mem] at colon
    split <;> grind

theorem reservedName?_eq_some_iff {key name : String} :
    reservedName? key = some name ↔ key = "conf:" ++ name ∨ (key = name ∧ name ∈ reservedNames) := by
  unfold reservedName?
  have plain : ∀ name ∈ reservedNames, ¬name.toList.contains ':' = true := by decide
  by_cases colon : key.toList.contains ':' = true
  · rw [if_pos colon, afterLeading?_eq_some_iff, or_iff_left]
    rintro ⟨rfl, reserved⟩
    exact plain key reserved colon
  · rw [if_neg colon]
    have other : key ≠ "conf:" ++ name := by
      rintro rfl
      simp at colon
    rw [or_iff_right other]
    split <;> grind

/-- No name stands in both namespaces. -/
theorem afterLeading?_conf_of_prop {key name : String} (prop : afterLeading? "prop:" key = some name) :
    afterLeading? "conf:" key = none := by
  rw [afterLeading?_eq_some_iff] at prop
  rw [Option.eq_none_iff_forall_ne_some]
  intro other conf
  rw [afterLeading?_eq_some_iff] at conf
  simp [prop, ← String.toList_inj] at conf

theorem hasUnknownNamespace_eq (key : String) :
    hasUnknownNamespace key =
      (key.toList.contains ':' && (afterLeading? "prop:" key).isNone && (afterLeading? "conf:" key).isNone) := by
  unfold hasUnknownNamespace afterLeading?
  cases "prop:".toList.isPrefixOf key.toList <;> cases "conf:".toList.isPrefixOf key.toList <;> simp

/-- The five places that a name can lead to, each with what else is known of the name. -/
inductive SettingPlace.Found (key : String) : Except LowerError SettingPlace → Prop
  | unknown (unknown : hasUnknownNamespace key = true) : Found key (.error (.unsupportedNamespace key))
  | property {name : String} (known : hasUnknownNamespace key = false) (given : propertyName? key = some name)
      (unreserved : reservedName? key = none) (no_slot : key ≠ "slot") (no_children : key ≠ "children") :
      Found key (.ok (.property name))
  | reserved {name : String} (known : hasUnknownNamespace key = false) (given : propertyName? key = none)
      (reserved : reservedName? key = some name) (no_slot : key ≠ "slot") (no_children : key ≠ "children") :
      Found key (.ok (.reserved name))
  | slot (slot : key = "slot") : Found key (.ok .slot)
  | children (children : key = "children") : Found key (.ok .children)

theorem SettingPlace.found_ofKey (key : String) : Found key (ofKey key) := by
  unfold ofKey
  by_cases colon : key.toList.contains ':' = true
  · have no_slot : key ≠ "slot" := by
      rintro rfl
      simp at colon
    have no_children : key ≠ "children" := by
      rintro rfl
      simp at colon
    have property_eq : propertyName? key = afterLeading? "prop:" key := if_pos colon
    have reserved_eq : reservedName? key = afterLeading? "conf:" key := if_pos colon
    rw [if_pos colon]
    cases prop : afterLeading? "prop:" key with
    | some name =>
        have known : hasUnknownNamespace key = false := by simp [hasUnknownNamespace_eq, prop]
        exact .property known (property_eq.trans prop) (reserved_eq.trans (afterLeading?_conf_of_prop prop))
          no_slot no_children
    | none =>
        cases conf : afterLeading? "conf:" key with
        | some name =>
            have known : hasUnknownNamespace key = false := by simp [hasUnknownNamespace_eq, conf]
            exact .reserved known (property_eq.trans prop) (reserved_eq.trans conf) no_slot no_children
        | none => exact .unknown (by rw [hasUnknownNamespace_eq, colon, prop, conf]; rfl)
  · have known : hasUnknownNamespace key = false := by
      rw [hasUnknownNamespace_eq, Bool.eq_false_iff.mpr colon]
      rfl
    rw [if_neg colon]
    split
    · rename_i slot
      exact .slot (eq_of_beq slot)
    rename_i no_slot
    split
    · rename_i children
      exact .children (eq_of_beq children)
    rename_i no_children
    rw [beq_iff_eq] at no_slot no_children
    split
    · rename_i reserved
      rw [List.contains_iff_mem] at reserved
      exact .reserved known (by simp_all [propertyName?]) (by simp_all [reservedName?]) no_slot no_children
    · rename_i unreserved
      rw [List.contains_iff_mem] at unreserved
      exact .property known (by simp_all [propertyName?]) (by simp_all [reservedName?]) no_slot no_children

/-! ## Sorting -/

/-- What settings give under certain names, in their order. -/
def Settings.given (name? : String → Option String) (settings : Settings) : List (String × Json) :=
  settings.filterMap fun entry => (name? entry.1).map fun name => (name, entry.2.toJson)

theorem Settings.given_singleton (name? : String → Option String) (entry : String × Setting) :
    Settings.given name? [entry] = ((name? entry.1).map fun name => (name, entry.2.toJson)).toList := by
  simp only [given, List.filterMap_cons, List.filterMap_nil]
  cases name? entry.1 <;> rfl

namespace SortedSettings

/-- The state of the sorting after further settings, all in known namespaces. -/
def after (sorted : SortedSettings) (settings : Settings) : SortedSettings where
  properties := Fields.setAll sorted.properties (settings.given propertyName?)
  reserved := Fields.setAll sorted.reserved (settings.given reservedName?)
  slot := ((settings.reverse.lookup "slot").map fun setting => slotName? setting.toJson).getD sorted.slot
  children := (settings.reverse.lookup "children").or sorted.children

theorem add_eq (sorted : SortedSettings) (entry : String × Setting) :
    sorted.add entry =
      if hasUnknownNamespace entry.1 then .error (.unsupportedNamespace entry.1)
      else .ok (sorted.after [entry]) := by
  obtain ⟨key, setting⟩ := entry
  have absent : ∀ other, key ≠ other → [(key, setting)].reverse.lookup other = none := fun other apart => by
    simp [List.lookup_cons, beq_false_of_ne apart.symm]
  unfold add after
  rw [Settings.given_singleton, Settings.given_singleton]
  dsimp only
  have found := SettingPlace.found_ofKey key
  generalize SettingPlace.ofKey key = place at found
  cases found with
  | unknown unknown =>
      rw [if_pos unknown]
      rfl
  | property known given unreserved no_slot no_children =>
      rw [known, given, unreserved, absent _ no_slot, absent _ no_children]
      rfl
  | reserved known given reserved no_slot no_children =>
      rw [known, given, reserved, absent _ no_slot, absent _ no_children]
      rfl
  | slot slot =>
      subst slot
      have known : hasUnknownNamespace "slot" = false := by decide
      have given : propertyName? "slot" = none := by decide
      have unreserved : reservedName? "slot" = none := by decide
      rw [known, given, unreserved]
      rfl
  | children children =>
      subst children
      have known : hasUnknownNamespace "children" = false := by decide
      have given : propertyName? "children" = none := by decide
      have unreserved : reservedName? "children" = none := by decide
      rw [known, given, unreserved]
      rfl

theorem after_after (sorted : SortedSettings) (first last : Settings) :
    (sorted.after first).after last = sorted.after (first ++ last) := by
  simp only [after, Settings.given, List.filterMap_append, Fields.setAll, List.foldl_append, List.reverse_append,
    List.lookup_append, Option.or_assoc, mk.injEq, true_and, and_true]
  cases List.lookup "slot" last.reverse <;> rfl

/-- Sorting settings stops at the first name in an unknown namespace. -/
theorem foldlM_add_eq (sorted : SortedSettings) (settings : Settings) :
    settings.foldlM add sorted =
      match settings.find? fun entry => hasUnknownNamespace entry.1 with
      | some entry => .error (.unsupportedNamespace entry.1)
      | none => .ok (sorted.after settings) := by
  induction settings generalizing sorted with
  | nil => rfl
  | cons entry rest ih =>
      rw [List.foldlM_cons, add_eq, List.find?_cons]
      cases unknown : hasUnknownNamespace entry.1 with
      | true => rfl
      | false =>
          change rest.foldlM add (sorted.after [entry]) = _
          rw [ih, after_after, List.singleton_append]

end SortedSettings

/-- What settings give under certain names, each name once. -/
theorem Settings.get?_ofEntries_given (name? : String → Option String) (settings : Settings) (name : String) :
    Fields.get? (.ofEntries (settings.given name?)) name =
      ((settings.filter fun entry => name? entry.1 = some name).getLast?).map fun entry => entry.2.toJson := by
  rw [← settings.reverse_reverse]
  generalize settings.reverse = latest
  induction latest with
  | nil => rfl
  | cons entry rest ih =>
      rw [List.reverse_cons, given, List.filterMap_append, List.filter_append, List.filterMap_cons, List.filter_cons]
      cases given_eq : name? entry.1 with
      | none => simpa [given_eq, given] using ih
      | some other =>
          simp only [Option.map_some, List.filterMap_nil, Fields.ofEntries_concat, Option.some.injEq]
          by_cases same : other = name
          · subst same
            simp [Fields.get?_set_self]
          · simpa [same, given, Fields.get?_set_of_ne _ _ (Ne.symm same)] using ih

theorem Settings.keys_ofEntries_given (name? : String → Option String) (settings : Settings) :
    Fields.keys (.ofEntries (settings.given name?)) =
      (settings.filterMap fun entry => name? entry.1).eraseDups := by
  rw [Fields.keys_ofEntries, given, List.map_filterMap]
  congr 2
  funext entry
  cases name? entry.1 <;> rfl

/-! ## Children -/

namespace Setting

theorem toChild_eq_text_iff {setting : Setting} {text : String} :
    setting.toChild = .text text ↔ setting.asString? = some text := by
  cases setting with
  | data value => cases value <;> simp [toChild, Child.ofJson, asString?]
  | tree child => cases child <;> simp [toChild, asString?]

theorem isTruthy_of_asString? {setting : Setting} {text : String} (is_text : setting.asString? = some text) :
    setting.isTruthy = (text != "") := by
  cases setting with
  | data value => cases value <;> simp_all [asString?, isTruthy]
  | tree child => cases child <;> simp_all [asString?, isTruthy]

end Setting

theorem attachChildren_eq (properties : Fields Json) (given : Setting) :
    attachChildren properties (some given) =
      if given.isTruthy then
        match given.asString? with
        | some text => .ok (Fields.set properties textProperty (.string text), none)
        | none => do
          let slots ← groupBySlot (← given.toChild.flatten)
          return (Fields.erase properties textProperty, some slots)
      else .ok (properties, none) := by
  rw [attachChildren]
  split
  · cases is_text : given.asString? with
    | some text => rw [Setting.toChild_eq_text_iff.mpr is_text]
    | none =>
        split
        · rename_i text text_eq
          rw [Setting.toChild_eq_text_iff.mp text_eq] at is_text
          cases is_text
        · rfl
  · rfl

/-! ## What a plain element holds -/

/-- A plain element: a tag, or a component known by name. -/
def ElementKind.IsPlain : ElementKind → Prop
  | .tag _ | .reference _ => True
  | _ => False

/-- Fields hold what settings give under certain names: exactly the names that some setting gives, in the order
in which they are first given, each with the value of the last setting that gives it. Hidden names are left out
of account. -/
structure Settings.Fill (settings : Settings) (name? : String → Option String) (hidden : List String)
    (fields : Fields Json) : Prop where
  names : (Fields.keys fields).filter (· ∉ hidden) =
    (settings.filterMap fun entry => name? entry.1).eraseDups.filter (· ∉ hidden)
  values : ∀ name ∉ hidden, Fields.get? fields name =
    ((settings.filter fun entry => name? entry.1 = some name).getLast?).map fun entry => entry.2.toJson

/-- What children make of the text property and the slots of a plain element. -/
structure Settings.RuleText (settings : Settings) (properties : Fields Json) (slots : Option (Fields Bucket)) :
    Prop where
  /-- A text becomes the text property. -/
  text : ∀ given text, Fields.get? settings "children" = some given → given.asString? = some text → text ≠ "" →
    Fields.get? properties textProperty = some (.string text) ∧ slots = none
  /-- Other children that are present go into slots, and there is no text property. -/
  inSlots : ∀ given, Fields.get? settings "children" = some given → given.isTruthy = true →
    given.asString? = none → Fields.get? properties textProperty = none ∧ slots.isSome = true
  /-- Without children the text property is given by the settings like any other. -/
  without : (∀ given, Fields.get? settings "children" = some given → given.isTruthy = false) →
    Settings.Fill settings propertyName? [] properties ∧ slots = none

theorem Settings.fill_ofEntries (settings : Settings) (name? : String → Option String) (hidden : List String) :
    settings.Fill name? hidden (.ofEntries (settings.given name?)) where
  names := by rw [keys_ofEntries_given]
  values name _ := get?_ofEntries_given name? settings name

theorem Fields.filter_keys_erase {α : Type} (fields : Fields α) (key : String) :
    (keys (erase fields key)).filter (· ∉ [key]) = (keys fields).filter (· ∉ [key]) := by
  induction fields with
  | nil => rfl
  | cons entry rest ih =>
      obtain ⟨name, value⟩ := entry
      by_cases same : name = key
      · simp [erase, keys, same]
      · simpa [erase, keys, same] using ih

/-- Removing a hidden name changes nothing else. -/
theorem Settings.Fill.erase {settings : Settings} {name? : String → Option String} {key : String}
    {fields : Fields Json} (fill : settings.Fill name? [key] fields) :
    settings.Fill name? [key] (Fields.erase fields key) where
  names := (Fields.filter_keys_erase fields key).trans fill.names
  values name free := by
    rw [Fields.get?_erase_of_ne _ (by simpa using free), fill.values name free]

/-- Storing a hidden name changes nothing else. -/
theorem Settings.Fill.set {settings : Settings} {name? : String → Option String} {key : String}
    {fields : Fields Json} (fill : settings.Fill name? [key] fields) (value : Json) :
    settings.Fill name? [key] (Fields.set fields key value) where
  names := by
    rw [← fill.names, Fields.keys_set]
    split <;> simp
  values name free := by
    rw [Fields.get?_set_of_ne _ _ (by simpa using free), fill.values name free]

theorem ElementKind.IsPlain.exists_lowerElement {kind : ElementKind} (plain : kind.IsPlain) {settings : Settings}
    {value : Lowered} (lowered : lower kind settings = .ok value) :
    ∃ name brick, lowerElement name settings = .ok brick ∧ value = .descriptor (.brick brick) := by
  cases kind with
  | tag name =>
      obtain ⟨brick, brick_eq, given⟩ := exists_of_bind_eq_ok lowered
      exact ⟨_, brick, brick_eq, (Except.ok.inj given).symm⟩
  | reference name =>
      obtain ⟨brick, brick_eq, given⟩ := exists_of_bind_eq_ok lowered
      exact ⟨_, brick, brick_eq, (Except.ok.inj given).symm⟩
  | _ => exact plain.elim

theorem lookup_reverse_eq_get? {α : Type} {fields : Fields α} (distinct : (Fields.keys fields).Nodup)
    (name : String) : fields.reverse.lookup name = Fields.get? fields name := by
  rw [← Fields.get?_ofEntries_of_nodup distinct, Fields.ofEntries, Fields.get?_setAll, Fields.get?, Option.or_none]

/-- Lowering a plain element: all settings go where their names say, and the children are attached. -/
theorem lowerElement_eq (name : String) {settings : Settings} (distinct : (Fields.keys settings).Nodup) :
    lowerElement name settings =
      match settings.find? fun entry => hasUnknownNamespace entry.1 with
      | some entry => .error (.unsupportedNamespace entry.1)
      | none => do
        let (properties, slots) ← attachChildren (Fields.ofEntries (settings.given propertyName?))
          (Fields.get? settings "children")
        return { name, properties := some properties, dataSource := none, slots, slot := settings.slot?
                 config := Fields.ofEntries (settings.given reservedName?) } := by
  have sorted_eq : SortedSettings.after {} settings =
      { properties := Fields.ofEntries (settings.given propertyName?)
        reserved := Fields.ofEntries (settings.given reservedName?)
        slot := settings.slot?
        children := Fields.get? settings "children" } := by
    rw [SortedSettings.after, lookup_reverse_eq_get? distinct, lookup_reverse_eq_get? distinct, Option.or_none,
      Settings.slot?]
    cases Fields.get? settings "slot" <;> rfl
  rw [lowerElement, SortedSettings.foldlM_add_eq, sorted_eq]
  cases settings.find? fun entry => hasUnknownNamespace entry.1 <;> rfl

theorem Settings.Fill.mem_keys_iff {settings : Settings} {name? : String → Option String}
    {hidden : List String} {fields : Fields Json} (fill : settings.Fill name? hidden fields) {name : String}
    (free : name ∉ hidden) :
    name ∈ Fields.keys fields ↔ ∃ key ∈ Fields.keys settings, name? key = some name := by
  have listed : name ∈ (Fields.keys fields).filter (· ∉ hidden) ↔ name ∈ Fields.keys fields := by
    simp [free]
  rw [← listed, fill.names]
  simp [free, Fields.keys]

/-- The names `slot` and `children` are given in their namespaces only. -/
theorem Settings.Fill.mem_keys_own_iff {settings : Settings} {name? : String → Option String}
    {hidden : List String} {fields : Fields Json} (fill : settings.Fill name? hidden fields) {leading own : String}
    (free : own ∉ hidden) (only : ∀ key, name? key = some own ↔ key = leading ++ own) :
    own ∈ Fields.keys fields ↔ leading ++ own ∈ Fields.keys settings := by
  rw [fill.mem_keys_iff free]
  constructor
  · rintro ⟨key, member, given⟩
    exact (only key).mp given ▸ member
  · exact fun member => ⟨_, member, (only _).mpr rfl⟩

/-- Attaching children touches the text property alone. -/
theorem Settings.ruleText_of_attachChildren {settings : Settings} {attached : Fields Json}
    {slots : Option (Fields Bucket)}
    (attaches : attachChildren (Fields.ofEntries (settings.given propertyName?))
      (Fields.get? settings "children") = .ok (attached, slots)) :
    settings.Fill propertyName? [textProperty] attached ∧ settings.RuleText attached slots := by
  have fill := settings.fill_ofEntries propertyName?
  cases children : Fields.get? settings "children" with
  | none =>
      rw [children] at attaches
      obtain ⟨rfl, rfl⟩ := Prod.mk.inj (Except.ok.inj attaches)
      exact ⟨fill _, by simp [children], by simp [children], fun _ => ⟨fill [], rfl⟩⟩
  | some given =>
      rw [children, attachChildren_eq] at attaches
      cases truthy : given.isTruthy with
      | false =>
          rw [truthy] at attaches
          obtain ⟨rfl, rfl⟩ := Prod.mk.inj (Except.ok.inj attaches)
          refine ⟨fill _, ?_, ?_, fun _ => ⟨fill [], rfl⟩⟩
          · intro other text found is_text filled
            obtain rfl := Option.some.inj (children.symm.trans found)
            simp [Setting.isTruthy_of_asString? is_text, filled] at truthy
          · intro other found present
            obtain rfl := Option.some.inj (children.symm.trans found)
            simp [truthy] at present
      | true =>
          rw [truthy, if_pos rfl] at attaches
          have present : ¬∀ other, Fields.get? settings "children" = some other → other.isTruthy = false :=
            fun absent => by simp [absent given children] at truthy
          cases is_text : given.asString? with
          | some text =>
              rw [is_text] at attaches
              obtain ⟨rfl, rfl⟩ := Prod.mk.inj (Except.ok.inj attaches)
              refine ⟨(fill _).set _, ?_, ?_, fun absent => absurd absent present⟩
              · intro other content found given_text _
                obtain rfl := Option.some.inj (children.symm.trans found)
                obtain rfl := Option.some.inj (is_text.symm.trans given_text)
                exact ⟨Fields.get?_set_self _ _ _, rfl⟩
              · intro other found _ no_text
                obtain rfl := Option.some.inj (children.symm.trans found)
                simp [is_text] at no_text
          | none =>
              rw [is_text] at attaches
              obtain ⟨flat, -, attaches⟩ := exists_of_bind_eq_ok attaches
              obtain ⟨grouped, -, attaches⟩ := exists_of_bind_eq_ok attaches
              obtain ⟨rfl, rfl⟩ := Prod.mk.inj (Except.ok.inj attaches)
              refine ⟨(fill _).erase, ?_, ?_, fun absent => absurd absent present⟩
              · intro other content found given_text _
                obtain rfl := Option.some.inj (children.symm.trans found)
                simp [is_text] at given_text
              · intro other _ _ _
                exact ⟨Fields.get?_erase_self (Fields.nodup_keys_ofEntries _) _, rfl⟩

/-- A plain element holds what its settings give. Its properties are the settings in the namespace `prop` and
the plain ones without another use, and its own entries are those in the namespace `conf` and the reserved
ones: each name stands where it is first given and has the value given last. The names `slot` and `children`
come from the namespaces only. The text property is the text of the children, or is gone if there are slots, or
is given like any other property. -/
theorem plain_element_holds_settings {kind : ElementKind} (plain : kind.IsPlain)
    {entries : List (String × Setting)} {value : Lowered}
    (lowered : lower kind (.ofEntries entries) = .ok value) :
    ∃ brick properties, value = .descriptor (.brick brick) ∧ brick.properties = some properties ∧
      Settings.Fill (.ofEntries entries) propertyName? [textProperty] properties ∧
      Settings.Fill (.ofEntries entries) reservedName? [] brick.config ∧
      (∀ own ∈ ["slot", "children"],
        (own ∈ Fields.keys properties ↔ "prop:" ++ own ∈ Fields.keys (.ofEntries entries)) ∧
          (own ∈ Fields.keys brick.config ↔ "conf:" ++ own ∈ Fields.keys (.ofEntries entries))) ∧
      Settings.RuleText (.ofEntries entries) properties brick.slots := by
  obtain ⟨name, brick, brick_eq, rfl⟩ := plain.exists_lowerElement lowered
  rw [lowerElement_eq name (Fields.nodup_keys_ofEntries entries)] at brick_eq
  split at brick_eq
  · cases brick_eq
  obtain ⟨⟨properties, slots⟩, attaches, made⟩ := exists_of_bind_eq_ok brick_eq
  obtain rfl := Except.ok.inj made
  obtain ⟨fill, ruleText⟩ := Settings.ruleText_of_attachChildren attaches
  have reserved_fill := Settings.fill_ofEntries (.ofEntries entries) reservedName? []
  refine ⟨_, properties, rfl, rfl, fill, reserved_fill, fun own member => ⟨?_, ?_⟩, ruleText⟩
  · have free : ∀ own ∈ ["slot", "children"], own ∉ [textProperty] := by decide
    refine fill.mem_keys_own_iff (free own member) fun key => ?_
    rw [propertyName?_eq_some_iff, or_iff_left]
    grind
  · refine reserved_fill.mem_keys_own_iff (by simp) fun key => ?_
    have free : ∀ own ∈ ["slot", "children"], own ∉ reservedNames := by decide
    rw [reservedName?_eq_some_iff, or_iff_left fun reserved => free own member reserved.2]

/-- Settings that give a property and an own entry twice each, besides a name with two colons, a text property
and children. -/
def collidingSettings : List (String × Setting) :=
  [("label", .data (.string "first")), ("textContent", .data (.string "old")), ("conf:if", .data (.bool false)),
    ("prop:on:click", .data .null), ("prop:label", .data (.string "last")), ("if", .data (.bool true)),
    ("prop:slot", .data (.string "own")), ("slot", .data (.string "foot")),
    ("children", .tree (.list [.text "new"]))]

/-- The properties that they give. -/
def collidingProperties : Fields Json := [("label", .string "last"), ("on:click", .null), ("slot", .string "own")]

/-- What they give to a box. -/
def collidingBox : Brick where
  name := "eo.box"
  properties := some collidingProperties
  dataSource := none
  slots := some [("", .bricks [.brick (.ofText "new")])]
  slot := some "foot"
  config := [("if", .bool true)]

/-- Each name keeps its first place and its last value, and the slots take the place of the text property. -/
theorem colliding_settings_fill_box :
    lower (.reference "eo.box") (.ofEntries collidingSettings) = .ok (.descriptor (.brick collidingBox)) ∧
      Settings.Fill (.ofEntries collidingSettings) propertyName? [textProperty] collidingProperties ∧
      Settings.Fill (.ofEntries collidingSettings) reservedName? [] [("if", .bool true)] ∧
      Settings.RuleText (.ofEntries collidingSettings) collidingProperties collidingBox.slots := by
  have plain : (ElementKind.reference "eo.box").IsPlain := trivial
  have lowered : lower (.reference "eo.box") (.ofEntries collidingSettings) =
      .ok (.descriptor (.brick collidingBox)) := rfl
  obtain ⟨brick, properties, value_eq, properties_eq, fill, reserved_fill, -, ruleText⟩ :=
    plain_element_holds_settings plain lowered
  obtain rfl := Descriptor.brick.inj (Lowered.descriptor.inj value_eq)
  obtain rfl := Option.some.inj properties_eq
  exact ⟨lowered, fill, reserved_fill, ruleText⟩

end Storyboard
