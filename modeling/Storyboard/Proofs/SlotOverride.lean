import Storyboard.Proofs.ChildRegrouping
import Storyboard.Proofs.SlotGrouping

/-!
# Children that are given a slot

A fragment with a slot makes every child inside it ask for that slot, whatever the child asked for before. The
children are then placed in this one slot, or refused as they mix routes with others in it. Only data that is no
object has no place for a request: unless the slot is the unnamed one, it is placed apart from the others, and
nothing is reported.
-/

namespace Storyboard

namespace Descriptor

/-- Whether a descriptor has a place for the slot that it asks for; data has one only as an object. -/
def takesSlot : Descriptor → Bool
  | .raw (.object _) => true
  | .raw _ => false
  | _ => true

/-- A request takes nothing away from a descriptor and leaves nothing behind once it has been placed. -/
theorem placed_withSlot (slot : String) (descriptor : Descriptor) :
    (descriptor.withSlot slot).placed = descriptor.placed := by
  unfold withSlot
  split
  · rfl
  · rfl
  · simp [placed, Fields.erase_set_self]
  · rfl

/-- Being given a slot does not change whether a descriptor has a place for one. -/
theorem takesSlot_withSlot (slot : String) (descriptor : Descriptor) :
    (descriptor.withSlot slot).takesSlot = descriptor.takesSlot := by
  unfold withSlot
  split <;> rfl

/-- A descriptor asks for the slot that it is given, if it has a place for it. -/
theorem slotName_withSlot (slot : String) {descriptor : Descriptor} (takes : descriptor.takesSlot = true) :
    (descriptor.withSlot slot).slotName = slot := by
  unfold withSlot
  split
  · rfl
  · rfl
  · simp [slotName, Json.field?, Fields.get?_set_self, slotName?]
  · rename_i value no_object
    cases value with
    | object fields => exact absurd rfl (no_object fields)
    | _ => cases takes

/-- Data without a place for a slot asks for the unnamed one, and for a place among bricks. -/
theorem slotName_of_takesSlot_eq_false {descriptor : Descriptor} (placeless : descriptor.takesSlot = false) :
    descriptor.slotName = "" ∧ descriptor.slotKind = .bricks := by
  cases descriptor with
  | brick brick => cases placeless
  | route route => cases placeless
  | raw value =>
      cases value with
      | object fields => cases placeless
      | _ => exact ⟨rfl, rfl⟩

end Descriptor

/-- Flattened children that are given a slot are the flattened children, each with its own request replaced. -/
theorem Child.flattenInto_some_eq_ok_iff {child : Child} {slot : String} {children : List Descriptor} :
    child.flattenInto (some slot) = .ok children ↔
      ∃ flat, child.flatten = .ok flat ∧ children = flat.map (Descriptor.withSlot slot) := by
  rw [flattenInto]
  cases child.flatten with
  | error error => exact iff_of_false (fun given => by cases given) (by simp)
  | ok flat =>
      refine ⟨fun given => ⟨flat, rfl, (Except.ok.inj given).symm⟩, ?_⟩
      rintro ⟨flat', same, rfl⟩
      obtain rfl := Except.ok.inj same
      rfl

/-- Slots hold all children in the one slot of a name, in their order and without their requests. -/
def IsGathered (slot : String) (children : List Descriptor) (slots : Fields Bucket) : Prop :=
  (children = [] ∧ slots = []) ∨
    ∃ bucket, slots = [(slot, bucket)] ∧ bucket.contents = children.map Descriptor.placed

namespace IsGrouping

variable {children : List Descriptor} {slots : Fields Bucket} {slot : String}

/-- Children that all ask for one slot are gathered in it. -/
theorem isGathered (grouping : IsGrouping children slots) (asks : ∀ d ∈ children, d.slotName = slot) :
    IsGathered slot children slots := by
  cases children with
  | nil => exact .inl ⟨rfl, List.map_eq_nil_iff.mp grouping.names⟩
  | cons first others =>
      have others_ask : ((others.map Descriptor.slotName).filter fun name => !name == slot) = [] := by
        simpa using fun d member => asks d (List.mem_cons_of_mem _ member)
      have names : Fields.keys slots = [slot] := by
        rw [grouping.names, List.map_cons, asks first List.mem_cons_self, List.eraseDups_cons, others_ask]
        rfl
      obtain ⟨⟨name, bucket⟩, rfl, rfl⟩ := List.map_eq_singleton_iff.mp names
      have whole : ((first :: others).filter fun d => d.slotName = name) = first :: others :=
        List.filter_eq_self.mpr fun d member => decide_eq_true (asks d member)
      refine .inr ⟨bucket, rfl, ?_⟩
      rw [grouping.contents name bucket (by simp [Fields.get?]), whole]

/-- A child is placed in the slot that it asks for. -/
theorem exists_bucket (grouping : IsGrouping children slots) {child : Descriptor} (member : child ∈ children) :
    ∃ bucket, Fields.get? slots child.slotName = some bucket ∧ child.placed ∈ bucket.contents := by
  obtain ⟨bucket, found⟩ := grouping.exists_get?_iff.mpr ⟨child, member, rfl⟩
  refine ⟨bucket, found, ?_⟩
  rw [grouping.contents _ _ found]
  exact List.mem_map_of_mem (List.mem_filter.mpr ⟨member, decide_eq_true rfl⟩)

/-- Children that are gathered in one slot all ask for it. -/
theorem slotName_eq_of_isGathered (grouping : IsGrouping children slots) (gathered : IsGathered slot children slots)
    {child : Descriptor} (member : child ∈ children) : child.slotName = slot := by
  rcases gathered with ⟨rfl, -⟩ | ⟨bucket, rfl, -⟩
  · cases member
  · obtain ⟨bucket', found, -⟩ := grouping.exists_bucket member
    exact (Prod.mk.inj (List.mem_singleton.mp (Fields.mem_of_get? found))).1

end IsGrouping

/-- Children that are given a slot keep everything but their own requests. If they can not be grouped, it is because
they mix routes with others in this slot. If they can, they are gathered in this slot exactly if it is the unnamed
one or every child has a place for the request; a child without one is in the unnamed slot in any case. -/
theorem given_slot_gathers_children_iff {child : Child} {slot : String} {children : List Descriptor}
    (given : child.flattenInto (some slot) = .ok children) :
    (∃ flat, child.flatten = .ok flat ∧ children.map Descriptor.placed = flat.map Descriptor.placed ∧
        ∀ d ∈ children, d.takesSlot = true → d.slotName = slot) ∧
      (∀ error, groupBySlot children = .error error → error = .mixedSlot slot) ∧
      ∀ slots, groupBySlot children = .ok slots →
        (IsGathered slot children slots ↔ slot = "" ∨ ∀ d ∈ children, d.takesSlot = true) ∧
        ∀ d ∈ children, d.takesSlot = false →
          ∃ bucket, Fields.get? slots "" = some bucket ∧ d.placed ∈ bucket.contents := by
  obtain ⟨flat, flattened, rfl⟩ := Child.flattenInto_some_eq_ok_iff.mp given
  have asks : ∀ d ∈ flat.map (Descriptor.withSlot slot), d.takesSlot = true → d.slotName = slot := by
    intro d member takes
    obtain ⟨before, -, rfl⟩ := List.mem_map.mp member
    exact Descriptor.slotName_withSlot slot (Descriptor.takesSlot_withSlot slot before ▸ takes)
  refine ⟨⟨flat, flattened, by simp [Descriptor.placed_withSlot], asks⟩, ?_, ?_⟩
  · intro error refused
    obtain ⟨name, ⟨front, misfit, back, split_eq, -, rfl, earlier, earlier_mem, apart⟩, rfl⟩ :=
      groupBySlot_eq_error_iff.mp refused
    obtain ⟨same, differ⟩ := Classical.not_imp.mp apart
    have earlier_asks := asks earlier (by simp [split_eq, earlier_mem])
    have misfit_asks := asks misfit (by simp [split_eq])
    -- of two children that do not go together, one is a route or has a place for its request
    cases takes : misfit.takesSlot with
    | true => rw [misfit_asks takes]
    | false =>
        cases takes_earlier : earlier.takesSlot with
        | true => rw [← same, earlier_asks takes_earlier]
        | false =>
            have kinds := (Descriptor.slotName_of_takesSlot_eq_false takes_earlier).2.trans
              (Descriptor.slotName_of_takesSlot_eq_false takes).2.symm
            exact absurd kinds differ
  · intro slots grouped
    have grouping := groupBySlot_eq_ok_iff.mp grouped
    refine ⟨⟨fun gathered => ?_, fun either => grouping.isGathered fun d member => ?_⟩, fun d member placeless => ?_⟩
    · by_cases unnamed : slot = ""
      · exact .inl unnamed
      · refine .inr fun d member => eq_true_of_ne_false fun placeless => unnamed ?_
        rw [← grouping.slotName_eq_of_isGathered gathered member,
          (Descriptor.slotName_of_takesSlot_eq_false placeless).1]
    · cases takes : d.takesSlot with
      | true => exact asks d member takes
      | false =>
          rcases either with rfl | all
          · exact (Descriptor.slotName_of_takesSlot_eq_false takes).1
          · rw [all d member] at takes
            cases takes
    · rw [← (Descriptor.slotName_of_takesSlot_eq_false placeless).1]
      exact grouping.exists_bucket member

/-- A text, a nested unit that asks for another slot, and data whose request is no text. -/
def scatteredChildren : Child :=
  .list [.text "a",
    .list [.lowered (.fragment [.brick { Brick.ofText "b" with slot := some "main" }]), .empty],
    .lowered (.descriptor (.raw (.object [("slot", .bool true), ("id", .string "x")])))]

/-- Children of several slots are gathered in the slot that they are given. -/
theorem scattered_children_are_gathered :
    ∃ children slots, scatteredChildren.flattenInto (some "side") = .ok children ∧
      groupBySlot children = .ok slots ∧ IsGathered "side" children slots ∧
      slots = [("side", .bricks [.brick (.ofText "a"), .brick (.ofText "b"), .raw (.object [("id", .string "x")])])] := by
  refine ⟨_, _, rfl, rfl, ?_, rfl⟩
  refine ((@given_slot_gathers_children_iff scatteredChildren "side" _ rfl).2.2 _ rfl).1.mpr (.inr ?_)
  simp [Descriptor.withSlot, Descriptor.takesSlot]

/-- A number that is given a slot is placed in the unnamed one, without a failure. -/
theorem number_misses_given_slot :
    ∃ children slots, (Child.ofJson (.number (.whole 1))).flattenInto (some "side") = .ok children ∧
      groupBySlot children = .ok slots ∧ slots = [("", .bricks [.raw (.number (.whole 1))])] ∧
      ¬IsGathered "side" children slots := by
  refine ⟨_, _, rfl, rfl, rfl, ?_⟩
  rintro (⟨none, -⟩ | ⟨bucket, moved, -⟩)
  · cases none
  · simp [Fields.set] at moved

end Storyboard
