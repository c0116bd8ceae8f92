import Storyboard.Proofs.SlotContents

/-!
# Grouping by slot

Descriptors are placed one after the other, each in the slot that it asks for, and a slot takes descriptors of
one kind only. Grouping succeeds exactly if no slot is asked for by both kinds. Then the slots stand in the
order in which they are first asked for, and each holds its descriptors in their own order, without their
requests. Otherwise the slot of the first descriptor is named that does not fit those before it.
-/

namespace Storyboard

namespace Descriptor

/-- The name of the slot that a descriptor asks for; it is empty if the descriptor asks for none. -/
def slotName : Descriptor → String
  | .brick b => b.slot.getD ""
  | .route r => r.slot.getD ""
  | .raw value => ((value.field? "slot").bind slotName?).getD ""

/-- A descriptor without its request for a slot, and with all else as it was. -/
def placed : Descriptor → Descriptor
  | .brick b => .brick { b with slot := none }
  | .route r => .route { r with slot := none }
  | .raw (.object fields) => .raw (.object (Fields.erase fields "slot"))
  | .raw value => .raw value

/-- Two descriptors can both be placed: they ask for different slots or are of one kind. -/
def Fits (first second : Descriptor) : Prop :=
  first.slotName = second.slotName → first.slotKind = second.slotKind

theorem takeSlot_eq (descriptor : Descriptor) :
    descriptor.takeSlot.1.getD "" = descriptor.slotName ∧ descriptor.takeSlot.2 = descriptor.placed := by
  unfold takeSlot slotName placed
  split
  · exact ⟨rfl, rfl⟩
  · exact ⟨rfl, rfl⟩
  · exact ⟨rfl, rfl⟩
  · rename_i value no_object
    cases value with
    | object fields => exact absurd rfl (no_object fields)
    | _ => exact ⟨rfl, rfl⟩

/-- Placing a descriptor leaves its kind as it is. -/
theorem slotKind_placed (descriptor : Descriptor) : descriptor.placed.slotKind = descriptor.slotKind := by
  unfold placed
  split <;> rfl

end Descriptor

/-! ## Buckets -/

namespace Bucket

/-- A bucket takes a descriptor of its own kind. -/
theorem exists_add? {bucket : Bucket} {descriptor : Descriptor} (same : bucket.kind = descriptor.slotKind) :
    ∃ grown, bucket.add? descriptor = some grown ∧ grown.kind = bucket.kind ∧
      grown.contents = bucket.contents ++ [descriptor] := by
  cases bucket <;> cases descriptor <;>
    simp_all [kind, Descriptor.slotKind, add?, contents]

/-- A bucket refuses a descriptor of the other kind. -/
theorem add?_eq_none {bucket : Bucket} {descriptor : Descriptor} (differ : bucket.kind ≠ descriptor.slotKind) :
    bucket.add? descriptor = none := by
  cases bucket <;> cases descriptor <;> simp_all [kind, Descriptor.slotKind, add?]

theorem kind_empty (kind : SlotKind) : (empty kind).kind = kind := by
  cases kind <;> rfl

/-- Buckets of one kind with the same contents are the same. -/
theorem eq_of_contents_eq {first second : Bucket} (same_kind : first.kind = second.kind)
    (same : first.contents = second.contents) : first = second := by
  have injective : Function.Injective Descriptor.route := fun _ _ => Descriptor.route.inj
  cases first <;> cases second <;> simp_all [kind, contents, List.map_inj_right]

end Bucket

/-! ## Placing one descriptor -/

/-- No slot is asked for by descriptors of both kinds. -/
def AreUnmixed (descriptors : List Descriptor) : Prop :=
  ∀ first ∈ descriptors, ∀ second ∈ descriptors, first.Fits second

/-- Slots group descriptors: they are named in the order in which they are first asked for, and each holds
exactly the descriptors that ask for it, placed, in their order and under their kind. -/
structure IsGrouping (descriptors : List Descriptor) (slots : Fields Bucket) : Prop where
  names : Fields.keys slots = (descriptors.map Descriptor.slotName).eraseDups
  contents : ∀ name bucket, Fields.get? slots name = some bucket →
    bucket.contents = (descriptors.filter fun d => d.slotName = name).map Descriptor.placed
  kinds : ∀ name bucket, Fields.get? slots name = some bucket →
    ∀ d ∈ descriptors, d.slotName = name → bucket.kind = d.slotKind

/-- Some descriptor does not fit an earlier one, and the first such one asks for the given slot. -/
def FirstMisfit (descriptors : List Descriptor) (slot : String) : Prop :=
  ∃ front misfit back, descriptors = front ++ misfit :: back ∧ AreUnmixed front ∧ misfit.slotName = slot ∧
    ∃ earlier ∈ front, ¬earlier.Fits misfit

theorem placeInSlot_eq (slots : Fields Bucket) (descriptor : Descriptor) :
    placeInSlot slots descriptor =
      match ((Fields.get? slots descriptor.slotName).getD (.empty descriptor.slotKind)).add?
        descriptor.placed with
      | some bucket => .ok (Fields.set slots descriptor.slotName bucket)
      | none => .error (.mixedSlot descriptor.slotName) := by
  obtain ⟨name_eq, placed_eq⟩ := descriptor.takeSlot_eq
  rw [← descriptor.slotKind_placed, ← name_eq, ← placed_eq]
  rfl

namespace IsGrouping

variable {front : List Descriptor} {slots : Fields Bucket}

/-- A slot is there exactly if it is asked for. -/
theorem exists_get?_iff (grouping : IsGrouping front slots) {name : String} :
    (∃ bucket, Fields.get? slots name = some bucket) ↔ ∃ d ∈ front, d.slotName = name := by
  have listed : name ∈ Fields.keys slots ↔ ∃ d ∈ front, d.slotName = name := by
    rw [grouping.names, List.mem_eraseDups, List.mem_map]
  rw [← listed, ← Option.isSome_iff_exists, ← Option.ne_none_iff_isSome, ne_eq, Fields.get?_eq_none_iff,
    Classical.not_not]

/-- Slots that group descriptors do not mix kinds. -/
theorem areUnmixed (grouping : IsGrouping front slots) : AreUnmixed front := by
  intro first first_mem second second_mem same
  obtain ⟨bucket, found⟩ := grouping.exists_get?_iff.mpr ⟨first, first_mem, rfl⟩
  exact (grouping.kinds _ _ found first first_mem rfl).symm.trans
    (grouping.kinds _ _ found second second_mem same.symm)

/-- Descriptors are grouped in one way. -/
theorem unique {others : Fields Bucket} (grouping : IsGrouping front slots) (other : IsGrouping front others) :
    slots = others := by
  refine Fields.eq_of_get?_eq (grouping.names.trans other.names.symm)
    (grouping.names ▸ Fields.nodup_eraseDups _) fun name => ?_
  cases found : Fields.get? slots name with
  | none =>
      rw [Fields.get?_eq_none_iff, grouping.names, ← other.names, ← Fields.get?_eq_none_iff] at found
      exact found.symm
  | some bucket =>
      obtain ⟨d, member, named⟩ := grouping.exists_get?_iff.mp ⟨bucket, found⟩
      obtain ⟨same, there⟩ := other.exists_get?_iff.mpr ⟨d, member, named⟩
      have kind_eq := (grouping.kinds _ _ found d member named).trans (other.kinds _ _ there d member named).symm
      have contents_eq := (grouping.contents _ _ found).trans (other.contents _ _ there).symm
      rw [there, Bucket.eq_of_contents_eq kind_eq contents_eq]

/-- Placing a descriptor that fits the earlier ones groups it with them. -/
theorem placeInSlot_of_fits (grouping : IsGrouping front slots) {descriptor : Descriptor}
    (fits : ∀ earlier ∈ front, earlier.Fits descriptor) :
    ∃ grown, placeInSlot slots descriptor = .ok grown ∧ IsGrouping (front ++ [descriptor]) grown := by
  let known := (Fields.get? slots descriptor.slotName).getD (.empty descriptor.slotKind)
  have known_kind : known.kind = descriptor.placed.slotKind := by
    rw [descriptor.slotKind_placed]
    cases found : Fields.get? slots descriptor.slotName with
    | none => simp [known, found, Bucket.kind_empty]
    | some bucket =>
        obtain ⟨earlier, member, named⟩ := grouping.exists_get?_iff.mp ⟨bucket, found⟩
        rw [← fits earlier member named, ← grouping.kinds _ _ found earlier member named]
        simp [known, found]
  have known_contents : known.contents =
      (front.filter fun d => d.slotName = descriptor.slotName).map Descriptor.placed := by
    cases found : Fields.get? slots descriptor.slotName with
    | none =>
        have unasked : ¬∃ d ∈ front, d.slotName = descriptor.slotName := by
          rw [← grouping.exists_get?_iff, found]
          simp
        have nothing : (front.filter fun d => d.slotName = descriptor.slotName) = [] := by
          simpa using unasked
        simp [known, found, nothing, Bucket.contents_empty]
    | some bucket => simpa [known, found] using grouping.contents _ _ found
  obtain ⟨grown, added, grown_kind, grown_contents⟩ := Bucket.exists_add? known_kind
  refine ⟨Fields.set slots descriptor.slotName grown, by rw [placeInSlot_eq, added], ?_, ?_, ?_⟩
  · rw [Fields.keys_set, grouping.names, List.map_append, List.map_singleton, Fields.eraseDups_concat]
    simp only [List.mem_eraseDups]
  · intro name bucket found
    rw [List.filter_append, List.map_append]
    by_cases same : name = descriptor.slotName
    · subst same
      obtain rfl : grown = bucket := by simpa [Fields.get?_set_self] using found
      simp [grown_contents, known_contents]
    · rw [Fields.get?_set_of_ne _ _ same] at found
      simpa [Ne.symm same] using grouping.contents _ _ found
  · intro name bucket found d member named
    by_cases same : name = descriptor.slotName
    · subst same
      obtain rfl : grown = bucket := by simpa [Fields.get?_set_self] using found
      rw [grown_kind, known_kind, descriptor.slotKind_placed]
      rcases List.mem_append.mp member with earlier | last
      · exact (fits d earlier named).symm
      · rw [List.mem_singleton.mp last]
    · rw [Fields.get?_set_of_ne _ _ same] at found
      rcases List.mem_append.mp member with earlier | last
      · exact grouping.kinds _ _ found d earlier named
      · exact absurd (List.mem_singleton.mp last ▸ named.symm) same

/-- A descriptor that does not fit an earlier one is refused with the name of its slot. -/
theorem placeInSlot_of_misfit (grouping : IsGrouping front slots) {earlier descriptor : Descriptor}
    (member : earlier ∈ front) (misfit : ¬earlier.Fits descriptor) :
    placeInSlot slots descriptor = .error (.mixedSlot descriptor.slotName) := by
  obtain ⟨same, differ⟩ := Classical.not_imp.mp misfit
  obtain ⟨bucket, found⟩ := grouping.exists_get?_iff.mpr ⟨earlier, member, same⟩
  have refused : bucket.kind ≠ descriptor.placed.slotKind := by
    rw [grouping.kinds _ _ found earlier member same, descriptor.slotKind_placed]
    exact differ
  rw [placeInSlot_eq, found, Option.getD_some, Bucket.add?_eq_none refused]

/-- Placing further descriptors groups them with the earlier ones, up to the first that does not fit. -/
theorem foldlM_placeInSlot (grouping : IsGrouping front slots) (back : List Descriptor) :
    (∃ grown, back.foldlM placeInSlot slots = .ok grown ∧ IsGrouping (front ++ back) grown) ∨
      ∃ slot, back.foldlM placeInSlot slots = .error (.mixedSlot slot) ∧ FirstMisfit (front ++ back) slot := by
  induction back generalizing front slots with
  | nil => exact .inl ⟨slots, rfl, by rwa [List.append_nil]⟩
  | cons descriptor rest ih =>
      rw [List.foldlM_cons]
      by_cases fits : ∀ earlier ∈ front, earlier.Fits descriptor
      · obtain ⟨grown, placed, grown_grouping⟩ := grouping.placeInSlot_of_fits fits
        have further := ih grown_grouping
        rw [List.append_assoc, List.singleton_append] at further
        rwa [placed]
      · obtain ⟨earlier, member, misfit⟩ : ∃ earlier ∈ front, ¬earlier.Fits descriptor := by
          simpa using fits
        rw [grouping.placeInSlot_of_misfit member misfit]
        exact .inr ⟨descriptor.slotName, rfl, front, descriptor, rest, rfl, grouping.areUnmixed, rfl, earlier,
          member, misfit⟩

end IsGrouping

/-! ## Grouping -/

theorem FirstMisfit.not_areUnmixed {descriptors : List Descriptor} {slot : String}
    (first : FirstMisfit descriptors slot) : ¬AreUnmixed descriptors := by
  obtain ⟨front, misfit, back, rfl, -, -, earlier, member, apart⟩ := first
  exact fun unmixed => apart (unmixed earlier (List.mem_append_left _ member) misfit (by simp))

/-- Nothing before a first misfit is one. -/
theorem misfit_eq_of_append {front between back back' : List Descriptor} {misfit misfit' : Descriptor}
    (split : misfit :: back = between ++ misfit' :: back') (unmixed : AreUnmixed (front ++ between))
    (found : ∃ earlier ∈ front, ¬earlier.Fits misfit) : misfit = misfit' := by
  cases between with
  | nil => exact (List.cons.inj split).1
  | cons descriptor rest =>
      obtain ⟨rfl, -⟩ := List.cons.inj split
      obtain ⟨earlier, member, apart⟩ := found
      exact absurd (unmixed earlier (List.mem_append_left _ member) misfit (by simp)) apart

theorem FirstMisfit.unique {descriptors : List Descriptor} {slot other : String}
    (first : FirstMisfit descriptors slot) (second : FirstMisfit descriptors other) : slot = other := by
  obtain ⟨front, misfit, back, rfl, unmixed, rfl, found⟩ := first
  obtain ⟨front', misfit', back', split, unmixed', rfl, found'⟩ := second
  rcases List.append_eq_append_iff.mp split with ⟨between, rfl, rest⟩ | ⟨between, rfl, rest⟩
  · rw [misfit_eq_of_append rest unmixed' found]
  · rw [misfit_eq_of_append rest unmixed found']

theorem groupBySlot_cases (descriptors : List Descriptor) :
    (∃ slots, groupBySlot descriptors = .ok slots ∧ IsGrouping descriptors slots) ∨
      ∃ slot, groupBySlot descriptors = .error (.mixedSlot slot) ∧ FirstMisfit descriptors slot := by
  have start : IsGrouping [] [] := ⟨rfl, by simp [Fields.get?], by simp⟩
  simpa [groupBySlot] using start.foldlM_placeInSlot descriptors

/-- Grouping fails exactly with the slot of the first descriptor that does not fit an earlier one. -/
theorem groupBySlot_eq_error_iff {descriptors : List Descriptor} {error : LowerError} :
    groupBySlot descriptors = .error error ↔ ∃ slot, FirstMisfit descriptors slot ∧ error = .mixedSlot slot := by
  rcases groupBySlot_cases descriptors with ⟨slots, grouped, grouping⟩ | ⟨slot, refused, first⟩
  · rw [grouped]
    refine ⟨nofun, ?_⟩
    rintro ⟨slot, first, -⟩
    exact absurd grouping.areUnmixed first.not_areUnmixed
  · rw [refused, Except.error.injEq]
    constructor
    · rintro rfl
      exact ⟨slot, first, rfl⟩
    · rintro ⟨other, second, rfl⟩
      rw [first.unique second]

/-- Grouping succeeds exactly with the slots that group the descriptors. -/
theorem groupBySlot_eq_ok_iff {descriptors : List Descriptor} {slots : Fields Bucket} :
    groupBySlot descriptors = .ok slots ↔ IsGrouping descriptors slots := by
  rcases groupBySlot_cases descriptors with ⟨others, grouped, grouping⟩ | ⟨slot, refused, first⟩
  · rw [grouped, Except.ok.injEq]
    constructor
    · rintro rfl
      exact grouping
    · exact grouping.unique
  · rw [refused]
    exact ⟨nofun, fun grouping => absurd grouping.areUnmixed first.not_areUnmixed⟩

/-- Descriptors are grouped by slot exactly if no slot is asked for by both kinds. Then the slots are named in
the order in which they are first asked for, and each holds exactly the descriptors that ask for it, each of
them once, in their order, without the request and else as they were, under their kind. Otherwise the failure
names the slot of the first descriptor whose kind differs from that of an earlier one in this slot. -/
theorem groupBySlot_groups_or_names_misfit (descriptors : List Descriptor) :
    ((∃ slots, groupBySlot descriptors = .ok slots) ↔ AreUnmixed descriptors) ∧
      (∀ slots, groupBySlot descriptors = .ok slots ↔ IsGrouping descriptors slots) ∧
      ∀ error, groupBySlot descriptors = .error error ↔
        ∃ slot, FirstMisfit descriptors slot ∧ error = .mixedSlot slot := by
  refine ⟨?_, fun _ => groupBySlot_eq_ok_iff, fun _ => groupBySlot_eq_error_iff⟩
  constructor
  · rintro ⟨slots, grouped⟩
    exact (groupBySlot_eq_ok_iff.mp grouped).areUnmixed
  · intro unmixed
    rcases groupBySlot_cases descriptors with ⟨slots, grouped, -⟩ | ⟨slot, -, first⟩
    · exact ⟨slots, grouped⟩
    · exact absurd unmixed first.not_areUnmixed

/-- Two bricks for a side slot around a route, and data whose request is no text. -/
def interleavedDescriptors : List Descriptor :=
  [.brick { Brick.ofText "a" with slot := some "side" },
    .route { config := [("path", .string "/")], body := .redirect, slot := some "main" },
    .raw (.object [("slot", .bool true), ("id", .string "x")]),
    .brick { Brick.ofText "b" with slot := some "side" }]

/-- Each slot holds its own descriptors, and the requests are gone. -/
theorem interleaved_descriptors_are_grouped :
    groupBySlot interleavedDescriptors =
        .ok [("side", .bricks [.brick (.ofText "a"), .brick (.ofText "b")]),
          ("main", .routes [{ config := [("path", .string "/")], body := .redirect, slot := none }]),
          ("true", .bricks [.raw (.object [("id", .string "x")])])] ∧
      AreUnmixed interleavedDescriptors ∧
      Except.isOk (groupBySlot (interleavedDescriptors ++ [.raw (.object [("slot", .string "main")])])) = false := by
  have grouped : groupBySlot interleavedDescriptors =
      .ok [("side", .bricks [.brick (.ofText "a"), .brick (.ofText "b")]),
        ("main", .routes [{ config := [("path", .string "/")], body := .redirect, slot := none }]),
        ("true", .bricks [.raw (.object [("id", .string "x")])])] := rfl
  exact ⟨grouped, (groupBySlot_groups_or_names_misfit _).1.mp ⟨_, grouped⟩, rfl⟩

end Storyboard
