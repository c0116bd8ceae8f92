import Mathlib.Data.List.Pairwise
import Storyboard.Proofs.OutermostEdits
import Storyboard.Proofs.TextRanges

/-!
# Splicing from the front

Edits are put into a text from its back to its front, so that the offsets in front of each keep their meaning.
What comes of it is made in one pass from the front as well: the text between the ranges is copied, and each
range gives way to the text of its edit. So the order in which the edits are given plays no part.
-/

namespace Storyboard

namespace Text

theorem before_zero (text : List Char) : before text 0 = [] := before_append [] text

theorem before_byteLength (text : List Char) : before text (byteLength text) = text := by
  simpa using before_append text []

/-- What ends at the later of two cuts is what ends at the first one and what is between them. -/
theorem before_append_slice {text : List Char} {start stop : Nat} (inside : Span.IsIn ⟨start, stop⟩ text) :
    before text start ++ slice text start stop = before text stop := by
  obtain ⟨front, middle, back, rfl, rfl, rfl⟩ := Span.isIn_iff.mp inside
  have whole := before_append (front ++ middle) back
  rw [List.append_assoc] at whole
  rw [slice_append, before_append, whole]

theorem splitAt?_isSome_zero (text : List Char) : (splitAt? text 0).isSome = true := by simp [splitAt?]

theorem splitAt?_isSome_byteLength (text : List Char) : (splitAt? text (byteLength text)).isSome = true := by
  have cut := splitAt?_append text []
  rw [List.append_nil] at cut
  rw [cut]
  rfl

end Text

open Text

namespace Edit

/-- Whether an edit only adds text. -/
def IsInsertion (edit : Edit) : Prop := edit.start = edit.stop

instance (edit : Edit) : Decidable edit.IsInsertion := inferInstanceAs (Decidable (_ = _))

/-- Edits stand in the order of the text: each ends where the next begins, or earlier. An insertion so comes before
a replacement that begins at its offset, and after one that ends there. -/
def InTextOrder (edits : List Edit) : Prop := edits.Pairwise fun edit next => edit.stop ≤ next.start

instance (edits : List Edit) : Decidable (InTextOrder edits) := inferInstanceAs (Decidable (List.Pairwise _ _))

/-- A text with edits in it, from an offset on: what is between the ranges is copied, and the text of each edit
stands in place of its range. -/
def weave (source : List Char) : Nat → List Edit → List Char
  | offset, [] => slice source offset (byteLength source)
  | offset, edit :: later => slice source offset edit.start ++ edit.text.toList ++ weave source edit.stop later

/-! ## One edit -/

/-- An edit leaves what is in front of its range, and what was behind it, as they are. -/
theorem perform?_before_append {edit : Edit} {source : List Char} (inside : edit.span.IsIn source)
    (rest : List Char) :
    perform? (before source edit.stop ++ rest) edit =
      some (before source edit.start ++ edit.text.toList ++ rest) := by
  obtain ⟨front, middle, back, rfl, start_eq, stop_eq⟩ := Span.isIn_iff.mp inside
  change byteLength front = edit.start at start_eq
  change byteLength (front ++ middle) = edit.stop at stop_eq
  have until_stop : before (front ++ (middle ++ back)) edit.stop = front ++ middle := by
    rw [← stop_eq, ← List.append_assoc, before_append]
  have until_start : before (front ++ (middle ++ back)) edit.start = front := by
    rw [← start_eq, before_append]
  rw [byteLength_append] at stop_eq
  have forward : ¬edit.stop < edit.start := by omega
  have length_eq : edit.stop - edit.start = byteLength middle := by omega
  rw [until_stop, until_start, perform?, if_neg forward, length_eq, ← start_eq, List.append_assoc,
    splitAt?_append]
  change (splitAt? (middle ++ rest) (byteLength middle)).bind _ = _
  rw [splitAt?_append]
  rfl

/-! ## All edits -/

/-- Edits that are put into a text from the last to the first give the text that is woven from the front. -/
theorem foldlM_perform?_reverse {source : List Char} {edits : List Edit} {offset : Nat}
    (cut : (splitAt? source offset).isSome = true) (inside : ∀ edit ∈ edits, edit.span.IsIn source)
    (behind : ∀ edit ∈ edits, offset ≤ edit.start) (ordered : InTextOrder edits) :
    edits.reverse.foldlM perform? source = some (before source offset ++ weave source offset edits) := by
  induction edits generalizing offset with
  | nil =>
      have rest_inside : Span.IsIn ⟨offset, byteLength source⟩ source := by
        obtain ⟨⟨front, back⟩, split⟩ := Option.isSome_iff_exists.mp cut
        obtain ⟨rfl, rfl⟩ := splitAt?_eq_some_iff.mp split
        exact ⟨by rw [byteLength_append]; exact Nat.le_add_right _ _, cut, splitAt?_isSome_byteLength _⟩
      rw [weave, before_append_slice rest_inside, before_byteLength]
      rfl
  | cons edit later ih =>
      obtain ⟨before_later, ordered⟩ := List.pairwise_cons.mp ordered
      have edit_inside := inside edit List.mem_cons_self
      have woven := ih edit_inside.stops (fun next member => inside next (List.mem_cons_of_mem _ member))
        before_later ordered
      have gap_inside : Span.IsIn ⟨offset, edit.start⟩ source :=
        ⟨behind edit List.mem_cons_self, cut, edit_inside.starts⟩
      rw [List.reverse_cons, List.foldlM_append, woven]
      change [edit].foldlM perform? (before source edit.stop ++ weave source edit.stop later) = _
      rw [List.foldlM_cons, perform?_before_append edit_inside, weave, ← before_append_slice gap_inside]
      simp only [List.append_assoc]
      rfl

/-- Of two edits that lie apart, the one that is made first is not in front of the other. -/
theorem stop_le_start_of_precedes {done next : Edit} (forward : done.start ≤ done.stop)
    (first : precedes done next = true) (apart : done.span.Apart next.span) : next.stop ≤ done.start := by
  simp only [precedes, Bool.or_eq_true, Bool.and_eq_true, decide_eq_true_eq, beq_iff_eq] at first
  simp only [Span.Apart, span] at apart
  omega

theorem precedes_trans (first second third : Edit) (earlier : precedes first second = true)
    (later : precedes second third = true) : precedes first third = true := by
  simp only [precedes, Bool.or_eq_true, Bool.and_eq_true, decide_eq_true_eq, beq_iff_eq] at earlier later ⊢
  omega

theorem precedes_total (first second : Edit) : (precedes first second || precedes second first) = true := by
  simp only [precedes, Bool.or_eq_true, Bool.and_eq_true, decide_eq_true_eq, beq_iff_eq]
  omega

section Apart

variable {source : List Char} {edits : List Edit}

/-- The order of application is the order of the text from its end. -/
theorem inTextOrder_reverse_mergeSort (forward : ∀ edit ∈ edits, edit.start ≤ edit.stop)
    (apart : edits.Pairwise fun left right => left.span.Apart right.span) :
    InTextOrder (edits.mergeSort precedes).reverse := by
  have same := List.mergeSort_perm edits precedes
  have sorted := List.pairwise_mergeSort precedes_trans precedes_total edits
  have sorted_apart := same.symm.pairwise apart (fun other => other.symm)
  refine List.pairwise_reverse.mpr ((sorted.and sorted_apart).imp_of_mem ?_)
  rintro done next done_mem - ⟨first, apart⟩
  exact stop_le_start_of_precedes (forward done (same.mem_iff.mp done_mem)) first apart

/-- Edits that lie in a text and apart from each other can be applied. -/
theorem performAll?_eq_weave (inside : ∀ edit ∈ edits, edit.span.IsIn source)
    (apart : edits.Pairwise fun left right => left.span.Apart right.span) :
    performAll? source edits = some (weave source 0 (edits.mergeSort precedes).reverse) := by
  have same := List.mergeSort_perm edits precedes
  have ordered := inTextOrder_reverse_mergeSort (fun edit member => (inside edit member).forward) apart
  have performed := foldlM_perform?_reverse (splitAt?_isSome_zero source)
    (fun edit member => inside edit (same.mem_iff.mp (List.mem_reverse.mp member)))
    (fun _ _ => Nat.zero_le _) ordered
  rwa [List.reverse_reverse, before_zero, List.nil_append] at performed

/-- Edits of which no two are insertions at one offset stand in the order of the text in one way only. -/
theorem InTextOrder.unique {first second : List Edit} (ordered : InTextOrder first) (other : InTextOrder second)
    (same : first.Perm second) (forward : ∀ edit ∈ first, edit.start ≤ edit.stop)
    (single : first.Pairwise fun left right => left.IsInsertion → right.IsInsertion → left.start ≠ right.start) :
    first = second := by
  refine same.eq_of_pairwise ?_ ordered other
  intro left right left_mem right_mem left_first right_first
  have right_mem := same.mem_iff.mpr right_mem
  have left_forward := forward left left_mem
  have right_forward := forward right right_mem
  by_contra differ
  have symmetric : Std.Symm fun left right : Edit =>
      left.IsInsertion → right.IsInsertion → left.start ≠ right.start :=
    ⟨fun _ _ apart right_inserts left_inserts => (apart left_inserts right_inserts).symm⟩
  -- each is in front of the other, so both are insertions at one offset
  have left_inserts : left.IsInsertion := by
    rw [IsInsertion]
    omega
  have right_inserts : right.IsInsertion := by
    rw [IsInsertion]
    omega
  have offsets : left.start = right.start := by omega
  exact single.forall left_mem right_mem differ left_inserts right_inserts offsets

end Apart

/-- Edits that lie in a text and apart from each other, and of which no two are insertions at one offset, have one
order in the text. In whatever order they are given, they can be applied, and the result is the text that is woven
from the front with the edits in their order in the text. -/
theorem splice?_eq_weave_of_perm {source : String} {edits : List Edit}
    (inside : ∀ edit ∈ edits, edit.span.IsIn source.toList)
    (apart : edits.Pairwise fun left right => left.span.Apart right.span)
    (single : edits.Pairwise fun left right => left.IsInsertion → right.IsInsertion → left.start ≠ right.start) :
    ∃ ordered, (∀ other, other.Perm edits ∧ InTextOrder other ↔ other = ordered) ∧
      ∀ given, given.Perm edits → splice? source given = some (String.ofList (weave source.toList 0 ordered)) := by
  have forward : ∀ edit ∈ edits, edit.start ≤ edit.stop := fun edit member => (inside edit member).forward
  have permuted : (edits.mergeSort precedes).reverse.Perm edits :=
    (List.reverse_perm _).trans (List.mergeSort_perm edits precedes)
  have ordered := inTextOrder_reverse_mergeSort forward apart
  have unique : ∀ other, other.Perm edits → InTextOrder other → other = (edits.mergeSort precedes).reverse := by
    intro other same other_ordered
    refine (ordered.unique other_ordered (permuted.trans same.symm) ?_ ?_).symm
    · exact fun edit member => forward edit (permuted.mem_iff.mp member)
    · exact permuted.symm.pairwise single fun apart right_inserts left_inserts =>
        (apart left_inserts right_inserts).symm
  refine ⟨_, fun other => ⟨fun both => unique other both.1 both.2, ?_⟩, fun given same => ?_⟩
  · rintro rfl
    exact ⟨permuted, ordered⟩
  · have given_apart := same.symm.pairwise apart fun other => other.symm
    have given_inside : ∀ edit ∈ given, edit.span.IsIn source.toList :=
      fun edit member => inside edit (same.mem_iff.mp member)
    have given_ordered := inTextOrder_reverse_mergeSort (fun edit member => (given_inside edit member).forward) given_apart
    have given_permuted : (given.mergeSort precedes).reverse.Perm given :=
      (List.reverse_perm _).trans (List.mergeSort_perm given precedes)
    rw [splice?, performAll?_eq_weave given_inside given_apart,
      unique _ (given_permuted.trans same) given_ordered]
    rfl

/-- An insertion with replacements on both sides of it, not in the order of the text. -/
def meetingEdits : List Edit := [⟨1, 3, "E"⟩, insertion 1 "--", ⟨0, 1, ""⟩]

/-- The insertion comes after the replacement that ends at its offset, and before the one that begins there. -/
theorem insertion_between_replacements :
    (∀ edit ∈ meetingEdits, edit.span.IsIn "aéb".toList) ∧
      (meetingEdits.Pairwise fun left right => left.span.Apart right.span) ∧
      (meetingEdits.Pairwise fun left right => left.IsInsertion → right.IsInsertion → left.start ≠ right.start) ∧
      ∀ given, given.Perm meetingEdits → splice? "aéb" given = some "--Eb" := by
  have inside : ∀ edit ∈ meetingEdits, edit.span.IsIn "aéb".toList := by decide
  have apart : meetingEdits.Pairwise fun left right => left.span.Apart right.span := by decide
  have single : meetingEdits.Pairwise fun left right =>
      left.IsInsertion → right.IsInsertion → left.start ≠ right.start := by decide
  obtain ⟨ordered, unique, woven⟩ := splice?_eq_weave_of_perm inside apart single
  have ordered_eq : [⟨0, 1, ""⟩, insertion 1 "--", ⟨1, 3, "E"⟩] = ordered := (unique _).mp (by decide)
  refine ⟨inside, apart, single, fun given same => ?_⟩
  rw [woven given same, ← ordered_eq]
  decide

end Edit

end Storyboard
