import Mathlib.Data.List.Basic
import Storyboard.Extraction.Extract
import Storyboard.Proofs.Site

/-!
# Ranges of bytes in a text

A range lies in a text if the text can be cut where it begins and where it ends. It then covers a part of the
text, and that part is the slice between its ends. A reader of modules gives every node such a range.
-/

namespace Storyboard

namespace Text

theorem utf8ByteSize_ofList (text : List Char) : (String.ofList text).utf8ByteSize = byteLength text := by
  induction text with
  | nil => rfl
  | cons c rest ih =>
      rw [byteLength, ← ih]
      simp

theorem byteLength_append (front back : List Char) : byteLength (front ++ back) = byteLength front + byteLength back := by
  simp only [← utf8ByteSize_ofList, String.ofList_append, String.utf8ByteSize_append]

/-- A text can be cut behind each of its parts. -/
theorem splitAt?_append (front back : List Char) :
    splitAt? (front ++ back) (byteLength front) = some (front, back) := by
  induction front with
  | nil => cases back <;> rfl
  | cons c front ih =>
      obtain ⟨size, size_eq⟩ := Nat.exists_eq_add_one_of_ne_zero (Nat.ne_of_gt c.utf8Size_pos)
      have whole : byteLength (c :: front) = size + byteLength front + 1 := by
        rw [byteLength, size_eq]
        omega
      have left : size + byteLength front + 1 - c.utf8Size = byteLength front := by omega
      rw [List.cons_append, whole, splitAt?, if_pos (by omega), left, ih]
      · rfl
      · omega

/-- Cutting a text gives two parts of it, the first of the size of the offset. -/
theorem splitAt?_eq_some_iff {text front back : List Char} {offset : Nat} :
    splitAt? text offset = some (front, back) ↔ text = front ++ back ∧ byteLength front = offset := by
  constructor
  · intro cut
    fun_induction splitAt? text offset generalizing front with
    | case1 text =>
        cases cut
        exact ⟨rfl, rfl⟩
    | case2 => cases cut
    | case3 c rest offset _ small ih =>
        obtain ⟨⟨found, others⟩, cut, same⟩ := Option.map_eq_some_iff.mp cut
        cases same
        obtain ⟨rfl, size⟩ := ih cut
        refine ⟨rfl, ?_⟩
        rw [byteLength]
        omega
    | case4 => cases cut
  · rintro ⟨rfl, rfl⟩
    exact splitAt?_append front back

theorem before_append (front back : List Char) : before (front ++ back) (byteLength front) = front := by
  induction front with
  | nil =>
      cases back with
      | nil => rfl
      | cons c back =>
          have positive := c.utf8Size_pos
          have large : ¬c.utf8Size ≤ 0 := by omega
          simp [before, byteLength, large]
  | cons c front ih => simp [before, byteLength, ih]

theorem slice_append (front middle back : List Char) :
    slice (front ++ (middle ++ back)) (byteLength front) (byteLength (front ++ middle)) = middle := by
  have whole := before_append (front ++ middle) back
  rw [List.append_assoc] at whole
  rw [slice, whole, before_append, List.drop_left]

end Text

open Text

/-- A range lies in a text: it is not reversed, does not leave the text and cuts no character. -/
structure Span.IsIn (span : Span) (text : List Char) : Prop where
  /-- It is not reversed. -/
  forward : span.start ≤ span.stop
  /-- The text can be cut where it begins. -/
  starts : (splitAt? text span.start).isSome = true
  /-- The text can be cut where it ends. -/
  stops : (splitAt? text span.stop).isSome = true

instance (span : Span) (text : List Char) : Decidable (span.IsIn text) :=
  decidable_of_iff
    (span.start ≤ span.stop ∧ (splitAt? text span.start).isSome = true ∧ (splitAt? text span.stop).isSome = true)
    ⟨fun ⟨forward, starts, stops⟩ => ⟨forward, starts, stops⟩, fun inside => ⟨inside.1, inside.2, inside.3⟩⟩

/-- A range lies in a text exactly if it covers a part of it. -/
theorem Span.isIn_iff {span : Span} {text : List Char} :
    span.IsIn text ↔ ∃ front middle back, text = front ++ (middle ++ back) ∧
      byteLength front = span.start ∧ byteLength (front ++ middle) = span.stop := by
  constructor
  · rintro ⟨forward, starts, stops⟩
    obtain ⟨⟨front, rest⟩, cut⟩ := Option.isSome_iff_exists.mp starts
    obtain ⟨⟨whole, back⟩, cut_end⟩ := Option.isSome_iff_exists.mp stops
    obtain ⟨text_eq, start_eq⟩ := splitAt?_eq_some_iff.mp cut
    obtain ⟨text_eq', stop_eq⟩ := splitAt?_eq_some_iff.mp cut_end
    rcases List.append_eq_append_iff.mp (text_eq.symm.trans text_eq') with ⟨middle, rfl, rest_eq⟩ | ⟨extra, rfl, rfl⟩
    · exact ⟨front, middle, back, by rw [text_eq, rest_eq], start_eq, stop_eq⟩
    · -- the end is not before the beginning, so nothing lies between
      rw [byteLength_append] at start_eq
      refine ⟨whole ++ extra, [], rest, by rw [text_eq, List.nil_append], by rw [byteLength_append]; exact start_eq, ?_⟩
      rw [List.append_nil, byteLength_append]
      omega
  · rintro ⟨front, middle, back, rfl, start_eq, stop_eq⟩
    have cut : splitAt? (front ++ (middle ++ back)) span.start = some (front, middle ++ back) :=
      splitAt?_eq_some_iff.mpr ⟨rfl, start_eq⟩
    have cut_end : splitAt? (front ++ (middle ++ back)) span.stop = some (front ++ middle, back) :=
      splitAt?_eq_some_iff.mpr ⟨by rw [List.append_assoc], stop_eq⟩
    refine ⟨?_, by rw [cut]; rfl, by rw [cut_end]; rfl⟩
    rw [← start_eq, ← stop_eq, byteLength_append]
    omega

/-- A text stands in a source at a range of bytes. -/
def SourceText.Covers (source : SourceText) (span : Span) (text : String) : Prop :=
  ∃ front back : String, source.text = front ++ text ++ back ∧ front.utf8ByteSize = span.start ∧
    (front ++ text).utf8ByteSize = span.stop

/-- The text that a node covers stands where the node does. -/
theorem SourceText.covers_covered {source : SourceText} {node : Node} (inside : node.span.IsIn source.text.toList) :
    source.Covers node.span (source.covered node) := by
  obtain ⟨front, middle, back, text_eq, start_eq, stop_eq⟩ := Span.isIn_iff.mp inside
  have covered_eq : source.covered node = String.ofList middle := by
    rw [covered, sliceString, text_eq, ← start_eq, ← stop_eq, slice_append]
  rw [covered_eq]
  refine ⟨String.ofList front, String.ofList back, ?_, ?_, ?_⟩
  · rw [← String.ofList_append, ← String.ofList_append, List.append_assoc, ← text_eq, String.ofList_toList]
  · rw [utf8ByteSize_ofList, start_eq]
  · rw [← String.ofList_append, utf8ByteSize_ofList, stop_eq]

/-- All nodes of a module lie in a text. -/
def Node.LiesIn (program : Node) (text : List Char) : Prop := ∀ site ∈ program.sites, site.node.span.IsIn text

instance (program : Node) (text : List Char) : Decidable (program.LiesIn text) :=
  inferInstanceAs (Decidable (∀ _ ∈ _, _))

end Storyboard
