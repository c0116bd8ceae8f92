import Mathlib.Data.List.Basic
import Mathlib.Order.Bounds.Basic
import Storyboard.Proofs.TextRanges

/-!
# Places in a text

An offset is read at the boundary below it: its line counts the line feeds in front of that boundary and its column
the characters behind the last of them. The same place, and the same range of characters, is found step by step by
going down byte by byte to where the text can be cut, finding the last line feed, and taking the parts between; none
of these parts is ever missing. Along the boundaries of a text the places only grow, so a place tells its boundary.
-/

namespace Storyboard

namespace Text

/-! ## Boundaries -/

/-- A boundary of a text: an offset at which it can be cut into two. -/
def IsBoundary (text : List Char) (offset : Nat) : Prop :=
  ∃ front back, text = front ++ back ∧ byteLength front = offset

theorem length_le_byteLength (text : List Char) : text.length ≤ byteLength text := by
  induction text with
  | nil => exact Nat.le_refl _
  | cons c rest ih =>
      have positive := c.utf8Size_pos
      rw [byteLength, List.length_cons]
      omega

end Text

open Text

namespace Position

/-! ## Places -/

/-- A place behind the characters that have been read: its line is one more than their line feeds, and its column
counts the characters of the last line. -/
structure IsBehind (place : Position) (read : List Char) : Prop where
  /-- The line counts the line feeds. -/
  line : place.line = 1 + read.count '\n'
  /-- The column counts the characters behind the last line feed, or all of them if there is none. -/
  column : ∃ earlier last, read = earlier ++ last ∧ (earlier = [] ∨ ∃ lines, earlier = lines ++ ['\n']) ∧
    '\n' ∉ last ∧ place.column = last.length

/-- A place comes before another: on an earlier line, or on the same line in an earlier column. -/
def Precedes (first second : Position) : Prop :=
  first.line < second.line ∨ first.line = second.line ∧ first.column < second.column

/-- The last line of what has been read is what is read back to a line feed. -/
theorem length_takeWhile_reverse {earlier last : List Char} (ends : earlier = [] ∨ ∃ lines, earlier = lines ++ ['\n'])
    (no_feed : '\n' ∉ last) : ((earlier ++ last).reverse.takeWhile (· != '\n')).length = last.length := by
  have kept : ∀ c ∈ last.reverse, (c != '\n') = true := by
    intro c member
    rw [bne_iff_ne]
    rintro rfl
    exact no_feed (List.mem_reverse.mp member)
  rw [List.reverse_append, List.takeWhile_append_of_pos kept]
  rcases ends with rfl | ⟨lines, rfl⟩ <;> simp

/-- The column behind a last line is its length. -/
theorem IsBehind.column_eq {place : Position} {earlier last : List Char} (behind : place.IsBehind (earlier ++ last))
    (ends : earlier = [] ∨ ∃ lines, earlier = lines ++ ['\n']) (no_feed : '\n' ∉ last) :
    place.column = last.length := by
  obtain ⟨other, line, read_eq, other_ends, no_feed', column_eq⟩ := behind.column
  rw [column_eq, ← length_takeWhile_reverse other_ends no_feed', ← read_eq, length_takeWhile_reverse ends no_feed]

/-- Reading on leads to a later place. -/
theorem IsBehind.precedes {first second : Position} {read more : List Char} (first_behind : first.IsBehind read)
    (second_behind : second.IsBehind (read ++ more)) (reads_on : more ≠ []) : first.Precedes second := by
  have lines := second_behind.line
  rw [List.count_append, ← Nat.add_assoc, ← first_behind.line] at lines
  by_cases feeds : '\n' ∈ more
  · -- a line feed in between: the line grows, whatever the column does
    left
    have counted := List.count_pos_iff.mpr feeds
    omega
  · -- none in between: what is read on lengthens the last line
    right
    obtain ⟨earlier, last, rfl, ends, no_feed, column_eq⟩ := first_behind.column
    rw [List.append_assoc] at second_behind
    have columns := second_behind.column_eq ends (by simp [no_feed, feeds])
    have longer := List.length_pos_iff.mpr reads_on
    rw [List.count_eq_zero_of_not_mem feeds] at lines
    rw [List.length_append] at columns
    exact ⟨by omega, by omega⟩

/-- The line of a place and its column are numbers of 32 bits if the text is shorter than 4 GiB, but for the line
behind a text of nothing but line feeds that is as long as it may be. -/
theorem IsBehind.fits {place : Position} {read : List Char} (behind : place.IsBehind read)
    (small : byteLength read < UInt32.size) :
    place.column < UInt32.size ∧ (place.line < UInt32.size ∨ read = List.replicate (UInt32.size - 1) '\n') := by
  have short := length_le_byteLength read
  have counted := List.count_le_length (a := '\n') (l := read)
  obtain ⟨earlier, last, read_eq, -, -, column_eq⟩ := behind.column
  have lengths := congrArg List.length read_eq
  rw [List.length_append] at lengths
  refine ⟨by omega, ?_⟩
  rw [behind.line]
  by_cases all : read.count '\n' = UInt32.size - 1
  · -- as many line feeds as there can be bytes, so there is no room for anything else
    right
    have length_eq : read.length = UInt32.size - 1 := by omega
    rw [List.eq_replicate_iff]
    refine ⟨length_eq, fun c member => ?_⟩
    exact (List.count_eq_length.mp (all.trans length_eq.symm) c member).symm
  · left
    omega

end Position

end Storyboard
