import Storyboard.Proofs.JsonReading
import Storyboard.Proofs.TokenTexts

/-!
# What text literals stand for

A text literal stands for code units, among which there may be halves of pairs without the other. Such a half has
no character, so the value of the literal spells it out in five. A value that is quoted again is one literal, and
stands for the same code units exactly if the first literal has no half of its own.
-/

namespace Storyboard

open Text (byteLength byteLength_append)

namespace Literal

/-- The code units of a character. -/
def charUnits (c : Char) : List Nat :=
  if c.toNat < 0x10000 then [c.toNat]
  else [0xD800 + (c.toNat - 0x10000) / 1024, 0xDC00 + (c.toNat - 0x10000) % 1024]

/-- The code units of a piece. -/
def Piece.units : Piece → List Nat
  | .char c => charUnits c
  | .half unit => [unit]

end Literal

namespace Lexer

/-- The pieces of a text literal with its quotes, if a text is one. -/
def literalPieces? (text : List Char) : Option (List Literal.Piece) :=
  match text with
  | [] => none
  | quote :: rest =>
    if quote == '"' || quote == apostrophe then
      match quoted? quote rest 0 [] with
      | some (raw, ⟨[], _⟩) => Literal.decode? raw.length raw
      | _ => none
    else none

/-- The code units that a text literal stands for. -/
def literalUnits? (text : List Char) : Option (List Nat) :=
  (literalPieces? text).map (·.flatMap Literal.Piece.units)

/-- A text literal has a half of a pair without the other. -/
def HasLoneHalf (text : List Char) : Prop :=
  ∃ pieces, literalPieces? text = some pieces ∧ pieces.any Literal.Piece.isHalf = true

/-! ## Literals that are read -/

theorem literalPieces?_of_quoted? {c : Char} (quote : c = '"' ∨ c = apostrophe) {rest raw : List Char} {offset stop : Nat}
    (quoted : quoted? c rest offset [] = some (raw, ⟨[], stop⟩)) :
    literalPieces? (c :: rest) = Literal.decode? raw.length raw := by
  obtain ⟨text, -, across, again⟩ := quoted?_eq_some quote quoted
  obtain rfl : rest = text := by simpa using across.1
  have from_start := again [] 0
  rw [List.append_nil] at from_start
  rw [literalPieces?, if_pos (by simpa using quote), from_start]

/-- The value of a text literal is made of its pieces. -/
theorem exists_pieces_of_isToken {value : String} {hasHalves : Bool} {text : List Char}
    (token : IsToken (.text value hasHalves) text) :
    ∃ pieces, literalPieces? text = some pieces ∧ pieces.any Literal.Piece.isHalf = hasHalves ∧
      value.toList = pieces.flatMap (if hasHalves then Literal.Piece.encode else Literal.Piece.plain) := by
  obtain ⟨⟨c, others, rfl, -⟩, whole⟩ := token
  have read := whole [] 0 trivial
  rw [List.append_nil] at read
  have quote := quote_of_bare? read
  rw [bare?_of_quote quote] at read
  simp only [Option.bind_eq_bind, Option.bind_eq_some_iff] at read
  obtain ⟨⟨raw, after⟩, quoted, ⟨value', hasHalves'⟩, decoded, same⟩ := read
  cases same
  obtain ⟨pieces, pieces_eq, same⟩ := Option.bind_eq_some_iff.mp decoded
  refine ⟨pieces, (literalPieces?_of_quoted? quote quoted).trans pieces_eq, ?_⟩
  split_ifs at same with halves
  · cases same
    exact ⟨halves, by simp⟩
  · cases same
    exact ⟨by simpa using halves, by simp⟩

/-! ## Literals that are written -/

/-- A character that stands for itself between double quotes. -/
def StandsInQuotes (c : Char) : Prop := c ≠ '"' ∧ c ≠ '\\' ∧ c ≠ '\n' ∧ c ≠ '\r'

instance (c : Char) : Decidable (StandsInQuotes c) := inferInstanceAs (Decidable (_ ∧ _))

theorem standsInQuotes_hexDigit (n : Nat) : StandsInQuotes (Json.hexDigit n) := by
  have digits : ∀ digit < 16, StandsInQuotes (Nat.digitChar digit) := by decide
  exact digits _ (Nat.mod_lt _ (by decide))

theorem quoted?_cons {c : Char} (stands : StandsInQuotes c) (rest : List Char) (offset : Nat) (read : List Char) :
    quoted? '"' (c :: rest) offset read = quoted? '"' rest (offset + c.utf8Size) (c :: read) := by
  obtain ⟨no_quote, no_escape, no_feed, no_return⟩ := stands
  rw [quoted?, if_neg (by simpa using no_quote), if_neg (by simp [no_feed, no_return])]
  · exact fun _ same => absurd same no_escape
  · exact fun _ _ same => absurd same no_escape

theorem quoted?_escaped {c : Char} (no_return : c ≠ '\r') (rest : List Char) (offset : Nat) (read : List Char) :
    quoted? '"' ('\\' :: c :: rest) offset read =
      quoted? '"' rest (offset + byteLength ['\\', c]) (['\\', c].reverse ++ read) := by
  rw [quoted?.eq_3 _ _ _ _ _ fun _ same => absurd same no_return, Nat.add_assoc]
  rfl

/-- One written character is passed as a whole. -/
theorem quoted?_escapeChar (c : Char) (rest : List Char) (offset : Nat) (read : List Char) :
    quoted? '"' (Json.escapeChar c ++ rest) offset read =
      quoted? '"' rest (offset + byteLength (Json.escapeChar c)) ((Json.escapeChar c).reverse ++ read) := by
  unfold Json.escapeChar
  split_ifs with quote backslash newline carriage tab backspace formFeed control
  all_goals try exact quoted?_escaped (by decide) rest offset read
  · simp only [List.cons_append, List.nil_append]
    rw [quoted?_escaped (by decide), quoted?_cons (by decide), quoted?_cons (by decide),
      quoted?_cons (standsInQuotes_hexDigit _), quoted?_cons (standsInQuotes_hexDigit _)]
    simp [byteLength, Nat.add_assoc]
  · simp only [beq_iff_eq] at quote backslash newline carriage
    exact quoted?_cons ⟨quote, backslash, newline, carriage⟩ rest offset read

/-- What is quoted is read up to the closing quote. -/
theorem quoted?_escape (text rest read : List Char) (offset : Nat) :
    quoted? '"' (text.flatMap Json.escapeChar ++ '"' :: rest) offset read =
      some (read.reverse ++ text.flatMap Json.escapeChar,
        ⟨rest, offset + byteLength (text.flatMap Json.escapeChar) + 1⟩) := by
  induction text generalizing offset read with
  | nil => simp [quoted?, byteLength]
  | cons c text ih =>
      rw [List.flatMap_cons, List.append_assoc, quoted?_escapeChar, ih]
      simp [byteLength_append, Nat.add_assoc]

end Lexer

namespace Literal

/-- An escape that stands for a character is decoded to it. -/
theorem decode?_escape {c : Char} {escaped rest : List Char} (fuel : Nat)
    (stands : escape? (escaped ++ rest) = some (some (.char c), rest)) :
    decode? (fuel + 1) ('\\' :: escaped ++ rest) = (decode? fuel rest).map (.char c :: ·) := by
  rw [List.cons_append, decode?, stands]
  simp only [Option.bind_eq_bind, Option.bind_some]
  cases decode? fuel rest <;> rfl

/-- A written character is decoded as itself. -/
theorem decode?_escapeChar (fuel : Nat) (c : Char) (rest : List Char) :
    decode? (fuel + 1) (Json.escapeChar c ++ rest) = (decode? fuel rest).map (.char c :: ·) := by
  unfold Json.escapeChar
  split_ifs with quote backslash newline carriage tab backspace formFeed control
  all_goals simp only [beq_iff_eq] at *
  · subst quote
    exact decode?_escape fuel rfl
  · subst backslash
    exact decode?_escape fuel rfl
  · subst newline
    exact decode?_escape fuel rfl
  · subst carriage
    exact decode?_escape fuel rfl
  · subst tab
    exact decode?_escape fuel rfl
  · have equal : c = Char.ofNat 8 := by rw [← backspace, Char.ofNat_toNat]
    subst equal
    exact decode?_escape fuel rfl
  · have equal : c = Char.ofNat 12 := by rw [← formFeed, Char.ofNat_toNat]
    subst equal
    exact decode?_escape fuel rfl
  · have high : isHighHalf c.toNat = false := by simp [isHighHalf]; omega
    have low : isLowHalf c.toNat = false := by simp [isLowHalf]; omega
    have read : codePoint? ('0' :: '0' :: Json.hexDigit (c.toNat / 16) :: Json.hexDigit c.toNat :: rest) =
        some (c.toNat, rest) := Json.readHex4_escape c.toNat control rest
    have stands : escape? (['u', '0', '0', Json.hexDigit (c.toNat / 16), Json.hexDigit c.toNat] ++ rest) =
        some (some (.char c), rest) := by
      simp only [List.cons_append, List.nil_append, escape?, unicodePiece?, read]
      simp [high, low, Piece.ofCodePoint, Char.ofNat_toNat]
    exact decode?_escape fuel stands
  · rw [List.singleton_append, decode?]
    exact fun same => absurd same backslash

/-- What is quoted is decoded as it is. -/
theorem decode?_flatMap_escapeChar {fuel : Nat} {text : List Char} (enough : text.length ≤ fuel) :
    decode? fuel (text.flatMap Json.escapeChar) = some (text.map .char) := by
  induction text generalizing fuel with
  | nil => cases fuel <;> rfl
  | cons c text ih =>
      obtain ⟨fuel, rfl⟩ := Nat.exists_eq_add_of_le' (Nat.le_trans (Nat.succ_pos _) enough)
      rw [List.flatMap_cons, decode?_escapeChar, ih (Nat.le_of_succ_le_succ enough)]
      rfl

/-! ## Values that are quoted again -/

theorem length_le_length_charUnits (text : List Char) : text.length ≤ (text.flatMap charUnits).length := by
  induction text with
  | nil => rfl
  | cons c text ih =>
      have some_unit : 0 < (charUnits c).length := by
        unfold charUnits
        split_ifs <;> simp
      simp only [List.flatMap_cons, List.length_append, List.length_cons]
      omega

/-- What spells out a piece has at least as many code units, and more if the piece is a half. -/
theorem length_units_le_encode (piece : Piece) :
    piece.units.length ≤ (piece.encode.flatMap charUnits).length ∧
      (piece.isHalf = true → piece.units.length < (piece.encode.flatMap charUnits).length) := by
  cases piece with
  | char c =>
      refine ⟨?_, nofun⟩
      rw [Piece.units, Piece.encode]
      split_ifs with marker
      · rw [List.flatMap_cons, List.length_append]
        exact Nat.le_add_right _ _
      · simp
  | half unit =>
      have five := length_le_length_charUnits (Piece.half unit).encode
      have spelled : (Piece.half unit).encode.length = 5 := rfl
      have single : (Piece.half unit).units.length = 1 := rfl
      omega

theorem length_units_le_flatMap_encode (pieces : List Piece) :
    (pieces.flatMap Piece.units).length ≤ ((pieces.flatMap Piece.encode).flatMap charUnits).length ∧
      (pieces.any Piece.isHalf = true →
        (pieces.flatMap Piece.units).length < ((pieces.flatMap Piece.encode).flatMap charUnits).length) := by
  induction pieces with
  | nil => simp
  | cons piece pieces ih =>
      obtain ⟨least, more⟩ := length_units_le_encode piece
      simp only [List.flatMap_cons, List.flatMap_append, List.length_append, List.any_cons, Bool.or_eq_true]
      refine ⟨by omega, ?_⟩
      rintro (half | half)
      · have := more half
        omega
      · have := ih.2 half
        omega

/-- Pieces without halves are the characters that they stand for. -/
theorem map_char_flatMap_plain {pieces : List Piece} (no_half : pieces.any Piece.isHalf = false) :
    (pieces.flatMap Piece.plain).map .char = pieces := by
  induction pieces with
  | nil => rfl
  | cons piece pieces ih =>
      rw [List.any_cons, Bool.or_eq_false_iff] at no_half
      cases piece with
      | char c => rw [List.flatMap_cons, List.map_append, ih no_half.2]; rfl
      | half unit => cases no_half.1

end Literal

namespace Lexer

open Literal (Piece charUnits)

/-- A quoted text is a literal of its characters. -/
theorem literalPieces?_quote (text : String) :
    literalPieces? (Json.quote text).toList = some (text.toList.map .char) := by
  have quoted := quoted?_escape text.toList [] [] 0
  rw [Json.toList_quote, literalPieces?_of_quoted? (.inl rfl) quoted, List.reverse_nil, List.nil_append]
  exact Literal.decode?_flatMap_escapeChar (Json.length_le_length_escape _)

theorem literalUnits?_quote (text : String) :
    literalUnits? (Json.quote text).toList = some (text.toList.flatMap charUnits) := by
  rw [literalUnits?, literalPieces?_quote, Option.map_some, List.flatMap_map]
  rfl

/-- A value that is quoted again stands for the same code units exactly if no half of a pair is among them. -/
theorem literalUnits?_quote_iff {value : String} {hasHalves : Bool} {text : List Char}
    (token : IsToken (.text value hasHalves) text) :
    literalUnits? (Json.quote value).toList = literalUnits? text ↔ ¬HasLoneHalf text := by
  obtain ⟨pieces, pieces_eq, halves, value_eq⟩ := exists_pieces_of_isToken token
  rw [literalUnits?_quote, literalUnits?, pieces_eq, Option.map_some, Option.some.injEq, value_eq, HasLoneHalf]
  simp only [pieces_eq, Option.some.injEq, exists_eq_left', halves]
  cases hasHalves with
  | false =>
      have same : pieces.flatMap Piece.units = (pieces.flatMap Piece.plain).flatMap charUnits := by
        conv_lhs => rw [← Literal.map_char_flatMap_plain halves, List.flatMap_map]
        rfl
      simp [same]
  | true =>
      have longer := (Literal.length_units_le_flatMap_encode pieces).2 halves
      rw [if_pos rfl]
      simp only [not_true_eq_false, iff_false]
      intro same
      rw [same] at longer
      exact longer.false

end Lexer

end Storyboard
