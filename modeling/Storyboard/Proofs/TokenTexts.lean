import Storyboard.Code.Grammar.Module
import Storyboard.Proofs.TextRanges

/-!
# Texts of tokens

A token is read from the characters that it covers, and from the one behind them only to see that it ends. So the
same characters are read as the same token at any other offset, in front of anything that begins with the same
character. For names and texts that character may also be any other that ends a name.
-/

namespace Storyboard

open Text (byteLength byteLength_append)

/-! ## Runs of characters -/

namespace Cursor

theorem takeWhile_eq (condition : Char → Bool) (text : List Char) (offset : Nat) :
    takeWhile condition text offset =
      (text.takeWhile condition, ⟨text.dropWhile condition, offset + byteLength (text.takeWhile condition)⟩) := by
  induction text generalizing offset with
  | nil => rfl
  | cons c rest ih =>
      rw [takeWhile]
      cases taken : condition c with
      | true => simp [taken, ih, byteLength, Nat.add_assoc]
      | false => simp [taken, byteLength]

/-- A text lies between two cursors. -/
def Across (text : List Char) (here after : Cursor) : Prop :=
  here.rest = text ++ after.rest ∧ after.offset = here.offset + byteLength text

theorem Across.append {front text rest : List Char} {offset : Nat} {after : Cursor}
    (across : Across text ⟨rest, offset + byteLength front⟩ after) :
    Across (front ++ text) ⟨front ++ rest, offset⟩ after := by
  have rest_eq : rest = text ++ after.rest := across.1
  have offset_eq : after.offset = offset + byteLength front + byteLength text := across.2
  refine ⟨?_, ?_⟩
  · rw [rest_eq, List.append_assoc]
  · rw [offset_eq, byteLength_append, Nat.add_assoc]

theorem Across.cons {c : Char} {text rest : List Char} {offset : Nat} {after : Cursor}
    (across : Across text ⟨rest, offset + c.utf8Size⟩ after) : Across (c :: text) ⟨c :: rest, offset⟩ after :=
  @append [c] text rest offset after across

end Cursor

open Cursor (Across)

namespace Lexer

/-- No name goes on in a text. -/
def EndsName (text : List Char) : Prop := ∀ c ∈ text.head?, Text.isNamePart c = false ∧ c ≠ '\\'

theorem takeWhile_append_of_endsName {front back : List Char} (part : ∀ c ∈ front, Text.isNamePart c = true)
    (ends : EndsName back) :
    (front ++ back).takeWhile Text.isNamePart = front ∧ (front ++ back).dropWhile Text.isNamePart = back := by
  have outside : back.takeWhile Text.isNamePart = [] ∧ back.dropWhile Text.isNamePart = back := by
    cases back with
    | nil => exact ⟨rfl, rfl⟩
    | cons c back => simp [(ends c rfl).1]
  rw [List.takeWhile_append_of_pos part, List.dropWhile_append_of_pos part, outside.1, outside.2]
  exact ⟨List.append_nil _, rfl⟩

/-! ## Escapes -/

theorem utf8Size_of_hexValue? {c : Char} {value : Nat} (digit : Json.hexValue? c = some value) : c.utf8Size = 1 := by
  have small : c ≤ '9' ∨ c ≤ 'f' ∨ c ≤ 'F' := by
    unfold Json.hexValue? at digit
    split_ifs at digit with decimal lower upper
    · exact .inl decimal.2
    · exact .inr (.inl lower.2)
    · exact .inr (.inr upper.2)
  rw [Char.utf8Size_eq_one_iff]
  rcases small with small | small | small
  · exact UInt32.le_trans small (by decide)
  · exact UInt32.le_trans small (by decide)
  · exact UInt32.le_trans small (by decide)

theorem readHex4_eq_some {text rest : List Char} {value : Nat} (read : Json.readHex4 text = some (value, rest)) :
    ∃ digits, text = digits ++ rest ∧ digits.head? ≠ some '\x7b' ∧ byteLength digits = digits.length ∧
      ∀ others, Json.readHex4 (digits ++ others) = some (value, others) := by
  unfold Json.readHex4 at read
  split at read
  · rename_i a b c d rest'
    simp only [Option.bind_eq_bind, Option.bind_eq_some_iff] at read
    obtain ⟨first, first_eq, second, second_eq, third, third_eq, fourth, fourth_eq, same⟩ := read
    cases same
    refine ⟨[a, b, c, d], rfl, ?_, ?_, fun others => ?_⟩
    · rintro opens
      obtain rfl : a = '\x7b' := by simpa using opens
      simp [Json.hexValue?] at first_eq
    · simp [byteLength, utf8Size_of_hexValue? first_eq, utf8Size_of_hexValue? second_eq,
        utf8Size_of_hexValue? third_eq, utf8Size_of_hexValue? fourth_eq]
    · simp [Json.readHex4, first_eq, second_eq, third_eq, fourth_eq]
  · cases read

theorem bracedHex?_eq_some {text rest : List Char} {before value : Nat}
    (read : Literal.bracedHex? text before = some (value, rest)) :
    ∃ digits, text = digits ++ rest ∧ byteLength digits = digits.length ∧
      ∀ others, Literal.bracedHex? (digits ++ others) before = some (value, others) := by
  fun_induction Literal.bracedHex? text before with
  | case1 => cases read
  | case2 c rest' before closing =>
      cases read
      obtain rfl := eq_of_beq closing
      exact ⟨['\x7d'], rfl, rfl, fun others => by simp [Literal.bracedHex?]⟩
  | case3 c rest' before opens digit digit_eq ih =>
      obtain ⟨digits, rfl, width, again⟩ := ih read
      refine ⟨c :: digits, rfl, ?_, fun others => ?_⟩
      · rw [byteLength, utf8Size_of_hexValue? digit_eq, width, List.length_cons, Nat.add_comm]
      · rw [List.cons_append, Literal.bracedHex?, if_neg opens, digit_eq]
        exact again others
  | case4 => cases read

/-- A code point is read from characters of one byte each, and not from those behind them. -/
theorem codePoint?_eq_some {text rest : List Char} {value : Nat} (read : Literal.codePoint? text = some (value, rest)) :
    ∃ digits, text = digits ++ rest ∧ byteLength digits = digits.length ∧
      ∀ others, Literal.codePoint? (digits ++ others) = some (value, others) := by
  unfold Literal.codePoint? at read
  split at read
  · rename_i c rest'
    split_ifs at read with closing
    split at read
    · rename_i value' rest'' braced
      split_ifs at read with small
      cases read
      obtain ⟨digits, whole, width, again⟩ := bracedHex?_eq_some braced
      obtain ⟨digits, rfl⟩ : ∃ others, digits = c :: others := by
        cases digits with
        | nil =>
            have nothing := again ['\x7d']
            simp [Literal.bracedHex?] at nothing
        | cons first digits =>
            obtain ⟨rfl, -⟩ := List.cons.inj whole
            exact ⟨digits, rfl⟩
      refine ⟨'\x7b' :: c :: digits, by rw [whole]; rfl, ?_, fun others => ?_⟩
      · rw [byteLength, width, List.length_cons, Nat.add_comm]
        rfl
      · have braced := again others
        rw [List.cons_append] at braced
        simp only [List.cons_append, Literal.codePoint?, braced]
        rw [if_neg closing, if_pos small]
    · cases read
  · obtain ⟨digits, rfl, opens, width, again⟩ := readHex4_eq_some read
    refine ⟨digits, rfl, width, fun others => ?_⟩
    rw [Literal.codePoint?]
    · exact again others
    · rintro c rest' whole
      cases digits with
      | nil =>
          have nothing := again []
          cases nothing
      | cons first digits =>
          obtain ⟨rfl, -⟩ := List.cons.inj whole
          exact opens rfl

/-! ## Names -/

theorem not_isNamePart_backslash : Text.isNamePart '\\' = false := by decide

theorem not_isNameStart_backslash : Text.isNameStart '\\' = false := by decide

theorem escapedName?_of_endsName {rest read : List Char} (fuel offset : Nat) (ends : EndsName rest)
    (some_read : read.isEmpty = false) :
    escapedName? (fuel + 1) ⟨rest, offset⟩ read = some (read.reverse, ⟨rest, offset⟩) := by
  cases rest with
  | nil => rw [escapedName?, some_read, if_neg Bool.false_ne_true]
  | cons c rest =>
      obtain ⟨no_part, no_escape⟩ := ends c rfl
      rw [escapedName?, some_read, if_neg Bool.false_ne_true, if_neg (by simp [no_part]), if_neg (by simp [no_escape])]
      exact fun _ same => absurd same no_escape

/-- A name with escapes is read from its own characters. -/
theorem escapedName?_eq_some {fuel : Nat} {cursor after : Cursor} {read chars : List Char}
    (named : escapedName? fuel cursor read = some (chars, after)) :
    ∃ text, Across text cursor after ∧ EndsName after.rest ∧
      ∀ fuel rest offset, text.length < fuel → EndsName rest →
        escapedName? fuel ⟨text ++ rest, offset⟩ read = some (chars, ⟨rest, offset + byteLength text⟩) := by
  fun_induction escapedName? fuel cursor read with
  | case1 => cases named
  | case2 fuel rest offset read ih =>
      obtain ⟨⟨value, rest'⟩, decoded, named⟩ := Option.bind_eq_some_iff.mp named
      obtain ⟨digits, rfl, width, again⟩ := codePoint?_eq_some decoded
      dsimp only at named
      by_cases part : (if read.isEmpty then Text.isNameStart (Char.ofNat value)
          else Text.isNamePart (Char.ofNat value)) = true
      · rw [if_pos part] at named
        have size : byteLength ('\\' :: 'u' :: digits) = 2 + digits.length := by
          rw [byteLength, byteLength, width, ← Nat.add_assoc]
          rfl
        obtain ⟨text, across, ends, more⟩ := ih value rest' named
        rw [List.length_append, Nat.add_sub_cancel, Nat.add_assoc, ← size] at across
        refine ⟨'\\' :: 'u' :: digits ++ text, across.append, ends, fun fuel' others offset' enough stops => ?_⟩
        obtain ⟨fuel', rfl⟩ : ∃ fewer, fuel' = fewer + 1 := ⟨fuel' - 1, by omega⟩
        have shorter : text.length < fuel' := by
          simp only [List.length_append, List.length_cons] at enough
          omega
        rw [List.cons_append, List.cons_append, List.cons_append, List.cons_append, escapedName?, List.append_assoc,
          again (text ++ others)]
        simp only [Option.bind_eq_bind, Option.bind_some]
        rw [if_pos part, more fuel' others _ shorter stops, List.length_append, Nat.add_sub_cancel]
        rw [← List.cons_append, ← List.cons_append, byteLength_append, size]
        simp only [Nat.add_assoc]
      · rw [if_neg part] at named
        cases named
  | case3 fuel c rest offset read plain part ih =>
      obtain ⟨text, across, ends, more⟩ := ih named
      refine ⟨c :: text, across.cons, ends, fun fuel' others offset' enough stops => ?_⟩
      obtain ⟨fuel', rfl⟩ : ∃ fewer, fuel' = fewer + 1 := ⟨fuel' - 1, by omega⟩
      have no_escape : c ≠ '\\' := by
        rintro rfl
        simp [not_isNamePart_backslash, not_isNameStart_backslash] at part
      have shorter : text.length < fuel' := by simpa using enough
      rw [List.cons_append, escapedName?, if_pos part, more fuel' others _ shorter stops, byteLength, Nat.add_assoc]
      exact fun _ same => absurd same no_escape
  | case4 => cases named
  | case5 fuel c rest offset read plain part ends =>
      cases named
      have some_read : read.isEmpty = false := by simp_all
      have stops : EndsName (c :: rest) := by
        intro first same
        obtain rfl : c = first := by simpa using same
        simp_all
      refine ⟨[], ⟨rfl, rfl⟩, stops, fun fuel' others offset' enough stops => ?_⟩
      obtain ⟨fuel', rfl⟩ : ∃ fewer, fuel' = fewer + 1 := ⟨fuel' - 1, by omega⟩
      exact escapedName?_of_endsName fuel' offset' stops some_read
  | case6 => cases named
  | case7 fuel offset read some_read =>
      cases named
      refine ⟨[], ⟨rfl, rfl⟩, by simp [EndsName], fun fuel' others offset' enough stops => ?_⟩
      obtain ⟨fuel', rfl⟩ : ∃ fewer, fuel' = fewer + 1 := ⟨fuel' - 1, by omega⟩
      exact escapedName?_of_endsName fuel' offset' stops (by simpa using some_read)

/-- Characters of a name up to an escape are part of any text that is read as a whole name from the same place. -/
theorem exists_of_escape {front tail text rest : List Char} (part : ∀ c ∈ front, Text.isNamePart c = true)
    (same : front ++ '\\' :: tail = text ++ rest) (ends : EndsName rest) :
    ∃ behind, text = front ++ '\\' :: behind := by
  rcases List.append_eq_append_iff.mp same with ⟨between, rfl, tail_eq⟩ | ⟨between, rfl, rfl⟩
  · cases between with
    | nil =>
        rw [List.nil_append] at tail_eq
        exact absurd rfl (ends '\\' (by rw [← tail_eq]; rfl)).2
    | cons c behind =>
        obtain ⟨rfl, -⟩ := List.cons.inj tail_eq
        exact ⟨behind, rfl⟩
  · cases between with
    | nil => exact absurd rfl (ends '\\' rfl).2
    | cons c between =>
        have inside := part c (List.mem_append_right _ List.mem_cons_self)
        rw [(ends c rfl).1] at inside
        cases inside

/-- A name is read from its own characters, which may hold escapes. -/
theorem name?_eq_some {cursor after : Cursor} {name : String} {isEscaped : Bool}
    (named : name? cursor = some (name, isEscaped, after)) :
    ∃ text, Across text cursor after ∧ EndsName after.rest ∧
      ∀ rest offset, EndsName rest →
        name? ⟨text ++ rest, offset⟩ = some (name, isEscaped, ⟨rest, offset + byteLength text⟩) := by
  obtain ⟨characters, offset⟩ := cursor
  unfold name? at named
  split at named
  · cases named
  · rename_i c others rest_eq
    dsimp only at rest_eq
    subst rest_eq
    split_ifs at named with begins
    rw [Cursor.takeWhile_eq] at named
    dsimp only at named
    have part : ∀ c' ∈ (c :: others).takeWhile Text.isNamePart, Text.isNamePart c' = true :=
      List.all_eq_true.mp List.all_takeWhile
    by_cases escapes : ((c :: others).dropWhile Text.isNamePart).head? = some '\\'
    · rw [if_pos (by simpa using escapes)] at named
      obtain ⟨⟨chars, after'⟩, escaped, same⟩ := Option.map_eq_some_iff.mp named
      cases same
      obtain ⟨text, across, ends, again⟩ := escapedName?_eq_some escaped
      obtain ⟨tail, tail_eq⟩ := List.head?_eq_some_iff.mp escapes
      have whole : (c :: others).takeWhile Text.isNamePart ++ '\\' :: tail = text ++ after'.rest := by
        rw [← across.1, ← tail_eq, List.takeWhile_append_dropWhile]
      obtain ⟨behind, text_eq⟩ := exists_of_escape part whole ends
      refine ⟨text, across, ends, fun rest offset' stops => ?_⟩
      have still : (text ++ rest).dropWhile Text.isNamePart = '\\' :: (behind ++ rest) := by
        rw [text_eq, List.append_assoc, List.dropWhile_append_of_pos part, List.cons_append,
          List.dropWhile_cons_of_neg (by simp [not_isNamePart_backslash])]
      obtain ⟨first, text', rfl⟩ : ∃ first text', text = first :: text' := by
        cases text with
        | nil => simp at text_eq
        | cons first text' => exact ⟨first, text', rfl⟩
      obtain rfl : c = first := (List.cons.inj across.1).1
      rw [name?]
      simp only [List.cons_append]
      rw [if_pos begins, Cursor.takeWhile_eq]
      rw [List.cons_append] at still
      have long : (c :: text').length < (c :: (text' ++ rest)).length + 1 := by
        simp only [List.length_cons, List.length_append]
        omega
      simp only [still, List.head?_cons, beq_self_eq_true, if_true]
      rw [← List.cons_append] at long ⊢
      rw [again _ rest offset' long stops]
      rfl
    · rw [if_neg (by simpa using escapes)] at named
      cases named
      have ends : EndsName ((c :: others).dropWhile Text.isNamePart) := by
        intro first first_eq
        refine ⟨?_, ?_⟩
        · have stopped := List.head?_dropWhile_not Text.isNamePart (c :: others)
          rw [Option.mem_def.mp first_eq] at stopped
          simpa using stopped
        · rintro rfl
          exact escapes first_eq
      have start_part : Text.isNamePart c = true := by
        rcases Bool.or_eq_true_iff.mp begins with start | escape
        · simp [Text.isNamePart, start]
        · obtain rfl := eq_of_beq escape
          simp [not_isNamePart_backslash] at escapes
      refine ⟨_, ⟨List.takeWhile_append_dropWhile.symm, rfl⟩, ends, fun rest offset' stops => ?_⟩
      obtain ⟨taken, left⟩ := takeWhile_append_of_endsName part stops
      have no_escape : ¬rest.head? = some '\\' := fun head => (stops _ head).2 rfl
      rw [List.takeWhile_cons_of_pos start_part] at taken left ⊢
      rw [name?]
      simp only [List.cons_append] at taken left ⊢
      rw [if_pos begins, Cursor.takeWhile_eq, taken, left]
      simp [no_escape]

/-! ## Texts -/

/-- The characters of a text are read up to its closing quote, and not from those behind that. -/
theorem quoted?_eq_some {mark : Char} (quote : mark = '"' ∨ mark = apostrophe) {characters read raw : List Char}
    {offset : Nat} {after : Cursor} (quoted : quoted? mark characters offset read = some (raw, after)) :
    ∃ text, text ≠ [] ∧ Across text ⟨characters, offset⟩ after ∧
      ∀ rest offset, quoted? mark (text ++ rest) offset read = some (raw, ⟨rest, offset + byteLength text⟩) := by
  have small : mark.utf8Size = 1 := by rcases quote with rfl | rfl <;> rfl
  have no_escape : mark ≠ '\\' := by rcases quote with rfl | rfl <;> decide
  fun_induction quoted? mark characters offset read with
  | case1 => cases quoted
  | case2 rest offset read ih =>
      obtain ⟨text, -, across, again⟩ := ih quoted
      have size : byteLength ['\\', '\r', '\n'] = 3 := rfl
      refine ⟨['\\', '\r', '\n'] ++ text, by simp, Across.append (by rwa [size]), fun others offset' => ?_⟩
      rw [byteLength_append, size, ← Nat.add_assoc, ← again others]
      exact quoted?.eq_2 mark offset' read (text ++ others)
  | case3 c rest offset read single ih =>
      obtain ⟨text, some_text, across, again⟩ := ih quoted
      have size : byteLength ['\\', c] = 1 + c.utf8Size := rfl
      rw [Nat.add_assoc, ← size] at across
      refine ⟨['\\', c] ++ text, by simp, across.append, fun others offset' => ?_⟩
      obtain ⟨first, text, rfl⟩ := List.exists_cons_of_ne_nil some_text
      rw [byteLength_append, size, ← Nat.add_assoc, ← Nat.add_assoc, ← again others]
      refine quoted?.eq_3 mark offset' read c (first :: text ++ others) fun rest' returns feeds => ?_
      obtain ⟨rfl, -⟩ := List.cons.inj feeds
      exact single _ returns across.1
  | case4 c rest offset read _ _ closing =>
      cases quoted
      obtain rfl := eq_of_beq closing
      have size : byteLength [c] = 1 := small
      refine ⟨[c], by simp, ⟨rfl, by rw [size]⟩, fun others offset' => ?_⟩
      rw [List.singleton_append, quoted?, if_pos (beq_self_eq_true c), size]
      · exact fun _ same => absurd same no_escape
      · exact fun _ _ same => absurd same no_escape
  | case5 => cases quoted
  | case6 c rest offset read _ alone goes_on inside ih =>
      obtain ⟨text, some_text, across, again⟩ := ih quoted
      obtain ⟨first, text, rfl⟩ := List.exists_cons_of_ne_nil some_text
      have plain : c ≠ '\\' := fun same => alone _ _ same across.1
      refine ⟨c :: first :: text, by simp, across.cons, fun others offset' => ?_⟩
      rw [List.cons_append, quoted?, if_neg goes_on, if_neg inside, again others, byteLength, Nat.add_assoc]
      · rfl
      · exact fun _ same => absurd same plain
      · exact fun _ _ same => absurd same plain

/-! ## Digits and blanks -/

/-- The digits and the blanks of every script, by their numbers. -/
def digitsAndBlanks : List Nat :=
  List.range' 9 5 ++ List.range' 48 10 ++ List.range' 0x2000 12 ++
    [0x20, 0x85, 0xA0, 0x1680, 0x2028, 0x2029, 0x202F, 0x205F, 0x3000, 0xFEFF]

theorem mem_digitsAndBlanks_of_isBlank {c : Char} (blank : Text.isBlank c = true) : c.toNat ∈ digitsAndBlanks := by
  simp only [Text.isBlank, Bool.or_eq_true, Bool.and_eq_true, decide_eq_true_eq, beq_iff_eq] at blank
  simp only [digitsAndBlanks, List.mem_append, List.mem_range'_1, List.mem_cons, List.not_mem_nil]
  omega

theorem mem_digitsAndBlanks_of_isDigit {c : Char} (digit : c.isDigit = true) : c.toNat ∈ digitsAndBlanks := by
  simp only [Char.isDigit, Bool.and_eq_true, decide_eq_true_eq] at digit
  have range : 48 ≤ c.toNat ∧ c.toNat ≤ 57 := digit
  simp only [digitsAndBlanks, List.mem_append, List.mem_range'_1, List.mem_cons, List.not_mem_nil]
  omega

/-- Ranges beyond ASCII that hold the blanks and no letter. -/
def blankRanges : List (Nat × Nat) :=
  [(0x85, 0xA0), (0x1680, 0x1680), (0x2000, 0x205F), (0x3000, 0x3000), (0xFEFF, 0xFEFF)]

/-- A number in ranges that lie apart from others is in none of the others. -/
theorem inRanges_eq_false_of_apart {inner outer : List (Nat × Nat)}
    (apart : (outer.all fun range => inner.all fun gap => range.2.blt gap.1 || gap.2.blt range.1) = true) {n : Nat}
    (inside : Text.inRanges inner n = true) : Text.inRanges outer n = false := by
  obtain ⟨gap, gap_mem, inside⟩ := List.any_eq_true.mp inside
  refine List.any_eq_false.mpr fun range range_mem within => ?_
  have disjoint := List.all_eq_true.mp (List.all_eq_true.mp apart range range_mem) gap gap_mem
  simp only [Bool.and_eq_true, Bool.or_eq_true, decide_eq_true_eq, Nat.blt_eq] at inside within disjoint
  omega

theorem not_isNameStart_of_inRanges {c : Char} (inside : Text.inRanges blankRanges c.toNat = true) :
    Text.isNameStart c = false := by
  have no_letter : Text.inRanges Text.letterRanges c.toNat = false :=
    inRanges_eq_false_of_apart (by decide +kernel) inside
  have no_extra : Text.inRanges Text.extraStarts c.toNat = false := inRanges_eq_false_of_apart (by decide) inside
  have beyond : 0x80 ≤ c.toNat := by
    by_contra small
    have no_ascii : Text.inRanges [(0, 0x7F)] c.toNat = false := inRanges_eq_false_of_apart (by decide) inside
    simp [Text.inRanges] at no_ascii
    omega
  have no_sign : c ≠ '$' ∧ c ≠ '_' := by
    constructor <;>
    · rintro rfl
      exact absurd beyond (by decide)
  simp [Text.isNameStart, Text.isLetter, no_letter, no_extra, no_sign, Nat.not_lt.mpr beyond]

/-- No digit and no blank begins a name. -/
theorem not_mem_digitsAndBlanks {c : Char} (start : Text.isNameStart c = true) : c.toNat ∉ digitsAndBlanks := by
  have none_starts : ∀ n ∈ digitsAndBlanks,
      Text.inRanges blankRanges n = true ∨ Text.isNameStart (Char.ofNat n) = false := by decide
  intro member
  have no_start : Text.isNameStart c = false := by
    rcases none_starts c.toNat member with inside | no_start
    · exact not_isNameStart_of_inRanges inside
    · rwa [Char.ofNat_toNat] at no_start
  rw [start] at no_start
  cases no_start

theorem mem_digitsAndBlanks_of_isInlineBlank {c : Char}
    (blank : isInlineBlank c = true ∨ Literal.isLineEnd c = true) : c.toNat ∈ digitsAndBlanks := by
  simp only [isInlineBlank, Literal.isLineEnd, Bool.or_eq_true, Bool.and_eq_true, beq_iff_eq] at blank
  rcases blank with ⟨(blank | rfl) | rfl, -⟩ | ((rfl | rfl) | rfl) | rfl
  · exact mem_digitsAndBlanks_of_isBlank blank
  all_goals decide

/-! ## Tokens -/

/-- A character at which no blank, no comment and no mark in the style of markup begins. -/
structure Begins (c : Char) : Prop where
  /-- It ends no line. -/
  in_line : Literal.isLineEnd c = false
  /-- It is no blank. -/
  no_blank : isInlineBlank c = false
  /-- It begins no comment. -/
  no_comment : c ≠ '/'
  /-- It begins no mark in the style of markup. -/
  no_markup : c ≠ '<' ∧ c ≠ '-'

/-- A token is a name, a text or a star. -/
def IsPlain : TokenKind → Prop
  | .name _ _ => True
  | .text _ _ => True
  | .mark text => text = "*"
  | _ => False

/-- A token ends in front of a text. -/
def EndsBefore : TokenKind → List Char → Prop
  | .name _ _, rest => EndsName rest
  | .mark text, rest => text = "*" → ∀ c ∈ rest.head?, c ≠ '=' ∧ c ≠ '*'
  | _, _ => True

/-- A text is read as one token wherever it stands, if the token ends behind it. -/
def IsToken (kind : TokenKind) (text : List Char) : Prop :=
  (∃ c others, text = c :: others ∧ Begins c) ∧
    ∀ rest offset, EndsBefore kind rest →
      bare? ⟨text ++ rest, offset⟩ = some (kind, ⟨rest, offset + byteLength text⟩)

theorem bare?_cons (c : Char) (rest : List Char) (offset : Nat) :
    bare? ⟨c :: rest, offset⟩ =
      if c.isDigit || (c == '.' && (rest.head?.map Char.isDigit).getD false) then number? ⟨c :: rest, offset⟩
      else if c == '"' || c == apostrophe then do
        let (raw, after) ← quoted? c rest (offset + 1) []
        let (value, hasHalves) ← Literal.text? raw
        return (.text value hasHalves, after)
      else if c == backquote then template? (Cursor.skip ⟨c :: rest, offset⟩ 1)
      else if c == '#' then
        (name? (Cursor.skip ⟨c :: rest, offset⟩ 1)).map fun (text, _, after) => (.privateName text, after)
      else if Text.isNameStart c || c == '\\' then
        (name? ⟨c :: rest, offset⟩).map fun (text, isEscaped, after) => (.name text isEscaped, after)
      else mark? ⟨c :: rest, offset⟩ :=
  rfl

theorem bare?_of_quote {c : Char} (quote : c = '"' ∨ c = apostrophe) (rest : List Char) (offset : Nat) :
    bare? ⟨c :: rest, offset⟩ = do
      let (raw, after) ← quoted? c rest (offset + 1) []
      let (value, hasHalves) ← Literal.text? raw
      return (.text value hasHalves, after) := by
  have no_number : (c.isDigit || (c == '.' && (rest.head?.map Char.isDigit).getD false)) = false := by
    rcases quote with rfl | rfl <;> rfl
  have is_quote : (c == '"' || c == apostrophe) = true := by
    rcases quote with rfl | rfl <;> rfl
  rw [bare?_cons]
  simp only [no_number, Bool.false_eq_true, if_false, is_quote, if_true]

/-- A text between quotes is the same token wherever its characters stand. -/
theorem exists_token_of_quoted? {c : Char} (quote : c = '"' ∨ c = apostrophe) {rest : List Char} {offset : Nat}
    {kind : TokenKind} {after : Cursor} (read : bare? ⟨c :: rest, offset⟩ = some (kind, after)) :
    ∃ value hasHalves text, kind = .text value hasHalves ∧ Across text ⟨c :: rest, offset⟩ after ∧
      IsToken kind text := by
  have small : c.utf8Size = 1 := by rcases quote with rfl | rfl <;> rfl
  have begins : Begins c := by rcases quote with rfl | rfl <;> constructor <;> decide
  rw [bare?_of_quote quote] at read
  simp only [Option.bind_eq_bind, Option.bind_eq_some_iff] at read
  obtain ⟨⟨raw, after'⟩, quoted, ⟨value, hasHalves⟩, decoded, same⟩ := read
  cases same
  obtain ⟨text, -, across, again⟩ := quoted?_eq_some quote quoted
  refine ⟨value, hasHalves, c :: text, rfl, Across.cons (by rwa [small]), ⟨c, text, rfl, begins⟩,
    fun others place _ => ?_⟩
  rw [List.cons_append, bare?_of_quote quote, again others, byteLength, small, ← Nat.add_assoc]
  simp only [Option.bind_eq_bind, Option.bind_some, decoded]
  rfl

theorem bare?_of_nameStart {c : Char} (no_digit : c.isDigit = false) (no_quote : c ≠ '"' ∧ c ≠ apostrophe)
    (no_mark : c ≠ backquote ∧ c ≠ '#') (begins : (Text.isNameStart c || c == '\\') = true) (rest : List Char)
    (offset : Nat) :
    bare? ⟨c :: rest, offset⟩ =
      (name? ⟨c :: rest, offset⟩).map fun (text, isEscaped, after) => (.name text isEscaped, after) := by
  have no_point : c ≠ '.' := by
    rintro rfl
    revert begins
    decide
  rw [bare?_cons]
  simp [no_digit, no_point, no_quote, no_mark, begins]

/-- A name is the same token wherever its characters stand. -/
theorem exists_token_of_name? {c : Char} {rest : List Char} {offset : Nat} {name : String} {isEscaped : Bool}
    {after : Cursor} (settled : Literal.isLineEnd c = false ∧ isInlineBlank c = false) (no_digit : c.isDigit = false)
    (no_quote : c ≠ '"' ∧ c ≠ apostrophe) (no_mark : c ≠ backquote ∧ c ≠ '#')
    (begins : (Text.isNameStart c || c == '\\') = true)
    (named : name? ⟨c :: rest, offset⟩ = some (name, isEscaped, after)) :
    ∃ text, Across text ⟨c :: rest, offset⟩ after ∧ IsToken (.name name isEscaped) text ∧ EndsName after.rest := by
  obtain ⟨text, across, ends, again⟩ := name?_eq_some named
  cases text with
  | nil =>
      have nothing := again [] 0 (by simp [EndsName])
      cases nothing
  | cons first text =>
      obtain rfl : c = first := (List.cons.inj across.1).1
      have plain : Begins c := by
        refine ⟨settled.1, settled.2, ?_, ?_, ?_⟩ <;>
        · rintro rfl
          revert begins
          decide
      refine ⟨c :: text, across, ⟨⟨c, text, rfl, plain⟩, fun others place stops => ?_⟩, ends⟩
      have read := again others place stops
      rw [List.cons_append] at read ⊢
      rw [bare?_of_nameStart no_digit no_quote no_mark begins, read]
      rfl

theorem bare?_star {rest : List Char} (ends : ∀ c ∈ rest.head?, c ≠ '=' ∧ c ≠ '*') (offset : Nat) :
    bare? ⟨'*' :: rest, offset⟩ = some (.mark "*", ⟨rest, offset + 1⟩) := by
  have no_name : (Text.isNameStart '*' || '*' == '\\') = false := by decide
  have other : bare? ⟨'*' :: rest, offset⟩ = mark? ⟨'*' :: rest, offset⟩ := by
    rw [bare?_cons]
    simp only [no_name]
    rfl
  have first : marks.find? (Cursor.startsWith ⟨'*' :: rest, offset⟩) = some "*" := by
    cases rest with
    | nil => rfl
    | cons c rest =>
        obtain ⟨no_assign, no_star⟩ := ends c rfl
        simp [marks, Cursor.startsWith, no_assign.symm, no_star.symm]
  rw [other, mark?]
  simp only [first]
  rfl

/-- A mark is read where it stands, and a star only in front of nothing that makes it a longer mark. -/
theorem exists_mark_of_mark? {here after : Cursor} {kind : TokenKind} (read : mark? here = some (kind, after)) :
    ∃ mark ∈ marks, kind = .mark mark ∧ here.startsWith mark = true ∧ after = here.skip mark.length ∧
      (mark = "?" ∨ marks.find? here.startsWith = some mark) := by
  unfold mark? at read
  split_ifs at read with condition
  · cases read
    refine ⟨"?", by decide, rfl, ?_, rfl, .inl rfl⟩
    obtain ⟨characters, offset⟩ := here
    unfold isConditionBeforeNumber at condition
    split at condition
    · rename_i rest_eq
      dsimp only at rest_eq
      rw [rest_eq]
      rfl
    · cases condition
  · obtain ⟨mark, found, same⟩ := Option.map_eq_some_iff.mp read
    cases same
    exact ⟨mark, List.mem_of_find?_eq_some found, rfl, List.find?_some found, rfl, .inr found⟩

theorem star_of_mark? {here after : Cursor} (read : mark? here = some (.mark "*", after)) :
    ∃ rest, here.rest = '*' :: rest ∧ after = ⟨rest, here.offset + 1⟩ ∧ ∀ c ∈ rest.head?, c ≠ '=' ∧ c ≠ '*' := by
  obtain ⟨text, offset⟩ := here
  obtain ⟨_, -, same, starts, rfl, found⟩ := exists_mark_of_mark? read
  cases same
  have found := found.resolve_left (by decide)
  rw [Cursor.startsWith] at starts
  obtain ⟨rest, rfl⟩ := List.isPrefixOf_iff_prefix.mp starts
  refine ⟨rest, rfl, rfl, fun c head => ?_⟩
  obtain ⟨others, rfl⟩ := List.head?_eq_some_iff.mp head
  constructor
  · rintro rfl
    have longer : marks.find? (Cursor.startsWith ⟨'*' :: '=' :: others, offset⟩) = some "*=" := rfl
    exact absurd (found.symm.trans longer) (by decide)
  · rintro rfl
    have longer : marks.find? (Cursor.startsWith ⟨'*' :: '*' :: others, offset⟩) ≠ some "*" := by
      simp [marks, Cursor.startsWith]
    exact longer found

theorem isToken_star : IsToken (.mark "*") ['*'] := by
  refine ⟨⟨'*', [], rfl, ?_⟩, fun rest offset ends => bare?_star (ends rfl) offset⟩
  constructor <;> decide

/-- A token that is a text begins with a quote. -/
theorem quote_of_bare? {c : Char} {rest : List Char} {offset : Nat} {value : String} {hasHalves : Bool} {after : Cursor}
    (read : bare? ⟨c :: rest, offset⟩ = some (.text value hasHalves, after)) : c = '"' ∨ c = apostrophe := by
  by_contra no_quote
  have no_quote : ¬(c == '"' || c == apostrophe) = true := by simpa using no_quote
  rw [bare?_cons, if_neg no_quote] at read
  split_ifs at read
  · obtain ⟨⟨numeral, width, others⟩, -, read⟩ := Option.bind_eq_some_iff.mp read
    dsimp only at read
    split_ifs at read
    cases numeral <;> cases read
  · obtain ⟨_, -, same⟩ := Option.map_eq_some_iff.mp read
    cases same
  · obtain ⟨_, -, same⟩ := Option.map_eq_some_iff.mp read
    cases same
  · obtain ⟨_, -, same⟩ := Option.map_eq_some_iff.mp read
    cases same
  · obtain ⟨mark, -, same, -⟩ := exists_mark_of_mark? read
    cases same

/-- A name, a text or a star is the same token wherever its characters stand. -/
theorem exists_token_of_bare? {here after : Cursor} {kind : TokenKind} (read : bare? here = some (kind, after))
    (plain : IsPlain kind)
    (settled : ∀ c ∈ here.rest.head?, Literal.isLineEnd c = false ∧ isInlineBlank c = false) :
    ∃ text, Across text here after ∧ IsToken kind text ∧ EndsBefore kind after.rest := by
  obtain ⟨characters, offset⟩ := here
  cases characters with
  | nil =>
      cases read
      cases plain
  | cons c rest =>
      by_cases quote : c = '"' ∨ c = apostrophe
      · obtain ⟨value, hasHalves, text, rfl, across, token⟩ := exists_token_of_quoted? quote read
        exact ⟨text, across, token, trivial⟩
      · rw [bare?_cons] at read
        split_ifs at read with number _ template private_ name
        · -- a number is no plain token
          obtain ⟨⟨numeral, width, others⟩, -, read⟩ := Option.bind_eq_some_iff.mp read
          dsimp only at read
          split_ifs at read
          cases read
          cases numeral <;> cases plain
        · simp_all
        · obtain ⟨⟨raw, isLast, after'⟩, -, same⟩ := Option.map_eq_some_iff.mp read
          cases same
          cases plain
        · obtain ⟨⟨text, isEscaped, after'⟩, -, same⟩ := Option.map_eq_some_iff.mp read
          cases same
          cases plain
        · obtain ⟨⟨text, isEscaped, after'⟩, named, same⟩ := Option.map_eq_some_iff.mp read
          cases same
          have no_digit : c.isDigit = false := by
            cases digit : c.isDigit
            · rfl
            · simp [digit] at number
          obtain ⟨text, across, token, ends⟩ := exists_token_of_name? (settled c rfl) no_digit (not_or.mp quote)
            ⟨by simpa using template, by simpa using private_⟩ name named
          exact ⟨text, across, token, ends⟩
        · obtain ⟨mark, -, rfl, -⟩ := exists_mark_of_mark? read
          obtain rfl : mark = "*" := plain
          obtain ⟨others, rest_eq, rfl, ends⟩ := star_of_mark? read
          obtain ⟨rfl, rfl⟩ := List.cons.inj rest_eq
          exact ⟨['*'], ⟨rfl, rfl⟩, isToken_star, fun _ => ends⟩

/-! ## Words and punctuation -/

/-- A word of characters that make up a name. -/
def IsWord (word : String) : Prop :=
  (∃ c ∈ word.toList.head?, Text.isNameStart c = true) ∧ ∀ c ∈ word.toList, Text.isNamePart c = true

instance (word : String) : Decidable (IsWord word) :=
  decidable_of_iff ((word.toList.head?.any Text.isNameStart && word.toList.all Text.isNamePart) = true)
    (by simp only [IsWord, Bool.and_eq_true, Option.any_eq_true, List.all_eq_true, Option.mem_def])

/-- A word is a name wherever its characters stand. -/
theorem isToken_of_isWord {word : String} (isWord : IsWord word) : IsToken (.name word false) word.toList := by
  obtain ⟨⟨c, head, start⟩, part⟩ := isWord
  obtain ⟨others, word_eq⟩ := List.head?_eq_some_iff.mp head
  have no_blank : isInlineBlank c = false ∧ Literal.isLineEnd c = false := by
    refine ⟨?_, ?_⟩ <;> by_contra blank
    · exact not_mem_digitsAndBlanks start (mem_digitsAndBlanks_of_isInlineBlank (.inl (by simpa using blank)))
    · exact not_mem_digitsAndBlanks start (mem_digitsAndBlanks_of_isInlineBlank (.inr (by simpa using blank)))
  have no_digit : c.isDigit = false := by
    by_contra digit
    exact not_mem_digitsAndBlanks start (mem_digitsAndBlanks_of_isDigit (by simpa using digit))
  have other : ∀ mark ∈ ['/', '<', '-', '"', apostrophe, backquote, '#'], c ≠ mark := by
    rintro mark listed rfl
    have none_starts : ['/', '<', '-', '"', apostrophe, backquote, '#'].any Text.isNameStart = false := by
      decide
    exact List.any_eq_false.mp none_starts c listed start
  refine ⟨⟨c, others, word_eq, ⟨no_blank.2, no_blank.1, other _ (by simp), other _ (by simp), other _ (by simp)⟩⟩,
    fun rest offset ends => ?_⟩
  obtain ⟨taken, left⟩ := takeWhile_append_of_endsName part ends
  have named : name? ⟨word.toList ++ rest, offset⟩ = some (word, false, ⟨rest, offset + byteLength word.toList⟩) := by
    have no_escape : ¬rest.head? = some '\\' := fun escape => (ends _ escape).2 rfl
    rw [word_eq, List.cons_append] at taken left ⊢
    rw [name?]
    simp only [start, Bool.true_or, if_true, Cursor.takeWhile_eq, taken, left]
    rw [← word_eq, String.ofList_toList]
    simp [no_escape]
  rw [word_eq, List.cons_append] at named ⊢
  rw [bare?_of_nameStart no_digit ⟨other _ (by simp), other _ (by simp)⟩ ⟨other _ (by simp), other _ (by simp)⟩
    (by rw [start]; rfl), named]
  rfl

/-- The punctuation of lists and statements. -/
def delimiters : List String := ["\x7b", "\x7d", ",", ";"]

theorem isToken_of_mem_delimiters {mark : String} (listed : mark ∈ delimiters) : IsToken (.mark mark) mark.toList := by
  simp only [delimiters, List.mem_cons, List.not_mem_nil, or_false] at listed
  rcases listed with rfl | rfl | rfl | rfl
  · exact ⟨⟨'\x7b', [], rfl, by constructor <;> decide⟩, fun rest offset _ => rfl⟩
  · exact ⟨⟨'\x7d', [], rfl, by constructor <;> decide⟩, fun rest offset _ => rfl⟩
  · exact ⟨⟨',', [], rfl, by constructor <;> decide⟩, fun rest offset _ => rfl⟩
  · exact ⟨⟨';', [], rfl, by constructor <;> decide⟩, fun rest offset _ => rfl⟩

/-! ## Gaps -/

/-- A scan stands at the same place, maybe in another comment. -/
def GapPlace.inComment (promise : Option Promise) (start : Nat) : GapPlace → GapPlace
  | between => between
  | inLine _ _ => inLine promise start
  | inBlock _ _ => inBlock promise start

/-- A text is skipped from a place in front of any token. -/
def Skips (place : GapPlace) (text : List Char) : Prop :=
  ∀ promise start c rest offset gap, Begins c →
    ∃ gap', skipGap (place.inComment promise start) (text ++ c :: rest) offset gap =
      some (⟨c :: rest, offset + byteLength text⟩, gap')

/-! ### Steps of a scan -/

theorem skipGap_of_ne_slash {c : Char} (no_comment : c ≠ '/') (text : List Char) (offset : Nat) (gap : Gap) :
    skipGap .between (c :: text) offset gap =
      if Literal.isLineEnd c then skipGap .between text (offset + c.utf8Size) gap.endLine
      else if isInlineBlank c then skipGap .between text (offset + c.utf8Size) gap
      else some (⟨c :: text, offset⟩, gap) := by
  rw [skipGap]
  · exact fun _ slash => absurd slash no_comment
  · exact fun _ slash => absurd slash no_comment

theorem skipGap_inLine_cons (promise : Option Promise) (start : Nat) (c : Char) (text : List Char) (offset : Nat)
    (gap : Gap) :
    skipGap (.inLine promise start) (c :: text) offset gap =
      if Literal.isLineEnd c then
        skipGap .between text (offset + c.utf8Size) (gap.addLineComment promise start offset).endLine
      else skipGap (.inLine promise start) text (offset + c.utf8Size) gap :=
  rfl

theorem skipGap_inBlock_cons {c : Char} {text : List Char} (open_ : ∀ others, c = '*' → text = '/' :: others → False)
    (promise : Option Promise) (start offset : Nat) (gap : Gap) :
    skipGap (.inBlock promise start) (c :: text) offset gap =
      skipGap (.inBlock promise start) text (offset + c.utf8Size)
        (if Literal.isLineEnd c then { gap with crossesLine := true } else gap) := by
  rw [skipGap]
  exact open_

/-- A blank between tokens or the end of a line is skipped. -/
theorem skipGap_of_blank {c : Char} (blank : Literal.isLineEnd c = true ∨ isInlineBlank c = true) :
    ∃ change : Gap → Gap, ∀ text offset gap,
      skipGap .between (c :: text) offset gap = skipGap .between text (offset + c.utf8Size) (change gap) := by
  have no_comment : c ≠ '/' := by
    rintro rfl
    revert blank
    decide
  by_cases ends : Literal.isLineEnd c = true
  · refine ⟨Gap.endLine, fun text offset gap => ?_⟩
    rw [skipGap_of_ne_slash no_comment, if_pos ends]
  · refine ⟨id, fun text offset gap => ?_⟩
    rw [skipGap_of_ne_slash no_comment, if_neg ends, if_pos (blank.resolve_left ends), id]

/-- A scan stops in front of a token. -/
theorem skipGap_of_begins {c : Char} (begins : Begins c) (rest : List Char) (offset : Nat) (gap : Gap) :
    skipGap .between (c :: rest) offset gap = some (⟨c :: rest, offset⟩, gap) := by
  rw [skipGap_of_ne_slash begins.no_comment, begins.in_line, begins.no_blank]
  rfl

/-! ### Texts that are skipped -/

theorem skips_nil : Skips .between [] :=
  fun _ _ _ rest offset gap begins => ⟨gap, skipGap_of_begins begins rest offset gap⟩

theorem skips_blank {c : Char} {text : List Char} (blank : Literal.isLineEnd c = true ∨ isInlineBlank c = true)
    (skips : Skips .between text) : Skips .between (c :: text) := by
  obtain ⟨change, step⟩ := skipGap_of_blank blank
  intro promise start first rest offset gap begins
  obtain ⟨gap', skipped⟩ := skips promise start first rest (offset + c.utf8Size) (change gap) begins
  refine ⟨gap', ?_⟩
  rw [GapPlace.inComment, List.cons_append, step, byteLength, ← Nat.add_assoc]
  exact skipped

theorem byteLength_comment {a b : Char} (small : a.utf8Size = 1 ∧ b.utf8Size = 1) (text : List Char) (offset : Nat) :
    offset + byteLength (a :: b :: text) = offset + 2 + byteLength text := by
  rw [byteLength, byteLength, small.1, small.2]
  omega

theorem skips_lineComment {text : List Char} {promise : Option Promise} {start : Nat}
    (skips : Skips (.inLine promise start) text) :
    Skips .between ('/' :: '/' :: text) := by
  intro _ _ first rest offset gap begins
  obtain ⟨gap', skipped⟩ :=
    skips (promise? (lineText (text ++ first :: rest))) offset first rest (offset + 2) gap begins
  refine ⟨gap', ?_⟩
  rw [byteLength_comment ⟨rfl, rfl⟩]
  exact skipped

theorem skips_blockComment {text : List Char} {promise : Option Promise} {start : Nat}
    (skips : Skips (.inBlock promise start) text) :
    Skips .between ('/' :: '*' :: text) := by
  intro _ _ first rest offset gap begins
  obtain ⟨gap', skipped⟩ := skips (promise? (text ++ first :: rest)) offset first rest (offset + 2) gap begins
  refine ⟨gap', ?_⟩
  rw [byteLength_comment ⟨rfl, rfl⟩]
  exact skipped

theorem skips_inLine {c : Char} {text : List Char} {promise : Option Promise} {start : Nat}
    (skips : Skips (if Literal.isLineEnd c then .between else .inLine promise start) text) :
    Skips (.inLine promise start) (c :: text) := by
  intro promise' start' first rest offset gap begins
  by_cases ends : Literal.isLineEnd c = true
  · rw [if_pos ends] at skips
    obtain ⟨gap', skipped⟩ := skips promise' start' first rest (offset + c.utf8Size)
      (gap.addLineComment promise' start' offset).endLine begins
    refine ⟨gap', ?_⟩
    rw [GapPlace.inComment, List.cons_append, skipGap_inLine_cons, if_pos ends, byteLength, ← Nat.add_assoc]
    exact skipped
  · rw [if_neg ends] at skips
    obtain ⟨gap', skipped⟩ := skips promise' start' first rest (offset + c.utf8Size) gap begins
    refine ⟨gap', ?_⟩
    rw [GapPlace.inComment, List.cons_append, skipGap_inLine_cons, if_neg ends, byteLength, ← Nat.add_assoc]
    exact skipped

theorem skips_closing {text : List Char} {promise : Option Promise} {start : Nat} (skips : Skips .between text) :
    Skips (.inBlock promise start) ('*' :: '/' :: text) := by
  intro promise' start' first rest offset gap begins
  obtain ⟨gap', skipped⟩ := skips promise' start' first rest (offset + 2)
    (gap.addBlockComment promise' start' (offset + 2)) begins
  refine ⟨gap', ?_⟩
  rw [byteLength_comment ⟨rfl, rfl⟩]
  exact skipped

theorem skips_inBlock {c : Char} {text : List Char} {promise : Option Promise} {start : Nat}
    (open_ : ∀ others, c = '*' → text = '/' :: others → False) (skips : Skips (.inBlock promise start) text) :
    Skips (.inBlock promise start) (c :: text) := by
  intro promise' start' first rest offset gap begins
  obtain ⟨gap', skipped⟩ := skips promise' start' first rest (offset + c.utf8Size)
    (if Literal.isLineEnd c then { gap with crossesLine := true } else gap) begins
  have still_open : ∀ others, c = '*' → text ++ first :: rest = '/' :: others → False := by
    intro others star slash
    cases text with
    | nil => exact begins.no_comment (List.cons.inj slash).1
    | cons c' text => exact open_ text star (by rw [(List.cons.inj slash).1])
  refine ⟨gap', ?_⟩
  rw [GapPlace.inComment, List.cons_append, skipGap_inBlock_cons still_open, byteLength, ← Nat.add_assoc]
  exact skipped

/-- A scan between tokens stops where no line ends and no blank stands. What it skipped in front of a token is
skipped in front of any token. -/
theorem exists_skips_of_skipGap {place : GapPlace} {characters : List Char} {offset : Nat} {gap gap' : Gap}
    {here : Cursor} (skipped : skipGap place characters offset gap = some (here, gap')) :
    ∃ text, Across text ⟨characters, offset⟩ here ∧
      ∀ c ∈ here.rest.head?, (Literal.isLineEnd c = false ∧ isInlineBlank c = false) ∧ Skips place text := by
  fun_induction skipGap place characters offset gap with
  | case1 others offset gap ih =>
      obtain ⟨text, across, stops⟩ := ih skipped
      exact ⟨['/', '/'] ++ text, across.append, fun c head => (stops c head).imp_right skips_lineComment⟩
  | case2 others offset gap ih =>
      obtain ⟨text, across, stops⟩ := ih skipped
      exact ⟨['/', '*'] ++ text, across.append, fun c head => (stops c head).imp_right skips_blockComment⟩
  | case3 c others offset gap _ _ ends ih =>
      obtain ⟨text, across, stops⟩ := ih skipped
      exact ⟨c :: text, across.cons, fun c head => (stops c head).imp_right (skips_blank (.inl ends))⟩
  | case4 c others offset gap _ _ _ blank ih =>
      obtain ⟨text, across, stops⟩ := ih skipped
      exact ⟨c :: text, across.cons, fun c head => (stops c head).imp_right (skips_blank (.inr blank))⟩
  | case5 c others offset gap _ _ in_line no_blank =>
      cases skipped
      refine ⟨[], ⟨rfl, rfl⟩, fun first head => ?_⟩
      obtain rfl : c = first := by simpa using head
      exact ⟨⟨by simpa using in_line, by simpa using no_blank⟩, skips_nil⟩
  | case6 | case9 =>
      cases skipped
      exact ⟨[], ⟨rfl, rfl⟩, by simp⟩
  | case7 promise start c others offset gap ends ih =>
      obtain ⟨text, across, stops⟩ := ih skipped
      refine ⟨c :: text, across.cons, fun first head => (stops first head).imp_right fun skips => ?_⟩
      exact skips_inLine (by rwa [if_pos ends])
  | case8 promise start c others offset gap goes_on ih =>
      obtain ⟨text, across, stops⟩ := ih skipped
      refine ⟨c :: text, across.cons, fun first head => (stops first head).imp_right fun skips => ?_⟩
      exact skips_inLine (by rwa [if_neg goes_on])
  | case10 promise start others offset gap ih =>
      obtain ⟨text, across, stops⟩ := ih skipped
      exact ⟨['*', '/'] ++ text, across.append, fun c head => (stops c head).imp_right skips_closing⟩
  | case11 promise start c others offset gap open_ ih =>
      obtain ⟨text, across, stops⟩ := ih skipped
      refine ⟨c :: text, across.cons, fun first head => (stops first head).imp_right (skips_inBlock ?_)⟩
      intro behind star slash
      have others_eq : others = text ++ here.rest := across.1
      exact open_ (behind ++ here.rest) star (by rw [others_eq, slash, List.cons_append])
  | case12 => cases skipped

/-! ## What the lexer reads -/

/-- A token is read behind a gap, and covers what it is read from. -/
theorem steps_of_next? {previous : Option TokenKind} {cursor here after : Cursor} {token : Token}
    (read : next? previous cursor = some (token, here, after)) :
    (∃ before gap, skipGap .between cursor.rest cursor.offset before = some (here, gap)) ∧
      bare? here = some (token.kind, after) ∧ token.span = ⟨here.offset, after.offset⟩ := by
  obtain ⟨⟨here', gap⟩, skipped, read⟩ := Option.bind_eq_some_iff.mp read
  dsimp only at read
  split_ifs at read
  obtain ⟨⟨kind, after'⟩, bare, same⟩ := Option.bind_eq_some_iff.mp read
  cases same
  exact ⟨⟨_, gap, skipped⟩, bare, rfl⟩

/-- A token that was read covers its characters, with a gap before them. -/
theorem exists_token_of_next? {previous : Option TokenKind} {cursor here after : Cursor} {token : Token}
    (read : next? previous cursor = some (token, here, after)) (plain : IsPlain token.kind) :
    ∃ gap text, Across gap cursor here ∧ Across text here after ∧ Skips .between gap ∧ IsToken token.kind text ∧
      EndsBefore token.kind after.rest := by
  obtain ⟨⟨_, _, skipped⟩, bare, -⟩ := steps_of_next? read
  obtain ⟨gap_text, before, stops⟩ := exists_skips_of_skipGap skipped
  obtain ⟨text, across, whole, ends⟩ := exists_token_of_bare? bare plain fun c head => (stops c head).1
  obtain ⟨c, others, text_eq, -⟩ := whole.1
  have head : here.rest.head? = some c := by
    rw [across.1, text_eq]
    rfl
  exact ⟨gap_text, text, before, across, (stops c head).2, whole, ends⟩

/-- A token is read where its characters stand behind a gap. -/
theorem next?_of_isToken {gap text rest : List Char} {kind : TokenKind} (skips : Skips .between gap)
    (token : IsToken kind text) (ends : EndsBefore kind rest) (previous : Option TokenKind) (offset : Nat) :
    ∃ found here after, next? previous ⟨gap ++ (text ++ rest), offset⟩ = some (found, here, after) ∧ found.kind = kind ∧
      after.rest = rest := by
  obtain ⟨⟨c, others, rfl, begins⟩, read⟩ := token
  obtain ⟨seen, skipped⟩ := skips none 0 c (others ++ rest) offset {
    sawLineEnd := previous.isNone
    atLineStart := previous.isNone
    crossesLine := previous.isNone
    keepsLineComment := (previous.map keepsLineComment).getD false } begins
  have no_markup : ∀ place, Cursor.startsWith ⟨c :: (others ++ rest), place⟩ "<!--" = false ∧
      Cursor.startsWith ⟨c :: (others ++ rest), place⟩ "-->" = false := by
    simp [Cursor.startsWith, List.isPrefixOf, Ne.symm begins.no_markup.1, Ne.symm begins.no_markup.2]
  rw [next?, List.cons_append]
  rw [GapPlace.inComment] at skipped
  dsimp only
  rw [skipped]
  simp only [Option.bind_eq_bind, Option.bind_some, (no_markup _).1, (no_markup _).2, Bool.and_false, Bool.or_false,
    Bool.false_eq_true, if_false]
  rw [← List.cons_append, read rest _ ends]
  exact ⟨_, _, _, rfl, rfl, rfl⟩

end Lexer

end Storyboard
