import Mathlib.Data.List.TakeDrop
import Mathlib.Tactic.IntervalCases
import Storyboard.Json.Reader

/-!
# Reading what was written

The text of a JSON value is read back as that value, as long as it does not nest too deep. Numbers are the
exception: a whole number that is too long for 64 bits comes back as a double, and about doubles nothing is
said here.
-/

namespace Storyboard

namespace Json

/-! ## Quoted texts -/

theorem hexValue?_hexDigit : ∀ n < 16, hexValue? (hexDigit n) = some n := by decide

/-- The escape of a control character is read as its number. -/
theorem readHex4_escape (n : Nat) (control : n < 32) (rest : List Char) :
    readHex4 ('0' :: '0' :: hexDigit (n / 16) :: hexDigit n :: rest) = some (n, rest) := by
  have low : hexDigit n = hexDigit (n % 16) := by simp [hexDigit]
  rw [low]
  simp only [readHex4, hexValue?_hexDigit _ (show n / 16 < 16 by omega),
    hexValue?_hexDigit _ (show n % 16 < 16 by omega)]
  have zero : hexValue? '0' = some 0 := by decide
  have value : n / 16 * 16 + n % 16 = n := by omega
  simp [zero, value]

/-- One written character is read as itself. -/
theorem readChars_escapeChar (fuel : Nat) (c : Char) (rest read : List Char) :
    readChars (fuel + 1) (escapeChar c ++ rest) read = readChars fuel rest (c :: read) := by
  unfold escapeChar
  split_ifs with quote backslash newline carriage tab backspace formFeed control
  all_goals simp only [beq_iff_eq] at *
  · subst quote
    rfl
  · subst backslash
    rfl
  · subst newline
    rfl
  · subst carriage
    rfl
  · subst tab
    rfl
  · have equal : c = Char.ofNat 8 := by rw [← backspace, Char.ofNat_toNat]
    subst equal
    rfl
  · have equal : c = Char.ofNat 12 := by rw [← formFeed, Char.ofNat_toNat]
    subst equal
    rfl
  · have escaped : readUnicodeEscape ('0' :: '0' :: hexDigit (c.toNat / 16) :: hexDigit c.toNat :: rest) =
        some (c, rest) := by
      rw [readUnicodeEscape, readHex4_escape c.toNat control rest]
      have low : ¬(0xDC00 ≤ c.toNat ∧ c.toNat ≤ 0xDFFF) := by omega
      have high : ¬(0xD800 ≤ c.toNat ∧ c.toNat ≤ 0xDBFF) := by omega
      simp [low, high, Char.ofNat_toNat]
    rw [List.cons_append, List.cons_append, readChars]
    simp [escaped]
  · simp [readChars, quote, backslash, control]

theorem length_le_length_escape (text : List Char) : text.length ≤ (text.flatMap escapeChar).length := by
  induction text with
  | nil => simp
  | cons c rest ih =>
      have some_char : 0 < (escapeChar c).length := by
        unfold escapeChar
        split_ifs <;> simp
      simp only [List.flatMap_cons, List.length_append, List.length_cons]
      omega

theorem readChars_escape (text rest read : List Char) (fuel : Nat) (enough : text.length < fuel) :
    readChars fuel (text.flatMap escapeChar ++ '"' :: rest) read =
      some (String.ofList (read.reverse ++ text), rest) := by
  induction text generalizing fuel read with
  | nil =>
      obtain ⟨fuel, rfl⟩ := Nat.exists_eq_add_one_of_ne_zero (Nat.ne_of_gt enough)
      simp [readChars]
  | cons c text ih =>
      obtain ⟨fuel, rfl⟩ := Nat.exists_eq_add_one_of_ne_zero (Nat.ne_of_gt (Nat.zero_lt_of_lt enough))
      rw [List.flatMap_cons, List.append_assoc, readChars_escapeChar, ih]
      · simp
      · simpa using enough

/-- A quoted text is read back after its opening quote. -/
theorem readText_quoteChars (text rest : List Char) :
    readText (text.flatMap escapeChar ++ '"' :: rest) = some (String.ofList text, rest) := by
  have size := length_le_length_escape text
  rw [readText, readChars_escape text rest [] _ (by rw [List.length_append]; omega), List.reverse_nil,
    List.nil_append]

theorem toList_quote (text : String) :
    (quote text).toList = '"' :: (text.toList.flatMap escapeChar ++ ['"']) := by
  rw [quote, String.toList_ofList, quoteChars]

/-! ## Numbers -/

/-- What stands after a value: nothing, or a mark that is part of no value. -/
def IsBoundary (rest : List Char) : Prop :=
  ∀ c ∈ rest.head?, c = ',' ∨ c = ']' ∨ c = '\x7d'

theorem addDigits_eq_ofDigitChars (digits : List Char) (n : Nat) :
    addDigits n digits = Nat.ofDigitChars 10 digits n := by
  simp [addDigits, Nat.ofDigitChars, Nat.mul_comm]

theorem head?_toDigits_ne_zero {n : Nat} (positive : 0 < n) : (Nat.toDigits 10 n).head? ≠ some '0' := by
  induction n using Nat.strongRecOn with
  | ind n ih =>
      rw [Nat.toDigits_eq_if (by decide)]
      split_ifs with small
      · interval_cases n <;> decide
      · obtain ⟨c, others, digits⟩ := List.exists_cons_of_ne_nil (Nat.toDigits_ne_nil (n := n / 10) (b := 10))
        have first := ih (n / 10) (by omega) (by omega)
        simpa [digits] using first

theorem span_toDigits (n : Nat) {rest : List Char} (boundary : IsBoundary rest) :
    (Nat.toDigits 10 n ++ rest).span Char.isDigit = (Nat.toDigits 10 n, rest) := by
  have digits : ∀ c ∈ Nat.toDigits 10 n, c.isDigit = true :=
    fun c member => Nat.isDigit_of_mem_toDigits (by decide) (by decide) member
  have stops : rest.takeWhile Char.isDigit = [] ∧ rest.dropWhile Char.isDigit = rest := by
    cases rest with
    | nil => simp
    | cons c tail =>
        rcases boundary c rfl with rfl | rfl | rfl <;> exact ⟨rfl, rfl⟩
  rw [List.span_eq_takeWhile_dropWhile, List.takeWhile_append_of_pos digits,
    List.dropWhile_append_of_pos digits, stops.1, stops.2, List.append_nil]

/-- The number that is read from digits. -/
def numberOf (negative : Bool) (n : Nat) : Number :=
  if isWhole negative n then .whole (if negative then -(n : Int) else n)
  else .real (realOfParts negative (Nat.toDigits 10 n) [] 0)

theorem readMagnitude_toDigits (negative : Bool) (n : Nat) {rest : List Char} (boundary : IsBoundary rest) :
    readMagnitude negative (Nat.toDigits 10 n ++ rest) = some (numberOf negative n, rest) := by
  have no_zero : ((Nat.toDigits 10 n).isEmpty ||
      (Nat.toDigits 10 n).head? == some '0' && decide ((Nat.toDigits 10 n).length > 1)) = false := by
    rcases Nat.eq_zero_or_pos n with rfl | positive
    · decide
    · simp [head?_toDigits_ne_zero positive]
  have value : addDigits 0 (Nat.toDigits 10 n) = n := by
    rw [addDigits_eq_ofDigitChars, Nat.ofDigitChars_toDigits (by decide) (by decide)]
  rw [readMagnitude, span_toDigits n boundary]
  simp only [no_zero, value]
  cases rest with
  | nil => cases whole : isWhole negative n <;> simp [numberOf, whole]
  | cons c tail =>
      rcases boundary c rfl with rfl | rfl | rfl <;>
        cases whole : isWhole negative n <;> simp [numberOf, whole]

/-- The number that is read from the text of a whole number. -/
def rereadWhole (value : Int) : Number := numberOf (decide (value < 0)) value.natAbs

theorem readNumber_whole (value : Int) {rest : List Char} (boundary : IsBoundary rest) :
    readNumber ((Number.whole value).render.toList ++ rest) = some (rereadWhole value, rest) := by
  have text : (Number.whole value).render = value.repr := rfl
  rw [text, Int.repr_eq_if]
  split_ifs with sign
  · have natural : value.toNat = value.natAbs := by omega
    have start : readNumber (Nat.toDigits 10 value.natAbs ++ rest) =
        readMagnitude false (Nat.toDigits 10 value.natAbs ++ rest) := by
      unfold readNumber
      split
      · rename_i tail equal
        have digit : '-' ∈ Nat.toDigits 10 value.natAbs := by
          cases digits : Nat.toDigits 10 value.natAbs with
          | nil => exact absurd digits Nat.toDigits_ne_nil
          | cons c others =>
              rw [digits, List.cons_append, List.cons.injEq] at equal
              rw [equal.1]
              exact List.mem_cons_self
        have := Nat.isDigit_of_mem_toDigits (by decide) (by decide) digit
        simp at this
      · rfl
    rw [Nat.toList_repr, natural, start, readMagnitude_toDigits false _ boundary, rereadWhole]
    simp [show ¬value < 0 by omega]
  · have natural : (-value).toNat = value.natAbs := by omega
    rw [String.toList_append, Nat.toList_repr, natural]
    have start : readNumber ("-".toList ++ Nat.toDigits 10 value.natAbs ++ rest) =
        readMagnitude true (Nat.toDigits 10 value.natAbs ++ rest) := rfl
    rw [start, readMagnitude_toDigits true _ boundary, rereadWhole]
    simp [show value < 0 by omega]

/-! ## Items and entries -/

theorem skipBlanks_cons {c : Char} (mark : isBlank c = false) (rest : List Char) :
    skipBlanks (c :: rest) = c :: rest := by
  simp [skipBlanks, mark]

theorem intercalate_map {α : Type} (text : α → List Char) (first second : α) (others : List α) :
    [','].intercalate ((first :: second :: others).map text) =
      text first ++ ',' :: [','].intercalate ((second :: others).map text) := by
  simp [List.intercalate_cons_cons]

theorem length_le_length_intercalate {α : Type} (text : α → List Char) (items : List α) :
    items.length ≤ ([','].intercalate (items.map text)).length + 1 := by
  induction items with
  | nil => simp
  | cons first others ih =>
      cases others with
      | nil => simp
      | cons second others =>
          rw [intercalate_map]
          simp only [List.length_append, List.length_cons] at ih ⊢
          omega

/-- Items that are read one by one are read together. -/
theorem readItems_intercalate (item : List Char → Option (Json × List Char))
    (items : List (List Char × Json)) (some_item : items ≠ []) (fuel : Nat) (enough : items.length ≤ fuel)
    (each : ∀ entry ∈ items, ∀ rest, IsBoundary rest → item (entry.1 ++ rest) = some (entry.2, rest))
    (read : List Json) (rest : List Char) :
    readItems item fuel ([','].intercalate (items.map Prod.fst) ++ ']' :: rest) read =
      some (read.reverse ++ items.map Prod.snd, rest) := by
  induction items generalizing fuel read with
  | nil => exact absurd rfl some_item
  | cons first others ih =>
      obtain ⟨fuel, rfl⟩ := Nat.exists_eq_add_one_of_ne_zero (Nat.ne_of_gt (Nat.zero_lt_of_lt enough))
      have first_read := each first List.mem_cons_self
      cases others with
      | nil =>
          have closed := first_read (']' :: rest) (by simp [IsBoundary])
          simp [readItems, closed, skipBlanks_cons (show isBlank ']' = false by decide)]
      | cons second others =>
          have separated := first_read
            (',' :: ([','].intercalate ((second :: others).map Prod.fst) ++ ']' :: rest))
            (by simp [IsBoundary])
          have later := ih (by simp) fuel (by simpa using enough)
            (fun entry member => each entry (List.mem_cons_of_mem _ member)) (first.2 :: read)
          rw [intercalate_map, List.append_assoc, List.cons_append, readItems, separated]
          simp only [Option.bind_eq_bind, Option.bind_some,
            skipBlanks_cons (show isBlank ',' = false by decide), later]
          simp

/-- What is read after an entry: more entries, or the end of the object. -/
def readAfterEntry (item : List Char → Option (Json × List Char)) (fuel : Nat)
    (read : List (String × Json)) (text : List Char) : Option (List (String × Json) × List Char) :=
  match skipBlanks text with
  | ',' :: rest => readEntries item fuel rest read
  | '\x7d' :: rest => some (read.reverse, rest)
  | _ => none

/-- A name and its value are read, and then what follows a value. -/
theorem readEntries_entry {item : List Char → Option (Json × List Char)} (name : String)
    {text tail : List Char} {value : Json} (value_read : item (text ++ tail) = some (value, tail))
    (fuel : Nat) (read : List (String × Json)) :
    readEntries item (fuel + 1) ((quote name).toList ++ ':' :: text ++ tail) read =
      readAfterEntry item fuel ((name, value) :: read) tail := by
  have named := readText_quoteChars name.toList (':' :: (text ++ tail))
  rw [toList_quote]
  simp only [List.cons_append, List.append_assoc, List.nil_append]
  rw [readEntries, skipBlanks_cons (by decide)]
  simp only [named, Option.bind_eq_bind, Option.bind_some,
    skipBlanks_cons (show isBlank ':' = false by decide), value_read, String.ofList_toList]
  rfl

/-- Entries that are read one by one are read together. -/
theorem readEntries_intercalate (item : List Char → Option (Json × List Char))
    (entries : List (String × List Char × Json)) (some_entry : entries ≠ []) (fuel : Nat)
    (enough : entries.length ≤ fuel)
    (each : ∀ entry ∈ entries, ∀ rest, IsBoundary rest →
      item (entry.2.1 ++ rest) = some (entry.2.2, rest))
    (read : List (String × Json)) (rest : List Char) :
    readEntries item fuel
        ([','].intercalate (entries.map fun entry => (quote entry.1).toList ++ ':' :: entry.2.1) ++
          '\x7d' :: rest) read =
      some (read.reverse ++ entries.map fun entry => (entry.1, entry.2.2), rest) := by
  induction entries generalizing fuel read with
  | nil => exact absurd rfl some_entry
  | cons first others ih =>
      obtain ⟨fuel, rfl⟩ := Nat.exists_eq_add_one_of_ne_zero (Nat.ne_of_gt (Nat.zero_lt_of_lt enough))
      cases others with
      | nil =>
          have closed := readEntries_entry first.1
            (each first List.mem_cons_self ('\x7d' :: rest) (by simp [IsBoundary])) fuel read
          simpa [readAfterEntry, skipBlanks_cons (show isBlank '\x7d' = false by decide)] using closed
      | cons second others =>
          have later := ih (by simp) fuel (by simpa using enough)
            (fun entry member => each entry (List.mem_cons_of_mem _ member)) ((first.1, first.2.2) :: read)
          have separated := readEntries_entry first.1
            (each first List.mem_cons_self (',' :: ([','].intercalate ((second :: others).map fun entry =>
              (quote entry.1).toList ++ ':' :: entry.2.1) ++ '\x7d' :: rest)) (by simp [IsBoundary])) fuel read
          rw [intercalate_map, List.append_assoc, List.cons_append, separated, readAfterEntry,
            skipBlanks_cons (by decide)]
          simp only [later]
          simp

/-! ## Values -/

/-- A value nests in fewer levels than given and has no doubles in it. -/
def IsReadable : Nat → Json → Prop
  | 0, _ => False
  | levels + 1, .array items => levels ≠ 0 ∧ ∀ item ∈ items, IsReadable levels item
  | levels + 1, .object fields => levels ≠ 0 ∧ ∀ field ∈ fields, IsReadable levels field.2
  | _ + 1, .number (.real _) => False
  | _ + 1, _ => True

/-- The value that is read from the text of a value. -/
def reread : Nat → Json → Json
  | levels + 1, .array items => .array (items.map (reread levels))
  | levels + 1, .object fields => .object (fields.map fun field => (field.1, reread levels field.2))
  | _ + 1, .number (.whole value) => .number (rereadWhole value)
  | _, value => value

theorem renderItems_eq_map (items : List Json) : renderItems items = items.map render := by
  induction items with
  | nil => rfl
  | cons item rest ih => exact congrArg (render item :: ·) ih

theorem renderFields_eq_map (fields : List (String × Json)) :
    renderFields fields = fields.map fun field => quote field.1 ++ ":" ++ render field.2 := by
  induction fields with
  | nil => rfl
  | cons field rest ih => exact congrArg ((quote field.1 ++ ":" ++ render field.2) :: ·) ih

theorem render_array (items : List Json) : render (.array items) = bracketed "[" "]" (items.map render) :=
  congrArg (bracketed "[" "]") (renderItems_eq_map items)

theorem render_object (fields : List (String × Json)) :
    render (.object fields) = bracketed "\x7b" "\x7d" (fields.map fun field => quote field.1 ++ ":" ++ render field.2) :=
  congrArg (bracketed "\x7b" "\x7d") (renderFields_eq_map fields)

theorem toList_render_string (text : String) :
    (render (.string text)).toList = '"' :: (text.toList.flatMap escapeChar ++ ['"']) :=
  toList_quote text

theorem toList_render_array (items : List Json) :
    (render (.array items)).toList =
      '[' :: ([','].intercalate (items.map fun item => (render item).toList) ++ [']']) := by
  simp [render_array, bracketed, String.toList_intercalate, Function.comp_def]

theorem toList_render_object (fields : List (String × Json)) :
    (render (.object fields)).toList = '\x7b' :: ([','].intercalate (fields.map fun field =>
      (quote field.1).toList ++ ':' :: (render field.2).toList) ++ ['\x7d']) := by
  simp [render_object, bracketed, String.toList_intercalate, Function.comp_def]

/-- The text of a whole number begins with a digit or a sign. -/
theorem exists_toList_render_whole (value : Int) :
    ∃ c tail, (Number.whole value).render.toList = c :: tail ∧ (c.isDigit = true ∨ c = '-') := by
  have text : (Number.whole value).render = value.repr := rfl
  rw [text, Int.repr_eq_if]
  split_ifs with sign
  · cases digits : Nat.toDigits 10 value.toNat with
    | nil => exact absurd digits Nat.toDigits_ne_nil
    | cons c tail =>
        refine ⟨c, tail, by rw [Nat.toList_repr, digits], .inl ?_⟩
        exact Nat.isDigit_of_mem_toDigits (b := 10) (n := value.toNat) (by decide) (by decide)
          (by simp [digits])
  · exact ⟨'-', _, by rw [String.toList_append]; rfl, .inr rfl⟩

theorem isBlank_of_number {c : Char} (start : c.isDigit = true ∨ c = '-') : isBlank c = false := by
  by_contra blank
  simp only [isBlank, Bool.not_eq_false, Bool.or_eq_true, beq_iff_eq] at blank
  rcases blank with ((rfl | rfl) | rfl) | rfl <;> simp at start

/-- The text of a value begins with no blank and closes no array. -/
theorem exists_toList_render {levels : Nat} {value : Json} (readable : IsReadable levels value) :
    ∃ c tail, (render value).toList = c :: tail ∧ isBlank c = false ∧ c ≠ ']' := by
  cases levels with
  | zero => exact readable.elim
  | succ levels =>
      cases value with
      | null => exact ⟨'n', _, rfl, by decide, by decide⟩
      | bool value => cases value <;> exact ⟨_, _, rfl, by decide, by decide⟩
      | string text => exact ⟨'"', _, toList_render_string text, by decide, by decide⟩
      | array items => exact ⟨'[', _, toList_render_array items, by decide, by decide⟩
      | object fields => exact ⟨'\x7b', _, toList_render_object fields, by decide, by decide⟩
      | number number =>
          cases number with
          | real value => exact readable.elim
          | whole value =>
              obtain ⟨c, tail, text, start⟩ := exists_toList_render_whole value
              refine ⟨c, tail, text, isBlank_of_number start, ?_⟩
              rintro rfl
              simp at start

theorem readValue_quote (levels : Nat) (rest : List Char) :
    readValue (levels + 1) ('"' :: rest) = (readText rest).map fun (text, rest) => (.string text, rest) := rfl

theorem readValue_bracket {levels : Nat} (deep : levels ≠ 0) (rest : List Char) :
    readValue (levels + 1) ('[' :: rest) =
      match skipBlanks rest with
      | ']' :: rest => some (.array [], rest)
      | _ => (readItems (readValue levels) (rest.length + 1) rest []).map fun (items, rest) => (.array items, rest) := by
  cases levels with
  | zero => exact absurd rfl deep
  | succ levels => rfl

theorem readValue_brace {levels : Nat} (deep : levels ≠ 0) (rest : List Char) :
    readValue (levels + 1) ('\x7b' :: rest) =
      match skipBlanks rest with
      | '\x7d' :: rest => some (.object [], rest)
      | _ =>
        (readEntries (readValue levels) (rest.length + 1) rest []).map fun (entries, rest) =>
          (.object entries, rest) := by
  cases levels with
  | zero => exact absurd rfl deep
  | succ levels => rfl

/-- A text that begins with a digit or a sign is read as a number. -/
theorem readValue_of_number (levels : Nat) {c : Char} (start : c.isDigit = true ∨ c = '-')
    (tail : List Char) :
    readValue (levels + 1) (c :: tail) =
      (readNumber (c :: tail)).map fun (value, rest) => (.number value, rest) := by
  rw [readValue, skipBlanks_cons (isBlank_of_number start)]
  split
  · contradiction
  -- Each of the other marks that begin a value is no digit and no sign.
  iterate 6
    · rename_i equal
      obtain ⟨rfl, -⟩ := List.cons.inj equal
      simp at start
  · rfl

/-- An array is read if its items are. -/
theorem readValue_array {levels : Nat} (deep : levels ≠ 0) {items : List Json}
    (readable : ∀ item ∈ items, IsReadable levels item)
    (each : ∀ item ∈ items, ∀ rest, IsBoundary rest →
      readValue levels ((render item).toList ++ rest) = some (reread levels item, rest))
    (rest : List Char) :
    readValue (levels + 1) ((render (.array items)).toList ++ rest) =
      some (reread (levels + 1) (.array items), rest) := by
  rw [toList_render_array, List.cons_append, List.append_assoc, readValue_bracket deep, List.singleton_append]
  cases items with
  | nil => simp [skipBlanks_cons (show isBlank ']' = false by decide), reread]
  | cons first others =>
      have size := length_le_length_intercalate (fun item => (render item).toList) (first :: others)
      have items_read := readItems_intercalate (readValue levels)
        ((first :: others).map fun item => ((render item).toList, reread levels item)) (by simp)
        (([','].intercalate ((first :: others).map fun item => (render item).toList) ++
          ']' :: rest).length + 1)
        (by rw [List.length_map, List.length_append]; omega) (List.forall_mem_map.mpr each) [] rest
      simp only [List.map_map, Function.comp_def] at items_read
      -- The first item opens the text, so that the array is not taken for an empty one.
      obtain ⟨c, tail, text, mark, no_bracket⟩ := exists_toList_render (readable first List.mem_cons_self)
      obtain ⟨tail, begins⟩ : ∃ tail, [','].intercalate ((first :: others).map fun item =>
          (render item).toList) ++ ']' :: rest = c :: tail := by
        cases others <;> simp [text, List.intercalate_cons_cons]
      have start := skipBlanks_cons mark tail
      rw [← begins] at start
      rw [start]
      split
      · rename_i equal
        rw [begins] at equal
        exact absurd (List.cons.inj equal).1 no_bracket
      · rw [items_read]
        simp [reread]

/-- An object is read if the values of its fields are. -/
theorem readValue_object {levels : Nat} (deep : levels ≠ 0) {fields : List (String × Json)}
    (each : ∀ field ∈ fields, ∀ rest, IsBoundary rest →
      readValue levels ((render field.2).toList ++ rest) = some (reread levels field.2, rest))
    (rest : List Char) :
    readValue (levels + 1) ((render (.object fields)).toList ++ rest) =
      some (reread (levels + 1) (.object fields), rest) := by
  rw [toList_render_object, List.cons_append, List.append_assoc, readValue_brace deep, List.singleton_append]
  cases fields with
  | nil => simp [skipBlanks_cons (show isBlank '\x7d' = false by decide), reread]
  | cons first others =>
      have size := length_le_length_intercalate (fun field : String × Json =>
        (quote field.1).toList ++ ':' :: (render field.2).toList) (first :: others)
      have entries_read := readEntries_intercalate (readValue levels)
        ((first :: others).map fun field => (field.1, (render field.2).toList, reread levels field.2)) (by simp)
        (([','].intercalate ((first :: others).map fun field =>
          (quote field.1).toList ++ ':' :: (render field.2).toList) ++ '\x7d' :: rest).length + 1)
        (by rw [List.length_map, List.length_append]; omega) (List.forall_mem_map.mpr each) [] rest
      simp only [List.map_map, Function.comp_def] at entries_read
      obtain ⟨tail, begins⟩ : ∃ tail, [','].intercalate ((first :: others).map fun field =>
          (quote field.1).toList ++ ':' :: (render field.2).toList) ++ '\x7d' :: rest = '"' :: tail := by
        cases others <;> simp [toList_quote, List.intercalate_cons_cons]
      have start := skipBlanks_cons (show isBlank '"' = false by decide) tail
      rw [← begins] at start
      rw [start]
      split
      · rename_i equal
        rw [begins] at equal
        exact absurd (List.cons.inj equal).1 (by decide)
      · rw [entries_read]
        simp [reread]

/-- The text of a value is read as the value, with its numbers read again. -/
theorem readValue_render {levels : Nat} {value : Json} (readable : IsReadable levels value)
    (rest : List Char) (boundary : IsBoundary rest) :
    readValue levels ((render value).toList ++ rest) = some (reread levels value, rest) := by
  induction levels generalizing value rest with
  | zero => exact readable.elim
  | succ levels ih =>
      cases value with
      | null => rfl
      | bool value => cases value <;> rfl
      | string text =>
          have quoted := readText_quoteChars text.toList rest
          rw [toList_render_string, List.cons_append, List.append_assoc, readValue_quote]
          simp [quoted, reread]
      | number number =>
          cases number with
          | real value => exact readable.elim
          | whole value =>
              obtain ⟨c, tail, text, start⟩ := exists_toList_render_whole value
              have number := readNumber_whole value boundary
              rw [text, List.cons_append] at number
              have same : render (.number (.whole value)) = (Number.whole value).render := rfl
              rw [same, text, List.cons_append, readValue_of_number levels start, number]
              rfl
      | array items =>
          exact readValue_array readable.1 readable.2
            (fun item member rest boundary => ih (readable.2 item member) rest boundary) rest
      | object fields =>
          exact readValue_object readable.1
            (fun field member rest boundary => ih (readable.2 field member) rest boundary) rest

/-- A text that was written from a value is read as the value, with its numbers read again. -/
theorem readRaw?_render {value : Json} (readable : IsReadable depthLimit value) :
    readRaw? (render value) = some (reread depthLimit value) := by
  have read := readValue_render readable [] (by simp [IsBoundary])
  rw [List.append_nil] at read
  simp [readRaw?, read, skipBlanks]

end Json

end Storyboard
