import Mathlib.Tactic.MkIffOfInductiveProp
import Storyboard.Cache
import Storyboard.Proofs.JsonReading

/-!
# Entries of the cache

An entry is read from its text as it was written, or not at all when one of its numbers is too long. The
message whose digest marks an entry is made of the source, the flag and the options, and no two choices of
these make the same message: the text of options holds no zero byte, so the last zero of a message ends the
flag.
-/

namespace Storyboard

/-! ## Reading entries back -/

theorem Json.natBelow?_reread {bound : Nat} (small : bound ≤ Nat.pow 2 64) (n levels : Nat) :
    natBelow? bound (reread (levels + 1) (.ofNat n)) = if n < bound then some n else none := by
  rw [ofNat, reread, rereadWhole, numberOf]
  simp only [show ¬(n : Int) < 0 by omega, decide_false, Int.natAbs_natCast, Bool.false_eq_true,
    if_false, isWhole, decide_eq_true_eq]
  split_ifs with whole below below
  · simp [natBelow?, below]
  · simp [natBelow?, below]
  · omega
  · rfl

theorem Severity.ofJson?_name (severity : Severity) :
    Severity.ofJson? (.string severity.name) = some severity := by
  cases severity <;> rfl

/-- The line and the column of a finding are numbers of 32 bits. -/
@[mk_iff]
structure Diagnostic.Fits (finding : Diagnostic) : Prop where
  line : finding.line < Nat.pow 2 32
  column : finding.column < Nat.pow 2 32

/-- The findings of an extraction fit, and their number is one of 64 bits. -/
@[mk_iff]
structure Extraction.Fits (extraction : Extraction) : Prop where
  diagnostics : ∀ finding ∈ extraction.diagnostics, finding.Fits
  placeholders : extraction.placeholders < Nat.pow 2 64

theorem Diagnostic.ofJson?_reread_eq_some_iff {finding found : Diagnostic} {levels : Nat} :
    Diagnostic.ofJson? (Json.reread (levels + 2) finding.toJson) = some found ↔
      found = finding ∧ finding.Fits := by
  have small : Nat.pow 2 32 ≤ Nat.pow 2 64 := by decide
  obtain ⟨severity, message, file, line, column, frame⟩ := finding
  simp [Diagnostic.ofJson?, Diagnostic.toJson, Json.reread, fullEntries?, recordEntries?,
    Diagnostic.entryNames, Severity.ofJson?_name, Json.asString?, Option.bind_eq_some_iff,
    Json.natBelow?_reread small, Diagnostic.fits_iff]
  constructor
  · rintro ⟨line_fits, column_fits, rfl⟩
    exact ⟨rfl, line_fits, column_fits⟩
  · rintro ⟨rfl, line_fits, column_fits⟩
    exact ⟨line_fits, column_fits, rfl⟩

theorem Diagnostic.mapM_ofJson?_reread_eq_some_iff {levels : Nat} {findings found : List Diagnostic} :
    findings.mapM (Diagnostic.ofJson? ∘ Json.reread (levels + 2) ∘ Diagnostic.toJson) = some found ↔
      found = findings ∧ ∀ finding ∈ findings, finding.Fits := by
  induction findings generalizing found with
  | nil => simp [eq_comm]
  | cons finding rest ih =>
      simp only [List.mapM_cons, Option.bind_eq_bind, Option.bind_eq_some_iff, Option.pure_def,
        Option.some.injEq, Function.comp_apply, Diagnostic.ofJson?_reread_eq_some_iff, ih,
        List.forall_mem_cons]
      constructor
      · rintro ⟨first, ⟨rfl, first_fits⟩, others, ⟨rfl, fit⟩, rfl⟩
        exact ⟨rfl, first_fits, fit⟩
      · rintro ⟨rfl, first_fits, fit⟩
        exact ⟨finding, ⟨rfl, first_fits⟩, rest, ⟨rfl, fit⟩, rfl⟩

theorem optionalText?_reread (levels : Nat) (text : Option String) :
    optionalText? (some (Json.reread (levels + 1) (.ofOption (text.map .string)))) = some text := by
  cases text <;> rfl

theorem Extraction.ofJson?_reread_eq_some_iff {extraction found : Extraction} (levels : Nat) :
    Extraction.ofJson? (Json.reread (levels + 4) extraction.toJson) = some found ↔
      found = extraction ∧ extraction.Fits := by
  obtain ⟨code, diagnostics, placeholders⟩ := extraction
  simp [Extraction.ofJson?, Extraction.toJson, Json.reread, fullEntries?, recordEntries?,
    Extraction.entryNames, Extraction.diagnostics?, Option.bind_eq_some_iff, optionalText?_reread,
    Diagnostic.mapM_ofJson?_reread_eq_some_iff, Json.natBelow?_reread le_rfl, Extraction.fits_iff]
  constructor
  · rintro ⟨findings_fit, count_fits, rfl⟩
    exact ⟨rfl, findings_fit, count_fits⟩
  · rintro ⟨rfl, findings_fit, count_fits⟩
    exact ⟨findings_fit, count_fits, rfl⟩

namespace CacheEntry

theorem isReadable_toJson (entry : CacheEntry) (levels : Nat) : (entry.toJson).IsReadable (levels + 6) := by
  obtain ⟨hash, code, diagnostics, placeholders⟩ := entry
  have code_readable : (Json.ofOption (code.map .string)).IsReadable (levels + 4) := by
    cases code <;> simp [Json.ofOption, Json.IsReadable]
  simpa [toJson, Extraction.toJson, Diagnostic.toJson, Json.IsReadable, Json.ofNat] using code_readable

/-- The text of an entry is read as that entry if its numbers fit, and not at all otherwise. -/
theorem parse?_render_eq_some_iff {entry found : CacheEntry} :
    parse? entry.toJson.render = some found ↔ found = entry ∧ entry.extraction.Fits := by
  rw [parse?, Json.readRaw?_render (entry.isReadable_toJson 122), Option.bind_some]
  obtain ⟨hash, extraction⟩ := entry
  simp [ofJson?, toJson, Json.depthLimit, Json.reread, fullEntries?, recordEntries?, Json.asString?,
    Option.bind_eq_some_iff]
  constructor
  · rintro ⟨read, extraction_read, rfl⟩
    obtain ⟨rfl, fits⟩ := (Extraction.ofJson?_reread_eq_some_iff 123).mp extraction_read
    exact ⟨rfl, fits⟩
  · rintro ⟨rfl, fits⟩
    exact ⟨extraction, (Extraction.ofJson?_reread_eq_some_iff 123).mpr ⟨rfl, fits⟩, rfl⟩

end CacheEntry

/-! ## What an entry is marked with -/

/-- Two lists that end after their last mark in the same way are the same up to there. -/
theorem append_cons_inj_of_notMem {α : Type} {mark : α} {first second firstEnd secondEnd : List α}
    (equal : first ++ mark :: firstEnd = second ++ mark :: secondEnd) (no_first : mark ∉ firstEnd)
    (no_second : mark ∉ secondEnd) : first = second ∧ firstEnd = secondEnd := by
  rcases List.append_eq_append_iff.mp equal with ⟨more, rfl, rest⟩ | ⟨more, rfl, rest⟩
  · cases more with
    | nil => simpa using rest
    | cons c more =>
        rw [List.cons_append, List.cons.injEq] at rest
        exact absurd (by simp [rest.2]) no_first
  · cases more with
    | nil => simpa using rest.symm
    | cons c more =>
        rw [List.cons_append, List.cons.injEq] at rest
        exact absurd (by simp [rest.2]) no_second

namespace Cache

theorem bytes_injective : Function.Injective bytes := by
  intro first second equal
  apply String.toByteArray_inj.mp
  apply ByteArray.ext
  exact Array.toList_inj.mp equal

theorem bytes_eq_flatMap (text : String) : bytes text = text.toList.flatMap String.utf8EncodeChar := by
  have encoded : text.toByteArray = text.toList.utf8Encode := by
    rw [← String.toByteArray_ofList, String.ofList_toList]
  simp [bytes, String.toUTF8, encoded, List.utf8Encode]

/-- Only the character zero has a zero byte. -/
theorem zero_notMem_utf8EncodeChar {c : Char} (printed : 32 ≤ c.toNat) : 0 ∉ String.utf8EncodeChar c := by
  intro member
  have printed : 32 ≤ c.val.toNat := printed
  obtain ⟨n, zero, positive, small⟩ : ∃ n, 0 = UInt8.ofNat n ∧ 0 < n ∧ n < 256 := by
    unfold String.utf8EncodeChar at member
    dsimp only at member
    split_ifs at member <;> simp only [List.mem_cons, List.not_mem_nil, or_false] at member
    · exact ⟨_, member, by omega, by omega⟩
    · rcases member with zero | zero <;> exact ⟨_, zero, by omega, by omega⟩
    · rcases member with zero | zero | zero <;> exact ⟨_, zero, by omega, by omega⟩
    · rcases member with zero | zero | zero | zero <;> exact ⟨_, zero, by omega, by omega⟩
  have values := congrArg UInt8.toNat zero
  rw [UInt8.toNat_ofNat', Nat.mod_eq_of_lt small] at values
  simp at values
  omega

theorem zero_notMem_bytes {text : String} (printed : ∀ c ∈ text.toList, 32 ≤ c.toNat) : 0 ∉ bytes text := by
  rw [bytes_eq_flatMap]
  intro member
  obtain ⟨c, c_mem, zero⟩ := List.mem_flatMap.mp member
  exact zero_notMem_utf8EncodeChar (printed c c_mem) zero

end Cache

namespace Json

/-- No character of a quoted text is a control character. -/
theorem printed_quote (text : String) : ∀ c ∈ (quote text).toList, 32 ≤ c.toNat := by
  have digit : ∀ n, 32 ≤ (hexDigit n).toNat := by
    intro n
    have small : n % 16 < 16 := by omega
    unfold hexDigit
    interval_cases n % 16 <;> decide
  have escaped : ∀ c, ∀ d ∈ escapeChar c, 32 ≤ d.toNat := by
    intro c d member
    unfold escapeChar at member
    split_ifs at member with quote backslash newline carriage tab backspace formFeed control
    all_goals simp only [List.mem_cons, List.not_mem_nil, or_false] at member
    iterate 7
      · rcases member with rfl | rfl <;> decide
    · rcases member with rfl | rfl | rfl | rfl | rfl | rfl
      · decide
      · decide
      · decide
      · decide
      · exact digit _
      · exact digit _
    · rw [member]
      omega
  intro c member
  rw [toList_quote] at member
  simp only [List.mem_cons, List.mem_append, List.mem_flatMap, List.not_mem_nil, or_false] at member
  rcases member with rfl | ⟨d, -, inside⟩ | rfl
  · decide
  · exact escaped d c inside
  · decide

theorem mem_intercalate {c separator : Char} {texts : List (List Char)}
    (member : c ∈ [separator].intercalate texts) : c = separator ∨ ∃ text ∈ texts, c ∈ text := by
  induction texts with
  | nil => simp at member
  | cons first others ih =>
      cases others with
      | nil => exact .inr ⟨first, List.mem_cons_self, by simpa using member⟩
      | cons second others =>
          rw [List.intercalate_cons_cons, List.mem_append, List.mem_append, List.mem_singleton] at member
          rcases member with (inFirst | same) | later
          · exact .inr ⟨first, List.mem_cons_self, inFirst⟩
          · exact .inl same
          · exact (ih later).imp id fun ⟨text, text_mem, inside⟩ =>
              ⟨text, List.mem_cons_of_mem _ text_mem, inside⟩

theorem printed_of_all {text : List Char} (checked : (text.all fun c => decide (32 ≤ c.toNat)) = true) :
    ∀ c ∈ text, 32 ≤ c.toNat := by
  simpa using checked

/-- No character of the text of a value is a control character. -/
theorem printed_render {levels : Nat} {value : Json} (readable : IsReadable levels value) :
    ∀ c ∈ (render value).toList, 32 ≤ c.toNat := by
  induction levels generalizing value with
  | zero => exact readable.elim
  | succ levels ih =>
      cases value with
      | null => exact printed_of_all rfl
      | bool value => cases value <;> exact printed_of_all rfl
      | string text => exact printed_quote text
      | number number =>
          cases number with
          | real value => exact readable.elim
          | whole value =>
              intro c member
              have text : (render (.number (.whole value))) = value.repr := rfl
              rw [text, Int.repr_eq_if] at member
              have digit : ∀ n, c ∈ Nat.toDigits 10 n → 32 ≤ c.toNat := by
                intro n inside
                have digit := Nat.isDigit_of_mem_toDigits (by decide) (by decide) inside
                have low : 48 ≤ c.toNat := by
                  simpa [Char.isDigit, UInt32.le_iff_toNat_le] using (Bool.and_eq_true_iff.mp digit).1
                omega
              split_ifs at member
              · rw [Nat.toList_repr] at member
                exact digit _ member
              · rw [String.toList_append, List.mem_append, Nat.toList_repr] at member
                rcases member with sign | inside
                · obtain rfl : c = '-' := by simpa using sign
                  decide
                · exact digit _ inside
      | array items =>
          intro c member
          simp only [toList_render_array, List.mem_cons, List.mem_append, List.not_mem_nil, or_false] at member
          rcases member with rfl | inside | rfl
          · decide
          · rcases mem_intercalate inside with rfl | ⟨text, text_mem, inside⟩
            · decide
            · obtain ⟨item, item_mem, rfl⟩ := List.mem_map.mp text_mem
              exact ih (readable.2 item item_mem) c inside
          · decide
      | object fields =>
          intro c member
          simp only [toList_render_object, List.mem_cons, List.mem_append, List.not_mem_nil, or_false] at member
          rcases member with rfl | inside | rfl
          · decide
          · rcases mem_intercalate inside with rfl | ⟨text, text_mem, inside⟩
            · decide
            · obtain ⟨field, field_mem, rfl⟩ := List.mem_map.mp text_mem
              rw [List.mem_append, List.mem_cons] at inside
              rcases inside with inName | rfl | inValue
              · exact printed_quote field.1 c inName
              · decide
              · exact ih (readable.2 field field_mem) c inValue
          · decide

end Json

namespace Options

theorem isReadable_toJson (options : Options) (levels : Nat) : options.toJson.IsReadable (levels + 3) := by
  cases globals : options.builtinGlobals <;> simp [toJson, globals, Json.IsReadable]

theorem reread_toJson (options : Options) (levels : Nat) :
    Json.reread (levels + 3) options.toJson = options.toJson := by
  cases globals : options.builtinGlobals <;> simp [toJson, globals, Json.reread]

theorem toJson_injective : Function.Injective toJson := by
  intro first second equal
  cases first with | mk a b c d e f g h =>
  cases second with | mk a' b' c' d' e' f' g' h' =>
  cases h <;> cases h' <;>
    simp_all [toJson, List.map_inj_right (fun _ _ => Json.string.inj)]

/-- Options are told apart by their texts. -/
theorem eq_of_render_eq {first second : Options} (equal : first.toJson.render = second.toJson.render) :
    first = second := by
  have first_read := Json.readRaw?_render (first.isReadable_toJson 125)
  have second_read := Json.readRaw?_render (second.isReadable_toJson 125)
  rw [equal, second_read, Option.some.injEq] at first_read
  rw [Json.depthLimit, reread_toJson second 125, reread_toJson first 125] at first_read
  exact toJson_injective first_read.symm

end Options

/-- The message whose digest marks an entry determines the source, the flag and the options. -/
theorem Cache.inputs_inj {first second : Cache} {firstSource secondSource : String}
    {firstCss secondCss : Bool} (equal : first.inputs firstSource firstCss = second.inputs secondSource secondCss) :
    firstSource = secondSource ∧ firstCss = secondCss ∧ first.options = second.options := by
  have no_zero : ∀ cache : Cache, 0 ∉ bytes cache.options.toJson.render := fun cache =>
    zero_notMem_bytes (Json.printed_render (cache.options.isReadable_toJson 0))
  have shape : ∀ (cache : Cache) (source : String) (css : Bool), cache.inputs source css =
      (bytes source ++ [0, if css then 1 else 0]) ++ 0 :: bytes cache.options.toJson.render := by
    simp [inputs]
  rw [shape, shape] at equal
  obtain ⟨front, options⟩ := append_cons_inj_of_notMem equal (no_zero first) (no_zero second)
  obtain ⟨sources, flags⟩ := List.append_inj' front rfl
  refine ⟨bytes_injective sources, ?_, Options.eq_of_render_eq (bytes_injective options)⟩
  cases firstCss <;> cases secondCss <;> simp at flags ⊢

end Storyboard
