import Storyboard.Proofs.EditRanges

/-!
# The gate for style sheets

Imports of style sheets are looked for only in a module whose text looks like it has one. What the text has to hold
is a clause: blanks, the word `from`, blanks, and the name of a sheet between quotes. The text is not read for this,
so a module may import a style sheet and hold no such clause, and then the sheet is not loaded.
-/

namespace Storyboard

open Extraction

/-! ## Clauses -/

namespace StyleSheetGate

/-- Whether a character is a quote. -/
def isQuote (c : Char) : Bool := c == '"' || c == Char.ofNat 39

/-- A text begins with the name of a style sheet between quotes. No quote stands in the name, and the name is more
than the ending. -/
def BeginsWithName (text : List Char) : Prop :=
  ∃ opening name closing back, text = opening :: (name ++ closing :: back) ∧ isQuote opening = true ∧
    isQuote closing = true ∧ (∀ c ∈ name, isQuote c = false) ∧ ".css".toList <:+ name ∧ 4 < name.length

/-- A text begins with the clause of an import of a style sheet. -/
def BeginsWithClause (text : List Char) : Prop :=
  ∃ blanks gap rest, text = blanks ++ ("from".toList ++ (gap ++ rest)) ∧
    (blanks ≠ [] ∧ ∀ c ∈ blanks, Text.isBlank c = true) ∧ (gap ≠ [] ∧ ∀ c ∈ gap, Text.isBlank c = true) ∧
    BeginsWithName rest

/-- A text holds the clause of an import of a style sheet. -/
def HoldsClause (text : List Char) : Prop := ∃ front clause, text = front ++ clause ∧ BeginsWithClause clause

theorem not_isBlank_of_isQuote {c : Char} (isQuote : isQuote c = true) : Text.isBlank c = false := by
  rcases Bool.or_eq_true_iff.mp isQuote with same | same
  · rw [eq_of_beq same]
    rfl
  · rw [eq_of_beq same]
    rfl

theorem beginsWithQuotedSheet_cons (opening : Char) (rest : List Char) :
    beginsWithQuotedSheet (opening :: rest) =
      (isQuote opening && !(rest.dropWhile fun c => !isQuote c).isEmpty &&
        ".css".toList.isSuffixOf (rest.takeWhile fun c => !isQuote c) &&
          Decidable.decide (4 < (rest.takeWhile fun c => !isQuote c).length)) := rfl

theorem beginsWithQuotedSheet_iff {text : List Char} : beginsWithQuotedSheet text = true ↔ BeginsWithName text := by
  cases text with
  | nil => exact iff_of_false nofun fun ⟨_, _, _, _, text_eq, _⟩ => by cases text_eq
  | cons opening rest =>
      simp only [beginsWithQuotedSheet_cons, Bool.and_eq_true, decide_eq_true_eq, List.isSuffixOf_iff_suffix,
        Bool.not_eq_true', List.isEmpty_eq_false_iff]
      constructor
      · rintro ⟨⟨⟨opens, closed⟩, sheet⟩, long⟩
        obtain ⟨closing, back, after_eq⟩ := List.exists_cons_of_ne_nil closed
        have closes : isQuote closing = true := by
          have stops := List.head?_dropWhile_not (fun c => !isQuote c) rest
          simpa [after_eq] using stops
        refine ⟨opening, rest.takeWhile fun c => !isQuote c, closing, back, ?_, opens, closes, ?_, sheet, long⟩
        · rw [← after_eq, List.takeWhile_append_dropWhile]
        · intro c member
          simpa using List.all_eq_true.mp List.all_takeWhile c member
      · rintro ⟨opening', name, closing, back, text_eq, opens, closes, plain, sheet, long⟩
        obtain ⟨rfl, rfl⟩ := List.cons.inj text_eq
        have plain : ∀ c ∈ name, (!isQuote c) = true := fun c member => by simp [plain c member]
        rw [List.takeWhile_append_of_pos plain, List.takeWhile_cons_of_neg (by simp [closes]), List.append_nil,
          List.dropWhile_append_of_pos plain, List.dropWhile_cons_of_neg (by simp [closes])]
        exact ⟨⟨⟨opens, List.cons_ne_nil _ _⟩, sheet⟩, long⟩

/-- Behind its first blank a clause goes on with what the gate looks for. -/
theorem beginsWithSheetImport_iff {text : List Char} :
    beginsWithSheetImport text = true ↔ ∃ blanks gap rest, text = blanks ++ ("from".toList ++ (gap ++ rest)) ∧
      (∀ c ∈ blanks, Text.isBlank c = true) ∧ (gap ≠ [] ∧ ∀ c ∈ gap, Text.isBlank c = true) ∧ BeginsWithName rest := by
  unfold beginsWithSheetImport
  constructor
  · intro begins
    split at begins
    · rename_i rest word_eq
      obtain ⟨gapped, quoted⟩ := Bool.and_eq_true_iff.mp begins
      refine ⟨text.takeWhile Text.isBlank, rest.takeWhile Text.isBlank, rest.dropWhile Text.isBlank, ?_, ?_, ⟨?_, ?_⟩,
        beginsWithQuotedSheet_iff.mp quoted⟩
      · rw [List.takeWhile_append_dropWhile]
        exact (List.takeWhile_append_dropWhile).symm.trans (congrArg _ word_eq)
      · exact List.all_eq_true.mp List.all_takeWhile
      · cases rest with
        | nil => cases gapped
        | cons c rest =>
            have blank : Text.isBlank c = true := gapped
            rw [List.takeWhile_cons_of_pos blank]
            exact List.cons_ne_nil _ _
      · exact List.all_eq_true.mp List.all_takeWhile
    · cases begins
  · rintro ⟨blanks, gap, rest, rfl, blank, ⟨gapped, gap_blank⟩, named⟩
    have word_eq : (blanks ++ ("from".toList ++ (gap ++ rest))).dropWhile Text.isBlank =
        'f' :: 'r' :: 'o' :: 'm' :: (gap ++ rest) := by
      rw [List.dropWhile_append_of_pos blank]
      exact List.dropWhile_cons_of_neg (by decide)
    have rest_eq : (gap ++ rest).dropWhile Text.isBlank = rest := by
      obtain ⟨opening, name, closing, back, rfl, opens, -⟩ := named
      rw [List.dropWhile_append_of_pos gap_blank, List.dropWhile_cons_of_neg (by simp [not_isBlank_of_isQuote opens])]
    obtain ⟨c, gap, rfl⟩ := List.exists_cons_of_ne_nil gapped
    simp only [word_eq, rest_eq, beginsWithQuotedSheet_iff.mpr named, Bool.and_true]
    exact gap_blank c List.mem_cons_self

/-- The gate is open exactly for a text that holds a clause. -/
theorem isOpen_iff {text : List Char} : isOpen text = true ↔ HoldsClause text := by
  induction text with
  | nil =>
      refine iff_of_false nofun ?_
      rintro ⟨front, clause, text_eq, blanks, gap, rest, rfl, ⟨filled, -⟩, -⟩
      simp [filled] at text_eq
  | cons c text ih =>
      rw [isOpen, Bool.or_eq_true, Bool.and_eq_true, beginsWithSheetImport_iff, ih]
      constructor
      · rintro (⟨blank, blanks, gap, rest, rfl, all_blank, gapped, named⟩ | ⟨front, clause, rfl, begins⟩)
        · exact ⟨[], _, rfl, c :: blanks, gap, rest, rfl,
            ⟨List.cons_ne_nil _ _, List.forall_mem_cons.mpr ⟨blank, all_blank⟩⟩, gapped, named⟩
        · exact ⟨c :: front, clause, rfl, begins⟩
      · rintro ⟨front, clause, text_eq, begins⟩
        cases front with
        | nil =>
            obtain ⟨blanks, gap, rest, rfl, ⟨filled, all_blank⟩, gapped, named⟩ := begins
            obtain ⟨blank, blanks, rfl⟩ := List.exists_cons_of_ne_nil filled
            obtain ⟨rfl, rfl⟩ := List.cons.inj text_eq
            obtain ⟨first, others⟩ := List.forall_mem_cons.mp all_blank
            exact .inl ⟨first, blanks, gap, rest, rfl, others, gapped, named⟩
        | cons first front =>
            obtain ⟨rfl, rfl⟩ := List.cons.inj text_eq
            exact .inr ⟨front, clause, rfl, begins⟩

end StyleSheetGate

/-! ## Imports and clauses -/

namespace ImportItem

/-- An import makes a style sheet of the application known under a name. -/
def NamesSheet (item : ImportItem) : Prop :=
  item.isStyleSheet = true ∧ ∃ specifier ∈ item.specifiers, (defaultName? specifier).isSome = true

/-- An import is written plainly: blanks stand around the word `from`, and the name of the module stands as it is
between quotes. -/
def IsWrittenPlainly (source : SourceText) (item : ImportItem) : Prop :=
  ∃ front blanks gap opening closing back,
    source.text.toList = front ++ (blanks ++ ("from".toList ++ (gap ++
      opening :: (item.source.value.toList ++ closing :: back)))) ∧
    (blanks ≠ [] ∧ ∀ c ∈ blanks, Text.isBlank c = true) ∧ (gap ≠ [] ∧ ∀ c ∈ gap, Text.isBlank c = true) ∧
    StyleSheetGate.isQuote opening = true ∧ StyleSheetGate.isQuote closing = true ∧
    ∀ c ∈ item.source.value.toList, StyleSheetGate.isQuote c = false

theorem namesSheet_iff {item : ImportItem} : item.NamesSheet ↔ (Imports.styleName? true item).isSome = true := by
  rw [NamesSheet, Imports.styleName?, Bool.true_and]
  cases item.isStyleSheet <;> simp

/-- An import of a style sheet that is written plainly opens the gate, unless the sheet has no name but the ending. -/
theorem holdsClause_of_isWrittenPlainly {source : SourceText} {item : ImportItem} (isSheet : item.isStyleSheet = true)
    (plain : item.IsWrittenPlainly source) (long : 4 < item.source.value.length) :
    StyleSheetGate.HoldsClause source.text.toList := by
  obtain ⟨front, blanks, gap, opening, closing, back, text_eq, blank, gapped, opens, closes, unquoted⟩ := plain
  have ends : ".css".toList <:+ item.source.value.toList := by
    have ends := (Bool.and_eq_true_iff.mp isSheet).2
    rw [String.endsWith_eq_endsWith_toSlice, String.Slice.endsWith_string_iff] at ends
    simpa using ends
  exact ⟨front, _, text_eq, blanks, gap, _, rfl, blank, gapped, opening, item.source.value.toList, closing, back, rfl,
    opens, closes, unquoted, ends, by rwa [String.length_toList]⟩

end ImportItem

/-! ## Edits with and without the gate -/

namespace Imports

section Ungated

variable {source : SourceText} {options : Options} {program : Node}

theorem head?_text_loadStyle (item : ImportItem) (name : String) :
    (loadStyle source options item name).text.toList.head? = some 'c' := by
  simp [loadStyle]

theorem head?_renderImport (others named : List String) (name : String) :
    (renderImport others named name).toList.head? = some 'i' := by
  unfold renderImport
  generalize others ++ (if named.isEmpty then [] else _) = clauses
  cases clauses <;> simp

/-- Where style sheets are not looked for, no edit writes a constant. -/
theorem head?_text_of_unscanned {edit : Edit} (member : edit ∈ editsGiven source options false program) :
    edit.text.toList.head? ≠ some 'c' := by
  have lacks_none : lacksLoader options false (ImportItem.ofProgram program) = false := by
    simp [lacksLoader, styleName?]
  rw [editsGiven, lacks_none, if_neg Bool.false_ne_true, List.append_nil] at member
  obtain ⟨item, -, edited⟩ := List.mem_filterMap.mp member
  have unscanned : styleName? false item = none := rfl
  simp only [edit?, unscanned] at edited
  split at edited
  · obtain rfl := Option.some.inj edited
    simp
  · split at edited
    · obtain rfl := Option.some.inj edited
      simp [restate, head?_renderImport]
    · cases edited

/-- Looking for style sheets makes no difference exactly if there are none. -/
theorem editsGiven_unscanned_eq_iff :
    editsGiven source options false program = editsGiven source options true program ↔
      ∀ item ∈ ImportItem.ofProgram program, ¬item.NamesSheet := by
  simp only [ImportItem.namesSheet_iff, Bool.not_eq_true, Option.isSome_eq_false_iff, Option.isNone_iff_eq_none]
  constructor
  · intro same item item_mem
    cases style : styleName? true item with
    | none => rfl
    | some name =>
        have loading : loadStyle source options item name ∈ editsGiven source options true program :=
          List.mem_append_left _ (List.mem_filterMap.mpr ⟨item, item_mem, by simp [edit?, style]⟩)
        rw [← same] at loading
        exact absurd (head?_text_loadStyle item name) (head?_text_of_unscanned loading)
  · intro unnamed
    have singles : (ImportItem.ofProgram program).filterMap (edit? source options false) =
        (ImportItem.ofProgram program).filterMap (edit? source options true) := by
      refine List.filterMap_congr fun item item_mem => ?_
      have unscanned : styleName? false item = none := rfl
      simp only [edit?, unnamed item item_mem, unscanned]
    have lacks : ∀ scansStyles, lacksLoader options scansStyles (ImportItem.ofProgram program) = false := by
      intro scansStyles
      have loads_none :
          ((ImportItem.ofProgram program).any fun item => (styleName? scansStyles item).isSome) = false := by
        rw [List.any_eq_false]
        intro item item_mem
        cases scansStyles with
        | false => simp [styleName?]
        | true => simp [unnamed item item_mem]
      rw [lacksLoader, loads_none, Bool.false_and]
    rw [editsGiven, editsGiven, singles, lacks, lacks]

end Ungated

/-- The gate is open exactly for a text that holds a clause of an import of a style sheet. The edits of the imports of
a module are those without the gate exactly if, where style sheets are looked for and an import names one, the text
holds such a clause. It does if the import is written plainly and the sheet has more of a name than the ending. -/
theorem edits_eq_ungated_iff (source : SourceText) (options : Options) (processCss : Bool) (program : Node) :
    (StyleSheetGate.isOpen source.text.toList = true ↔ StyleSheetGate.HoldsClause source.text.toList) ∧
      (edits source options processCss program = editsGiven source options processCss program ↔
        (processCss = true → (∃ item ∈ ImportItem.ofProgram program, item.NamesSheet) →
          StyleSheetGate.HoldsClause source.text.toList)) ∧
      ∀ item ∈ ImportItem.ofProgram program, item.NamesSheet → item.IsWrittenPlainly source →
        4 < item.source.value.length → StyleSheetGate.HoldsClause source.text.toList := by
  refine ⟨StyleSheetGate.isOpen_iff, ?_, fun item _ names => ImportItem.holdsClause_of_isWrittenPlainly names.1⟩
  rw [edits_eq_editsGiven, SourceText.scansStyles, ← StyleSheetGate.isOpen_iff]
  cases processCss with
  | false => exact iff_of_true rfl nofun
  | true =>
      cases StyleSheetGate.isOpen source.text.toList with
      | true => exact iff_of_true rfl fun _ _ => rfl
      | false =>
          rw [Bool.and_false, editsGiven_unscanned_eq_iff]
          simp

end Imports

/-- A source with an import of a style sheet that is written plainly. -/
def plainSheet :
    { source : SourceText // source.text = "import s from \"./a.css\";[s]" ∧
      passes (source.parse source.dialect) (fun module => (ImportItem.ofProgram module.program).any fun item =>
        (Imports.styleName? true item).isSome && item.source.value == "./a.css") = true } :=
  ⟨⟨"a.js", "import s from \"./a.css\";[s]"⟩, rfl, by decide +kernel⟩

/-- An import of a style sheet that is written plainly is not hidden. -/
theorem plain_sheet_is_seen :
    ∃ (source : SourceText) (module : SourceModule) (item : ImportItem),
      source.text = "import s from \"./a.css\";[s]" ∧ source.parse source.dialect = .ok module ∧
        item ∈ ImportItem.ofProgram module.program ∧ item.NamesSheet ∧ item.IsWrittenPlainly source ∧
        4 < item.source.value.length ∧ StyleSheetGate.HoldsClause source.text.toList ∧
        Imports.edits source {} true module.program = Imports.editsGiven source {} true module.program := by
  obtain ⟨source, text, settled⟩ := plainSheet
  obtain ⟨module, parsed, checked⟩ := exists_of_passes settled
  obtain ⟨item, item_mem, checked⟩ := List.any_eq_true.mp checked
  obtain ⟨named, value⟩ := Bool.and_eq_true_iff.mp checked
  have names : item.NamesSheet := ImportItem.namesSheet_iff.mpr named
  have value : item.source.value = "./a.css" := eq_of_beq value
  have plain : item.IsWrittenPlainly source := by
    have blank : [' '] ≠ [] ∧ ∀ c ∈ [' '], Text.isBlank c = true :=
      ⟨List.cons_ne_nil _ _, List.forall_mem_singleton.mpr rfl⟩
    refine ⟨"import s".toList, [' '], [' '], '"', '"', ";[s]".toList, ?_, blank, blank, rfl, rfl, ?_⟩
    · rw [text, value]
      decide
    · have unquoted : "./a.css".toList.all (fun c => !StyleSheetGate.isQuote c) = true := by decide
      rw [value]
      simpa using unquoted
  have long : 4 < item.source.value.length := by
    rw [value]
    decide
  obtain ⟨-, same_iff, opens⟩ := Imports.edits_eq_ungated_iff source {} true module.program
  have holds := opens item item_mem names plain long
  exact ⟨source, module, item, text, parsed, item_mem, names, plain, long, holds, same_iff.mpr fun _ _ => holds⟩

/-- A source with an import of a style sheet whose name follows the word `from` directly. -/
def sheetWithoutBlank :
    { source : SourceText // source.text = "import s from\"./a.css\"" ∧
      StyleSheetGate.isOpen source.text.toList = false ∧ passes (source.parse source.dialect) (fun module =>
        ((ImportItem.ofProgram module.program).any fun item => (Imports.styleName? true item).isSome) &&
          Decidable.decide (Imports.edits source {} true module.program = [] ∧
            Imports.editsGiven source {} true module.program =
              [⟨0, 22, "const s = loadStyleText(\"./a.css\", import.meta.url);"⟩,
                .insertion 0 "import \x7b loadStyleText \x7d from \"next-jsx\";\n"])) = true } :=
  ⟨⟨"a.js", "import s from\"./a.css\""⟩, rfl, by decide +kernel, by decide +kernel⟩

/-- An import of a style sheet without a blank between the word `from` and the name is not looked for. -/
theorem sheet_without_blank_is_hidden :
    ∃ (source : SourceText) (module : SourceModule),
      source.text = "import s from\"./a.css\"" ∧ source.parse source.dialect = .ok module ∧
        (∃ item ∈ ImportItem.ofProgram module.program, item.NamesSheet) ∧
        StyleSheetGate.isOpen source.text.toList = false ∧ Imports.edits source {} true module.program = [] ∧
        Imports.editsGiven source {} true module.program =
          [⟨0, 22, "const s = loadStyleText(\"./a.css\", import.meta.url);"⟩,
            .insertion 0 "import \x7b loadStyleText \x7d from \"next-jsx\";\n"] := by
  obtain ⟨source, text, closed, settled⟩ := sheetWithoutBlank
  obtain ⟨module, parsed, checked⟩ := exists_of_passes settled
  obtain ⟨names, edits⟩ := Bool.and_eq_true_iff.mp checked
  obtain ⟨item, item_mem, named⟩ := List.any_eq_true.mp names
  obtain ⟨gated, ungated⟩ := of_decide_eq_true edits
  exact ⟨source, module, text, parsed, ⟨item, item_mem, ImportItem.namesSheet_iff.mpr named⟩, closed, gated, ungated⟩

end Storyboard
