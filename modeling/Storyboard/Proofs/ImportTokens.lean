import Storyboard.Proofs.ImportPlaces
import Storyboard.Proofs.TextRanges

/-!
# Tokens of an import that was read

An import was read token by token, and the source between the first token of a specifier and the last one spells
what the specifier says. So the text that a specifier covers can be written somewhere else.
-/

namespace Storyboard

/-- What a node covers spells what it says as a specifier. -/
def SourceText.SpellsSpecifier (source : SourceText) (node : Node) : Prop :=
  ∃ entry : SpelledSpecifier, Specifier.ofNode? node = some entry.specifier ∧ entry.text = source.covered node

/-- Specifiers as an import lists them: a default import, and either all exports under one name or exports by their
names. -/
inductive SourceText.Lists (source : SourceText) : List Node → Prop
  | intro (lead all : Option Node) (named : List Node)
      (spelled : ∀ node ∈ lead.toList ++ all.toList ++ named, source.SpellsSpecifier node)
      (lead_isDefault : ∀ node ∈ lead, (ImportItem.defaultName? node).isSome = true)
      (all_isNamespace : ∀ node ∈ all, ImportItem.isNamespace node = true)
      (named_isNamed : ∀ node ∈ named, ImportItem.isNamed node = true)
      (alone : all = none ∨ named = []) : Lists source (lead.toList ++ all.toList ++ named)

namespace Grammar

/-- The tokens from the place of one reading up to the place of another one behind it. -/
inductive Passes : List TokenKind → Reading → Reading → Prop
  | nil {reading : Reading} : Passes [] reading reading
  | cons {kinds : List TokenKind} {mode : Mode} {reading between last : Reading}
      (moved : advance mode reading = some ((), between)) (others : Passes kinds between last) :
      Passes (reading.token.kind :: kinds) reading last

section

variable {mode : Mode} {reading between next : Reading}

theorem Passes.append {kinds others : List TokenKind} {last : Reading} (first : Passes kinds reading between)
    (second : Passes others between last) : Passes (kinds ++ others) reading last := by
  induction first with
  | nil => exact second
  | cons moved _ ih => exact .cons moved (ih second)

/-! ## Rules for single tokens -/

theorem passes_of_advance {value : Unit} (moved : advance mode reading = some (value, next)) :
    Passes [reading.token.kind] reading next :=
  .cons moved .nil

theorem of_lookAhead {α β : Type} {rule : Parse α} {rest : Option α → Parse β} {result : β × Reading}
    (read : (lookAhead rule >>= rest) mode reading = some result) : ∃ found, rest found mode reading = some result := by
  obtain ⟨found, between, same, read⟩ := exists_of_bind read
  obtain ⟨_, same'⟩ := lookAhead_eq rule mode reading
  cases same.symm.trans same'
  exact ⟨found, read⟩

theorem passes_of_eatMark {mark : String} {found : Bool} (read : eatMark mark mode reading = some (found, next)) :
    found = true ∧ Passes [.mark mark] reading next ∨ found = false ∧ reading = next := by
  have read := of_atMark read
  by_cases here : (reading.token.kind == .mark mark) = true
  · rw [if_pos here] at read
    obtain ⟨_, _, moved, same⟩ := exists_of_bind read
    cases same
    exact .inl ⟨rfl, eq_of_beq here ▸ passes_of_advance moved⟩
  · rw [if_neg here] at read
    cases read
    exact .inr ⟨rfl, rfl⟩

theorem passes_of_eatWord {word : String} {found : Bool} (read : eatWord word mode reading = some (found, next)) :
    found = true ∧ Passes [.name word false] reading next ∨ found = false ∧ reading = next := by
  obtain ⟨_, _, same, read⟩ := exists_of_bind read
  cases same
  by_cases here : (reading.token.kind == .name word false) = true
  · rw [if_pos here] at read
    obtain ⟨_, _, moved, same⟩ := exists_of_bind read
    cases same
    exact .inl ⟨rfl, eq_of_beq here ▸ passes_of_advance moved⟩
  · rw [if_neg here] at read
    cases read
    exact .inr ⟨rfl, rfl⟩

theorem passes_of_expectMark {mark : String} {value : Unit} (read : expectMark mark mode reading = some (value, next)) :
    Passes [.mark mark] reading next := by
  obtain ⟨found, between, eaten, read⟩ := exists_of_bind read
  rcases passes_of_eatMark eaten with ⟨rfl, passes⟩ | ⟨rfl, -⟩
  · cases read
    exact passes
  · cases read

theorem passes_of_expectWord {word : String} {value : Unit} (read : expectWord word mode reading = some (value, next)) :
    Passes [.name word false] reading next := by
  obtain ⟨found, between, eaten, read⟩ := exists_of_bind read
  rcases passes_of_eatWord eaten with ⟨rfl, passes⟩ | ⟨rfl, -⟩
  · cases read
    exact passes
  · cases read

theorem passes_of_anyName {name : String} (read : anyName mode reading = some (name, next)) :
    ∃ isEscaped, Passes [.name name isEscaped] reading next := by
  obtain ⟨rule, rule_eq, read⟩ := of_kind read
  split at rule_eq
  · rename_i text isEscaped kind_eq
    rw [← rule_eq] at read
    obtain ⟨_, _, moved, same⟩ := exists_of_bind read
    cases same
    exact ⟨isEscaped, kind_eq ▸ passes_of_advance moved⟩
  · rw [← rule_eq] at read
    cases read

theorem passes_of_identifierName {name : String} (read : identifierName mode reading = some (name, next)) :
    isIdentifier mode name = true ∧ ∃ isEscaped, Passes [.name name isEscaped] reading next := by
  obtain ⟨rule, rule_eq, read⟩ := of_kind read
  split at rule_eq
  · rename_i text isEscaped kind_eq
    rw [← rule_eq] at read
    obtain ⟨_, _, same, read⟩ := exists_of_bind read
    cases same
    obtain ⟨identifier, read⟩ := of_ensure read
    obtain ⟨_, _, moved, same⟩ := exists_of_bind read
    cases same
    exact ⟨identifier, isEscaped, kind_eq ▸ passes_of_advance moved⟩
  · rw [← rule_eq] at read
    cases read

theorem passes_of_exportedName {name : ExportedName} (read : exportedName mode reading = some (name, next)) :
    (∃ value hasHalves, name = .text value ∧ Passes [.text value hasHalves] reading next) ∨
      ∃ value isEscaped, name = .identifier value ∧ Passes [.name value isEscaped] reading next := by
  obtain ⟨rule, rule_eq, read⟩ := of_kind read
  split at rule_eq
  · rename_i value hasHalves kind_eq
    rw [← rule_eq] at read
    obtain ⟨_, _, moved, same⟩ := exists_of_bind read
    cases same
    exact .inl ⟨value, hasHalves, rfl, kind_eq ▸ passes_of_advance moved⟩
  · rw [← rule_eq] at read
    obtain ⟨value, _, named, same⟩ := exists_of_bind read
    cases same
    obtain ⟨isEscaped, passes⟩ := passes_of_anyName named
    exact .inr ⟨value, isEscaped, rfl, passes⟩

/-! ## Rules for specifiers -/

/-- Without types no word says that a type is imported. -/
theorem of_typeModifier {α : Type} {rest : Bool → Parse α} {result : α × Reading} (no_types : mode.hasTypes = false)
    (read : (typeModifier >>= rest) mode reading = some result) : rest false mode reading = some result := by
  obtain ⟨modified, between, modifier, read⟩ := exists_of_bind read
  obtain ⟨_, _, same, modifier⟩ := exists_of_bind modifier
  cases same
  obtain ⟨_, _, same, modifier⟩ := exists_of_bind modifier
  cases same
  obtain ⟨found, modifier⟩ := of_lookAhead modifier
  rw [no_types, Bool.false_and, Bool.false_and, if_neg Bool.false_ne_true] at modifier
  cases modifier
  exact read

/-- A node was read from tokens that say what it says. -/
def ReadsSpecifier (node : Node) (reading next : Reading) : Prop :=
  ∃ specifier kinds, Specifier.ofNode? node = some specifier ∧ specifier.SpelledBy kinds ∧ Passes kinds reading next ∧
    node.span = ⟨reading.token.span.start, next.lastStop⟩

theorem readsSpecifier_of_importNamed (ofModule : mode.IsOfModule) {node : Node}
    (read : importNamed mode reading = some (node, next)) :
    ReadsSpecifier node reading next ∧ ImportItem.isNamed node = true := by
  have read := of_typeModifier ofModule.no_types (of_start read)
  obtain ⟨_, _, same, read⟩ := exists_of_bind read
  cases same
  obtain ⟨imported, between, exported, read⟩ := exists_of_bind read
  obtain ⟨renames, after, eaten, read⟩ := exists_of_bind read
  rcases passes_of_eatWord eaten with ⟨rfl, as⟩ | ⟨rfl, rfl⟩
  · rw [if_pos rfl] at read
    obtain ⟨name, last, named, same⟩ := exists_of_bind read
    cases same
    obtain ⟨identifier, isEscaped, passes⟩ := passes_of_identifierName named
    rw [ofModule.isIdentifier_eq] at identifier
    refine ⟨?_, rfl⟩
    rcases passes_of_exportedName exported with ⟨value, hasHalves, rfl, first⟩ | ⟨value, isImportedEscaped, rfl, first⟩
    · exact ⟨_, _, rfl, .renamedText hasHalves isEscaped identifier, first.append (as.append passes), rfl⟩
    · exact ⟨_, _, rfl, .renamed isImportedEscaped isEscaped identifier, first.append (as.append passes), rfl⟩
  · rw [if_neg Bool.false_ne_true] at read
    rcases passes_of_exportedName exported with ⟨value, hasHalves, rfl, first⟩ | ⟨value, isEscaped, rfl, first⟩
    · cases read
    · obtain ⟨identifier, same⟩ := of_ensure read
      cases same
      rw [ofModule.isIdentifier_eq] at identifier
      exact ⟨⟨_, _, rfl, .named isEscaped identifier, first, rfl⟩, rfl⟩

theorem readsSpecifier_of_importNamespace (ofModule : mode.IsOfModule) {node : Node}
    (read : importNamespace mode reading = some (node, next)) :
    ReadsSpecifier node reading next ∧ ImportItem.isNamespace node = true := by
  obtain ⟨_, _, star, read⟩ := exists_of_bind (of_start read)
  obtain ⟨_, _, as, read⟩ := exists_of_bind read
  obtain ⟨name, _, named, same⟩ := exists_of_bind read
  cases same
  obtain ⟨identifier, isEscaped, passes⟩ := passes_of_identifierName named
  rw [ofModule.isIdentifier_eq] at identifier
  have all := (passes_of_expectMark star).append ((passes_of_expectWord as).append passes)
  exact ⟨⟨_, _, rfl, .everything isEscaped identifier, all, rfl⟩, rfl⟩

end

/-! ## The text between tokens -/

open Lexer (IsPlain IsToken EndsBefore EndsName IsSpelling Spells)

/-- Whether a token ends depends on the next character. -/
theorem endsBefore_congr {kind : TokenKind} {rest rest' : List Char} (same : rest.head? = rest'.head?)
    (ends : EndsBefore kind rest) : EndsBefore kind rest' := by
  cases kind <;> simp only [EndsBefore, EndsName] at ends ⊢ <;> rw [← same] <;> exact ends

/-- A token that names something or is a text can have anything behind it that does not go on with a name. -/
def EndsItself : TokenKind → Prop
  | .name _ _ => True
  | .text _ _ => True
  | _ => False

theorem endsBefore_of_endsName {kind : TokenKind} {rest : List Char} (itself : EndsItself kind) (ends : EndsName rest) :
    EndsBefore kind rest := by
  cases kind with
  | name => exact ends
  | text => trivial
  | _ => cases itself

theorem eq_of_advance {mode : Mode} {reading next : Reading} {value : Unit}
    (moved : advance mode reading = some (value, next)) :
    Lexer.next? (some reading.token.kind) reading.after = some (next.token, next.here, next.after) ∧
      next.lastStop = reading.token.span.stop := by
  rw [advance_eq] at moved
  obtain ⟨⟨token, here, after⟩, read, same⟩ := Option.bind_eq_some_iff.mp moved
  cases same
  exact ⟨read, rfl⟩

/-- Plain tokens are spelled by the characters from the first up to the last. -/
theorem exists_spelling_of_passes {text : List Char} {kinds : List TokenKind} {reading next : Reading}
    (inside : reading.IsIn text) (passes : Passes kinds reading next) (some_kind : kinds ≠ [])
    (plain : ∀ kind ∈ kinds, IsPlain kind) (last : ∀ kind ∈ kinds.getLast?, EndsItself kind) :
    ∃ spelling after, Cursor.Across spelling reading.here after ∧ next.lastStop = after.offset ∧
      IsSpelling kinds spelling ∧ spelling ≠ [] := by
  induction passes with
  | nil => exact absurd rfl some_kind
  | @cons kinds mode reading between next moved others ih =>
      obtain ⟨read, stop_eq⟩ := eq_of_advance moved
      obtain ⟨token, across, whole, ends⟩ := inside.plain (plain _ List.mem_cons_self)
      have some_char : token ≠ [] := by
        obtain ⟨c, others, rfl, -⟩ := whole.1
        exact List.cons_ne_nil _ _
      by_cases none_left : kinds = []
      · subst none_left
        cases others
        refine ⟨token, reading.after, across, ?_, ?_, some_char⟩
        · rw [stop_eq, inside.span]
        · exact fun _ _ _ skips ends spells => .cons skips whole (endsBefore_of_endsName (last _ rfl) ends) spells
      · have first_plain : IsPlain between.token.kind := by
          cases others with
          | nil => exact absurd rfl none_left
          | cons moved' others' => exact plain _ (.tail _ List.mem_cons_self)
        obtain ⟨gap, -, to_here, -, skips, -, -⟩ := Lexer.exists_token_of_next? read first_plain
        obtain ⟨spelling, after, across', stop_eq', spelled, some_char'⟩ := ih (Stays.isIn inside moved) none_left
          (fun kind member => plain kind (.tail _ member))
          (fun kind member => last kind (by rwa [List.getLast?_cons_of_ne_nil none_left]))
        refine ⟨token ++ (gap ++ spelling), after, ?_, stop_eq', ?_, by simp [some_char]⟩
        · exact Cursor.Across.trans across (Cursor.Across.trans to_here across')
        · intro gap' kinds' rest skips' ends' spells
          have behind := spelled gap kinds' rest skips ends' spells
          rw [List.append_assoc, List.append_assoc]
          refine .cons skips' whole (endsBefore_congr ?_ ends) behind
          rw [to_here.1, across'.1]
          cases gap with
          | cons => rfl
          | nil =>
              cases spelling with
              | cons => rfl
              | nil => exact absurd rfl some_char'

/-- The slice between two cursors of a text. -/
theorem sliceString_of_across {text : String} {covered : List Char} {here after : Cursor}
    (inside : Cursor.Reaches ⟨text.toList, 0⟩ here) (across : Cursor.Across covered here after) :
    (Text.sliceString text here.offset after.offset).toList = covered := by
  obtain ⟨front, text_eq, start_eq⟩ := inside
  dsimp only at text_eq start_eq
  have stop_eq : after.offset = Text.byteLength (front ++ covered) := by
    rw [across.2, start_eq, Nat.zero_add, Text.byteLength_append]
  rw [Text.sliceString, String.toList_ofList, text_eq, across.1, start_eq, stop_eq, Nat.zero_add, Text.slice_append]

theorem plain_of_spelledBy {specifier : Specifier} {kinds : List TokenKind} (spelled : specifier.SpelledBy kinds) :
    kinds ≠ [] ∧ (∀ kind ∈ kinds, IsPlain kind) ∧ ∀ kind ∈ kinds.getLast?, EndsItself kind := by
  cases spelled <;> simp [IsPlain, EndsItself]

/-- What a specifier covers spells what it says. -/
theorem spellsSpecifier_of_readsSpecifier {source : SourceText} {node : Node} {reading next : Reading}
    (inside : reading.IsIn source.text.toList) (read : ReadsSpecifier node reading next) :
    source.SpellsSpecifier node := by
  obtain ⟨specifier, kinds, said, spelled, passes, span_eq⟩ := read
  obtain ⟨some_kind, plain, last⟩ := plain_of_spelledBy spelled
  obtain ⟨spelling, after, across, stop_eq, spells, -⟩ := exists_spelling_of_passes inside passes some_kind plain last
  have covered : (source.covered node).toList = spelling := by
    rw [SourceText.covered, span_eq, inside.span, stop_eq]
    exact sliceString_of_across inside.here across
  exact ⟨⟨specifier, kinds, source.covered node, spelled, by rwa [covered]⟩, said, rfl⟩

/-! ## Lists of specifiers -/

section

variable {source : SourceText} {mode : Mode} {reading next : Reading}

theorem exists_item_of_collectUpTo {α : Type} {text : List Char} {item : Parse (Option α)} [Stays text item]
    {limit : Nat}
    {values : List α} (inside : reading.IsIn text) (read : collectUpTo item limit mode reading = some (values, next)) :
    ∀ value ∈ values, ∃ before after, before.IsIn text ∧ item mode before = some (some value, after) := by
  induction limit generalizing reading values with
  | zero => cases read
  | succ limit ih =>
      obtain ⟨found, between, first, read⟩ := exists_of_bind read
      cases found with
      | none =>
          cases read
          exact fun value member => nomatch member
      | some value =>
          obtain ⟨others, last, read, same⟩ := exists_of_bind read
          cases same
          rintro other (_ | ⟨_, member⟩)
          · exact ⟨reading, between, inside, first⟩
          · exact ih (Stays.isIn inside first) read other member

/-- Every item of a list with commas was read at a place in the text. -/
theorem exists_item_of_commaList {α : Type} {text : List Char} {closing : String} {item : Parse α} [Stays text item]
    {values : List α} (inside : reading.IsIn text) (read : commaList closing item mode reading = some (values, next)) :
    ∀ value ∈ values, ∃ before after, before.IsIn text ∧ item mode before = some (value, after) := by
  obtain ⟨_, _, same, read⟩ := exists_of_bind read
  cases same
  intro value member
  obtain ⟨before, after, inside', read⟩ := exists_item_of_collectUpTo inside read value member
  obtain ⟨closed, between, eaten, read⟩ := exists_of_bind read
  rcases passes_of_eatMark eaten with ⟨rfl, -⟩ | ⟨rfl, rfl⟩
  · cases read
  · rw [if_neg Bool.false_ne_true] at read
    obtain ⟨found, last, item_read, read⟩ := exists_of_bind read
    have same : found = value := by
      obtain ⟨comma, _, -, read⟩ := exists_of_bind read
      cases comma with
      | true =>
          cases read
          rfl
      | false =>
          obtain ⟨-, same⟩ := of_ensure (of_atMark read)
          cases same
          rfl
    exact ⟨before, last, inside', same ▸ item_read⟩

/-- What an import lists without a default import. -/
theorem exists_of_importList (ofModule : mode.IsOfModule) {nodes : List Node} (inside : reading.IsIn source.text.toList)
    (read : importList mode reading = some (nodes, next)) :
    ∃ all : Option Node, ∃ named, nodes = all.toList ++ named ∧ (∀ node ∈ nodes, source.SpellsSpecifier node) ∧
      (∀ node ∈ all, ImportItem.isNamespace node = true) ∧ (∀ node ∈ named, ImportItem.isNamed node = true) ∧
      (all = none ∨ named = []) := by
  have read := of_atMark read
  by_cases star : (reading.token.kind == .mark "*") = true
  · rw [if_pos star] at read
    obtain ⟨node, _, read, same⟩ := exists_of_bind read
    cases same
    obtain ⟨specifier, namespace_⟩ := readsSpecifier_of_importNamespace ofModule read
    refine ⟨some node, [], rfl, ?_, by simpa using namespace_, by simp, .inr rfl⟩
    exact List.forall_mem_singleton.mpr (spellsSpecifier_of_readsSpecifier inside specifier)
  · rw [if_neg star] at read
    obtain ⟨_, between, opens, read⟩ := exists_of_bind read
    have items := exists_item_of_commaList (Stays.isIn inside opens) read
    refine ⟨none, nodes, rfl, ?_, by simp, ?_, .inl rfl⟩
    · intro node member
      obtain ⟨before, after, inside', read⟩ := items node member
      exact spellsSpecifier_of_readsSpecifier inside' (readsSpecifier_of_importNamed ofModule read).1
    · intro node member
      obtain ⟨before, after, -, read⟩ := items node member
      exact (readsSpecifier_of_importNamed ofModule read).2

theorem eq_of_atIdentifier {found : Bool} (read : atIdentifier mode reading = some (found, next)) : reading = next := by
  obtain ⟨rule, rule_eq, read⟩ := of_kind read
  split at rule_eq
  all_goals
    rw [← rule_eq] at read
    cases read
    rfl

/-- A clause lists a default import, all exports under one name or exports by their names. -/
theorem lists_of_importClause (ofModule : mode.IsOfModule) {nodes : List Node}
    (inside : reading.IsIn source.text.toList)
    (read : importClause mode reading = some (nodes, next)) : source.Lists nodes := by
  obtain ⟨leads, between, same, read⟩ := exists_of_bind (of_start read)
  obtain rfl := eq_of_atIdentifier same
  cases leads with
  | false =>
      obtain ⟨all, named, rfl, spelled, all_isNamespace, named_isNamed, alone⟩ :=
        exists_of_importList ofModule inside read
      exact .intro none all named spelled nofun all_isNamespace named_isNamed alone
  | true =>
      obtain ⟨name, after, named, read⟩ := exists_of_bind read
      obtain ⟨identifier, isEscaped, passes⟩ := passes_of_identifierName named
      rw [ofModule.isIdentifier_eq] at identifier
      obtain ⟨lead, last, closed, read⟩ := exists_of_bind read
      have specifier : ReadsSpecifier lead reading last := by
        cases closed
        exact ⟨_, _, rfl, .byDefault isEscaped identifier, passes, rfl⟩
      have isDefault : (ImportItem.defaultName? lead).isSome = true := by
        cases closed
        rfl
      have spelled := spellsSpecifier_of_readsSpecifier inside specifier
      obtain ⟨comma, _, eaten, read⟩ := exists_of_bind read
      cases comma with
      | false =>
          cases read
          exact .intro (some lead) none [] (List.forall_mem_singleton.mpr spelled) (by simpa using isDefault)
            nofun nofun (.inl rfl)
      | true =>
          obtain ⟨others, _, read, same⟩ := exists_of_bind read
          cases same
          have inside' := Stays.isIn (Stays.isIn (Stays.isIn inside named) closed) eaten
          obtain ⟨all, named, rfl, spelled', all_isNamespace, named_isNamed, alone⟩ :=
            exists_of_importList ofModule inside' read
          exact .intro (some lead) all named (List.forall_mem_cons.mpr ⟨spelled, spelled'⟩) (by simpa using isDefault)
            all_isNamespace named_isNamed alone

/-! ## Whole imports -/

/-- The name of a module covers a text of its value. -/
theorem isToken_of_moduleName {module : ModuleName} (inside : reading.IsIn source.text.toList)
    (read : moduleName mode reading = some (module, next)) :
    ∃ hasHalves, Lexer.IsToken (.text module.value hasHalves)
      (Text.sliceString source.text module.span.start module.span.stop).toList := by
  obtain ⟨_, _, same, read⟩ := exists_of_bind read
  cases same
  obtain ⟨value, between, text, read⟩ := exists_of_bind read
  obtain ⟨attributes, _, -, same⟩ := exists_of_bind read
  cases same
  obtain ⟨rule, rule_eq, text⟩ := of_kind text
  split at rule_eq
  · rename_i value' hasHalves kind_eq
    rw [← rule_eq] at text
    obtain ⟨_, _, -, same⟩ := exists_of_bind text
    cases same
    obtain ⟨token, across, whole, -⟩ := inside.plain (by rw [kind_eq]; trivial)
    refine ⟨hasHalves, ?_⟩
    rw [inside.span, sliceString_of_across inside.here across, ← kind_eq]
    exact whole
  · rw [← rule_eq] at text
    cases text

/-- Without types no types are imported. -/
theorem eq_of_importsTypes (ofModule : mode.IsOfModule) {types : Bool}
    (read : importsTypes mode reading = some (types, next)) : types = false ∧ reading = next := by
  obtain ⟨_, _, same, read⟩ := exists_of_bind read
  cases same
  obtain ⟨_, _, same, read⟩ := exists_of_bind read
  cases same
  rw [ofModule.no_types, Bool.false_and, if_neg Bool.false_ne_true] at read
  cases read
  exact ⟨rfl, rfl⟩

/-- What an import that was read says stands in its source. -/
theorem exists_of_importStatement (ofModule : mode.IsOfModule) {node : Node} (inside : reading.IsIn source.text.toList)
    (read : importStatement mode reading = some (node, next)) :
    ∃ head specifiers module hasHalves, node.form = .importFrom head specifiers module ∧ head.isTypeOnly = false ∧
      source.Lists specifiers ∧ Lexer.IsToken (.text module.value hasHalves)
        (Text.sliceString source.text module.span.start module.span.stop).toList := by
  obtain ⟨_, between, word, read⟩ := exists_of_bind (of_start read)
  obtain ⟨alias_, after, attempted, read⟩ := exists_of_bind read
  have inside := Stays.isIn inside word
  rw [attempt, importAlias_eq_none ofModule] at attempted
  cases attempted
  obtain ⟨rule, rule_eq, read⟩ := of_kind read
  split at rule_eq
  · rw [← rule_eq] at read
    obtain ⟨module, _, named, read⟩ := exists_of_bind read
    obtain ⟨_, _, -, same⟩ := exists_of_bind read
    cases same
    obtain ⟨hasHalves, token⟩ := isToken_of_moduleName inside named
    exact ⟨_, _, _, hasHalves, rfl, rfl, .intro none none [] nofun nofun nofun nofun (.inl rfl), token⟩
  · rw [← rule_eq] at read
    obtain ⟨types, _, typed, read⟩ := exists_of_bind read
    obtain ⟨rfl, rfl⟩ := eq_of_importsTypes ofModule typed
    obtain ⟨phase, _, phased, read⟩ := exists_of_bind read
    have inside := Stays.isIn inside phased
    obtain ⟨specifiers, _, clause, read⟩ := exists_of_bind read
    have lists := lists_of_importClause ofModule inside clause
    have inside := Stays.isIn inside clause
    obtain ⟨_, _, word, read⟩ := exists_of_bind read
    have inside := Stays.isIn inside word
    obtain ⟨module, _, named, read⟩ := exists_of_bind read
    obtain ⟨_, _, -, same⟩ := exists_of_bind read
    cases same
    obtain ⟨hasHalves, token⟩ := isToken_of_moduleName inside named
    exact ⟨_, _, _, hasHalves, rfl, rfl, lists, token⟩

end

end Grammar

end Storyboard
