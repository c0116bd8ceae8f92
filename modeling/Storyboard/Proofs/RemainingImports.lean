import Storyboard.Proofs.DanglingImports

/-!
# Imports that are left

The imports of a module after extraction: those that stay, those that are written again, and the import of
the style loader. All of them stay in a second run, unless style sheets are looked for only then. What
becomes of an import depends only on what it says, not on where it stands.
-/

namespace Storyboard

open Extraction

namespace ImportFate

theorem edit?_eq_none_iff {source : SourceText} {options : Options} {item : ImportItem}
    {fate : ImportFate} : fate.edit? source options item = none ↔ fate = kept := by
  cases fate <;> simp [edit?]

theorem styleName?_of_kept {options : Options} {scansStyles : Bool} {item : ImportItem}
    (stays : ofItem options scansStyles item = kept) : Imports.styleName? scansStyles item = none := by
  unfold ofItem at stays
  split at stays
  · simp at stays
  · assumption

/-- The imports of a module need no edit exactly if all of them are kept. -/
theorem edits_eq_nil_iff (source : SourceText) (options : Options) (processCss : Bool) (program : Node) :
    Imports.edits source options processCss program = [] ↔
      ∀ item ∈ ImportItem.ofProgram program,
        ofItem options (processCss && StyleSheetGate.isOpen source.text.toList) item = kept := by
  constructor
  · intro no_edits item member
    have no_edit := (List.append_eq_nil_iff.mp no_edits).1
    rw [List.filterMap_eq_nil_iff] at no_edit
    have unedited := no_edit item member
    rwa [edit?_ofItem, edit?_eq_none_iff] at unedited
  · intro stay
    have no_edit : (ImportItem.ofProgram program).filterMap (Imports.edit? source options
        (processCss && StyleSheetGate.isOpen source.text.toList)) = [] := by
      rw [List.filterMap_eq_nil_iff]
      intro item member
      rw [edit?_ofItem, edit?_eq_none_iff]
      exact stay item member
    have loads_none : ((ImportItem.ofProgram program).any fun item => (Imports.styleName?
        (processCss && StyleSheetGate.isOpen source.text.toList) item).isSome) = false := by
      rw [List.any_eq_false]
      intro item member
      simp [styleName?_of_kept (stay item member)]
    simp only [Imports.edits, no_edit, loads_none, Bool.false_and, Bool.false_eq_true, if_false,
      List.append_nil]

end ImportFate

namespace ImportItem

/-- The names that an import brings in and what they stand for. -/
def bindings (item : ImportItem) : List (String × Binding) :=
  item.specifiers.filterMap (Scope.importBinding? item.source.value)

/-- What an import says, wherever it stands: its module and what its specifiers bring in. -/
def content (item : ImportItem) : String × List (Option (String × Binding)) :=
  (item.source.value, item.specifiers.map (Scope.importBinding? item.source.value))

/-- Specifiers in the order in which they are written again, those by name last. -/
def inWrittenOrder (specifiers : List Node) : List Node :=
  (specifiers.filter fun specifier => !isNamed specifier) ++ specifiers.filter isNamed

/-- What is left of an import. -/
def left? (scansStyles : Bool) (item : ImportItem) : Option ImportItem :=
  match ImportFate.ofItem {} scansStyles item with
  | .kept => some item
  | .restated specifiers => some { item with specifiers := inWrittenOrder specifiers }
  | _ => none

/-- Whether an import is of the element module. -/
def isOfElements (item : ImportItem) : Bool := item.source.value == ({} : Options).jsxModule

/-- The specifier that imports the style loader. -/
def loaderSpecifier : Node :=
  ⟨⟨0, 0⟩, .importNamed false (.identifier ({} : Options).styleLoader) ({} : Options).styleLoader⟩

/-- The import of the style loader alone. -/
def ofLoader : ImportItem :=
  let source : ModuleName := ⟨({} : Options).jsxModule, ⟨0, 0⟩, none⟩
  ⟨⟨⟨0, 0⟩, .importFrom {} [loaderSpecifier] source⟩, [loaderSpecifier], source⟩

/-- Imports with the style loader in the last one of the element module, if that can take it. -/
def extendLast? : List ImportItem → Option (List ImportItem)
  | [] => none
  | item :: rest =>
    if rest.any isOfElements then (extendLast? rest).map (item :: ·)
    else if item.isOfElements && !item.specifiers.any isNamespace then
      some ({ item with specifiers := inWrittenOrder item.specifiers ++ [loaderSpecifier] } :: rest)
    else none

/-- The imports of a module after extraction. -/
def after (scansStyles : Bool) (items : List ImportItem) : List ImportItem :=
  let left := items.filterMap (left? scansStyles)
  let hasLoader := items.any fun item =>
    item.isOfElements && item.specifiers.any (importsAsItself ({} : Options).styleLoader)
  if (items.any fun item => (Imports.styleName? scansStyles item).isSome) && !hasLoader then
    (extendLast? left).getD (ofLoader :: left)
  else left

/-! What imports say settles what becomes of them. -/

section Content

variable {item other : ImportItem}

/-- The default import of a specifier is what it brings in by default. -/
theorem defaultName?_eq (source : String) (specifier : Node) :
    defaultName? specifier = (Scope.importBinding? source specifier).bind fun entry =>
      if entry.2.isDefaultImport then some entry.1 else none := by
  obtain ⟨span, form⟩ := specifier
  cases form <;> rfl

theorem map_defaultName?_eq_of_content (same : item.content = other.content) :
    item.specifiers.map defaultName? = other.specifiers.map defaultName? := by
  have through : ∀ item : ImportItem, item.specifiers.map defaultName? =
      item.content.2.map fun entry => entry.bind fun entry =>
        if entry.2.isDefaultImport then some entry.1 else none := by
    intro item
    rw [content, List.map_map]
    exact List.map_congr_left fun specifier _ => defaultName?_eq _ specifier
  rw [through, through, same]

/-- Imports that say the same bring in the same names. -/
theorem flatMap_bindings_eq_of_content {items others : List ImportItem}
    (same : items.map content = others.map content) : items.flatMap bindings = others.flatMap bindings := by
  have through : ∀ items : List ImportItem, items.flatMap bindings =
      (items.map content).flatMap fun said => said.2.filterMap id := by
    intro items
    rw [List.flatMap_map]
    refine List.flatMap_congr fun item _ => ?_
    rw [bindings, content, List.filterMap_map, Function.id_comp]
  rw [through, through, same]

theorem isKept_iff (scansStyles : Bool) (item : ImportItem) :
    ImportFate.ofItem {} scansStyles item = .kept ↔
      Imports.styleName? scansStyles item = none ∧ item.source.value ≠ ({} : Options).runtimeModule ∧
        (item.isRelative = true → item.specifiers.any (Imports.isResourceBinding {}) = false) := by
  unfold ImportFate.ofItem
  cases Imports.styleName? scansStyles item with
  | some name => simp
  | none =>
      by_cases isRuntime : item.source.value = ({} : Options).runtimeModule
      · simp [isRuntime]
      · cases item.isRelative <;> cases item.specifiers.any (Imports.isResourceBinding {}) <;>
          simp [isRuntime]

theorem isKept_iff_of_content (scansStyles : Bool) (same : item.content = other.content) :
    ImportFate.ofItem {} scansStyles item = .kept ↔ ImportFate.ofItem {} scansStyles other = .kept := by
  have source_eq := (Prod.mk.inj same).1
  have default_eq : item.specifiers.findSome? defaultName? = other.specifiers.findSome? defaultName? := by
    have through : ∀ specifiers : List Node, specifiers.findSome? defaultName? =
        (specifiers.map defaultName?).findSome? id := by
      intro specifiers
      rw [List.findSome?_map, Function.id_comp]
    rw [through, through, map_defaultName?_eq_of_content same]
  have resource_eq : item.specifiers.any (Imports.isResourceBinding {}) =
      other.specifiers.any (Imports.isResourceBinding {}) := by
    have through : ∀ specifiers : List Node, specifiers.any (Imports.isResourceBinding {}) =
        (specifiers.map defaultName?).any (· == some ({} : Options).resourceBinding) := by
      intro specifiers
      rw [List.any_map]
      rfl
    rw [through, through, map_defaultName?_eq_of_content same]
  have relative_eq : item.isRelative = other.isRelative := by rw [isRelative, isRelative, source_eq]
  have style_eq : Imports.styleName? scansStyles item = Imports.styleName? scansStyles other := by
    rw [Imports.styleName?, Imports.styleName?, isStyleSheet, isStyleSheet, relative_eq, source_eq,
      default_eq]
  rw [isKept_iff, isKept_iff, style_eq, source_eq, relative_eq, resource_eq]

end Content

/-- An import of the element module stays. -/
theorem isKept_of_isOfElements (scansStyles : Bool) {item : ImportItem}
    (elements : item.isOfElements = true) : ImportFate.ofItem {} scansStyles item = .kept := by
  have source_eq : item.source.value = "next-jsx" := by simpa [isOfElements] using elements
  have no_file : item.isRelative = false := by
    simp [isRelative, source_eq]
  rw [isKept_iff]
  refine ⟨by simp [Imports.styleName?, isStyleSheet, no_file], ?_, by simp [no_file]⟩
  rw [source_eq]
  decide

/-- Whether all imports have a property that those of the element module have does not change when the style
loader is added to one. -/
theorem forall_extendLast?_iff {property : ImportItem → Prop}
    (settled : ∀ item, item.isOfElements = true → property item) {items extended : List ImportItem}
    (extends_ : extendLast? items = some extended) :
    (∀ item ∈ extended, property item) ↔ ∀ item ∈ items, property item := by
  induction items generalizing extended with
  | nil => simp [extendLast?] at extends_
  | cons item rest ih =>
      rw [extendLast?] at extends_
      split at extends_
      · obtain ⟨later, later_eq, rfl⟩ := Option.map_eq_some_iff.mp extends_
        rw [List.forall_mem_cons, List.forall_mem_cons, ih later_eq]
      · split at extends_
        · rename_i last
          obtain rfl := Option.some.inj extends_
          have elements := (Bool.and_eq_true_iff.mp last).1
          rw [List.forall_mem_cons, List.forall_mem_cons]
          exact and_congr_left fun _ => iff_of_true (settled _ elements) (settled _ elements)
        · simp at extends_

/-- All imports after extraction have a property that those of the element module have exactly if all that
are left have it. -/
theorem forall_after_iff {property : ImportItem → Prop}
    (settled : ∀ item, item.isOfElements = true → property item) (scansStyles : Bool)
    (items : List ImportItem) :
    (∀ item ∈ after scansStyles items, property item) ↔
      ∀ item ∈ items, ∀ left ∈ item.left? scansStyles, property left := by
  have listed : (∀ left ∈ items.filterMap (left? scansStyles), property left) ↔
      ∀ item ∈ items, ∀ left ∈ item.left? scansStyles, property left := by
    simp only [List.mem_filterMap, Option.mem_def]
    exact ⟨fun each item member left left_eq => each left ⟨item, member, left_eq⟩,
      fun each left ⟨item, member, left_eq⟩ => each item member left left_eq⟩
  rw [after]
  split
  · rw [← listed]
    cases extended : extendLast? (items.filterMap (left? scansStyles)) with
    | none =>
        rw [Option.getD_none, List.forall_mem_cons]
        exact and_iff_right (settled _ (by decide +kernel))
    | some added => exact forall_extendLast?_iff settled extended
  · exact listed

/-- The default imports of a style sheet are those of the functions. -/
def NamesNoSheet (item : ImportItem) : Prop :=
  item.isStyleSheet = true → ∀ specifier ∈ item.specifiers,
    defaultName? specifier ≠ none → Imports.isResourceBinding {} specifier = true

theorem styleName?_eq_none_iff (item : ImportItem) :
    Imports.styleName? true item = none ↔
      (item.isStyleSheet = true → ∀ specifier ∈ item.specifiers, defaultName? specifier = none) := by
  cases isSheet : item.isStyleSheet with
  | false => simp [Imports.styleName?, isSheet]
  | true => simp [Imports.styleName?, isSheet, List.findSome?_eq_none_iff]

theorem mem_inWrittenOrder {specifiers : List Node} {specifier : Node} :
    specifier ∈ inWrittenOrder specifiers ↔ specifier ∈ specifiers := by
  simp only [inWrittenOrder, List.mem_append, List.mem_filter, Bool.not_eq_true']
  cases isNamed specifier <;> simp

/-- An import of which nothing is left is loaded or removed. -/
theorem of_left?_eq_none {scansStyles : Bool} {item : ImportItem} (lost : item.left? scansStyles = none) :
    (Imports.styleName? scansStyles item).isSome = true ∨
      item.source.value = ({} : Options).runtimeModule := by
  unfold left? ImportFate.ofItem at lost
  cases style : Imports.styleName? scansStyles item with
  | some name => exact .inl rfl
  | none =>
      right
      by_contra other
      simp only [style, beq_iff_eq, if_neg other] at lost
      by_cases restated : (item.isRelative && item.specifiers.any (Imports.isResourceBinding {})) = true
      · simp [restated] at lost
      · simp [restated] at lost

/-- What is left of an import has its specifiers but for the default import of the functions from a file of
the application. -/
theorem of_left?_eq_some {scansStyles : Bool} {item left : ImportItem}
    (left_eq : item.left? scansStyles = some left) :
    left.source = item.source ∧ item.source.value ≠ ({} : Options).runtimeModule ∧
      Imports.styleName? scansStyles item = none ∧ ∀ specifier, specifier ∈ left.specifiers ↔
        specifier ∈ item.specifiers ∧
          (item.isRelative = true → Imports.isResourceBinding {} specifier = false) := by
  unfold left? ImportFate.ofItem at left_eq
  cases style : Imports.styleName? scansStyles item with
  | some name => simp [style] at left_eq
  | none =>
      by_cases isRuntime : item.source.value = ({} : Options).runtimeModule
      · simp [style, isRuntime] at left_eq
      · simp only [style, beq_iff_eq, if_neg isRuntime] at left_eq
        by_cases restated : (item.isRelative && item.specifiers.any (Imports.isResourceBinding {})) = true
        · simp only [restated, if_true] at left_eq
          obtain rfl := Option.some.inj left_eq
          refine ⟨rfl, isRuntime, rfl, fun specifier => ?_⟩
          simp [mem_inWrittenOrder, (Bool.and_eq_true_iff.mp restated).1]
        · simp only [restated] at left_eq
          obtain rfl := Option.some.inj left_eq
          refine ⟨rfl, isRuntime, rfl, fun specifier => ?_⟩
          refine (and_iff_left_of_imp fun member relative => ?_).symm
          by_contra resource
          apply restated
          rw [relative, Bool.true_and, List.any_eq_true]
          exact ⟨specifier, member, by simpa using resource⟩

/-- What is left of an import stays, unless style sheets are looked for only now and it makes one known. -/
theorem left_isKept_iff (scansStyles rescansStyles : Bool) (item : ImportItem) :
    (∀ left ∈ item.left? scansStyles, ImportFate.ofItem {} rescansStyles left = .kept) ↔
      (rescansStyles = true → scansStyles = false → item.NamesNoSheet) := by
  cases left_eq : item.left? scansStyles with
  | none =>
      refine iff_of_true (by simp) fun _ unscanned isSheet => ?_
      rcases of_left?_eq_none left_eq with loaded | isRuntime
      · simp [unscanned, Imports.styleName?] at loaded
      · exact absurd isRuntime (ne_runtimeModule_of_isStyleSheet isSheet)
  | some left =>
      obtain ⟨source_eq, no_runtime, unloaded, listed⟩ := of_left?_eq_some left_eq
      have relative_eq : left.isRelative = item.isRelative := by rw [isRelative, isRelative, source_eq]
      have sheet_eq : left.isStyleSheet = item.isStyleSheet := by
        rw [isStyleSheet, isStyleSheet, relative_eq, source_eq]
      have no_resource :
          left.isRelative = true → left.specifiers.any (Imports.isResourceBinding {}) = false := by
        rw [relative_eq]
        intro relative
        rw [List.any_eq_false]
        intro specifier member
        simp [((listed specifier).mp member).2 relative]
      have isKept : ImportFate.ofItem {} rescansStyles left = .kept ↔
          Imports.styleName? rescansStyles left = none := by
        rw [isKept_iff, source_eq]
        exact and_iff_left ⟨no_runtime, no_resource⟩
      simp only [Option.mem_def, Option.some.injEq, forall_eq', isKept]
      cases rescansStyles with
      | false => simp [Imports.styleName?]
      | true =>
          rw [styleName?_eq_none_iff, sheet_eq]
          cases scansStyles with
          | true =>
              refine iff_of_true (fun isSheet specifier member => ?_) (by simp)
              have before := ((listed specifier).mp member).1
              exact (styleName?_eq_none_iff item).mp unloaded isSheet specifier before
          | false =>
              simp only [true_imp_iff, NamesNoSheet]
              refine imp_congr_right fun isSheet => ?_
              have relative := (Bool.and_eq_true_iff.mp isSheet).1
              refine forall_congr' fun specifier => ?_
              rw [listed, imp_iff_right relative]
              cases Imports.isResourceBinding {} specifier <;> simp

end ImportItem

end Storyboard
