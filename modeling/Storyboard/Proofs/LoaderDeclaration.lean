import Storyboard.Proofs.EditRanges

/-!
# The declaration of the style loader

A module that loads style sheets calls the style loader by its name, so that name should be declared once, in an
`import` from the element module. What a module declares after its imports are edited is what its statements leave,
and the import of the loader if that is added. The loader is added exactly if no import brings it in under its own
name; what else the name stands for is not looked at, and the main theorem says when that does no harm.
-/

namespace Storyboard

open Extraction

/-! ## What a module declares -/

/-- What a statement declares for its module: each name, as often as it is declared, with what it stands for. -/
def Node.statementDeclarations (statement : Node) : List (String × Binding) :=
  Scope.importBindings statement ++ (statement.lexicalNames ++ statement.varNames).map fun name => (name, .declared)

/-- What a module declares. -/
def Node.declarations (program : Node) : List (String × Binding) := program.children.flatMap statementDeclarations

/-- What is declared by what becomes of an import. -/
def ImportFate.declarations (item : ImportItem) : ImportFate → List (String × Binding)
  | kept => item.bindings
  | loaded name => [(name, .declared)]
  | removed => []
  | restated specifiers => specifiers.filterMap (Scope.importBinding? item.source.value)

/-- The declaration of the style loader by an import from the element module. -/
def Options.loaderDeclaration (options : Options) : String × Binding :=
  (options.styleLoader, .imported options.jsxModule (.named options.styleLoader))

/-- What the statements of a module declare once its imports are edited. -/
def Node.declarationsLeft (options : Options) (scansStyles : Bool) (program : Node) : List (String × Binding) :=
  program.children.flatMap fun statement =>
    match ImportItem.ofStatement? statement with
    | some item => (ImportFate.ofItem options scansStyles item).declarations item
    | none => statement.statementDeclarations

/-- What a module declares once its imports are edited and the style loader is added if it lacks. -/
def Node.declarationsAfter (options : Options) (scansStyles : Bool) (program : Node) : List (String × Binding) :=
  (if Imports.lacksLoader options scansStyles (ImportItem.ofProgram program) then [options.loaderDeclaration] else []) ++
    program.declarationsLeft options scansStyles

/-- The declarations of a name. -/
def declarationsOf (name : String) (declarations : List (String × Binding)) : List (String × Binding) :=
  declarations.filter fun declaration => declaration.1 == name

/-! ## Imports that bring in the style loader -/

/-- A specifier declares the style loader exactly if it imports it from the element module under its own name. -/
theorem importBinding?_eq_loaderDeclaration_iff {options : Options} {source : String} {specifier : Node} :
    Scope.importBinding? source specifier = some options.loaderDeclaration ↔
      source = options.jsxModule ∧ ImportItem.importsAsItself options.styleLoader specifier = true := by
  unfold Scope.importBinding? ImportItem.importsAsItself Options.loaderDeclaration
  cases specifier.form <;> simp
  tauto

namespace ImportItem

theorem loaderDeclaration_mem_bindings_iff {options : Options} {item : ImportItem} :
    options.loaderDeclaration ∈ item.bindings ↔
      item.source.value = options.jsxModule ∧ item.specifiers.any (importsAsItself options.styleLoader) = true := by
  rw [bindings, List.mem_filterMap, List.any_eq_true]
  simp only [importBinding?_eq_loaderDeclaration_iff]
  constructor
  · rintro ⟨specifier, member, source_eq, itself⟩
    exact ⟨source_eq, specifier, member, itself⟩
  · rintro ⟨source_eq, specifier, member, itself⟩
    exact ⟨specifier, member, source_eq, itself⟩

end ImportItem

section Loader

variable {options : Options} {scansStyles : Bool} {program : Node}

/-- What becomes of an import declares the style loader exactly if the import does, for an element module that is no
file of the application and not the runtime module. -/
theorem ImportFate.loaderDeclaration_mem_iff (foreign : options.jsxModule.startsWith "." = false)
    (differ : options.jsxModule ≠ options.runtimeModule) {item : ImportItem} :
    options.loaderDeclaration ∈ (ofItem options scansStyles item).declarations item ↔
      options.loaderDeclaration ∈ item.bindings := by
  by_cases source_eq : item.source.value = options.jsxModule
  · rw [ofItem_of_elements scansStyles foreign differ source_eq]
    rfl
  · have not_before : options.loaderDeclaration ∉ item.bindings := fun member =>
      source_eq (ImportItem.loaderDeclaration_mem_bindings_iff.mp member).1
    refine iff_of_false (fun member => ?_) not_before
    cases fate : ofItem options scansStyles item with
    | kept => exact not_before (by simpa [fate, declarations] using member)
    | loaded name => simp [fate, declarations, Options.loaderDeclaration] at member
    | removed => simp [fate, declarations] at member
    | restated specifiers =>
        rw [fate] at member
        obtain ⟨specifier, -, binds⟩ := List.mem_filterMap.mp member
        exact source_eq (importBinding?_eq_loaderDeclaration_iff.mp binds).1

theorem loaderDeclaration_not_mem_of_other {statement : Node} (other : ImportItem.ofStatement? statement = none) :
    options.loaderDeclaration ∉ statement.statementDeclarations := by
  have no_imports : Scope.importBindings statement = [] := by
    unfold Scope.importBindings
    split
    · rename_i form_eq
      simp [ImportItem.ofStatement?, form_eq] at other
    · rfl
  simp [Node.statementDeclarations, no_imports, Options.loaderDeclaration]

/-- The statements of a module leave a declaration of the style loader exactly if an import has it. -/
theorem loaderDeclaration_mem_left_iff (foreign : options.jsxModule.startsWith "." = false)
    (differ : options.jsxModule ≠ options.runtimeModule) :
    options.loaderDeclaration ∈ program.declarationsLeft options scansStyles ↔
      ∃ item ∈ ImportItem.ofProgram program, options.loaderDeclaration ∈ item.bindings := by
  rw [Node.declarationsLeft, List.mem_flatMap]
  constructor
  · rintro ⟨statement, statement_mem, member⟩
    cases imports : ImportItem.ofStatement? statement with
    | none =>
        rw [imports] at member
        exact absurd member (loaderDeclaration_not_mem_of_other imports)
    | some item =>
        rw [imports] at member
        exact ⟨item, List.mem_filterMap.mpr ⟨statement, statement_mem, imports⟩,
          (ImportFate.loaderDeclaration_mem_iff foreign differ).mp member⟩
  · rintro ⟨item, item_mem, member⟩
    obtain ⟨statement, statement_mem, imports⟩ := List.mem_filterMap.mp item_mem
    refine ⟨statement, statement_mem, ?_⟩
    rw [imports]
    exact (ImportFate.loaderDeclaration_mem_iff foreign differ).mpr member

/-- Where a style sheet is loaded, the loader lacks exactly if no declaration of it is left. -/
theorem lacksLoader_iff (foreign : options.jsxModule.startsWith "." = false)
    (differ : options.jsxModule ≠ options.runtimeModule)
    (loads : ∃ item ∈ ImportItem.ofProgram program, (Imports.styleName? scansStyles item).isSome = true) :
    Imports.lacksLoader options scansStyles (ImportItem.ofProgram program) = true ↔
      options.loaderDeclaration ∉ program.declarationsLeft options scansStyles := by
  have loads : ((ImportItem.ofProgram program).any fun item => (Imports.styleName? scansStyles item).isSome) = true :=
    List.any_eq_true.mpr loads
  rw [loaderDeclaration_mem_left_iff foreign differ, Imports.lacksLoader, loads, Bool.true_and, Bool.not_eq_true',
    ← Bool.not_eq_true, not_iff_not]
  simp [ImportItem.loaderDeclaration_mem_bindings_iff]

/-- After its imports are edited a module that loads a style sheet declares the style loader once exactly if its
statements leave no declaration of the name, or the one of the loader alone. -/
theorem declarationsOf_after_iff (foreign : options.jsxModule.startsWith "." = false)
    (differ : options.jsxModule ≠ options.runtimeModule)
    (loads : ∃ item ∈ ImportItem.ofProgram program, (Imports.styleName? scansStyles item).isSome = true) :
    declarationsOf options.styleLoader (program.declarationsAfter options scansStyles) = [options.loaderDeclaration] ↔
      declarationsOf options.styleLoader (program.declarationsLeft options scansStyles) = [] ∨
        declarationsOf options.styleLoader (program.declarationsLeft options scansStyles) =
          [options.loaderDeclaration] := by
  have lacks_iff := lacksLoader_iff foreign differ loads
  have listed : options.loaderDeclaration ∈
      declarationsOf options.styleLoader (program.declarationsLeft options scansStyles) ↔
        options.loaderDeclaration ∈ program.declarationsLeft options scansStyles := by
    simp [declarationsOf, Options.loaderDeclaration]
  rw [Node.declarationsAfter]
  cases lacks : Imports.lacksLoader options scansStyles (ImportItem.ofProgram program) with
  | true =>
      have missing := lacks_iff.mp lacks
      have added : declarationsOf options.styleLoader
          ([options.loaderDeclaration] ++ program.declarationsLeft options scansStyles) =
            options.loaderDeclaration ::
              declarationsOf options.styleLoader (program.declarationsLeft options scansStyles) := by
        simp [declarationsOf, Options.loaderDeclaration]
      rw [if_pos rfl, added, List.cons.injEq, and_iff_right rfl]
      refine (or_iff_left fun only => ?_).symm
      rw [← listed, only] at missing
      exact missing List.mem_cons_self
  | false =>
      have left : options.loaderDeclaration ∈ program.declarationsLeft options scansStyles := by
        by_contra missing
        rw [lacks_iff.mpr missing] at lacks
        cases lacks
      rw [if_neg (by simp), List.nil_append]
      refine (or_iff_right fun none => ?_).symm
      rw [← listed, none] at left
      cases left

end Loader

/-! ## What the name stands for -/

/-- A name that a module declares once stands for that declaration. -/
theorem get?_ofProgram_of_once {program : Node} {declaration : String × Binding} {source : String}
    {imported : ImportedName} (once : declarationsOf declaration.1 program.declarations = [declaration])
    (isImport : declaration.2 = .imported source imported) :
    Fields.get? (Scope.ofProgram program.children) declaration.1 = some declaration.2 := by
  have only : ∀ binding, (declaration.1, binding) ∈ program.declarations → binding = declaration.2 := by
    intro binding member
    have listed : (declaration.1, binding) ∈ declarationsOf declaration.1 program.declarations :=
      List.mem_filter.mpr ⟨member, beq_self_eq_true _⟩
    rw [once, List.mem_singleton] at listed
    rw [← listed]
  have named : declaration ∈ program.declarations := by
    have listed : declaration ∈ declarationsOf declaration.1 program.declarations := once ▸ List.mem_singleton_self _
    exact (List.mem_filter.mp listed).1
  have undeclared : ¬Node.DeclaresInBody program.children declaration.1 := by
    intro declares
    have local_ : (declaration.1, Binding.declared) ∈ program.declarations := by
      rw [← Node.mem_hoistedNames_iff, List.mem_flatMap, List.mem_flatMap] at declares
      rw [Node.declarations, List.mem_flatMap]
      rcases declares with ⟨statement, member, name_mem⟩ | ⟨statement, member, name_mem⟩ <;>
        exact ⟨statement, member, by simp [Node.statementDeclarations, name_mem]⟩
    rw [← only _ local_] at isImport
    cases isImport
  rw [Scope.get?_ofProgram, if_neg undeclared]
  cases found : (program.children.flatMap Scope.importBindings).reverse.lookup declaration.1 with
  | some binding =>
      obtain ⟨front, back, entries_eq, -⟩ := List.lookup_eq_some_iff.mp found
      have member : (declaration.1, binding) ∈ program.children.flatMap Scope.importBindings := by
        rw [← List.mem_reverse, entries_eq]
        simp
      obtain ⟨statement, statement_mem, member⟩ := List.mem_flatMap.mp member
      rw [only binding (List.mem_flatMap.mpr ⟨statement, statement_mem, List.mem_append_left _ member⟩)]
  | none =>
      obtain ⟨statement, statement_mem, member⟩ := List.mem_flatMap.mp named
      rcases List.mem_append.mp member with member | member
      · have missing := List.lookup_eq_none_iff.mp found declaration
          (List.mem_reverse.mpr (List.mem_flatMap.mpr ⟨statement, statement_mem, member⟩))
        simp at missing
      · obtain ⟨name, -, rfl⟩ := List.mem_map.mp member
        cases isImport

/-- A module that declares the style loader once calls it by its name. -/
theorem isStyleLoader_of_once {options : Options} {program : Node}
    (once : declarationsOf options.styleLoader program.declarations = [options.loaderDeclaration]) :
    Resolver.isStyleLoader ⟨options, [Scope.ofProgram program.children]⟩ options.styleLoader = true := by
  have found : Fields.get? (Scope.ofProgram program.children) options.styleLoader = some options.loaderDeclaration.2 :=
    @get?_ofProgram_of_once program options.loaderDeclaration _ _ once rfl
  have looked : Resolver.lookup ⟨options, [Scope.ofProgram program.children]⟩ options.styleLoader =
      some options.loaderDeclaration.2 := by simp [Resolver.lookup, ScopeStack.lookup, found]
  simp [Resolver.isStyleLoader, looked, Options.loaderDeclaration, Binding.isNamedImport]

/-! ## The edit that adds the loader -/

/-- An edit adds the import of the style loader: as a new import at the beginning, or among the names of an import of
the element module. -/
inductive AddsLoader (source : SourceText) (options : Options) (items : List ImportItem) : Edit → Prop
  | fresh : AddsLoader source options items (.insertion 0
      ("import \x7b " ++ options.styleLoader ++ " \x7d from " ++ Json.quote options.jsxModule ++ ";\n"))
  | joined {host : ImportItem} : host ∈ items → host.source.value = options.jsxModule →
      host.specifiers.any ImportItem.isNamespace = false →
      AddsLoader source options items (Imports.restate source host host.specifiers [options.styleLoader])

theorem addsLoader_loaderEdit (source : SourceText) (options : Options) (items : List ImportItem) :
    AddsLoader source options items (Imports.loaderEdit source options (Imports.elementImport? options items)) := by
  cases found : Imports.elementImport? options items with
  | none => exact .fresh
  | some host =>
      have listed := List.mem_filter.mp (List.mem_of_getLast? found)
      rw [Imports.loaderEdit]
      cases takesAll : host.specifiers.any ImportItem.isNamespace with
      | true => exact .fresh
      | false => exact .joined listed.1 (eq_of_beq listed.2) takesAll

/-- For an element module that is no file of the application and not the runtime module, the imports of a module are
edited one by one, and an edit that adds the style loader may follow. It does not if no style sheet is loaded. If one
is, a module that declares what is left and what is added declares the loader exactly once, by an import of that name
from the element module, and its calls of that name are calls of the loader, exactly if the statements of the module
leave no declaration of the name, or that import alone. -/
theorem loader_is_declared_once_iff (source : SourceText) (processCss : Bool) (program : Node) {options : Options}
    (foreign : options.jsxModule.startsWith "." = false) (differ : options.jsxModule ≠ options.runtimeModule) :
    (∃ added, Imports.edits source options processCss program =
        (ImportItem.ofProgram program).filterMap
          (Imports.edit? source options (source.scansStyles processCss)) ++ added ∧
      (added = [] ∨ ∃ edit, added = [edit] ∧ AddsLoader source options (ImportItem.ofProgram program) edit) ∧
      ((∀ item ∈ ImportItem.ofProgram program, Imports.styleName? (source.scansStyles processCss) item = none) →
        added = [] ∧ program.declarationsAfter options (source.scansStyles processCss) =
          program.declarationsLeft options (source.scansStyles processCss))) ∧
      ((∃ item ∈ ImportItem.ofProgram program,
          (Imports.styleName? (source.scansStyles processCss) item).isSome = true) →
        ∀ again : Node,
          again.declarations.Perm (program.declarationsAfter options (source.scansStyles processCss)) →
          (declarationsOf options.styleLoader again.declarations = [options.loaderDeclaration] ∧
              Resolver.isStyleLoader ⟨options, [Scope.ofProgram again.children]⟩ options.styleLoader = true ↔
            declarationsOf options.styleLoader
                (program.declarationsLeft options (source.scansStyles processCss)) = [] ∨
              declarationsOf options.styleLoader
                (program.declarationsLeft options (source.scansStyles processCss)) = [options.loaderDeclaration])) := by
  rw [Imports.edits_eq_editsGiven]
  generalize source.scansStyles processCss = scansStyles
  constructor
  · refine ⟨_, rfl, ?_, fun unloaded => ?_⟩
    · cases Imports.lacksLoader options scansStyles (ImportItem.ofProgram program) with
      | true => exact .inr ⟨_, rfl, addsLoader_loaderEdit source options _⟩
      | false => exact .inl rfl
    · have loads_none :
          ((ImportItem.ofProgram program).any fun item => (Imports.styleName? scansStyles item).isSome) = false := by
        rw [List.any_eq_false]
        intro item member
        simp [unloaded item member]
      have present : Imports.lacksLoader options scansStyles (ImportItem.ofProgram program) = false := by
        rw [Imports.lacksLoader, loads_none, Bool.false_and]
      simp [Node.declarationsAfter, present]
  · intro loads again declares
    have same : declarationsOf options.styleLoader again.declarations = [options.loaderDeclaration] ↔
        declarationsOf options.styleLoader (program.declarationsAfter options scansStyles) =
          [options.loaderDeclaration] := by
      have filtered := declares.filter fun declaration => declaration.1 == options.styleLoader
      rw [← List.perm_singleton, ← List.perm_singleton]
      exact ⟨fun once => filtered.symm.trans once, fun once => filtered.trans once⟩
    rw [← declarationsOf_after_iff foreign differ loads, ← same]
    exact and_iff_left_of_imp isStyleLoader_of_once

/-- Whether the edits of a module are ordered and leave a text that is read as a module that passes a check. -/
def SourceText.isReadAfter (source : SourceText) (check : SourceModule → String → SourceModule → Bool) : Bool :=
  passes (source.parse source.dialect) fun module => passes (findings source {} module.program) fun found =>
    let importEdits := Imports.edits source {} true module.program
    let edits := found.edits ++ importEdits
    !(found.edits.isEmpty && importEdits.isEmpty) &&
      Decidable.decide (edits.Pairwise fun first second => Edit.precedes first second = true) &&
      (edits.foldlM Edit.perform? source.text.toList).any fun text =>
        passes (SourceText.parse ⟨source.file, String.ofList text⟩ source.dialect) fun again =>
          check module (String.ofList text) again

theorem SourceText.exists_of_isReadAfter {source : SourceText} {check : SourceModule → String → SourceModule → Bool}
    (isRead : source.isReadAfter check = true) :
    ∃ (module : SourceModule) (extraction : Extraction) (code : String) (again : SourceModule),
      source.parse source.dialect = .ok module ∧ run source {} true = .ok extraction ∧ extraction.code = some code ∧
        SourceText.parse ⟨source.file, code⟩ source.dialect = .ok again ∧ check module code again = true := by
  obtain ⟨module, parsed, isRead⟩ := exists_of_passes isRead
  obtain ⟨found, walked, isRead⟩ := exists_of_passes isRead
  simp only [Bool.and_eq_true, Bool.not_eq_true', decide_eq_true_eq] at isRead
  obtain ⟨⟨some_edits, ordered⟩, isRead⟩ := isRead
  obtain ⟨text, performed, isRead⟩ := (Option.any_eq_true _ _).mp isRead
  obtain ⟨again, reread, checked⟩ := exists_of_passes isRead
  have extracted : run source {} true = .ok ⟨some (String.ofList text), found.warnings, found.edits.length⟩ := by
    rw [run_of_findings parsed walked, assemble, splice?_of_pairwise ordered, performed, some_edits]
    rfl
  exact ⟨module, _, _, again, parsed, extracted, rfl, reread, checked⟩

/-- A source with an import of the element module and one of a style sheet. -/
def sheetBesideHost :
    { source : SourceText //
      source.text = "import\x7ba\x7dfrom\"next-jsx\";import s from \"./x.css\";[s]" ∧
        source.isReadAfter (fun module _ again =>
          ((ImportItem.ofProgram module.program).any fun item =>
            (Imports.styleName? (source.scansStyles true) item).isSome) &&
          Decidable.decide
            (again.program.declarations.Perm (module.program.declarationsAfter {} (source.scansStyles true)) ∧
              declarationsOf "loadStyleText" (module.program.declarationsLeft {} (source.scansStyles true)) = [])) =
            true } :=
  ⟨⟨"a.js", "import\x7ba\x7dfrom\"next-jsx\";import s from \"./x.css\";[s]"⟩, rfl, by decide +kernel⟩

/-- An import of the element module takes the style loader, which the new module declares once. -/
theorem loader_joins_import :
    ∃ (source : SourceText) (module : SourceModule) (extraction : Extraction) (code : String) (again : SourceModule),
      source.text = "import\x7ba\x7dfrom\"next-jsx\";import s from \"./x.css\";[s]" ∧
        source.parse source.dialect = .ok module ∧ run source {} true = .ok extraction ∧
        extraction.code = some code ∧ SourceText.parse ⟨source.file, code⟩ source.dialect = .ok again ∧
        (∃ item ∈ ImportItem.ofProgram module.program,
          (Imports.styleName? (source.scansStyles true) item).isSome = true) ∧
        again.program.declarations.Perm (module.program.declarationsAfter {} (source.scansStyles true)) ∧
        declarationsOf "loadStyleText" again.program.declarations =
          [("loadStyleText", .imported "next-jsx" (.named "loadStyleText"))] ∧
        Resolver.isStyleLoader ⟨{}, [Scope.ofProgram again.program.children]⟩ "loadStyleText" = true := by
  obtain ⟨source, text, settled⟩ := sheetBesideHost
  obtain ⟨module, extraction, code, again, parsed, extracted, written, reread, checked⟩ :=
    SourceText.exists_of_isReadAfter settled
  obtain ⟨loads, fine⟩ := Bool.and_eq_true_iff.mp checked
  obtain ⟨declares, none_left⟩ := of_decide_eq_true fine
  have loads := List.any_eq_true.mp loads
  have foreign : ({} : Options).jsxModule.startsWith "." = false := by simp
  obtain ⟨-, once_iff⟩ := loader_is_declared_once_iff source true module.program foreign (by decide)
  obtain ⟨once, called⟩ := (once_iff loads again.program declares).mpr (.inl none_left)
  exact ⟨source, module, extraction, code, again, text, parsed, extracted, written, reread, loads, declares, once, called⟩

/-- A source with an import of a style sheet and a variable that has the name of the style loader. -/
def sheetBesideVariable :
    { source : SourceText // source.text = "import s from \"./a.css\";let loadStyleText;[s]" ∧
      source.isReadAfter (fun _ code again => Decidable.decide
        (code = "import \x7b loadStyleText \x7d from \"next-jsx\";\n" ++
            "const s = loadStyleText(\"./a.css\", import.meta.url);let loadStyleText;[s]" ∧
          declarationsOf "loadStyleText" again.program.declarations =
            [("loadStyleText", .imported "next-jsx" (.named "loadStyleText")), ("loadStyleText", .declared)])) = true } :=
  ⟨⟨"a.js", "import s from \"./a.css\";let loadStyleText;[s]"⟩, rfl, by decide +kernel⟩

/-- A variable that has the name of the style loader is declared a second time when the loader is added. -/
theorem loader_clashes_with_variable :
    ∃ (source : SourceText) (extraction : Extraction) (code : String) (again : SourceModule),
      source.text = "import s from \"./a.css\";let loadStyleText;[s]" ∧ run source {} true = .ok extraction ∧
        extraction.code = some code ∧
        code = "import \x7b loadStyleText \x7d from \"next-jsx\";\n" ++
          "const s = loadStyleText(\"./a.css\", import.meta.url);let loadStyleText;[s]" ∧
        SourceText.parse ⟨source.file, code⟩ source.dialect = .ok again ∧
        declarationsOf "loadStyleText" again.program.declarations =
          [("loadStyleText", .imported "next-jsx" (.named "loadStyleText")), ("loadStyleText", .declared)] := by
  obtain ⟨source, text, settled⟩ := sheetBesideVariable
  obtain ⟨module, extraction, code, again, -, extracted, written, reread, checked⟩ :=
    SourceText.exists_of_isReadAfter settled
  obtain ⟨code_eq, twice⟩ := of_decide_eq_true checked
  exact ⟨source, extraction, code, again, text, extracted, written, code_eq, reread, twice⟩

end Storyboard
