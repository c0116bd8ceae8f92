import Mathlib.Data.List.Induction
import Storyboard.FunctionIndex
import Storyboard.Proofs.RestatedImports
import Storyboard.Proofs.TextLiterals

/-!
# The functions of an index

An index of functions exports one object by default, itself or by the name of a variable. Each name that the
object lists as a value is loaded once, in the order of its first mention, from the module that the index imports
by default under that name. The module that does so is generated exactly if every listed name is imported so; and
the text that names a module in it stands for the same as the text in the index, unless that holds a half of a pair
of code units.
-/

namespace Storyboard

namespace FunctionIndex

/-! ## What an index says -/

/-- A declarator gives a value to a single name. -/
def Initializes (declarator : Node) (name : String) (value : Node) : Prop :=
  ∃ head pattern, declarator.form = .declarator head pattern (some value) ∧ pattern.form = .binding name

/-- The first value that a declaration at the top level of a module gives to a name. -/
def FirstValue (program : Node) (name : String) (value : Node) : Prop :=
  ∃ before declarator after, program.children.flatMap declarators = before ++ declarator :: after ∧
    Initializes declarator name value ∧ ∀ earlier ∈ before, ∀ other, ¬Initializes earlier name other

/-- The properties of the object that a module exports by a default export of a value: those of the value if it is
an object, and those of the first value of its name if it is a name. -/
inductive Exports (program : Node) : Node → List Node → Prop
  | object {value : Node} {properties : List Node} (form_eq : value.form = .object properties) :
      Exports program value properties
  | named {value initial : Node} {name : String} {properties : List Node} (form_eq : value.form = .identifier name)
      (first : FirstValue program name initial) (initial_eq : initial.form = .object properties) :
      Exports program value properties

/-- The names that stand as values in properties, in order. -/
def listing (properties : List Node) : List String := properties.filterMap listedName?

/-- The modules that are imported by default and the names that they are given, in order. -/
def defaultBindings (program : Node) : List (String × ModuleName) :=
  (ImportItem.ofProgram program).flatMap fun item =>
    (item.specifiers.filterMap ImportItem.defaultName?).map fun name => (name, item.source)

/-- The module that is imported by default under a name; of several the last one. -/
def DefaultImport (program : Node) (name : String) (module : ModuleName) : Prop :=
  (defaultBindings program).reverse.lookup name = some module

/-- The entry that loads a function from a module. -/
def loading (options : Options) (name : String) (module : ModuleName) : String :=
  "  " ++ name ++ ": " ++ options.functionLoader ++ "(" ++ Json.quote module.value ++ ", import.meta.url)"

/-- What is generated from a module with at most one default export. -/
inductive Outcome (source : SourceText) (options : Options) (program : Node) :
    Except CompileError (Option String) → Prop
  /-- Nothing is generated without a default export. -/
  | noExport (no_export : program.children.filterMap defaultExport? = []) : Outcome source options program (.ok none)
  /-- A name that is exported has to be that of a variable whose first value is an object. -/
  | unbound {exported value : Node} {name : String}
      (single : program.children.filterMap defaultExport? = [(exported, value)])
      (form_eq : value.form = .identifier name) (no_object : ∀ properties, ¬Exports program value properties) :
      Outcome source options program (.error (failure source ("No binding variable for functions: " ++ name) value))
  /-- Besides names only objects can be exported. -/
  | invalid {exported value : Node} (single : program.children.filterMap defaultExport? = [(exported, value)])
      (no_name : ∀ name, value.form ≠ .identifier name) (no_object : ∀ properties, ¬Exports program value properties) :
      Outcome source options program
        (.error (failure source ("invalid export default in file " ++ source.file) exported))
  /-- Nothing is generated if the object lists no name. -/
  | unlisted {exported value : Node} {properties : List Node}
      (single : program.children.filterMap defaultExport? = [(exported, value)])
      (exports : Exports program value properties) (nothing : listing properties = []) :
      Outcome source options program (.ok none)
  /-- The first listed name that is not imported by default is reported. -/
  | unknown {exported value : Node} {properties : List Node} {before after : List String} {name : String}
      (single : program.children.filterMap defaultExport? = [(exported, value)])
      (exports : Exports program value properties) (listed : (listing properties).eraseDups = before ++ name :: after)
      (known : ∀ other ∈ before, ∃ module, DefaultImport program other module)
      (missing : ∀ module, ¬DefaultImport program name module) :
      Outcome source options program
        (.error (failure source ("function \"" ++ name ++ "\" is not default-imported") program))
  /-- Otherwise each listed name has one entry, in the order of first mention. -/
  | generated {exported value : Node} {properties : List Node} {functions : List (String × ModuleName)}
      (single : program.children.filterMap defaultExport? = [(exported, value)])
      (exports : Exports program value properties)
      (listed : (listing properties).eraseDups = functions.map Prod.fst) (some_function : functions ≠ [])
      (imported : ∀ function ∈ functions, DefaultImport program function.1 function.2) :
      Outcome source options program
        (.ok (some (render options (functions.map fun function => loading options function.1 function.2))))

/-! ## Distinct names -/

theorem distinct_eq_eraseDups (names : List String) : distinct names = names.eraseDups := by
  induction names using List.reverseRecOn with
  | nil => rfl
  | append_singleton names name ih =>
      have last : distinct (names ++ [name]) =
          if (distinct names).contains name then distinct names else distinct names ++ [name] := by
        rw [distinct, List.foldl_append]
        rfl
      rw [last, ih, Fields.eraseDups_concat]
      simp

/-! ## The exported object -/

variable {source : SourceText} {options : Options} {program : Node}

theorem valueOf?_eq_some_iff {name : String} {declarator value : Node} :
    valueOf? name declarator = some value ↔ Initializes declarator name value := by
  constructor
  · intro given
    unfold valueOf? at given
    split at given
    · rename_i head pattern value' form_eq
      split at given
      · rename_i declared pattern_eq
        split_ifs at given with same
        obtain rfl := eq_of_beq same
        subst given
        exact ⟨head, pattern, form_eq, pattern_eq⟩
      · cases given
    · cases given
  · rintro ⟨head, pattern, form_eq, pattern_eq⟩
    simp [valueOf?, form_eq, pattern_eq]

theorem topLevelValue?_eq_some_iff {name : String} {value : Node} :
    topLevelValue? program name = some value ↔ FirstValue program name value := by
  have flat : topLevelValue? program name = (program.children.flatMap declarators).findSome? (valueOf? name) := by
    rw [topLevelValue?]
    induction program.children with
    | nil => rfl
    | cons statement statements ih =>
        rw [List.findSome?_cons, List.flatMap_cons, List.findSome?_append, ← ih]
        cases (declarators statement).findSome? (valueOf? name) <;> rfl
  rw [flat, List.findSome?_eq_some_iff, FirstValue]
  simp only [valueOf?_eq_some_iff, Option.eq_none_iff_forall_ne_some, ne_eq]

theorem FirstValue.unique {name : String} {value other : Node} (first : FirstValue program name value)
    (also : FirstValue program name other) : value = other :=
  Option.some.inj ((topLevelValue?_eq_some_iff.mpr first).symm.trans (topLevelValue?_eq_some_iff.mpr also))

theorem properties?_eq_some_iff {node : Node} {properties : List Node} :
    properties? node = some properties ↔ node.form = .object properties := by
  unfold properties?
  split
  · rename_i form_eq
    rw [form_eq, Option.some.injEq, Form.object.injEq]
  · rename_i no_object
    simpa using no_object properties

theorem exports_of_name_iff {value : Node} {name : String} (form_eq : value.form = .identifier name)
    {properties : List Node} :
    Exports program value properties ↔ (topLevelValue? program name).bind properties? = some properties := by
  simp only [Option.bind_eq_some_iff, topLevelValue?_eq_some_iff, properties?_eq_some_iff]
  constructor
  · intro exports
    cases exports with
    | object object_eq => cases form_eq.symm.trans object_eq
    | named named_eq first initial_eq =>
        cases form_eq.symm.trans named_eq
        exact ⟨_, first, initial_eq⟩
  · rintro ⟨initial, first, initial_eq⟩
    exact .named form_eq first initial_eq

theorem exportedProperties_of_exports {exported value : Node} {properties : List Node}
    (exports : Exports program value properties) : exportedProperties source program exported value = .ok properties := by
  cases exports with
  | object form_eq => simp [exportedProperties, form_eq]
  | named form_eq first initial_eq =>
      have found := (exports_of_name_iff form_eq).mp (.named form_eq first initial_eq)
      simp [exportedProperties, form_eq, found]

theorem exportedProperties_of_name {exported value : Node} {name : String} (form_eq : value.form = .identifier name)
    (no_object : ∀ properties, ¬Exports program value properties) :
    exportedProperties source program exported value =
      .error (failure source ("No binding variable for functions: " ++ name) value) := by
  have none_found : (topLevelValue? program name).bind properties? = none :=
    Option.eq_none_iff_forall_ne_some.mpr fun properties found =>
      no_object properties ((exports_of_name_iff form_eq).mpr found)
  simp [exportedProperties, form_eq, none_found]

theorem exportedProperties_of_other {exported value : Node} (no_name : ∀ name, value.form ≠ .identifier name)
    (no_object : ∀ properties, ¬Exports program value properties) :
    exportedProperties source program exported value =
      .error (failure source ("invalid export default in file " ++ source.file) exported) := by
  unfold exportedProperties
  split
  · rename_i form_eq
    exact absurd form_eq (no_name _)
  · rename_i form_eq
    exact absurd (.object form_eq) (no_object _)
  · rfl

/-! ## The imports of an index -/

theorem defaultImports_eq (program : Node) :
    defaultImports program = .ofEntries ((defaultBindings program).map fun entry => (entry.1, entry.2.value)) := by
  rw [defaultImports, defaultBindings, Fields.ofEntries]
  generalize ([] : Fields String) = acc
  induction ImportItem.ofProgram program generalizing acc with
  | nil => rfl
  | cons item items ih =>
      rw [List.foldl_cons, ih, List.flatMap_cons, List.map_append, Fields.setAll, Fields.setAll, List.foldl_append]
      congr 1
      rw [List.map_map, List.foldl_map]
      rfl

theorem get?_defaultImports (program : Node) (name : String) :
    Fields.get? (defaultImports program) name =
      ((defaultBindings program).reverse.lookup name).map ModuleName.value := by
  rw [defaultImports_eq, Fields.ofEntries, Fields.get?_setAll, Fields.get?, Option.or_none, ← List.map_reverse]
  induction (defaultBindings program).reverse with
  | nil => rfl
  | cons entry entries ih =>
      rw [List.map_cons, List.lookup_cons, List.lookup_cons, ih]
      cases name == entry.1 <;> rfl

theorem entry_of_defaultImport {name : String} {module : ModuleName} (imported : DefaultImport program name module) :
    entry source options program (defaultImports program) name = .ok (loading options name module) := by
  have found : (defaultBindings program).reverse.lookup name = some module := imported
  rw [entry, get?_defaultImports, found]
  rfl

theorem entry_of_missing {name : String} (missing : ∀ module, ¬DefaultImport program name module) :
    entry source options program (defaultImports program) name =
      .error (failure source ("function \"" ++ name ++ "\" is not default-imported") program) := by
  have not_found : (defaultBindings program).reverse.lookup name = none :=
    Option.eq_none_iff_forall_ne_some.mpr missing
  rw [entry, get?_defaultImports, not_found]
  rfl

/-! ## What is generated -/

theorem listedNames_of_single {exported value : Node}
    (single : program.children.filterMap defaultExport? = [(exported, value)]) :
    listedNames source program = (exportedProperties source program exported value).map fun properties =>
      (listing properties).eraseDups := by
  rw [listedNames, single]
  cases found : exportedProperties source program exported value with
  | error error => simp [found, Except.map, bind, Except.bind]
  | ok properties =>
      simp [found, Except.map, bind, Except.bind, pure, Except.pure, distinct_eq_eraseDups, listing]

theorem mapM_entry_of_defaultImports {functions : List (String × ModuleName)}
    (imported : ∀ function ∈ functions, DefaultImport program function.1 function.2) :
    (functions.map Prod.fst).mapM (entry source options program (defaultImports program)) =
      .ok (functions.map fun function => loading options function.1 function.2) := by
  induction functions with
  | nil => rfl
  | cons function functions ih =>
      obtain ⟨first, rest⟩ := List.forall_mem_cons.mp imported
      rw [List.map_cons, List.mapM_cons, entry_of_defaultImport first, ih rest]
      rfl

theorem mapM_entry_of_missing {before after : List String} {name : String}
    (known : ∀ other ∈ before, ∃ module, DefaultImport program other module)
    (missing : ∀ module, ¬DefaultImport program name module) :
    (before ++ name :: after).mapM (entry source options program (defaultImports program)) =
      .error (failure source ("function \"" ++ name ++ "\" is not default-imported") program) := by
  induction before with
  | nil =>
      rw [List.nil_append, List.mapM_cons, entry_of_missing missing]
      rfl
  | cons other before ih =>
      obtain ⟨⟨module, imported⟩, rest⟩ := List.forall_mem_cons.mp known
      rw [List.cons_append, List.mapM_cons, entry_of_defaultImport imported, ih rest]
      rfl

variable {module : SourceModule}

theorem generate_eq (parsed : source.parse source.dialect = .ok module) :
    generate source options = (do
      let names ← listedNames source module.program
      if names.isEmpty then return none
      else return some (render options
        (← names.mapM (entry source options module.program (defaultImports module.program))))) := by
  rw [generate, parsed]
  rfl

theorem generate_of_outcome (parsed : source.parse source.dialect = .ok module)
    {result : Except CompileError (Option String)} (outcome : Outcome source options module.program result) :
    generate source options = result := by
  rw [generate_eq parsed]
  cases outcome with
  | noExport no_export =>
      rw [listedNames, no_export]
      rfl
  | unbound single form_eq no_object =>
      rw [listedNames_of_single single, exportedProperties_of_name form_eq no_object]
      rfl
  | invalid single no_name no_object =>
      rw [listedNames_of_single single, exportedProperties_of_other no_name no_object]
      rfl
  | unlisted single exports nothing =>
      rw [listedNames_of_single single, exportedProperties_of_exports exports, Except.map, nothing]
      rfl
  | unknown single exports listed known missing =>
      rw [listedNames_of_single single, exportedProperties_of_exports exports, Except.map, listed]
      simp [mapM_entry_of_missing known missing, bind, Except.bind]
  | generated single exports listed some_function imported =>
      rw [listedNames_of_single single, exportedProperties_of_exports exports, Except.map, listed]
      simp [mapM_entry_of_defaultImports imported, some_function, bind, Except.bind, pure, Except.pure]

/-- Names are all imported by default, or there is a first one that is not. -/
theorem imported_or_missing (program : Node) (names : List String) :
    (∃ functions : List (String × ModuleName), names = functions.map Prod.fst ∧
      ∀ function ∈ functions, DefaultImport program function.1 function.2) ∨
    ∃ before name after, names = before ++ name :: after ∧
      (∀ other ∈ before, ∃ module, DefaultImport program other module) ∧
      ∀ module, ¬DefaultImport program name module := by
  induction names with
  | nil => exact .inl ⟨[], rfl, nofun⟩
  | cons name names ih =>
      by_cases imported : ∃ module, DefaultImport program name module
      · obtain ⟨module, first⟩ := imported
        rcases ih with ⟨functions, rfl, rest⟩ | ⟨before, other, after, rfl, known, missing⟩
        · exact .inl ⟨(name, module) :: functions, rfl, List.forall_mem_cons.mpr ⟨first, rest⟩⟩
        · exact .inr ⟨name :: before, other, after, rfl, List.forall_mem_cons.mpr ⟨⟨module, first⟩, known⟩, missing⟩
      · exact .inr ⟨[], name, names, rfl, nofun, not_exists.mp imported⟩

/-- Every module with at most one default export has an outcome. -/
theorem exists_outcome (source : SourceText) (options : Options)
    (single : (program.children.filterMap defaultExport?).length ≤ 1) :
    ∃ result, Outcome source options program result := by
  match exported_eq : program.children.filterMap defaultExport?, single with
  | [], _ => exact ⟨_, .noExport exported_eq⟩
  | [(exported, value)], _ =>
      by_cases object : ∃ properties, Exports program value properties
      · obtain ⟨properties, exports⟩ := object
        by_cases nothing : listing properties = []
        · exact ⟨_, .unlisted exported_eq exports nothing⟩
        · rcases imported_or_missing program (listing properties).eraseDups with
            ⟨functions, listed, imported⟩ | ⟨before, name, after, listed, known, missing⟩
          · refine ⟨_, .generated exported_eq exports listed ?_ imported⟩
            rintro rfl
            obtain ⟨name, member⟩ := List.exists_mem_of_ne_nil _ nothing
            have kept := List.mem_eraseDups.mpr member
            rw [listed] at kept
            cases kept
          · exact ⟨_, .unknown exported_eq exports listed known missing⟩
      · have no_object := not_exists.mp object
        by_cases named : ∃ name, value.form = .identifier name
        · obtain ⟨name, form_eq⟩ := named
          exact ⟨_, .unbound exported_eq form_eq no_object⟩
        · exact ⟨_, .invalid exported_eq (not_exists.mp named) no_object⟩

/-- What an index gives is what its only default export, its variables and its default imports say, if there is at
most one such export. In what is generated, the text that names a module stands for the same code units as the text
in the index exactly if that has no half of a pair among them. -/
theorem generate_lists_imported_functions_iff (parsed : source.parse source.dialect = .ok module)
    (single : (module.program.children.filterMap defaultExport?).length ≤ 1)
    (result : Except CompileError (Option String)) :
    (generate source options = result ↔ Outcome source options module.program result) ∧
      ∀ name imported, DefaultImport module.program name imported →
        (Lexer.literalUnits? (Json.quote imported.value).toList =
            Lexer.literalUnits? (Text.sliceString source.text imported.span.start imported.span.stop).toList ↔
          ¬Lexer.HasLoneHalf (Text.sliceString source.text imported.span.start imported.span.stop).toList) := by
  refine ⟨⟨?_, generate_of_outcome parsed⟩, fun name imported found => ?_⟩
  · rintro rfl
    obtain ⟨result, outcome⟩ := exists_outcome source options single
    rwa [generate_of_outcome parsed outcome]
  · have listed : (name, imported) ∈ defaultBindings module.program := by
      obtain ⟨before, after, split, -⟩ := List.lookup_eq_some_iff.mp found
      exact List.mem_reverse.mp (split ▸ by simp)
    obtain ⟨item, member, names⟩ := List.mem_flatMap.mp listed
    obtain ⟨_, -, same⟩ := List.mem_map.mp names
    cases same
    obtain ⟨said, hasHalves, -, -, -, value_eq, -, token⟩ := exists_said_of_mem_ofProgram parsed member
    rw [← value_eq]
    exact Lexer.literalUnits?_quote_iff token

/-- An index that exports a variable, and lists one function twice in it. -/
def repeatedFunction :
    { source : SourceText //
      source.text = "import a from \"./a\";const FN=\x7ba,b:a\x7d;export default FN" ∧
        passes (source.parse source.dialect) (fun module =>
          decide ((module.program.children.filterMap defaultExport?).length ≤ 1)) = true ∧
        passes (generate source {}) (fun text => text == some ("import \x7b loadFunction \x7d from \"next-jsx\";\n" ++
          "export default \x7b\n  a: loadFunction(\"./a\", import.meta.url)\n\x7d;\n")) = true } :=
  ⟨⟨"index.js", "import a from \"./a\";const FN=\x7ba,b:a\x7d;export default FN"⟩, rfl, by decide +kernel,
    by decide +kernel⟩

/-- An index that exports a variable by its name, and lists one function twice. -/
theorem function_that_is_listed_twice_is_loaded_once :
    ∃ (source : SourceText) (module : SourceModule),
      source.text = "import a from \"./a\";const FN=\x7ba,b:a\x7d;export default FN" ∧
        source.parse source.dialect = .ok module ∧
        (module.program.children.filterMap defaultExport?).length ≤ 1 ∧
        Outcome source {} module.program (.ok (some ("import \x7b loadFunction \x7d from \"next-jsx\";\n" ++
          "export default \x7b\n  a: loadFunction(\"./a\", import.meta.url)\n\x7d;\n"))) := by
  obtain ⟨source, text, parses, generates⟩ := repeatedFunction
  obtain ⟨module, parsed, single⟩ := exists_of_passes parses
  obtain ⟨written, given, same⟩ := exists_of_passes generates
  obtain rfl := eq_of_beq same
  exact ⟨source, module, text, parsed, of_decide_eq_true single,
    (generate_lists_imported_functions_iff parsed (of_decide_eq_true single) _).1.mp given⟩

/-- A module whose name is a half of a pair of code units is loaded by another name, of five characters. -/
theorem module_named_by_lone_half_is_missed :
    ∃ source : SourceText, source.text = "import a from \"\\ud800\";export default \x7ba\x7d" ∧
      passes (generate source {}) (fun text => text == some ("import \x7b loadFunction \x7d from \"next-jsx\";\n" ++
        "export default \x7b\n  a: loadFunction(\"\uFFFDd800\", import.meta.url)\n\x7d;\n")) = true ∧
      Lexer.literalUnits? "\"\\ud800\"".toList = some [0xD800] ∧
      Lexer.literalUnits? "\"\uFFFDd800\"".toList = some [0xFFFD, 0x64, 0x38, 0x30, 0x30] :=
  ⟨⟨"index.js", "import a from \"\\ud800\";export default \x7ba\x7d"⟩, rfl, by decide +kernel, by decide, by decide⟩

end FunctionIndex

end Storyboard
