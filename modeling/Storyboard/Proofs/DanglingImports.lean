import Storyboard.Proofs.LexicalScoping

/-!
# Uses of removed imports

An import of the runtime module is removed, an import of the functions is written again without them, and
an import of a style sheet becomes a constant. The names that are lost in this way should be used only in
expressions that are evaluated later. The main theorem says which uses stay in the module all the same:
those outside such expressions that are not expressions themselves, that are read wrongly, or that are of a
name which the walk does not take for one of the framework.
-/

namespace Storyboard

open Extraction

/-! ## What becomes of imports -/

/-- What becomes of an import. -/
inductive ImportFate where
  /-- It stays. -/
  | kept
  /-- It becomes a constant of the given name. -/
  | loaded (name : String)
  /-- It is removed. -/
  | removed
  /-- It is written again with these specifiers. -/
  | restated (specifiers : List Node)

/-- The name under which a specifier makes an export known. -/
def ImportItem.localName? (specifier : Node) : Option String :=
  match specifier.form with
  | .importDefault name => some name
  | .importNamespace name => some name
  | .importNamed _ _ name => some name
  | _ => none

namespace ImportFate

/-- What becomes of an import, given whether style sheets are looked for. -/
def ofItem (options : Options) (scansStyles : Bool) (item : ImportItem) : ImportFate :=
  match Imports.styleName? scansStyles item with
  | some name => loaded name
  | none =>
    if item.source.value == options.runtimeModule then removed
    else if item.isRelative && item.specifiers.any (Imports.isResourceBinding options) then
      restated (item.specifiers.filter fun specifier => !Imports.isResourceBinding options specifier)
    else kept

/-- The edit that brings the fate of an import about. -/
def edit? (source : SourceText) (options : Options) (item : ImportItem) : ImportFate → Option Edit
  | kept => none
  | loaded name => some (Imports.loadStyle source options item name)
  | removed => some ⟨item.node.span.start, item.node.span.stop, ""⟩
  | restated specifiers => some (Imports.restate source item specifiers [])

/-- The names that are known afterwards. -/
def names (item : ImportItem) : ImportFate → List String
  | kept => item.specifiers.filterMap ImportItem.localName?
  | loaded name => [name]
  | removed => []
  | restated specifiers => specifiers.filterMap ImportItem.localName?

theorem edit?_ofItem (source : SourceText) (options : Options) (scansStyles : Bool) (item : ImportItem) :
    Imports.edit? source options scansStyles item =
      (ofItem options scansStyles item).edit? source options item := by
  unfold Imports.edit? ofItem
  cases Imports.styleName? scansStyles item with
  | some name => rfl
  | none =>
      simp only
      split
      · rfl
      · split <;> rfl

theorem span_of_edit? {source : SourceText} {options : Options} {item : ImportItem} {fate : ImportFate}
    {edit : Edit} (edits : fate.edit? source options item = some edit) : edit.span = item.node.span := by
  cases fate with
  | kept => simp [edit?] at edits
  | loaded name =>
      obtain rfl := Option.some.inj edits
      rfl
  | removed =>
      obtain rfl := Option.some.inj edits
      rfl
  | restated specifiers =>
      obtain rfl := Option.some.inj edits
      rfl

theorem localName?_of_importBinding? {source name : String} {specifier : Node} {binding : Binding}
    (binds : Scope.importBinding? source specifier = some (name, binding)) :
    ImportItem.localName? specifier = some name := by
  unfold Scope.importBinding? at binds
  unfold ImportItem.localName?
  split at binds <;> simp_all

/-- An import that loses a name does not stay as it is. -/
theorem ne_kept_of_lost {options : Options} {scansStyles : Bool} {item : ImportItem} {specifier : Node}
    {name : String} (listed : specifier ∈ item.specifiers)
    (named : ImportItem.localName? specifier = some name)
    (lost : name ∉ (ofItem options scansStyles item).names item) :
    ofItem options scansStyles item ≠ kept := by
  intro stays
  rw [stays] at lost
  exact lost (List.mem_filterMap.mpr ⟨specifier, listed, named⟩)

/-- The edits of a module cover every import that loses a name. -/
theorem exists_edit_of_lost {source : SourceText} {options : Options} {processCss : Bool} {program : Node}
    {item : ImportItem} {specifier : Node} {name : String} (imports : item ∈ ImportItem.ofProgram program)
    (listed : specifier ∈ item.specifiers) (named : ImportItem.localName? specifier = some name)
    (lost : name ∉
      (ofItem options (processCss && StyleSheetGate.isOpen source.text.toList) item).names item) :
    ∃ edit ∈ Imports.edits source options processCss program, edit.span = item.node.span := by
  have changed := ne_kept_of_lost listed named lost
  have edited : ∃ edit, Imports.edit? source options
      (processCss && StyleSheetGate.isOpen source.text.toList) item = some edit := by
    rw [edit?_ofItem]
    cases fate : ofItem options (processCss && StyleSheetGate.isOpen source.text.toList) item with
    | kept => exact absurd fate changed
    | loaded name => exact ⟨_, rfl⟩
    | removed => exact ⟨_, rfl⟩
    | restated specifiers => exact ⟨_, rfl⟩
  obtain ⟨edit, edit_eq⟩ := edited
  refine ⟨edit, List.mem_append_left _ (List.mem_filterMap.mpr ⟨item, imports, edit_eq⟩), ?_⟩
  rw [edit?_ofItem] at edit_eq
  exact span_of_edit? edit_eq

/-- A specifier whose name an import loses is the default import of the functions, or the import is removed
or becomes a constant of another name. -/
theorem cases_of_lost {options : Options} {scansStyles : Bool} {item : ImportItem} {specifier : Node}
    {name : String} (listed : specifier ∈ item.specifiers)
    (named : ImportItem.localName? specifier = some name)
    (lost : name ∉ (ofItem options scansStyles item).names item) :
    Imports.isResourceBinding options specifier = true ∨
      ofItem options scansStyles item = removed ∧ item.source.value = options.runtimeModule ∨
      (∃ constant, ofItem options scansStyles item = loaded constant) ∧ item.isStyleSheet = true := by
  have changed := ne_kept_of_lost listed named lost
  unfold ofItem at lost changed ⊢
  cases style : Imports.styleName? scansStyles item with
  | some constant =>
      right; right
      refine ⟨⟨constant, rfl⟩, ?_⟩
      unfold Imports.styleName? at style
      split at style
      · rename_i isSheet
        exact (Bool.and_eq_true_iff.mp isSheet).2
      · simp at style
  | none =>
      simp only [style] at lost changed ⊢
      split at lost
      · rename_i isRuntime
        exact .inr (.inl ⟨by simp [isRuntime], by simpa using isRuntime⟩)
      · rename_i other
        simp only [other, Bool.false_eq_true, if_false] at changed
        split at lost
        · left
          by_contra isOther
          apply lost
          refine List.mem_filterMap.mpr ⟨specifier, List.mem_filter.mpr ⟨listed, ?_⟩, named⟩
          simpa using isOther
        · rename_i untouched
          simp [untouched] at changed

end ImportFate

/-! ## Which uses are replaced -/

namespace Resolver

/-- A name with a meaning can not stay exactly if it is a named import of the runtime module or the
default import of the functions. -/
theorem isStatic_classify_eq_false_iff {resolver : Resolver} {name : String} {binding : Binding}
    (found : resolver.lookup name = some binding) :
    (resolver.classify name).isStatic = false ↔
      binding.isNamedImportFrom resolver.options.runtimeModule = true ∨
        binding.isDefaultImport = true ∧ name = resolver.options.resourceBinding := by
  unfold classify
  simp only [found]
  by_cases framework : (binding.isNamedImportFrom resolver.options.runtimeModule ||
      binding.isDefaultImport && name == resolver.options.resourceBinding) = true
  · rw [if_pos framework]
    simpa [NameClass.isStatic] using framework
  · rw [if_neg framework]
    simpa [NameClass.isStatic] using framework

end Resolver

namespace Site

/-- A name that stands for an import and is read wrongly is taken for a declaration. -/
theorem lookupAlong_of_isMisread {steps : List Step} {name source : String} {imported : ImportedName}
    (misread : IsMisread name steps)
    (meant : meaningAlong steps name = some (.imported source imported)) :
    lookupAlong steps name = some .declared := by
  induction misread with
  | staticBlock enters _ =>
      rw [meaningAlong_cons, enters.readings.2] at meant
      simp at meant
  | head enters _ =>
      rw [lookupAlong_cons, enters.readings.1]
      rfl
  | farther unread unmeant _ ih =>
      rw [meaningAlong_cons, unmeant, Option.none_or] at meant
      rw [lookupAlong_cons, unread, Option.none_or]
      exact ih meant

/-- A use that is no expression stays unless something around it is replaced. -/
theorem isDynamic_of_reference? {options : Options} {site : Site} {name : String}
    (used : site.reference? = some name) (other : site.node.form ≠ .identifier name) :
    site.isDynamic options = false := by
  unfold reference? at used
  have no_expression : site.node.form.isExpression = false := by
    split at used <;> rename_i form_eq <;> simp_all [Form.isExpression]
  exact needsEvaluation_eq_false_of_no_expression _ no_expression

/-- A use of an import is dynamic exactly if it is an expression, is not read wrongly, and the import is a
named one of the runtime module or the default one of the functions. -/
theorem isDynamic_reference_iff {options : Options} {site : Site} {name source : String}
    {imported : ImportedName} (used : site.reference? = some name)
    (resolves : site.meaning name = some (.imported source imported)) :
    site.isDynamic options = true ↔
      site.node.form = .identifier name ∧ ¬IsMisread name site.around ∧
        ((Binding.imported source imported).isNamedImportFrom options.runtimeModule = true ∨
          (Binding.imported source imported).isDefaultImport = true ∧ name = options.resourceBinding) := by
  by_cases form_eq : site.node.form = .identifier name
  · rw [isDynamic_identifier options form_eq, Bool.not_eq_true']
    by_cases misread : IsMisread name site.around
    · rw [meaning_eq_meaningAlong] at resolves
      have looked : (site.resolver options).lookup name = some .declared := by
        rw [lookup_resolver]
        exact lookupAlong_of_isMisread misread resolves
      rw [Resolver.isStatic_classify_eq_false_iff looked]
      simp [misread, Binding.isNamedImportFrom, Binding.isDefaultImport]
    · have looked : (site.resolver options).lookup name = some (.imported source imported) := by
        rw [lookup_resolver, (lookupAlong_eq_meaningAlong_iff site.around name).mpr misread,
          ← meaning_eq_meaningAlong, resolves]
      rw [Resolver.isStatic_classify_eq_false_iff looked, resolver_options]
      simp [form_eq, misread]
  · simp [isDynamic_of_reference? used form_eq, form_eq]

/-- A site is replaced or lies in a replaced one exactly if it is dynamic or something around it is. -/
theorem exists_replaced_iff {options : Options} {program : Node} {site : Site}
    (member : site ∈ program.sites) :
    (∃ outer ∈ site :: site.enclosing, outer ∈ program.replacedSites options) ↔
      (∃ outer ∈ site.enclosing, outer.isDynamic options = true) ∨ site.isDynamic options = true := by
  constructor
  · rintro ⟨outer, around, outer_mem⟩
    have dynamic := (isReplaced_iff.mp (List.mem_filter.mp outer_mem).2).1
    rcases List.mem_cons.mp around with rfl | around
    · exact .inr dynamic
    · exact .inl ⟨outer, around, dynamic⟩
  · rintro (⟨outer, around, dynamic⟩ | dynamic)
    · exact exists_mem_replacedSites member (List.mem_cons_of_mem _ around) dynamic
    · exact exists_mem_replacedSites member List.mem_cons_self dynamic

end Site

/-- A specifier brings in a named import, the default import of a name, or neither. -/
theorem importBinding?_readings {options : Options} {source name : String} {specifier : Node}
    {binding : Binding} (binds : Scope.importBinding? source specifier = some (name, binding)) :
    ∃ imported, binding = .imported source imported ∧
      (binding.isNamedImportFrom options.runtimeModule = true ↔
        ImportItem.isNamed specifier = true ∧ source = options.runtimeModule) ∧
      (binding.isDefaultImport = true ∧ name = options.resourceBinding ↔
        Imports.isResourceBinding options specifier = true) := by
  unfold Scope.importBinding? at binds
  split at binds
  · rename_i form_eq
    obtain ⟨rfl, rfl⟩ := Prod.mk.inj (Option.some.inj binds)
    exact ⟨_, rfl, by simp [Binding.isNamedImportFrom, ImportItem.isNamed, form_eq], by
      simp [Binding.isDefaultImport, Imports.isResourceBinding, ImportItem.defaultName?, form_eq]⟩
  · rename_i form_eq
    obtain ⟨rfl, rfl⟩ := Prod.mk.inj (Option.some.inj binds)
    exact ⟨_, rfl, by simp [Binding.isNamedImportFrom, ImportItem.isNamed, form_eq], by
      simp [Binding.isDefaultImport, Imports.isResourceBinding, ImportItem.defaultName?, form_eq]⟩
  · rename_i form_eq
    obtain ⟨rfl, rfl⟩ := Prod.mk.inj (Option.some.inj binds)
    exact ⟨_, rfl, by simp [Binding.isNamedImportFrom, ImportItem.isNamed, form_eq], by
      simp [Binding.isDefaultImport, Imports.isResourceBinding, ImportItem.defaultName?, form_eq]⟩
  · simp at binds

/-- The runtime module is no style sheet of the application. -/
theorem ne_runtimeModule_of_isStyleSheet {item : ImportItem} (isSheet : item.isStyleSheet = true) :
    item.source.value ≠ ({} : Options).runtimeModule := by
  intro same
  have relative := (Bool.and_eq_true_iff.mp isSheet).1
  rw [ImportItem.isRelative, same] at relative
  exact absurd relative (by simp)

/-- Which names that an import loses are not taken for names of the framework: those of the runtime module
that are not imported by name, and those that come with the default import of a style sheet. -/
theorem lost_framework_iff {scansStyles : Bool} {item : ImportItem} {specifier : Node} {name : String}
    {binding : Binding} (listed : specifier ∈ item.specifiers)
    (binds : Scope.importBinding? item.source.value specifier = some (name, binding))
    (lost : name ∉ (ImportFate.ofItem {} scansStyles item).names item) :
    ¬(binding.isNamedImportFrom ({} : Options).runtimeModule = true ∨
        binding.isDefaultImport = true ∧ name = ({} : Options).resourceBinding) ↔
      Imports.isResourceBinding {} specifier = false ∧
        (ImportFate.ofItem {} scansStyles item = .removed ∧ ImportItem.isNamed specifier = false ∨
          ∃ constant, ImportFate.ofItem {} scansStyles item = .loaded constant) := by
  obtain ⟨imported, -, named_iff, default_iff⟩ := @importBinding?_readings {} _ _ _ _ binds
  rw [named_iff, default_iff, not_or, Bool.not_eq_true, and_comm]
  refine and_congr_right fun other => ?_
  rcases ImportFate.cases_of_lost listed (ImportFate.localName?_of_importBinding? binds) lost with
    resource | ⟨removed, runtime⟩ | ⟨⟨constant, loaded⟩, isSheet⟩
  · simp [resource] at other
  · simp [removed, runtime]
  · simp [loaded, ne_runtimeModule_of_isStyleSheet isSheet]

/-- A use of a name that an import loses stays exactly if nothing around it is dynamic and it is no
expression, or it is read wrongly, or the name is none that the walk takes for one of the framework: one of
the runtime module that is not imported by name, or one that comes with the default import of a style sheet.
A use that does not stay lies inside a range that the walk replaces. -/
theorem lost_import_dangles_iff {source : SourceText} {processCss : Bool} {program : Node}
    {found : Findings} {item : ImportItem} {specifier : Node} {name : String} {binding : Binding}
    {site : Site} (walked : findings source {} program = .ok found)
    (imports : item ∈ ImportItem.ofProgram program) (listed : specifier ∈ item.specifiers)
    (binds : Scope.importBinding? item.source.value specifier = some (name, binding))
    (lost : name ∉
      (ImportFate.ofItem {} (processCss && StyleSheetGate.isOpen source.text.toList) item).names item)
    (member : site ∈ program.sites) (used : site.reference? = some name)
    (resolves : site.meaning name = some binding) :
    (∃ edit ∈ Imports.edits source {} processCss program, edit.span = item.node.span) ∧
      ((∀ outer ∈ site :: site.enclosing, outer ∉ program.replacedSites {}) ↔
        (∀ outer ∈ site.enclosing, outer.isDynamic {} = false) ∧
          (site.node.form ≠ .identifier name ∨ Site.IsMisread name site.around ∨
            Imports.isResourceBinding {} specifier = false ∧
              (ImportFate.ofItem {} (processCss && StyleSheetGate.isOpen source.text.toList) item = .removed ∧
                  ImportItem.isNamed specifier = false ∨
                ∃ constant, ImportFate.ofItem {}
                  (processCss && StyleSheetGate.isOpen source.text.toList) item = .loaded constant))) ∧
      ((∃ outer ∈ site :: site.enclosing, outer ∈ program.replacedSites {}) →
        program.WellNested → ∃ edit ∈ found.edits, site.node.span.Within edit.span) := by
  obtain ⟨imported, rfl, -, -⟩ := @importBinding?_readings {} _ _ _ _ binds
  refine ⟨ImportFate.exists_edit_of_lost imports listed (ImportFate.localName?_of_importBinding? binds) lost,
    ?_, ?_⟩
  · have covered := @Site.exists_replaced_iff {} _ _ member
    rw [Site.isDynamic_reference_iff used resolves] at covered
    have stays : (∀ outer ∈ site :: site.enclosing, outer ∉ program.replacedSites {}) ↔
        ¬∃ outer ∈ site :: site.enclosing, outer ∈ program.replacedSites {} := by
      simp only [not_exists, not_and]
    rw [stays, covered, not_or, ← lost_framework_iff listed binds lost]
    refine and_congr (by simp) ?_
    rw [not_and_or, not_and_or, not_not]
  · rintro ⟨outer, around, replaced⟩ nested
    exact exists_edit_of_mem_replacedSites nested walked member around replaced

/-- Whether a source without style sheets uses a name that an import loses at a site that passes a check. -/
def hasLostUse (source : SourceText) (name : String) (binding : Binding) (check : Site → Bool) : Bool :=
  passes (source.parse source.dialect) fun module => passes (findings source {} module.program) fun _ =>
    (ImportItem.ofProgram module.program).any fun item =>
      (item.specifiers.any fun specifier =>
        Scope.importBinding? item.source.value specifier == some (name, binding)) &&
      Decidable.decide (name ∉ (ImportFate.ofItem {} false item).names item) &&
      module.program.sites.any fun site =>
        site.reference? == some name && site.meaning name == some binding && check site

theorem exists_of_hasLostUse {source : SourceText} {name : String} {binding : Binding}
    {check : Site → Bool} (settled : hasLostUse source name binding check = true) :
    ∃ (module : SourceModule) (found : Findings) (item : ImportItem) (specifier : Node) (site : Site),
      source.parse source.dialect = .ok module ∧ findings source {} module.program = .ok found ∧
        item ∈ ImportItem.ofProgram module.program ∧ specifier ∈ item.specifiers ∧
        Scope.importBinding? item.source.value specifier = some (name, binding) ∧
        name ∉ (ImportFate.ofItem {} false item).names item ∧ site ∈ module.program.sites ∧
        site.reference? = some name ∧ site.meaning name = some binding ∧ check site = true := by
  obtain ⟨module, parsed, walks⟩ := exists_of_passes settled
  obtain ⟨found, walked, loses⟩ := exists_of_passes walks
  obtain ⟨item, item_mem, loses⟩ := List.any_eq_true.mp loses
  simp only [Bool.and_eq_true, List.any_eq_true, beq_iff_eq, decide_eq_true_eq] at loses
  obtain ⟨⟨⟨specifier, listed, binds⟩, lost⟩, site, member, ⟨used, resolves⟩, passed⟩ := loses
  exact ⟨module, found, item, specifier, site, parsed, walked, item_mem, listed, binds, lost, member, used,
    resolves, passed⟩

/-- A source with a use of a name that is imported from the runtime module by name. -/
def runtimeName :
    { source : SourceText // source.text = "import\x7bx\x7dfrom\"next-jsx/runtime\";[x]" ∧
      hasLostUse source "x" (.imported "next-jsx/runtime" (.named "x")) (fun site => site.isDynamic {}) =
        true } :=
  ⟨⟨"a.js", "import\x7bx\x7dfrom\"next-jsx/runtime\";[x]"⟩, rfl, by decide +kernel⟩

/-- A use of a name that is imported from the runtime module by name is replaced. -/
theorem named_import_use_replaced :
    ∃ (source : SourceText) (module : SourceModule) (site : Site),
      source.text = "import\x7bx\x7dfrom\"next-jsx/runtime\";[x]" ∧ source.parse source.dialect = .ok module ∧
        site ∈ module.program.sites ∧
        site.meaning "x" = some (.imported "next-jsx/runtime" (.named "x")) ∧
        ¬∀ outer ∈ site :: site.enclosing, outer ∉ module.program.replacedSites {} := by
  obtain ⟨source, text, settled⟩ := runtimeName
  obtain ⟨module, found, item, specifier, site, parsed, walked, item_mem, listed, binds, lost, member, used,
    resolves, dynamic⟩ := exists_of_hasLostUse settled
  have all := @lost_import_dangles_iff source false _ _ _ _ _ _ _ walked item_mem listed binds lost member
    used resolves
  refine ⟨source, module, site, text, parsed, member, resolves, fun stays => ?_⟩
  obtain ⟨expression, fine, framework⟩ := (Site.isDynamic_reference_iff used resolves).mp dynamic
  rcases (all.2.1.mp stays).2 with other | misread | unknown
  · exact other expression
  · exact fine misread
  · exact (lost_framework_iff listed binds lost).mpr unknown framework

/-- A source with a use of the name for all exports of the runtime module. -/
def runtimeNamespace :
    { source : SourceText // source.text = "import*as R from\"next-jsx/runtime\";[R]" ∧
      hasLostUse source "R" (.imported "next-jsx/runtime" .allExports) (fun site =>
        (site :: site.enclosing).all fun outer => !outer.isDynamic {}) = true } :=
  ⟨⟨"a.js", "import*as R from\"next-jsx/runtime\";[R]"⟩, rfl, by decide +kernel⟩

/-- A use of the name under which a module imports all exports of the runtime module stays, although
the import is removed. -/
theorem namespace_import_dangles :
    ∃ (source : SourceText) (module : SourceModule) (found : Findings) (item : ImportItem)
      (specifier : Node) (site : Site),
      source.text = "import*as R from\"next-jsx/runtime\";[R]" ∧
        source.parse source.dialect = .ok module ∧ findings source {} module.program = .ok found ∧
        item ∈ ImportItem.ofProgram module.program ∧ specifier ∈ item.specifiers ∧
        Scope.importBinding? item.source.value specifier =
          some ("R", .imported "next-jsx/runtime" .allExports) ∧
        "R" ∉ (ImportFate.ofItem {} false item).names item ∧ site ∈ module.program.sites ∧
        site.reference? = some "R" ∧
        site.meaning "R" = some (.imported "next-jsx/runtime" .allExports) ∧
        ∀ outer ∈ site :: site.enclosing, outer ∉ module.program.replacedSites {} := by
  obtain ⟨source, text, settled⟩ := runtimeNamespace
  obtain ⟨module, found, item, specifier, site, parsed, walked, item_mem, listed, binds, lost, member, used,
    resolves, static⟩ := exists_of_hasLostUse settled
  refine ⟨source, module, found, item, specifier, site, text, parsed, walked, item_mem, listed, binds, lost,
    member, used, resolves, fun outer around replaced => ?_⟩
  have outer_static := List.all_eq_true.mp static outer around
  have outer_dynamic := (Site.isReplaced_iff.mp (List.mem_filter.mp replaced).2).1
  simp [outer_dynamic] at outer_static

end Storyboard
