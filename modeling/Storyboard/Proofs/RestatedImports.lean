import Storyboard.Proofs.EditRanges
import Storyboard.Proofs.ImportTokens

/-!
# Imports that are written again

An import of the functions is written again without them, and the last import of the element module with the style
loader. What is written can be read, and says what the import said before, but for the specifier that was taken out or
put in. Only the phase and the attributes of the import are left out.
-/

namespace Storyboard

open Grammar

/-! ## Clauses from specifiers -/

namespace ImportItem

variable {node : Node}

theorem form_of_defaultName? {name : String} (named : defaultName? node = some name) :
    node.form = .importDefault name := by
  unfold defaultName? at named
  split at named
  · rename_i form_eq
    cases named
    exact form_eq
  · cases named

theorem exists_form_of_isNamespace (namespace_ : isNamespace node = true) :
    ∃ name, node.form = .importNamespace name := by
  unfold isNamespace at namespace_
  split at namespace_
  · rename_i form_eq
    exact ⟨_, form_eq⟩
  · cases namespace_

theorem exists_form_of_isNamed (named : isNamed node = true) :
    ∃ isTypeOnly imported name, node.form = .importNamed isTypeOnly imported name := by
  unfold isNamed at named
  split at named
  · rename_i form_eq
    exact ⟨_, _, _, form_eq⟩
  · cases named

theorem ofNode?_of_defaultName? {name : String} (named : defaultName? node = some name) :
    Specifier.ofNode? node = some (.byDefault name) := by
  rw [Specifier.ofNode?, form_of_defaultName? named]

theorem ofNode?_of_isNamespace (namespace_ : isNamespace node = true) :
    ∃ name, Specifier.ofNode? node = some (.everything name) := by
  obtain ⟨name, form_eq⟩ := exists_form_of_isNamespace namespace_
  exact ⟨name, by rw [Specifier.ofNode?, form_eq]⟩

theorem ofNode?_of_isNamed (named : isNamed node = true) :
    ∃ specifier, Specifier.ofNode? node = some specifier ∧ specifier.isNamed = true := by
  obtain ⟨_, _, _, form_eq⟩ := exists_form_of_isNamed named
  exact ⟨_, by rw [Specifier.ofNode?, form_eq], rfl⟩

theorem defaultName?_of_isNamespace (namespace_ : isNamespace node = true) : defaultName? node = none := by
  obtain ⟨_, form_eq⟩ := exists_form_of_isNamespace namespace_
  refine Option.eq_none_iff_forall_ne_some.mpr fun name named => ?_
  cases form_eq.symm.trans (form_of_defaultName? named)

theorem defaultName?_of_isNamed (named : isNamed node = true) : defaultName? node = none := by
  obtain ⟨_, _, _, form_eq⟩ := exists_form_of_isNamed named
  refine Option.eq_none_iff_forall_ne_some.mpr fun name by_default => ?_
  cases form_eq.symm.trans (form_of_defaultName? by_default)

theorem isNamed_of_defaultName? (by_default : (defaultName? node).isSome = true) : isNamed node = false := by
  refine Bool.eq_false_iff.mpr fun named => ?_
  rw [defaultName?_of_isNamed named] at by_default
  cases by_default

theorem isNamed_of_isNamespace (namespace_ : isNamespace node = true) : isNamed node = false := by
  obtain ⟨_, form_eq⟩ := exists_form_of_isNamespace namespace_
  refine Bool.eq_false_iff.mpr fun named => ?_
  obtain ⟨_, _, _, form_eq'⟩ := exists_form_of_isNamed named
  cases form_eq.symm.trans form_eq'

end ImportItem

namespace SourceText

variable {source : SourceText}

/-- Nodes that spell specifiers have entries for a clause. -/
theorem exists_entries {nodes : List Node} (spelled : ∀ node ∈ nodes, source.SpellsSpecifier node) :
    ∃ entries : List SpelledSpecifier, nodes.map Specifier.ofNode? = entries.map (fun entry => some entry.specifier) ∧
      nodes.map source.covered = entries.map SpelledSpecifier.text := by
  induction nodes with
  | nil => exact ⟨[], rfl, rfl⟩
  | cons node nodes ih =>
      obtain ⟨entry, said, text_eq⟩ := spelled node List.mem_cons_self
      obtain ⟨entries, say, texts_eq⟩ := ih fun other member => spelled other (.tail _ member)
      exact ⟨entry :: entries, by simp [said, say], by simp [text_eq, texts_eq]⟩

theorem exists_entry {node : Option Node} (spelled : ∀ found ∈ node, source.SpellsSpecifier found) :
    ∃ entry : Option SpelledSpecifier,
      node.toList.map Specifier.ofNode? = entry.toList.map (fun entry => some entry.specifier) ∧
      node.toList.map source.covered = entry.toList.map SpelledSpecifier.text ∧ (node = none → entry = none) := by
  cases node with
  | none => exact ⟨none, rfl, rfl, fun _ => rfl⟩
  | some node =>
      obtain ⟨entry, said, text_eq⟩ := spelled node rfl
      exact ⟨some entry, by simp [said], by simp [text_eq], nofun⟩

/-- An entry says what one of the nodes says. -/
theorem exists_node_of_mem_entries {nodes : List Node} {entries : List SpelledSpecifier}
    (say : nodes.map Specifier.ofNode? = entries.map fun entry => some entry.specifier) {entry : SpelledSpecifier}
    (member : entry ∈ entries) : ∃ node ∈ nodes, Specifier.ofNode? node = some entry.specifier := by
  have listed := List.mem_map_of_mem (f := fun entry : SpelledSpecifier => some entry.specifier) member
  rw [← say] at listed
  exact List.mem_map.mp listed

/-- Specifiers that an import lists make up a clause, also with more names. -/
theorem Lists.exists_clause {nodes : List Node} (lists : source.Lists nodes) {more : List SpelledSpecifier}
    (more_isNamed : ∀ entry ∈ more, entry.specifier.isNamed = true)
    (no_namespace : more = [] ∨ nodes.any ImportItem.isNamespace = false) (name : String) :
    ∃ clause : SpelledClause,
      clause.entries.map (fun entry => some entry.specifier) =
        nodes.map Specifier.ofNode? ++ more.map (fun entry => some entry.specifier) ∧
      clause.written name = renderImport ((nodes.filter fun s => !ImportItem.isNamed s).map source.covered)
        ((nodes.filter ImportItem.isNamed).map source.covered ++ more.map SpelledSpecifier.text) name := by
  obtain ⟨lead, all, named, spelled, lead_isDefault, all_isNamespace, named_isNamed, alone⟩ := lists
  simp only [List.mem_append, Option.mem_toList] at spelled
  obtain ⟨leadEntry, lead_says, lead_text, -⟩ := exists_entry fun node member => spelled node (.inl (.inl member))
  obtain ⟨allEntry, all_says, all_text, no_all⟩ := exists_entry fun node member => spelled node (.inl (.inr member))
  obtain ⟨entries, named_say, named_texts⟩ := exists_entries fun node member => spelled node (.inr member)
  have other : ∀ node ∈ lead.toList ++ all.toList, ImportItem.isNamed node = false := by
    intro node member
    rcases List.mem_append.mp member with member | member
    · exact ImportItem.isNamed_of_defaultName? (lead_isDefault node (Option.mem_toList.mp member))
    · exact ImportItem.isNamed_of_isNamespace (all_isNamespace node (Option.mem_toList.mp member))
  have named_eq : (lead.toList ++ all.toList ++ named).filter ImportItem.isNamed = named := by
    rw [List.filter_append, List.filter_eq_nil_iff.mpr fun node member => by simp [other node member],
      List.filter_eq_self.mpr named_isNamed, List.nil_append]
  have others_eq :
      (lead.toList ++ all.toList ++ named).filter (fun s => !ImportItem.isNamed s) = lead.toList ++ all.toList := by
    rw [List.filter_append, List.filter_eq_self.mpr fun node member => by simp [other node member],
      List.filter_eq_nil_iff.mpr fun node member => by simp [named_isNamed node member], List.append_nil]
  have no_all_of_no_namespace :
      (lead.toList ++ all.toList ++ named).any ImportItem.isNamespace = false → all = none := by
    intro no_namespace
    cases all with
    | none => rfl
    | some node => simp [all_isNamespace node rfl] at no_namespace
  refine ⟨{
    lead := leadEntry
    all := allEntry
    named := entries ++ more
    lead_isDefault := ?_
    all_isEverything := ?_
    named_isNamed := ?_
    alone := ?_ }, ?_, ?_⟩
  · intro entry member
    obtain ⟨node, member, said⟩ := exists_node_of_mem_entries lead_says (Option.mem_toList.mpr member)
    obtain ⟨name, named⟩ := Option.isSome_iff_exists.mp (lead_isDefault node (Option.mem_toList.mp member))
    exact ⟨name, Option.some.inj (said.symm.trans (ImportItem.ofNode?_of_defaultName? named))⟩
  · intro entry member
    obtain ⟨node, member, said⟩ := exists_node_of_mem_entries all_says (Option.mem_toList.mpr member)
    obtain ⟨name, said'⟩ := ImportItem.ofNode?_of_isNamespace (all_isNamespace node (Option.mem_toList.mp member))
    exact ⟨name, Option.some.inj (said.symm.trans said')⟩
  · intro entry member
    rcases List.mem_append.mp member with member | member
    · obtain ⟨node, member, said⟩ := exists_node_of_mem_entries named_say member
      obtain ⟨specifier, said', isNamed⟩ := ImportItem.ofNode?_of_isNamed (named_isNamed node member)
      rwa [Option.some.inj (said.symm.trans said')]
    · exact more_isNamed entry member
  · rcases alone with rfl | rfl
    · exact .inl (no_all rfl)
    · rcases no_namespace with rfl | no_namespace
      · exact .inr (by simpa using named_say)
      · exact .inl (no_all (no_all_of_no_namespace no_namespace))
  · simp only [SpelledClause.entries, List.map_append, ← lead_says, ← all_says, ← named_say, List.append_assoc]
  · rw [named_eq, others_eq]
    simp only [SpelledClause.written, List.map_append, lead_text, all_text, named_texts]

/-- The import of the functions is the first specifier, and the others are listed without it. -/
theorem Lists.erase_resourceBinding {options : Options} {nodes : List Node} (lists : source.Lists nodes)
    (binds : nodes.any (Imports.isResourceBinding options) = true) :
    source.Lists (nodes.filter fun s => !Imports.isResourceBinding options s) ∧
      (nodes.filter fun s => !Imports.isResourceBinding options s).map Specifier.ofNode? =
        (nodes.map Specifier.ofNode?).erase (some (.byDefault options.resourceBinding)) := by
  obtain ⟨lead, all, named, spelled, lead_isDefault, all_isNamespace, named_isNamed, alone⟩ := lists
  have other : ∀ node ∈ all.toList ++ named, Imports.isResourceBinding options node = false := by
    intro node member
    have no_default : ImportItem.defaultName? node = none := by
      rcases List.mem_append.mp member with member | member
      · exact ImportItem.defaultName?_of_isNamespace (all_isNamespace node (Option.mem_toList.mp member))
      · exact ImportItem.defaultName?_of_isNamed (named_isNamed node member)
    rw [Imports.isResourceBinding, no_default]
    rfl
  rw [List.append_assoc] at binds spelled ⊢
  cases lead with
  | none =>
      obtain ⟨node, member, binds⟩ := List.any_eq_true.mp binds
      rw [other node member] at binds
      cases binds
  | some first =>
      have first_binds : Imports.isResourceBinding options first = true := by
        obtain ⟨node, member, node_binds⟩ := List.any_eq_true.mp binds
        rcases List.mem_cons.mp member with rfl | member
        · exact node_binds
        · rw [other node member] at node_binds
          cases node_binds
      have said := ImportItem.ofNode?_of_defaultName? (eq_of_beq first_binds)
      have rest_eq : ((some first).toList ++ (all.toList ++ named)).filter
          (fun s => !Imports.isResourceBinding options s) = all.toList ++ named := by
        rw [Option.toList_some, List.singleton_append, List.filter_cons_of_neg (by simp [first_binds]),
          List.filter_eq_self.mpr fun node member => by simp [other node member]]
      rw [rest_eq]
      refine ⟨.intro none all named (fun node member => spelled node (.tail _ member)) (by simp) all_isNamespace
        named_isNamed alone, ?_⟩
      rw [Option.toList_some, List.singleton_append, List.map_cons, said, List.erase_cons_head]

end SourceText

/-! ## What is written again -/

/-- The name of the style loader can be imported. -/
structure Options.NamesLoader (options : Options) : Prop where
  /-- It is a word of characters that make up a name. -/
  isWord : Lexer.IsWord options.styleLoader
  /-- It is the name of a variable. -/
  isVariableName : isVariableName options.styleLoader = true

instance (options : Options) : Decidable options.NamesLoader :=
  decidable_of_iff (Lexer.IsWord options.styleLoader ∧ isVariableName options.styleLoader = true)
    ⟨fun ⟨isWord, isVariableName⟩ => ⟨isWord, isVariableName⟩, fun names => ⟨names.1, names.2⟩⟩

namespace Imports

/-- An import is written again by an edit, which is meant to list given specifiers: those before without the import of
the functions, or those before and the style loader. -/
inductive Reprints (source : SourceText) (options : Options) (processCss : Bool) (program : Node) :
    ImportItem → Edit → List (Option Specifier) → Prop
  | withoutBinding {item : ImportItem} {specifiers : List Node} (member : item ∈ ImportItem.ofProgram program)
      (fate : ImportFate.ofItem options (source.scansStyles processCss) item = .restated specifiers) :
      Reprints source options processCss program item (restate source item specifiers [])
        ((item.specifiers.map Specifier.ofNode?).erase (some (.byDefault options.resourceBinding)))
  | withLoader {item : ImportItem}
      (host : loaderHost? options (source.scansStyles processCss) (ImportItem.ofProgram program) = some item) :
      Reprints source options processCss program item (restate source item item.specifiers [options.styleLoader])
        (item.specifiers.map Specifier.ofNode? ++
          [some (.named false (.identifier options.styleLoader) options.styleLoader)])

end Imports

/-- The import of a module that was read says what its text spells. -/
theorem exists_said_of_mem_ofProgram {source : SourceText} {module : SourceModule}
    (parsed : source.parse source.dialect = .ok module) {item : ImportItem}
    (member : item ∈ ImportItem.ofProgram module.program) :
    ∃ said hasHalves, ImportDeclaration.ofNode? item.node = some said ∧ said.isTypeOnly = false ∧
      said.specifiers = item.specifiers.map Specifier.ofNode? ∧ said.moduleName = item.source.value ∧
      source.Lists item.specifiers ∧
      Lexer.IsToken (.text said.moduleName hasHalves)
        (Text.sliceString source.text item.source.span.start item.source.span.stop).toList := by
  have read : SourceModule.parse? source.dialect source.text = some module := by
    unfold SourceText.parse at parsed
    split at parsed
    · cases parsed
      assumption
    · cases parsed
  obtain ⟨statement, listed, imports⟩ := List.mem_filterMap.mp member
  obtain ⟨head, form_eq⟩ := Node.form_of_ofStatement? imports
  obtain ⟨mode, reading, next, ofModule, inside, read⟩ :=
    SourceModule.isImportIn_of_parse? rfl read statement listed (by rw [form_eq])
  obtain ⟨head', specifiers, module', hasHalves, form_eq', no_types, lists, token⟩ :=
    exists_of_importStatement ofModule inside read
  cases form_eq.symm.trans form_eq'
  rw [node_of_ofStatement? imports, ImportDeclaration.ofNode?, form_eq]
  exact ⟨_, hasHalves, rfl, no_types, rfl, rfl, lists, token⟩

/-- An import that is written with specifiers of its own and the style loader says what it lists then. -/
theorem read?_restate {source : SourceText} {module : SourceModule} (parsed : source.parse source.dialect = .ok module)
    {item : ImportItem} (member : item ∈ ImportItem.ofProgram module.program) {kept : List Node}
    (lists : source.Lists kept) {more : List SpelledSpecifier}
    (more_isNamed : ∀ entry ∈ more, entry.specifier.isNamed = true)
    (no_namespace : more = [] ∨ kept.any ImportItem.isNamespace = false) :
    ImportDeclaration.read? source.dialect (Imports.restate source item kept (more.map SpelledSpecifier.text)).text =
      some [some {
        specifiers := kept.map Specifier.ofNode? ++ more.map fun entry => some entry.specifier
        moduleName := item.source.value }] := by
  obtain ⟨said, hasHalves, -, -, -, moduleName_eq, -, token⟩ := exists_said_of_mem_ofProgram parsed member
  obtain ⟨clause, entries_eq, written_eq⟩ := lists.exists_clause more_isNamed no_namespace
    (Text.sliceString source.text item.source.span.start item.source.span.stop)
  have text_eq : (Imports.restate source item kept (more.map SpelledSpecifier.text)).text = clause.written
      (Text.sliceString source.text item.source.span.start item.source.span.stop) := written_eq.symm
  rw [text_eq, ImportDeclaration.read?_written rfl clause token, entries_eq, moduleName_eq]

/-- The style loader as a specifier. -/
theorem exists_loader {options : Options} (names : options.NamesLoader) :
    ∃ entry : SpelledSpecifier, entry.specifier = .named false (.identifier options.styleLoader) options.styleLoader ∧
      entry.text = options.styleLoader :=
  ⟨⟨_, _, options.styleLoader, .named false names.isVariableName,
    Lexer.isSpelling_name (Lexer.isToken_of_isWord names.isWord)⟩, rfl, rfl⟩

/-- Only an import of the functions is written again on its own account. -/
theorem ImportFate.of_restated {options : Options} {scansStyles : Bool} {item : ImportItem} {specifiers : List Node}
    (fate : ofItem options scansStyles item = .restated specifiers) :
    item.specifiers.any (Imports.isResourceBinding options) = true ∧
      item.specifiers.filter (fun s => !Imports.isResourceBinding options s) = specifiers := by
  unfold ofItem at fate
  split at fate
  · cases fate
  · split at fate
    · cases fate
    · split at fate
      · rename_i binds
        cases fate
        exact ⟨(Bool.and_eq_true_iff.mp binds).2, rfl⟩
      · cases fate

namespace Imports

theorem of_loaderHost? {options : Options} {scansStyles : Bool} {items : List ImportItem} {host : ImportItem}
    (found : loaderHost? options scansStyles items = some host) :
    lacksLoader options scansStyles items = true ∧ host.specifiers.any ImportItem.isNamespace = false := by
  unfold loaderHost? at found
  split at found
  · rename_i lacks
    exact ⟨lacks, by simpa using (Option.filter_eq_some_iff.mp found).2⟩
  · cases found

/-- Where an import is written again, that replaces the whole import. -/
theorem Reprints.span_eq {source : SourceText} {options : Options} {processCss : Bool} {program : Node}
    {item : ImportItem} {edit : Edit} {wanted : List (Option Specifier)}
    (reprints : Reprints source options processCss program item edit wanted) : edit.span = item.node.span := by
  cases reprints with
  | withoutBinding => rfl
  | withLoader => rfl

/-- What is written again is among the edits of the imports. -/
theorem Reprints.mem_edits {source : SourceText} {options : Options} {processCss : Bool} {program : Node}
    {item : ImportItem} {edit : Edit} {wanted : List (Option Specifier)}
    (reprints : Reprints source options processCss program item edit wanted) :
    item ∈ ImportItem.ofProgram program ∧ edit ∈ edits source options processCss program := by
  rw [edits_eq_editsGiven]
  cases reprints with
  | withoutBinding member fate =>
      refine ⟨member, List.mem_append_left _ (List.mem_filterMap.mpr ⟨item, member, ?_⟩)⟩
      rw [ImportFate.edit?_ofItem, fate]
      rfl
  | withLoader host =>
      refine ⟨(mem_of_loaderHost? host).1, List.mem_append_right _ ?_⟩
      obtain ⟨lacks, no_namespace⟩ := of_loaderHost? host
      have last : elementImport? options (ImportItem.ofProgram program) = some item := by
        rw [loaderHost?, if_pos lacks] at host
        exact (Option.filter_eq_some_iff.mp host).1
      rw [if_pos lacks, last, loaderEdit, if_neg (by rw [no_namespace]; decide)]
      exact List.mem_singleton_self _

/-- Every edit of the imports writes one again, takes one out, makes one a constant, or adds an import of the style
loader at the beginning. -/
theorem exists_reprints_of_mem_edits {source : SourceText} {options : Options} {processCss : Bool} {program : Node}
    {edit : Edit} (member : edit ∈ edits source options processCss program) :
    (∃ item wanted, Reprints source options processCss program item edit wanted) ∨
      (∃ item ∈ ImportItem.ofProgram program, edit = ⟨item.node.span.start, item.node.span.stop, ""⟩ ∨
        ∃ name, edit = loadStyle source options item name) ∨
      edit = .insertion 0
        ("import \x7b " ++ options.styleLoader ++ " \x7d from " ++ Json.quote options.jsxModule ++ ";\n") := by
  rw [edits_eq_editsGiven] at member
  rcases List.mem_append.mp member with single | loading
  · obtain ⟨item, item_mem, edited⟩ := List.mem_filterMap.mp single
    rw [ImportFate.edit?_ofItem] at edited
    cases fate : ImportFate.ofItem options (source.scansStyles processCss) item with
    | kept =>
        rw [fate] at edited
        cases edited
    | loaded name =>
        rw [fate] at edited
        exact .inr (.inl ⟨item, item_mem, .inr ⟨name, (Option.some.inj edited).symm⟩⟩)
    | removed =>
        rw [fate] at edited
        exact .inr (.inl ⟨item, item_mem, .inl (Option.some.inj edited).symm⟩)
    | restated specifiers =>
        rw [fate] at edited
        cases edited
        exact .inl ⟨item, _, .withoutBinding item_mem fate⟩
  · split at loading
    · rename_i lacks
      obtain rfl := List.mem_singleton.mp loading
      unfold loaderEdit
      cases last : elementImport? options (ImportItem.ofProgram program) with
      | none => exact .inr (.inr rfl)
      | some host =>
          simp only
          split
          · exact .inr (.inr rfl)
          · rename_i no_namespace
            refine .inl ⟨host, _, .withLoader ?_⟩
            rw [loaderHost?, if_pos lacks, last, Option.filter_some, if_pos (by simpa using no_namespace)]
    · cases loading

end Imports

/-- If the style loader can be imported by its name wherever it is called: an import that is written again is replaced
as a whole by a text that can be read and says what the import said before, without the import of the functions or with
that of the style loader, but for the phase and the attributes, which are left out. So it says all that it should
exactly if there was neither. -/
theorem reprinted_imports_say_the_same_iff {source : SourceText} {options : Options} {processCss : Bool}
    {module : SourceModule} (parsed : source.parse source.dialect = .ok module)
    (names : Imports.lacksLoader options (source.scansStyles processCss) (ImportItem.ofProgram module.program) = true →
      options.NamesLoader)
    {item : ImportItem} {edit : Edit} {wanted : List (Option Specifier)}
    (reprints : Imports.Reprints source options processCss module.program item edit wanted) :
    edit ∈ Imports.edits source options processCss module.program ∧ edit.span = item.node.span ∧
      ∃ said, ImportDeclaration.ofNode? item.node = some said ∧
        ImportDeclaration.read? source.dialect edit.text =
          some [some { said with specifiers := wanted, phase := none, attributes := none }] ∧
        (ImportDeclaration.read? source.dialect edit.text = some [some { said with specifiers := wanted }] ↔
          said.attributes = none ∧ said.phase = none) := by
  obtain ⟨member, listed⟩ := reprints.mem_edits
  obtain ⟨said, hasHalves, said_eq, no_types, -, moduleName_eq, lists, -⟩ := exists_said_of_mem_ofProgram parsed member
  have read : ImportDeclaration.read? source.dialect edit.text =
      some [some { said with specifiers := wanted, phase := none, attributes := none }] := by
    rw [no_types, moduleName_eq]
    cases reprints with
    | withoutBinding member fate =>
        obtain ⟨binds, rfl⟩ := ImportFate.of_restated fate
        obtain ⟨kept, kept_says⟩ := lists.erase_resourceBinding binds
        have no_more : ∀ entry ∈ ([] : List SpelledSpecifier), entry.specifier.isNamed = true := nofun
        have written := read?_restate parsed member kept no_more (.inl rfl)
        rwa [List.map_nil, List.map_nil, List.append_nil, kept_says] at written
    | withLoader host =>
        obtain ⟨lacks, no_namespace⟩ := Imports.of_loaderHost? host
        obtain ⟨entry, specifier_eq, text_eq⟩ := exists_loader (names lacks)
        have entry_isNamed : ∀ other ∈ [entry], other.specifier.isNamed = true := by
          intro other member
          rw [List.mem_singleton.mp member, specifier_eq]
          rfl
        have written := read?_restate parsed member lists entry_isNamed (.inr no_namespace)
        rwa [List.map_singleton, List.map_singleton, text_eq, specifier_eq] at written
  refine ⟨listed, reprints.span_eq, said, said_eq, read, ?_⟩
  rw [read]
  obtain ⟨isTypeOnly, phase, specifiers, moduleName, attributes⟩ := said
  simp [eq_comm, and_comm]

/-- An import is written again without some specifier, and what is left of it and what it says pass a check. -/
def ImportItem.restatedPasses (scans : Bool) (item : ImportItem) (check : List Node → ImportDeclaration → Bool) :
    Bool :=
  match ImportFate.ofItem {} scans item, ImportDeclaration.ofNode? item.node with
  | .restated specifiers, some said => check specifiers said
  | _, _ => false

theorem ImportItem.exists_of_restatedPasses {scans : Bool} {item : ImportItem}
    {check : List Node → ImportDeclaration → Bool} (passed : item.restatedPasses scans check = true) :
    ∃ specifiers said, ImportFate.ofItem {} scans item = .restated specifiers ∧
      ImportDeclaration.ofNode? item.node = some said ∧ check specifiers said = true := by
  unfold restatedPasses at passed
  split at passed
  · rename_i specifiers said fate said_eq
    exact ⟨specifiers, said, fate, said_eq, passed⟩
  · cases passed

/-- A source with an import of functions beside renamed exports, an import of the element module, and a style sheet. -/
def renamedExports :
    { source : SourceText //
      source.text = "import FN,\x7ba as b,\"c d\"as e\x7dfrom\"./f\";import N from'next-jsx';" ++
          "import s from \"./s.css\";[b,e,N,s]" ∧
        passes (source.parse source.dialect) (fun module =>
          ((ImportItem.ofProgram module.program).any fun item =>
            item.restatedPasses (source.scansStyles true) fun specifiers said =>
              said.attributes.isNone && said.phase.isNone &&
                (Imports.restate source item specifiers []).text ==
                  "import \x7b a as b, \"c d\"as e \x7d from \"./f\";") &&
          (Imports.loaderHost? {} (source.scansStyles true) (ImportItem.ofProgram module.program)).any fun item =>
            (ImportDeclaration.ofNode? item.node).any fun said => said.attributes.isNone && said.phase.isNone &&
              (Imports.restate source item item.specifiers ["loadStyleText"]).text ==
                "import N, \x7b loadStyleText \x7d from 'next-jsx';") = true } :=
  ⟨⟨"a.js", "import FN,\x7ba as b,\"c d\"as e\x7dfrom\"./f\";import N from'next-jsx';" ++
    "import s from \"./s.css\";[b,e,N,s]"⟩, rfl, by decide +kernel⟩

/-- Renamed exports and names in quotes are kept where the import of the functions is taken out, and where the style
loader is put in. -/
theorem renamed_exports_are_kept :
    ∃ (source : SourceText) (module : SourceModule),
      source.text = "import FN,\x7ba as b,\"c d\"as e\x7dfrom\"./f\";import N from'next-jsx';" ++
          "import s from \"./s.css\";[b,e,N,s]" ∧
        source.parse source.dialect = .ok module ∧ ({} : Options).NamesLoader ∧
        ∀ text ∈ ["import \x7b a as b, \"c d\"as e \x7d from \"./f\";",
            "import N, \x7b loadStyleText \x7d from 'next-jsx';"],
          ∃ item edit wanted said, Imports.Reprints source {} true module.program item edit wanted ∧ edit.text = text ∧
            ImportDeclaration.ofNode? item.node = some said ∧
            ImportDeclaration.read? source.dialect edit.text = some [some { said with specifiers := wanted }] := by
  obtain ⟨source, text, settled⟩ := renamedExports
  obtain ⟨module, parsed, checked⟩ := exists_of_passes settled
  obtain ⟨functions, elements⟩ := Bool.and_eq_true_iff.mp checked
  have loader : ({} : Options).NamesLoader := by decide
  refine ⟨source, module, text, parsed, loader, List.forall_mem_cons.mpr ⟨?_, List.forall_mem_singleton.mpr ?_⟩⟩
  · obtain ⟨item, member, functions⟩ := List.any_eq_true.mp functions
    obtain ⟨specifiers, said, fate, said_eq, functions⟩ := ImportItem.exists_of_restatedPasses functions
    simp only [Bool.and_eq_true, Option.isNone_iff_eq_none] at functions
    obtain ⟨bare, written⟩ := functions
    have reprints : Imports.Reprints source {} true module.program item _ _ := .withoutBinding member fate
    obtain ⟨-, -, said', said_eq', -, same⟩ :=
      reprinted_imports_say_the_same_iff parsed (fun _ => loader) reprints
    cases said_eq.symm.trans said_eq'
    exact ⟨item, _, _, said, reprints, eq_of_beq written, said_eq, same.mpr bare⟩
  · obtain ⟨item, host, elements⟩ := (Option.any_eq_true _ _).mp elements
    obtain ⟨said, said_eq, elements⟩ := (Option.any_eq_true _ _).mp elements
    simp only [Bool.and_eq_true, Option.isNone_iff_eq_none] at elements
    obtain ⟨bare, written⟩ := elements
    have reprints : Imports.Reprints source {} true module.program item _ _ := .withLoader host
    obtain ⟨-, -, said', said_eq', -, same⟩ :=
      reprinted_imports_say_the_same_iff parsed (fun _ => loader) reprints
    cases said_eq.symm.trans said_eq'
    exact ⟨item, _, _, said, reprints, eq_of_beq written, said_eq, same.mpr bare⟩

/-- A source with an import of functions and a name that has attributes. -/
def importAttributes :
    { source : SourceText //
      source.text = "import FN,\x7ba\x7dfrom\"./f\"with\x7btype:\"json\"\x7d;[a]" ∧
        passes (source.parse source.dialect) (fun module =>
          (ImportItem.ofProgram module.program).any fun item =>
            item.restatedPasses false fun specifiers said =>
              let edit := Imports.restate source item specifiers []
              said.attributes.isSome && edit.text == "import \x7b a \x7d from \"./f\";" &&
                ImportDeclaration.read? source.dialect edit.text != some [some { said with
                  specifiers := (item.specifiers.map Specifier.ofNode?).erase (some (.byDefault "FN")) }]) = true } :=
  ⟨⟨"a.js", "import FN,\x7ba\x7dfrom\"./f\"with\x7btype:\"json\"\x7d;[a]"⟩, rfl, by decide +kernel⟩

/-- The attributes of an import are left out when the import of the functions is taken out of it. -/
theorem attributes_are_left_out :
    ∃ (source : SourceText) (module : SourceModule) (item : ImportItem) (edit : Edit) (wanted : List (Option Specifier))
        (said : ImportDeclaration),
      source.text = "import FN,\x7ba\x7dfrom\"./f\"with\x7btype:\"json\"\x7d;[a]" ∧
        source.parse source.dialect = .ok module ∧
        Imports.Reprints source {} false module.program item edit wanted ∧
        ImportDeclaration.ofNode? item.node = some said ∧ said.attributes.isSome = true ∧
        edit.text = "import \x7b a \x7d from \"./f\";" ∧
        ImportDeclaration.read? source.dialect edit.text ≠ some [some { said with specifiers := wanted }] := by
  obtain ⟨source, text, settled⟩ := importAttributes
  obtain ⟨module, parsed, checked⟩ := exists_of_passes settled
  obtain ⟨item, member, checked⟩ := List.any_eq_true.mp checked
  obtain ⟨specifiers, said, fate, said_eq, checked⟩ := ImportItem.exists_of_restatedPasses checked
  simp only [Bool.and_eq_true] at checked
  obtain ⟨⟨attributes, written⟩, differs⟩ := checked
  exact ⟨source, module, item, _, _, said, text, parsed, .withoutBinding member fate, said_eq, attributes,
    eq_of_beq written, bne_iff_ne.mp differs⟩

end Storyboard
