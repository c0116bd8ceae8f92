import Mathlib.Data.List.Pairwise
import Storyboard.Proofs.ForwardSplice
import Storyboard.Proofs.SecondRun

/-!
# Ranges of edits

Replacements that lie in a text and apart from each other can be put into it. The replacements of a
module are such, except for one: the import of the style loader is written into the last import of the
element module, and if that import is changed or removed on its own account as well, two replacements
have the same range.
-/

namespace Storyboard

open Extraction Text

/-! ## Replacements that lie apart -/

/-- A range that is not empty does not lie apart from itself. -/
theorem Span.not_apart_self {span : Span} (filled : span.start < span.stop) : ¬span.Apart span := by
  rintro (before | before) <;> omega

/-- Replacements that lie in a text and apart from each other can be made. -/
theorem Edit.exists_splice? {source : String} {edits : List Edit} (inside : ∀ edit ∈ edits, edit.span.IsIn source.toList)
    (apart : edits.Pairwise fun left right => left.span.Apart right.span) :
    ∃ text, splice? source edits = some text :=
  ⟨_, by rw [splice?, performAll?_eq_weave inside apart]; rfl⟩

/-! ## Statements of a module -/

/-- A module that has been read is a list of statements. -/
theorem exists_form_of_parse {source : SourceText} {dialect : Dialect} {module : SourceModule}
    (parsed : source.parse dialect = .ok module) : ∃ statements, module.program.form = .program statements := by
  unfold SourceText.parse at parsed
  split at parsed
  · rename_i read read_eq
    obtain rfl := Except.ok.inj parsed
    simp only [SourceModule.parse?, Option.bind_eq_bind, Option.bind_eq_some_iff] at read_eq
    obtain ⟨first, -, last, -, ends⟩ := read_eq
    split at ends
    · obtain rfl := Option.some.inj ends
      exact ⟨last.1, rfl⟩
    · cases ends
  · cases parsed

/-- An import as it is read: it is no empty range, and each of its specifiers brings in a name. -/
structure ImportItem.IsWritten (item : ImportItem) : Prop where
  filled : item.node.span.start < item.node.span.stop
  named : ∀ specifier ∈ item.specifiers, (ImportItem.localName? specifier).isSome = true

instance (item : ImportItem) : Decidable item.IsWritten :=
  decidable_of_iff
    (item.node.span.start < item.node.span.stop ∧
      ∀ specifier ∈ item.specifiers, (ImportItem.localName? specifier).isSome = true)
    ⟨fun both => ⟨both.1, both.2⟩, fun written => ⟨written.filled, written.named⟩⟩

section Statements

variable {program : Node} {statements : List Node}

theorem node_of_ofStatement? {statement : Node} {item : ImportItem}
    (imports : ImportItem.ofStatement? statement = some item) : item.node = statement := by
  unfold ImportItem.ofStatement? at imports
  split at imports
  · rw [← Option.some.inj imports]
  · cases imports

theorem isKeyName_of_import {statement : Node} {item : ImportItem}
    (imports : ImportItem.ofStatement? statement = some item) : statement.isKeyName = false := by
  obtain ⟨head, form_eq⟩ := Node.form_of_ofStatement? imports
  rw [Node.isKeyName, form_eq]

theorem mem_statements_of_import (form_eq : program.form = .program statements) {item : ImportItem}
    (member : item ∈ ImportItem.ofProgram program) :
    item.node ∈ statements ∧ ImportItem.ofStatement? item.node = some item := by
  obtain ⟨statement, statement_mem, imports⟩ := List.mem_filterMap.mp member
  rw [Node.children, form_eq] at statement_mem
  rw [node_of_ofStatement? imports]
  exact ⟨statement_mem, imports⟩

/-- The statements of a module lie apart from each other. -/
theorem pairwise_apart_statements (form_eq : program.form = .program statements) (nested : program.WellNested) :
    statements.Pairwise fun left right =>
      left.isKeyName = false → right.isKeyName = false → left.span.Apart right.span := by
  have apart := (nested (.root program) (Site.self_mem_within _)).apart
  have parts_eq : (Site.root program).node.parts = statements.map fun statement => (Part.body, statement) :=
    Node.parts_of_form form_eq
  rw [parts_eq, List.pairwise_filter, List.pairwise_map] at apart
  exact apart.imp fun apart left right => apart (by simp [left]) (by simp [right])

/-- The imports of a module lie apart from each other. -/
theorem pairwise_apart_imports (form_eq : program.form = .program statements) (nested : program.WellNested) :
    (ImportItem.ofProgram program).Pairwise fun left right => left.node.span.Apart right.node.span := by
  have children_eq : program.children = statements := by rw [Node.children, form_eq]; rfl
  rw [ImportItem.ofProgram, children_eq, List.pairwise_filterMap]
  refine (pairwise_apart_statements form_eq nested).imp ?_
  intro left right apart item imports other other_imports
  rw [node_of_ofStatement? imports, node_of_ofStatement? other_imports]
  exact apart (isKeyName_of_import imports) (isKeyName_of_import other_imports)

/-- What is replaced in a module lies inside a statement that is no import. -/
theorem exists_statement_of_mem_replacedSites {options : Options} (form_eq : program.form = .program statements)
    (nested : program.WellNested) {site : Site} (replaced : site ∈ program.replacedSites options) :
    ∃ statement ∈ statements, site.extent.Within statement.span ∧ statement.isKeyName = false ∧
      ∀ item, ImportItem.ofStatement? statement = some item → ¬item.IsWritten := by
  have static : (Site.root program).isDynamic options = false :=
    needsEvaluation_eq_false_of_no_expression _ (by rw [Site.node_root, form_eq]; rfl)
  rw [Node.replacedSites, Node.sites, Site.filter_isReplaced_within (by simp), Site.outermost_of_static static,
    Node.below_root form_eq] at replaced
  obtain ⟨top, top_mem, replaced⟩ := List.mem_flatMap.mp replaced
  obtain ⟨statement, statement_mem, rfl⟩ := List.mem_map.mp top_mem
  have top_nested : ∀ deep ∈ Site.within ⟨statement, [⟨program, .body⟩]⟩, deep.node.HasNestedParts := by
    intro deep deep_mem
    exact nested deep (Site.mem_within_of_below (by rwa [Node.below_root form_eq]) deep_mem)
  have spelled : Site.property? ⟨statement, [⟨program, .body⟩]⟩ = none := by
    simp [Site.property?, shorthandValue?, form_eq]
  refine ⟨statement, statement_mem, Site.extent_within_of_mem_outermost top_nested spelled replaced, ?_, ?_⟩
  · by_contra isName
    rw [Site.outermost_of_isKeyName (by simpa using isName)] at replaced
    cases replaced
  · intro item imports written
    have enclosed : ∀ outer ∈ Site.enclosing ⟨statement, [⟨program, .body⟩]⟩,
        outer.isDynamic options = false := by
      intro outer around
      obtain rfl := List.mem_singleton.mp around
      exact static
    rw [← Site.filter_isReplaced_within enclosed] at replaced
    obtain ⟨site_mem, isReplaced⟩ := List.mem_filter.mp replaced
    have none := Site.static_within_import options imports written.named site site_mem
    rw [(Site.isReplaced_iff.mp isReplaced).1] at none
    cases none

/-- What is replaced in a module lies apart from its imports. -/
theorem apart_of_mem_replacedSites {options : Options} (form_eq : program.form = .program statements)
    (nested : program.WellNested) {site : Site} (replaced : site ∈ program.replacedSites options)
    {item : ImportItem} (member : item ∈ ImportItem.ofProgram program) (written : item.IsWritten) :
    site.extent.Apart item.node.span := by
  obtain ⟨import_mem, imports⟩ := mem_statements_of_import form_eq member
  obtain ⟨statement, statement_mem, inside, no_name, no_import⟩ :=
    exists_statement_of_mem_replacedSites form_eq nested replaced
  have differ : statement ≠ item.node := by
    rintro rfl
    exact no_import item imports written
  have symmetric : Std.Symm fun left right : Node =>
      left.isKeyName = false → right.isKeyName = false → left.span.Apart right.span :=
    ⟨fun left right apart right_name left_name => (apart left_name right_name).symm⟩
  have apart := (pairwise_apart_statements form_eq nested).forall statement_mem import_mem differ no_name
    (isKeyName_of_import imports)
  exact apart.mono inside ⟨Nat.le_refl _, Nat.le_refl _⟩

end Statements

/-! ## The import of the style loader -/

namespace Imports

/-- The last import of the element module. -/
def elementImport? (options : Options) (items : List ImportItem) : Option ImportItem :=
  (items.filter fun item => item.source.value == options.jsxModule).getLast?

/-- Whether the style loader is called and not imported yet. -/
def lacksLoader (options : Options) (scansStyles : Bool) (items : List ImportItem) : Bool :=
  (items.any fun item => (styleName? scansStyles item).isSome) &&
    !(items.filter fun item => item.source.value == options.jsxModule).any fun item =>
      item.specifiers.any (ImportItem.importsAsItself options.styleLoader)

/-- The import into which the import of the style loader is written, if there is one. -/
def loaderHost? (options : Options) (scansStyles : Bool) (items : List ImportItem) : Option ImportItem :=
  if lacksLoader options scansStyles items then
    (elementImport? options items).filter fun item => !item.specifiers.any ImportItem.isNamespace
  else none

/-- The import that takes the style loader is also changed or removed on its own account. -/
def ChangesHost (source : SourceText) (options : Options) (processCss : Bool) (program : Node) : Prop :=
  ∃ host, loaderHost? options (source.scansStyles processCss) (ImportItem.ofProgram program) = some host ∧
    ImportFate.ofItem options (source.scansStyles processCss) host ≠ .kept

theorem mem_of_loaderHost? {options : Options} {scansStyles : Bool} {items : List ImportItem} {host : ImportItem}
    (found : loaderHost? options scansStyles items = some host) :
    host ∈ items ∧ host.source.value = options.jsxModule := by
  unfold loaderHost? at found
  split at found
  · obtain ⟨last, -⟩ := Option.filter_eq_some_iff.mp found
    have listed := List.mem_filter.mp (List.mem_of_getLast? last)
    exact ⟨listed.1, eq_of_beq listed.2⟩
  · cases found

theorem loaderEdit_cases (source : SourceText) (options : Options) (elementImport : Option ImportItem) :
    match elementImport.filter fun item => !item.specifiers.any ImportItem.isNamespace with
    | some host => (loaderEdit source options elementImport).span = host.node.span
    | none => ∃ text, loaderEdit source options elementImport = .insertion 0 text := by
  cases elementImport with
  | none => exact ⟨_, rfl⟩
  | some item =>
      cases takesAll : item.specifiers.any ImportItem.isNamespace with
      | true => simp [Option.filter, takesAll, loaderEdit]
      | false =>
          simp only [Option.filter, takesAll, loaderEdit]
          rfl

/-- The edits of all imports of a module, given whether style sheets are looked for: those of single imports, and the
one that adds the style loader if that lacks. -/
def editsGiven (source : SourceText) (options : Options) (scansStyles : Bool) (program : Node) : List Edit :=
  (ImportItem.ofProgram program).filterMap (edit? source options scansStyles) ++
    if lacksLoader options scansStyles (ImportItem.ofProgram program) then
      [loaderEdit source options (elementImport? options (ImportItem.ofProgram program))] else []

theorem edits_eq_editsGiven (source : SourceText) (options : Options) (processCss : Bool) (program : Node) :
    edits source options processCss program = editsGiven source options (source.scansStyles processCss) program := rfl

/-- Besides the edits of single imports there is at most one, for the style loader: it has the range of the import
that takes the loader, or adds a text at the beginning. -/
theorem exists_edits_eq (source : SourceText) (options : Options) (processCss : Bool) (program : Node) :
    ∃ added, edits source options processCss program =
        (ImportItem.ofProgram program).filterMap (edit? source options (source.scansStyles processCss)) ++ added ∧
      match loaderHost? options (source.scansStyles processCss) (ImportItem.ofProgram program) with
      | some host => ∃ edit, added = [edit] ∧ edit.span = host.node.span
      | none => added = [] ∨ ∃ text, added = [.insertion 0 text] := by
  rw [edits_eq_editsGiven]
  refine ⟨_, rfl, ?_⟩
  rw [loaderHost?]
  cases lacksLoader options (source.scansStyles processCss) (ImportItem.ofProgram program) with
  | false => exact .inl rfl
  | true =>
      have cases := loaderEdit_cases source options (elementImport? options (ImportItem.ofProgram program))
      simp only [if_true]
      split at cases
      · exact ⟨_, rfl, cases⟩
      · obtain ⟨text, edit_eq⟩ := cases
        exact .inr ⟨text, by rw [edit_eq]⟩

/-- The edits of single imports, each with its import. -/
theorem exists_import_of_mem {source : SourceText} {options : Options} {scansStyles : Bool} {items : List ImportItem}
    {edit : Edit} (member : edit ∈ items.filterMap (edit? source options scansStyles)) :
    ∃ item ∈ items, edit.span = item.node.span ∧ ImportFate.ofItem options scansStyles item ≠ .kept := by
  obtain ⟨item, item_mem, edited⟩ := List.mem_filterMap.mp member
  rw [ImportFate.edit?_ofItem] at edited
  refine ⟨item, item_mem, ImportFate.span_of_edit? edited, fun stays => ?_⟩
  rw [stays] at edited
  cases edited

/-- An edit of the imports has the range of an import, or adds a text at the beginning. -/
theorem span_of_mem_edits {source : SourceText} {options : Options} {processCss : Bool} {program : Node} {edit : Edit}
    (member : edit ∈ edits source options processCss program) :
    (∃ item ∈ ImportItem.ofProgram program, edit.span = item.node.span) ∨ edit.span = ⟨0, 0⟩ := by
  obtain ⟨added, edits_eq, shape⟩ := exists_edits_eq source options processCss program
  rw [edits_eq] at member
  rcases List.mem_append.mp member with single | member
  · obtain ⟨item, item_mem, span_eq, -⟩ := exists_import_of_mem single
    exact .inl ⟨item, item_mem, span_eq⟩
  · split at shape
    · rename_i host found
      obtain ⟨loading, rfl, span_eq⟩ := shape
      obtain rfl := List.mem_singleton.mp member
      exact .inl ⟨host, (mem_of_loaderHost? found).1, span_eq⟩
    · rcases shape with rfl | ⟨text, rfl⟩
      · cases member
      · obtain rfl := List.mem_singleton.mp member
        exact .inr rfl

end Imports

/-- An import of an element module that is no file of the application and not the runtime module is kept. -/
theorem ImportFate.ofItem_of_elements {options : Options} {item : ImportItem} (scansStyles : Bool)
    (foreign : options.jsxModule.startsWith "." = false) (differ : options.jsxModule ≠ options.runtimeModule)
    (source_eq : item.source.value = options.jsxModule) : ofItem options scansStyles item = .kept := by
  have no_file : item.isRelative = false := by rw [ImportItem.isRelative, source_eq, foreign]
  have no_sheet : Imports.styleName? scansStyles item = none := by
    simp [Imports.styleName?, ImportItem.isStyleSheet, no_file]
  simp [ofItem, no_sheet, source_eq, differ, no_file]

namespace Imports

/-- The import that takes the style loader is not changed on its own account if the element module is no file of the
application and not the runtime module. -/
theorem not_changesHost (source : SourceText) {options : Options} (processCss : Bool) (program : Node)
    (differ : options.jsxModule ≠ options.runtimeModule) (foreign : options.jsxModule.startsWith "." = false) :
    ¬ChangesHost source options processCss program := by
  rintro ⟨host, found, changed⟩
  exact changed (ImportFate.ofItem_of_elements _ foreign differ (mem_of_loaderHost? found).2)

/-- If the host of the style loader is changed on its own account, it is the range of two edits. -/
theorem exists_twice_of_changesHost {source : SourceText} {options : Options} {processCss : Bool} {program : Node}
    (changes : ChangesHost source options processCss program) :
    ∃ host ∈ ImportItem.ofProgram program, ∃ (front between : List Edit) (own loading : Edit),
      edits source options processCss program = front ++ own :: between ++ [loading] ∧
        own.span = host.node.span ∧ loading.span = host.node.span := by
  obtain ⟨host, found, changed⟩ := changes
  obtain ⟨added, edits_eq, shape⟩ := exists_edits_eq source options processCss program
  rw [found] at shape
  obtain ⟨loading, rfl, loading_span⟩ := shape
  have host_mem := (mem_of_loaderHost? found).1
  obtain ⟨own, own_edit⟩ : ∃ own, edit? source options (source.scansStyles processCss) host = some own := by
    rw [← Option.ne_none_iff_exists']
    rwa [ImportFate.edit?_ofItem, Ne, ImportFate.edit?_eq_none_iff]
  have own_span : own.span = host.node.span := by
    rw [ImportFate.edit?_ofItem] at own_edit
    exact ImportFate.span_of_edit? own_edit
  obtain ⟨front, between, single_eq⟩ := List.append_of_mem (List.mem_filterMap.mpr ⟨host, host_mem, own_edit⟩)
  exact ⟨host, host_mem, front, between, own, loading, by rw [edits_eq, single_eq], own_span, loading_span⟩

end Imports

/-! ## All edits of a module -/

/-- Where an expression is replaced, it or the property that it gives alone lies in the text. -/
theorem Site.isIn_extent {program : Node} {text : List Char} (placed : program.LiesIn text) {site : Site}
    (member : site ∈ program.sites) : site.extent.IsIn text := by
  rcases eq_or_mem_below_of_mem_within member with rfl | ⟨parent, parent_mem, below_mem⟩
  · exact placed _ member
  · obtain ⟨part, -, rfl⟩ := List.mem_map.mp below_mem
    cases shorthand : shorthandValue? parent.node with
    | none =>
        rw [extent, property?_enter part shorthand]
        exact placed _ member
    | some found =>
        have whole : (parent.enter part).extent = parent.node.span := by simp [extent, property?, enter, shorthand]
        rw [whole]
        exact placed parent parent_mem

section Edits

variable {source : SourceText} {options : Options} {program : Node} {statements : List Node} {found : Findings}

theorem exists_site_of_mem (walked : findings source options program = .ok found) {edit : Edit}
    (member : edit ∈ found.edits) : ∃ site ∈ program.replacedSites options, edit.span = site.extent := by
  have span_mem := List.mem_map_of_mem (f := Edit.span) member
  rw [map_span_edits walked] at span_mem
  obtain ⟨site, site_mem, span_eq⟩ := List.mem_map.mp span_mem
  exact ⟨site, site_mem, span_eq.symm⟩

/-- All edits of a module lie in its text. -/
theorem isIn_of_mem_edits (form_eq : program.form = .program statements) (placed : program.LiesIn source.text.toList)
    (walked : findings source options program = .ok found) (processCss : Bool) {edit : Edit}
    (member : edit ∈ found.edits ++ Imports.edits source options processCss program) :
    edit.span.IsIn source.text.toList := by
  rcases List.mem_append.mp member with member | member
  · obtain ⟨site, replaced, span_eq⟩ := exists_site_of_mem walked member
    rw [span_eq]
    exact Site.isIn_extent placed (List.mem_filter.mp replaced).1
  · rcases Imports.span_of_mem_edits member with ⟨item, item_mem, span_eq⟩ | span_eq
    · rw [span_eq]
      have statement_mem := (mem_statements_of_import form_eq item_mem).1
      have top_mem : ⟨item.node, [⟨program, .body⟩]⟩ ∈ (Site.root program).below := by
        rw [Node.below_root form_eq]
        exact List.mem_map.mpr ⟨item.node, statement_mem, rfl⟩
      exact placed _ (Site.mem_within_of_below top_mem (Site.self_mem_within _))
    · rw [span_eq]
      exact ⟨Nat.le_refl _, by simp [splitAt?], by simp [splitAt?]⟩

/-- The edits of a module lie apart, unless the host of the style loader is changed on its own account. -/
theorem pairwise_apart_edits (form_eq : program.form = .program statements) (nested : program.WellNested)
    (written : ∀ item ∈ ImportItem.ofProgram program, item.IsWritten)
    (walked : findings source options program = .ok found) {processCss : Bool}
    (keeps : ¬Imports.ChangesHost source options processCss program) :
    (found.edits ++ Imports.edits source options processCss program).Pairwise fun left right =>
      left.span.Apart right.span := by
  have walk_apart : found.edits.Pairwise fun left right => left.span.Apart right.span := by
    have apart := pairwise_apart_replacedSites options nested
    rwa [← List.pairwise_map, ← map_span_edits walked, List.pairwise_map] at apart
  have imports_apart := pairwise_apart_imports form_eq nested
  rw [List.pairwise_append]
  refine ⟨walk_apart, ?_, ?_⟩
  · obtain ⟨added, edits_eq, shape⟩ := Imports.exists_edits_eq source options processCss program
    rw [edits_eq, List.pairwise_append]
    refine ⟨?_, ?_, ?_⟩
    · refine List.pairwise_filterMap.mpr (imports_apart.imp ?_)
      intro left right apart edit edited other other_edited
      rw [ImportFate.edit?_ofItem] at edited other_edited
      rwa [ImportFate.span_of_edit? edited, ImportFate.span_of_edit? other_edited]
    · split at shape
      · obtain ⟨loading, rfl, -⟩ := shape
        exact List.pairwise_singleton _ _
      · rcases shape with rfl | ⟨text, rfl⟩
        · exact .nil
        · exact List.pairwise_singleton _ _
    · intro edit single loading added_mem
      obtain ⟨item, item_mem, span_eq, changed⟩ := Imports.exists_import_of_mem single
      split at shape
      · rename_i host host_eq
        obtain ⟨_, rfl, loading_span⟩ := shape
        obtain rfl := List.mem_singleton.mp added_mem
        have differ : item ≠ host := by
          rintro rfl
          exact keeps ⟨item, host_eq, changed⟩
        have symmetric : Std.Symm fun left right : ImportItem => left.node.span.Apart right.node.span :=
          ⟨fun _ _ apart => apart.symm⟩
        rw [span_eq, loading_span]
        exact imports_apart.forall item_mem (Imports.mem_of_loaderHost? host_eq).1 differ
      · rcases shape with rfl | ⟨text, rfl⟩
        · cases added_mem
        · obtain rfl := List.mem_singleton.mp added_mem
          exact .inr (Nat.zero_le _)
  · intro edit member other other_mem
    obtain ⟨site, replaced, span_eq⟩ := exists_site_of_mem walked member
    rcases Imports.span_of_mem_edits other_mem with ⟨item, item_mem, other_eq⟩ | other_eq
    · rw [span_eq, other_eq]
      exact apart_of_mem_replacedSites form_eq nested replaced item_mem (written item item_mem)
    · rw [other_eq]
      exact .inr (Nat.zero_le _)

/-- No two edits have the range of the same import, unless the host of the style loader is changed on its own
account. -/
theorem edits_once_iff (form_eq : program.form = .program statements) (nested : program.WellNested)
    (written : ∀ item ∈ ImportItem.ofProgram program, item.IsWritten)
    (walked : findings source options program = .ok found) {processCss : Bool} :
    (∀ item ∈ ImportItem.ofProgram program,
      (found.edits ++ Imports.edits source options processCss program).Pairwise fun left right =>
        ¬(left.span = item.node.span ∧ right.span = item.node.span)) ↔
      ¬Imports.ChangesHost source options processCss program := by
  constructor
  · intro once changes
    obtain ⟨host, host_mem, front, between, own, loading, edits_eq, own_span, loading_span⟩ :=
      Imports.exists_twice_of_changesHost changes
    have imports_once := (List.pairwise_append.mp (once host host_mem)).2.1
    rw [edits_eq] at imports_once
    have own_mem : own ∈ front ++ own :: between := List.mem_append_right _ List.mem_cons_self
    exact (List.pairwise_append.mp imports_once).2.2 own own_mem loading (List.mem_singleton_self _)
      ⟨own_span, loading_span⟩
  · intro keeps item item_mem
    refine (pairwise_apart_edits form_eq nested written walked keeps).imp ?_
    rintro left right apart ⟨left_eq, right_eq⟩
    rw [left_eq, right_eq] at apart
    exact Span.not_apart_self (written item item_mem).filled apart

/-- A module whose edits lie apart can be put together. -/
theorem exists_extraction {module : SourceModule} (parsed : source.parse source.dialect = .ok module)
    (nested : module.program.WellNested) (placed : module.program.LiesIn source.text.toList)
    (written : ∀ item ∈ ImportItem.ofProgram module.program, item.IsWritten)
    (walked : findings source options module.program = .ok found) {processCss : Bool}
    (keeps : ¬Imports.ChangesHost source options processCss module.program) :
    ∃ extraction, run source options processCss = .ok extraction := by
  obtain ⟨statements, form_eq⟩ := exists_form_of_parse parsed
  obtain ⟨text, spliced⟩ := Edit.exists_splice?
    (fun edit => isIn_of_mem_edits form_eq placed walked processCss)
    (pairwise_apart_edits form_eq nested written walked keeps)
  rw [run_of_findings parsed walked, assemble]
  split
  · exact ⟨_, rfl⟩
  · rw [spliced]
    exact ⟨_, rfl⟩

end Edits

/-- The edits of a module lie in its text. They lie apart, and no import is the range of two of them, exactly
unless the import that takes the style loader is changed or removed on its own account as well; then they can all
be made. That does not happen if the element module is another one than the runtime module and no file of the
application. -/
theorem edits_lie_apart_iff {source : SourceText} {options : Options} {module : SourceModule} {found : Findings}
    (parsed : source.parse source.dialect = .ok module) (nested : module.program.WellNested)
    (placed : module.program.LiesIn source.text.toList)
    (written : ∀ item ∈ ImportItem.ofProgram module.program, item.IsWritten)
    (walked : findings source options module.program = .ok found) (processCss : Bool) :
    (∀ edit ∈ found.edits ++ Imports.edits source options processCss module.program,
      edit.span.IsIn source.text.toList) ∧
      ((found.edits ++ Imports.edits source options processCss module.program).Pairwise (fun left right =>
          left.span.Apart right.span) ↔
        ¬Imports.ChangesHost source options processCss module.program) ∧
      ((∀ item ∈ ImportItem.ofProgram module.program,
          (found.edits ++ Imports.edits source options processCss module.program).Pairwise fun left right =>
            ¬(left.span = item.node.span ∧ right.span = item.node.span)) ↔
        ¬Imports.ChangesHost source options processCss module.program) ∧
      (¬Imports.ChangesHost source options processCss module.program →
        ∃ extraction, run source options processCss = .ok extraction) ∧
      (options.jsxModule ≠ options.runtimeModule → options.jsxModule.startsWith "." = false →
        ¬Imports.ChangesHost source options processCss module.program) := by
  obtain ⟨statements, form_eq⟩ := exists_form_of_parse parsed
  have inside := fun edit => @isIn_of_mem_edits source options _ _ _ form_eq placed walked processCss edit
  have once := @edits_once_iff source options _ _ _ form_eq nested written walked processCss
  refine ⟨inside, ⟨fun apart => once.mp fun item item_mem => apart.imp ?_, ?_⟩, once,
    exists_extraction parsed nested placed written walked, Imports.not_changesHost source processCss module.program⟩
  · rintro left right apart ⟨left_eq, right_eq⟩
    rw [left_eq, right_eq] at apart
    exact Span.not_apart_self (written item item_mem).filled apart
  · exact pairwise_apart_edits form_eq nested written walked

/-- A source with a style sheet, an import of the element module and a call. -/
def sheetHostAndCall :
    { source : SourceText //
      source.text = "import s from \"./x.css\";import\x7ba\x7dfrom\"next-jsx\";[f(s)]" ∧
        passes (source.parse source.dialect) (fun module =>
          Decidable.decide (module.program.WellNested ∧ module.program.LiesIn source.text.toList ∧
            ∀ item ∈ ImportItem.ofProgram module.program, item.IsWritten) &&
          passes (findings source {} module.program) fun found =>
            (found.edits ++ Imports.edits source {} true module.program).map Edit.span ==
              [⟨49, 53⟩, ⟨0, 24⟩, ⟨24, 48⟩]) = true } :=
  ⟨⟨"a.js", "import s from \"./x.css\";import\x7ba\x7dfrom\"next-jsx\";[f(s)]"⟩, rfl, by decide +kernel⟩

/-- A style sheet and a call beside an import of the element module, which takes the style loader. -/
theorem sheet_and_call_are_replaced :
    ∃ (source : SourceText) (module : SourceModule) (found : Findings),
      source.text = "import s from \"./x.css\";import\x7ba\x7dfrom\"next-jsx\";[f(s)]" ∧
        source.parse source.dialect = .ok module ∧ module.program.WellNested ∧
        module.program.LiesIn source.text.toList ∧
        (∀ item ∈ ImportItem.ofProgram module.program, item.IsWritten) ∧
        findings source {} module.program = .ok found ∧
        (found.edits ++ Imports.edits source {} true module.program).map Edit.span =
          [⟨49, 53⟩, ⟨0, 24⟩, ⟨24, 48⟩] ∧
        (found.edits ++ Imports.edits source {} true module.program).Pairwise (fun left right =>
          left.span.Apart right.span) ∧
        ∃ extraction, run source {} true = .ok extraction := by
  obtain ⟨source, text, settled⟩ := sheetHostAndCall
  obtain ⟨module, parsed, checked⟩ := exists_of_passes settled
  obtain ⟨fine, walk⟩ := Bool.and_eq_true_iff.mp checked
  obtain ⟨nested, placed, written⟩ := of_decide_eq_true fine
  obtain ⟨found, walked, spans⟩ := exists_of_passes walk
  have all := edits_lie_apart_iff parsed nested placed written walked true
  have keeps := all.2.2.2.2 (by decide) (by simp)
  exact ⟨source, module, found, text, parsed, nested, placed, written, walked, eq_of_beq spans, all.2.1.mpr keeps,
    all.2.2.2.1 keeps⟩

/-- If the element module is the runtime module, its import is removed and takes the style loader as well; the
replacements do not fit the text. -/
theorem host_in_runtime_module_is_edited_twice :
    ∃ (source : SourceText) (options : Options) (module : SourceModule) (found : Findings),
      source.text = "import s from \"./x.css\";import\x7ba\x7dfrom\"m\"" ∧ options.runtimeModule = "m" ∧
        options.jsxModule = "m" ∧ source.parse source.dialect = .ok module ∧
        findings source options module.program = .ok found ∧
        (found.edits ++ Imports.edits source options true module.program).map Edit.span =
          [⟨0, 24⟩, ⟨24, 40⟩, ⟨24, 40⟩] ∧
        ¬((found.edits ++ Imports.edits source options true module.program).Pairwise fun left right =>
          left.span.Apart right.span) ∧
        run source options true = .error .misplaced := by
  let options : Options := { runtimeModule := "m", jsxModule := "m" }
  let sheet : Edit := ⟨0, 24, "const s = loadStyleText(\"./x.css\", import.meta.url);"⟩
  let removal : Edit := ⟨24, 40, ""⟩
  let loading : Edit := ⟨24, 40, "import \x7b a, loadStyleText \x7d from \"m\";"⟩
  have settled : ∃ source : SourceText, source.text = "import s from \"./x.css\";import\x7ba\x7dfrom\"m\"" ∧
      passes (source.parse source.dialect) (fun module =>
        passes (findings source options module.program) fun found =>
          Decidable.decide (found.edits ++ Imports.edits source options true module.program =
            [sheet, removal, loading])) = true :=
    ⟨⟨"a.js", "import s from \"./x.css\";import\x7ba\x7dfrom\"m\""⟩, rfl, by decide +kernel⟩
  obtain ⟨source, text, settled⟩ := settled
  obtain ⟨module, parsed, walk⟩ := exists_of_passes settled
  obtain ⟨found, walked, edits_eq⟩ := exists_of_passes walk
  replace edits_eq := of_decide_eq_true edits_eq
  -- the imports stand in the order of the text, so the last ones are made first
  have sorted : [sheet, removal, loading].mergeSort Edit.precedes = [removal, loading, sheet] := by
    have first : Edit.precedes sheet removal = false := by decide
    have second : Edit.precedes sheet loading = false := by decide
    have same : Edit.precedes removal loading = true := by decide
    simp [List.mergeSort, List.MergeSort.Internal.splitInTwo, first, second, same]
  have unfit : [removal, loading, sheet].foldlM Edit.perform? source.text.toList = none := by
    rw [text]
    decide +kernel
  refine ⟨source, options, module, found, text, rfl, rfl, parsed, walked, by rw [edits_eq]; rfl, ?_, ?_⟩
  · rw [edits_eq]
    decide
  · rw [run_of_findings parsed walked, assemble, edits_eq, Edit.splice?, Edit.performAll?, sorted, unfit]
    split
    · rename_i unedited
      obtain ⟨no_edits, no_imports⟩ := Bool.and_eq_true_iff.mp unedited
      rw [List.isEmpty_iff.mp no_edits, List.isEmpty_iff.mp no_imports] at edits_eq
      cases edits_eq
    · rfl

end Storyboard
