import Mathlib.Data.List.Forall2
import Storyboard.Proofs.RemainingImports
import Storyboard.Proofs.Rereading

/-!
# Extraction of what extraction wrote

A run on the text that a run wrote should change nothing. It changes nothing exactly if the text can be
read, nothing in it is dynamic and all its imports are kept. For a text that is read as the old module with
its dynamic expressions and its imports replaced, this is said of the old module: every name that stays has a
meaning in the new module that lets it stay, the style loader is known there, and style sheets are looked
for in it only if they were looked for before.
-/

namespace Storyboard

open Extraction

/-! ## Runs that change nothing -/

/-- A walk over a module finds nothing to replace exactly if nothing in it is dynamic. -/
theorem findings_edits_eq_nil_iff (source : SourceText) (options : Options) (program : Node) :
    (∃ found, findings source options program = .ok found ∧ found.edits = []) ↔
      ∀ site ∈ program.sites, site.isDynamic options = false := by
  constructor
  · rintro ⟨found, walked, no_edits⟩ site member
    by_contra dynamic
    obtain ⟨outer, -, replaced⟩ :=
      exists_mem_replacedSites member List.mem_cons_self (by simpa using dynamic)
    have spans := map_span_edits walked
    rw [no_edits, List.map_nil] at spans
    have no_sites := List.map_eq_nil_iff.mp spans.symm
    simp [no_sites] at replaced
  · intro static
    have no_sites : program.replacedSites options = [] := by
      rw [Node.replacedSites, List.filter_eq_nil_iff]
      intro site member replaced
      have dynamic := (Site.isReplaced_iff.mp replaced).1
      simp [static site member] at dynamic
    have walk := findings_edits source options program
    rw [no_sites] at walk
    cases walked : findings source options program with
    | error error => simp [walked, Except.map, pure, Except.pure] at walk
    | ok found =>
        refine ⟨found, rfl, ?_⟩
        simpa [walked, Except.map, pure, Except.pure] using walk

/-- Nothing in a module is dynamic and all its imports are kept. -/
structure Node.IsSettled (scansStyles : Bool) (program : Node) : Prop where
  /-- Nothing is dynamic. -/
  static : ∀ site ∈ program.sites, site.isDynamic {} = false
  /-- All imports are kept. -/
  kept : ∀ item ∈ ImportItem.ofProgram program, ImportFate.ofItem {} scansStyles item = .kept

namespace SourceText

/-- Whether a run looks for style sheets in a source. -/
def scansStyles (source : SourceText) (processCss : Bool) : Bool :=
  processCss && StyleSheetGate.isOpen source.text.toList

/-- A run on a source succeeds and changes nothing. -/
def IsFixed (source : SourceText) (processCss : Bool) : Prop :=
  ∃ extraction, run source {} processCss = .ok extraction ∧ extraction.code = none ∧
    extraction.placeholders = 0

/-- A run that succeeds has read the source and walked over it. -/
theorem exists_findings_of_run {source : SourceText} {processCss : Bool} {extraction : Extraction}
    (extracted : run source {} processCss = .ok extraction) :
    ∃ module found, source.parse source.dialect = .ok module ∧
      findings source {} module.program = .ok found ∧
      assemble source found (Imports.edits source {} processCss module.program) = .ok extraction := by
  cases parsed : source.parse source.dialect with
  | error error => simp [run, parsed, Except.mapError, bind, Except.bind] at extracted
  | ok module =>
      cases walked : findings source {} module.program with
      | error error => simp [run, parsed, walked, Except.mapError, bind, Except.bind] at extracted
      | ok found => exact ⟨module, found, rfl, walked, by rwa [run_of_findings parsed walked] at extracted⟩

/-- The new text of a module is its text with the replacements. -/
theorem splice?_of_assemble {source : SourceText} {found : Findings} {importEdits : List Edit}
    {extraction : Extraction} {code : String} (assembled : assemble source found importEdits = .ok extraction)
    (written : extraction.code = some code) :
    Edit.splice? source.text (found.edits ++ importEdits) = some code := by
  unfold assemble at assembled
  split at assembled
  · obtain rfl := Except.ok.inj assembled
    simp at written
  · split at assembled
    · rename_i text spliced
      obtain rfl := Except.ok.inj assembled
      rwa [← Option.some.inj written]
    · simp at assembled

/-- A run changes nothing exactly if the source can be read and is settled. -/
theorem isFixed_iff (source : SourceText) (processCss : Bool) :
    source.IsFixed processCss ↔ ∃ module, source.parse source.dialect = .ok module ∧
      module.program.IsSettled (source.scansStyles processCss) := by
  constructor
  · rintro ⟨extraction, extracted, unchanged, -⟩
    obtain ⟨module, found, parsed, walked, assembled⟩ := exists_findings_of_run extracted
    rw [assemble] at assembled
    split at assembled
    · rename_i empty
      simp only [Bool.and_eq_true, List.isEmpty_iff] at empty
      refine ⟨module, parsed, ?_, ?_⟩
      · exact (findings_edits_eq_nil_iff source {} _).mp ⟨found, walked, empty.1⟩
      · exact (ImportFate.edits_eq_nil_iff source {} processCss _).mp empty.2
    · split at assembled
      · obtain rfl := Except.ok.inj assembled
        simp at unchanged
      · simp at assembled
  · rintro ⟨module, parsed, settled⟩
    obtain ⟨found, walked, no_edits⟩ := (findings_edits_eq_nil_iff source {} _).mpr settled.static
    have no_import_edits := (ImportFate.edits_eq_nil_iff source {} processCss _).mpr settled.kept
    refine ⟨⟨none, found.warnings, 0⟩, ?_, rfl, rfl⟩
    simp [run_of_findings parsed walked, assemble, no_edits, no_import_edits]

end SourceText

/-! ## Modules that are read again -/

/-- The name of a constant that a call of the style loader gives. -/
def Node.styleConstant? (node : Node) : Option String :=
  match node.form with
  | .variableList .constant [declarator] =>
    match declarator.form with
    | .declarator _ pattern (some call) =>
      match pattern.form, call.form with
      | .binding name, .call head callee [sheet, address] =>
        match callee.form, address.form with
        | .identifier loader, .member environment false "url" =>
          if loader == ({} : Options).styleLoader && !head.isOptional && sheet.isText &&
              isMetaProperty environment then some name
          else none
        | _, _ => none
      | _, _ => none
    | _ => none
  | _ => none

/-- A statement is read where the statement at a site was, once expressions and imports are replaced. -/
inductive RereadStatement (scansStyles : Bool) : Site → Node → Prop
  /-- A style sheet that was imported is read as a constant. -/
  | constant {site : Site} {node : Node} {item : ImportItem} {name : String} :
      ImportItem.ofStatement? site.node = some item → Imports.styleName? scansStyles item = some name →
      node.styleConstant? = some name → RereadStatement scansStyles site node
  /-- A statement other than an import is read again. -/
  | other {site : Site} {node : Node} : ImportItem.ofStatement? site.node = none → Reread {} site node →
      RereadStatement scansStyles site node

/-- Whether a statement is read as one other than an import. -/
def Node.staysStatement (scansStyles : Bool) (statement : Node) : Bool :=
  match ImportItem.ofStatement? statement with
  | some item => (Imports.styleName? scansStyles item).isSome
  | none => true

/-- The statements of a module that are no imports. -/
def Node.otherStatements (program : Node) : List Node :=
  program.children.filter fun statement => (ImportItem.ofStatement? statement).isNone

/-- A module is read where another was, once its expressions and imports are replaced. -/
structure RereadModule (scansStyles : Bool) (program again : Node) : Prop where
  /-- The one read before is a module. -/
  isModule : ∃ statements, program.form = .program statements
  /-- The one read now is a module. -/
  isModuleAgain : ∃ statements, again.form = .program statements
  /-- Its imports say what the imports say that are left. -/
  imports : (ImportItem.ofProgram again).map ImportItem.content =
    (ImportItem.after scansStyles (ImportItem.ofProgram program)).map ImportItem.content
  /-- Its imports bring in names. -/
  specifiers : ∀ item ∈ ImportItem.ofProgram again, ∀ specifier ∈ item.specifiers,
    (ImportItem.localName? specifier).isSome = true
  /-- Its other statements are those that are left, read again. -/
  statements : List.Forall₂ (RereadStatement scansStyles)
    ((Site.root program).below.filter fun site => site.node.staysStatement scansStyles)
    again.otherStatements

namespace Node

/-- The constants that style sheets become. -/
def styleConstants (scansStyles : Bool) (program : Node) : List String :=
  (ImportItem.ofProgram program).filterMap (Imports.styleName? scansStyles)

/-- The names of a module after extraction: its imports, what its other statements declare, and the
constants of its style sheets. -/
def scopeAfter (scansStyles : Bool) (program : Node) : Scope :=
  (Scope.declareHoisted (Fields.setAll []
      ((ImportItem.after scansStyles (ImportItem.ofProgram program)).flatMap ImportItem.bindings))
    program.otherStatements).declareAll (program.styleConstants scansStyles)

end Node

/-- Lists of related elements agree on whether all their elements have a property on which related elements
agree. -/
theorem forall_iff_of_forall₂ {α β : Type} {related : α → β → Prop} {left : List α} {right : List β}
    {property : α → Prop} {other : β → Prop} (pairs : List.Forall₂ related left right)
    (agree : ∀ first second, first ∈ left → related first second → (property first ↔ other second)) :
    (∀ first ∈ left, property first) ↔ ∀ second ∈ right, other second := by
  induction pairs with
  | nil => simp
  | cons pair pairs ih =>
      rw [List.forall_mem_cons, List.forall_mem_cons, agree _ _ List.mem_cons_self pair,
        ih fun first second member => agree first second (List.mem_cons_of_mem _ member)]

/-! ### Names of the module -/

namespace Node

theorem below_root {program : Node} {statements : List Node} (form_eq : program.form = .program statements) :
    (Site.root program).below = statements.map fun statement => ⟨statement, [⟨program, .body⟩]⟩ := by
  rw [Site.below, Site.node_root, parts_of_form form_eq]
  exact List.map_map

theorem form_of_ofStatement? {statement : Node} {item : ImportItem}
    (imports : ImportItem.ofStatement? statement = some item) :
    ∃ head, statement.form = .importFrom head item.specifiers item.source := by
  unfold ImportItem.ofStatement? at imports
  split at imports
  · rename_i form_eq
    obtain rfl := Option.some.inj imports
    exact ⟨_, form_eq⟩
  · simp at imports

theorem flatMap_importBindings (statements : List Node) :
    statements.flatMap Scope.importBindings =
      (statements.filterMap ImportItem.ofStatement?).flatMap ImportItem.bindings := by
  induction statements with
  | nil => rfl
  | cons statement statements ih =>
      rw [List.flatMap_cons, ih, List.filterMap_cons]
      cases imports : ImportItem.ofStatement? statement with
      | none =>
          unfold ImportItem.ofStatement? at imports
          have none : Scope.importBindings statement = [] := by
            unfold Scope.importBindings
            split
            · rename_i form_eq
              simp [form_eq] at imports
            · rfl
          rw [none, List.nil_append]
      | some item =>
          obtain ⟨head, form_eq⟩ := form_of_ofStatement? imports
          simp [Scope.importBindings, form_eq, ImportItem.bindings]

/-- Whether a statement declares a name for the module around it shows in its outline. -/
theorem declaresInBody_iff {statements : List Node} {name : String} :
    DeclaresInBody statements name ↔
      ∃ statement ∈ statements, name ∈ statement.outline.lexical ∨ name ∈ statement.outline.hoisted := by
  simp only [DeclaresInBody, ← mem_lexicalNames_iff, ← mem_varNames_iff]
  rfl

/-- A specifier of an import has a blank outline, is no expression and has no parts. -/
theorem bare_of_specifier {specifier : Node} (named : (ImportItem.localName? specifier).isSome = true) :
    specifier.outline = .blank ∧ specifier.form.isExpression = false ∧ specifier.parts = [] := by
  unfold ImportItem.localName? at named
  split at named
  · rename_i form_eq
    exact ⟨by rw [outline_eq, form_eq]; rfl, by rw [form_eq]; rfl, parts_of_form form_eq⟩
  · rename_i form_eq
    exact ⟨by rw [outline_eq, form_eq]; rfl, by rw [form_eq]; rfl, parts_of_form form_eq⟩
  · rename_i form_eq
    exact ⟨by rw [outline_eq, form_eq]; rfl, by rw [form_eq]; rfl, parts_of_form form_eq⟩
  · simp at named

/-- An import that brings in names declares none besides. -/
theorem outline_of_import {statement : Node} {item : ImportItem}
    (imports : ImportItem.ofStatement? statement = some item)
    (named : ∀ specifier ∈ item.specifiers, (ImportItem.localName? specifier).isSome = true) :
    statement.outline.lexical = [] ∧ statement.outline.hoisted = [] := by
  obtain ⟨head, form_eq⟩ := form_of_ofStatement? imports
  rw [outline_eq, form_eq]
  refine ⟨rfl, ?_⟩
  change (item.specifiers.map outline).flatMap Outline.hoisted = []
  rw [List.flatMap_map, List.flatMap_eq_nil_iff]
  intro specifier member
  rw [(bare_of_specifier (named specifier member)).1]
  rfl

theorem exists_of_styleConstant? {node : Node} {name : String} (constant : node.styleConstant? = some name) :
    ∃ declarator pattern call callee sheet address environment nameHead callHead,
      node.form = .variableList .constant [declarator] ∧
        declarator.form = .declarator nameHead pattern (some call) ∧ pattern.form = .binding name ∧
        call.form = .call callHead callee [sheet, address] ∧ callHead.isOptional = false ∧
        callee.form = .identifier ({} : Options).styleLoader ∧ sheet.isText = true ∧
        address.form = .member environment false "url" ∧ isMetaProperty environment = true := by
  unfold styleConstant? at constant
  split at constant
  · rename_i declarator form_eq
    split at constant
    · rename_i nameHead pattern call declarator_form
      split at constant
      · rename_i bound callHead callee sheet address pattern_form call_form
        split at constant
        · rename_i loader environment callee_form address_form
          split at constant
          · rename_i fine
            obtain rfl := Option.some.inj constant
            simp only [Bool.and_eq_true, beq_iff_eq, Bool.not_eq_true'] at fine
            obtain ⟨⟨⟨rfl, called⟩, isText⟩, isMeta⟩ := fine
            exact ⟨declarator, pattern, call, callee, sheet, address, environment, nameHead, callHead,
              form_eq, declarator_form, pattern_form, call_form, called, callee_form, isText, address_form,
              isMeta⟩
          · simp at constant
        · simp at constant
      · simp at constant
    · simp at constant
  · simp at constant

/-- The constant of a style sheet declares its name. -/
theorem outline_of_styleConstant? {node : Node} {name : String} (constant : node.styleConstant? = some name) :
    node.outline.lexical = [name] ∧ node.outline.hoisted = [] := by
  obtain ⟨declarator, pattern, call, -, -, -, -, nameHead, -, form_eq, declarator_form, pattern_form, -⟩ :=
    exists_of_styleConstant? constant
  have bound : declarator.outline.declaratorNames = [name] := by
    rw [outline_eq, declarator_form]
    change pattern.outline.bindings = [name]
    rw [outline_eq, pattern_form]
    rfl
  rw [outline_eq, form_eq]
  refine ⟨?_, rfl⟩
  change declarator.outline.declaratorNames ++ [] = [name]
  rw [bound, List.append_nil]

/-- The statements that are left are those other than imports and the imports of style sheets. -/
theorem forall_staysStatement_iff {scansStyles : Bool} {sites : List Site} {property : Site → Prop} :
    (∀ site ∈ sites.filter fun site => site.node.staysStatement scansStyles, property site) ↔
      (∀ site ∈ sites, ImportItem.ofStatement? site.node = none → property site) ∧
        ∀ site ∈ sites, ∀ item name, ImportItem.ofStatement? site.node = some item →
          Imports.styleName? scansStyles item = some name → property site := by
  simp only [List.mem_filter]
  constructor
  · intro each
    refine ⟨fun site member other => each site ⟨member, ?_⟩, fun site member item name imports style =>
      each site ⟨member, ?_⟩⟩
    · simp [staysStatement, other]
    · simp [staysStatement, imports, style]
  · rintro ⟨others, sheets⟩ site ⟨member, stays⟩
    cases imports : ImportItem.ofStatement? site.node with
    | none => exact others site member imports
    | some item =>
        simp only [staysStatement, imports] at stays
        obtain ⟨name, style⟩ := Option.isSome_iff_exists.mp stays
        exact sheets site member item name imports style

end Node

/-- What a statement declares once it is read again: what it declared, or the constant of its style
sheet. -/
def Node.DeclaresAfter (scansStyles : Bool) (statement : Node) (name : String) : Prop :=
  match ImportItem.ofStatement? statement with
  | some item => Imports.styleName? scansStyles item = some name
  | none => name ∈ statement.outline.lexical ∨ name ∈ statement.outline.hoisted

namespace RereadStatement

theorem declares_iff {scansStyles : Bool} {site : Site} {node : Node} {name : String}
    (reread : RereadStatement scansStyles site node) :
    site.node.DeclaresAfter scansStyles name ↔
      name ∈ node.outline.lexical ∨ name ∈ node.outline.hoisted := by
  cases reread with
  | constant imports style isConstant =>
      obtain ⟨lexical, hoisted⟩ := Node.outline_of_styleConstant? isConstant
      simp [Node.DeclaresAfter, imports, style, lexical, hoisted, eq_comm]
  | other no_import reread => simp [Node.DeclaresAfter, no_import, reread.outline_eq]

end RereadStatement

namespace RereadModule

variable {scansStyles : Bool} {program again : Node} {name : String}

/-- Only the statements other than imports declare names for a module that is read again. -/
theorem declaresInBody_others_iff (reread : RereadModule scansStyles program again) :
    Node.DeclaresInBody again.children name ↔ Node.DeclaresInBody again.otherStatements name := by
  rw [Node.declaresInBody_iff, Node.declaresInBody_iff]
  constructor
  · rintro ⟨statement, member, declares⟩
    refine ⟨statement, List.mem_filter.mpr ⟨member, ?_⟩, declares⟩
    cases imports : ImportItem.ofStatement? statement with
    | none => rfl
    | some item =>
        have item_mem : item ∈ ImportItem.ofProgram again := List.mem_filterMap.mpr ⟨_, member, imports⟩
        obtain ⟨lexical, hoisted⟩ := Node.outline_of_import imports (reread.specifiers item item_mem)
        simp [lexical, hoisted] at declares
  · rintro ⟨statement, member, declares⟩
    exact ⟨statement, (List.mem_filter.mp member).1, declares⟩

theorem declaresInBody_iff (reread : RereadModule scansStyles program again) :
    Node.DeclaresInBody again.children name ↔
      name ∈ program.styleConstants scansStyles ∨ Node.DeclaresInBody program.otherStatements name := by
  obtain ⟨statements, form_eq⟩ := reread.isModule
  have children_eq : program.children = statements := by rw [Node.children, form_eq]; rfl
  -- related statements agree on what holds of all of them, so this is about names that no one declares
  have related : (∀ site ∈ (Site.root program).below.filter (·.node.staysStatement scansStyles),
      ¬site.node.DeclaresAfter scansStyles name) ↔ ¬Node.DeclaresInBody again.otherStatements name := by
    rw [forall_iff_of_forall₂ reread.statements fun site node _ statement => not_congr statement.declares_iff,
      Node.declaresInBody_iff]
    simp only [not_exists, not_and]
  rw [Node.forall_staysStatement_iff, Node.below_root form_eq, List.forall_mem_map, List.forall_mem_map]
    at related
  have others_iff : (∀ statement ∈ statements, ImportItem.ofStatement? statement = none →
      ¬statement.DeclaresAfter scansStyles name) ↔ ¬Node.DeclaresInBody program.otherStatements name := by
    rw [Node.declaresInBody_iff]
    simp only [Node.otherStatements, children_eq, List.mem_filter, Option.isNone_iff_eq_none, not_exists,
      not_and, and_imp]
    refine forall₃_congr fun statement _ no_import => ?_
    simp [Node.DeclaresAfter, no_import]
  have sheets_iff : (∀ statement ∈ statements, ∀ item constant,
      ImportItem.ofStatement? statement = some item → Imports.styleName? scansStyles item = some constant →
        ¬statement.DeclaresAfter scansStyles name) ↔ name ∉ program.styleConstants scansStyles := by
    simp only [Node.styleConstants, ImportItem.ofProgram, children_eq, List.mem_filterMap]
    constructor
    · rintro each ⟨item, ⟨statement, member, imports⟩, style⟩
      exact each statement member item name imports style (by simp [Node.DeclaresAfter, imports, style])
    · intro unnamed statement member item constant imports style declares
      simp only [Node.DeclaresAfter, imports] at declares
      exact unnamed ⟨item, ⟨statement, member, imports⟩, declares⟩
  rw [reread.declaresInBody_others_iff, ← not_iff_not, ← related, others_iff, sheets_iff, not_or, and_comm]

/-- The names of a module that is read again are those that are left. -/
theorem get?_ofProgram (reread : RereadModule scansStyles program again) :
    Fields.get? (Scope.ofProgram again.children) name =
      Fields.get? (program.scopeAfter scansStyles) name := by
  have bindings_eq : again.children.flatMap Scope.importBindings =
      (ImportItem.after scansStyles (ImportItem.ofProgram program)).flatMap ImportItem.bindings := by
    rw [Node.flatMap_importBindings]
    change (ImportItem.ofProgram again).flatMap ImportItem.bindings = _
    exact ImportItem.flatMap_bindings_eq_of_content reread.imports
  rw [Scope.get?_ofProgram, bindings_eq, Node.scopeAfter, Scope.get?_declareAll, Scope.get?_declareHoisted,
    Fields.get?_setAll]
  simp only [reread.declaresInBody_iff]
  by_cases constant : name ∈ program.styleConstants scansStyles
  · simp [constant]
  · simp [constant, Fields.get?]

end RereadModule

/-! ### What stays in the module -/

namespace Site

/-- An import that brings in names holds no expressions. -/
theorem isExpression_within_import {site : Site} {item : ImportItem}
    (imports : ImportItem.ofStatement? site.node = some item)
    (named : ∀ specifier ∈ item.specifiers, (ImportItem.localName? specifier).isSome = true) :
    ∀ deep ∈ site.within, deep.node.form.isExpression = false := by
  obtain ⟨head, form_eq⟩ := Node.form_of_ofStatement? imports
  rw [forall_within_iff]
  refine ⟨by rw [form_eq]; rfl, ?_⟩
  intro part part_mem
  have listed : part.2 ∈ item.specifiers := by
    have child := Node.mem_children_of_mem_parts part_mem
    rwa [Node.children, form_eq] at child
  obtain ⟨-, no_expression, no_parts⟩ := Node.bare_of_specifier (named part.2 listed)
  rw [forall_within_iff, node_enter, no_parts]
  exact ⟨no_expression, by simp⟩

/-- Nothing within an import that brings in names is dynamic. -/
theorem static_within_import (options : Options) {site : Site} {item : ImportItem}
    (imports : ImportItem.ofStatement? site.node = some item)
    (named : ∀ specifier ∈ item.specifiers, (ImportItem.localName? specifier).isSome = true) :
    ∀ deep ∈ site.within, deep.isDynamic options = false := fun deep member =>
  needsEvaluation_eq_false_of_no_expression _ (isExpression_within_import imports named deep member)

/-- A node that opens no scope leaves the names as they are. -/
theorem resolver_enter_of_no_scope (options : Options) {site : Site} (part : Part × Node)
    (unscoped : site.node.scope? = none) : (site.enter part).resolver options = site.resolver options := by
  have no_scope : Step.scope? ⟨site.node, part.1⟩ = none := by
    unfold Step.scope?
    split
    · rfl
    · exact unscoped
  simp [resolver, enter, no_scope]

/-- Nothing within a property of the environment is dynamic. -/
theorem static_within_meta {site : Site} {environment : Node} {isOptional : Bool} {property : String}
    (form_eq : site.node.form = .member environment isOptional property)
    (isMeta : isMetaProperty environment = true) : ∀ deep ∈ site.within, deep.isDynamic {} = false := by
  have meta_form : ∃ owner member, environment.form = .metaProperty owner member := by
    unfold isMetaProperty at isMeta
    split at isMeta
    · rename_i meta_form
      exact ⟨_, _, meta_form⟩
    · simp at isMeta
  obtain ⟨owner, member, meta_form⟩ := meta_form
  have parts_eq : site.node.parts = [(.body, environment)] := Node.parts_of_form form_eq
  have no_parts : environment.parts = [] := Node.parts_of_form meta_form
  rw [forall_within_iff, parts_eq, List.forall_mem_singleton, forall_within_iff, node_enter, no_parts]
  refine ⟨?_, ?_, by simp⟩
  · simp [isDynamic, needsEvaluation, form_eq, isPlainData, isMeta, markerCall?, namedCall?]
  · simp [isDynamic, needsEvaluation, meta_form, isPlainData, markerCall?, namedCall?]

/-- Nothing within the constant of a style sheet is dynamic exactly if the style loader is known there. -/
theorem static_within_constant_iff {site : Site} {name : String}
    (constant : site.node.styleConstant? = some name) :
    (∀ deep ∈ site.within, deep.isDynamic {} = false) ↔
      (site.resolver {}).isStyleLoader ({} : Options).styleLoader = true := by
  obtain ⟨declarator, pattern, call, callee, sheet, address, environment, nameHead, callHead, form_eq,
    declarator_form, pattern_form, call_form, called, callee_form, sheet_isText, address_form, isMeta⟩ :=
    Node.exists_of_styleConstant? constant
  have parts_eq : site.node.parts = [(.body, declarator)] := Node.parts_of_form form_eq
  have declarator_parts : declarator.parts = [(.body, pattern), (.body, call)] :=
    Node.parts_of_form declarator_form
  have pattern_parts : pattern.parts = [] := Node.parts_of_form pattern_form
  have call_parts : call.parts = [(.body, callee), (.body, sheet), (.body, address)] :=
    Node.parts_of_form call_form
  -- only the call and the name it calls look at names, and no scope is opened on the way to them
  have no_scope : ∀ {node : Node} {form}, node.form = form → (Node.mk ⟨0, 0⟩ form).scope? = none →
      node.scope? = none := by
    rintro node form rfl unscoped
    exact unscoped
  let outer := (site.enter (.body, declarator)).enter (.body, call)
  have outer_resolver : outer.resolver {} = site.resolver {} := by
    rw [resolver_enter_of_no_scope {} _ (no_scope declarator_form rfl),
      resolver_enter_of_no_scope {} _ (no_scope form_eq rfl)]
  have callee_resolver : (outer.enter (.body, callee)).resolver {} = site.resolver {} := by
    rw [resolver_enter_of_no_scope {} _ (no_scope call_form rfl), outer_resolver]
  have call_iff : outer.isDynamic {} = false ↔
      (site.resolver {}).isStyleLoader ({} : Options).styleLoader = true := by
    have call_eq : namedCall? call = some (({} : Options).styleLoader, [sheet, address]) := by
      simp [namedCall?, call_form, callee_form, called]
    rw [isDynamic, outer_resolver]
    change needsEvaluation (site.resolver {}) call = false ↔ _
    simp [needsEvaluation, isStyleLoaderCall, call_eq, isPlainData, call_form, Form.isExpression]
  rw [forall_within_iff, parts_eq, List.forall_mem_singleton, forall_within_iff, node_enter, declarator_parts,
    List.forall_mem_cons, List.forall_mem_singleton]
  constructor
  · rintro ⟨-, -, -, static⟩
    exact call_iff.mp (static outer (self_mem_within outer))
  · intro loader
    refine ⟨needsEvaluation_eq_false_of_no_expression _ (by rw [form_eq]; rfl),
      needsEvaluation_eq_false_of_no_expression _ (by rw [node_enter, declarator_form]; rfl), ?_, ?_⟩
    · rw [forall_within_iff, node_enter, pattern_parts]
      exact ⟨needsEvaluation_eq_false_of_no_expression _ (by rw [node_enter, pattern_form]; rfl), by simp⟩
    · rw [forall_within_iff, node_enter, call_parts, List.forall_mem_cons, List.forall_mem_cons,
        List.forall_mem_singleton]
      refine ⟨call_iff.mpr loader, ?_, static_within_text sheet_isText (resolver {}),
        static_within_meta address_form isMeta⟩
      have isName : (outer.enter (.body, callee)).node.form = .identifier _ := callee_form
      rw [forall_within_identifier isName, isDynamic_identifier {} isName, callee_resolver,
        Resolver.isStatic_of_isStyleLoader rfl loader]
      rfl

end Site

/-- A statement settles in other names of the module: none of the expressions that stay in it is dynamic by
them, and if it loads a style sheet, the style loader is known. -/
def Site.SettlesIn (module : Scope) (site : Site) : Prop :=
  match ImportItem.ofStatement? site.node with
  | none => ∀ deep ∈ site.within, deep.StaysIn module
  | some _ => Resolver.isStyleLoader ⟨{}, [module]⟩ ({} : Options).styleLoader = true

/-- What a run leaves of a module asks for no other run, if it is read as such. -/
structure Settles (scansStyles rescansStyles : Bool) (program : Node) : Prop where
  /-- No expression that stays is dynamic by the names of the new module. -/
  names : ∀ statement ∈ (Site.root program).below, ImportItem.ofStatement? statement.node = none →
    ∀ site ∈ statement.within, site.StaysIn (program.scopeAfter scansStyles)
  /-- The style loader is known in the new module if style sheets are loaded there. -/
  loader : program.styleConstants scansStyles ≠ [] →
    Resolver.isStyleLoader ⟨{}, [program.scopeAfter scansStyles]⟩ ({} : Options).styleLoader = true
  /-- If style sheets are looked for only now, none is made known. -/
  sheets : rescansStyles = true → scansStyles = false →
    ∀ item ∈ ImportItem.ofProgram program, item.NamesNoSheet

namespace RereadModule

variable {scansStyles : Bool} {program again : Node}

/-- At the statements of a module that is read again, names mean what they mean in what is left. -/
theorem lookup_eq (reread : RereadModule scansStyles program again) (statement : Node) (name : String) :
    (Site.resolver {} ⟨statement, [⟨again, .body⟩]⟩).lookup name =
      Fields.get? (program.scopeAfter scansStyles) name := by
  obtain ⟨statements, form_eq⟩ := reread.isModuleAgain
  have children_eq : again.children = statements := by rw [Node.children, form_eq]; rfl
  rw [← reread.get?_ofProgram, children_eq, Site.lookup_resolver, Site.lookupAlong_cons]
  simp [Step.lookup?, Step.scope?, Node.scope?, form_eq, Site.lookupAlong]

/-- All imports of a module that is read again stay exactly if style sheets were looked for before or none is
made known. -/
theorem isKept_iff (reread : RereadModule scansStyles program again) (rescansStyles : Bool) :
    (∀ item ∈ ImportItem.ofProgram again, ImportFate.ofItem {} rescansStyles item = .kept) ↔
      (rescansStyles = true → scansStyles = false →
        ∀ item ∈ ImportItem.ofProgram program, item.NamesNoSheet) := by
  have pairs : List.Forall₂ (fun first second => first.content = second.content) (ImportItem.ofProgram again)
      (ImportItem.after scansStyles (ImportItem.ofProgram program)) := by
    have same := reread.imports
    rw [← List.forall₂_eq_eq_eq, List.forall₂_map_left_iff, List.forall₂_map_right_iff] at same
    exact same
  rw [forall_iff_of_forall₂ pairs fun _ _ _ same => ImportItem.isKept_iff_of_content rescansStyles same,
    ImportItem.forall_after_iff fun _ => ImportItem.isKept_of_isOfElements rescansStyles]
  simp only [ImportItem.left_isKept_iff]
  exact ⟨fun each late early item member => each item member late early,
    fun each item member late early => each late early item member⟩

/-- A statement that is read again is not dynamic anywhere exactly if it settles in the names of the new
module. -/
theorem static_statement_iff (reread : RereadModule scansStyles program again) {statement node : Node}
    (statement_reread : RereadStatement scansStyles ⟨statement, [⟨program, .body⟩]⟩ node) :
    Site.SettlesIn (program.scopeAfter scansStyles) ⟨statement, [⟨program, .body⟩]⟩ ↔
      ∀ deep ∈ Site.within ⟨node, [⟨again, .body⟩]⟩, deep.isDynamic {} = false := by
  cases statement_reread with
  | constant imports style isConstant =>
      have known : Resolver.isStyleLoader (Site.resolver {} ⟨node, [⟨again, .body⟩]⟩)
          ({} : Options).styleLoader =
          Resolver.isStyleLoader ⟨{}, [program.scopeAfter scansStyles]⟩ ({} : Options).styleLoader := by
        have lookup_eq : Resolver.lookup ⟨{}, [program.scopeAfter scansStyles]⟩ ({} : Options).styleLoader =
            Fields.get? (program.scopeAfter scansStyles) ({} : Options).styleLoader := by
          rw [Resolver.lookup, ScopeStack.lookup, List.findSome?_singleton]
        rw [Resolver.isStyleLoader, Resolver.isStyleLoader, reread.lookup_eq, lookup_eq]
        rfl
      simp only [Site.SettlesIn, imports]
      rw [Site.static_within_constant_iff isConstant, known]
  | other no_import statement_reread =>
      simp only [Site.SettlesIn, no_import]
      symm
      apply statement_reread.static_within_iff rfl
      · simp
      · intro name
        rw [reread.lookup_eq, Site.lookup_resolverIn]
        rfl
      · obtain ⟨statements, form_eq⟩ := reread.isModule
        intro outer around
        obtain rfl := List.mem_singleton.mp around
        exact needsEvaluation_eq_false_of_no_expression _ (by rw [form_eq]; rfl)

/-- Nothing in a module that is read again is dynamic exactly if nothing in its statements other than imports
is. -/
theorem static_others_iff (reread : RereadModule scansStyles program again) :
    (∀ site ∈ again.sites, site.isDynamic {} = false) ↔
      ∀ node ∈ again.otherStatements, ∀ deep ∈ Site.within ⟨node, [⟨again, .body⟩]⟩,
        deep.isDynamic {} = false := by
  obtain ⟨statements, form_eq⟩ := reread.isModuleAgain
  have parts_eq : again.parts = statements.map (Part.body, ·) := Node.parts_of_form form_eq
  have children_eq : again.children = statements := by rw [Node.children, form_eq]; rfl
  rw [Node.sites, Site.forall_within_iff, Site.node_root, parts_eq, List.forall_mem_map]
  constructor
  · rintro ⟨-, static⟩ node member
    rw [Node.otherStatements, children_eq] at member
    exact static node (List.mem_filter.mp member).1
  · intro static
    refine ⟨needsEvaluation_eq_false_of_no_expression _ (by rw [Site.node_root, form_eq]; rfl), ?_⟩
    intro node member
    rw [← children_eq] at member
    cases imports : ImportItem.ofStatement? node with
    | none => exact static node (List.mem_filter.mpr ⟨member, by simp [imports]⟩)
    | some item =>
        have item_mem : item ∈ ImportItem.ofProgram again := List.mem_filterMap.mpr ⟨_, member, imports⟩
        apply Site.static_within_import {} imports (reread.specifiers item item_mem)

/-- Nothing in a module that is read again is dynamic exactly if no expression that stays is dynamic by the
names of the new module, and the style loader is known there if style sheets are loaded. -/
theorem static_iff (reread : RereadModule scansStyles program again) :
    (∀ site ∈ again.sites, site.isDynamic {} = false) ↔
      (∀ statement ∈ (Site.root program).below, ImportItem.ofStatement? statement.node = none →
        ∀ site ∈ statement.within, site.StaysIn (program.scopeAfter scansStyles)) ∧
      (program.styleConstants scansStyles ≠ [] →
        Resolver.isStyleLoader ⟨{}, [program.scopeAfter scansStyles]⟩ ({} : Options).styleLoader = true) := by
  obtain ⟨statements, form_eq⟩ := reread.isModule
  have settled : (∀ site ∈ (Site.root program).below.filter (·.node.staysStatement scansStyles),
      site.SettlesIn (program.scopeAfter scansStyles)) ↔ ∀ node ∈ again.otherStatements,
        ∀ deep ∈ Site.within ⟨node, [⟨again, .body⟩]⟩, deep.isDynamic {} = false := by
    apply forall_iff_of_forall₂ reread.statements
    intro site node member statement_reread
    have site_mem := (List.mem_filter.mp member).1
    rw [Node.below_root form_eq] at site_mem
    obtain ⟨statement, -, rfl⟩ := List.mem_map.mp site_mem
    exact reread.static_statement_iff statement_reread
  rw [reread.static_others_iff, ← settled, Node.forall_staysStatement_iff]
  refine and_congr ?_ ?_
  · refine forall₃_congr fun statement _ no_import => ?_
    simp only [Site.SettlesIn, no_import]
  · rw [Node.below_root form_eq, List.forall_mem_map]
    constructor
    · intro each loads
      obtain ⟨constant, constant_mem⟩ := List.exists_mem_of_ne_nil _ loads
      obtain ⟨item, item_mem, style⟩ := List.mem_filterMap.mp constant_mem
      obtain ⟨statement, member, imports⟩ := List.mem_filterMap.mp item_mem
      rw [Node.children, form_eq] at member
      have known := each statement member item constant imports style
      simpa only [Site.SettlesIn, imports] using known
    · intro known statement member item constant imports style
      simp only [Site.SettlesIn, imports]
      apply known
      apply List.ne_nil_of_mem (a := constant)
      refine List.mem_filterMap.mpr ⟨item, List.mem_filterMap.mpr ⟨statement, ?_, imports⟩, style⟩
      rwa [Node.children, form_eq]

/-- A module that is read again is settled exactly if the one before settles. -/
theorem isSettled_iff (reread : RereadModule scansStyles program again) (rescansStyles : Bool) :
    again.IsSettled rescansStyles ↔ Settles scansStyles rescansStyles program := by
  constructor
  · rintro ⟨static, kept⟩
    obtain ⟨names, loader⟩ := reread.static_iff.mp static
    exact ⟨names, loader, (reread.isKept_iff rescansStyles).mp kept⟩
  · rintro ⟨names, loader, sheets⟩
    exact ⟨reread.static_iff.mpr ⟨names, loader⟩, (reread.isKept_iff rescansStyles).mpr sheets⟩

end RereadModule

/-! ## The second run -/

/-- A second run, on the text that a run has written, changes nothing exactly if that text can be read and
is settled. If it is read as the module with its expressions and imports replaced, that is so exactly if
the names, the style loader and the style sheets of the module settle. -/
theorem second_run_changes_nothing_iff {source : SourceText} {processCss : Bool} {first : Extraction}
    {code : String} (extracted : run source {} processCss = .ok first) (written : first.code = some code) :
    ∃ module found, source.parse source.dialect = .ok module ∧
      findings source {} module.program = .ok found ∧
      Edit.splice? source.text (found.edits ++ Imports.edits source {} processCss module.program) =
        some code ∧
      (SourceText.IsFixed ⟨source.file, code⟩ processCss ↔
        ∃ again, SourceText.parse ⟨source.file, code⟩ source.dialect = .ok again ∧
          again.program.IsSettled (SourceText.scansStyles ⟨source.file, code⟩ processCss)) ∧
      ∀ again, SourceText.parse ⟨source.file, code⟩ source.dialect = .ok again →
        RereadModule (source.scansStyles processCss) module.program again.program →
        (SourceText.IsFixed ⟨source.file, code⟩ processCss ↔
          Settles (source.scansStyles processCss) (SourceText.scansStyles ⟨source.file, code⟩ processCss)
            module.program) := by
  obtain ⟨module, found, parsed, walked, assembled⟩ := SourceText.exists_findings_of_run extracted
  have fixed_iff := SourceText.isFixed_iff ⟨source.file, code⟩ processCss
  refine ⟨module, found, parsed, walked, SourceText.splice?_of_assemble assembled written, fixed_iff, ?_⟩
  intro again reparsed reread
  rw [← reread.isSettled_iff, fixed_iff]
  constructor
  · rintro ⟨other, other_parsed, settled⟩
    obtain rfl := Except.ok.inj (other_parsed.symm.trans reparsed)
    exact settled
  · intro settled
    exact ⟨again, reparsed, settled⟩

/-- Whether a dynamic expression that is a statement is read as a text, or a style sheet as its constant. -/
def isReplacedStatement (scansStyles : Bool) (site : Site) (node : Node) : Bool :=
  match ImportItem.ofStatement? site.node with
  | some item =>
    (Imports.styleName? scansStyles item).isSome && node.styleConstant? == Imports.styleName? scansStyles item
  | none =>
    match site.node.form with
    | .expressionStatement value => (site.enter (.body, value)).isDynamic {} && node.isTextStatement
    | _ => false

/-- Whether a module is read where another was of which every statement is replaced, and the style loader is
known in it. -/
def isReplacedModule (scansStyles : Bool) (program again : Node) : Bool :=
  (match program.form, again.form with
    | .program _, .program _ => true
    | _, _ => false) &&
  (ImportItem.ofProgram again).map ImportItem.content ==
    (ImportItem.after scansStyles (ImportItem.ofProgram program)).map ImportItem.content &&
  ((ImportItem.ofProgram again).all fun item =>
    item.specifiers.all fun specifier => (ImportItem.localName? specifier).isSome) &&
  Decidable.decide (List.Forall₂ (fun site node => isReplacedStatement scansStyles site node = true)
    ((Site.root program).below.filter fun site => site.node.staysStatement scansStyles)
    again.otherStatements) &&
  Resolver.isStyleLoader ⟨{}, [program.scopeAfter scansStyles]⟩ ({} : Options).styleLoader

theorem rereadStatement_of_isReplaced {scansStyles : Bool} {site : Site} {node : Node}
    (replaced : isReplacedStatement scansStyles site node = true) :
    RereadStatement scansStyles site node ∧
      (ImportItem.ofStatement? site.node = none → ∀ module, ∀ deep ∈ site.within, deep.StaysIn module) := by
  unfold isReplacedStatement at replaced
  split at replaced
  · rename_i item imports
    obtain ⟨loads, same⟩ := Bool.and_eq_true_iff.mp replaced
    obtain ⟨name, style⟩ := Option.isSome_iff_exists.mp loads
    refine ⟨.constant imports style (by rw [eq_of_beq same, style]), ?_⟩
    simp [imports]
  · rename_i no_import
    split at replaced
    · rename_i value form_eq
      obtain ⟨dynamic, isText⟩ := Bool.and_eq_true_iff.mp replaced
      exact ⟨.other no_import (.statement form_eq dynamic isText),
        fun _ module => Site.staysIn_within_statement module form_eq dynamic⟩
    · simp at replaced

theorem reread_of_isReplacedModule {program again : Node}
    (replaced : isReplacedModule true program again = true) (rescansStyles : Bool) :
    RereadModule true program again ∧ Settles true rescansStyles program := by
  simp only [isReplacedModule, Bool.and_eq_true, beq_iff_eq, List.all_eq_true, decide_eq_true_eq] at replaced
  obtain ⟨⟨⟨⟨areModules, imports⟩, specifiers⟩, statements⟩, loader⟩ := replaced
  have forms : (∃ body, program.form = .program body) ∧ ∃ body, again.form = .program body := by
    split at areModules
    · rename_i body newBody form_eq new_form
      exact ⟨⟨body, form_eq⟩, newBody, new_form⟩
    · simp at areModules
  refine ⟨⟨forms.1, forms.2, imports, specifiers, ?_⟩, ⟨?_, fun _ => loader, by simp⟩⟩
  · exact statements.imp fun site node replaced => (rereadStatement_of_isReplaced replaced).1
  · have settled : ∀ site ∈ (Site.root program).below.filter (·.node.staysStatement true),
        ImportItem.ofStatement? site.node = none →
          ∀ deep ∈ site.within, deep.StaysIn (program.scopeAfter true) := by
      rw [forall_iff_of_forall₂ statements fun site node _ replaced =>
        iff_true_intro fun no_import => (rereadStatement_of_isReplaced replaced).2 no_import _]
      simp
    rw [Node.forall_staysStatement_iff] at settled
    intro site member no_import
    exact settled.1 site member no_import no_import

/-- Replacements that are ordered already are put into a text one after the other. -/
theorem splice?_of_pairwise {text : String} {edits : List Edit}
    (ordered : edits.Pairwise fun first second => Edit.precedes first second = true) :
    Edit.splice? text edits = (edits.foldlM Edit.perform? text.toList).map String.ofList := by
  rw [Edit.splice?, Edit.performAll?, List.mergeSort_of_pairwise ordered]

/-- Whether the replacements of a module are ordered and leave a text that is read as the module with every
statement replaced. -/
def isReplacedText (source : SourceText) (module : SourceModule) (found : Findings) : Bool :=
  let edits := found.edits ++ Imports.edits source {} true module.program
  !found.edits.isEmpty &&
  Decidable.decide (edits.Pairwise fun first second => Edit.precedes first second = true) &&
  (edits.foldlM Edit.perform? source.text.toList).any fun text =>
    passes (SourceText.parse ⟨source.file, String.ofList text⟩ source.dialect) fun again =>
      isReplacedModule true module.program again.program

/-- A source with an import of the style loader, a style sheet and a call. -/
def sheetAndCall :
    { source : SourceText //
      source.text = "import\x7bloadStyleText\x7dfrom\"next-jsx\";import s from \"./s.css\";f(s)" ∧
        source.scansStyles true = true ∧ passes (source.parse source.dialect) (fun module =>
          passes (findings source {} module.program) (isReplacedText source module)) = true } :=
  ⟨⟨"a.js", "import\x7bloadStyleText\x7dfrom\"next-jsx\";import s from \"./s.css\";f(s)"⟩, rfl,
    by decide +kernel, by decide +kernel⟩

/-- A style sheet becomes a constant and a call becomes a text, and a second run leaves both as they are. -/
theorem sheet_and_call_settle :
    ∃ (source : SourceText) (first : Extraction) (code : String),
      source.text = "import\x7bloadStyleText\x7dfrom\"next-jsx\";import s from \"./s.css\";f(s)" ∧
        run source {} true = .ok first ∧ first.code = some code ∧
        SourceText.IsFixed ⟨source.file, code⟩ true := by
  obtain ⟨source, text, scans, settled⟩ := sheetAndCall
  obtain ⟨module, parsed, reads⟩ := exists_of_passes settled
  obtain ⟨found, walked, reads⟩ := exists_of_passes reads
  simp only [isReplacedText, Bool.and_eq_true, decide_eq_true_eq] at reads
  obtain ⟨⟨some_edits, ordered⟩, reads⟩ := reads
  obtain ⟨newText, performed, reads⟩ := (Option.any_eq_true _ _).mp reads
  obtain ⟨again, reparsed, reads⟩ := exists_of_passes reads
  have extracted : run source {} true =
      .ok ⟨some (String.ofList newText), found.warnings, found.edits.length⟩ := by
    rw [run_of_findings parsed walked, assemble, splice?_of_pairwise ordered, performed]
    rw [Bool.not_eq_true'] at some_edits
    simp [some_edits]
  obtain ⟨other, -, other_parsed, -, -, -, fixed_iff⟩ := second_run_changes_nothing_iff extracted rfl
  obtain rfl := Except.ok.inj (other_parsed.symm.trans parsed)
  rw [scans] at fixed_iff
  obtain ⟨reread, settles⟩ := reread_of_isReplacedModule reads _
  exact ⟨source, _, _, text, extracted, rfl, (fixed_iff again reparsed reread).mpr settles⟩

/-- A source with an update that a line break ends, and parentheses on the next line. -/
def updateBeforeParentheses :
    { source : SourceText // source.text = "a++\n(b)" ∧
      passes (run source {} false) (fun first => first.code.any fun code =>
        passes (run ⟨source.file, code⟩ {} false) fun second => second.placeholders == 1) = true } :=
  ⟨⟨"a.js", "a++\n(b)"⟩, rfl, by decide +kernel⟩

/-- An expression that a line break ends becomes a text that the next line goes on with, and a second run
replaces the whole. -/
theorem update_before_parentheses_is_replaced_twice :
    ∃ (source : SourceText) (first : Extraction) (code : String) (second : Extraction),
      source.text = "a++\n(b)" ∧ run source {} false = .ok first ∧ first.code = some code ∧
        run ⟨source.file, code⟩ {} false = .ok second ∧ second.placeholders = 1 ∧
        ¬SourceText.IsFixed ⟨source.file, code⟩ false := by
  obtain ⟨source, text, settled⟩ := updateBeforeParentheses
  obtain ⟨first, extracted, rerun⟩ := exists_of_passes settled
  obtain ⟨code, written, rerun⟩ := (Option.any_eq_true _ _).mp rerun
  obtain ⟨second, extracted_again, counted⟩ := exists_of_passes rerun
  have one : second.placeholders = 1 := eq_of_beq counted
  refine ⟨source, first, code, second, text, extracted, written, extracted_again, one, ?_⟩
  rintro ⟨other, other_extracted, -, no_placeholders⟩
  obtain rfl := Except.ok.inj (other_extracted.symm.trans extracted_again)
  simp [one] at no_placeholders

end Storyboard
