import Storyboard.Proofs.EditRanges
import Storyboard.Proofs.LexicalScoping

/-!
# Reports of unknown names

A walk reports the names that it does not know. The reports are read off from the uses of names by expressions
outside everything that is replaced, in the order of the module: each use of a name that the scopes entered by the
walk do not hold gives one report, unless the name is a global one or that of the style loader. By the scopes of
the language the reports are the right ones but for two cases: a static block of a class whose declarations the
walk does not know, and the head of a function in which the walk knows what only the body declares.
-/

namespace Storyboard

open Extraction

/-! ## Uses of names -/

/-- A use of a name by an expression. -/
structure NameUse where
  /-- Where the expression stands. -/
  site : Site
  /-- The name. -/
  name : String

namespace Site

/-- Whether nothing that is replaced is at or around a site. -/
def isOutside (options : Options) (site : Site) : Bool :=
  (site :: site.enclosing).all fun outer => !outer.isReplaced options

/-- The use of a name that the expression at a site is. -/
def use? (site : Site) : Option NameUse :=
  match site.node.form with
  | .identifier name => some ⟨site, name⟩
  | _ => none

/-- The uses of names at and below a site outside everything that is replaced. -/
def usesOutside (options : Options) (site : Site) : List NameUse :=
  (site.within.filter (isOutside options)).filterMap use?

theorem use?_eq_some_iff {site : Site} {use : NameUse} :
    site.use? = some use ↔ use.site = site ∧ site.node.form = .identifier use.name := by
  obtain ⟨used, name⟩ := use
  unfold use?
  cases site.node.form <;> simp [and_comm, eq_comm]

/-- Nothing is replaced around a site exactly if nothing is dynamic around it. -/
theorem isOutside_iff {options : Options} {site : Site} :
    site.isOutside options = true ↔ ∀ outer ∈ site :: site.enclosing, outer.isDynamic options = false := by
  rw [isOutside, List.all_eq_true]
  constructor
  · intro kept outer around
    by_contra dynamic
    obtain ⟨farther, far, replaced⟩ := exists_isReplaced (by simpa using dynamic)
    have around_site : farther ∈ site :: site.enclosing := by
      rcases List.mem_cons.mp far with rfl | far
      · exact around
      · rcases List.mem_cons.mp around with rfl | around
        · exact List.mem_cons_of_mem _ far
        · exact List.mem_cons_of_mem _ (mem_enclosing_trans around far)
    simpa [replaced] using kept farther around_site
  · intro static outer around
    have kept := static outer around
    simp [isReplaced, kept]

/-- The uses at and below an expression that stays are its own and those below it. -/
theorem usesOutside_of_static {options : Options} {site : Site} (static : site.isDynamic options = false)
    (free : ∀ outer ∈ site.enclosing, outer.isDynamic options = false) :
    site.usesOutside options = site.use?.toList ++ site.below.flatMap (usesOutside options) := by
  have outside : site.isOutside options = true := isOutside_iff.mpr (List.forall_mem_cons.mpr ⟨static, free⟩)
  rw [usesOutside, within_eq, List.filter_cons_of_pos outside, List.filterMap_cons, List.filter_flatMap,
    List.filterMap_flatMap]
  cases site.use? <;> rfl

/-- What is replaced holds no uses outside. -/
theorem usesOutside_of_isDynamic {options : Options} {site : Site} (dynamic : site.isDynamic options = true) :
    site.usesOutside options = [] := by
  have inside : site.within.filter (isOutside options) = [] := by
    rw [List.filter_eq_nil_iff]
    intro deep member outside
    rw [isOutside_iff.mp outside site (self_mem_around member)] at dynamic
    cases dynamic
  rw [usesOutside, inside]
  rfl

end Site

namespace NameUse

/-- Whether a name can be unknown: it is no global name and not that of the style loader. -/
def isUnrecognized (options : Options) (use : NameUse) : Bool :=
  !options.isBuiltinGlobal use.name && use.name != options.styleLoader

/-- Whether a walk takes a name for an unknown one: no scope that it has entered holds it. -/
def isUnknown (options : Options) (use : NameUse) : Bool :=
  ((use.site.resolver options).lookup use.name).isNone && use.isUnrecognized options

/-- Whether a name is unknown: no scope of the language around it declares or imports it. -/
def isUnbound (options : Options) (use : NameUse) : Bool :=
  (use.site.meaning use.name).isNone && use.isUnrecognized options

/-- The report of a use. -/
def report (source : SourceText) (use : NameUse) : Diagnostic := freeNameWarning source use.site.node use.name

end NameUse

theorem Resolver.classify_eq_free_iff {resolver : Resolver} {name : String} :
    resolver.classify name = .free ↔
      resolver.lookup name = none ∧ resolver.options.isBuiltinGlobal name = false ∧
        name ≠ resolver.options.styleLoader := by
  unfold classify
  cases resolver.lookup name with
  | some binding =>
      simp only [reduceCtorEq, false_and, iff_false]
      split <;> simp
  | none =>
      cases resolver.options.isBuiltinGlobal name with
      | true => simp
      | false => simp

/-- A name is reported where it is used exactly if it is unknown to the walk. -/
theorem nameWarnings_eq (source : SourceText) (options : Options) (use : NameUse) :
    nameWarnings source (use.site.resolver options) use.site.node use.name =
      ([use].filter (NameUse.isUnknown options)).map (NameUse.report source) := by
  have reported : (use.site.resolver options).classify use.name = .free ↔ use.isUnknown options = true := by
    rw [Resolver.classify_eq_free_iff]
    simp [NameUse.isUnknown, NameUse.isUnrecognized]
  rw [nameWarnings, List.filter_singleton]
  cases unknown : use.isUnknown options <;> simp [reported, unknown, NameUse.report]

/-! ## The walk -/

theorem warnings_concat (all : List Findings) :
    (Findings.concat all).warnings = all.flatMap Findings.warnings := by
  induction all with
  | nil => rfl
  | cons first rest ih =>
      simp only [Findings.concat, List.foldr_cons, List.flatMap_cons] at ih ⊢
      simp only [Findings.append, ih]

/-- Walks that report what is read off from lists report together what is read off from the joined lists. -/
theorem flatMap_warnings {α ε : Type} {walk : α → Except ε Findings} {listed : α → List Diagnostic} {items : List α}
    {all : List Findings} (walked : items.mapM walk = .ok all)
    (each : ∀ item ∈ items, ∀ found, walk item = .ok found → found.warnings = listed item) :
    all.flatMap Findings.warnings = items.flatMap listed := by
  have related := mapM_eq_ok walked
  clear walked
  induction related with
  | nil => rfl
  | cons first _ ih =>
      rw [List.flatMap_cons, List.flatMap_cons, each _ List.mem_cons_self _ first,
        ih fun item member => each item (List.mem_cons_of_mem _ member)]

namespace Site

/-- The reports of unknown names at and below a site. -/
def reports (source : SourceText) (options : Options) (site : Site) : List Diagnostic :=
  ((site.usesOutside options).filter (NameUse.isUnknown options)).map (NameUse.report source)

theorem reports_of_static (source : SourceText) {options : Options} {site : Site}
    (static : site.isDynamic options = false)
    (free : ∀ outer ∈ site.enclosing, outer.isDynamic options = false) :
    site.reports source options =
      plainWarnings source (site.resolver options) site.node ++ site.below.flatMap (reports source options) := by
  have own : (site.use?.toList.filter (NameUse.isUnknown options)).map (NameUse.report source) =
      plainWarnings source (site.resolver options) site.node := by
    cases used : site.use? with
    | none =>
        have other : ∀ name, site.node.form ≠ .identifier name := by
          intro name form_eq
          have known := use?_eq_some_iff.mpr (And.intro rfl form_eq : (NameUse.mk site name).site = site ∧ _)
          rw [used] at known
          cases known
        rw [plainWarnings_eq_nil source _ other]
        rfl
    | some use =>
        obtain ⟨rfl, form_eq⟩ := use?_eq_some_iff.mp used
        rw [plainWarnings, form_eq]
        exact (nameWarnings_eq source options use).symm
  rw [reports, usesOutside_of_static static free, List.filter_append, List.map_append, own, List.filter_flatMap,
    List.map_flatMap]
  rfl

/-- A property that is given by a name alone stays exactly if the name does, and the name is reported once. -/
theorem visit_warnings_of_shorthand {source : SourceText} {options : Options} {site : Site} {value : Node}
    {name : String} {found : Findings} (shorthand : shorthandValue? site.node = some (value, name))
    (free : ∀ outer ∈ site.enclosing, outer.isDynamic options = false)
    (walked : visit source (site.resolver options) site.node = .ok found) :
    found.warnings = site.reports source options := by
  have value_form : (site.enter (.body, value)).node.form = .identifier name := form_of_shorthand shorthand
  have value_dynamic := isDynamic_identifier options value_form
  have static := isDynamic_eq_false_of_shorthand options shorthand
  have other : ∀ name, site.node.form ≠ .identifier name := by
    intro name form_eq
    simp [shorthandValue?, form_eq] at shorthand
  have value_free : ∀ outer ∈ (site.enter (.body, value)).enclosing, outer.isDynamic options = false :=
    List.forall_mem_cons.mpr ⟨static, free⟩
  rw [reports_of_static source static free, plainWarnings_eq_nil source _ other, below_of_shorthand shorthand,
    List.nil_append, List.flatMap_singleton]
  rw [resolver_of_shorthand options shorthand] at value_dynamic
  rw [visit, Extraction.decide] at walked
  simp only [shorthand, decideShorthand] at walked
  cases stays : ((site.resolver options).classify name).isStatic with
  | true =>
      rw [stays] at value_dynamic walked
      obtain rfl := Except.ok.inj walked
      rw [reports_of_static source (by simpa using value_dynamic) value_free, below_eq_nil_of_identifier value_form,
        List.flatMap_nil, List.append_nil, resolver_of_shorthand options shorthand, plainWarnings, value_form]
      rfl
  | false =>
      rw [stays] at value_dynamic walked
      obtain rfl := Except.ok.inj walked
      rw [reports, usesOutside_of_isDynamic (by simpa using value_dynamic)]
      rfl

/-- A walk reports the unknown names that are used outside what it replaces, in their order. -/
theorem visit_warnings {source : SourceText} {options : Options} {site : Site} {found : Findings}
    (free : ∀ outer ∈ site.enclosing, outer.isDynamic options = false)
    (walked : visit source (site.resolver options) site.node = .ok found) :
    found.warnings = site.reports source options := by
  induction site using induction_below generalizing found with
  | step site ih =>
      cases shorthand : shorthandValue? site.node with
      | some given => exact visit_warnings_of_shorthand shorthand free walked
      | none =>
          cases dynamic : site.isDynamic options with
          | true =>
              rw [reports, usesOutside_of_isDynamic dynamic]
              rw [visit, decide_of_isDynamic dynamic] at walked
              cases given : site.placeholder source options with
              | error error => simp [given] at walked
              | ok placeholder =>
                  rw [given] at walked
                  obtain rfl := Except.ok.inj walked
                  rfl
          | false =>
              rw [visit_of_descend shorthand (decide_of_static source shorthand dynamic)] at walked
              cases each : site.below.mapM fun inner => visit source (inner.resolver options) inner.node with
              | error error => simp [each, bind, Except.bind] at walked
              | ok all =>
                  rw [each] at walked
                  obtain rfl := Except.ok.inj walked
                  have inside := flatMap_warnings each fun inner member found walked =>
                    ih inner member (by
                      rw [enclosing_of_mem_below member]
                      exact List.forall_mem_cons.mpr ⟨dynamic, free⟩) walked
                  rw [warnings_concat, List.flatMap_cons, inside, reports_of_static source dynamic free]

end Site

/-! ## The two readings of a name -/

namespace NameUse

/-- A walk takes a name for an unknown one though it is declared: it is declared in a static block around the use,
and no scope that the walk enters there holds it. -/
def IsTakenForUnknown (use : NameUse) : Prop :=
  (∀ step ∈ use.site.around, step.lookup? use.name = none) ∧
    ∃ step ∈ use.site.around, step.EntersStaticBlock use.name

/-- A walk takes a name for a known one though it is not: it is used in the head of a function of which only the
body declares it, and no scope of the language around the use holds it. -/
def IsTakenForKnown (use : NameUse) : Prop :=
  (∀ step ∈ use.site.around, step.meaning? use.name = none) ∧
    ∃ step ∈ use.site.around, step.EntersHeadBeforeBody use.name

theorem lookup_eq_none_iff (options : Options) (use : NameUse) :
    (use.site.resolver options).lookup use.name = none ↔ ∀ step ∈ use.site.around, step.lookup? use.name = none := by
  rw [Site.lookup_resolver, Site.lookupAlong, List.findSome?_eq_none_iff]

theorem meaning_eq_none_iff (use : NameUse) :
    use.site.meaning use.name = none ↔ ∀ step ∈ use.site.around, step.meaning? use.name = none := by
  rw [Site.meaning_eq_meaningAlong, Site.meaningAlong, List.findSome?_eq_none_iff]

theorem isTakenForUnknown_iff (options : Options) (use : NameUse) :
    use.IsTakenForUnknown ↔ (use.site.resolver options).lookup use.name = none ∧ use.site.meaning use.name ≠ none := by
  rw [IsTakenForUnknown, lookup_eq_none_iff]
  refine and_congr_right fun unread => ?_
  rw [Ne, meaning_eq_none_iff]
  constructor
  · rintro ⟨step, member, enters⟩ unmeant
    have meant := enters.readings.2
    rw [unmeant step member] at meant
    cases meant
  · intro meant
    simp only [not_forall] at meant
    obtain ⟨step, member, meant⟩ := meant
    refine ⟨step, member, ?_⟩
    by_contra no_block
    by_cases head : step.EntersHeadBeforeBody use.name
    · have known := head.readings.1
      rw [unread step member] at known
      cases known
    · exact meant ((Step.lookup?_eq_meaning? no_block head).symm.trans (unread step member))

theorem isTakenForKnown_iff (options : Options) (use : NameUse) :
    use.IsTakenForKnown ↔ (use.site.resolver options).lookup use.name ≠ none ∧ use.site.meaning use.name = none := by
  rw [IsTakenForKnown, ← meaning_eq_none_iff, and_comm]
  refine and_congr_left fun unmeant => ?_
  rw [meaning_eq_none_iff] at unmeant
  rw [Ne, lookup_eq_none_iff]
  constructor
  · rintro ⟨step, member, enters⟩ unread
    have known := enters.readings.1
    rw [unread step member] at known
    cases known
  · intro known
    simp only [not_forall] at known
    obtain ⟨step, member, known⟩ := known
    refine ⟨step, member, ?_⟩
    by_contra no_head
    by_cases block : step.EntersStaticBlock use.name
    · have meant := block.readings.2
      rw [unmeant step member] at meant
      cases meant
    · exact known ((Step.lookup?_eq_meaning? block no_head).trans (unmeant step member))

/-- The walk and the scopes of the language agree on whether a name is unknown exactly if the walk takes it neither
for unknown nor for known by mistake, or the name is recognized anyway. -/
theorem isUnknown_eq_isUnbound_iff (options : Options) (use : NameUse) :
    use.isUnknown options = use.isUnbound options ↔
      (use.isUnrecognized options = true → ¬use.IsTakenForUnknown ∧ ¬use.IsTakenForKnown) := by
  rw [isTakenForUnknown_iff options, isTakenForKnown_iff options, isUnknown, isUnbound]
  cases use.isUnrecognized options <;> cases (use.site.resolver options).lookup use.name <;>
    cases use.site.meaning use.name <;> simp

end NameUse

/-! ## Where uses stand -/

namespace Site

theorem within_of_no_parts {site : Site} (no_parts : site.node.parts = []) : site.within = [site] := by
  rw [within_eq, below, no_parts]
  rfl

/-- Sites of which neither is within the other lie apart, unless one is the name of a key. -/
theorem apart_of_not_mem_within {site left right : Site} (nested : ∀ inner ∈ site.within, inner.node.HasNestedParts)
    (left_mem : left ∈ site.within) (right_mem : right ∈ site.within) (left_spelled : left.node.isKeyName = false)
    (right_spelled : right.node.isKeyName = false) (left_out : left ∉ right.within) (right_out : right ∉ left.within) :
    left.node.span.Apart right.node.span := by
  induction site using induction_below with
  | step site ih =>
      have left_cases := left_mem
      have right_cases := right_mem
      rw [within_eq] at left_cases right_cases
      rcases List.mem_cons.mp left_cases with rfl | left_cases
      · exact absurd right_mem right_out
      rcases List.mem_cons.mp right_cases with rfl | right_cases
      · exact absurd left_mem left_out
      obtain ⟨first, first_mem, left_in⟩ := List.mem_flatMap.mp left_cases
      obtain ⟨second, second_mem, right_in⟩ := List.mem_flatMap.mp right_cases
      have nested_below : ∀ inner ∈ site.below, ∀ deep ∈ inner.within, deep.node.HasNestedParts :=
        fun inner inner_mem deep deep_mem => nested deep (mem_within_of_below inner_mem deep_mem)
      by_cases same : first = second
      · subst same
        exact ih first first_mem (nested_below first first_mem) left_in right_in
      · have listed : ∀ inner ∈ site.below, ∀ deep ∈ inner.within, deep.node.isKeyName = false →
            inner.node.isKeyName = false := by
          intro inner inner_mem deep deep_mem spelled
          by_contra isName
          obtain ⟨name, form_eq⟩ := Node.isKeyName_iff.mp (by simpa using isName)
          rw [within_of_no_parts (Node.parts_of_form form_eq)] at deep_mem
          rw [List.mem_singleton.mp deep_mem] at spelled
          exact isName spelled
        have first_spelled := listed first first_mem left left_in left_spelled
        have second_spelled := listed second second_mem right right_in right_spelled
        have left_within := span_within (nested_below first first_mem) left_in
        have right_within := span_within (nested_below second second_mem) right_in
        obtain ⟨left_part, left_part_mem, rfl⟩ := List.mem_map.mp first_mem
        obtain ⟨right_part, right_part_mem, rfl⟩ := List.mem_map.mp second_mem
        have symmetric : Std.Symm fun left right : Part × Node => left.2.span.Apart right.2.span :=
          ⟨fun _ _ apart => apart.symm⟩
        have apart := (nested site site.self_mem_within).apart.forall
          (List.mem_filter.mpr ⟨left_part_mem, by simpa using first_spelled⟩)
          (List.mem_filter.mpr ⟨right_part_mem, by simpa using second_spelled⟩)
          (fun equal => same (by rw [equal]))
        exact apart.mono left_within right_within

theorem isKeyName_eq_false_of_isDynamic {options : Options} {site : Site} (dynamic : site.isDynamic options = true) :
    site.node.isKeyName = false := by
  by_contra isName
  obtain ⟨name, form_eq⟩ := Node.isKeyName_iff.mp (by simpa using isName)
  have other : site.node.form.isExpression = false := by rw [form_eq]; rfl
  rw [isDynamic, needsEvaluation_eq_false_of_no_expression _ other] at dynamic
  cases dynamic

/-- What is replaced lies apart from the names that are used outside. -/
theorem apart_of_isOutside {options : Options} {program : Node} {site replaced : Site} {name : String}
    (nested : program.WellNested) (member : site ∈ program.sites) (form_eq : site.node.form = .identifier name)
    (outside : site.isOutside options = true) (replaced_mem : replaced ∈ program.replacedSites options) :
    replaced.extent.Apart site.node.span := by
  obtain ⟨listed, isReplaced⟩ := List.mem_filter.mp replaced_mem
  have alone : site.within = [site] := within_of_no_parts (Node.parts_of_form form_eq)
  have spelled : site.node.isKeyName = false := by simp [Node.isKeyName, form_eq]
  have apart : site ∉ replaced.within := by
    intro inside
    have kept := List.all_eq_true.mp outside replaced (self_mem_around inside)
    simp [isReplaced] at kept
  rcases eq_or_mem_below_of_mem_within listed with rfl | ⟨parent, parent_mem, below_mem⟩
  · exact absurd member apart
  · obtain ⟨part, part_mem, rfl⟩ := List.mem_map.mp below_mem
    cases shorthand : shorthandValue? parent.node with
    | none =>
        have expression := isKeyName_eq_false_of_isDynamic (isReplaced_iff.mp isReplaced).1
        rw [extent, property?_enter part shorthand]
        refine apart_of_not_mem_within nested listed member expression spelled ?_ apart
        rw [alone, List.mem_singleton]
        rintro rfl
        exact apart (self_mem_within _)
    | some given =>
        have whole : (parent.enter part).extent = parent.node.span := by
          simp [extent, property?, enter, shorthand]
        have parent_form : parent.node.isKeyName = false ∧ parent ≠ site := by
          constructor
          · by_contra isName
            obtain ⟨key, key_form⟩ := Node.isKeyName_iff.mp (by simpa using isName)
            simp [shorthandValue?, key_form] at shorthand
          · rintro rfl
            simp [shorthandValue?, form_eq] at shorthand
        rw [whole]
        refine apart_of_not_mem_within nested parent_mem member parent_form.1 spelled ?_ ?_
        · rw [alone, List.mem_singleton]
          exact parent_form.2
        · rw [within_eq, List.mem_cons, not_or]
          refine ⟨parent_form.2.symm, ?_⟩
          rw [below_of_shorthand shorthand] at below_mem ⊢
          rw [List.flatMap_singleton, ← List.mem_singleton.mp below_mem]
          exact apart

end Site

/-! ## The reports of a module -/

/-- The uses of names in a module by expressions outside everything that is replaced, in the order of a walk. -/
def Node.usesOutside (options : Options) (program : Node) : List NameUse := (Site.root program).usesOutside options

namespace NameUse

/-- A finding reports a use: it is a warning with the name that is used and the place where the use begins. -/
structure IsReportedBy (source : SourceText) (use : NameUse) (finding : Diagnostic) : Prop where
  severity : finding.severity = .warning
  message : finding.message = "unknown variable \"" ++ use.name ++ "\""
  file : finding.file = source.file
  /-- The line counts the line feeds in front of the use, the column the characters since the last of them. -/
  place : ∃ front back, source.text.toList = front ++ back ∧ Text.byteLength front = use.site.node.span.start ∧
    finding.line = front.count '\n' + 1 ∧ finding.column = (front.reverse.takeWhile (· != '\n')).length
  frame : finding.frame = source.frame use.site.node .warning finding.message

theorem isReportedBy_report {source : SourceText} {use : NameUse}
    (placed : use.site.node.span.IsIn source.text.toList) : use.IsReportedBy source (use.report source) := by
  obtain ⟨front, middle, back, text_eq, start_eq, -⟩ := Span.isIn_iff.mp placed
  have position_eq : source.position use.site.node =
      { line := front.count '\n' + 1, column := (front.reverse.takeWhile (· != '\n')).length } := by
    rw [SourceText.position, Position.ofOffset, text_eq, ← start_eq, Text.before_append]
  refine ⟨rfl, rfl, rfl, ⟨front, middle ++ back, text_eq, start_eq, ?_, ?_⟩, rfl⟩
  · simp only [report, freeNameWarning, position_eq]
  · simp only [report, freeNameWarning, position_eq]

theorem mem_usesOutside {options : Options} {program : Node} {use : NameUse}
    (member : use ∈ program.usesOutside options) :
    use.site ∈ program.sites ∧ use.site.isOutside options = true ∧ use.site.node.form = .identifier use.name := by
  obtain ⟨site, site_mem, used⟩ := List.mem_filterMap.mp member
  obtain ⟨rfl, form_eq⟩ := Site.use?_eq_some_iff.mp used
  obtain ⟨listed, outside⟩ := List.mem_filter.mp site_mem
  exact ⟨listed, outside, form_eq⟩

/-- The imports of a module lie apart from the names that are used in it. -/
theorem apart_of_import {program : Node} {statements : List Node} {options : Options} {use : NameUse}
    {item : ImportItem} (form_eq : program.form = .program statements) (nested : program.WellNested)
    (used : use ∈ program.usesOutside options) (member : item ∈ ImportItem.ofProgram program)
    (written : item.IsWritten) : item.node.span.Apart use.site.node.span := by
  obtain ⟨listed, -, name_form⟩ := mem_usesOutside used
  obtain ⟨statement_mem, imports⟩ := mem_statements_of_import form_eq member
  have top_mem : ⟨item.node, [⟨program, .body⟩]⟩ ∈ program.sites := by
    refine Site.mem_within_of_below ?_ (Site.self_mem_within _)
    rw [Node.below_root form_eq]
    exact List.mem_map.mpr ⟨item.node, statement_mem, rfl⟩
  have apart : use.site ∉ Site.within ⟨item.node, [⟨program, .body⟩]⟩ := by
    intro inside
    have no_expression := Site.isExpression_within_import imports written.named _ inside
    rw [name_form] at no_expression
    cases no_expression
  have alone : use.site.within = [use.site] := Site.within_of_no_parts (Node.parts_of_form name_form)
  refine Site.apart_of_not_mem_within nested top_mem listed (isKeyName_of_import imports) ?_ ?_ apart
  · rw [Node.isKeyName, name_form]
  · rw [alone, List.mem_singleton]
    intro same
    exact apart (same ▸ Site.self_mem_within _)

end NameUse

/-- A module that is worked on without failure is reported on as follows. There is one warning for each use of a
name by an expression outside everything that is replaced that the walk takes for unknown, in the order of the walk,
with the name and the place of the use; and nothing that is edited touches such a use. Those are the uses of names
that are declared nowhere around them, no global names and not the style loader, exactly if no name is declared in a
static block only and no name is used in the head of a function that only declares it in its body. -/
theorem diagnostics_report_unknown_names {source : SourceText} {options : Options} {module : SourceModule}
    {found : Findings} (parsed : source.parse source.dialect = .ok module) (nested : module.program.WellNested)
    (placed : module.program.LiesIn source.text.toList)
    (written : ∀ item ∈ ImportItem.ofProgram module.program, item.IsWritten)
    (walked : findings source options module.program = .ok found) {processCss : Bool} {extraction : Extraction}
    (extracted : run source options processCss = .ok extraction) :
    List.Forall₂ (NameUse.IsReportedBy source)
        ((module.program.usesOutside options).filter (NameUse.isUnknown options)) extraction.diagnostics ∧
      ((module.program.usesOutside options).filter (NameUse.isUnknown options) =
          (module.program.usesOutside options).filter (NameUse.isUnbound options) ↔
        ∀ use ∈ module.program.usesOutside options, use.isUnrecognized options = true →
          ¬use.IsTakenForUnknown ∧ ¬use.IsTakenForKnown) ∧
      ∀ use ∈ module.program.usesOutside options,
        ∀ edit ∈ found.edits ++ Imports.edits source options processCss module.program,
          edit.span.Apart use.site.node.span := by
  obtain ⟨statements, form_eq⟩ := exists_form_of_parse parsed
  refine ⟨?_, ?_, ?_⟩
  · have reported : extraction.diagnostics =
        ((module.program.usesOutside options).filter (NameUse.isUnknown options)).map (NameUse.report source) := by
      rw [run_of_findings parsed walked] at extracted
      rw [(counts_of_assemble extracted).2]
      exact @Site.visit_warnings source options (.root module.program) found (by simp) walked
    rw [reported, List.forall₂_map_right_iff, List.forall₂_same]
    intro use member
    exact NameUse.isReportedBy_report (placed _ (NameUse.mem_usesOutside (List.mem_filter.mp member).1).1)
  · constructor
    · intro same use member
      refine (NameUse.isUnknown_eq_isUnbound_iff options use).mp ?_
      have both : use ∈ (module.program.usesOutside options).filter (NameUse.isUnknown options) ↔
          use ∈ (module.program.usesOutside options).filter (NameUse.isUnbound options) := by rw [same]
      simp only [List.mem_filter, member, true_and] at both
      exact Bool.eq_iff_iff.mpr both
    · intro fine
      refine List.filter_congr fun use member => ?_
      exact (NameUse.isUnknown_eq_isUnbound_iff options use).mpr (fine use member)
  · intro use member edit edit_mem
    obtain ⟨listed, outside, name_form⟩ := NameUse.mem_usesOutside member
    rcases List.mem_append.mp edit_mem with edit_mem | edit_mem
    · obtain ⟨site, replaced, span_eq⟩ := exists_site_of_mem walked edit_mem
      rw [span_eq]
      exact Site.apart_of_isOutside nested listed name_form outside replaced
    · rcases Imports.span_of_mem_edits edit_mem with ⟨item, item_mem, span_eq⟩ | span_eq
      · rw [span_eq]
        exact NameUse.apart_of_import form_eq nested member item_mem (written item item_mem)
      · rw [span_eq]
        exact .inl (Nat.zero_le _)

/-- A source with a list of names that are unknown, global, called, imported and declared. -/
def listOfNames :
    { source : SourceText //
      source.text = "import x from \"m\";[a,\n\x7bb,Date\x7d,f(c),x];\x7blet d;[d]\x7d" ∧
        passes (source.parse source.dialect) (fun module =>
          Decidable.decide (module.program.WellNested ∧ module.program.LiesIn source.text.toList ∧
            ∀ item ∈ ImportItem.ofProgram module.program, item.IsWritten) &&
          passes (findings source {} module.program) fun found =>
            ((module.program.usesOutside {}).filter (NameUse.isUnknown {})).map NameUse.name == ["a", "b"] &&
              found.warnings.map (fun finding => (finding.line, finding.column)) == [(1, 19), (2, 1)]) = true } :=
  ⟨⟨"a.js", "import x from \"m\";[a,\n\x7bb,Date\x7d,f(c),x];\x7blet d;[d]\x7d"⟩, rfl, by decide +kernel⟩

/-- Of the names in a list two are unknown; a global name and a call are replaced with what is in them, an import and
a variable of a block are known. -/
theorem two_unknown_names_are_reported :
    ∃ (source : SourceText) (module : SourceModule) (found : Findings) (extraction : Extraction),
      source.text = "import x from \"m\";[a,\n\x7bb,Date\x7d,f(c),x];\x7blet d;[d]\x7d" ∧
        source.parse source.dialect = .ok module ∧ module.program.WellNested ∧
        module.program.LiesIn source.text.toList ∧
        (∀ item ∈ ImportItem.ofProgram module.program, item.IsWritten) ∧
        findings source {} module.program = .ok found ∧ run source {} false = .ok extraction ∧
        ((module.program.usesOutside {}).filter (NameUse.isUnknown {})).map NameUse.name = ["a", "b"] ∧
        List.Forall₂ (NameUse.IsReportedBy source)
          ((module.program.usesOutside {}).filter (NameUse.isUnknown {})) extraction.diagnostics ∧
        found.warnings.map (fun finding => (finding.line, finding.column)) = [(1, 19), (2, 1)] := by
  obtain ⟨source, text, settled⟩ := listOfNames
  obtain ⟨module, parsed, checked⟩ := exists_of_passes settled
  obtain ⟨fine, walk⟩ := Bool.and_eq_true_iff.mp checked
  obtain ⟨nested, placed, written⟩ := of_decide_eq_true fine
  obtain ⟨found, walked, names⟩ := exists_of_passes walk
  obtain ⟨names, places⟩ := Bool.and_eq_true_iff.mp names
  have keeps : ¬Imports.ChangesHost source {} false module.program :=
    Imports.not_changesHost source false module.program (by decide) (by simp)
  obtain ⟨extraction, extracted⟩ := exists_extraction parsed nested placed written walked keeps
  have all := diagnostics_report_unknown_names parsed nested placed written walked extracted
  exact ⟨source, module, found, extraction, text, parsed, nested, placed, written, walked, extracted, eq_of_beq names,
    all.1, eq_of_beq places⟩

/-- A source with a static block that declares the name it uses. -/
def staticBlock :
    { source : SourceText // source.text = "class A\x7bstatic\x7bvar n;[n]\x7d\x7d" ∧
      (passes (source.parse source.dialect) (fun module =>
          ((module.program.usesOutside {}).filter (NameUse.isUnbound {})).isEmpty) &&
        passes (run source {} false) fun extraction =>
          extraction.diagnostics.map Diagnostic.message == ["unknown variable \"n\""]) = true } :=
  ⟨⟨"a.js", "class A\x7bstatic\x7bvar n;[n]\x7d\x7d"⟩, rfl, by decide +kernel⟩

/-- A name that a static block declares is reported as unknown where the block uses it. -/
theorem name_of_static_block_is_reported :
    ∃ (source : SourceText) (module : SourceModule) (extraction : Extraction),
      source.text = "class A\x7bstatic\x7bvar n;[n]\x7d\x7d" ∧ source.parse source.dialect = .ok module ∧
        run source {} false = .ok extraction ∧
        (module.program.usesOutside {}).filter (NameUse.isUnbound {}) = [] ∧
        extraction.diagnostics.map Diagnostic.message = ["unknown variable \"n\""] := by
  obtain ⟨source, text, settled⟩ := staticBlock
  obtain ⟨bound, reports⟩ := Bool.and_eq_true_iff.mp settled
  obtain ⟨module, parsed, none⟩ := exists_of_passes bound
  obtain ⟨extraction, extracted, messages⟩ := exists_of_passes reports
  exact ⟨source, module, extraction, text, parsed, extracted, List.isEmpty_iff.mp none, eq_of_beq messages⟩

end Storyboard
