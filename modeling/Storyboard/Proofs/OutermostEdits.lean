import Mathlib.Data.List.Basic
import Storyboard.Extraction.Extract
import Storyboard.Proofs.Site

/-!
# What a walk replaces

A walk replaces the outermost expressions that have to be evaluated later. The decision about a node and
the recursion of the walk are brought together in one equation: the replacements of a walk, or the failure
that ends it, come from the sites that are outermost among the dynamic ones, in the order of the module.
-/

namespace Storyboard

open Extraction

namespace Span

/-- A range of bytes lies in another. -/
def Within (inner outer : Span) : Prop := outer.start ≤ inner.start ∧ inner.stop ≤ outer.stop

/-- Two ranges of bytes have no byte in common. -/
def Apart (left right : Span) : Prop := left.stop ≤ right.start ∨ right.stop ≤ left.start

instance (inner outer : Span) : Decidable (inner.Within outer) := inferInstanceAs (Decidable (_ ∧ _))

instance (left right : Span) : Decidable (left.Apart right) := inferInstanceAs (Decidable (_ ∨ _))

theorem Within.trans {inner middle outer : Span} (first : inner.Within middle)
    (second : middle.Within outer) : inner.Within outer :=
  ⟨Nat.le_trans second.1 first.1, Nat.le_trans first.2 second.2⟩

theorem Apart.mono {left right inLeft inRight : Span} (apart : left.Apart right)
    (within_left : inLeft.Within left) (within_right : inRight.Within right) : inLeft.Apart inRight := by
  unfold Within Apart at *
  omega

end Span

/-- The bytes that an edit replaces. -/
def Edit.span (edit : Edit) : Span := ⟨edit.start, edit.stop⟩

namespace Node

/-- Whether a node is the name of a key. -/
def isKeyName (node : Node) : Bool :=
  match node.form with
  | .keyName _ => true
  | _ => false

/-- The parts of a node lie inside it and, but for the names of keys, apart from each other. The name of a
key can be the text of the value that follows it. -/
structure HasNestedParts (node : Node) : Prop where
  /-- Every part lies inside the node. -/
  within : ∀ part ∈ node.parts, part.2.span.Within node.span
  /-- The parts lie apart from each other. -/
  apart : (node.parts.filter fun part => !part.2.isKeyName).Pairwise fun left right =>
    left.2.span.Apart right.2.span

instance (node : Node) : Decidable node.HasNestedParts :=
  decidable_of_iff
    ((∀ part ∈ node.parts, part.2.span.Within node.span) ∧
      (node.parts.filter fun part => !part.2.isKeyName).Pairwise fun left right =>
        left.2.span.Apart right.2.span)
    ⟨fun both => ⟨both.1, both.2⟩, fun nested => ⟨nested.within, nested.apart⟩⟩

/-- All nodes of a module have nested parts. -/
def WellNested (program : Node) : Prop := ∀ site ∈ program.sites, site.node.HasNestedParts

instance (program : Node) : Decidable program.WellNested := inferInstanceAs (Decidable (∀ _ ∈ _, _))

end Node

/-- A call of a marker is a call of its arguments. -/
theorem exists_form_of_markerCall? {resolver : Resolver} {node : Node} {marker : Marker} {arguments : List Node}
    (marked : markerCall? resolver node = some (marker, arguments)) :
    ∃ head callee, node.form = .call head callee arguments := by
  obtain ⟨⟨name, found⟩, named, marked⟩ := Option.bind_eq_some_iff.mp marked
  obtain ⟨given, -, marked⟩ := Option.bind_eq_some_iff.mp marked
  cases marked
  unfold namedCall? at named
  split at named
  · rename_i head callee others form_eq
    split at named
    · split_ifs at named
      cases named
      exact ⟨head, callee, form_eq⟩
    · cases named
  · cases named

/-- Whether a node is an expression that has to be evaluated later: no call of the style loader, and a call
of a marker or no plain data. -/
def Extraction.needsEvaluation (resolver : Resolver) (node : Node) : Bool :=
  node.form.isExpression && !isStyleLoaderCall resolver node &&
    ((markerCall? resolver node).isSome || !isPlainData resolver node)

theorem needsEvaluation_eq_false_of_no_expression (resolver : Resolver) {node : Node}
    (other : node.form.isExpression = false) : needsEvaluation resolver node = false := by
  simp [needsEvaluation, other]

/-- A name is dynamic exactly if its class does not let it stay. -/
theorem needsEvaluation_identifier (resolver : Resolver) {node : Node} {name : String}
    (form_eq : node.form = .identifier name) :
    needsEvaluation resolver node = !(resolver.classify name).isStatic := by
  have no_call : namedCall? node = none := by simp [namedCall?, form_eq]
  simp [needsEvaluation, form_eq, Form.isExpression, isStyleLoaderCall, markerCall?, no_call, isPlainData]

namespace Site

/-- Whether the expression at a site has to be evaluated later. -/
def isDynamic (options : Options) (site : Site) : Bool := needsEvaluation (site.resolver options) site.node

/-- Whether the expression at a site is replaced: it is dynamic and nothing around it is. -/
def isReplaced (options : Options) (site : Site) : Bool :=
  site.isDynamic options && site.enclosing.all fun outer => !outer.isDynamic options

/-- The property whose value stands at a site, if the property is given by a name alone, and that
name. -/
def property? (site : Site) : Option (Node × String) :=
  site.around.head?.bind fun step =>
    (shorthandValue? step.node).map fun (_, name) => (step.node, name)

/-- The bytes that are replaced when the expression at a site is: its own, or those of the whole property
that it alone gives. -/
def extent (site : Site) : Span :=
  match site.property? with
  | some (property, _) => property.span
  | none => site.node.span

/-- The placeholder for the expression at a site. -/
def placeholder (source : SourceText) (options : Options) (site : Site) :
    Except CompileError Placeholder :=
  match markerCall? (site.resolver options) site.node with
  | some (marker, arguments) =>
    markerPlaceholder source (site.resolver options) site.node marker arguments
  | none => .ok (.plain .once (source.covered site.node))

/-- The text that takes the place of an expression, after the key that a property needs. -/
def replacement (site : Site) (placeholder : Placeholder) : String :=
  match site.property? with
  | some (_, name) => name ++ ": " ++ placeholder.literal
  | none => placeholder.literal

/-- The edit that replaces the expression at a site. -/
def edit (source : SourceText) (options : Options) (site : Site) : Except CompileError Edit :=
  (site.placeholder source options).map fun placeholder =>
    ⟨site.extent.start, site.extent.stop, site.replacement placeholder⟩

/-- The outermost dynamic expressions at and below a site, in the order of a walk. -/
def outermost (options : Options) (site : Site) : List Site :=
  if site.isDynamic options then [site]
  else site.below.attach.flatMap fun ⟨inner, _⟩ => outermost options inner
termination_by sizeOf site.node
decreasing_by exact sizeOf_lt_of_mem_below (by assumption)

theorem outermost_of_isDynamic {options : Options} {site : Site}
    (dynamic : site.isDynamic options = true) : site.outermost options = [site] := by
  rw [outermost]
  simp [dynamic]

theorem outermost_of_static {options : Options} {site : Site}
    (static : site.isDynamic options = false) :
    site.outermost options = site.below.flatMap (outermost options) := by
  rw [outermost]
  simp [static, List.flatMap_subtype]

/-! ## Outermost sites are those with nothing dynamic around them -/

theorem filter_isReplaced_of_enclosed {options : Options} {site outer : Site}
    (around : outer ∈ site.enclosing) (dynamic : outer.isDynamic options = true) :
    site.within.filter (isReplaced options) = [] := by
  rw [List.filter_eq_nil_iff]
  intro deep member replaced
  have free := (Bool.and_eq_true_iff.mp replaced).2
  have static := List.all_eq_true.mp free outer (mem_enclosing_of_mem_within member around)
  simp [dynamic] at static

theorem filter_isReplaced_within {options : Options} {site : Site}
    (free : ∀ outer ∈ site.enclosing, outer.isDynamic options = false) :
    site.within.filter (isReplaced options) = site.outermost options := by
  induction site using induction_below with
  | step site ih =>
      have enclosing_static : (site.enclosing.all fun outer => !outer.isDynamic options) = true :=
        List.all_eq_true.mpr fun outer around => by simp [free outer around]
      rw [within_eq, List.filter_cons, List.filter_flatMap]
      cases dynamic : site.isDynamic options with
      | true =>
          have leaf : (site.below.flatMap fun inner => inner.within.filter (isReplaced options)) = [] := by
            rw [List.flatMap_eq_nil_iff]
            intro inner member
            have around : site ∈ inner.enclosing := by
              rw [enclosing_of_mem_below member]
              exact List.mem_cons_self
            exact filter_isReplaced_of_enclosed around dynamic
          simp [isReplaced, dynamic, enclosing_static, leaf, outermost_of_isDynamic dynamic]
      | false =>
          have inside : (site.below.flatMap fun inner => inner.within.filter (isReplaced options)) =
              site.below.flatMap (outermost options) := by
            apply List.flatMap_congr
            intro inner member
            apply ih inner member
            rw [enclosing_of_mem_below member]
            intro outer around
            rcases List.mem_cons.mp around with rfl | around
            · exact dynamic
            · exact free outer around
          simp [isReplaced, dynamic, inside, outermost_of_static dynamic]

/-! ## Decisions at sites -/

theorem isExpression_eq_false_of_shorthand {node value : Node} {name : String}
    (shorthand : shorthandValue? node = some (value, name)) : node.form.isExpression = false := by
  unfold shorthandValue? at shorthand
  split at shorthand
  · rename_i form_eq
    rw [form_eq]
    rfl
  · simp at shorthand

theorem form_of_shorthand {node value : Node} {name : String}
    (shorthand : shorthandValue? node = some (value, name)) : value.form = .identifier name := by
  unfold shorthandValue? at shorthand
  split at shorthand
  · split at shorthand
    · simp_all
    · simp at shorthand
  · simp at shorthand

theorem isDynamic_eq_false_of_shorthand (options : Options) {site : Site} {value : Node} {name : String}
    (shorthand : shorthandValue? site.node = some (value, name)) :
    site.isDynamic options = false := by
  exact needsEvaluation_eq_false_of_no_expression _ (isExpression_eq_false_of_shorthand shorthand)

theorem isDynamic_identifier (options : Options) {site : Site} {name : String}
    (form_eq : site.node.form = .identifier name) :
    site.isDynamic options = !((site.resolver options).classify name).isStatic :=
  needsEvaluation_identifier _ form_eq

/-- The walk puts the placeholder of a dynamic expression in its place, or fails with it. -/
theorem decide_of_isDynamic {source : SourceText} {options : Options} {site : Site}
    (dynamic : site.isDynamic options = true) :
    Extraction.decide source (site.resolver options) site.node =
      match site.placeholder source options with
      | .ok placeholder => .replaceBy site.node placeholder
      | .error error => .refuse error := by
  have spelled : shorthandValue? site.node = none := by
    cases shorthand : shorthandValue? site.node with
    | none => rfl
    | some found => simp [isDynamic_eq_false_of_shorthand options shorthand] at dynamic
  simp only [isDynamic, needsEvaluation, Bool.and_eq_true, Bool.not_eq_true', Bool.or_eq_true] at dynamic
  obtain ⟨⟨expression, no_loader⟩, late⟩ := dynamic
  simp only [Extraction.decide, spelled, expression, if_true, decideExpression, no_loader, Bool.false_eq_true,
    if_false, placeholder]
  cases marker : markerCall? (site.resolver options) site.node with
  | some call => rfl
  | none =>
      have no_data : isPlainData (site.resolver options) site.node = false := by
        simpa [marker] using late
      simp [decidePlain, no_data]

/-- Only names are reported. -/
theorem plainWarnings_eq_nil (source : SourceText) (resolver : Resolver) {node : Node}
    (other : ∀ name, node.form ≠ .identifier name) : plainWarnings source resolver node = [] := by
  unfold plainWarnings
  split
  · rename_i name form_eq
    exact absurd form_eq (other name)
  · rfl

/-- The walk goes on into what is not dynamic, and reports it if it is a name that nothing declares. -/
theorem decide_of_static (source : SourceText) {options : Options} {site : Site}
    (spelled : shorthandValue? site.node = none) (static : site.isDynamic options = false) :
    Extraction.decide source (site.resolver options) site.node =
      .descend (plainWarnings source (site.resolver options) site.node) := by
  simp only [Extraction.decide, spelled]
  cases expression : site.node.form.isExpression with
  | false =>
      have other : ∀ name, site.node.form ≠ .identifier name := by
        intro name form_eq
        simp [form_eq, Form.isExpression] at expression
      simp [plainWarnings_eq_nil source _ other]
  | true =>
      simp only [if_true, decideExpression]
      cases loader : isStyleLoaderCall (site.resolver options) site.node with
      | true =>
          have other : ∀ name, site.node.form ≠ .identifier name := by
            intro name form_eq
            simp [isStyleLoaderCall, namedCall?, form_eq] at loader
          simp [plainWarnings_eq_nil source _ other]
      | false =>
          cases marker : markerCall? (site.resolver options) site.node with
          | some call => simp [isDynamic, needsEvaluation, expression, loader, marker] at static
          | none =>
              have plain : isPlainData (site.resolver options) site.node = true := by
                simpa [isDynamic, needsEvaluation, expression, loader, marker] using static
              simp [decidePlain, plain]

/-! ## The walk over sites -/

/-- The edits that several walks find one after the other. -/
theorem edits_concat (all : List Findings) :
    (Findings.concat all).edits = all.flatMap Findings.edits := by
  induction all with
  | nil => rfl
  | cons first rest ih =>
      simp only [Findings.concat, List.foldr_cons, List.flatMap_cons] at ih ⊢
      simp only [Findings.append, ih]

/-- Walks that find what is read off from lists find together what is read off from the joined lists. -/
theorem mapM_edits {α β ε : Type} {walk : α → Except ε Findings} {listed : α → List β}
    {read : β → Except ε Edit} {items : List α}
    (each : ∀ item ∈ items, (walk item).map Findings.edits = (listed item).mapM read) :
    (items.mapM walk).map (fun all => all.flatMap Findings.edits) = (items.flatMap listed).mapM read := by
  induction items with
  | nil => rfl
  | cons item items ih =>
      have first := each item List.mem_cons_self
      have rest := ih fun other member => each other (List.mem_cons_of_mem _ member)
      rw [List.flatMap_cons, List.mapM_append, ← first, ← rest, List.mapM_cons]
      cases walk item with
      | error error => rfl
      | ok found =>
          cases items.mapM walk with
          | error error => rfl
          | ok all => rfl

theorem mapM_congr {α β ε : Type} {first second : α → Except ε β} {items : List α}
    (same : ∀ item ∈ items, first item = second item) : items.mapM first = items.mapM second := by
  induction items with
  | nil => rfl
  | cons item items ih =>
      rw [List.mapM_cons, List.mapM_cons, same item List.mem_cons_self,
        ih fun other member => same other (List.mem_cons_of_mem _ member)]

/-- A walk that goes on into a site walks over the sites below it. -/
theorem visit_of_descend {source : SourceText} {options : Options} {site : Site}
    {warnings : List Diagnostic} (spelled : shorthandValue? site.node = none)
    (descends : Extraction.decide source (site.resolver options) site.node = .descend warnings) :
    visit source (site.resolver options) site.node = do
      let all ← site.below.mapM fun inner => visit source (inner.resolver options) inner.node
      return .concat ({ warnings } :: all) := by
  obtain ⟨inner, parts_eq, inside, inner_eq⟩ := Node.parts_eq_outer_append_inner spelled
  have inner_walk : (inner.mapM fun part => visit source ((site.enter part).resolver options) part.2) =
      site.node.innerChildren.mapM
        (visit source (innerResolver (site.resolver options) site.node)) := by
    rw [← inner_eq, List.mapM_map]
    apply mapM_congr
    intro part member
    rw [resolver_enter_inside options site (inside part member)]
    rfl
  rw [visit, descends]
  simp only [below, parts_eq, List.mapM_map, List.mapM_append, Function.comp_def, List.mapM_subtype,
    List.unattach_attach, node_enter, resolver_enter_outside, inner_walk, bind_assoc, pure_bind]

theorem property?_enter {site : Site} (part : Part × Node) (spelled : shorthandValue? site.node = none) :
    (site.enter part).property? = none := by
  simp [property?, enter, spelled]

theorem property?_value {site : Site} {value : Node} {name : String}
    (shorthand : shorthandValue? site.node = some (value, name)) :
    (site.enter (.body, value)).property? = some (site.node, name) := by
  simp [property?, enter, shorthand]

/-- A property that is given by a name alone has the value as its only part, in the same scopes. -/
theorem below_of_shorthand {site : Site} {value : Node} {name : String}
    (shorthand : shorthandValue? site.node = some (value, name)) :
    site.below = [site.enter (.body, value)] := by
  simp [below, Node.parts, shorthand]

theorem resolver_of_shorthand (options : Options) {site : Site} {value : Node} {name : String}
    (shorthand : shorthandValue? site.node = some (value, name)) :
    (site.enter (.body, value)).resolver options = site.resolver options := by
  have no_scope : site.node.scope? = none := by
    unfold shorthandValue? at shorthand
    split at shorthand
    · rename_i form_eq
      simp [Node.scope?, form_eq]
    · simp at shorthand
  rw [resolver_enter_inside options site (by simp), innerResolver, no_scope]

theorem below_eq_nil_of_identifier {site : Site} {name : String}
    (form_eq : site.node.form = .identifier name) : site.below = [] := by
  simp [below, Node.parts, shorthandValue?, form_eq, Form.parts, Form.children]

/-- At and below a property that is given by a name alone only its value can be replaced. -/
theorem outermost_of_shorthand {options : Options} {site : Site} {value : Node} {name : String}
    (shorthand : shorthandValue? site.node = some (value, name)) :
    site.outermost options =
      if (site.enter (.body, value)).isDynamic options then [site.enter (.body, value)] else [] := by
  rw [outermost_of_static (isDynamic_eq_false_of_shorthand options shorthand), below_of_shorthand shorthand,
    List.flatMap_singleton]
  cases dynamic : (site.enter (.body, value)).isDynamic options with
  | true => exact outermost_of_isDynamic dynamic
  | false =>
      rw [outermost_of_static dynamic, below_eq_nil_of_identifier (form_of_shorthand shorthand)]
      rfl

/-- The walk replaces a property that is given by a name alone exactly if its value is dynamic. -/
theorem visit_edits_of_shorthand (source : SourceText) (options : Options) {site : Site} {value : Node}
    {name : String} (shorthand : shorthandValue? site.node = some (value, name)) :
    (visit source (site.resolver options) site.node).map Findings.edits =
      (site.outermost options).mapM (edit source options) := by
  have value_form : (site.enter (.body, value)).node.form = .identifier name :=
    form_of_shorthand shorthand
  have value_dynamic := isDynamic_identifier options value_form
  rw [resolver_of_shorthand options shorthand] at value_dynamic
  rw [outermost_of_shorthand shorthand, visit, Extraction.decide]
  simp only [shorthand, decideShorthand, value_dynamic]
  cases static : ((site.resolver options).classify name).isStatic with
  | true => rfl
  | false =>
      have no_call : namedCall? value = none := by
        simp [namedCall?, form_of_shorthand shorthand]
      have given := property?_value shorthand
      simp [edit, placeholder, markerCall?, no_call, extent, replacement, given, Except.map, pure,
        Except.pure, bind, Except.bind]

/-- The replacements of a walk, or the failure that ends it, come from the outermost dynamic sites. -/
theorem visit_edits (source : SourceText) (options : Options) {site : Site}
    (spelled : site.property? = none) :
    (visit source (site.resolver options) site.node).map Findings.edits =
      (site.outermost options).mapM (edit source options) := by
  induction site using induction_below with
  | step site ih =>
      cases shorthand : shorthandValue? site.node with
      | some found => exact visit_edits_of_shorthand source options shorthand
      | none =>
          cases dynamic : site.isDynamic options with
          | true =>
              rw [visit, decide_of_isDynamic dynamic, outermost_of_isDynamic dynamic, List.mapM_cons]
              simp only [edit, extent, spelled, replacement]
              cases site.placeholder source options with
              | error error => rfl
              | ok placeholder => rfl
          | false =>
              have descends := decide_of_static source shorthand dynamic
              have each : ∀ inner ∈ site.below,
                  (visit source (inner.resolver options) inner.node).map Findings.edits =
                    (inner.outermost options).mapM (edit source options) := by
                intro inner member
                obtain ⟨part, -, rfl⟩ := List.mem_map.mp member
                exact ih _ member (property?_enter part shorthand)
              have inside := mapM_edits each
              rw [visit_of_descend shorthand descends, outermost_of_static dynamic, ← inside]
              cases site.below.mapM fun inner => visit source (inner.resolver options) inner.node with
              | error error => rfl
              | ok all =>
                  simp [Except.map, pure, Except.pure, bind, Except.bind, edits_concat]

/-! ## Replaced and enclosing sites -/

theorem isReplaced_iff {options : Options} {site : Site} :
    site.isReplaced options = true ↔
      site.isDynamic options = true ∧ ∀ outer ∈ site.enclosing, outer.isDynamic options = false := by
  simp [isReplaced]

/-- A dynamic expression is replaced itself or lies in an expression that is. -/
theorem exists_isReplaced {options : Options} {site : Site} (dynamic : site.isDynamic options = true) :
    ∃ outer ∈ site :: site.enclosing, outer.isReplaced options = true := by
  induction steps : site.around.length using Nat.strongRecOn generalizing site with
  | ind count ih =>
      by_cases enclosed : ∃ outer ∈ site.enclosing, outer.isDynamic options = true
      · obtain ⟨outer, around, outer_dynamic⟩ := enclosed
        have shorter : outer.around.length < count := steps ▸ (mem_along around).1
        obtain ⟨outermost, far, replaced⟩ := ih _ shorter outer_dynamic rfl
        refine ⟨outermost, List.mem_cons_of_mem _ ?_, replaced⟩
        rcases List.mem_cons.mp far with rfl | far
        · exact around
        · exact mem_enclosing_trans around far
      · refine ⟨site, List.mem_cons_self, isReplaced_iff.mpr ⟨dynamic, fun outer around => ?_⟩⟩
        by_contra outer_dynamic
        exact enclosed ⟨outer, around, by simpa using outer_dynamic⟩

/-- An expression is replaced exactly if it is dynamic and no expression around it is replaced. -/
theorem mem_filter_isReplaced_iff {options : Options} {program : Node} {site : Site}
    (member : site ∈ program.sites) :
    site ∈ program.sites.filter (isReplaced options) ↔
      site.isDynamic options = true ∧
        ∀ outer ∈ site.enclosing, outer ∉ program.sites.filter (isReplaced options) := by
  rw [List.mem_filter]
  constructor
  · rintro ⟨-, replaced⟩
    obtain ⟨dynamic, static⟩ := isReplaced_iff.mp replaced
    refine ⟨dynamic, fun outer around outer_mem => ?_⟩
    have outer_dynamic := (isReplaced_iff.mp (List.mem_filter.mp outer_mem).2).1
    simp [static outer around] at outer_dynamic
  · rintro ⟨dynamic, free⟩
    refine ⟨member, isReplaced_iff.mpr ⟨dynamic, fun outer around => ?_⟩⟩
    by_contra outer_dynamic
    have dynamic_around : outer.isDynamic options = true := by simpa using outer_dynamic
    obtain ⟨outermost, far, replaced⟩ := exists_isReplaced dynamic_around
    have outermost_around : outermost ∈ site.enclosing := by
      rcases List.mem_cons.mp far with rfl | far
      · exact around
      · exact mem_enclosing_trans around far
    have outermost_mem := (mem_sites_of_mem_enclosing member outermost_around).1
    exact free outermost outermost_around (List.mem_filter.mpr ⟨outermost_mem, replaced⟩)

/-! ## Where the replaced ranges lie -/

/-- Whatever stands within a site lies inside the node at that site. -/
theorem span_within {site deep : Site} (nested : ∀ inner ∈ site.within, inner.node.HasNestedParts)
    (member : deep ∈ site.within) : deep.node.span.Within site.node.span := by
  induction site using induction_below generalizing deep with
  | step site ih =>
      rw [within_eq] at member
      rcases List.mem_cons.mp member with rfl | deeper
      · exact ⟨Nat.le_refl _, Nat.le_refl _⟩
      · obtain ⟨inner, inner_mem, deep_mem⟩ := List.mem_flatMap.mp deeper
        have inner_within : inner.node.span.Within site.node.span := by
          obtain ⟨part, part_mem, rfl⟩ := List.mem_map.mp inner_mem
          exact (nested site site.self_mem_within).within part part_mem
        have below := ih inner inner_mem
          (fun other other_mem => nested other (mem_within_of_below inner_mem other_mem)) deep_mem
        exact below.trans inner_within

/-- What is replaced at and below a site lies inside the node at that site. -/
theorem extent_within_of_mem_outermost {options : Options} {site replaced : Site}
    (nested : ∀ inner ∈ site.within, inner.node.HasNestedParts) (spelled : site.property? = none)
    (member : replaced ∈ site.outermost options) : replaced.extent.Within site.node.span := by
  induction site using induction_below with
  | step site ih =>
      cases shorthand : shorthandValue? site.node with
      | some found =>
          rw [outermost_of_shorthand shorthand] at member
          split at member
          · rw [List.mem_singleton.mp member, extent, property?_value shorthand]
            exact ⟨Nat.le_refl _, Nat.le_refl _⟩
          · simp at member
      | none =>
          cases dynamic : site.isDynamic options with
          | true =>
              rw [outermost_of_isDynamic dynamic, List.mem_singleton] at member
              subst member
              rw [extent, spelled]
              exact ⟨Nat.le_refl _, Nat.le_refl _⟩
          | false =>
              rw [outermost_of_static dynamic] at member
              obtain ⟨inner, inner_mem, member⟩ := List.mem_flatMap.mp member
              have inside := ih inner inner_mem
                (fun other other_mem => nested other (mem_within_of_below inner_mem other_mem))
              obtain ⟨part, part_mem, rfl⟩ := List.mem_map.mp inner_mem
              have inner_within := (nested site site.self_mem_within).within part part_mem
              exact (inside (property?_enter part shorthand) member).trans inner_within

theorem outermost_of_isKeyName {options : Options} {site : Site}
    (isName : site.node.isKeyName = true) : site.outermost options = [] := by
  unfold Node.isKeyName at isName
  split at isName
  · rename_i form_eq
    have static : site.isDynamic options = false :=
      needsEvaluation_eq_false_of_no_expression _ (by rw [form_eq]; rfl)
    simp [outermost_of_static static, below, Node.parts, shorthandValue?, form_eq, Form.parts,
      Form.children]
  · simp at isName

/-- What is replaced at and below a site lies apart from each other. -/
theorem pairwise_apart_outermost {options : Options} {site : Site}
    (nested : ∀ inner ∈ site.within, inner.node.HasNestedParts) (spelled : site.property? = none) :
    (site.outermost options).Pairwise fun left right => left.extent.Apart right.extent := by
  induction site using induction_below with
  | step site ih =>
      cases shorthand : shorthandValue? site.node with
      | some found =>
          rw [outermost_of_shorthand shorthand]
          split <;> simp
      | none =>
          cases dynamic : site.isDynamic options with
          | true =>
              rw [outermost_of_isDynamic dynamic]
              exact List.pairwise_singleton _ _
          | false =>
              have inner_nested : ∀ inner ∈ site.below, ∀ deep ∈ inner.within, deep.node.HasNestedParts :=
                fun inner inner_mem deep deep_mem => nested deep (mem_within_of_below inner_mem deep_mem)
              rw [outermost_of_static dynamic, List.pairwise_flatMap]
              constructor
              · intro inner inner_mem
                apply ih inner inner_mem (inner_nested inner inner_mem)
                obtain ⟨part, -, rfl⟩ := List.mem_map.mp inner_mem
                exact property?_enter part shorthand
              · have apart := List.pairwise_filter.mp (nested site site.self_mem_within).apart
                rw [below, List.pairwise_map]
                apply List.Pairwise.imp_of_mem _ apart
                intro left right left_mem right_mem spans_apart first first_mem second second_mem
                have spelled_out : ∀ part ∈ site.node.parts, ∀ deep ∈ (site.enter part).outermost options,
                    part.2.isKeyName = false ∧ deep.extent.Within part.2.span := by
                  intro part part_mem deep deep_mem
                  refine ⟨?_, extent_within_of_mem_outermost
                    (inner_nested _ (List.mem_map_of_mem part_mem)) (property?_enter part shorthand) deep_mem⟩
                  by_contra isName
                  rw [outermost_of_isKeyName (by simpa using isName)] at deep_mem
                  simp at deep_mem
                obtain ⟨left_spelled, left_within⟩ := spelled_out left left_mem first first_mem
                obtain ⟨right_spelled, right_within⟩ := spelled_out right right_mem second second_mem
                have apart_spans := spans_apart (by simp [left_spelled]) (by simp [right_spelled])
                exact apart_spans.mono left_within right_within

/-- A site in a module lies inside the range that is replaced together with it. -/
theorem span_within_extent {program : Node} {site : Site} (nested : program.WellNested)
    (member : site ∈ program.sites) : site.node.span.Within site.extent := by
  rcases eq_or_mem_below_of_mem_within member with rfl | ⟨parent, parent_mem, below_mem⟩
  · exact ⟨Nat.le_refl _, Nat.le_refl _⟩
  · obtain ⟨part, part_mem, rfl⟩ := List.mem_map.mp below_mem
    cases shorthand : shorthandValue? parent.node with
    | none =>
        rw [extent, property?_enter part shorthand]
        exact ⟨Nat.le_refl _, Nat.le_refl _⟩
    | some found =>
        have part_within := (nested parent parent_mem).within part part_mem
        simpa [extent, property?, enter, shorthand] using part_within

end Site

/-- The sites of a module whose expressions are replaced, in the order of a walk. -/
def Node.replacedSites (options : Options) (program : Node) : List Site :=
  program.sites.filter (Site.isReplaced options)

/-- A site that is dynamic, or stands inside a dynamic one, is replaced or stands inside a replaced one. -/
theorem exists_mem_replacedSites {options : Options} {program : Node} {site inner : Site}
    (member : site ∈ program.sites) (around : inner ∈ site :: site.enclosing)
    (dynamic : inner.isDynamic options = true) :
    ∃ outer ∈ site :: site.enclosing, outer ∈ program.replacedSites options := by
  obtain ⟨outer, far, replaced⟩ := Site.exists_isReplaced dynamic
  have outer_around : outer ∈ site :: site.enclosing := by
    rcases List.mem_cons.mp far with rfl | far
    · exact around
    · rcases List.mem_cons.mp around with rfl | around
      · exact List.mem_cons_of_mem _ far
      · exact List.mem_cons_of_mem _ (Site.mem_enclosing_trans around far)
  refine ⟨outer, outer_around, List.mem_filter.mpr ⟨?_, replaced⟩⟩
  rcases List.mem_cons.mp outer_around with rfl | outer_around
  · exact member
  · exact (Site.mem_sites_of_mem_enclosing member outer_around).1

/-! ## The edits of a module -/

theorem mapM_eq_ok {α β ε : Type} {read : α → Except ε β} {items : List α} {results : List β}
    (all : items.mapM read = .ok results) :
    List.Forall₂ (fun item result => read item = .ok result) items results := by
  induction items generalizing results with
  | nil =>
      obtain rfl : [] = results := by simpa [pure, Except.pure] using all
      exact .nil
  | cons item items ih =>
      rw [List.mapM_cons] at all
      cases first : read item with
      | error error => simp [first, bind, Except.bind] at all
      | ok result =>
          cases rest : items.mapM read with
          | error error => simp [first, rest, bind, Except.bind] at all
          | ok others =>
              obtain rfl : result :: others = results := by
                simpa [first, rest, bind, Except.bind, pure, Except.pure] using all
              exact .cons first (ih rest)

theorem exists_mem_of_mapM_eq_ok {α β ε : Type} {read : α → Except ε β} {items : List α} {results : List β}
    (all : items.mapM read = .ok results) {result : β} (member : result ∈ results) :
    ∃ item ∈ items, read item = .ok result := by
  have related := mapM_eq_ok all
  clear all
  induction related with
  | nil => cases member
  | cons first _ ih =>
      rcases List.mem_cons.mp member with rfl | later
      · exact ⟨_, List.mem_cons_self, first⟩
      · obtain ⟨item, item_mem, read_eq⟩ := ih later
        exact ⟨item, List.mem_cons_of_mem _ item_mem, read_eq⟩

/-- The edits of a module are those of its replaced sites. -/
theorem findings_edits (source : SourceText) (options : Options) (program : Node) :
    (findings source options program).map Findings.edits =
      (program.replacedSites options).mapM (Site.edit source options) := by
  have replaced_eq : program.replacedSites options = (Site.root program).outermost options :=
    Site.filter_isReplaced_within (by simp)
  rw [replaced_eq]
  exact @Site.visit_edits source options (.root program) rfl

theorem mapM_edit_of_findings {source : SourceText} {options : Options} {program : Node}
    {found : Findings} (walked : findings source options program = .ok found) :
    (program.replacedSites options).mapM (Site.edit source options) = .ok found.edits := by
  rw [← findings_edits, walked]
  rfl

theorem span_edit {source : SourceText} {options : Options} {site : Site} {edit : Edit}
    (replaces : site.edit source options = .ok edit) : edit.span = site.extent := by
  unfold Site.edit at replaces
  cases result : site.placeholder source options with
  | error error => simp [result, Except.map] at replaces
  | ok placeholder =>
      obtain rfl := Except.ok.inj (by simpa only [result, Except.map] using replaces)
      rfl

/-- The ranges that a walk replaces are those of the replaced sites. -/
theorem map_span_edits {source : SourceText} {options : Options} {program : Node} {found : Findings}
    (walked : findings source options program = .ok found) :
    found.edits.map Edit.span = (program.replacedSites options).map Site.extent := by
  have read := mapM_eq_ok (mapM_edit_of_findings walked)
  generalize program.replacedSites options = replaced at read
  generalize found.edits = edits at read
  induction read with
  | nil => rfl
  | cons replaces _ ih => rw [List.map_cons, List.map_cons, span_edit replaces, ih]

theorem pairwise_apart_replacedSites (options : Options) {program : Node} (nested : program.WellNested) :
    (program.replacedSites options).Pairwise fun left right => left.extent.Apart right.extent := by
  rw [Node.replacedSites, Node.sites, Site.filter_isReplaced_within (by simp)]
  exact Site.pairwise_apart_outermost nested rfl

/-- A site that stands in a replaced one lies inside a range that the walk replaces. -/
theorem exists_edit_of_mem_replacedSites {source : SourceText} {options : Options} {program : Node}
    {found : Findings} {site outer : Site} (nested : program.WellNested)
    (walked : findings source options program = .ok found) (member : site ∈ program.sites)
    (around : outer ∈ site :: site.enclosing) (replaced : outer ∈ program.replacedSites options) :
    ∃ edit ∈ found.edits, site.node.span.Within edit.span := by
  have outer_mem : outer ∈ program.sites ∧ site ∈ outer.within := by
    rcases List.mem_cons.mp around with rfl | around
    · exact ⟨member, Site.self_mem_within _⟩
    · exact Site.mem_sites_of_mem_enclosing member around
  have extent_mem : outer.extent ∈ found.edits.map Edit.span := by
    rw [map_span_edits walked]
    exact List.mem_map_of_mem replaced
  obtain ⟨edit, edit_mem, span_eq⟩ := List.mem_map.mp extent_mem
  refine ⟨edit, edit_mem, span_eq ▸ ?_⟩
  have inside := Site.span_within
    (fun inner inner_mem => nested inner (Site.mem_within_trans outer_mem.1 inner_mem)) outer_mem.2
  exact inside.trans (Site.span_within_extent nested outer_mem.1)

/-- A module that is read and walked over without failure is put together from what the walk finds. -/
theorem run_of_findings {source : SourceText} {options : Options} {module : SourceModule}
    {found : Findings} (parsed : source.parse source.dialect = .ok module)
    (walked : findings source options module.program = .ok found) (processCss : Bool) :
    run source options processCss =
      assemble source found (Imports.edits source options processCss module.program) := by
  rw [run, parsed]
  change ((findings source options module.program).mapError ExtractionFailure.rejected >>= _) = _
  rw [walked]
  rfl

/-- What is put together counts the replacements of the walk and keeps its warnings. -/
theorem counts_of_assemble {source : SourceText} {found : Findings} {importEdits : List Edit}
    {extraction : Extraction} (assembled : assemble source found importEdits = .ok extraction) :
    extraction.placeholders = found.edits.length ∧ extraction.diagnostics = found.warnings := by
  unfold assemble at assembled
  split at assembled
  · obtain rfl := Except.ok.inj assembled
    exact ⟨rfl, rfl⟩
  · split at assembled
    · obtain rfl := Except.ok.inj assembled
      exact ⟨rfl, rfl⟩
    · simp at assembled

/-- The edits of a walk are exactly the outermost dynamic expressions: of all expressions of a module, those
are replaced that no replaced expression encloses and that are no calls of the style loader but calls of a
marker or no plain data, where they stand. So the replaced ranges lie apart, the placeholders count them,
and every expression outside them is a call of the style loader or plain data. -/
theorem edits_are_outermost_dynamic {source : SourceText} {options : Options} {module : SourceModule}
    {found : Findings} (parsed : source.parse source.dialect = .ok module)
    (nested : module.program.WellNested)
    (walked : findings source options module.program = .ok found) :
    (module.program.replacedSites options).mapM (Site.edit source options) = .ok found.edits ∧
      found.edits.map Edit.span = (module.program.replacedSites options).map Site.extent ∧
      (∀ site ∈ module.program.sites,
        site ∈ module.program.replacedSites options ↔
          (∀ outer ∈ site.enclosing, outer ∉ module.program.replacedSites options) ∧
            site.node.form.isExpression = true ∧
            isStyleLoaderCall (site.resolver options) site.node = false ∧
            ((markerCall? (site.resolver options) site.node).isSome = true ∨
              isPlainData (site.resolver options) site.node = false)) ∧
      (found.edits.Pairwise fun left right => left.span.Apart right.span) ∧
      (∀ processCss extraction, run source options processCss = .ok extraction →
        extraction.placeholders = found.edits.length) ∧
      ∀ site ∈ module.program.sites, site.node.form.isExpression = true →
        (∀ edit ∈ found.edits, ¬site.node.span.Within edit.span) →
          isStyleLoaderCall (site.resolver options) site.node = true ∨
            isPlainData (site.resolver options) site.node = true := by
  refine ⟨mapM_edit_of_findings walked, map_span_edits walked, ?_, ?_, ?_, ?_⟩
  · intro site member
    rw [Node.replacedSites, Site.mem_filter_isReplaced_iff member, and_comm]
    simp [Site.isDynamic, needsEvaluation, and_assoc]
  · have apart := pairwise_apart_replacedSites options nested
    rw [← List.pairwise_map, ← map_span_edits walked, List.pairwise_map] at apart
    exact apart
  · intro processCss extraction extracted
    rw [run_of_findings parsed walked] at extracted
    exact (counts_of_assemble extracted).1
  · intro site member expression outside
    have static : site.isDynamic options = false := by
      by_contra dynamic
      obtain ⟨outer, around, replaced⟩ :=
        exists_mem_replacedSites member List.mem_cons_self (by simpa using dynamic)
      obtain ⟨edit, edit_mem, inside⟩ :=
        exists_edit_of_mem_replacedSites nested walked member around replaced
      exact outside edit edit_mem inside
    cases loader : isStyleLoaderCall (site.resolver options) site.node with
    | true => exact .inl rfl
    | false =>
        right
        have settled : (markerCall? (site.resolver options) site.node).isSome = false ∧
            isPlainData (site.resolver options) site.node = true := by
          simpa [Site.isDynamic, needsEvaluation, expression, loader] using static
        exact settled.2

/-- Whether a computation succeeds with a value that passes a check. -/
def passes {ε α : Type} (result : Except ε α) (check : α → Bool) : Bool :=
  match result with
  | .ok value => check value
  | .error _ => false

theorem exists_of_passes {ε α : Type} {result : Except ε α} {check : α → Bool}
    (settled : passes result check = true) : ∃ value, result = .ok value ∧ check value = true := by
  cases result with
  | error error => simp [passes] at settled
  | ok value => exact ⟨value, rfl, settled⟩

/-- A source with a list of a call, a property given by a name alone, and plain data. -/
def callAndGlobal :
    { source : SourceText // source.text = "[f(x),\x7bDate\x7d,[1]]" ∧
      passes (source.parse source.dialect) (fun module =>
        Decidable.decide module.program.WellNested &&
          passes (findings source {} module.program) fun found =>
            found.edits.map Edit.span == [⟨1, 5⟩, ⟨7, 11⟩]) = true } :=
  ⟨⟨"a.js", "[f(x),\x7bDate\x7d,[1]]"⟩, rfl, by decide +kernel⟩

/-- In a list of a call, a property given by a name alone, and plain data, the call and the property are
replaced. -/
theorem edits_of_call_and_global :
    ∃ (source : SourceText) (module : SourceModule) (found : Findings),
      source.text = "[f(x),\x7bDate\x7d,[1]]" ∧ source.parse source.dialect = .ok module ∧
        module.program.WellNested ∧ findings source {} module.program = .ok found ∧
        found.edits.map Edit.span = [⟨1, 5⟩, ⟨7, 11⟩] ∧
        found.edits.Pairwise fun left right => left.span.Apart right.span := by
  obtain ⟨source, text, settled⟩ := callAndGlobal
  obtain ⟨module, parsed, checked⟩ := exists_of_passes settled
  obtain ⟨nested, walk⟩ := Bool.and_eq_true_iff.mp checked
  obtain ⟨found, walked, spans⟩ := exists_of_passes walk
  have all := edits_are_outermost_dynamic parsed (of_decide_eq_true nested) walked
  exact ⟨source, module, found, text, parsed, of_decide_eq_true nested, walked, eq_of_beq spans,
    all.2.2.2.1⟩

end Storyboard
