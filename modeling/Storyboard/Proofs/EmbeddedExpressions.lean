import Mathlib.Data.List.Forall2
import Storyboard.Proofs.VerbatimSources

/-!
# Expressions in placeholders

What a placeholder holds is the text of one node of the module: of the expression that is replaced, of the only
argument of its marker, or of the only argument of the second marker in it. Arguments are counted, but not looked
at: one that spreads the values of a collection is taken like any other, and its text is no expression.
-/

namespace Storyboard

open Extraction

/-- Whether a node spreads the values of a collection. -/
def Node.isSpread (node : Node) : Bool :=
  match node.form with
  | .spread _ => true
  | _ => false

/-- Whether a node can be an argument: an expression, or the values of one that are spread. -/
def Node.isArgument (node : Node) : Bool :=
  match node.form with
  | .spread value => value.form.isExpression
  | form => form.isExpression

/-- An argument is an expression exactly if it spreads nothing. -/
theorem Node.isExpression_iff_of_isArgument {node : Node} (argument : node.isArgument = true) :
    node.form.isExpression = true ↔ node.isSpread = false := by
  rw [Node.isArgument.eq_def] at argument
  rw [isSpread]
  split at argument
  · rename_i value form_eq
    simp [form_eq, Form.isExpression]
  · rename_i no_spread
    refine iff_of_true argument ?_
    cases form_eq : node.form with
    | spread value => exact absurd form_eq (no_spread value)
    | _ => rfl

/-- What a call is given; nothing for other nodes. -/
def Node.arguments (node : Node) : List Node :=
  match node.form with
  | .call _ _ arguments => arguments
  | _ => []

/-- All calls of a module are given arguments. -/
def Node.HasArguments (program : Node) : Prop :=
  ∀ site ∈ program.sites, ∀ argument ∈ site.node.arguments, argument.isArgument = true

instance (program : Node) : Decidable program.HasArguments := inferInstanceAs (Decidable (∀ _ ∈ _, ∀ _ ∈ _, _))

/-- A marker is given the values of a collection instead of an expression, itself or inside the other marker. -/
inductive SpreadsIntoMarker (resolver : Resolver) (node : Node) : Prop
  | outer {marker : Marker} {argument : Node} (marked : markerCall? resolver node = some (marker, [argument]))
      (spread : argument.isSpread = true)
  | inner {outer inner : Marker} {argument innermost : Node}
      (marked : markerCall? resolver node = some (outer, [argument]))
      (nested : markerCall? resolver argument = some (inner, [innermost])) (differ : inner ≠ outer)
      (spread : innermost.isSpread = true)

/-! ## What is embedded -/

theorem mem_arguments_of_markerCall? {resolver : Resolver} {node argument : Node} {marker : Marker}
    (marked : markerCall? resolver node = some (marker, [argument])) : argument ∈ node.arguments := by
  obtain ⟨head, callee, form_eq⟩ := exists_form_of_markerCall? marked
  simp [Node.arguments, form_eq]

/-- What is embedded for a node, in which mode, and whether with a hint. -/
def embedded? (resolver : Resolver) (node : Node) : Option (Node × EvalMode × Bool) :=
  match markerCall? resolver node with
  | none => some (node, .once, false)
  | some (marker, [argument]) =>
    match markerCall? resolver argument with
    | none => some (argument, modeOf marker, false)
    | some (inner, arguments) =>
      if inner = marker then some (argument, modeOf marker, false)
      else arguments.head?.map fun innermost => (innermost, .recursive, true)
  | some _ => none

theorem embedded?_of_embeds {resolver : Resolver} {node embedded : Node} {mode : EvalMode} {isTracked : Bool}
    (embeds : Embeds resolver node embedded mode isTracked) :
    embedded? resolver node = some (embedded, mode, isTracked) := by
  have marker_alone : ∀ {marker : Marker} {argument : Node},
      markerCall? resolver node = some (marker, [argument]) →
      (∀ inner arguments, markerCall? resolver argument = some (inner, arguments) → inner = marker) →
      embedded? resolver node = some (argument, modeOf marker, false) := by
    intro marker argument marked alone
    simp only [embedded?, marked]
    split
    · rfl
    · rename_i inner arguments nested
      rw [if_pos (alone inner arguments nested)]
  cases embeds with
  | whole unmarked => simp only [embedded?, unmarked]
  | reactive marked alone =>
      refine marker_alone marked fun inner arguments nested => ?_
      cases inner with
      | reactive => rfl
      | recursive => exact absurd nested (alone arguments)
  | recursive marked alone =>
      refine marker_alone marked fun inner arguments nested => ?_
      cases inner with
      | reactive => exact absurd nested (alone arguments)
      | recursive => rfl
  | tracked marked nested differ => simp [embedded?, marked, nested, differ]

/-- Only one node is embedded for a node. -/
theorem Embeds.unique {resolver : Resolver} {node first second : Node} {mode mode' : EvalMode} {hints hints' : Bool}
    (embeds : Embeds resolver node first mode hints) (others : Embeds resolver node second mode' hints') :
    second = first := by
  have same := (embedded?_of_embeds others).symm.trans (embedded?_of_embeds embeds)
  exact (Prod.mk.inj (Option.some.inj same)).1

/-- What is embedded for an expression is an expression or an argument of a call. -/
theorem Embeds.isArgument {options : Options} {program : Node} {site : Site} {embedded : Node} {mode : EvalMode}
    {isTracked : Bool} (given : program.HasArguments) (member : site ∈ program.sites)
    (expression : site.node.form.isExpression = true)
    (embeds : Embeds (site.resolver options) site.node embedded mode isTracked) : embedded.isArgument = true := by
  have direct : ∀ {outer : Site} {marker : Marker} {argument : Node}, outer ∈ program.sites →
      markerCall? (site.resolver options) outer.node = some (marker, [argument]) → argument.isArgument = true := by
    intro outer marker argument outer_mem marked
    exact given outer outer_mem argument (mem_arguments_of_markerCall? marked)
  cases embeds with
  | whole =>
      unfold Node.isArgument
      split
      · rename_i value form_eq
        rw [form_eq] at expression
        cases expression
      · exact expression
  | reactive marked => exact direct member marked
  | recursive marked => exact direct member marked
  | tracked marked nested =>
      obtain ⟨deep, deep_mem, rfl⟩ := exists_mem_within_of_markerCall? marked
      exact direct (Site.mem_within_trans member deep_mem) nested

/-- A spread that a marker is given is embedded. -/
theorem SpreadsIntoMarker.exists_embeds {resolver : Resolver} {node : Node}
    (spreads : SpreadsIntoMarker resolver node) :
    ∃ embedded mode isTracked, Embeds resolver node embedded mode isTracked ∧ embedded.isSpread = true := by
  cases spreads with
  | outer marked spread =>
      refine ⟨_, _, _, .argument marked fun inner arguments nested => ?_, spread⟩
      obtain ⟨head, callee, form_eq⟩ := exists_form_of_markerCall? nested
      simp [Node.isSpread, form_eq] at spread
  | inner marked nested differ spread => exact ⟨_, _, _, .tracked marked nested differ, spread⟩

/-- A spread is embedded for an expression exactly if a marker is given it. -/
theorem Embeds.isSpread_iff {resolver : Resolver} {node embedded : Node} {mode : EvalMode} {isTracked : Bool}
    (expression : node.form.isExpression = true) (embeds : Embeds resolver node embedded mode isTracked) :
    embedded.isSpread = true ↔ SpreadsIntoMarker resolver node := by
  constructor
  · intro spread
    cases embeds with
    | whole =>
        unfold Node.isSpread at spread
        split at spread
        · rename_i value form_eq
          rw [form_eq] at expression
          cases expression
        · cases spread
    | reactive marked => exact .outer marked spread
    | recursive marked => exact .outer marked spread
    | tracked marked nested differ => exact .inner marked nested differ spread
  · intro spreads
    obtain ⟨other, mode', isTracked', others, spread⟩ := spreads.exists_embeds
    rwa [embeds.unique others] at spread

/-! ## What the edits hold -/

/-- Every edit takes the place of one expression and holds the text of one node in it. This is the expression, or
the only argument of its marker, or the only argument of the second marker in it, and it is an expression or a
spread. All edits of a module hold expressions exactly if no marker that is replaced is given a spread. -/
theorem edits_embed_expressions_iff {source : SourceText} {options : Options} {program : Node} {found : Findings}
    (given : program.HasArguments) (walked : findings source options program = .ok found) :
    List.Forall₂ (fun site edit => ∃ embedded mode isTracked,
        Embeds (site.resolver options) site.node embedded mode isTracked ∧
        (∀ other mode' isTracked', Embeds (site.resolver options) site.node other mode' isTracked' → other = embedded) ∧
        (∃ deep ∈ site.within, deep.node = embedded) ∧ embedded.isArgument = true ∧
        edit.span = site.extent ∧ edit.text = site.keyText ++
          (Placeholder.ofSource mode isTracked (source.covered embedded)).literal)
      (program.replacedSites options) found.edits ∧
    ((∀ site ∈ program.replacedSites options, ∀ embedded mode isTracked,
        Embeds (site.resolver options) site.node embedded mode isTracked → embedded.form.isExpression = true) ↔
      ∀ site ∈ program.replacedSites options, ¬SpreadsIntoMarker (site.resolver options) site.node) := by
  have replaced_at : ∀ site ∈ program.replacedSites options, ∀ embedded mode isTracked,
      Embeds (site.resolver options) site.node embedded mode isTracked →
        embedded.isArgument = true ∧
          (embedded.isSpread = true ↔ SpreadsIntoMarker (site.resolver options) site.node) := by
    intro site replaced embedded mode isTracked embeds
    obtain ⟨member, replaced⟩ := List.mem_filter.mp replaced
    have dynamic : site.isDynamic options = true := (Site.isReplaced_iff.mp replaced).1
    have expression : site.node.form.isExpression = true := by
      rw [Site.isDynamic, needsEvaluation, Bool.and_eq_true, Bool.and_eq_true] at dynamic
      exact dynamic.1.1
    exact ⟨embeds.isArgument given member expression, embeds.isSpread_iff expression⟩
  constructor
  · refine ((List.forall₂_and_left _ _).mpr ⟨replaced_at, mapM_eq_ok (mapM_edit_of_findings walked)⟩).imp ?_
    rintro site edit ⟨arguments, edit_eq⟩
    obtain ⟨placeholder, placed, span_eq, text_eq⟩ := Site.edit_ok edit_eq
    obtain ⟨embedded, mode, isTracked, embeds, rfl⟩ := site.exists_embeds placed
    exact ⟨embedded, mode, isTracked, embeds, fun other mode' isTracked' others => embeds.unique others,
      embeds.exists_within, (arguments embedded mode isTracked embeds).1, span_eq, text_eq⟩
  · refine forall₂_congr fun site replaced => ⟨fun all spreads => ?_, fun none embedded mode isTracked embeds => ?_⟩
    · obtain ⟨embedded, mode, isTracked, embeds, spread⟩ := spreads.exists_embeds
      have argument := (replaced_at site replaced embedded mode isTracked embeds).1
      have no_spread := (Node.isExpression_iff_of_isArgument argument).mp (all embedded mode isTracked embeds)
      rw [spread] at no_spread
      cases no_spread
    · obtain ⟨argument, spread_iff⟩ := replaced_at site replaced embedded mode isTracked embeds
      refine (Node.isExpression_iff_of_isArgument argument).mpr (Bool.eq_false_iff.mpr fun spread => ?_)
      exact none (spread_iff.mp spread)

/-- A source with a marker inside another one, arguments in parentheses and a call without a marker. -/
def groupedArguments :
    { source : SourceText //
      source.text = "import\x7bbind,recursive\x7dfrom\"next-jsx/runtime\";[recursive(bind((a,b))),bind((c)),d()]" ∧
        passes (source.parse source.dialect) (fun module =>
          Decidable.decide (module.program.HasArguments ∧ ∀ site ∈ module.program.replacedSites {},
            (embedded? (site.resolver {}) site.node).any (·.1.isSpread) = false) &&
            passes (findings source {} module.program) fun found => found.edits.map Edit.text ==
              ["\"<%~ \\\"track context\\\",a,b %>\"", "\"<%= c %>\"", "\"<% d() %>\""]) = true } :=
  ⟨⟨"a.js", "import\x7bbind,recursive\x7dfrom\"next-jsx/runtime\";[recursive(bind((a,b))),bind((c)),d()]"⟩, rfl,
    by decide +kernel⟩

/-- An argument in parentheses, a nested marker and an expression without a marker are held as expressions. -/
theorem nested_and_grouped_arguments_are_expressions :
    ∃ (source : SourceText) (module : SourceModule) (found : Findings),
      source.text = "import\x7bbind,recursive\x7dfrom\"next-jsx/runtime\";[recursive(bind((a,b))),bind((c)),d()]" ∧
        source.parse source.dialect = .ok module ∧ module.program.HasArguments ∧
        findings source {} module.program = .ok found ∧
        found.edits.map Edit.text = ["\"<%~ \\\"track context\\\",a,b %>\"", "\"<%= c %>\"", "\"<% d() %>\""] ∧
        ∀ site ∈ module.program.replacedSites {}, ∀ embedded mode isTracked,
          Embeds (site.resolver {}) site.node embedded mode isTracked → embedded.form.isExpression = true := by
  obtain ⟨source, text, settled⟩ := groupedArguments
  obtain ⟨module, parsed, checked⟩ := exists_of_passes settled
  obtain ⟨fine, walk⟩ := Bool.and_eq_true_iff.mp checked
  obtain ⟨given, no_spread⟩ := of_decide_eq_true fine
  obtain ⟨found, walked, texts⟩ := exists_of_passes walk
  refine ⟨source, module, found, text, parsed, given, walked, eq_of_beq texts, ?_⟩
  refine (edits_embed_expressions_iff given walked).2.mpr fun site replaced spreads => ?_
  obtain ⟨embedded, mode, isTracked, embeds, spread⟩ := spreads.exists_embeds
  have none := no_spread site replaced
  rw [embedded?_of_embeds embeds, Option.any_some, spread] at none
  cases none

/-- A source with a marker that is given the values of a collection. -/
def spreadArgument :
    { source : SourceText //
      source.text = "import\x7bbind\x7dfrom\"next-jsx/runtime\";[bind(...a)]" ∧
        (SourceModule.parse? source.dialect "...a").isNone = true ∧
        passes (source.parse source.dialect) (fun module =>
          Decidable.decide (∀ site ∈ module.program.sites,
            site.node.form.isExpression = true → source.covered site.node ≠ "...a") &&
            passes (findings source {} module.program) fun found =>
              found.edits.map Edit.text == ["\"<%= ...a %>\""]) = true } :=
  ⟨⟨"a.js", "import\x7bbind\x7dfrom\"next-jsx/runtime\";[bind(...a)]"⟩, rfl, by decide +kernel, by decide +kernel⟩

/-- The values of a collection that a marker is given are held as they are written. This is the text of no expression
of the module, and none that could be read. -/
theorem spread_argument_is_held :
    ∃ (source : SourceText) (module : SourceModule) (found : Findings),
      source.text = "import\x7bbind\x7dfrom\"next-jsx/runtime\";[bind(...a)]" ∧
        source.parse source.dialect = .ok module ∧ findings source {} module.program = .ok found ∧
        found.edits.map Edit.text = ["\"<%= ...a %>\""] ∧
        (∀ site ∈ module.program.sites, site.node.form.isExpression = true → source.covered site.node ≠ "...a") ∧
        (SourceModule.parse? source.dialect "...a").isNone = true := by
  obtain ⟨source, text, unreadable, settled⟩ := spreadArgument
  obtain ⟨module, parsed, checked⟩ := exists_of_passes settled
  obtain ⟨other, walk⟩ := Bool.and_eq_true_iff.mp checked
  obtain ⟨found, walked, texts⟩ := exists_of_passes walk
  exact ⟨source, module, found, text, parsed, walked, eq_of_beq texts, of_decide_eq_true other, unreadable⟩

end Storyboard
