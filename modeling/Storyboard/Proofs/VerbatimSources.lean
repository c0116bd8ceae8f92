import Storyboard.Proofs.JsonReading
import Storyboard.Proofs.OutermostEdits
import Storyboard.Proofs.PlaceholderText
import Storyboard.Proofs.TextRanges

/-!
# Sources in replacements

A replacement is a text literal, behind the key that a property needs. What the literal says is a placeholder, and
in it stands, unchanged, the source of the expression, or of the argument of its marker, or of the argument of the
second marker inside the first. The source is got back by reading the literal and then the placeholder, unless it
begins like a hint and there is none.
-/

namespace Storyboard

open Extraction

/-- What of an expression is embedded in its placeholder, in which mode, and whether with a hint: the expression
itself, or the argument of the marker that is called, or, if that calls the other marker, the argument there. -/
inductive Embeds (resolver : Resolver) (node : Node) : Node → EvalMode → Bool → Prop
  | whole (unmarked : markerCall? resolver node = none) : Embeds resolver node node .once false
  | reactive {argument : Node} (marked : markerCall? resolver node = some (.reactive, [argument]))
      (alone : ∀ arguments, markerCall? resolver argument ≠ some (.recursive, arguments)) :
      Embeds resolver node argument .bind false
  | recursive {argument : Node} (marked : markerCall? resolver node = some (.recursive, [argument]))
      (alone : ∀ arguments, markerCall? resolver argument ≠ some (.reactive, arguments)) :
      Embeds resolver node argument .recursive false
  | tracked {outer inner : Marker} {argument innermost : Node}
      (marked : markerCall? resolver node = some (outer, [argument]))
      (nested : markerCall? resolver argument = some (inner, [innermost])) (differ : inner ≠ outer) :
      Embeds resolver node innermost .recursive true

/-- A placeholder with a hint that its source gives, or without one. -/
def Placeholder.ofSource (mode : EvalMode) (isTracked : Bool) (text : String) : Placeholder :=
  ⟨mode, if isTracked then some (.detect text) else none, text⟩

/-- The argument of a marker is embedded in the mode of the marker. -/
theorem Embeds.argument {resolver : Resolver} {node argument : Node} {marker : Marker}
    (marked : markerCall? resolver node = some (marker, [argument]))
    (alone : ∀ inner arguments, markerCall? resolver argument = some (inner, arguments) → inner = marker) :
    Embeds resolver node argument (modeOf marker) false := by
  cases marker with
  | reactive => exact .reactive marked fun arguments nested => by cases alone _ _ nested
  | recursive => exact .recursive marked fun arguments nested => by cases alone _ _ nested

/-- The placeholder of a marker holds the source of its argument, or of the argument of the other marker there. -/
theorem exists_embeds_of_markerPlaceholder {source : SourceText} {resolver : Resolver} {node : Node}
    {marker : Marker} {arguments : List Node} {placeholder : Placeholder}
    (marked : markerCall? resolver node = some (marker, arguments))
    (given : markerPlaceholder source resolver node marker arguments = .ok placeholder) :
    ∃ embedded mode isTracked, Embeds resolver node embedded mode isTracked ∧
      placeholder = .ofSource mode isTracked (source.covered embedded) := by
  unfold markerPlaceholder at given
  split at given
  · rename_i argument
    split at given
    · rename_i inner innerArguments nested
      split_ifs at given with same
      · cases given
        refine ⟨argument, modeOf marker, false, .argument marked fun other others found => ?_, rfl⟩
        rw [nested] at found
        cases found
        exact eq_of_beq same
      · split at given
        · rename_i innermost
          cases given
          exact ⟨innermost, .recursive, true, .tracked marked nested (by simpa using same), rfl⟩
        · cases given
    · rename_i unnested
      cases given
      refine ⟨argument, modeOf marker, false, .argument marked fun other others found => ?_, rfl⟩
      rw [unnested] at found
      cases found
  · cases given

/-- The placeholder of a replaced expression holds the source of what is embedded. -/
theorem Site.exists_embeds {source : SourceText} {options : Options} {site : Site} {placeholder : Placeholder}
    (given : site.placeholder source options = .ok placeholder) :
    ∃ embedded mode isTracked, Embeds (site.resolver options) site.node embedded mode isTracked ∧
      placeholder = .ofSource mode isTracked (source.covered embedded) := by
  unfold Site.placeholder at given
  split at given
  · rename_i marker arguments marked
    exact exists_embeds_of_markerPlaceholder marked given
  · rename_i unmarked
    cases given
    exact ⟨site.node, .once, false, .whole unmarked, rfl⟩

/-! ## Where the embedded source stands -/

/-- The arguments of a marker are parts of its call. -/
theorem mem_parts_of_markerCall? {resolver : Resolver} {node argument : Node} {marker : Marker}
    {arguments : List Node} (marked : markerCall? resolver node = some (marker, arguments))
    (listed : argument ∈ arguments) : (Part.body, argument) ∈ node.parts := by
  obtain ⟨head, callee, form_eq⟩ := exists_form_of_markerCall? marked
  rw [Node.parts_of_form form_eq]
  exact List.mem_map_of_mem (List.mem_cons_of_mem _ listed)

/-- An argument of a marker stands at a site within the call. -/
theorem exists_mem_within_of_markerCall? {resolver : Resolver} {site : Site} {marker : Marker} {argument : Node}
    (marked : markerCall? resolver site.node = some (marker, [argument])) :
    ∃ deep ∈ site.within, deep.node = argument :=
  ⟨site.enter (.body, argument), Site.mem_within_of_below
    (List.mem_map_of_mem (mem_parts_of_markerCall? marked List.mem_cons_self)) (Site.self_mem_within _), rfl⟩

/-- What is embedded stands at a site within the expression. -/
theorem Embeds.exists_within {options : Options} {site : Site} {embedded : Node} {mode : EvalMode} {isTracked : Bool}
    (embeds : Embeds (site.resolver options) site.node embedded mode isTracked) :
    ∃ deep ∈ site.within, deep.node = embedded := by
  cases embeds with
  | whole => exact ⟨site, site.self_mem_within, rfl⟩
  | reactive marked => exact exists_mem_within_of_markerCall? marked
  | recursive marked => exact exists_mem_within_of_markerCall? marked
  | tracked marked nested =>
      obtain ⟨middle, middle_mem, rfl⟩ := exists_mem_within_of_markerCall? marked
      obtain ⟨deep, deep_mem, node_eq⟩ := exists_mem_within_of_markerCall? nested
      exact ⟨deep, Site.mem_within_trans middle_mem deep_mem, node_eq⟩

/-! ## Reading a replacement -/

theorem readRaw?_literal (placeholder : Placeholder) :
    Json.readRaw? placeholder.literal = some (.string placeholder.render) :=
  @Json.readRaw?_render (.string placeholder.render) trivial

/-- The key that stands before the literal in a replacement. -/
def Site.keyText (site : Site) : String :=
  match site.property? with
  | some (_, name) => name ++ ": "
  | none => ""

theorem Site.replacement_eq (site : Site) (placeholder : Placeholder) :
    site.replacement placeholder = site.keyText ++ placeholder.literal := by
  rw [replacement, keyText]
  cases site.property? with
  | none => exact String.empty_append.symm
  | some property => rfl

/-- An edit that can be made replaces the text of its site by a literal, behind the key that a property needs. -/
theorem Site.edit_ok {source : SourceText} {options : Options} {site : Site} {edit : Edit}
    (replaces : site.edit source options = .ok edit) :
    ∃ placeholder, site.placeholder source options = .ok placeholder ∧ edit.span = site.extent ∧
      edit.text = site.keyText ++ placeholder.literal := by
  rw [Site.edit] at replaces
  cases given : site.placeholder source options with
  | error error => simp [given, Except.map] at replaces
  | ok placeholder =>
      rw [given] at replaces
      obtain rfl := Except.ok.inj replaces
      exact ⟨placeholder, rfl, rfl, site.replacement_eq placeholder⟩

/-- An edit of a walk comes from a replaced site. -/
theorem exists_site_of_mem_edits {source : SourceText} {options : Options} {program : Node} {found : Findings}
    (walked : findings source options program = .ok found) {edit : Edit} (member : edit ∈ found.edits) :
    ∃ site ∈ program.replacedSites options, ∃ placeholder, site.placeholder source options = .ok placeholder ∧
      edit.span = site.extent ∧ edit.text = site.keyText ++ placeholder.literal := by
  obtain ⟨site, replaced, edit_eq⟩ := exists_mem_of_mapM_eq_ok (mapM_edit_of_findings walked) member
  exact ⟨site, replaced, site.edit_ok edit_eq⟩

/-- Sources are kept word for word. Every edit of a walk takes the place of an expression; its text is a literal,
behind the key that a property needs. What the literal says is read as a placeholder that holds the text at the
place of what is embedded, byte for byte, in the mode and with the hint of the markers, if that text does not begin
like a hint without having one. -/
theorem edits_hold_sources_verbatim {source : SourceText} {options : Options} {program : Node} {found : Findings}
    (placed : program.LiesIn source.text.toList) (walked : findings source options program = .ok found) {edit : Edit}
    (member : edit ∈ found.edits) :
    ∃ site ∈ program.replacedSites options, ∃ embedded mode isTracked text literal content,
      edit.span = site.extent ∧ Embeds (site.resolver options) site.node embedded mode isTracked ∧
        source.Covers embedded.span text ∧ edit.text = site.keyText ++ literal ∧
        Json.readRaw? literal = some (.string content) ∧
        ((isTracked = false → ¬Placeholder.BeginsLikeHint text) →
          Placeholder.parse? content =
            some { mode, hint := if isTracked then some (.detect text) else none, source := text }) := by
  obtain ⟨site, replaced, placeholder, given, span_eq, text_eq⟩ := exists_site_of_mem_edits walked member
  obtain ⟨embedded, mode, isTracked, embeds, rfl⟩ := site.exists_embeds given
  refine ⟨site, replaced, embedded, mode, isTracked, source.covered embedded, _, _, span_eq, embeds, ?_, text_eq,
    readRaw?_literal _, fun unlike => ?_⟩
  · obtain ⟨deep, deep_mem, rfl⟩ := embeds.exists_within
    exact SourceText.covers_covered (placed deep (Site.mem_within_trans (List.mem_filter.mp replaced).1 deep_mem))
  · refine Placeholder.parse?_render_iff.mpr ?_
    cases isTracked with
    | true => simp [Placeholder.ofSource]
    | false => simpa [Placeholder.ofSource] using unlike rfl

/-- A source with a marker inside another one and a property given by a name alone. -/
def callAndProperty :
    { source : SourceText //
      source.text = "import\x7bbind,recursive\x7dfrom\"next-jsx/runtime\";[recursive(bind(STATE.a)),\x7bDate\x7d]" ∧
        passes (source.parse source.dialect) (fun module =>
          Decidable.decide (module.program.LiesIn source.text.toList) &&
            passes (findings source {} module.program) fun found =>
              found.edits.map Edit.text ==
                ["\"<%~ \\\"track state\\\",STATE.a %>\"", "Date: \"<% Date %>\""]) = true } :=
  ⟨⟨"a.js", "import\x7bbind,recursive\x7dfrom\"next-jsx/runtime\";[recursive(bind(STATE.a)),\x7bDate\x7d]"⟩, rfl,
    by decide +kernel⟩

/-- The argument of a marker inside the other one, and a property given by a name alone, are held by the edits. -/
theorem tracked_call_and_property_hold_sources :
    ∃ (source : SourceText) (module : SourceModule) (found : Findings),
      source.text = "import\x7bbind,recursive\x7dfrom\"next-jsx/runtime\";[recursive(bind(STATE.a)),\x7bDate\x7d]" ∧
        source.parse source.dialect = .ok module ∧ module.program.LiesIn source.text.toList ∧
        findings source {} module.program = .ok found ∧
        found.edits.map Edit.text = ["\"<%~ \\\"track state\\\",STATE.a %>\"", "Date: \"<% Date %>\""] ∧
        ∀ edit ∈ found.edits, ∃ site ∈ module.program.replacedSites {}, ∃ embedded mode isTracked text literal content,
          edit.span = site.extent ∧ Embeds (site.resolver {}) site.node embedded mode isTracked ∧
            source.Covers embedded.span text ∧ edit.text = site.keyText ++ literal ∧
            Json.readRaw? literal = some (.string content) ∧
            ((isTracked = false → ¬Placeholder.BeginsLikeHint text) →
              Placeholder.parse? content =
                some { mode, hint := if isTracked then some (.detect text) else none, source := text }) := by
  obtain ⟨source, text, settled⟩ := callAndProperty
  obtain ⟨module, parsed, checked⟩ := exists_of_passes settled
  obtain ⟨placed, walk⟩ := Bool.and_eq_true_iff.mp checked
  obtain ⟨found, walked, texts⟩ := exists_of_passes walk
  have placed := of_decide_eq_true placed
  exact ⟨source, module, found, text, parsed, placed, walked, eq_of_beq texts, fun edit member =>
    edits_hold_sources_verbatim placed walked member⟩

end Storyboard
