import Storyboard.Proofs.UnknownNames

/-!
# Questions about a name

A walk asks three questions about a name: which class it has, which marker it is, and whether it is the style loader.
A marker always has the class of what the framework exports, so it never stays where it is used as a value. The style
loader has a class that stays, but for two cases: it is not declared and listed among the global names, or it is
imported and the elements come from the module of the markers. Then a call that is kept for the sake of the style
loader loses the name that it calls.
-/

namespace Storyboard

open Extraction

namespace Resolver

/-- The style loader is taken for something else: where it is not declared, for one of the global names; where it is
imported with the elements, for a marker, since both come from one module. -/
def MistakesLoader (resolver : Resolver) : Prop :=
  match resolver.lookup resolver.options.styleLoader with
  | none => resolver.options.isBuiltinGlobal resolver.options.styleLoader = true
  | some _ => resolver.options.jsxModule = resolver.options.runtimeModule

instance (resolver : Resolver) : Decidable resolver.MistakesLoader := by
  unfold MistakesLoader
  split <;> infer_instance

/-- A marker has the class of what the framework exports. -/
theorem classify_of_marker? {resolver : Resolver} {name : String} {marker : Marker}
    (named : resolver.marker? name = some marker) : resolver.classify name = .frameworkImport := by
  obtain ⟨-, found⟩ := marker?_eq_some_iff.mp named
  simp [classify, found, Binding.isNamedImportFrom]

theorem isStyleLoader_eq_true_iff {resolver : Resolver} {name : String} :
    resolver.isStyleLoader name = true ↔ name = resolver.options.styleLoader ∧
      (resolver.lookup name = none ∨
        resolver.lookup name = some (.imported resolver.options.jsxModule (.named name))) := by
  rw [isStyleLoader, Bool.and_eq_true, beq_iff_eq]
  refine and_congr_right fun _ => ?_
  cases resolver.lookup name <;> simp [Binding.isNamedImport]

/-- The style loader has a class that stays exactly if it is not taken for something else. -/
theorem isStatic_classify_iff {resolver : Resolver} {name : String} (loader : resolver.isStyleLoader name = true) :
    (resolver.classify name).isStatic = true ↔ ¬resolver.MistakesLoader := by
  obtain ⟨rfl, free | imported⟩ := isStyleLoader_eq_true_iff.mp loader
  · rw [MistakesLoader, free]
    cases listed : resolver.options.isBuiltinGlobal resolver.options.styleLoader <;>
      simp [classify, free, listed, NameClass.isStatic]
  · rw [MistakesLoader, imported]
    by_cases same : resolver.options.jsxModule = resolver.options.runtimeModule <;>
      simp [classify, imported, Binding.isNamedImportFrom, Binding.isDefaultImport, same, NameClass.isStatic]

end Resolver

/-- A call of a name calls it. -/
theorem exists_form_of_namedCall? {node : Node} {name : String} {arguments : List Node}
    (called : namedCall? node = some (name, arguments)) :
    ∃ head callee, node.form = .call head callee arguments ∧ callee.form = .identifier name := by
  unfold namedCall? at called
  split at called
  · rename_i head callee others form_eq
    split at called
    · rename_i other callee_form
      split_ifs at called
      cases called
      exact ⟨head, callee, form_eq, callee_form⟩
    · cases called
  · cases called

namespace Site

/-- A name that is replaced where it stands gives way to a text that holds it. -/
theorem edit_identifier (source : SourceText) (options : Options) {site : Site} {name : String}
    (form_eq : site.node.form = .identifier name) (spelled : site.property? = none) :
    site.edit source options = .ok ⟨site.node.span.start, site.node.span.stop,
      (Placeholder.plain .once (source.covered site.node)).literal⟩ := by
  have no_call : namedCall? site.node = none := by simp [namedCall?, form_eq]
  have no_marker : markerCall? (site.resolver options) site.node = none := by simp [markerCall?, no_call]
  simp [edit, placeholder, no_marker, extent, spelled, replacement, Except.map]

/-- What a call of the style loader calls stands first below the call, in the same scopes. -/
theorem exists_callee_of_isStyleLoaderCall {options : Options} {site : Site}
    (loader : isStyleLoaderCall (site.resolver options) site.node = true) :
    ∃ callee name, site.below.head? = some callee ∧ callee.node.form = .identifier name ∧ callee.property? = none ∧
      callee.resolver options = site.resolver options ∧ (site.resolver options).isStyleLoader name = true := by
  unfold isStyleLoaderCall at loader
  split at loader
  · rename_i name arguments called
    obtain ⟨head, callee, form_eq, callee_form⟩ := exists_form_of_namedCall? called
    have opened : site.node.scope? = none := by simp [Node.scope?, form_eq]
    have spelled : shorthandValue? site.node = none := by simp [shorthandValue?, form_eq]
    refine ⟨site.enter (.body, callee), name, ?_, callee_form, property?_enter _ spelled, ?_, loader⟩
    · simp [below, Node.parts, spelled, form_eq, Form.parts, Form.children]
    · rw [resolver_enter_inside options site (by simp), innerResolver, opened]
  · cases loader

end Site

/-- The three questions about a name, whatever scopes have been entered and left: a marker has the class of what the
framework exports, and the style loader has a class that stays exactly if it is not taken for something else. So what
a kept call of the style loader calls is replaced by a text, as a name that is evaluated later, exactly if the style
loader is taken for something else where the call stands. -/
theorem name_queries_agree_iff (source : SourceText) (options : Options) (program : Node) :
    (∀ scopes name, let resolver : Resolver := { options, scopes }
      (∀ marker, resolver.marker? name = some marker → resolver.classify name = .frameworkImport) ∧
        (resolver.isStyleLoader name = true →
          ((resolver.classify name).isStatic = true ↔ ¬resolver.MistakesLoader))) ∧
    (findings source options program).map Findings.edits =
      (program.replacedSites options).mapM (Site.edit source options) ∧
    ∀ site ∈ program.sites, site.isOutside options = true →
      isStyleLoaderCall (site.resolver options) site.node = true →
        ∃ callee, site.below.head? = some callee ∧
          callee.edit source options = .ok ⟨callee.node.span.start, callee.node.span.stop,
            (Placeholder.plain .once (source.covered callee.node)).literal⟩ ∧
          (callee ∈ program.replacedSites options ↔ (site.resolver options).MistakesLoader) := by
  refine ⟨fun scopes name => ⟨fun marker => Resolver.classify_of_marker?, Resolver.isStatic_classify_iff⟩,
    findings_edits source options program, fun site member outside loader => ?_⟩
  obtain ⟨callee, name, first, callee_form, spelled, same_scopes, is_loader⟩ :=
    Site.exists_callee_of_isStyleLoaderCall loader
  refine ⟨callee, first, Site.edit_identifier source options callee_form spelled, ?_⟩
  have below_mem : callee ∈ site.below := List.mem_of_head? first
  have listed : callee ∈ program.sites :=
    Site.mem_within_trans member (Site.mem_within_of_below below_mem (Site.self_mem_within callee))
  have free : ∀ outer ∈ callee.enclosing, outer.isDynamic options = false := by
    rw [Site.enclosing_of_mem_below below_mem]
    exact Site.isOutside_iff.mp outside
  have dynamic := Site.isDynamic_identifier options callee_form
  rw [same_scopes] at dynamic
  calc callee ∈ program.replacedSites options ↔ callee.isDynamic options = true := by
        rw [Node.replacedSites, List.mem_filter, Site.isReplaced_iff]
        exact ⟨fun replaced => replaced.2.1, fun late => ⟨listed, late, free⟩⟩
    _ ↔ ¬((site.resolver options).classify name).isStatic = true := by
        rw [dynamic, Bool.not_eq_true', Bool.not_eq_true]
    _ ↔ (site.resolver options).MistakesLoader := by
        rw [Resolver.isStatic_classify_iff is_loader, not_not]

/-- A source with a call of the style loader, which nothing declares. -/
def unboundLoader :
    { source : SourceText // source.text = "[loadStyleText(\"a.css\")]" ∧
      passes (source.parse source.dialect) (fun module => module.program.sites.any fun site =>
        site.isOutside {} && isStyleLoaderCall (site.resolver {}) site.node &&
          !Decidable.decide (site.resolver {}).MistakesLoader) = true } :=
  ⟨⟨"a.js", "[loadStyleText(\"a.css\")]"⟩, rfl, by decide +kernel⟩

/-- By the usual options an imported marker has the class of what the framework exports, and a call of the style
loader that nothing declares keeps the name that it calls. -/
theorem unbound_loader_is_kept :
    ∃ (source : SourceText) (module : SourceModule) (site callee : Site),
      source.text = "[loadStyleText(\"a.css\")]" ∧ source.parse source.dialect = .ok module ∧
        site ∈ module.program.sites ∧ isStyleLoaderCall (site.resolver {}) site.node = true ∧
        site.below.head? = some callee ∧ callee ∉ module.program.replacedSites {} ∧
        Resolver.classify { options := {}, scopes := [[("bind", .imported "next-jsx/runtime" (.named "bind"))]] }
          "bind" = .frameworkImport := by
  obtain ⟨source, text, settled⟩ := unboundLoader
  obtain ⟨module, parsed, checked⟩ := exists_of_passes settled
  obtain ⟨site, member, checked⟩ := List.any_eq_true.mp checked
  simp only [Bool.and_eq_true, Bool.not_eq_true', decide_eq_false_iff_not] at checked
  obtain ⟨⟨outside, loader⟩, known⟩ := checked
  obtain ⟨queries, -, kept⟩ := name_queries_agree_iff source {} module.program
  obtain ⟨callee, first, -, replaced_iff⟩ := kept site member outside loader
  have exported := (queries [[("bind", .imported "next-jsx/runtime" (.named "bind"))]] "bind").1 .reactive (by decide)
  exact ⟨source, module, site, callee, text, parsed, member, loader, first,
    fun replaced => known (replaced_iff.mp replaced), exported⟩

/-- The same call, and options that list the style loader among the global names. -/
def listedLoader :
    { file : SourceText × Options // file.1.text = "[loadStyleText(\"a.css\")]" ∧
      file.2.builtinGlobals = some ["loadStyleText"] ∧
      Resolver.isStyleLoader { options := file.2 } "loadStyleText" = true ∧
      (Resolver.classify { options := file.2 } "loadStyleText").isStatic = false ∧
      passes (run file.1 file.2 false) (fun extraction =>
        extraction.code == some "[\"<% loadStyleText %>\"(\"a.css\")]") = true } :=
  ⟨⟨⟨"a.js", "[loadStyleText(\"a.css\")]"⟩, { builtinGlobals := some ["loadStyleText"] }⟩, rfl, rfl,
    by decide, by decide, by decide +kernel⟩

/-- If the style loader is listed among the global names, a call of it is kept and the name that it calls is not. -/
theorem listed_loader_is_replaced :
    ∃ (source : SourceText) (options : Options) (extraction : Extraction),
      source.text = "[loadStyleText(\"a.css\")]" ∧ options.builtinGlobals = some ["loadStyleText"] ∧
        Resolver.isStyleLoader { options } "loadStyleText" = true ∧
        (Resolver.classify { options } "loadStyleText").isStatic = false ∧
        run source options false = .ok extraction ∧
        extraction.code = some "[\"<% loadStyleText %>\"(\"a.css\")]" := by
  obtain ⟨⟨source, options⟩, text, listed, loader, dynamic, settled⟩ := listedLoader
  obtain ⟨extraction, extracted, code_eq⟩ := exists_of_passes settled
  exact ⟨source, options, extraction, text, listed, loader, dynamic, extracted, eq_of_beq code_eq⟩

end Storyboard
