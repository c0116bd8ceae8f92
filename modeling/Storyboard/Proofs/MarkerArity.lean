import Storyboard.Proofs.OutermostEdits

/-!
# Markers with a wrong number of arguments

A marker is applied to one expression. A walk that comes to a call of a marker with another number of arguments,
or to one whose only argument is such a call of the other marker, rejects the module, and reports the first such
call. Nothing else in a module that can be read makes a walk fail.
-/

namespace Storyboard

open Extraction

/-- A call of a marker with a wrong number of arguments that is found at a node: the node itself, or its only
argument if that calls the other marker. -/
inductive Misuses (resolver : Resolver) (node : Node) : Node → Marker → List Node → Prop
  | outer {marker : Marker} {arguments : List Node}
      (marked : markerCall? resolver node = some (marker, arguments)) (wrong : arguments.length ≠ 1) :
      Misuses resolver node node marker arguments
  | inner {outer inner : Marker} {argument : Node} {arguments : List Node}
      (marked : markerCall? resolver node = some (outer, [argument]))
      (nested : markerCall? resolver argument = some (inner, arguments)) (differ : inner ≠ outer)
      (wrong : arguments.length ≠ 1) : Misuses resolver node argument inner arguments

theorem Misuses.isSome_markerCall? {resolver : Resolver} {node call : Node} {marker : Marker}
    {arguments : List Node} (misuses : Misuses resolver node call marker arguments) :
    (markerCall? resolver node).isSome = true := by
  cases misuses with
  | outer marked _ => simp [marked]
  | inner marked _ _ _ => simp [marked]

/-- What calls a marker is an expression. -/
theorem isExpression_of_markerCall? {resolver : Resolver} {node : Node}
    (marked : (markerCall? resolver node).isSome = true) : node.form.isExpression = true := by
  obtain ⟨⟨marker, arguments⟩, marked⟩ := Option.isSome_iff_exists.mp marked
  obtain ⟨head, callee, form_eq⟩ := exists_form_of_markerCall? marked
  rw [form_eq]
  rfl

/-- A marker has no placeholder exactly if it, or the other marker in it, has a wrong number of arguments. -/
theorem markerPlaceholder_eq_error_iff {source : SourceText} {resolver : Resolver} {node : Node}
    {marker : Marker} {arguments : List Node} {error : CompileError}
    (marked : markerCall? resolver node = some (marker, arguments)) :
    markerPlaceholder source resolver node marker arguments = .error error ↔
      ∃ call wrong given, Misuses resolver node call wrong given ∧
        error = arityError source resolver.options call wrong given := by
  unfold markerPlaceholder
  constructor
  · intro refused
    split at refused
    · split at refused
      · rename_i inner innerArguments nested
        split at refused
        · cases refused
        · rename_i differ
          split at refused
          · cases refused
          · rename_i wrong
            refine ⟨_, inner, innerArguments, .inner marked nested (by simpa using differ) ?_,
              (Except.error.inj refused).symm⟩
            intro single
            obtain ⟨innermost, rfl⟩ := List.length_eq_one_iff.mp single
            exact wrong innermost rfl
      · cases refused
    · rename_i wrong
      refine ⟨node, marker, arguments, .outer marked ?_, (Except.error.inj refused).symm⟩
      intro single
      obtain ⟨argument, rfl⟩ := List.length_eq_one_iff.mp single
      exact wrong argument rfl
  · rintro ⟨call, wrong, given, misuses, rfl⟩
    cases misuses with
    | outer outer_marked wrong =>
        obtain ⟨rfl, rfl⟩ := Prod.mk.inj (Option.some.inj (marked.symm.trans outer_marked))
        split
        · simp at wrong
        · rfl
    | inner outer_marked nested differ wrong =>
        obtain ⟨rfl, rfl⟩ := Prod.mk.inj (Option.some.inj (marked.symm.trans outer_marked))
        dsimp only
        rw [nested]
        dsimp only
        rw [if_neg (by simpa using differ)]
        split
        · simp at wrong
        · rfl

/-! ## The failure of a computation -/

/-- The failure of a computation, if it fails. -/
def failure? {ε α : Type} (result : Except ε α) : Option ε :=
  match result with
  | .ok _ => none
  | .error error => some error

theorem failure?_eq_some_iff {ε α : Type} {result : Except ε α} {error : ε} :
    failure? result = some error ↔ result = .error error := by
  cases result <;> simp [failure?]

theorem failure?_map {ε α β : Type} (make : α → β) (result : Except ε α) :
    failure? (result.map make) = failure? result := by
  cases result <;> rfl

/-- What is read from some items of a list fails as the first of them that fails. -/
theorem failure?_mapM_filter {ε α β : Type} (kept : α → Bool) (read : α → Except ε β) (items : List α) :
    failure? ((items.filter kept).mapM read) =
      items.findSome? fun item => if kept item then failure? (read item) else none := by
  induction items with
  | nil => rfl
  | cons item items ih =>
      rw [List.findSome?_cons, ← ih]
      cases keep : kept item with
      | false => simp [keep]
      | true =>
          rw [List.filter_cons_of_pos keep, List.mapM_cons]
          cases read item with
          | error error => rfl
          | ok result =>
              simp only [failure?, if_true]
              cases (items.filter kept).mapM read <;> rfl

/-! ## Misused markers at sites -/

namespace Site

/-- A walk comes to a marker with a wrong number of arguments: nothing around the site is replaced, the
expression there is no call of the style loader, and the misused marker is found at it. -/
structure Refuses (options : Options) (program : Node) (site : Site) (call : Node) (marker : Marker)
    (arguments : List Node) : Prop where
  /-- The site stands outside of everything that is replaced. -/
  reached : ∀ outer ∈ site.enclosing, outer ∉ program.replacedSites options
  /-- The expression does not load a style. -/
  no_loader : isStyleLoaderCall (site.resolver options) site.node = false
  /-- A marker is misused. -/
  misuses : Misuses (site.resolver options) site.node call marker arguments

/-- There is no edit for an expression exactly if a marker is misused at it. -/
theorem edit_eq_error_iff {source : SourceText} {options : Options} {site : Site} {error : CompileError} :
    site.edit source options = .error error ↔
      ∃ call marker arguments, Misuses (site.resolver options) site.node call marker arguments ∧
        error = arityError source options call marker arguments := by
  have edit_iff : site.edit source options = .error error ↔
      site.placeholder source options = .error error := by
    unfold edit
    cases site.placeholder source options with
    | error other => simp [Except.map]
    | ok placeholder => simp [Except.map]
  rw [edit_iff]
  unfold placeholder
  cases marked : markerCall? (site.resolver options) site.node with
  | some found => exact markerPlaceholder_eq_error_iff marked
  | none =>
      constructor
      · intro refused
        cases refused
      · rintro ⟨call, marker, arguments, misuses, -⟩
        simpa [marked] using misuses.isSome_markerCall?

/-- A walk ends at a site with a misused marker exactly if it comes to the marker there. -/
theorem isReplaced_iff_refuses {options : Options} {program : Node} {site : Site} {call : Node}
    {marker : Marker} {arguments : List Node} (member : site ∈ program.sites)
    (misuses : Misuses (site.resolver options) site.node call marker arguments) :
    site.isReplaced options = true ↔ site.Refuses options program call marker arguments := by
  have marked := misuses.isSome_markerCall?
  have dynamic_iff : site.isDynamic options = true ↔
      isStyleLoaderCall (site.resolver options) site.node = false := by
    simp [isDynamic, needsEvaluation, isExpression_of_markerCall? marked, marked]
  have replaced_iff : site.isReplaced options = true ↔ site.isDynamic options = true ∧
      ∀ outer ∈ site.enclosing, outer ∉ program.replacedSites options := by
    simp only [Node.replacedSites]
    rw [← mem_filter_isReplaced_iff member, List.mem_filter, and_iff_right member]
  rw [replaced_iff, dynamic_iff]
  exact ⟨fun both => ⟨both.2, both.1, misuses⟩, fun refuses => ⟨refuses.no_loader, refuses.reached⟩⟩

/-- The failure with which a walk ends at a site. -/
def refusal? (source : SourceText) (options : Options) (site : Site) : Option CompileError :=
  if site.isReplaced options then failure? (site.edit source options) else none

theorem refusal?_eq_some_iff {source : SourceText} {options : Options} {program : Node} {site : Site}
    {error : CompileError} (member : site ∈ program.sites) :
    site.refusal? source options = some error ↔
      ∃ call marker arguments, site.Refuses options program call marker arguments ∧
        error = arityError source options call marker arguments := by
  unfold refusal?
  constructor
  · intro refused
    split at refused
    · rename_i replaced
      obtain ⟨call, marker, arguments, misuses, error_eq⟩ :=
        edit_eq_error_iff.mp (failure?_eq_some_iff.mp refused)
      exact ⟨call, marker, arguments, (isReplaced_iff_refuses member misuses).mp replaced, error_eq⟩
    · cases refused
  · rintro ⟨call, marker, arguments, refuses, error_eq⟩
    rw [if_pos ((isReplaced_iff_refuses member refuses.misuses).mpr refuses), failure?_eq_some_iff,
      edit_eq_error_iff]
    exact ⟨call, marker, arguments, refuses.misuses, error_eq⟩

theorem refusal?_eq_none_iff {source : SourceText} {options : Options} {program : Node} {site : Site}
    (member : site ∈ program.sites) :
    site.refusal? source options = none ↔
      ∀ call marker arguments, ¬site.Refuses options program call marker arguments := by
  rw [Option.eq_none_iff_forall_ne_some]
  constructor
  · intro never call marker arguments refuses
    exact never _ ((refusal?_eq_some_iff member).mpr ⟨call, marker, arguments, refuses, rfl⟩)
  · intro never error refused
    obtain ⟨call, marker, arguments, refuses, -⟩ := (refusal?_eq_some_iff member).mp refused
    exact never call marker arguments refuses

end Site

/-! ## The first failure -/

/-- A walk fails as the first of its sites does. -/
theorem failure?_findings (source : SourceText) (options : Options) (program : Node) :
    failure? (findings source options program) =
      program.sites.findSome? (Site.refusal? source options) := by
  rw [← failure?_map Findings.edits, findings_edits, Node.replacedSites, failure?_mapM_filter]
  rfl

/-- Extraction rejects a module that can be read exactly as the walk does. -/
theorem run_eq_rejected_iff {source : SourceText} {module : SourceModule} {error : CompileError}
    (parsed : source.parse source.dialect = .ok module) (options : Options) (processCss : Bool) :
    run source options processCss = .error (.rejected error) ↔
      module.program.sites.findSome? (Site.refusal? source options) = some error := by
  rw [← failure?_findings, failure?_eq_some_iff]
  cases walked : findings source options module.program with
  | error other =>
      have rejected : run source options processCss = .error (.rejected other) := by
        rw [run, parsed]
        change ((findings source options module.program).mapError ExtractionFailure.rejected >>= _) = _
        rw [walked]
        rfl
      simp [rejected]
  | ok found =>
      rw [run_of_findings parsed walked]
      unfold assemble
      split
      · simp
      · split <;> simp

/-- A module that can be read is rejected exactly if a walk comes to a marker with a wrong number of arguments,
or to a marker around such a call of the other marker. The failure is that of the first of them in the order
of the walk, and what comes after it in the module makes no difference: it names the marker and counts the
arguments, at the place of the call that has them. -/
theorem run_rejects_first_misused_marker {source : SourceText} {module : SourceModule}
    (parsed : source.parse source.dialect = .ok module) (options : Options) (processCss : Bool) :
    ((∃ error, run source options processCss = .error (.rejected error)) ↔
      ∃ site ∈ module.program.sites, ∃ call marker arguments,
        site.Refuses options module.program call marker arguments) ∧
    ∀ error, run source options processCss = .error (.rejected error) ↔
      ∃ front site back call marker arguments,
        module.program.sites = front ++ site :: back ∧
          site.Refuses options module.program call marker arguments ∧
          (∀ earlier ∈ front, ∀ other wrong given,
            ¬earlier.Refuses options module.program other wrong given) ∧
          ∃ message,
            message = "`" ++ marker.name options ++ "()` expects exactly one argument, received: " ++
              toString arguments.length ∧
            error =
              { code := "NJ-ERR-MARKER-ARITY", message, file := source.file,
                line := (source.position call).line, column := (source.position call).column,
                context := some (source.frame call .error message),
                hints := ["wrap the whole expression: " ++ marker.name options ++ "(a + b)"] } := by
  constructor
  · simp only [run_eq_rejected_iff parsed]
    rw [← Option.isSome_iff_exists, List.findSome?_isSome_iff]
    refine exists_congr fun site => and_congr_right fun member => ?_
    rw [Option.isSome_iff_exists]
    constructor
    · rintro ⟨error, refused⟩
      obtain ⟨call, marker, arguments, refuses, -⟩ := (Site.refusal?_eq_some_iff member).mp refused
      exact ⟨call, marker, arguments, refuses⟩
    · rintro ⟨call, marker, arguments, refuses⟩
      exact ⟨_, (Site.refusal?_eq_some_iff member).mpr ⟨call, marker, arguments, refuses, rfl⟩⟩
  · intro error
    rw [run_eq_rejected_iff parsed, List.findSome?_eq_some_iff]
    constructor
    · rintro ⟨front, site, back, sites_eq, refused, earlier_pass⟩
      have member : ∀ listed ∈ front ++ site :: back, listed ∈ module.program.sites := by simp [sites_eq]
      obtain ⟨call, marker, arguments, refuses, error_eq⟩ :=
        (Site.refusal?_eq_some_iff (member site (by simp))).mp refused
      refine ⟨front, site, back, call, marker, arguments, sites_eq, refuses, ?_, _, rfl, error_eq⟩
      intro earlier earlier_mem
      exact (Site.refusal?_eq_none_iff (member earlier (by simp [earlier_mem]))).mp
        (earlier_pass earlier earlier_mem)
    · rintro ⟨front, site, back, call, marker, arguments, sites_eq, refuses, earlier_pass, message, rfl, error_eq⟩
      have member : ∀ listed ∈ front ++ site :: back, listed ∈ module.program.sites := by simp [sites_eq]
      refine ⟨front, site, back, sites_eq, (Site.refusal?_eq_some_iff (member site (by simp))).mpr
        ⟨call, marker, arguments, refuses, error_eq⟩, ?_⟩
      intro earlier earlier_mem
      exact (Site.refusal?_eq_none_iff (member earlier (by simp [earlier_mem]))).mpr
        (earlier_pass earlier earlier_mem)

/-- A source with a marker without arguments inside the other marker, and a marker with two arguments. -/
def emptyInnerMarker :
    { source : SourceText //
      source.text = "import\x7bbind,recursive\x7dfrom\"next-jsx/runtime\";[recursive(bind()),bind(1,2)]" ∧
      passes (source.parse source.dialect) (fun module =>
        (failure? (findings source {} module.program)).map (fun error =>
            (error.message, error.line, error.column)) ==
          some ("`bind()` expects exactly one argument, received: 0", 1, 56)) = true } :=
  ⟨⟨"a.js", "import\x7bbind,recursive\x7dfrom\"next-jsx/runtime\";[recursive(bind()),bind(1,2)]"⟩, rfl,
    by decide +kernel⟩

/-- A marker without arguments inside the other marker is refused where it stands itself, and the marker with
two arguments behind it is not reported. -/
theorem inner_marker_is_refused_first :
    ∃ (source : SourceText) (module : SourceModule) (error : CompileError),
      source.text = "import\x7bbind,recursive\x7dfrom\"next-jsx/runtime\";[recursive(bind()),bind(1,2)]" ∧
        source.parse source.dialect = .ok module ∧
        run source {} true = .error (.rejected error) ∧
        error.message = "`bind()` expects exactly one argument, received: 0" ∧
        (error.line, error.column) = (1, 56) ∧
        ∃ site ∈ module.program.sites, ∃ call marker arguments,
          site.Refuses {} module.program call marker arguments := by
  obtain ⟨source, text, settled⟩ := emptyInnerMarker
  obtain ⟨module, parsed, walk⟩ := exists_of_passes settled
  obtain ⟨error, walked, reported⟩ := Option.map_eq_some_iff.mp (eq_of_beq walk)
  obtain ⟨message, place⟩ := Prod.mk.inj reported
  have rejected : run source {} true = .error (.rejected error) := by
    rw [run_eq_rejected_iff parsed, ← failure?_findings, walked]
  exact ⟨source, module, error, text, parsed, rejected, message, place,
    (run_rejects_first_misused_marker parsed {} true).1.mp ⟨error, rejected⟩⟩

end Storyboard
