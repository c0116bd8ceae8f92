import Mathlib.Data.List.Forall2
import Storyboard.Proofs.BuiltScopes
import Storyboard.Proofs.Declaration
import Storyboard.Proofs.OutermostEdits

/-!
# The scopes that a walk keeps

A walk can be made with one stack of scopes, which it pushes to when it goes into a part with names of its own and pops
when it comes out. A failure is noted and not acted on: the walk goes on, but passes over every expression and every
property from then on. Such a walk finds what the walk that hands the scopes down finds, leaves the stack after each
node as it was before, and classifies each name while the stack holds exactly the scopes that the parts around
the name build.
-/

namespace Storyboard

open Extraction

namespace Extraction.Findings

theorem append_empty (found : Findings) : found.append {} = found := by simp [append]

theorem empty_append (found : Findings) : append {} found = found := by simp [append]

theorem append_assoc (first second third : Findings) :
    (first.append second).append third = first.append (second.append third) := by
  simp [append]

theorem concat_cons (found : Findings) (all : List Findings) : concat (found :: all) = found.append (concat all) := rfl

theorem concat_append (left right : List Findings) : concat (left ++ right) = (concat left).append (concat right) := by
  induction left with
  | nil => exact (empty_append _).symm
  | cons found left ih => rw [List.cons_append, concat_cons, ih, concat_cons, append_assoc]

end Extraction.Findings

/-! ## A walk with a stack -/

/-- Whether a node is a property of an object. -/
def Node.isProperty (node : Node) : Bool :=
  match node.form with
  | .property _ _ _ _ _ _ => true
  | _ => false

/-- The name that is classified when a node is decided on: the node itself, or the value of a property that is given
by a name alone. -/
def Node.classified? (node : Node) : Option Node :=
  match shorthandValue? node with
  | some (value, _) => some value
  | none =>
    match node.form with
    | .identifier _ => some node
    | _ => none

/-- A walk on its way. -/
structure Extractor where
  /-- The scopes that have been entered and not left, with the names of the framework. -/
  resolver : Resolver
  /-- What has been found. -/
  found : Findings := {}
  /-- The failure, if there was one. -/
  error : Option CompileError := none
  /-- The names that have been classified, each with the scopes at that moment, innermost first. -/
  classified : List (Node × ScopeStack) := []

namespace Extractor

/-- Note findings. -/
def add (extractor : Extractor) (found : Findings) : Extractor :=
  { extractor with found := extractor.found.append found }

/-- Note the name that is classified when a node is decided on. -/
def classify (extractor : Extractor) (node : Node) : Extractor :=
  { extractor with
    classified := extractor.classified ++ node.classified?.toList.map (·, extractor.resolver.scopes) }

/-- Push a scope. -/
def enter (extractor : Extractor) (scope : Scope) : Extractor :=
  { extractor with resolver := extractor.resolver.enter scope }

/-- Pop the innermost scope. -/
def leave (extractor : Extractor) : Extractor := { extractor with resolver := extractor.resolver.leave }

/-- Work inside a scope, if there is one: push it before and pop it afterwards. -/
def withScope (scope : Option Scope) (work : Extractor → Extractor) (extractor : Extractor) : Extractor :=
  match scope with
  | some scope => (work (extractor.enter scope)).leave
  | none => work extractor

/-- Go over a node and what is below it. After a failure expressions and properties are passed over. -/
def visit (source : SourceText) (node : Node) (extractor : Extractor) : Extractor :=
  if extractor.error.isSome && (node.form.isExpression || node.isProperty) then extractor
  else
    let extractor := extractor.classify node
    match decide source extractor.resolver node with
    | .refuse error => { extractor with error := some error }
    | .replace edit => extractor.add { edits := [edit] }
    | .keep warnings => extractor.add { warnings }
    | .descend warnings =>
      let outside := node.outerChildren.attach.foldl (fun extractor ⟨child, _⟩ => visit source child extractor)
        (extractor.add { warnings })
      withScope node.scope? (fun extractor =>
        node.innerChildren.attach.foldl (fun extractor ⟨child, _⟩ => visit source child extractor) extractor) outside
termination_by sizeOf node
decreasing_by
  · exact Node.sizeOf_lt_of_mem_children (Node.mem_children_of_mem_outer (by assumption))
  · exact Node.sizeOf_lt_of_mem_children (Node.mem_children_of_mem_inner (by assumption))

/-- Go over several nodes, one after the other. -/
def visitAll (source : SourceText) (nodes : List Node) (extractor : Extractor) : Extractor :=
  nodes.foldl (fun extractor node => visit source node extractor) extractor

/-- What a walk gives in the end. -/
def outcome (extractor : Extractor) : Except CompileError Findings :=
  match extractor.error with
  | some error => .error error
  | none => .ok extractor.found

/-- Go over a whole module. -/
def walk (source : SourceText) (options : Options) (program : Node) : Extractor :=
  visit source program { resolver := { options } }

theorem visit_eq (source : SourceText) (node : Node) (extractor : Extractor) :
    visit source node extractor =
      if extractor.error.isSome && (node.form.isExpression || node.isProperty) then extractor
      else
        match decide source extractor.resolver node with
        | .refuse error => { extractor.classify node with error := some error }
        | .replace edit => (extractor.classify node).add { edits := [edit] }
        | .keep warnings => (extractor.classify node).add { warnings }
        | .descend warnings =>
          withScope node.scope? (visitAll source node.innerChildren)
            (visitAll source node.outerChildren ((extractor.classify node).add { warnings })) := by
  rw [visit]
  simp only [List.foldl_subtype, List.unattach_attach, visitAll]
  rfl

/-! ## The stack is left as it was -/

theorem resolver_visitAll {source : SourceText} {nodes : List Node}
    (each : ∀ node ∈ nodes, ∀ extractor, (visit source node extractor).resolver = extractor.resolver)
    (extractor : Extractor) : (visitAll source nodes extractor).resolver = extractor.resolver := by
  induction nodes generalizing extractor with
  | nil => rfl
  | cons node nodes ih =>
      rw [visitAll, List.foldl_cons]
      calc (visitAll source nodes (visit source node extractor)).resolver
          = (visit source node extractor).resolver :=
            ih (fun other member => each other (List.mem_cons_of_mem _ member)) _
        _ = extractor.resolver := each node List.mem_cons_self extractor

/-- Work that leaves the stack as it was leaves it so inside a scope, too. -/
theorem resolver_withScope {work : Extractor → Extractor}
    (keeps : ∀ extractor, (work extractor).resolver = extractor.resolver) (scope : Option Scope)
    (extractor : Extractor) : (withScope scope work extractor).resolver = extractor.resolver := by
  cases scope with
  | none => exact keeps extractor
  | some scope =>
      rw [withScope, leave, keeps]
      rfl

/-- A node leaves the stack as it was, also after a failure and also if the walk fails in it. -/
theorem resolver_visit (source : SourceText) (node : Node) (extractor : Extractor) :
    (visit source node extractor).resolver = extractor.resolver := by
  induction node using Node.induction_children generalizing extractor with
  | step node ih =>
      have outer := resolver_visitAll fun child member => ih child (Node.mem_children_of_mem_outer member)
      have inner := resolver_visitAll fun child member => ih child (Node.mem_children_of_mem_inner member)
      rw [visit_eq]
      split
      · rfl
      · -- only a walk that goes on into the node touches the stack
        split
        · rfl
        · rfl
        · rfl
        · rw [resolver_withScope inner, outer]
          rfl

/-! ## After a failure -/

theorem isProperty_of_shorthand {node : Node} (shorthand : (shorthandValue? node).isSome = true) :
    node.isProperty = true := by
  unfold shorthandValue? at shorthand
  unfold Node.isProperty
  split at shorthand <;> simp_all

/-- A walk goes on into what is neither an expression nor a property. -/
theorem decide_of_other (source : SourceText) (resolver : Resolver) {node : Node}
    (no_expression : node.form.isExpression = false) (no_property : node.isProperty = false) :
    decide source resolver node = .descend [] ∧ node.classified? = none := by
  have spelled : shorthandValue? node = none := by
    by_contra shorthand
    rw [isProperty_of_shorthand (Option.isSome_iff_ne_none.mpr shorthand)] at no_property
    cases no_property
  constructor
  · simp [Extraction.decide, spelled, no_expression]
  · simp only [Node.classified?, spelled]
    split
    · rename_i form_eq
      simp [form_eq, Form.isExpression] at no_expression
    · rfl

theorem visitAll_of_failed {source : SourceText} {nodes : List Node} {extractor : Extractor}
    (each : ∀ node ∈ nodes, visit source node extractor = extractor) :
    visitAll source nodes extractor = extractor := by
  induction nodes with
  | nil => rfl
  | cons node nodes ih =>
      rw [visitAll, List.foldl_cons, each node List.mem_cons_self]
      exact ih fun other member => each other (List.mem_cons_of_mem _ member)

/-- Work that does nothing after a failure does nothing inside a scope, either. -/
theorem withScope_of_failed {work : Extractor → Extractor}
    (idle : ∀ extractor : Extractor, extractor.error.isSome = true → work extractor = extractor)
    (scope : Option Scope) {extractor : Extractor} (failed : extractor.error.isSome = true) :
    withScope scope work extractor = extractor := by
  cases scope with
  | none => exact idle extractor failed
  | some scope =>
      rw [withScope, idle (extractor.enter scope) failed]
      rfl

/-- A walk that has failed goes over a node without finding or classifying anything. -/
theorem visit_of_failed {source : SourceText} {node : Node} {extractor : Extractor}
    (failed : extractor.error.isSome = true) : visit source node extractor = extractor := by
  induction node using Node.induction_children generalizing extractor with
  | step node ih =>
      rw [visit_eq, failed, Bool.true_and]
      split
      · rfl
      · -- a statement is still gone over, and its scope still pushed and popped, but nothing in it does anything
        rename_i other
        simp only [Bool.or_eq_true, not_or, Bool.not_eq_true] at other
        obtain ⟨descends, unclassified⟩ := decide_of_other source extractor.resolver other.1 other.2
        have same : extractor.classify node = extractor := by simp [classify, unclassified]
        have nothing : extractor.add {} = extractor := by rw [add, Findings.append_empty]
        have outer : visitAll source node.outerChildren extractor = extractor :=
          visitAll_of_failed fun child member => ih child (Node.mem_children_of_mem_outer member) failed
        have inner : ∀ other : Extractor, other.error.isSome = true →
            visitAll source node.innerChildren other = other :=
          fun other failed => visitAll_of_failed fun child member =>
            ih child (Node.mem_children_of_mem_inner member) failed
        simp only [descends, same, nothing, outer]
        exact withScope_of_failed inner node.scope? failed

/-! ## What is found -/

/-- A walk in the scopes that are inside a node. -/
def inside (node : Node) (extractor : Extractor) : Extractor :=
  { extractor with resolver := innerResolver extractor.resolver node }

/-- What is left after work inside the scope of a node is what the work leaves, but for the stack. -/
theorem exists_withScope_eq (node : Node) (work : Extractor → Extractor) (extractor : Extractor) :
    ∃ resolver, withScope node.scope? work extractor = { work (extractor.inside node) with resolver } := by
  cases opened : node.scope? with
  | none =>
      have same : extractor.inside node = extractor := by simp [inside, innerResolver, opened]
      exact ⟨(work extractor).resolver, by rw [same]; rfl⟩
  | some scope =>
      have same : extractor.inside node = extractor.enter scope := by simp [inside, innerResolver, opened, enter]
      exact ⟨(work (extractor.enter scope)).resolver.leave, by rw [same]; rfl⟩

theorem outcome_of_failed {extractor : Extractor} {error : CompileError} (failed : extractor.outcome = .error error) :
    extractor.error = some error := by
  unfold outcome at failed
  split at failed
  · cases failed
    assumption
  · cases failed

theorem outcome_eq_ok {extractor : Extractor} {found : Findings} (gone : extractor.outcome = .ok found) :
    extractor.error = none ∧ extractor.found = found := by
  unfold outcome at gone
  split at gone
  · cases gone
  · cases gone
    exact ⟨by assumption, rfl⟩

/-- Nodes that are each gone over as the walk that hands the scopes down does are so one after the other. -/
theorem outcome_visitAll {source : SourceText} {nodes : List Node} {extractor : Extractor}
    (each : ∀ node ∈ nodes, ∀ extractor : Extractor, extractor.error = none →
      (visit source node extractor).outcome =
        (Extraction.visit source extractor.resolver node).map extractor.found.append)
    (well : extractor.error = none) :
    (visitAll source nodes extractor).outcome =
      (nodes.mapM (Extraction.visit source extractor.resolver)).map fun all =>
        extractor.found.append (.concat all) := by
  induction nodes generalizing extractor with
  | nil => simp [visitAll, outcome, well, Findings.concat, Findings.append, pure, Except.pure, Except.map]
  | cons node nodes ih =>
      have first := each node List.mem_cons_self extractor well
      rw [visitAll, List.foldl_cons, List.mapM_cons]
      change (visitAll source nodes (visit source node extractor)).outcome = _
      cases walked : Extraction.visit source extractor.resolver node with
      | error error =>
          rw [walked] at first
          have failed := outcome_of_failed first
          rw [visitAll_of_failed fun other _ => visit_of_failed (by rw [failed]; rfl), first]
          rfl
      | ok found =>
          rw [walked] at first
          obtain ⟨still_well, found_eq⟩ := outcome_eq_ok first
          rw [ih (fun other member => each other (List.mem_cons_of_mem _ member)) still_well, resolver_visit, found_eq]
          cases nodes.mapM (Extraction.visit source extractor.resolver) with
          | error error => rfl
          | ok all =>
              simp [Except.map, bind, Except.bind, pure, Except.pure, Findings.append_assoc, Findings.concat_cons]

/-- The parts of a node are gone over first outside and then inside the scope of the node, as the walk that hands the
scopes down does. -/
theorem outcome_below {source : SourceText} {node : Node} {extractor : Extractor}
    (each : ∀ child ∈ node.children, ∀ extractor : Extractor, extractor.error = none →
      (visit source child extractor).outcome =
        (Extraction.visit source extractor.resolver child).map extractor.found.append)
    (well : extractor.error = none) :
    (withScope node.scope? (visitAll source node.innerChildren)
        (visitAll source node.outerChildren extractor)).outcome =
      (do
        let outer ← node.outerChildren.mapM (Extraction.visit source extractor.resolver)
        let inner ← node.innerChildren.mapM (Extraction.visit source (innerResolver extractor.resolver node))
        return Findings.concat (outer ++ inner)).map extractor.found.append := by
  have outer := outcome_visitAll (fun child member => each child (Node.mem_children_of_mem_outer member)) well
  have same_scopes : (visitAll source node.outerChildren extractor).resolver = extractor.resolver :=
    resolver_visitAll (fun child _ => resolver_visit source child) extractor
  generalize visitAll source node.outerChildren extractor = between at *
  cases walked : node.outerChildren.mapM (Extraction.visit source extractor.resolver) with
  | error error =>
      rw [walked] at outer
      have failed : between.error.isSome = true := by
        rw [outcome_of_failed outer]
        rfl
      rw [withScope_of_failed (fun _ failed => visitAll_of_failed fun child _ => visit_of_failed failed) _ failed]
      exact outer
  | ok all =>
      rw [walked] at outer
      obtain ⟨still_well, found_eq⟩ := outcome_eq_ok outer
      obtain ⟨resolver, worked⟩ := exists_withScope_eq node (visitAll source node.innerChildren) between
      rw [worked]
      change (visitAll source node.innerChildren (between.inside node)).outcome = _
      have inner_well : (between.inside node).error = none := still_well
      have inner := outcome_visitAll (fun child member => each child (Node.mem_children_of_mem_inner member)) inner_well
      have inner_scopes : (between.inside node).resolver = innerResolver extractor.resolver node := by
        rw [inside, same_scopes]
      have inner_found : (between.inside node).found = extractor.found.append (.concat all) := found_eq
      rw [inner, inner_scopes, inner_found]
      cases node.innerChildren.mapM (Extraction.visit source (innerResolver extractor.resolver node)) with
      | error error => rfl
      | ok others =>
          simp [Except.map, bind, Except.bind, pure, Except.pure, Findings.append_assoc, Findings.concat_append]

/-- The walk with a stack finds what the walk that hands the scopes down finds, and fails as it does. -/
theorem outcome_visit (source : SourceText) (node : Node) {extractor : Extractor} (well : extractor.error = none) :
    (visit source node extractor).outcome =
      (Extraction.visit source extractor.resolver node).map extractor.found.append := by
  induction node using Node.induction_children generalizing extractor with
  | step node ih =>
      rw [visit_eq, Extraction.visit, well]
      simp only [Option.isSome_none, Bool.false_and, Bool.false_eq_true, if_false]
      cases Extraction.decide source extractor.resolver node with
      | refuse error => rfl
      | replace edit => simp [outcome, add, classify, well, Except.map]
      | keep warnings => simp [outcome, add, classify, well, Except.map]
      | descend warnings =>
          have still_well : ((extractor.classify node).add { warnings }).error = none := well
          have below := outcome_below (fun child member extractor => ih child member) still_well
          simp only [below, List.mapM_subtype, List.unattach_attach]
          change Except.map (extractor.found.append { warnings }).append (do
            let outer ← node.outerChildren.mapM (Extraction.visit source extractor.resolver)
            let inner ← node.innerChildren.mapM (Extraction.visit source (innerResolver extractor.resolver node))
            return Findings.concat (outer ++ inner)) = _
          cases node.outerChildren.mapM (Extraction.visit source extractor.resolver) with
          | error error => rfl
          | ok outer =>
              cases node.innerChildren.mapM (Extraction.visit source (innerResolver extractor.resolver node)) with
              | error error => rfl
              | ok inner =>
                  simp [Except.map, bind, Except.bind, pure, Except.pure, Findings.append_assoc, Findings.concat_cons]

end Extractor

/-! ## Which names are classified -/

namespace Site

/-- Whether the name at a site is classified: it is a name used by an expression, and nothing around it is dynamic. -/
def isClassified (options : Options) (site : Site) : Bool :=
  (match site.node.form with
    | .identifier _ => true
    | _ => false) && site.enclosing.all fun outer => !outer.isDynamic options

/-- The sites at and below a site whose names are classified. -/
def classifiedSites (options : Options) (site : Site) : List Site := site.within.filter (isClassified options)

/-- What a walk notes when it classifies the name at a site. -/
def classification (options : Options) (site : Site) : Node × ScopeStack :=
  (site.node, (site.resolver options).scopes)

theorem isClassified_of_free {options : Options} {site : Site}
    (free : ∀ outer ∈ site.enclosing, outer.isDynamic options = false) :
    site.isClassified options = true ↔ ∃ name, site.node.form = .identifier name := by
  have kept : (site.enclosing.all fun outer => !outer.isDynamic options) = true :=
    List.all_eq_true.mpr fun outer around => by simp [free outer around]
  rw [isClassified, kept, Bool.and_true]
  split
  · rename_i name form_eq
    exact iff_of_true rfl ⟨name, form_eq⟩
  · rename_i other
    exact iff_of_false Bool.false_ne_true fun ⟨name, form_eq⟩ => other name form_eq

/-- The names that are classified at and below a site are its own and those below it. -/
theorem classifiedSites_eq (options : Options) (site : Site) :
    site.classifiedSites options =
      [site].filter (isClassified options) ++ site.below.flatMap (classifiedSites options) := by
  rw [classifiedSites, within_eq, List.filter_cons, List.filter_flatMap, List.filter_singleton]
  cases site.isClassified options <;> rfl

/-- Nothing is classified inside what is dynamic. -/
theorem classifiedSites_of_isDynamic {options : Options} {site : Site} (dynamic : site.isDynamic options = true) :
    site.classifiedSites options = [site].filter (isClassified options) := by
  have inside : site.below.flatMap (classifiedSites options) = [] := by
    rw [List.flatMap_eq_nil_iff]
    intro inner member
    rw [classifiedSites, List.filter_eq_nil_iff]
    intro deep deep_mem classified
    have kept := List.all_eq_true.mp (Bool.and_eq_true_iff.mp classified).2 site
      (mem_enclosing_of_mem_below member deep_mem)
    simp [dynamic] at kept
  rw [classifiedSites_eq, inside, List.append_nil]

/-- A property that is given by a name alone has that name classified. -/
theorem classifiedSites_of_shorthand {options : Options} {site : Site} {value : Node} {name : String}
    (shorthand : shorthandValue? site.node = some (value, name))
    (free : ∀ outer ∈ site.enclosing, outer.isDynamic options = false) :
    site.classifiedSites options = [site.enter (.body, value)] := by
  have value_form : (site.enter (.body, value)).node.form = .identifier name := form_of_shorthand shorthand
  have value_free : ∀ outer ∈ (site.enter (.body, value)).enclosing, outer.isDynamic options = false :=
    List.forall_mem_cons.mpr ⟨isDynamic_eq_false_of_shorthand options shorthand, free⟩
  have no_name : ¬site.isClassified options = true := by
    rw [isClassified_of_free free]
    rintro ⟨other, form_eq⟩
    simp [shorthandValue?, form_eq] at shorthand
  rw [classifiedSites_eq, below_of_shorthand shorthand, List.flatMap_singleton, classifiedSites_eq,
    below_eq_nil_of_identifier value_form, List.filter_cons_of_neg no_name,
    List.filter_cons_of_pos ((isClassified_of_free value_free).mpr ⟨name, value_form⟩)]
  rfl

/-- The name that is noted when a node is decided on is the one at its site. -/
theorem map_classification_own {options : Options} {site : Site} (spelled : shorthandValue? site.node = none)
    (free : ∀ outer ∈ site.enclosing, outer.isDynamic options = false) :
    site.node.classified?.toList.map (·, (site.resolver options).scopes) =
      ([site].filter (isClassified options)).map (classification options) := by
  have classified := isClassified_of_free free
  simp only [Node.classified?, spelled]
  split
  · rename_i name form_eq
    rw [List.filter_cons_of_pos (classified.mpr ⟨name, form_eq⟩)]
    rfl
  · rename_i other
    rw [List.filter_cons_of_neg fun known => (classified.mp known).elim other]
    rfl

end Site

namespace Extractor

/-- On the way from one state of a walk to another the names at some sites are classified, in order and from the first
of them on, and all of them unless the walk has failed. -/
def Classifies (options : Options) (sites : List Site) (start finish : Extractor) : Prop :=
  ∃ seen, seen <+: sites ∧ finish.classified = start.classified ++ seen.map (Site.classification options) ∧
    (finish.error = none → seen = sites)

theorem Classifies.trans {options : Options} {left right : List Site} {start middle finish : Extractor}
    (first : Classifies options left start middle)
    (second : middle.error = none → Classifies options right middle finish)
    (still : middle.error.isSome = true → finish.classified = middle.classified ∧ finish.error = middle.error) :
    Classifies options (left ++ right) start finish := by
  obtain ⟨seen, seen_first, noted, complete⟩ := first
  cases well : middle.error with
  | none =>
      obtain ⟨later, later_first, later_noted, later_complete⟩ := second well
      obtain rfl := complete well
      refine ⟨seen ++ later, (List.prefix_append_right_inj _).mpr later_first, ?_, fun finished => ?_⟩
      · rw [later_noted, noted, List.map_append, List.append_assoc]
      · rw [later_complete finished]
  | some error =>
      obtain ⟨same, failed⟩ := still (by rw [well]; rfl)
      refine ⟨seen, seen_first.trans (List.prefix_append _ _), by rw [same, noted], fun finished => ?_⟩
      rw [failed, well] at finished
      cases finished

theorem classifies_visitAll {source : SourceText} {options : Options} {sites : List Site} {extractor : Extractor}
    (each : ∀ site ∈ sites, ∀ extractor : Extractor, extractor.error = none →
      extractor.resolver = site.resolver options →
        Classifies options (site.classifiedSites options) extractor (visit source site.node extractor))
    (well : extractor.error = none) (scopes : ∀ site ∈ sites, extractor.resolver = site.resolver options) :
    Classifies options (sites.flatMap (Site.classifiedSites options)) extractor
      (visitAll source (sites.map Site.node) extractor) := by
  induction sites generalizing extractor with
  | nil => exact ⟨[], List.prefix_rfl, (List.append_nil _).symm, fun _ => rfl⟩
  | cons site sites ih =>
      rw [List.flatMap_cons]
      refine (each site List.mem_cons_self extractor well (scopes site List.mem_cons_self)).trans (fun still_well => ?_)
        fun failed => ?_
      · refine ih (fun other member => each other (List.mem_cons_of_mem _ member)) still_well fun other member => ?_
        rw [resolver_visit]
        exact scopes other (List.mem_cons_of_mem _ member)
      · change (visitAll source (sites.map Site.node) _).classified = _ ∧
          (visitAll source (sites.map Site.node) _).error = _
        rw [visitAll_of_failed fun other _ => visit_of_failed failed]
        exact ⟨rfl, rfl⟩

/-- What is classified inside the scope of a node is classified by the work that is done there. -/
theorem Classifies.withScope {options : Options} {sites : List Site} {node : Node} {work : Extractor → Extractor}
    {start : Extractor} (inner : Classifies options sites (start.inside node) (work (start.inside node))) :
    Classifies options sites start (withScope node.scope? work start) := by
  obtain ⟨resolver, worked⟩ := exists_withScope_eq node work start
  rw [worked]
  exact inner

/-- A walk that goes on into a site classifies the names below it, first outside the scope of the node and then
inside. -/
theorem classifies_below {source : SourceText} {options : Options} {site : Site} {extractor : Extractor}
    (spelled : shorthandValue? site.node = none)
    (each : ∀ inner ∈ site.below, ∀ extractor : Extractor, extractor.error = none →
      extractor.resolver = inner.resolver options →
        Classifies options (inner.classifiedSites options) extractor (visit source inner.node extractor))
    (well : extractor.error = none) (scopes : extractor.resolver = site.resolver options) :
    Classifies options (site.below.flatMap (Site.classifiedSites options)) extractor
      (withScope site.node.scope? (visitAll source site.node.innerChildren)
        (visitAll source site.node.outerChildren extractor)) := by
  obtain ⟨inner, parts_eq, inside_scope, inner_eq⟩ := Node.parts_eq_outer_append_inner spelled
  have outer_nodes : (site.node.outerChildren.map fun child => site.enter (.outside, child)).map Site.node =
      site.node.outerChildren := by simp [Function.comp_def]
  have inner_nodes : (inner.map site.enter).map Site.node = site.node.innerChildren := by
    rw [← inner_eq, List.map_map]
    rfl
  have below_eq : site.below =
      (site.node.outerChildren.map fun child => site.enter (.outside, child)) ++ inner.map site.enter := by
    rw [Site.below, parts_eq, List.map_append, List.map_map]
    rfl
  have outer_scopes : ∀ other ∈ site.node.outerChildren.map fun child => site.enter (.outside, child),
      extractor.resolver = other.resolver options := by
    rintro other member
    obtain ⟨child, -, rfl⟩ := List.mem_map.mp member
    rw [scopes, Site.resolver_enter_outside]
  have outer := classifies_visitAll
    (fun other member => each other (by rw [below_eq]; exact List.mem_append_left _ member)) well outer_scopes
  rw [outer_nodes] at outer
  rw [below_eq, List.flatMap_append]
  refine outer.trans (fun still_well => .withScope ?_) fun failed => ?_
  · rw [← inner_nodes]
    refine classifies_visitAll (fun other member => each other (by rw [below_eq]; exact List.mem_append_right _ member))
      still_well ?_
    rintro other member
    obtain ⟨part, part_mem, rfl⟩ := List.mem_map.mp member
    rw [Site.resolver_enter_inside options site (inside_scope part part_mem), inside,
      resolver_visitAll fun child _ => resolver_visit source child, scopes]
  · rw [withScope_of_failed (fun _ failed => visitAll_of_failed fun child _ => visit_of_failed failed) _ failed]
    exact ⟨rfl, rfl⟩

/-- A walk over a site classifies the names at and below it that stand in nothing dynamic, each in the scopes around
it. -/
theorem classifies_visit (source : SourceText) (options : Options) {site : Site} {extractor : Extractor}
    (free : ∀ outer ∈ site.enclosing, outer.isDynamic options = false) (spelled : site.property? = none)
    (well : extractor.error = none) (scopes : extractor.resolver = site.resolver options) :
    Classifies options (site.classifiedSites options) extractor (visit source site.node extractor) := by
  induction site using Site.induction_below generalizing extractor with
  | step site ih =>
      rw [visit_eq, well, scopes]
      simp only [Option.isSome_none, Bool.false_and, Bool.false_eq_true, if_false]
      cases shorthand : shorthandValue? site.node with
      | some given =>
          -- the name is a site of its own below the property, and the property opens no scope
          obtain ⟨value, name⟩ := given
          have noted : (extractor.classify site.node).classified =
              extractor.classified ++ [site.enter (.body, value)].map (Site.classification options) := by
            rw [List.map_singleton, Site.classification, Site.resolver_of_shorthand options shorthand, ← scopes]
            simp [classify, Node.classified?, shorthand]
          rw [Site.classifiedSites_of_shorthand shorthand free]
          refine ⟨_, List.prefix_rfl, ?_, fun _ => rfl⟩
          simp only [Extraction.decide, shorthand, decideShorthand]
          cases ((site.resolver options).classify name).isStatic with
          | true => exact noted
          | false => exact noted
      | none =>
          have own : (extractor.classify site.node).classified = extractor.classified ++
              ([site].filter (Site.isClassified options)).map (Site.classification options) := by
            rw [← Site.map_classification_own shorthand free, ← scopes]
            rfl
          cases dynamic : site.isDynamic options with
          | true =>
              rw [Site.decide_of_isDynamic dynamic, Site.classifiedSites_of_isDynamic dynamic]
              refine ⟨_, List.prefix_rfl, ?_, fun _ => rfl⟩
              cases site.placeholder source options with
              | ok placeholder => exact own
              | error error => exact own
          | false =>
              rw [Site.decide_of_static source shorthand dynamic, Site.classifiedSites_eq]
              have noted : Classifies options ([site].filter (Site.isClassified options)) extractor
                  ((extractor.classify site.node).add
                    { warnings := plainWarnings source (site.resolver options) site.node }) :=
                ⟨_, List.prefix_rfl, own, fun _ => rfl⟩
              refine noted.trans (fun _ => classifies_below shorthand ?_ well scopes) fun failed => ?_
              · intro inner member
                obtain ⟨part, -, rfl⟩ := List.mem_map.mp member
                exact fun extractor => ih _ member (List.forall_mem_cons.mpr ⟨dynamic, free⟩)
                  (Site.property?_enter part shorthand)
              · change extractor.error.isSome = true at failed
                rw [well] at failed
                cases failed

end Extractor

/-! ## A whole module -/

/-- A walk over a module with a stack of scopes leaves the stack, after every node, as it was before, whether or not
the walk has failed or fails in it, so in the end the stack is empty; and it finds what the walk finds that hands the
scopes down. The names that it classifies are those that stand in nothing dynamic, in their order and up to the
failure, if there is one; and when a name is classified, the stack holds the scopes that are built around it, the
outermost first. -/
theorem scope_stack_is_balanced (source : SourceText) (options : Options) (program : Node) :
    (∀ node extractor, (Extractor.visit source node extractor).resolver = extractor.resolver) ∧
      (Extractor.walk source options program).resolver.scopes = [] ∧
      (Extractor.walk source options program).outcome = findings source options program ∧
      ∃ seen, seen <+: program.sites.filter (Site.isClassified options) ∧
        ((Extractor.walk source options program).error = none →
          seen = program.sites.filter (Site.isClassified options)) ∧
        List.Forall₂ (fun entry site => entry.1 = site.node ∧ BuiltAlong site.around entry.2.reverse)
          (Extractor.walk source options program).classified seen := by
  refine ⟨Extractor.resolver_visit source, ?_, ?_, ?_⟩
  · rw [Extractor.walk, Extractor.resolver_visit]
  · rw [Extractor.walk, Extractor.outcome_visit source program rfl, funext Findings.empty_append]
    exact congrFun Except.map_id _
  · have walked : Extractor.Classifies options (Site.classifiedSites options (.root program))
        { resolver := { options } } (Extractor.walk source options program) :=
      Extractor.classifies_visit source options (by simp) rfl rfl rfl
    obtain ⟨seen, seen_first, noted, complete⟩ := walked
    refine ⟨seen, seen_first, complete, ?_⟩
    rw [noted, List.nil_append, List.forall₂_map_left_iff, List.forall₂_same]
    exact fun site _ => ⟨rfl, builtAlong_resolver options site⟩

/-- What a switch looks at is classified outside the scope that its cases share. -/
example : passes (SourceText.parse ⟨"a.js", "switch(a)\x7bcase b:let c;[c]\x7d"⟩ {}) (fun module =>
    (Extractor.walk ⟨"a.js", "switch(a)\x7bcase b:let c;[c]\x7d"⟩ {} module.program).classified.map
      (fun entry => entry.2.length) == [1, 2, 2]) = true := by decide +kernel

end Storyboard
