import Mathlib.Data.List.Basic
import Storyboard.Extraction.Walk

/-!
# Sites in a module

A site is a node together with the way that leads to it from the module. The way says which nodes are
around the site and in which of their parts it stands, so it determines the scopes that a walk has
entered when it comes there. All sites of a module are listed in the order in which a walk meets them.
-/

namespace Storyboard

open Extraction

/-- Where a part of a node stands with regard to the scopes that the node opens. -/
inductive Part where
  /-- Outside, as what a switch looks at. -/
  | outside
  /-- In the head of a function, as its name and its parameters. -/
  | head
  /-- Anywhere else. -/
  | body
deriving DecidableEq, Repr

namespace Form

/-- What stands in the places of a form, with where it stands, in the order of a walk. -/
def parts {α : Type} : Form α → List (Part × α)
  | switch subject cases => (.outside, subject) :: cases.map (Part.body, ·)
  | function _ name parameters body =>
    (name.toList ++ parameters).map (Part.head, ·) ++ body.toList.map (Part.body, ·)
  | arrow _ parameters body => parameters.map (Part.head, ·) ++ [(.body, body)]
  | form => form.children.map (Part.body, ·)

theorem parts_switch {α : Type} (subject : α) (cases : List α) :
    (switch subject cases).parts = (.outside, subject) :: cases.map (Part.body, ·) :=
  rfl

theorem map_snd_parts {α : Type} (form : Form α) : form.parts.map Prod.snd = form.children := by
  unfold parts
  split
  · simp [children, Function.comp_def]
  · simp [children, Function.comp_def]
  · simp [children, Function.comp_def]
  · simp [Function.comp_def]

/-- Only a switch has a part outside the scope that it opens. -/
theorem fst_ne_outside_of_mem_parts {α : Type} {form : Form α} {part : Part × α}
    (no_switch : ∀ subject cases, form ≠ .switch subject cases) (member : part ∈ form.parts) :
    part.1 ≠ .outside := by
  unfold parts at member
  split at member
  · exact absurd rfl (no_switch _ _)
  all_goals
    simp only [List.mem_append, List.mem_map, List.mem_singleton] at member
    aesop

end Form

namespace Node

/-- The parts of a node with where they stand, in the order of a walk. A property that is given by a name
alone has its value as its only part, since its key is the same text. -/
def parts (node : Node) : List (Part × Node) :=
  match shorthandValue? node with
  | some (value, _) => [(.body, value)]
  | none => node.form.parts

/-- The parts of a node depend only on its form. -/
theorem parts_of_form {node : Node} {form : Form Node} (form_eq : node.form = form) :
    node.parts = (Node.mk ⟨0, 0⟩ form).parts := by
  subst form_eq
  rfl

theorem mem_children_of_shorthandValue? {node value : Node} {name : String}
    (shorthand : shorthandValue? node = some (value, name)) : value ∈ node.children := by
  unfold shorthandValue? at shorthand
  split at shorthand
  · rename_i form_eq
    split at shorthand <;> simp_all [children, Form.children]
  · simp at shorthand

/-- The parts of a node that is not given by a name alone are its children. -/
theorem map_snd_parts {node : Node} (spelled : shorthandValue? node = none) :
    node.parts.map Prod.snd = node.children := by
  rw [parts, spelled]
  exact node.form.map_snd_parts

/-- The parts of a node are those outside the scope it opens and those inside. -/
theorem parts_eq_outer_append_inner {node : Node} (spelled : shorthandValue? node = none) :
    ∃ inner : List (Part × Node), node.parts = node.outerChildren.map (Part.outside, ·) ++ inner ∧
      (∀ part ∈ inner, part.1 ≠ .outside) ∧ inner.map Prod.snd = node.innerChildren := by
  by_cases isSwitch : ∃ subject cases, node.form = .switch subject cases
  · obtain ⟨subject, cases, form_eq⟩ := isSwitch
    refine ⟨cases.map (Part.body, ·), ?_, ?_, ?_⟩
    · simp [parts, spelled, Form.parts_switch, outerChildren, form_eq]
    · intro part member
      obtain ⟨case, -, rfl⟩ := List.mem_map.mp member
      simp
    · simp [innerChildren, form_eq, Function.comp_def]
  · have no_switch : ∀ subject cases, node.form ≠ .switch subject cases := by
      simpa using isSwitch
    have outer_eq : node.outerChildren = [] := by
      unfold outerChildren
      split
      · rename_i form_eq
        exact absurd form_eq (no_switch _ _)
      · rfl
    have inner_eq : node.innerChildren = node.children := by
      rw [children_eq_outer_append_inner, outer_eq, List.nil_append]
    refine ⟨node.parts, by simp [outer_eq], ?_, by rw [map_snd_parts spelled, inner_eq]⟩
    intro part member
    rw [parts, spelled] at member
    exact Form.fst_ne_outside_of_mem_parts no_switch member

theorem mem_children_of_mem_parts {node : Node} {part : Part × Node} (member : part ∈ node.parts) :
    part.2 ∈ node.children := by
  cases shorthand : shorthandValue? node with
  | none =>
      rw [← map_snd_parts shorthand]
      exact List.mem_map_of_mem member
  | some shorthandValue =>
      obtain ⟨value, name⟩ := shorthandValue
      simp only [parts, shorthand, List.mem_singleton] at member
      subst member
      exact mem_children_of_shorthandValue? shorthand

end Node

/-- A step on the way to a site: a node and the part of it that the way goes on in. -/
structure Step where
  /-- The node. -/
  node : Node
  /-- The part. -/
  part : Part

/-- A node and the way to it, the last step first. -/
structure Site where
  /-- The node. -/
  node : Node
  /-- The steps that lead to it, innermost first. -/
  around : List Step

/-- The scope that a step enters. -/
def Step.scope? (step : Step) : Option Scope :=
  match step.part with
  | .outside => none
  | _ => step.node.scope?

namespace Site

/-- The site of a whole module. -/
def root (program : Node) : Site := ⟨program, []⟩

/-- The site of a part of the node at a site. -/
def enter (site : Site) (part : Part × Node) : Site :=
  ⟨part.2, ⟨site.node, part.1⟩ :: site.around⟩

/-- The sites directly below a site. -/
def below (site : Site) : List Site := site.node.parts.map site.enter

/-- The sites of the nodes along a way, innermost first. -/
def along : List Step → List Site
  | [] => []
  | step :: outer => ⟨step.node, outer⟩ :: along outer

/-- The sites around a site, innermost first. -/
def enclosing (site : Site) : List Site := along site.around

/-- The scopes around a site, as a walk has entered them. -/
def resolver (options : Options) (site : Site) : Resolver :=
  { options, scopes := site.around.filterMap Step.scope? }

@[simp]
theorem node_root (program : Node) : (root program).node = program := rfl

@[simp]
theorem node_enter (site : Site) (part : Part × Node) : (site.enter part).node = part.2 := rfl

@[simp]
theorem enclosing_root (program : Node) : (root program).enclosing = [] := rfl

@[simp]
theorem enclosing_enter (site : Site) (part : Part × Node) :
    (site.enter part).enclosing = site :: site.enclosing := rfl

@[simp]
theorem resolver_root (options : Options) (program : Node) :
    (root program).resolver options = { options } := rfl

@[simp]
theorem resolver_options (options : Options) (site : Site) :
    (site.resolver options).options = options := rfl

theorem resolver_enter_outside (options : Options) (site : Site) (node : Node) :
    (site.enter (.outside, node)).resolver options = site.resolver options := rfl

theorem resolver_enter_inside (options : Options) (site : Site) {part : Part × Node}
    (inside : part.1 ≠ .outside) :
    (site.enter part).resolver options =
      innerResolver (site.resolver options) site.node := by
  have entered : Step.scope? ⟨site.node, part.1⟩ = site.node.scope? := by
    unfold Step.scope?
    split <;> simp_all
  unfold resolver innerResolver enter
  cases opened : site.node.scope? with
  | none => simp [entered, opened]
  | some scope => simp [entered, opened, Resolver.enter]

theorem sizeOf_lt_of_mem_below {site inner : Site} (member : inner ∈ site.below) :
    sizeOf inner.node < sizeOf site.node := by
  obtain ⟨part, part_mem, rfl⟩ := List.mem_map.mp member
  exact Node.sizeOf_lt_of_mem_children (Node.mem_children_of_mem_parts part_mem)

theorem enclosing_of_mem_below {site inner : Site} (member : inner ∈ site.below) :
    inner.enclosing = site :: site.enclosing := by
  obtain ⟨part, -, rfl⟩ := List.mem_map.mp member
  rfl

/-- What holds of a site as soon as it holds of the sites directly below it holds of every site. -/
@[elab_as_elim]
theorem induction_below {motive : Site → Prop}
    (step : ∀ site, (∀ inner ∈ site.below, motive inner) → motive site) (site : Site) :
    motive site :=
  step site fun inner _ => induction_below step inner
termination_by sizeOf site.node
decreasing_by exact sizeOf_lt_of_mem_below (by assumption)

/-- A site and all sites below it, in the order of a walk. -/
def within (site : Site) : List Site :=
  site :: site.below.attach.flatMap fun ⟨inner, _⟩ => within inner
termination_by sizeOf site.node
decreasing_by exact sizeOf_lt_of_mem_below (by assumption)

theorem within_eq (site : Site) : site.within = site :: site.below.flatMap within := by
  rw [within]
  simp [List.flatMap_subtype]

theorem self_mem_within (site : Site) : site ∈ site.within := by
  rw [within_eq]
  exact List.mem_cons_self

theorem mem_within_of_below {site inner deep : Site} (member : inner ∈ site.below)
    (deep_mem : deep ∈ inner.within) : deep ∈ site.within := by
  rw [within_eq]
  exact List.mem_cons_of_mem _ (List.mem_flatMap.mpr ⟨inner, member, deep_mem⟩)

theorem mem_within_trans {site middle deep : Site} (member : middle ∈ site.within)
    (deep_mem : deep ∈ middle.within) : deep ∈ site.within := by
  induction site using induction_below with
  | step site ih =>
      rw [within_eq] at member
      rcases List.mem_cons.mp member with rfl | deeper
      · exact deep_mem
      · obtain ⟨inner, inner_mem, middle_mem⟩ := List.mem_flatMap.mp deeper
        exact mem_within_of_below inner_mem (ih inner inner_mem middle_mem)

/-- What is around a site is around every site within it. -/
theorem mem_enclosing_of_mem_within {site deep outer : Site} (member : deep ∈ site.within)
    (around : outer ∈ site.enclosing) : outer ∈ deep.enclosing := by
  induction site using induction_below generalizing deep with
  | step site ih =>
      rw [within_eq] at member
      rcases List.mem_cons.mp member with rfl | deeper
      · exact around
      · obtain ⟨inner, inner_mem, deep_mem⟩ := List.mem_flatMap.mp deeper
        apply ih inner inner_mem deep_mem
        rw [enclosing_of_mem_below inner_mem]
        exact List.mem_cons_of_mem _ around

/-- A site is around every site within the sites below it. -/
theorem mem_enclosing_of_mem_below {site inner deep : Site} (inner_mem : inner ∈ site.below)
    (member : deep ∈ inner.within) : site ∈ deep.enclosing := by
  apply mem_enclosing_of_mem_within member
  rw [enclosing_of_mem_below inner_mem]
  exact List.mem_cons_self

/-- A site is, or is around, every site within it. -/
theorem self_mem_around {site deep : Site} (member : deep ∈ site.within) : site ∈ deep :: deep.enclosing := by
  rw [within_eq] at member
  rcases List.mem_cons.mp member with rfl | deeper
  · exact List.mem_cons_self
  · obtain ⟨inner, inner_mem, deep_mem⟩ := List.mem_flatMap.mp deeper
    exact List.mem_cons_of_mem _ (mem_enclosing_of_mem_below inner_mem deep_mem)

/-- What is around a site within another is around both or lies between them. -/
theorem between_of_mem_enclosing {site deep outer : Site} (member : deep ∈ site.within)
    (around : outer ∈ deep.enclosing) :
    outer ∈ site.enclosing ∨ outer ∈ site.within ∧ deep ∈ outer.within := by
  induction site using induction_below generalizing deep with
  | step site ih =>
      have whole := member
      rw [within_eq] at member
      rcases List.mem_cons.mp member with rfl | deeper
      · exact .inl around
      · obtain ⟨inner, inner_mem, deep_mem⟩ := List.mem_flatMap.mp deeper
        rcases ih inner inner_mem deep_mem around with shared | ⟨outer_mem, deep_within⟩
        · rw [enclosing_of_mem_below inner_mem] at shared
          rcases List.mem_cons.mp shared with rfl | shared
          · exact .inr ⟨self_mem_within _, whole⟩
          · exact .inl shared
        · exact .inr ⟨mem_within_of_below inner_mem outer_mem, deep_within⟩

/-- Every site within another is that site or directly below one within it. -/
theorem eq_or_mem_below_of_mem_within {site deep : Site} (member : deep ∈ site.within) :
    deep = site ∨ ∃ parent ∈ site.within, deep ∈ parent.below := by
  induction site using induction_below generalizing deep with
  | step site ih =>
      rw [within_eq] at member
      rcases List.mem_cons.mp member with rfl | deeper
      · exact .inl rfl
      · obtain ⟨inner, inner_mem, deep_mem⟩ := List.mem_flatMap.mp deeper
        right
        rcases ih inner inner_mem deep_mem with rfl | ⟨parent, parent_mem, below_mem⟩
        · exact ⟨site, self_mem_within site, inner_mem⟩
        · exact ⟨parent, mem_within_of_below inner_mem parent_mem, below_mem⟩

theorem mem_along {steps : List Step} {outer : Site} (member : outer ∈ along steps) :
    outer.around.length < steps.length ∧ ∀ farther ∈ outer.enclosing, farther ∈ along steps := by
  induction steps with
  | nil => simp [along] at member
  | cons step steps ih =>
      rcases List.mem_cons.mp member with rfl | member
      · exact ⟨Nat.lt_succ_self _, fun farther around => List.mem_cons_of_mem _ around⟩
      · obtain ⟨shorter, subset⟩ := ih member
        exact ⟨Nat.lt_succ_of_lt shorter,
          fun farther around => List.mem_cons_of_mem _ (subset farther around)⟩

/-- What is around a site that is around another is around both. -/
theorem mem_enclosing_trans {site outer farther : Site} (around : outer ∈ site.enclosing)
    (far : farther ∈ outer.enclosing) : farther ∈ site.enclosing :=
  (mem_along around).2 farther far

end Site

/-- All sites of a module, in the order of a walk. -/
def Node.sites (program : Node) : List Site := (Site.root program).within

/-- The sites around a site of a module are sites of the module. -/
theorem Site.mem_sites_of_mem_enclosing {program : Node} {site outer : Site}
    (member : site ∈ program.sites) (around : outer ∈ site.enclosing) :
    outer ∈ program.sites ∧ site ∈ outer.within := by
  rcases between_of_mem_enclosing member around with impossible | between
  · simp at impossible
  · exact between

end Storyboard
