import Storyboard.Proofs.LexicalScoping
import Storyboard.Proofs.Outline

/-!
# Reading again

The text that extraction writes is read as a module in turn. If that module is the old one but for the
replaced expressions, which are texts now, then an expression that stayed is dynamic in it exactly if it is
so by the names that are known in the new module. All nodes that take part have the outlines of the nodes in
whose place they are, so they open the same scopes.
-/

namespace Storyboard

open Extraction

namespace Node

/-- Whether a node is a text. -/
def isText (node : Node) : Bool :=
  match node.form with
  | .string _ _ => true
  | _ => false

/-- Whether a node is a statement that consists of a text. -/
def isTextStatement (node : Node) : Bool :=
  match node.form with
  | .directive _ => true
  | .expressionStatement value => value.isText
  | _ => false

end Node

/-- A node is read where the node at a site was, once the dynamic expressions are replaced by texts. -/
inductive Reread (options : Options) : Site → Node → Prop
  /-- A dynamic expression is read as a text. -/
  | text {site : Site} {node : Node} : site.isDynamic options = true → node.isText = true →
      Reread options site node
  /-- A text that is a statement is read as such a text, also where it becomes a directive or no longer is
  one. -/
  | textStatement {site : Site} {node : Node} : site.node.isTextStatement = true →
      node.isTextStatement = true → Reread options site node
  /-- A dynamic expression that is a statement is read as a text that is one. -/
  | statement {site : Site} {node value : Node} : site.node.form = .expressionStatement value →
      (site.enter (.body, value)).isDynamic options = true → node.isTextStatement = true →
      Reread options site node
  /-- A property that is given by a dynamic name alone is read as one with a key and a text. -/
  | property {site : Site} {node key value newKey newValue : Node} {name : String} :
      site.node.form = .property .plain key value false true false → key.isKeyName = true →
      value.form = .identifier name → (site.enter (.body, value)).isDynamic options = true →
      node.form = .property .plain newKey newValue false false false → newKey.isKeyName = true →
      newValue.isText = true → Reread options site node
  /-- Another property that is given by a name alone is read as such. -/
  | shorthand {site : Site} {node key value newKey newValue : Node} {name : String} :
      site.node.form = .property .plain key value false true false → key.isKeyName = true →
      value.form = .identifier name → (site.enter (.body, value)).isDynamic options = false →
      node.form = .property .plain newKey newValue false true false → newKey.isKeyName = true →
      newValue.form = .identifier name → Reread options site node
  /-- Anything else but a module is read as it was, with its parts read again. -/
  | kept {site : Site} {node : Node} (shape : Form (Node × Node)) : site.isDynamic options = false →
      shorthandValue? site.node = none → shorthandValue? node = none →
      (∀ body, site.node.form ≠ .program body) → site.node.form = Prod.fst <$> shape →
      node.form.unplaced = (Prod.snd <$> shape).unplaced →
      (∀ part ∈ shape.parts, Reread options (site.enter (part.1, part.2.1)) part.2.2) →
      Reread options site node

/-! ## Outlines of what is read again -/

namespace Outline

/-- The outline of what declares nothing and is no number. -/
def blank : Outline := ⟨[], [], [], [], [], [], [], [], none, true, false, false⟩

theorem ofForm_of_isExpression {form : Form Outline} (expression : form.isExpression = true)
    (no_number : (ofForm form).isNonzero = false) (no_meta : (ofForm form).isMeta = false) :
    ofForm form = blank := by
  cases form with
  | number value => exact congrArg (mk [] [] [] [] [] [] [] [] none true · false) no_number
  | metaProperty object property => exact absurd no_meta (by simp [ofForm])
  | function head identifier parameters body =>
      have role : head.role = .expression := by simpa [Form.isExpression] using expression
      simp [ofForm, blank, hoistedBy, declaredBy, Form.isExpression, role]
  | classOf head decorators identifier heritage members =>
      have role : head.role = .expression := by simpa [Form.isExpression] using expression
      simp [ofForm, blank, hoistedBy, declaredBy, Form.isExpression, role]
  | _ => first | rfl | exact absurd expression Bool.false_ne_true

end Outline

namespace Node

/-- An expression that is no number and no property of the environment has a blank outline. -/
theorem outline_of_isExpression {node : Node} (expression : node.form.isExpression = true)
    (no_number : isNonzeroNumber node = false) (no_meta : isMetaProperty node = false) :
    node.outline = .blank := by
  have number_eq : node.outline.isNonzero = isNonzeroNumber node := rfl
  have meta_eq : node.outline.isMeta = isMetaProperty node := rfl
  rw [outline_eq] at number_eq meta_eq ⊢
  apply Outline.ofForm_of_isExpression
  · rw [Form.isExpression_map, expression]
  · rw [number_eq, no_number]
  · rw [meta_eq, no_meta]

theorem isText_iff {node : Node} :
    node.isText = true ↔ ∃ value hasLoneHalves, node.form = .string value hasLoneHalves := by
  unfold isText
  split <;> simp_all

theorem isKeyName_iff {node : Node} : node.isKeyName = true ↔ ∃ name, node.form = .keyName name := by
  unfold isKeyName
  split <;> simp_all

/-- A text has a blank outline. -/
theorem outline_of_isText {node : Node} (isText : node.isText = true) : node.outline = .blank := by
  obtain ⟨value, hasLoneHalves, form_eq⟩ := isText_iff.mp isText
  apply outline_of_isExpression
  · rw [form_eq]
    rfl
  · simp [isNonzeroNumber, form_eq]
  · simp [isMetaProperty, form_eq]

/-- The name of a key has a blank outline. -/
theorem outline_of_isKeyName {node : Node} (isName : node.isKeyName = true) : node.outline = .blank := by
  obtain ⟨name, form_eq⟩ := isKeyName_iff.mp isName
  rw [outline_eq, form_eq]
  rfl

theorem outline_of_identifier {node : Node} {name : String} (form_eq : node.form = .identifier name) :
    node.outline = .blank := by
  rw [outline_eq, form_eq]
  rfl

/-- A statement of an expression with a blank outline has a blank outline. -/
theorem outline_of_expressionStatement {node value : Node} (form_eq : node.form = .expressionStatement value)
    (blank : value.outline = .blank) : node.outline = .blank := by
  rw [outline_eq, form_eq]
  change Outline.ofForm (.expressionStatement value.outline) = _
  rw [blank]
  rfl

theorem outline_of_isTextStatement {node : Node} (isText : node.isTextStatement = true) :
    node.outline = .blank := by
  unfold isTextStatement at isText
  split at isText
  · rename_i form_eq
    rw [outline_eq, form_eq]
    rfl
  · rename_i form_eq
    exact outline_of_expressionStatement form_eq (outline_of_isText isText)
  · simp at isText

/-- A property of parts with blank outlines has a blank outline. -/
theorem outline_of_property {node key value : Node} {kind : PropertyKind}
    {isMethod isShorthand isComputed : Bool}
    (form_eq : node.form = .property kind key value isMethod isShorthand isComputed)
    (key_blank : key.outline = .blank) (value_blank : value.outline = .blank) : node.outline = .blank := by
  rw [outline_eq, form_eq]
  change Outline.ofForm (.property kind key.outline value.outline isMethod isShorthand isComputed) = _
  rw [key_blank, value_blank]
  rfl

end Node

/-- A dynamic expression has a blank outline. -/
theorem outline_of_needsEvaluation {resolver : Resolver} {node : Node}
    (late : needsEvaluation resolver node = true) : node.outline = .blank := by
  simp only [needsEvaluation, Bool.and_eq_true, Bool.not_eq_true', Bool.or_eq_true] at late
  obtain ⟨⟨expression, -⟩, late⟩ := late
  -- numbers and properties of the environment are plain data and no calls
  have no_data : ∀ {form}, node.form = form → (∀ head callee arguments, form ≠ .call head callee arguments) →
      isPlainData resolver node = false := by
    intro form form_eq no_call
    rcases late with marker | late
    · have uncalled : namedCall? node = none := by
        unfold namedCall?
        split
        · rename_i call_form
          exact absurd (form_eq.symm.trans call_form) (no_call _ _ _)
        · rfl
      simp [markerCall?, uncalled] at marker
    · exact late
  apply Node.outline_of_isExpression expression
  · unfold isNonzeroNumber
    split
    · rename_i value form_eq
      have plain := no_data form_eq (by simp)
      simp [isPlainData, form_eq] at plain
    · rfl
  · unfold isMetaProperty
    split
    · rename_i form_eq
      have plain := no_data form_eq (by simp)
      simp [isPlainData, form_eq] at plain
    · rfl

/-- What is observed of the outlines of parts is the same for two nodes that fill one shape, up to positions,
with parts of the same outlines. -/
theorem observe_eq_of_shape {β : Type} {observe : Form Outline → β}
    (blind : ∀ form, observe form.unplaced = observe form) {node new : Node} {shape : Form (Node × Node)}
    (filled : node.form = Prod.fst <$> shape) (new_filled : new.form.unplaced = (Prod.snd <$> shape).unplaced)
    (same : ∀ part ∈ shape.parts, part.2.2.outline = part.2.1.outline) :
    observe (Node.outline <$> new.form) = observe (Node.outline <$> node.form) := by
  rw [Node.observe_eq blind new_filled, filled, Form.map_map]
  congr 1
  apply Form.map_congr
  intro pair member
  rw [← Form.map_snd_parts] at member
  obtain ⟨part, part_mem, rfl⟩ := List.mem_map.mp member
  exact same part part_mem

/-- What is read again has the outline of the node in whose place it is. -/
theorem Reread.outline_eq {options : Options} {site : Site} {node : Node}
    (reread : Reread options site node) : node.outline = site.node.outline := by
  induction reread with
  | text dynamic isText => rw [Node.outline_of_isText isText, outline_of_needsEvaluation dynamic]
  | textStatement isText newIsText =>
      rw [Node.outline_of_isTextStatement isText, Node.outline_of_isTextStatement newIsText]
  | statement form_eq dynamic isText =>
      rw [Node.outline_of_isTextStatement isText,
        Node.outline_of_expressionStatement form_eq (outline_of_needsEvaluation dynamic)]
  | property form_eq isName value_form dynamic new_form newIsName isText =>
      rw [Node.outline_of_property form_eq (Node.outline_of_isKeyName isName)
          (Node.outline_of_identifier value_form),
        Node.outline_of_property new_form (Node.outline_of_isKeyName newIsName)
          (Node.outline_of_isText isText)]
  | shorthand form_eq isName value_form static new_form newIsName new_value_form =>
      rw [Node.outline_of_property form_eq (Node.outline_of_isKeyName isName)
          (Node.outline_of_identifier value_form),
        Node.outline_of_property new_form (Node.outline_of_isKeyName newIsName)
          (Node.outline_of_identifier new_value_form)]
  | kept shape static spelled new_spelled no_program form_eq new_form rereads ih =>
      rw [Node.outline_eq, Node.outline_eq]
      exact observe_eq_of_shape Outline.ofForm_unplaced form_eq new_form ih

/-! ## Expressions that stay -/

namespace Form

variable {α β : Type}

theorem exists_of_map_eq_call {f : α → β} {shape : Form α} {head : CallHead} {callee : β}
    {arguments : List β} (filled : f <$> shape = .call head callee arguments) :
    ∃ oldCallee oldArguments, shape = .call head oldCallee oldArguments ∧ f oldCallee = callee := by
  cases shape <;> cases filled
  exact ⟨_, _, rfl, rfl⟩

theorem exists_of_map_eq_object {f : α → β} {shape : Form α} {properties : List β}
    (filled : f <$> shape = .object properties) :
    ∃ oldProperties, shape = .object oldProperties ∧ oldProperties.map f = properties := by
  cases shape <;> cases filled
  exact ⟨_, rfl, rfl⟩

theorem exists_of_map_eq_property {f : α → β} {shape : Form α} {kind : PropertyKind} {key value : β}
    {isMethod isShorthand isComputed : Bool}
    (filled : f <$> shape = .property kind key value isMethod isShorthand isComputed) :
    ∃ oldKey oldValue, shape = .property kind oldKey oldValue isMethod isShorthand isComputed ∧
      f oldKey = key := by
  cases shape <;> cases filled
  exact ⟨_, _, rfl, rfl⟩

theorem exists_of_map_eq_program {f : α → β} {shape : Form α} {body : List β}
    (filled : f <$> shape = .program body) : ∃ oldBody, shape = .program oldBody := by
  cases shape <;> cases filled
  exact ⟨_, rfl⟩

end Form

section Shapes

variable {node new : Node} {shape : Form (Node × Node)}

/-- Of two nodes that fill one shape, the second has the form that the shape gives it if it holds no
positions. -/
theorem form_eq_of_shape (new_filled : new.form.unplaced = (Prod.snd <$> shape).unplaced)
    (bare : (Prod.snd <$> shape).isPlaced = false) : new.form = Prod.snd <$> shape :=
  Form.eq_of_unplaced_eq new_filled bare

/-- Two nodes without parts that fill one shape have the same form. -/
theorem form_eq_of_leaf (filled : node.form = Prod.fst <$> shape)
    (new_filled : new.form.unplaced = (Prod.snd <$> shape).unplaced) (leaf : node.form.children = [])
    (bare : node.form.isPlaced = false) : new.form = node.form := by
  have no_places : shape.children = [] := by
    rw [filled, Form.children_map] at leaf
    exact List.map_eq_nil_iff.mp leaf
  have same : Prod.snd <$> shape = Prod.fst <$> shape := by
    apply Form.map_congr
    simp [no_places]
  rw [same, ← filled] at new_filled
  exact Form.eq_of_unplaced_eq new_filled bare

theorem isExpression_eq_of_shape (filled : node.form = Prod.fst <$> shape)
    (new_filled : new.form.unplaced = (Prod.snd <$> shape).unplaced) :
    new.form.isExpression = node.form.isExpression := by
  rw [← Form.isExpression_unplaced, new_filled, Form.isExpression_unplaced, Form.isExpression_map, filled,
    Form.isExpression_map]

/-- Two nodes other than modules that fill one shape with parts of the same outlines open the same scope. -/
theorem scope?_eq_of_shape (filled : node.form = Prod.fst <$> shape)
    (new_filled : new.form.unplaced = (Prod.snd <$> shape).unplaced)
    (same : ∀ part ∈ shape.parts, part.2.2.outline = part.2.1.outline)
    (no_program : ∀ body, node.form ≠ .program body) : new.scope? = node.scope? := by
  have new_no_program : ∀ body, new.form ≠ .program body := by
    intro body form_eq
    rw [form_eq] at new_filled
    obtain ⟨pairs, rfl⟩ := Form.exists_of_map_eq_program (Form.eq_of_unplaced_eq new_filled.symm rfl)
    exact no_program _ filled
  rw [Node.scope?_eq no_program, Node.scope?_eq new_no_program]
  exact observe_eq_of_shape Outline.scopeBy?_unplaced filled new_filled same

end Shapes

/-- Plain data is no call. -/
theorem namedCall?_of_isPlainData {resolver : Resolver} {node : Node}
    (plain : isPlainData resolver node = true) : namedCall? node = none := by
  unfold namedCall?
  split
  · rename_i form_eq
    simp [isPlainData, form_eq] at plain
  · rfl

namespace Reread

variable {options : Options} {site : Site} {node : Node}

/-- What has no parts is read as it was unless it is dynamic or a directive. -/
theorem form_eq_of_leaf (reread : Reread options site node) (static : site.isDynamic options = false)
    (leaf : site.node.form.children = []) (bare : site.node.form.isPlaced = false)
    (no_directive : site.node.isTextStatement = false) : node.form = site.node.form := by
  cases reread with
  | text dynamic _ => simp [static] at dynamic
  | textStatement isText _ => simp [no_directive] at isText
  | statement form_eq _ _ => simp [form_eq, Form.children] at leaf
  | property form_eq _ _ _ _ _ _ => simp [form_eq, Form.children] at leaf
  | shorthand form_eq _ _ _ _ _ _ => simp [form_eq, Form.children] at leaf
  | kept shape _ _ _ _ form_eq new_form _ => exact Storyboard.form_eq_of_leaf form_eq new_form leaf bare

/-- A property with a plain key is read as one. -/
theorem hasPlainKey (reread : Reread options site node) (plain : hasPlainKey site.node = true) :
    hasPlainKey node = true := by
  have shown : ∃ key value isShorthand isComputed,
      site.node.form = .property .plain key value false isShorthand isComputed ∧
        ((∃ name, key.form = .keyName name) ∧ isComputed = false ∨
          ∃ text hasLoneHalves, key.form = .string text hasLoneHalves) := by
    unfold Extraction.hasPlainKey at plain
    split at plain
    · rename_i key value isShorthand isComputed form_eq
      refine ⟨key, value, isShorthand, isComputed, form_eq, ?_⟩
      split at plain
      · rename_i name key_form
        exact .inl ⟨⟨name, key_form⟩, by simpa using plain⟩
      · rename_i text hasLoneHalves key_form
        exact .inr ⟨text, hasLoneHalves, key_form⟩
      · simp at plain
    · simp at plain
  obtain ⟨key, value, isShorthand, isComputed, form_eq, key_form⟩ := shown
  cases reread with
  | text dynamic _ =>
      have static : site.isDynamic options = false :=
        needsEvaluation_eq_false_of_no_expression _ (by rw [form_eq]; rfl)
      simp [static] at dynamic
  | textStatement isText _ => simp [Node.isTextStatement, form_eq] at isText
  | statement other_form _ _ => simp [form_eq] at other_form
  | property _ _ _ _ new_form newIsName _ =>
      obtain ⟨name, name_form⟩ := Node.isKeyName_iff.mp newIsName
      simp [Extraction.hasPlainKey, new_form, name_form]
  | shorthand _ _ _ _ new_form newIsName _ =>
      obtain ⟨name, name_form⟩ := Node.isKeyName_iff.mp newIsName
      simp [Extraction.hasPlainKey, new_form, name_form]
  | kept shape _ _ _ _ filled new_filled rereads =>
      obtain ⟨keys, values, rfl, rfl⟩ := Form.exists_of_map_eq_property (filled.symm.trans form_eq)
      have new_form := form_eq_of_shape new_filled rfl
      have key_reread := rereads (.body, keys) (by simp [Form.parts, Form.children])
      rcases key_form with ⟨⟨name, key_form⟩, rfl⟩ | ⟨text, hasLoneHalves, key_form⟩
      · have new_key : keys.2.form = keys.1.form := by
          apply key_reread.form_eq_of_leaf <;> simp [Site.isDynamic, needsEvaluation, Site.enter, key_form,
            Form.isExpression, Form.children, Form.isPlaced, Node.isTextStatement]
        rw [key_form] at new_key
        simp [Extraction.hasPlainKey, new_form, Functor.map, Form.map, new_key]
      · have new_key : keys.2.form = keys.1.form := by
          apply key_reread.form_eq_of_leaf <;> simp [Site.isDynamic, needsEvaluation, Site.enter, key_form,
            Form.children, Form.isPlaced, Node.isTextStatement, markerCall?, namedCall?, isPlainData]
        rw [key_form] at new_key
        simp [Extraction.hasPlainKey, new_form, Functor.map, Form.map, new_key]

end Reread

namespace Resolver

/-- The name of the style loader can stay. -/
theorem isStatic_of_isStyleLoader {resolver : Resolver} {name : String} (usual : resolver.options = {})
    (loader : resolver.isStyleLoader name = true) : (resolver.classify name).isStatic = true := by
  unfold isStyleLoader at loader
  obtain ⟨isNamed, known⟩ := Bool.and_eq_true_iff.mp loader
  cases found : resolver.lookup name with
  | none =>
      have no_global : resolver.options.isBuiltinGlobal name = false := by
        rw [eq_of_beq isNamed, usual]
        decide
      simp [classify, found, no_global, isNamed, NameClass.isStatic]
  | some binding =>
      simp only [found] at known
      have imported : binding = .imported resolver.options.jsxModule (.named name) := by
        simpa [Binding.isNamedImport] using known
      have other : resolver.options.jsxModule ≠ resolver.options.runtimeModule := by
        rw [usual]
        decide
      simp [classify, found, imported, Binding.isNamedImportFrom, Binding.isDefaultImport, other,
        NameClass.isStatic]

end Resolver

namespace Reread

variable {site : Site} {node : Node} {shape : Form (Node × Node)}

/-- Plain data that is read again is as plain as before, whatever names mean. -/
theorem isPlainData_eq {options : Options} {known : Resolver} (filled : site.node.form = Prod.fst <$> shape)
    (new_filled : node.form.unplaced = (Prod.snd <$> shape).unplaced)
    (rereads : ∀ part ∈ shape.parts, Reread options (site.enter (part.1, part.2.1)) part.2.2)
    (plain : isPlainData known site.node = true) (resolver : Resolver) :
    isPlainData resolver node = isPlainData resolver site.node := by
  by_cases isObject : ∃ properties, site.node.form = .object properties
  · obtain ⟨properties, form_eq⟩ := isObject
    obtain ⟨pairs, rfl, rfl⟩ := Form.exists_of_map_eq_object (filled.symm.trans form_eq)
    have new_form : node.form = .object (pairs.map Prod.snd) := form_eq_of_shape new_filled rfl
    simp only [isPlainData, form_eq, new_form] at plain ⊢
    rw [plain, List.all_eq_true]
    intro property member
    obtain ⟨pair, pair_mem, rfl⟩ := List.mem_map.mp member
    have reread := rereads (.body, pair) (by simpa [Form.parts, Form.children] using pair_mem)
    apply reread.hasPlainKey
    exact List.all_eq_true.mp plain _ (List.mem_map_of_mem pair_mem)
  · have no_object : ∀ properties, site.node.form ≠ .object properties := by simpa using isObject
    have new_no_object : ∀ properties, node.form ≠ .object properties := by
      intro properties form_eq
      rw [form_eq] at new_filled
      have shape_form := Form.eq_of_unplaced_eq new_filled.symm rfl
      obtain ⟨pairs, rfl, -⟩ := Form.exists_of_map_eq_object shape_form
      exact no_object _ filled
    rw [Node.isPlainData_eq resolver no_object, Node.isPlainData_eq resolver new_no_object]
    exact observe_eq_of_shape (Outline.isPlainBy_unplaced resolver) filled new_filled
      fun part member => (rereads part member).outline_eq

/-- A call of the style loader that is read again is a call of the same name. -/
theorem namedCall?_of_loader (filled : site.node.form = Prod.fst <$> shape)
    (new_filled : node.form.unplaced = (Prod.snd <$> shape).unplaced)
    (rereads : ∀ part ∈ shape.parts, Reread {} (site.enter (part.1, part.2.1)) part.2.2)
    (loader : isStyleLoaderCall (site.resolver {}) site.node = true) :
    ∃ name arguments newArguments, namedCall? site.node = some (name, arguments) ∧
      namedCall? node = some (name, newArguments) := by
  have called : ∃ name arguments, namedCall? site.node = some (name, arguments) ∧
      (site.resolver {}).isStyleLoader name = true := by
    unfold isStyleLoaderCall at loader
    split at loader
    · rename_i name arguments call_eq
      exact ⟨name, arguments, call_eq, loader⟩
    · simp at loader
  obtain ⟨name, arguments, call_eq, isLoader⟩ := called
  have shown : ∃ head callee, site.node.form = .call head callee arguments ∧
      callee.form = .identifier name ∧ head.isOptional = false := by
    unfold namedCall? at call_eq
    split at call_eq
    · rename_i head callee others form_eq
      split at call_eq
      · rename_i callee_form
        split at call_eq
        · simp at call_eq
        · rename_i isCalled
          obtain ⟨rfl, rfl⟩ := Prod.mk.inj (Option.some.inj call_eq)
          exact ⟨head, callee, form_eq, callee_form, by simpa using isCalled⟩
      · simp at call_eq
    · simp at call_eq
  obtain ⟨head, callee, form_eq, callee_form, isCalled⟩ := shown
  obtain ⟨callees, pairs, rfl, rfl⟩ := Form.exists_of_map_eq_call (filled.symm.trans form_eq)
  have new_form : node.form = .call head callees.2 (pairs.map Prod.snd) := form_eq_of_shape new_filled rfl
  have reread := rereads (.body, callees) (by simp [Form.parts, Form.children])
  have same_names : (site.enter (.body, callees.1)).resolver {} = site.resolver {} := by
    rw [Site.resolver_enter_inside {} site (by simp), innerResolver]
    simp [Node.scope?, form_eq]
  have static : (site.enter (.body, callees.1)).isDynamic {} = false := by
    rw [Site.isDynamic_identifier {} callee_form, same_names, Resolver.isStatic_of_isStyleLoader rfl isLoader]
    rfl
  have new_callee : callees.2.form = .identifier name := by
    rw [← callee_form]
    apply reread.form_eq_of_leaf static <;> simp [Site.enter, callee_form, Form.children, Form.isPlaced,
      Node.isTextStatement]
  exact ⟨name, arguments, pairs.map Prod.snd, call_eq, by simp [namedCall?, new_form, new_callee, isCalled]⟩

/-- An expression that stays is dynamic, by whatever names mean, exactly if it was so as it stood. -/
theorem needsEvaluation_eq (static : site.isDynamic {} = false)
    (filled : site.node.form = Prod.fst <$> shape)
    (new_filled : node.form.unplaced = (Prod.snd <$> shape).unplaced)
    (rereads : ∀ part ∈ shape.parts, Reread {} (site.enter (part.1, part.2.1)) part.2.2)
    (resolver : Resolver) : needsEvaluation resolver node = needsEvaluation resolver site.node := by
  have expression_eq := isExpression_eq_of_shape filled new_filled
  cases expression : site.node.form.isExpression with
  | false => simp [needsEvaluation, expression_eq, expression]
  | true =>
      cases loader : isStyleLoaderCall (site.resolver {}) site.node with
      | true =>
          obtain ⟨name, arguments, newArguments, call_eq, new_call_eq⟩ :=
            namedCall?_of_loader filled new_filled rereads loader
          have late : ∀ {other : Node} {others : List Node}, namedCall? other = some (name, others) →
              isPlainData resolver other = false := by
            intro other others other_call
            by_contra plain
            rw [namedCall?_of_isPlainData (by simpa using plain)] at other_call
            simp at other_call
          simp [needsEvaluation, expression_eq, expression, isStyleLoaderCall, call_eq, new_call_eq,
            late call_eq, late new_call_eq]
      | false =>
          have plain : isPlainData (site.resolver {}) site.node = true := by
            have settled : (markerCall? (site.resolver {}) site.node).isSome = false ∧
                isPlainData (site.resolver {}) site.node = true := by
              simpa [Site.isDynamic, needsEvaluation, expression, loader] using static
            exact settled.2
          have plain_eq := isPlainData_eq filled new_filled rereads plain
          have new_plain := (plain_eq (site.resolver {})).trans plain
          simp [needsEvaluation, expression_eq, expression, isStyleLoaderCall, markerCall?, plain_eq,
            namedCall?_of_isPlainData plain, namedCall?_of_isPlainData new_plain]

end Reread

/-! ## All that is read again -/

/-- Whether a node is dynamic depends on the meanings of names only. -/
theorem needsEvaluation_congr {first second : Resolver} (options_eq : first.options = second.options)
    (same : ∀ name, first.lookup name = second.lookup name) (node : Node) :
    needsEvaluation first node = needsEvaluation second node := by
  have classes : ∀ name, first.classify name = second.classify name := by
    intro name
    simp only [Resolver.classify, same, options_eq]
  have markers : ∀ name, first.marker? name = second.marker? name := by
    intro name
    simp only [Resolver.marker?, same, options_eq]
  have loaders : ∀ name, first.isStyleLoader name = second.isStyleLoader name := by
    intro name
    simp only [Resolver.isStyleLoader, same, options_eq]
  have plain : isPlainData first node = isPlainData second node := by
    unfold isPlainData
    split <;> simp [classes]
  simp only [needsEvaluation, isStyleLoaderCall, markerCall?, markers, loaders, plain]

theorem needsEvaluation_of_isText (resolver : Resolver) {node : Node} (isText : node.isText = true) :
    needsEvaluation resolver node = false := by
  obtain ⟨value, hasLoneHalves, form_eq⟩ := Node.isText_iff.mp isText
  simp [needsEvaluation, form_eq, markerCall?, namedCall?, isPlainData]

namespace Site

/-- The scopes around a site with another scope of the module. -/
def resolverIn (module : Scope) (site : Site) : Resolver :=
  { options := {}, scopes := site.around.dropLast.filterMap Step.scope? ++ [module] }

/-- What stands at a site stays: neither it nor anything around it is dynamic. -/
def Stays (site : Site) : Prop := ∀ outer ∈ site :: site.enclosing, outer.isDynamic {} = false

/-- What stands at a site, if it stays, is not dynamic in another scope of the module either. -/
def StaysIn (module : Scope) (site : Site) : Prop :=
  site.Stays → needsEvaluation (site.resolverIn module) site.node = false

theorem forall_within_iff {site : Site} {property : Site → Prop} :
    (∀ deep ∈ site.within, property deep) ↔
      property site ∧ ∀ part ∈ site.node.parts, ∀ deep ∈ (site.enter part).within, property deep := by
  rw [within_eq, List.forall_mem_cons]
  refine and_congr_right fun _ => ?_
  constructor
  · intro each part part_mem deep deep_mem
    exact each deep (List.mem_flatMap.mpr ⟨_, List.mem_map_of_mem part_mem, deep_mem⟩)
  · intro each deep member
    obtain ⟨inner, inner_mem, deep_mem⟩ := List.mem_flatMap.mp member
    obtain ⟨part, part_mem, rfl⟩ := List.mem_map.mp inner_mem
    exact each part part_mem deep deep_mem

theorem lookup_enter (site : Site) (part : Part × Node) (name : String) :
    ((site.enter part).resolver {}).lookup name =
      (Step.lookup? ⟨site.node, part.1⟩ name).or ((site.resolver {}).lookup name) := by
  rw [lookup_resolver, lookup_resolver]
  exact lookupAlong_cons _ _ name

theorem lookup_resolverIn (module : Scope) (site : Site) (name : String) :
    (site.resolverIn module).lookup name =
      (lookupAlong site.around.dropLast name).or (Fields.get? module name) := by
  have inner := lookup_resolver {} ⟨site.node, site.around.dropLast⟩ name
  simp only [Resolver.lookup, resolver, resolverIn, ScopeStack.lookup] at inner ⊢
  rw [List.findSome?_append, inner, List.findSome?_singleton]

theorem lookup_resolverIn_enter (module : Scope) {site : Site} (inside : site.around ≠ [])
    (part : Part × Node) (name : String) :
    ((site.enter part).resolverIn module).lookup name =
      (Step.lookup? ⟨site.node, part.1⟩ name).or ((site.resolverIn module).lookup name) := by
  have around_eq : (site.enter part).around.dropLast = ⟨site.node, part.1⟩ :: site.around.dropLast :=
    List.dropLast_cons_of_ne_nil inside
  rw [lookup_resolverIn, lookup_resolverIn, around_eq, lookupAlong_cons, Option.or_assoc]

/-- Nothing within a dynamic expression stays. -/
theorem staysIn_of_isDynamic {module : Scope} {site deep : Site} (dynamic : site.isDynamic {} = true)
    (member : deep ∈ site.within) : deep.StaysIn module := by
  intro stays
  have static := stays site (self_mem_around member)
  simp [dynamic] at static

theorem stays_of_static {site : Site} (static : site.isDynamic {} = false)
    (free : ∀ outer ∈ site.enclosing, outer.isDynamic {} = false) : site.Stays := by
  intro outer around
  rcases List.mem_cons.mp around with rfl | around
  · exact static
  · exact free outer around

/-- Nothing within a text is dynamic. -/
theorem static_within_text {site : Site} (isText : site.node.isText = true) (known : Site → Resolver) :
    ∀ deep ∈ site.within, needsEvaluation (known deep) deep.node = false := by
  obtain ⟨value, hasLoneHalves, form_eq⟩ := Node.isText_iff.mp isText
  rw [forall_within_iff]
  refine ⟨needsEvaluation_of_isText _ isText, ?_⟩
  have no_parts : site.node.parts = [] := Node.parts_of_form form_eq
  simp [no_parts]

/-- Nothing within a statement that consists of a text is dynamic. -/
theorem static_within_textStatement {site : Site} (isText : site.node.isTextStatement = true)
    (known : Site → Resolver) : ∀ deep ∈ site.within, needsEvaluation (known deep) deep.node = false := by
  rw [forall_within_iff]
  unfold Node.isTextStatement at isText
  split at isText
  · rename_i form_eq
    refine ⟨needsEvaluation_eq_false_of_no_expression _ (by rw [form_eq]; rfl), ?_⟩
    have no_parts : site.node.parts = [] := Node.parts_of_form form_eq
    simp [no_parts]
  · rename_i value form_eq
    refine ⟨needsEvaluation_eq_false_of_no_expression _ (by rw [form_eq]; rfl), ?_⟩
    have parts_eq : site.node.parts = [(.body, value)] := Node.parts_of_form form_eq
    rw [parts_eq, List.forall_mem_singleton]
    exact static_within_text isText known
  · simp at isText

/-- Nothing within the name of a key is dynamic. -/
theorem static_within_keyName {site : Site} (isName : site.node.isKeyName = true) (known : Site → Resolver) :
    ∀ deep ∈ site.within, needsEvaluation (known deep) deep.node = false := by
  obtain ⟨name, form_eq⟩ := Node.isKeyName_iff.mp isName
  rw [forall_within_iff]
  refine ⟨needsEvaluation_eq_false_of_no_expression _ (by rw [form_eq]; rfl), ?_⟩
  have no_parts : site.node.parts = [] := Node.parts_of_form form_eq
  simp [no_parts]

end Site

/-- All that stands within the site of a name is the name. -/
theorem Site.forall_within_identifier {site : Site} {property : Site → Prop} {name : String}
    (form_eq : site.node.form = .identifier name) :
    (∀ deep ∈ site.within, property deep) ↔ property site := by
  have no_parts : site.node.parts = [] := Node.parts_of_form form_eq
  rw [forall_within_iff, no_parts]
  simp

/-- Nothing within a statement of a dynamic expression stays. -/
theorem Site.staysIn_within_statement (module : Scope) {site : Site} {value : Node}
    (form_eq : site.node.form = .expressionStatement value)
    (dynamic : (site.enter (.body, value)).isDynamic {} = true) :
    ∀ deep ∈ site.within, deep.StaysIn module := by
  have parts_eq : site.node.parts = [(.body, value)] := Node.parts_of_form form_eq
  rw [forall_within_iff, parts_eq, List.forall_mem_singleton]
  exact ⟨fun _ => needsEvaluation_eq_false_of_no_expression _ (by rw [form_eq]; rfl),
    fun deep member => staysIn_of_isDynamic dynamic member⟩

/-- All that stands within a property that is given by a name alone is the property and the name. -/
theorem Site.forall_within_shorthand {site : Site} {property : Site → Prop} {value : Node} {name : String}
    (given : shorthandValue? site.node = some (value, name)) :
    (∀ deep ∈ site.within, property deep) ↔ property site ∧ property (site.enter (.body, value)) := by
  have value_form : (site.enter (.body, value)).node.form = .identifier name := form_of_shorthand given
  rw [forall_within_iff]
  simp [Node.parts, given, forall_within_identifier value_form]

namespace Reread

open Site

/-- What is read again where a site was is not dynamic anywhere exactly if all that stays at the site is not
dynamic in the new scope of the module either. -/
theorem static_within_iff {module : Scope} {site again : Site} {node : Node}
    (reread : Reread {} site node) (node_eq : again.node = node) (inside : site.around ≠ [])
    (same : ∀ name, (again.resolver {}).lookup name = (site.resolverIn module).lookup name)
    (free : ∀ outer ∈ site.enclosing, outer.isDynamic {} = false) :
    (∀ deep ∈ again.within, deep.isDynamic {} = false) ↔ ∀ deep ∈ site.within, deep.StaysIn module := by
  induction reread generalizing again with
  | text dynamic isText =>
      subst node_eq
      exact iff_of_true (static_within_text isText (resolver {}))
        fun deep member => staysIn_of_isDynamic dynamic member
  | textStatement isText newIsText =>
      subst node_eq
      exact iff_of_true (static_within_textStatement newIsText (resolver {}))
        fun deep member _ => static_within_textStatement isText (resolverIn module) deep member
  | statement form_eq dynamic isText =>
      subst node_eq
      exact iff_of_true (static_within_textStatement isText (resolver {}))
        (staysIn_within_statement module form_eq dynamic)
  | @property site node key value newKey newValue name form_eq isName value_form dynamic new_form newIsName
      isText =>
      subst node_eq
      have given : shorthandValue? site.node = some (value, name) := by
        simp [shorthandValue?, form_eq, value_form]
      refine iff_of_true ?_ ?_
      · rw [forall_within_iff]
        refine ⟨needsEvaluation_eq_false_of_no_expression _ (by rw [new_form]; rfl), ?_⟩
        have parts_eq : again.node.parts = [(.body, newKey), (.body, newValue)] :=
          Node.parts_of_form new_form
        rw [parts_eq, List.forall_mem_cons, List.forall_mem_singleton]
        exact ⟨static_within_keyName newIsName (resolver {}), static_within_text isText (resolver {})⟩
      · rw [forall_within_shorthand given]
        exact ⟨fun _ => needsEvaluation_eq_false_of_no_expression _ (by rw [form_eq]; rfl),
          staysIn_of_isDynamic dynamic (self_mem_within _)⟩
  | @shorthand site node key value newKey newValue name form_eq isName value_form static new_form newIsName
      new_value_form =>
      subst node_eq
      have given : shorthandValue? site.node = some (value, name) := by
        simp [shorthandValue?, form_eq, value_form]
      have new_given : shorthandValue? again.node = some (newValue, name) := by
        simp [shorthandValue?, new_form, new_value_form]
      have no_expression : site.isDynamic {} = false := isDynamic_eq_false_of_shorthand {} given
      have stays : (site.enter (.body, value)).Stays :=
        stays_of_static static (stays_of_static no_expression free)
      have known : (((again.enter (.body, newValue)).resolver {}).classify name) =
          (((site.enter (.body, value)).resolverIn module).classify name) := by
        have unscoped : ∀ {property : Node} {given}, shorthandValue? property = some given →
            Step.lookup? ⟨property, .body⟩ name = none := by
          intro property given alone
          unfold shorthandValue? at alone
          split at alone
          · rename_i property_form
            simp [Step.lookup?, Step.scope?, Node.scope?, property_form]
          · simp at alone
        have lookup_eq : ((again.enter (.body, newValue)).resolver {}).lookup name =
            ((site.enter (.body, value)).resolverIn module).lookup name := by
          rw [lookup_enter, lookup_resolverIn_enter module inside, unscoped given, unscoped new_given, same]
        simp only [Resolver.classify, lookup_eq]
        rfl
      rw [forall_within_shorthand given, forall_within_shorthand new_given, StaysIn, StaysIn,
        imp_iff_right stays, isDynamic_eq_false_of_shorthand {} new_given,
        needsEvaluation_eq_false_of_no_expression _ (isExpression_eq_false_of_shorthand given),
        isDynamic_identifier {} new_value_form, node_enter, needsEvaluation_identifier _ value_form, known]
      simp
  | @kept site node shape static spelled new_spelled no_program filled new_filled rereads ih =>
      subst node_eq
      have stays := stays_of_static static free
      have parts_eq : site.node.parts = shape.parts.map fun part => (part.1, part.2.1) := by
        rw [Node.parts, spelled, filled]
        exact Form.parts_map _ _
      have new_parts_eq : again.node.parts = shape.parts.map fun part => (part.1, part.2.2) := by
        rw [Node.parts, new_spelled]
        change again.node.form.parts = _
        rw [← Form.parts_unplaced, new_filled, Form.parts_unplaced]
        exact Form.parts_map _ _
      have scope_eq : again.node.scope? = site.node.scope? :=
        scope?_eq_of_shape filled new_filled (fun part member => (rereads part member).outline_eq) no_program
      have options_eq : (again.resolver {}).options = (site.resolverIn module).options := rfl
      have known := needsEvaluation_congr options_eq same site.node
      have here : again.isDynamic {} = false ↔ site.StaysIn module := by
        rw [StaysIn, imp_iff_right stays, isDynamic, needsEvaluation_eq static filled new_filled rereads,
          known]
      rw [forall_within_iff, forall_within_iff, here, parts_eq, new_parts_eq]
      simp only [List.forall_mem_map]
      refine and_congr_right fun _ => forall₂_congr fun part member => ?_
      apply ih part member rfl
      · simp [Site.enter]
      · intro name
        rw [lookup_enter, lookup_resolverIn_enter module inside, same]
        simp only [Step.lookup?, Step.scope?, scope_eq]
      · exact stays

end Reread

end Storyboard
