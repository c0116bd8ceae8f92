import Storyboard.Code.Grammar.Module
import Storyboard.Proofs.TokenRanges

/-!
# Rules stay in their source

A rule moves from one token to another one, and every token covers a part of the source. So wherever the rules of the
grammar lead, the place of the reader is one in the source that it began with. What is built from rules that stay in the
source stays in it, so each rule is looked at once, in the order in which the rules are defined.
-/

namespace Storyboard

open Cursor (Reaches)

namespace Grammar

section

variable {text : List Char} {α β : Type}

/-! ## What rules read -/

/-- What two rules read one after the other is what the first reads and then the second. -/
theorem exists_of_bind {rule : Parse α} {next : α → Parse β} {mode : Mode} {reading last : Reading} {value : β}
    (read : (rule >>= next) mode reading = some (value, last)) :
    ∃ first between, rule mode reading = some (first, between) ∧ next first mode between = some (value, last) := by
  obtain ⟨⟨first, between⟩, read, read'⟩ := Option.bind_eq_some_iff.mp read
  exact ⟨first, between, read, read'⟩

theorem of_get {next : Reading → Parse β} {mode : Mode} {reading : Reading} {result : Option (β × Reading)}
    (read : (get >>= next) mode reading = result) : next reading mode reading = result :=
  read

theorem of_atMark {next : Bool → Parse β} {mode : Mode} {reading : Reading} {mark : String}
    {result : Option (β × Reading)} (read : (atMark mark >>= next) mode reading = result) :
    next (reading.token.kind == .mark mark) mode reading = result :=
  read

/-- A rule with a name of its own, whose cases can be told apart without what is read. -/
theorem of_rule {rule : Parse β} {mode : Mode} {reading : Reading} {result : Option (β × Reading)}
    (read : rule mode reading = result) : ∃ rule', rule = rule' ∧ rule' mode reading = result :=
  ⟨rule, rfl, read⟩

theorem of_kind {next : TokenKind → Parse β} {mode : Mode} {reading : Reading} {result : Option (β × Reading)}
    (read : (kind >>= next) mode reading = result) :
    ∃ rule, next reading.token.kind = rule ∧ rule mode reading = result :=
  of_rule read

theorem of_start {next : Nat → Parse β} {mode : Mode} {reading : Reading} {result : Option (β × Reading)}
    (read : (start >>= next) mode reading = result) : next reading.token.span.start mode reading = result :=
  read

theorem of_liftM {found : Option α} {next : α → Parse β} {mode : Mode} {reading : Reading} {result : β × Reading}
    (read : (liftM found >>= next) mode reading = some result) :
    ∃ value, found = some value ∧ next value mode reading = some result := by
  cases found with
  | none => cases read
  | some value => exact ⟨value, rfl, read⟩

theorem of_ensure {condition : Bool} {next : Unit → Parse β} {mode : Mode} {reading : Reading} {result : β × Reading}
    (read : (ensure condition >>= next) mode reading = some result) :
    condition = true ∧ next () mode reading = some result := by
  cases condition with
  | false => cases read
  | true => exact ⟨rfl, read⟩

/-! ## Places in a text -/

/-- A reading stands at a place in a text. -/
structure Reading.IsIn (reading : Reading) (text : List Char) : Prop where
  /-- Its token begins in the text. -/
  here : Reaches ⟨text, 0⟩ reading.here
  /-- Its token ends in the text, behind where it begins. -/
  after : Reaches reading.here reading.after
  /-- Its token covers what is between. -/
  span : reading.token.span = ⟨reading.here.offset, reading.after.offset⟩
  /-- The first character of a mark has one byte. -/
  mark : ∀ mark, reading.token.kind = .mark mark → Reaches reading.here (reading.here.skip 1)
  /-- The characters of a plain token are read as that token wherever they stand. -/
  plain : Lexer.IsPlain reading.token.kind → ∃ token, Cursor.Across token reading.here reading.after ∧
    Lexer.IsToken reading.token.kind token ∧ Lexer.EndsBefore reading.token.kind reading.after.rest

/-- A rule that begins in a text stays in it. -/
class Stays (text : List Char) (rule : Parse α) : Prop where
  /-- The reading after the rule is in the text. -/
  isIn : ∀ {mode reading value next}, reading.IsIn text → rule mode reading = some (value, next) → next.IsIn text

/-! ## Ways to build rules -/

-- What shows that a rule stays in its source grows with the rule.
set_option synthInstance.maxSize 3000

instance stays_pure (value : α) : Stays text (pure value : Parse α) where
  isIn inside same := by
    cases same
    exact inside

instance stays_failure : Stays text (failure : Parse α) where
  isIn _ failed := nomatch failed

instance stays_bind {rule : Parse α} {next : α → Parse β} [Stays text rule] [∀ value, Stays text (next value)] :
    Stays text (rule >>= next) where
  isIn inside read := by
    obtain ⟨first, between, read, read'⟩ := exists_of_bind read
    exact Stays.isIn (Stays.isIn inside read) read'

theorem Stays.bind {rule : Parse α} {next : α → Parse β} [Stays text rule] (second : ∀ value, Stays text (next value)) :
    Stays text (rule >>= next) :=
  inferInstance

/-- What is done with an optional result depends on whether there is one. -/
instance (priority := low) stays_bind_option {rule : Parse (Option α)} {next : Option α → Parse β} [Stays text rule]
    [Stays text (next none)] [∀ value, Stays text (next (some value))] : Stays text (rule >>= next) :=
  .bind fun found => by cases found <;> infer_instance

/-- What is done with a token depends on its kind. -/
instance (priority := low) stays_bind_kind {rule : Parse TokenKind} {next : TokenKind → Parse β} [Stays text rule]
    [∀ name, Stays text (next (.name name false))] [∀ name, Stays text (next (.name name true))]
    [∀ name, Stays text (next (.privateName name))] [∀ mark, Stays text (next (.mark mark))]
    [∀ value, Stays text (next (.number value))] [∀ value, Stays text (next (.bigint value))]
    [∀ value hasHalves, Stays text (next (.text value hasHalves))]
    [∀ raw isWellFormed isLast, Stays text (next (.template raw isWellFormed isLast))] [Stays text (next .finish)] :
    Stays text (rule >>= next) :=
  .bind fun found => by
    cases found with
    | name text isEscaped => cases isEscaped <;> infer_instance
    | _ => infer_instance

instance stays_map {rule : Parse α} {change : α → β} [Stays text rule] : Stays text (change <$> rule) := by
  rw [map_eq_pure_bind]
  infer_instance

instance stays_ite {condition : Prop} [Decidable condition] {yes no : Parse α} [Stays text yes] [Stays text no] :
    Stays text (if condition then yes else no) := by
  split <;> assumption

instance stays_withReader {change : Mode → Mode} {rule : Parse α} [inner : Stays text rule] :
    Stays text (withReader change rule) where
  isIn inside read := inner.isIn inside read

instance stays_read : Stays text (read : Parse Mode) where
  isIn inside same := by
    cases same
    exact inside

instance stays_get : Stays text (get : Parse Reading) where
  isIn inside same := by
    cases same
    exact inside

instance stays_liftM (found : Option α) : Stays text (liftM found : Parse α) where
  isIn inside same := by
    obtain ⟨value, -, same⟩ := Option.bind_eq_some_iff.mp same
    cases same
    exact inside

/-- What is noted about targets has no place. -/
instance stays_modify (covers followed : Reading → List Nat) :
    Stays text (modify fun r => { r with covers := covers r, followed := followed r } : Parse Unit) where
  isIn inside same := by
    cases same
    exact ⟨inside.here, inside.after, inside.span, inside.mark, inside.plain⟩

instance stays_attempt {rule : Parse α} [inner : Stays text rule] : Stays text (attempt rule) where
  isIn inside read := by
    unfold attempt at read
    split at read
    · rename_i found
      cases read
      exact inner.isIn inside found
    · cases read
      exact inside

instance stays_lookAhead {rule : Parse α} : Stays text (lookAhead rule) where
  isIn inside read := by
    unfold lookAhead at read
    split at read
    · cases read
      exact inside
    · cases read
      exact inside

instance stays_collectUpTo (item : Parse (Option α)) [Stays text item] (limit : Nat) :
    Stays text (collectUpTo item limit) := by
  induction limit with
  | zero => exact stays_failure
  | succ limit ih =>
      rw [collectUpTo]
      infer_instance

instance stays_collect (item : Parse (Option α)) [Stays text item] : Stays text (collect item) := by
  dsimp only [collect]
  infer_instance

instance stays_extendUpTo (step : α → Parse (Option α)) [∀ value, Stays text (step value)] (limit : Nat) (value : α) :
    Stays text (extendUpTo step limit value) := by
  induction limit generalizing value with
  | zero => exact stays_failure
  | succ limit ih =>
      rw [extendUpTo]
      infer_instance

instance stays_extend (step : α → Parse (Option α)) [∀ value, Stays text (step value)] (value : α) :
    Stays text (extend step value) := by
  dsimp only [extend]
  infer_instance

instance stays_mapM {rule : α → Parse β} [∀ value, Stays text (rule value)] (values : List α) :
    Stays text (values.mapM rule) := by
  induction values with
  | nil => exact stays_pure []
  | cons value values ih =>
      rw [List.mapM_cons]
      infer_instance

/-! ## Tokens -/

instance stays_token : Stays text token := by dsimp only [token]; infer_instance
instance stays_kind : Stays text kind := by dsimp only [kind]; infer_instance
instance stays_start : Stays text start := by dsimp only [start]; infer_instance
instance stays_lastStop : Stays text lastStop := by dsimp only [lastStop]; infer_instance
instance stays_ensure (condition : Bool) : Stays text (ensure condition) := by dsimp only [ensure]; infer_instance
instance stays_atMark (mark : String) : Stays text (atMark mark) := by dsimp only [atMark]; infer_instance
instance stays_atWord (word : String) : Stays text (atWord word) := by dsimp only [atWord]; infer_instance
instance stays_afterLineEnd : Stays text afterLineEnd := by dsimp only [afterLineEnd]; infer_instance

/-- A token that is read at a cursor in the text is in the text. -/
theorem Reading.isIn_of_next? {previous : Option TokenKind} {cursor : Cursor} {reading : Reading}
    (inside : Reaches ⟨text, 0⟩ cursor)
    (read : Lexer.next? previous cursor = some (reading.token, reading.here, reading.after)) : reading.IsIn text where
  here := inside.trans (Lexer.reaches_of_next? read).1
  after := (Lexer.reaches_of_next? read).2
  span := (Lexer.steps_of_next? read).2.2
  mark _ kind_eq := Lexer.reaches_skip_of_next? read kind_eq
  plain plain := by
    obtain ⟨_, token, -, across, -, whole, ends⟩ := Lexer.exists_token_of_next? read plain
    exact ⟨token, across, whole, ends⟩

/-- A move stays in the text if it begins there. -/
theorem isIn_of_moveTo {previous : TokenKind} {cursor : Cursor} {stop : Nat} {mode : Mode} {reading next : Reading}
    {value : Unit} (inside : Reaches ⟨text, 0⟩ cursor)
    (moved : moveTo previous cursor stop mode reading = some (value, next)) : next.IsIn text := by
  obtain ⟨⟨token, here, after⟩, between, found, same⟩ := exists_of_bind moved
  obtain ⟨_, read, same'⟩ := Option.bind_eq_some_iff.mp found
  cases same'
  cases same
  exact Reading.isIn_of_next? inside read

instance stays_advance : Stays text advance where
  isIn inside moved := isIn_of_moveTo (inside.here.trans inside.after) moved

/-- A mark or a template that is read again is in the text if it ends there. -/
theorem isIn_of_retake {kind : TokenKind} {after : Cursor} {mode : Mode} {reading next : Reading} {value : Unit}
    (inside : reading.IsIn text) (taken : retake kind after mode reading = some (value, next))
    (behind : Reaches reading.here after) (no_plain : ¬Lexer.IsPlain kind)
    (mark : (∀ mark, kind ≠ .mark mark) ∨ Reaches reading.here (reading.here.skip 1)) : next.IsIn text := by
  cases taken
  exact {
    here := inside.here
    after := behind
    span := congrArg (fun span => Span.mk span.start after.offset) inside.span
    mark := fun text same => mark.elim (fun no_mark => absurd same (no_mark text)) id
    plain := fun plain => absurd plain no_plain }

/-- A template goes on behind a closing brace. -/
theorem stays_templateRest (rest : Parse β) [Stays text rest] : Stays text (do
    ensure (← atMark "\x7d")
    let (kind, after) ← Lexer.template? ((← get).here.skip 1)
    retake kind after
    rest) where
  isIn inside read := by
    obtain ⟨closes, read⟩ := of_ensure (of_atMark read)
    obtain ⟨⟨kind, after⟩, found, read⟩ := of_liftM (of_get read)
    have behind := (inside.mark _ (eq_of_beq closes)).trans (Lexer.reaches_of_template? found)
    obtain ⟨raw, isWellFormed, isLast, rfl⟩ : ∃ raw isWellFormed isLast, kind = .template raw isWellFormed isLast := by
      obtain ⟨_, -, same⟩ := Option.map_eq_some_iff.mp found
      cases same
      exact ⟨_, _, _, rfl⟩
    obtain ⟨_, _, taken, read⟩ := exists_of_bind read
    exact Stays.isIn (isIn_of_retake inside taken behind id (.inl fun _ => TokenKind.noConfusion)) read

variable {rules : Rules} [∀ goal, Stays text (rules goal)] {types : TypeRules} [∀ goal, Stays text (types goal)]

/-! ## Names and lists -/

instance stays_peek : Stays text peek := by dsimp only [peek]; infer_instance

instance stays_peekIs (condition : Token → Bool) : Stays text (peekIs condition) := by
  dsimp only [peekIs]
  infer_instance

instance stays_eatMark (mark : String) : Stays text (eatMark mark) := by dsimp only [eatMark]; infer_instance
instance stays_eatWord (mark : String) : Stays text (eatWord mark) := by dsimp only [eatWord]; infer_instance
instance stays_expectMark (mark : String) : Stays text (expectMark mark) := by dsimp only [expectMark]; infer_instance

instance stays_eatAngle : Stays text eatAngle where
  isIn {mode reading value next} inside read := by
    have read := of_get read
    by_cases starts : reading.here.startsWith "<" = true
    · rw [if_pos starts] at read
      have behind := Lexer.reaches_skip starts rfl
      obtain ⟨_, _, taken, read⟩ := exists_of_bind (of_get read)
      exact Stays.isIn (isIn_of_retake inside taken behind (by decide : "<" ≠ "*") (.inr behind)) read
    · rw [if_neg starts] at read
      exact Stays.isIn inside read

instance stays_expectWord (mark : String) : Stays text (expectWord mark) := by dsimp only [expectWord]; infer_instance

instance stays_close (start : Nat) (form : Form Node) : Stays text (close start form) := by
  dsimp only [close]
  infer_instance

instance stays_canEndStatement : Stays text canEndStatement := by dsimp only [canEndStatement]; infer_instance
instance stays_endStatement : Stays text endStatement := by dsimp only [endStatement]; infer_instance

instance stays_itemsUntil (closing : String) (item : Parse α) [Stays text item] :
    Stays text (itemsUntil closing item) := by
  dsimp only [itemsUntil]
  infer_instance

instance stays_commaList (closing : String) (item : Parse α) [Stays text item] :
    Stays text (commaList closing item) := by
  dsimp only [commaList]
  infer_instance

instance stays_commaSeparated (item : Parse α) [Stays text item] : Stays text (commaSeparated item) := by
  dsimp only [commaSeparated]
  infer_instance

instance stays_atIdentifier : Stays text atIdentifier := by dsimp only [atIdentifier]; infer_instance
instance stays_identifierName : Stays text identifierName := by dsimp only [identifierName]; infer_instance
instance stays_anyName : Stays text anyName := by dsimp only [anyName]; infer_instance
instance stays_identifierNode : Stays text identifierNode := by dsimp only [identifierNode]; infer_instance
instance stays_bindingNode : Stays text bindingNode := by dsimp only [bindingNode]; infer_instance
instance stays_writtenNumber : Stays text writtenNumber := by dsimp only [writtenNumber]; infer_instance
instance stays_textValue : Stays text textValue := by dsimp only [textValue]; infer_instance

/-! ## Types -/

instance stays_qualifiedName : Stays text qualifiedName := by dsimp only [qualifiedName]; infer_instance

instance stays_angledList (item : Parse α) [Stays text item] : Stays text (angledList item) := by
  dsimp only [angledList]
  infer_instance

instance stays_typeArguments : Stays text (typeArguments types) := by dsimp only [typeArguments]; infer_instance
instance stays_parameterWords : Stays text parameterWords := by dsimp only [parameterWords]; infer_instance
instance stays_typeParameters : Stays text (typeParameters types) := by dsimp only [typeParameters]; infer_instance
instance stays_typeAfterColon : Stays text (typeAfterColon types) := by dsimp only [typeAfterColon]; infer_instance
instance stays_computedMemberKey : Stays text computedMemberKey := by dsimp only [computedMemberKey]; infer_instance

instance stays_memberKey : Stays text memberKey := by
  refine .bind fun _ => ?_
  split <;> infer_instance

instance stays_parameterName (depth : Nat) : Stays text (parameterName depth) := by
  induction depth with
  | zero => exact stays_failure
  | succ depth ih =>
      have rest : ∀ closing, Stays text (do
          expectMark "..."
          let content ← parameterName depth
          ensure (← atMark closing)
          return ParameterPart.rest content) := fun closing => inferInstance
      have member : ∀ mode, Stays text (do
          let key ← memberKey
          if ← eatMark ":" then return ParameterPart.property key (← parameterName depth)
          else
            match key with
            | .name value =>
              ensure (isIdentifier mode value)
              return .element (.name value)
            | _ => failure) := fun mode => by
        refine .bind fun key => .bind fun _ => ?_
        cases key <;> infer_instance
      dsimp only [parameterName]
      infer_instance

instance stays_typedName : Stays text (typedName types) := by dsimp only [typedName]; infer_instance
instance stays_thisName : Stays text (thisName types) := by dsimp only [thisName]; infer_instance
instance stays_typedNames : Stays text (typedNames types) := by dsimp only [typedNames]; infer_instance
instance stays_resultType : Stays text (resultType types) := by dsimp only [resultType]; infer_instance

instance stays_signature (mark : String) : Stays text (signature types mark) := by
  dsimp only [signature]
  infer_instance

instance stays_indexMember (isReadonly : Bool) : Stays text (indexMember types isReadonly) := by
  dsimp only [indexMember]
  infer_instance

instance stays_keyedMember : Stays text (keyedMember types) := by dsimp only [keyedMember]; infer_instance
instance stays_typeMember : Stays text (typeMember types) := by dsimp only [typeMember]; infer_instance
instance stays_typeMembers : Stays text (typeMembers types) := by dsimp only [typeMembers]; infer_instance

instance stays_signed (word : Parse Unit) [Stays text word] : Stays text (signed word) := by
  dsimp only [signed]
  infer_instance

instance stays_mappedType : Stays text (mappedType types) := by dsimp only [mappedType]; infer_instance
instance stays_tupleElement : Stays text (tupleElement types) := by dsimp only [tupleElement]; infer_instance

instance stays_typeTemplateParts (limit : Nat) : Stays text (typeTemplateParts types limit) := by
  induction limit with
  | zero => exact stays_failure
  | succ limit ih =>
      refine .bind fun _ => ?_
      split
      · refine .bind fun _ => ?_
        split
        · infer_instance
        · exact .bind fun _ => stays_templateRest _
      · infer_instance

instance stays_lookupEntry : Stays text lookupEntry := by dsimp only [lookupEntry]; infer_instance
instance stays_lookupOptions : Stays text lookupOptions := by dsimp only [lookupOptions]; infer_instance

instance stays_importedType (isQuery : Bool) : Stays text (importedType types isQuery) := by
  dsimp only [importedType]
  infer_instance

instance stays_numberType (isNegative : Bool) : Stays text (numberType isNegative) := by
  dsimp only [numberType]
  infer_instance

instance stays_thisType : Stays text (thisType types) := by dsimp only [thisType]; infer_instance
instance stays_assertedType : Stays text (assertedType types) := by dsimp only [assertedType]; infer_instance
instance stays_questionedType : Stays text (questionedType types) := by dsimp only [questionedType]; infer_instance
instance stays_referencedType : Stays text (referencedType types) := by dsimp only [referencedType]; infer_instance

instance stays_wordType (word : String) : Stays text (wordType types word) := by
  unfold wordType
  split <;> infer_instance

instance stays_primaryType : Stays text (primaryType types) := by
  refine .bind fun _ => ?_
  split <;> infer_instance

instance stays_postfixType : Stays text (postfixType types) := by
  refine .bind fun base => @stays_extend _ _ _ (fun type => .bind fun _ => ?_) base
  split
  · infer_instance
  · refine .bind fun _ => ?_
    split <;> infer_instance

instance stays_operandType (isBound : Bool) : Stays text (operandType types isBound) := by
  refine .bind fun _ => ?_
  split
  · infer_instance
  · infer_instance
  · infer_instance

instance stays_joinedTypes (mark : String) (part : Parse TypeExpr) (join : List TypeExpr → TypeExpr) [Stays text part] :
    Stays text (joinedTypes mark part join) := by
  dsimp only [joinedTypes]
  infer_instance

instance stays_functionType : Stays text (functionType types) := by dsimp only [functionType]; infer_instance

instance stays_unconditionalType (isBound : Bool) : Stays text (unconditionalType types isBound) := by
  dsimp only [unconditionalType]
  infer_instance

instance stays_fullType : Stays text (fullType types) := by dsimp only [fullType]; infer_instance

instance stays_typeRules (depth : Nat) (goal : TypeGoal) : Stays text (typeRules depth goal) := by
  induction depth generalizing goal with
  | zero => exact stays_failure
  | succ depth ih =>
      cases goal with
      | full => exact stays_fullType
      | unconditional => exact stays_unconditionalType _
      | operand isBound => exact stays_operandType _

instance stays_withTypes {rule : TypeRules → Parse α} [∀ depth, Stays text (rule (typeRules depth))] :
    Stays text (withTypes rule) := by
  dsimp only [withTypes]
  infer_instance

instance stays_givenType : Stays text givenType := by dsimp only [givenType]; infer_instance
instance stays_declaredType : Stays text declaredType := by dsimp only [declaredType]; infer_instance
instance stays_declaredResult : Stays text declaredResult := by dsimp only [declaredResult]; infer_instance

instance stays_declaredTypeParameters : Stays text declaredTypeParameters := by
  dsimp only [declaredTypeParameters]
  infer_instance

instance stays_namedTypesAfter (word : String) : Stays text (namedTypesAfter word) := by
  dsimp only [namedTypesAfter]
  infer_instance

/-! ## Patterns and targets -/

instance stays_inside (rule : Parse α) [Stays text rule] : Stays text (inside rule) := by
  dsimp only [inside]
  infer_instance

instance stays_key : Stays text (Grammar.key rules) := by
  refine .bind fun _ => .bind fun _ => ?_
  split <;> infer_instance

instance stays_withDefault (start : Nat) (pattern : Node) : Stays text (withDefault rules start pattern) := by
  dsimp only [withDefault]
  infer_instance

instance stays_patternElement : Stays text (patternElement rules) := by dsimp only [patternElement]; infer_instance

instance stays_restPattern (closing : String) : Stays text (restPattern rules closing) := by
  dsimp only [restPattern]
  infer_instance

instance stays_arrayPattern (start : Nat) : Stays text (arrayPattern rules start) := by
  dsimp only [arrayPattern]
  infer_instance

instance stays_patternProperty : Stays text (patternProperty rules) := by dsimp only [patternProperty]; infer_instance

instance stays_restProperty : Stays text (restProperty rules) := by
  refine .bind fun _ => ?_
  split <;> infer_instance

instance stays_objectPattern (start : Nat) : Stays text (objectPattern rules start) := by
  dsimp only [objectPattern]
  infer_instance

instance stays_pattern : Stays text (Grammar.pattern rules) := by dsimp only [Grammar.pattern]; infer_instance
instance stays_dropCover (start : Nat) : Stays text (dropCover start) :=
  stays_modify (fun r => r.covers.filter (· != start)) Reading.followed

instance stays_toTarget (depth : Nat) (node : Node) : Stays text (toTarget depth node) := by
  induction depth generalizing node with
  | zero => exact stays_failure
  | succ depth ih =>
      obtain ⟨span, form⟩ := node
      unfold toTarget
      extract_lets element item property
      have stays_element : ∀ node, Stays text (element node) := fun node => by
        dsimp only [element]
        split <;> infer_instance
      have stays_item : ∀ node, Stays text (item node) := fun node => by
        dsimp only [item]
        split <;> infer_instance
      have stays_property : ∀ node, Stays text (property node) := fun node => by
        dsimp only [property]
        split <;> infer_instance
      split <;> infer_instance

instance stays_target (node : Node) : Stays text (target node) := by dsimp only [target]; infer_instance

instance stays_simpleTarget (node : Node) : Stays text (simpleTarget node) := by
  unfold simpleTarget
  split <;> infer_instance

/-! ## Functions -/

instance stays_rawText : Stays text rawText := by
  refine .bind fun _ => ?_
  split <;> infer_instance

instance stays_prologueStatement : Stays text (prologueStatement rules) := by
  refine .bind fun _ => ?_
  split
  · refine .bind fun _ => .bind fun _ => ?_
    split <;> infer_instance
  · infer_instance

instance stays_statementsUpTo (closing : TokenKind) (limit : Nat) (isPrologue : Bool) :
    Stays text (statementsUpTo rules closing limit isPrologue) := by
  induction limit generalizing isPrologue with
  | zero => exact stays_failure
  | succ limit ih =>
      dsimp only [statementsUpTo]
      infer_instance

instance stays_bracedStatements (isPrologue : Bool) : Stays text (bracedStatements rules isPrologue) := by
  dsimp only [bracedStatements]
  infer_instance

instance stays_functionBody : Stays text (functionBody rules) := by dsimp only [functionBody]; infer_instance

instance stays_decorators : Stays text (Grammar.decorators rules) := by
  dsimp only [Grammar.decorators]
  infer_instance

instance stays_parameterModifiers : Stays text parameterModifiers := by dsimp only [parameterModifiers]; infer_instance

instance stays_restParameter (decorators : List Node) : Stays text (restParameter rules decorators) := by
  dsimp only [restParameter]
  infer_instance

instance stays_optionalMark : Stays text optionalMark := by dsimp only [optionalMark]; infer_instance

instance stays_parameter (place : ParameterPlace) : Stays text (parameter rules place) := by
  dsimp only [parameter]
  infer_instance

instance stays_thisParameter : Stays text thisParameter := by dsimp only [thisParameter]; infer_instance

instance stays_parameters (place : ParameterPlace) : Stays text (Grammar.parameters rules place) := by
  dsimp only [Grammar.parameters]
  infer_instance

instance stays_functionRest (start : Nat) (place : ParameterPlace) (head : FunctionHead) (name : Option Node) :
    Stays text (functionRest rules start place head name) := by
  dsimp only [functionRest]
  infer_instance

instance stays_function (role : Role) (needsName : Bool) : Stays text (function rules role needsName) := by
  dsimp only [function]
  infer_instance

instance stays_atFunction : Stays text atFunction := by dsimp only [atFunction]; infer_instance

instance stays_methodFunction (place : ParameterPlace) (kind : PropertyKind) (isAsync isGenerator : Bool) :
    Stays text (methodFunction rules place kind isAsync isGenerator) := by
  refine .bind fun _ => .bind fun _ => ?_
  split <;> infer_instance

instance stays_arrowRest (start : Nat) (head : FunctionHead) (parameters : List Node) :
    Stays text (arrowRest rules start head parameters) := by
  dsimp only [arrowRest]
  infer_instance

instance stays_arrowHead (allowsResult : Bool) : Stays text (arrowHead rules allowsResult) := by
  dsimp only [arrowHead]
  infer_instance

instance stays_arrowBeforeColon (start : Nat) : Stays text (arrowBeforeColon rules start) := by
  dsimp only [arrowBeforeColon]
  infer_instance

instance stays_parenthesizedArrow : Stays text (parenthesizedArrow rules) := by
  dsimp only [parenthesizedArrow]
  infer_instance

instance stays_loneParameter (node : Node) : Stays text (loneParameter node) := by
  unfold loneParameter
  split <;> infer_instance

instance stays_asyncLoneArrow : Stays text (asyncLoneArrow rules) := by dsimp only [asyncLoneArrow]; infer_instance

/-! ## Classes -/

instance stays_atMemberWord (before : List String) : Stays text (atMemberWord before) := by
  dsimp only [atMemberWord]
  infer_instance

instance stays_memberModifiers : Stays text memberModifiers := by dsimp only [memberModifiers]; infer_instance
instance stays_accessorKind : Stays text accessorKind := by dsimp only [accessorKind]; infer_instance
instance stays_classKey : Stays text (classKey rules) := by dsimp only [classKey]; infer_instance

instance stays_staticBlock (start : Nat) : Stays text (staticBlock rules start) := by
  dsimp only [staticBlock]
  infer_instance

instance stays_field (start : Nat) (head : MemberHead) (decorators : List Node) (key : Node) :
    Stays text (Grammar.field rules start head decorators key) := by
  dsimp only [Grammar.field]
  infer_instance

instance stays_method (start : Nat) (head : MemberHead) (decorators : List Node) (key : Node)
    (isAsync isGenerator : Bool) :
    Stays text (Grammar.method rules start head decorators key isAsync isGenerator) := by
  dsimp only [Grammar.method]
  infer_instance

instance stays_classIndex (start : Nat) (isReadonly : Bool) : Stays text (classIndex? start isReadonly) := by
  dsimp only [classIndex?]
  infer_instance

instance stays_namedClassMember (start : Nat) (decorators : List Node) (words : List String) :
    Stays text (namedClassMember rules start decorators words) := by
  dsimp only [namedClassMember]
  infer_instance

instance stays_classMember : Stays text (classMember rules) := by dsimp only [classMember]; infer_instance
instance stays_classMembers : Stays text (classMembers rules) := by dsimp only [classMembers]; infer_instance

instance stays_heritage : Stays text (Grammar.heritage rules) := by
  refine .bind fun extends_ => ?_
  split
  · refine .bind fun _ => ?_
    split <;> infer_instance
  · infer_instance

instance stays_classRest (start : Nat) (decorators : List Node) (role : Role) :
    Stays text (classRest rules start decorators role) := by
  dsimp only [classRest]
  infer_instance

instance stays_classNode (role : Role) : Stays text (classNode rules role) := by
  dsimp only [classNode]
  infer_instance

/-! ## Markup -/

instance stays_markupPart : Stays text markupPart where
  isIn inside read := by
    obtain ⟨⟨name, after⟩, named, read⟩ := of_liftM (of_get read)
    obtain ⟨_, _, taken, read⟩ := exists_of_bind read
    -- The name need be no token, but the reader leaves it at once.
    cases taken
    obtain ⟨_, _, moved, read⟩ := exists_of_bind read
    have to_after := inside.here.trans (Lexer.reaches_of_markupName? named)
    exact Stays.isIn (isIn_of_moveTo to_after moved) read

instance stays_elementName : Stays text elementName := by dsimp only [elementName]; infer_instance

instance stays_bracedExpression : Stays text (bracedExpression rules) := by
  dsimp only [bracedExpression]
  infer_instance

instance stays_closeHere (start : Nat) (form : Form Node) : Stays text (closeHere start form) := by
  dsimp only [closeHere]
  infer_instance

instance stays_spreadAttribute : Stays text (spreadAttribute rules) := by dsimp only [spreadAttribute]; infer_instance

instance stays_attributeValue : Stays text (attributeValue rules) where
  isIn inside read := by
    obtain ⟨⟨cursor, gap⟩, skipped, read⟩ := of_liftM (of_get read)
    have to_cursor := (inside.here.trans inside.after).trans (Lexer.reaches_of_skipGap skipped)
    cases rest_eq : cursor.rest with
    | nil =>
      simp only [rest_eq] at read
      cases read
    | cons c rest =>
      simp only [rest_eq] at read
      by_cases quote : (c == '"' || c == Lexer.apostrophe) = true
      · have small : c.utf8Size = 1 := Literal.utf8Size_of_or ⟨rfl, rfl⟩ quote
        rw [if_pos quote] at read
        obtain ⟨after, closed, read⟩ := of_liftM read
        obtain ⟨_, _, moved, read⟩ := exists_of_bind read
        have to_text : Reaches cursor ⟨rest, cursor.offset + 1⟩ := ⟨[c], rest_eq, by rw [← small]; rfl⟩
        have to_after := (to_cursor.trans to_text).trans (Lexer.reaches_of_afterMarkupText? small closed)
        exact Stays.isIn (isIn_of_moveTo to_after moved) read
      · rw [if_neg quote] at read
        exact Stays.isIn inside read

instance stays_elementAttribute : Stays text (elementAttribute rules) := by
  dsimp only [elementAttribute]
  infer_instance

instance stays_attributes : Stays text (Grammar.attributes rules) := by
  dsimp only [Grammar.attributes]
  infer_instance

instance stays_contentValue : Stays text (contentValue rules) := by dsimp only [contentValue]; infer_instance

instance stays_contentUpTo (limit : Nat) : Stays text (contentUpTo rules limit) := by
  induction limit with
  | zero => exact stays_failure
  | succ limit ih =>
      constructor
      intro mode reading value next inside read
      obtain ⟨cursor, found, read⟩ := of_liftM (of_get read)
      obtain ⟨_, _, moved, read⟩ := exists_of_bind read
      have to_cursor := (inside.here.trans inside.after).trans (Lexer.reaches_of_afterContent? found)
      exact Stays.isIn (isIn_of_moveTo to_cursor moved) read

instance stays_contentAndClosing (name : Option Node) : Stays text (contentAndClosing rules name) := by
  refine .bind fun _ => .bind fun _ => .bind fun _ => ?_
  cases name <;> infer_instance

instance stays_element : Stays text (element rules) := by dsimp only [element]; infer_instance

/-! ## Expressions -/

instance stays_templateParts (isTagged : Bool) (limit : Nat) : Stays text (templateParts rules isTagged limit) := by
  induction limit with
  | zero => exact stays_failure
  | succ limit ih =>
      refine .bind fun _ => ?_
      split
      · refine .bind fun _ => .bind fun _ => ?_
        split
        · infer_instance
        · exact .bind fun _ => stays_templateRest _
      · infer_instance

instance stays_template : Stays text (template rules) := by dsimp only [template]; infer_instance
/-- A regular expression is read in the text if its first slash begins a token there. -/
theorem isIn_of_regex {mode : Mode} {reading next : Reading} {node : Node} {mark : String} (inside : reading.IsIn text)
    (opens : reading.token.kind = .mark mark) (read : regex mode reading = some (node, next)) : next.IsIn text := by
  obtain ⟨⟨pattern, flags, after⟩, found, read⟩ := of_liftM (of_get (of_start read))
  obtain ⟨_, _, taken, read⟩ := exists_of_bind read
  have behind := (inside.mark _ opens).trans (Lexer.reaches_of_regex? found)
  exact Stays.isIn (isIn_of_retake inside taken behind (by decide : "/" ≠ "*") (.inr (inside.mark _ opens))) read

instance stays_spread : Stays text (spread rules) := by dsimp only [spread]; infer_instance
instance stays_listItem : Stays text (listItem rules) := by dsimp only [listItem]; infer_instance
instance stays_array (start : Nat) : Stays text (array rules start) := by dsimp only [array]; infer_instance
instance stays_asyncWord : Stays text asyncWord := by dsimp only [asyncWord]; infer_instance

instance stays_shorthand (start : Nat) (key : Node) : Stays text (shorthand rules start key) := by
  dsimp only [shorthand]
  infer_instance

instance stays_property : Stays text (Grammar.property rules) := by dsimp only [Grammar.property]; infer_instance
instance stays_object (start : Nat) : Stays text (object rules start) := by dsimp only [object]; infer_instance
instance stays_parenthesized : Stays text (parenthesized rules) := by dsimp only [parenthesized]; infer_instance
instance stays_wordValue (form : Form Node) : Stays text (wordValue form) := by dsimp only [wordValue]; infer_instance

instance stays_primary : Stays text (primary rules) where
  isIn {mode reading value next} inside read := by
    obtain ⟨rule, rule_eq, read⟩ := of_kind (of_start read)
    split at rule_eq <;> subst rule_eq
    case h_9 opens | h_8 opens => exact isIn_of_regex inside opens read
    all_goals exact Stays.isIn inside read

instance stays_callArguments : Stays text (callArguments rules) := by dsimp only [callArguments]; infer_instance
instance stays_computedKey : Stays text (computedKey rules) := by dsimp only [computedKey]; infer_instance

instance stays_namedMember (start : Nat) (access : Access) (isOptional : Bool) :
    Stays text (namedMember start access isOptional) := by
  dsimp only [namedMember]
  infer_instance

instance stays_comparesAfterAngle : Stays text comparesAfterAngle := by
  dsimp only [comparesAfterAngle]
  infer_instance

instance stays_callTypes : Stays text callTypes := by dsimp only [callTypes]; infer_instance

instance stays_optionalAccess (start : Nat) (access : Access) : Stays text (optionalAccess rules start access) := by
  dsimp only [optionalAccess]
  infer_instance

instance stays_tagged (start : Nat) (access : Access) (types : List TypeExpr) :
    Stays text (tagged rules start access types) := by
  dsimp only [tagged]
  infer_instance

instance stays_called (start : Nat) (access : Access) (types : List TypeExpr) :
    Stays text (called rules start access types) := by
  dsimp only [called]
  infer_instance

instance stays_appliedStep (start : Nat) (access : Access) : Stays text (appliedStep rules start access) := by
  refine .bind fun _ => ?_
  split
  · infer_instance
  · refine .bind fun _ => ?_
    split <;> infer_instance

instance stays_accessStep (start : Nat) (allowsCalls : Bool) (access : Access) :
    Stays text (accessStep rules start allowsCalls access) := by
  refine .bind fun _ => ?_
  split <;> infer_instance

instance stays_superclass : Stays text superclass := by dsimp only [superclass]; infer_instance

instance stays_importCall (start : Nat) (phase : Option String) : Stays text (importCall rules start phase) := by
  refine .bind fun _ => .bind fun _ => ?_
  split <;> infer_instance

instance stays_importExpression : Stays text (importExpression rules) := by
  refine .bind fun _ => .bind fun _ => .bind fun _ => ?_
  split
  · refine .bind fun _ => ?_
    split <;> infer_instance
  · infer_instance

instance stays_constructed : Stays text (constructed rules) := by
  refine .bind fun _ => .bind fun kind => ?_
  extract_lets rest
  have stays_rest : ∀ base, Stays text (rest base) := fun base => by
    dsimp only [rest]
    infer_instance
  split
  · infer_instance
  · infer_instance
  · refine .bind fun _ => ?_
    split <;> infer_instance
  · infer_instance

instance stays_construct : Stays text (construct rules) := by dsimp only [construct]; infer_instance

instance stays_leftSide : Stays text (leftSide rules) := by
  refine .bind fun _ => .bind fun _ => ?_
  extract_lets rest
  have stays_rest : ∀ base, Stays text (rest base) := fun base => by
    refine .bind fun access => ?_
    split
    · split <;> infer_instance
    · infer_instance
  split <;> infer_instance

instance stays_joinAngles : Stays text joinAngles where
  isIn {mode reading value next} inside read := by
    have read := of_atMark read
    by_cases closes : (reading.token.kind == .mark ">") = true
    · rw [if_pos closes] at read
      have read := of_get read
      cases found : [">>>=", ">>>", ">>=", ">>", ">="].find? reading.here.startsWith with
      | none =>
          rw [found] at read
          exact Stays.isIn inside read
      | some mark =>
          rw [found] at read
          have small : ∀ mark ∈ [">>>=", ">>>", ">>=", ">>", ">="],
              Text.byteLength mark.toList = mark.length ∧ mark ≠ "*" := by
            decide
          obtain ⟨small, no_star⟩ := small mark (List.mem_of_find?_eq_some found)
          have behind := Lexer.reaches_skip (List.find?_some found) small
          exact isIn_of_retake inside read behind no_star (.inr (inside.mark _ (eq_of_beq closes)))
    · rw [if_neg closes] at read
      exact Stays.isIn inside read

instance stays_atAwait : Stays text atAwait := by dsimp only [atAwait]; infer_instance
instance stays_postfixed : Stays text (postfixed rules) := by dsimp only [postfixed]; infer_instance

instance stays_unary : Stays text (unary rules) := by
  refine .bind fun _ => .bind fun _ => ?_
  split <;> infer_instance

instance stays_typedStep (start precedence : Nat) (left : Node) : Stays text (typedStep start precedence left) := by
  refine .bind fun _ => .bind fun _ => ?_
  split
  · refine .bind fun _ => ?_
    split <;> infer_instance
  · infer_instance

instance stays_binaryStep (start precedence : Nat) (leftGrouped : Bool) (left : Node) :
    Stays text (binaryStep rules start precedence leftGrouped left) := by
  refine .bind fun _ => .bind fun found => ?_
  cases found with
  | none =>
      refine .bind fun _ => .bind fun _ => ?_
      split <;> infer_instance
  | some => infer_instance

instance stays_privateIn (start : Nat) (name : String) : Stays text (privateIn rules start name) := by
  dsimp only [privateIn]
  infer_instance

instance stays_operand (precedence : Nat) : Stays text (operand rules precedence) := by
  dsimp only [operand]
  infer_instance

instance stays_atYield : Stays text atYield := by dsimp only [atYield]; infer_instance
instance stays_yielded : Stays text (yielded rules) := by dsimp only [yielded]; infer_instance

instance stays_conditionalRest (start : Nat) (test : Node) : Stays text (conditionalRest rules start test) := by
  dsimp only [conditionalRest]
  infer_instance

instance stays_plainAssignment : Stays text (plainAssignment rules) := by
  refine .bind fun _ => .bind fun _ => .bind fun _ => ?_
  split
  · infer_instance
  · refine .bind fun _ => ?_
    split <;> infer_instance

instance stays_unmarkedAssignment : Stays text (unmarkedAssignment rules) := by
  dsimp only [unmarkedAssignment]
  infer_instance

instance stays_assignment : Stays text (assignment rules) := by dsimp only [assignment]; infer_instance
instance stays_expression : Stays text (expression rules) := by dsimp only [expression]; infer_instance

/-! ## Statements -/

instance stays_definiteMark : Stays text definiteMark := by dsimp only [definiteMark]; infer_instance
instance stays_declarator : Stays text (declarator rules) := by dsimp only [declarator]; infer_instance
instance stays_peekName : Stays text peekName := by dsimp only [peekName]; infer_instance
instance stays_declaresOf : Stays text declaresOf := by dsimp only [declaresOf]; infer_instance

instance stays_variableKind (inLoopHead : Bool) : Stays text (variableKind inLoopHead) := by
  dsimp only [variableKind]
  infer_instance

instance stays_variableList (start : Nat) (kind : VariableKind) : Stays text (variableList rules start kind) := by
  dsimp only [variableList]
  infer_instance

instance stays_variableStatement (start : Nat) (kind : VariableKind) :
    Stays text (variableStatement rules start kind) := by
  dsimp only [variableStatement]
  infer_instance

instance stays_endExpression (start : Nat) (value : Node) : Stays text (endExpression start value) := by
  dsimp only [endExpression]
  infer_instance

instance stays_letStatement (start : Nat) (isSingle : Bool) : Stays text (letStatement rules start isSingle) := by
  dsimp only [letStatement]
  infer_instance

instance stays_block : Stays text (block rules) := by dsimp only [block]; infer_instance
instance stays_condition : Stays text (condition rules) := by dsimp only [condition]; infer_instance

instance stays_conditionalStatement (start : Nat) : Stays text (conditionalStatement rules start) := by
  dsimp only [conditionalStatement]
  infer_instance

instance stays_caseBody : Stays text (caseBody rules) := by dsimp only [caseBody]; infer_instance
instance stays_switchCase : Stays text (switchCase rules) := by dsimp only [switchCase]; infer_instance
instance stays_switch (start : Nat) : Stays text (switch rules start) := by dsimp only [switch]; infer_instance
instance stays_catchClause : Stays text (catchClause rules) := by dsimp only [catchClause]; infer_instance
instance stays_tryBlock (start : Nat) : Stays text (tryBlock rules start) := by dsimp only [tryBlock]; infer_instance

instance stays_forRest (start : Nat) (first : Option Node) : Stays text (forRest rules start first) := by
  dsimp only [forRest]
  infer_instance

instance stays_forInRest (start : Nat) (left : Node) : Stays text (forInRest rules start left) := by
  dsimp only [forInRest]
  infer_instance

instance stays_forOfRest (start : Nat) (isAwait : Bool) (left : Node) :
    Stays text (forOfRest rules start isAwait left) := by
  dsimp only [forOfRest]
  infer_instance

instance stays_forVariables (start : Nat) (isAwait : Bool) (left : Node) :
    Stays text (forVariables rules start isAwait left) := by
  dsimp only [forVariables]
  infer_instance

instance stays_forExpression (start : Nat) (isAwait : Bool) : Stays text (forExpression rules start isAwait) := by
  dsimp only [forExpression]
  infer_instance

instance stays_forLoop (start : Nat) : Stays text (forLoop rules start) := by dsimp only [forLoop]; infer_instance

instance stays_whileLoop (start : Nat) : Stays text (whileLoop rules start) := by
  dsimp only [whileLoop]
  infer_instance

instance stays_doWhile (start : Nat) : Stays text (doWhile rules start) := by dsimp only [doWhile]; infer_instance
instance stays_jumpLabel : Stays text jumpLabel := by dsimp only [jumpLabel]; infer_instance
instance stays_returned (start : Nat) : Stays text (returned rules start) := by dsimp only [returned]; infer_instance
instance stays_thrown (start : Nat) : Stays text (thrown rules start) := by dsimp only [thrown]; infer_instance
instance stays_typeName : Stays text typeName := by dsimp only [typeName]; infer_instance
instance stays_typeAlias (start : Nat) : Stays text (typeAlias start) := by dsimp only [typeAlias]; infer_instance

instance stays_interfaceType (start : Nat) : Stays text (interfaceType start) := by
  dsimp only [interfaceType]
  infer_instance

instance stays_enumKey : Stays text (enumKey rules) := by
  refine .bind fun (key, isComputed) => ?_
  dsimp only
  split <;> infer_instance

instance stays_enumMember : Stays text (enumMember rules) := by dsimp only [enumMember]; infer_instance

instance stays_enumeration (start : Nat) (isConst : Bool) : Stays text (enumeration rules start isConst) := by
  dsimp only [enumeration]
  infer_instance

instance stays_namespaceName (word : String) : Stays text (namespaceName word) := by
  dsimp only [namespaceName]
  infer_instance

instance stays_namespaceBody (start : Nat) (name : NamespaceName) : Stays text (namespaceBody rules start name) := by
  dsimp only [namespaceBody]
  infer_instance

instance stays_namespaceBlock (start : Nat) : Stays text (namespaceBlock? rules start) := by
  dsimp only [namespaceBlock?]
  infer_instance

instance stays_ambient (start : Nat) : Stays text (ambient rules start) := by dsimp only [ambient]; infer_instance
instance stays_typedStatement : Stays text (typedStatement rules) := by dsimp only [typedStatement]; infer_instance

instance stays_expressionStatement (start : Nat) : Stays text (expressionStatement rules start) := by
  refine .bind fun _ => ?_
  split <;> infer_instance

instance stays_functionStatement (isSingle : Bool) : Stays text (functionStatement rules isSingle) := by
  refine .bind fun _ => ?_
  split <;> infer_instance

/-- What a statement that begins with a word reads after it. -/
theorem stays_of_wordStatement {start : Nat} {word : String} {rule : Parse Node}
    (found : wordStatement rules start word = some rule) : Stays text rule := by
  unfold wordStatement at found
  split at found <;> cases found <;> infer_instance

instance stays_plainStatement (isSingle : Bool) : Stays text (plainStatement rules isSingle) := by
  refine .bind fun _ => .bind fun found => ?_
  cases found with
  | some => infer_instance
  | none =>
      refine .bind fun _ => ?_
      split
      · infer_instance
      · infer_instance
      · split
        · exact stays_of_wordStatement (by assumption)
        · infer_instance
      · infer_instance

/-! ## Modules -/

instance stays_exportedName : Stays text exportedName := by dsimp only [exportedName]; infer_instance
instance stays_importAttributes : Stays text importAttributes := by dsimp only [importAttributes]; infer_instance
instance stays_moduleName : Stays text moduleName := by dsimp only [moduleName]; infer_instance
instance stays_typeModifier : Stays text typeModifier := by dsimp only [typeModifier]; infer_instance

instance stays_importNamed : Stays text importNamed := by
  refine .bind fun _ => .bind fun _ => .bind fun _ => .bind fun imported => .bind fun _ => ?_
  cases imported <;> infer_instance

instance stays_importNamespace : Stays text importNamespace := by dsimp only [importNamespace]; infer_instance
instance stays_importList : Stays text importList := by dsimp only [importList]; infer_instance
instance stays_importClause : Stays text importClause := by dsimp only [importClause]; infer_instance
instance stays_importPhase : Stays text importPhase := by dsimp only [importPhase]; infer_instance
instance stays_importsTypes : Stays text importsTypes := by dsimp only [importsTypes]; infer_instance
instance stays_aliasSource : Stays text aliasSource := by dsimp only [aliasSource]; infer_instance

instance stays_importAlias (start : Nat) : Stays text (importAlias start) := by
  dsimp only [importAlias]
  infer_instance

instance stays_importFrom (start : Nat) : Stays text (importFrom start) := by dsimp only [importFrom]; infer_instance
instance stays_importStatement : Stays text importStatement := by dsimp only [importStatement]; infer_instance
instance stays_placedName : Stays text placedName := by dsimp only [placedName]; infer_instance
instance stays_exportSpecifier : Stays text exportSpecifier := by dsimp only [exportSpecifier]; infer_instance

instance stays_exportList (start : Nat) (isTypeOnly : Bool) : Stays text (exportList start isTypeOnly) := by
  dsimp only [exportList]
  infer_instance

instance stays_exportAll (start : Nat) (isTypeOnly : Bool) : Stays text (exportAll start isTypeOnly) := by
  dsimp only [exportAll]
  infer_instance

instance stays_defaultValue (decorators : List Node) : Stays text (defaultValue rules decorators) := by
  dsimp only [defaultValue]
  infer_instance

instance stays_exportDefault (start : Nat) (decorators : List Node) :
    Stays text (exportDefault rules start decorators) := by
  dsimp only [exportDefault]
  infer_instance

instance stays_exportedDeclaration (start : Nat) (decorators : List Node) :
    Stays text (exportedDeclaration rules start decorators) := by
  dsimp only [exportedDeclaration]
  infer_instance

instance stays_typedExport (start : Nat) : Stays text (typedExport? rules start) := by
  dsimp only [typedExport?]
  infer_instance

instance stays_exportStatement (decorators : List Node) : Stays text (exportStatement rules decorators) := by
  refine .bind fun _ => .bind fun _ => .bind fun _ => ?_
  split <;> infer_instance

instance stays_decoratedStatement (isSingle : Bool) : Stays text (decoratedStatement rules isSingle) := by
  dsimp only [decoratedStatement]
  infer_instance

instance stays_unmarkedStatement (isSingle : Bool) : Stays text (unmarkedStatement rules isSingle) := by
  refine .bind fun _ => ?_
  split <;> infer_instance

instance stays_statement (isSingle : Bool) : Stays text (statement rules isSingle) := by
  dsimp only [statement]
  infer_instance

/-! ## All rules -/

instance stays_step (goal : Goal) : Stays text (step rules goal) := by
  cases goal <;> dsimp only [step] <;> infer_instance

instance stays_rules (depth : Nat) (goal : Goal) : Stays text (Grammar.rules depth goal) := by
  induction depth generalizing goal with
  | zero => exact stays_failure
  | succ depth ih => exact stays_step goal

end

end Grammar

end Storyboard
