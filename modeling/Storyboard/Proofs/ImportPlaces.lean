import Storyboard.Extraction.Extract
import Storyboard.Proofs.ImportReading
import Storyboard.Proofs.RuleRanges

/-!
# Where imports are read

The other rules for statements never give an import. So every import among the statements of a module was read by the
rule for imports, at a place in the source of the module.
-/

namespace Storyboard

namespace Grammar

/-- Whether a form is that of an import. -/
@[reducible]
def isImport : Form Node → Bool
  | .importFrom _ _ _ => true
  | _ => false

/-- A condition does not hold. -/
class IsFalse (condition : Bool) : Prop where
  /-- It is false. -/
  eq : condition = false

instance isFalse_false : IsFalse false := ⟨rfl⟩

/-- The nodes of a rule are no imports. -/
class ReadsOther (rule : Parse Node) : Prop where
  /-- What was read is no import. -/
  other : ∀ {mode reading node next}, rule mode reading = some (node, next) → isImport node.form = false

/-! ## Ways to build rules -/

instance readsOther_failure : ReadsOther failure where
  other read := nomatch read

instance readsOther_close {start : Nat} {form : Form Node} [no_import : IsFalse (isImport form)] :
    ReadsOther (close start form) where
  other read := by
    cases read
    exact no_import.eq

instance readsOther_bind {α : Type} {rule : Parse α} {next : α → Parse Node} [∀ value, ReadsOther (next value)] :
    ReadsOther (rule >>= next) where
  other read := by
    obtain ⟨_, _, -, read⟩ := exists_of_bind read
    exact ReadsOther.other read

theorem ReadsOther.bind {α : Type} {rule : Parse α} {next : α → Parse Node}
    (second : ∀ value, ReadsOther (next value)) :
    ReadsOther (rule >>= next) :=
  inferInstance

/-- What is done with an optional result depends on whether there is one. -/
instance (priority := low) readsOther_bind_option {α : Type} {rule : Parse (Option α)} {next : Option α → Parse Node}
    [ReadsOther (next none)] [∀ value, ReadsOther (next (some value))] : ReadsOther (rule >>= next) :=
  .bind fun found => by cases found <;> infer_instance

instance readsOther_ite {condition : Prop} [Decidable condition]
    {yes no : Parse Node} [ReadsOther yes] [ReadsOther no] :
    ReadsOther (if condition then yes else no) := by
  split <;> assumption

instance readsOther_withReader {change : Mode → Mode} {rule : Parse Node} [inner : ReadsOther rule] :
    ReadsOther (withReader change rule) where
  other read := inner.other read

/-! ## Other statements -/

section

-- What shows that a rule reads no import grows with the rule.
set_option synthInstance.maxSize 3000

variable {rules : Rules} {start : Nat}

instance readsOther_endExpression (value : Node) : ReadsOther (endExpression start value) := by
  dsimp only [endExpression]
  infer_instance

instance readsOther_variableList (kind : VariableKind) : ReadsOther (variableList rules start kind) := by
  dsimp only [variableList]
  infer_instance

instance readsOther_variableStatement (kind : VariableKind) : ReadsOther (variableStatement rules start kind) where
  other read := by
    obtain ⟨node, between, listed, read⟩ := exists_of_bind read
    have : IsFalse (isImport node.form) := ⟨ReadsOther.other listed⟩
    exact ReadsOther.other read

instance readsOther_letStatement (isSingle : Bool) : ReadsOther (letStatement rules start isSingle) := by
  dsimp only [letStatement]
  infer_instance

instance readsOther_conditionalStatement : ReadsOther (conditionalStatement rules start) := by
  dsimp only [conditionalStatement]
  infer_instance

instance readsOther_block : ReadsOther (block rules) := by dsimp only [block]; infer_instance
instance readsOther_switch : ReadsOther (switch rules start) := by dsimp only [switch]; infer_instance
instance readsOther_tryBlock : ReadsOther (tryBlock rules start) := by dsimp only [tryBlock]; infer_instance

instance readsOther_forRest (first : Option Node) : ReadsOther (forRest rules start first) := by
  dsimp only [forRest]
  infer_instance

instance readsOther_forInRest (left : Node) : ReadsOther (forInRest rules start left) := by
  dsimp only [forInRest]
  infer_instance

instance readsOther_forOfRest (isAwait : Bool) (left : Node) : ReadsOther (forOfRest rules start isAwait left) := by
  dsimp only [forOfRest]
  infer_instance

instance readsOther_forVariables (isAwait : Bool) (left : Node) :
    ReadsOther (forVariables rules start isAwait left) := by
  dsimp only [forVariables]
  infer_instance

instance readsOther_forExpression (isAwait : Bool) : ReadsOther (forExpression rules start isAwait) := by
  dsimp only [forExpression]
  infer_instance

instance readsOther_forLoop : ReadsOther (forLoop rules start) := by dsimp only [forLoop]; infer_instance
instance readsOther_whileLoop : ReadsOther (whileLoop rules start) := by dsimp only [whileLoop]; infer_instance
instance readsOther_doWhile : ReadsOther (doWhile rules start) := by dsimp only [doWhile]; infer_instance
instance readsOther_returned : ReadsOther (returned rules start) := by dsimp only [returned]; infer_instance
instance readsOther_thrown : ReadsOther (thrown rules start) := by dsimp only [thrown]; infer_instance

instance readsOther_classRest (decorators : List Node) (role : Role) :
    ReadsOther (classRest rules start decorators role) := by
  dsimp only [classRest]
  infer_instance

instance readsOther_classNode (role : Role) : ReadsOther (classNode rules role) := by
  dsimp only [classNode]
  infer_instance

instance readsOther_functionStatement (isSingle : Bool) : ReadsOther (functionStatement rules isSingle) := by
  refine .bind fun node => ?_
  split
  · rename_i form_eq
    constructor
    intro mode reading value next read
    obtain ⟨-, read⟩ := of_ensure read
    cases read
    rw [form_eq]
  · infer_instance

instance readsOther_expressionStatement : ReadsOther (expressionStatement rules start) := by
  refine .bind fun _ => ?_
  split <;> infer_instance

theorem readsOther_of_wordStatement {word : String} {rule : Parse Node}
    (found : wordStatement rules start word = some rule) : ReadsOther rule := by
  unfold wordStatement at found
  split at found <;> cases found <;> infer_instance

/-- Without types no statement is about types. -/
theorem typedStatement_eq {mode : Mode} (no_types : mode.hasTypes = false) (reading : Reading) :
    typedStatement rules mode reading = some (none, reading) := by
  have untyped : typedStatement rules mode reading =
      (if mode.hasTypes = true then _ else pure none : Parse (Option Node)) mode reading := rfl
  rw [untyped, if_neg (by rw [no_types]; decide)]
  rfl

theorem typedExport?_eq {mode : Mode} (no_types : mode.hasTypes = false) (reading : Reading) :
    typedExport? rules start mode reading = some (none, reading) := by
  have untyped : typedExport? rules start mode reading =
      (if (!mode.hasTypes) = true then pure none else _ : Parse (Option Node)) mode reading := rfl
  rw [untyped, if_pos (by rw [no_types]; decide)]
  rfl

end

section

set_option synthInstance.maxSize 3000

variable {rules : Rules} {mode : Mode} {reading next : Reading} {node : Node}

theorem isImport_of_plainStatement (no_types : mode.hasTypes = false) {isSingle : Bool}
    (read : plainStatement rules isSingle mode reading = some (node, next)) : isImport node.form = false := by
  obtain ⟨found, between, typed, read⟩ := exists_of_bind (of_start read)
  rw [typedStatement_eq no_types] at typed
  cases typed
  obtain ⟨rule, rule_eq, read⟩ := of_kind read
  suffices other : ReadsOther rule from other.other read
  split at rule_eq
  · rw [← rule_eq]
    infer_instance
  · rw [← rule_eq]
    infer_instance
  · split at rule_eq
    · rw [← rule_eq]
      exact readsOther_of_wordStatement (by assumption)
    · rw [← rule_eq]
      infer_instance
  · rw [← rule_eq]
    infer_instance

/-! ## Exports -/

instance readsOther_exportList (start : Nat) (isTypeOnly : Bool) : ReadsOther (exportList start isTypeOnly) := by
  dsimp only [exportList]
  infer_instance

instance readsOther_exportAll (start : Nat) (isTypeOnly : Bool) : ReadsOther (exportAll start isTypeOnly) := by
  dsimp only [exportAll]
  infer_instance

instance readsOther_exportDefault (start : Nat) (decorators : List Node) :
    ReadsOther (exportDefault rules start decorators) := by
  dsimp only [exportDefault]
  infer_instance

instance readsOther_exportedDeclaration (start : Nat) (decorators : List Node) :
    ReadsOther (exportedDeclaration rules start decorators) := by
  dsimp only [exportedDeclaration]
  infer_instance

theorem isImport_of_exportStatement (no_types : mode.hasTypes = false) {decorators : List Node}
    (read : exportStatement rules decorators mode reading = some (node, next)) : isImport node.form = false := by
  obtain ⟨_, between, -, read⟩ := exists_of_bind (of_start read)
  obtain ⟨rule, rule_eq, read⟩ := of_kind read
  split at rule_eq
  case h_4 =>
    rw [← rule_eq] at read
    obtain ⟨found, _, typed, read⟩ := exists_of_bind read
    rw [typedExport?_eq no_types] at typed
    cases typed
    exact ReadsOther.other read
  all_goals
    rw [← rule_eq] at read
    exact ReadsOther.other read

theorem isImport_of_decoratedStatement (no_types : mode.hasTypes = false) {isSingle : Bool}
    (read : decoratedStatement rules isSingle mode reading = some (node, next)) : isImport node.form = false := by
  obtain ⟨decorators, between, -, read⟩ := exists_of_bind (of_start read)
  obtain ⟨exports, between, -, read⟩ := exists_of_bind read
  cases exports with
  | true => exact isImport_of_exportStatement no_types read
  | false =>
      rw [if_neg Bool.false_ne_true] at read
      exact ReadsOther.other read

/-! ## Imports -/

theorem lookAhead_eq {α : Type} (rule : Parse α) (mode : Mode) (reading : Reading) :
    ∃ found, lookAhead rule mode reading = some (found, reading) := by
  rw [lookAhead]
  split
  · exact ⟨_, rfl⟩
  · exact ⟨_, rfl⟩

theorem peekIs_eq (condition : Token → Bool) (mode : Mode) (reading : Reading) :
    ∃ holds, peekIs condition mode reading = some (holds, reading) := by
  obtain ⟨found, peeked⟩ : ∃ found, peek mode reading = some (found, reading) := lookAhead_eq _ mode reading
  have mapped : peekIs condition mode reading =
      (peek mode reading).bind fun (found, between) => some ((found.map condition).getD false, between) := rfl
  exact ⟨_, by rw [mapped, peeked]; rfl⟩

theorem importStatement_of_unmarkedStatement (no_types : mode.hasTypes = false) {isSingle : Bool}
    (read : unmarkedStatement rules isSingle mode reading = some (node, next)) (is_import : isImport node.form = true) :
    importStatement mode reading = some (node, next) := by
  obtain ⟨rule, rule_eq, read⟩ := of_kind read
  split at rule_eq
  all_goals rw [← rule_eq] at read
  · obtain ⟨calls, between, peeked, read⟩ := exists_of_bind read
    obtain ⟨_, peeked'⟩ := peekIs_eq (fun t => t.kind == .mark "(" || t.kind == .mark ".") mode reading
    cases peeked.symm.trans peeked'
    cases calls with
    | true => simp [isImport_of_plainStatement no_types read] at is_import
    | false => exact read
  · simp [isImport_of_exportStatement no_types read] at is_import
  · simp [isImport_of_decoratedStatement no_types read] at is_import
  · simp [isImport_of_plainStatement no_types read] at is_import

/-- A promise about a statement makes no import of it, and leaves an import as it is. -/
theorem promiseStatement_of_isImport (is_import : isImport (promiseStatement node).form = true) :
    promiseStatement node = node := by
  unfold promiseStatement at is_import ⊢
  split at is_import
  · cases is_import
  · cases is_import
  · unfold promiseDeclared at is_import ⊢
    split at is_import
    · cases is_import
    · rename_i form_eq
      rw [promiseHarmless, form_eq] at is_import
      cases is_import
    · rfl

theorem importStatement_of_statement (no_types : mode.hasTypes = false) {isSingle : Bool}
    (read : statement rules isSingle mode reading = some (node, next)) (is_import : isImport node.form = true) :
    importStatement mode reading = some (node, next) := by
  obtain ⟨token, between, same, read⟩ := exists_of_bind read
  cases same
  obtain ⟨found, between, unmarked, read⟩ := exists_of_bind read
  cases read
  have same : (if reading.token.promises.contains .noSideEffects then promiseStatement found else found) = found := by
    split at is_import
    · rw [promiseStatement_of_isImport is_import]
      exact ite_self _
    · rename_i no_promise
      exact if_neg no_promise
  rw [same] at is_import ⊢
  exact importStatement_of_unmarkedStatement no_types unmarked is_import

theorem importStatement_of_rules (no_types : mode.hasTypes = false) {depth : Nat} {isSingle : Bool}
    (read : Grammar.rules depth (.statement isSingle) mode reading = some (node, next))
    (is_import : isImport node.form = true) : importStatement mode reading = some (node, next) := by
  cases depth with
  | zero => cases read
  | succ depth => exact importStatement_of_statement no_types read is_import

end

/-! ## Sources -/

/-- An import is read at a place in a text. -/
def IsImportIn (text : List Char) (node : Node) : Prop :=
  ∃ mode reading next, Mode.IsOfModule mode ∧ reading.IsIn text ∧ importStatement mode reading = some (node, next)

section

variable {text : List Char} {mode : Mode} {depth : Nat} {reading next : Reading}

theorem isImportIn_of_rules {node : Node} (ofModule : mode.IsOfModule) (inside : reading.IsIn text)
    (read : rules depth (.statement false) mode reading = some (node, next)) (is_import : isImport node.form = true) :
    IsImportIn text node :=
  ⟨mode, reading, next, ofModule, inside, importStatement_of_rules ofModule.no_types read is_import⟩

theorem isImportIn_of_prologueStatement {node : Node} (ofModule : mode.IsOfModule) (inside : reading.IsIn text)
    (read : prologueStatement (rules depth) mode reading = some (node, next)) (is_import : isImport node.form = true) :
    IsImportIn text node := by
  obtain ⟨rule, rule_eq, read⟩ := of_kind read
  split at rule_eq
  all_goals rw [← rule_eq] at read
  · obtain ⟨raw, between, quoted, read⟩ := exists_of_bind read
    obtain ⟨statement, last, statement_read, read⟩ := exists_of_bind read
    obtain ⟨rule, rule_eq, read⟩ := of_rule read
    split at rule_eq
    all_goals
      rw [← rule_eq] at read
      cases read
    · cases is_import
    · exact isImportIn_of_rules ofModule (Stays.isIn inside quoted) statement_read is_import
  · exact isImportIn_of_rules ofModule inside read is_import

/-- Every import among the statements of a source was read in the source. -/
theorem isImportIn_of_statementsUpTo {closing : TokenKind} {limit : Nat} {isPrologue : Bool} {body : List Node}
    (ofModule : mode.IsOfModule) (inside : reading.IsIn text)
    (read : statementsUpTo (rules depth) closing limit isPrologue mode reading = some (body, next)) :
    ∀ node ∈ body, isImport node.form = true → IsImportIn text node := by
  induction limit generalizing isPrologue reading body with
  | zero => cases read
  | succ limit ih =>
      obtain ⟨rule, rule_eq, read⟩ := of_kind read
      split at rule_eq
      · rw [← rule_eq] at read
        cases read
        exact fun node member => nomatch member
      · rw [← rule_eq] at read
        have goes_on : ∀ {statement between}, between.IsIn text →
            (isImport statement.form = true → IsImportIn text statement) →
            (do
              let others ← statementsUpTo (rules depth) closing limit (isPrologue && isDirective statement)
              return statement :: others) mode between = some (body, next) →
            ∀ node ∈ body, isImport node.form = true → IsImportIn text node := by
          intro statement between inside' first read
          obtain ⟨others, last, read, same⟩ := exists_of_bind read
          cases same
          rintro node (_ | ⟨_, member⟩) is_import
          · exact first is_import
          · exact ih inside' read node member is_import
        cases isPrologue with
        | true =>
            obtain ⟨statement, between, first, read⟩ := exists_of_bind read
            exact goes_on (Stays.isIn inside first) (isImportIn_of_prologueStatement ofModule inside first) read
        | false =>
            obtain ⟨statement, between, first, read⟩ := exists_of_bind read
            exact goes_on (Stays.isIn inside first) (isImportIn_of_rules ofModule inside first) read

end

end Grammar

open Grammar

theorem SourceModule.reaches_afterInterpreterLine (text : List Char) :
    Cursor.Reaches ⟨text, 0⟩ (afterInterpreterLine text) := by
  unfold afterInterpreterLine
  split
  · exact Lexer.reaches_takeWhile _ _ _
  · exact .refl _

/-- Every import of a module was read in its source. -/
theorem SourceModule.isImportIn_of_parse? {dialect : Dialect} (no_types : dialect.hasTypes = false) {text : String}
    {module : SourceModule} (read : SourceModule.parse? dialect text = some module) :
    ∀ node ∈ module.program.children, isImport node.form = true → IsImportIn text.toList node := by
  obtain ⟨⟨token, here, after⟩, first, read⟩ := Option.bind_eq_some_iff.mp read
  obtain ⟨⟨body, last⟩, statements, read⟩ := Option.bind_eq_some_iff.mp read
  dsimp only at read
  split at read
  · cases read
    refine isImportIn_of_statementsUpTo ⟨no_types, rfl, rfl⟩ ?_ statements
    exact Reading.isIn_of_next? (reaches_afterInterpreterLine _) first
  · cases read

end Storyboard
