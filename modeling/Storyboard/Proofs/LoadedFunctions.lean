import Storyboard.Loader
import Storyboard.Proofs.OutermostEdits
import Storyboard.Proofs.SlotContents
import Storyboard.Proofs.UnnamedFunctions

/-!
# Functions as bare code

A function that is loaded keeps the statements of its module, in their order, except that imports are gone and that what
is exported by default stands for itself. All of these are statements with one exception: a function may be exported by
default without a name, but a statement can not be without one. So what is loaded is read again exactly if no such
function is exported, and then nothing of it is imported and nothing is exported by default.
-/

namespace Storyboard

namespace Node

/-- How a statement of a module stands as bare code, if it does. -/
inductive BareAs : Node → Option Node → Prop
  /-- Imports are dropped. -/
  | imported {span : Span} {head : ImportHead} {specifiers : List Node} {source : ModuleName} :
    BareAs (.mk span (.importFrom head specifiers source)) none
  /-- An expression that is exported by default is a statement of its own. -/
  | value {span : Span} {value : Node} (expression : value.form.isExpression = true) :
    BareAs (.mk span (.exportDefault value)) (some (.mk span (.expressionStatement value)))
  /-- A function that is exported by default is declared. -/
  | function {span inner : Span} {head : FunctionHead} {name : Option Node} {parameters : List Node} {body : Option Node}
    (declared : head.role = .declaration) :
    BareAs (.mk span (.exportDefault (.mk inner (.function head name parameters body))))
      (some (.mk inner (.function head name parameters body)))
  /-- A class that is exported by default is declared. -/
  | class_ {span inner : Span} {head : ClassHead} {decorators members : List Node} {name heritage : Option Node}
    (declared : head.role = .declaration) :
    BareAs (.mk span (.exportDefault (.mk inner (.classOf head decorators name heritage members))))
      (some (.mk inner (.classOf head decorators name heritage members)))
  /-- A type that is exported by default is dropped. -/
  | type_ {span inner : Span} {declared : TypeDeclaration} :
    BareAs (.mk span (.exportDefault (.mk inner (.typeDeclaration declared)))) none
  /-- All others stay. -/
  | other {statement : Node} (no_import : statement.statementKind ≠ .importFrom)
    (no_default : statement.statementKind ≠ .exportDefault) : BareAs statement (some statement)

theorem exists_of_importFrom {node : Node} (kind_eq : node.statementKind = .importFrom) :
    ∃ head specifiers source, node.form = .importFrom head specifiers source := by
  unfold statementKind at kind_eq
  split at kind_eq
  · exact ⟨_, _, _, ‹_›⟩
  all_goals cases kind_eq

theorem exists_of_exportDefault {node : Node} (kind_eq : node.statementKind = .exportDefault) :
    ∃ value, node.form = .exportDefault value := by
  unfold statementKind at kind_eq
  split at kind_eq
  case h_2 => exact ⟨_, ‹_›⟩
  all_goals cases kind_eq

/-- Whether a statement exports a function without a name by default. -/
def exportsUnnamed (statement : Node) : Bool :=
  match statement.form with
  | .exportDefault value => value.form.isUnnamedFunction
  | _ => false

theorem statementKind_of_exportsUnnamed {node : Node} (exports : node.exportsUnnamed = true) :
    node.statementKind = .exportDefault := by
  unfold exportsUnnamed at exports
  split at exports
  · rename_i form_eq
    rw [statementKind, form_eq]
  · cases exports

theorem statementKind_of_expressionStatement {span : Span} {value : Node} :
    (Node.mk span (.expressionStatement value)).statementKind ≠ .importFrom ∧
      (Node.mk span (.expressionStatement value)).statementKind ≠ .exportDefault := by
  obtain ⟨inner, form⟩ := value
  cases form <;> exact ⟨StatementKind.noConfusion, StatementKind.noConfusion⟩

end Node

theorem Form.isUnnamedFunction_of_isExpression {α : Type} {form : Form α} (expression : form.isExpression = true) :
    form.isUnnamedFunction = false := by
  cases form with
  | function head name parameters body =>
      have role : head.role = .expression := eq_of_beq expression
      simp [isUnnamedFunction, role]
  | _ => rfl

theorem Form.isUnnamedFunction_of_isStatement {form : Form Node} (placed : form.isStatement = true) :
    form.isUnnamedFunction = false := by
  cases form with
  | function head name parameters body =>
      simp only [isStatement, Bool.and_eq_true, Bool.not_eq_true'] at placed
      exact placed.2
  | _ => rfl

namespace Loader

/-! ## Bare statements -/

theorem bareStatement?_of_other {node : Node} (no_import : node.statementKind ≠ .importFrom)
    (no_default : node.statementKind ≠ .exportDefault) : bareStatement? node = some node := by
  unfold bareStatement?
  split
  · rename_i form_eq
    exact absurd (by rw [Node.statementKind, form_eq]) no_import
  · rename_i form_eq
    exact absurd (by rw [Node.statementKind, form_eq]) no_default
  · rfl

theorem bareStatement?_of_directive {node : Node} (directive : Grammar.isDirective node = true) :
    bareStatement? node = some node := by
  have kind_eq := Node.isDirective_iff.mp directive
  exact bareStatement?_of_other (by rw [kind_eq]; exact StatementKind.noConfusion)
    (by rw [kind_eq]; exact StatementKind.noConfusion)

/-- What is exported by default stands for itself, or else it is a type. -/
theorem bareAs_bareExport? {span : Span} {value : Node} (default : value.form.isDefaultValue = true) :
    (Node.mk span (.exportDefault value)).BareAs (bareExport? span value) := by
  unfold bareExport?
  by_cases expression : value.form.isExpression = true
  · rw [if_pos expression]
    exact .value expression
  · rw [if_neg expression]
    obtain ⟨inner, form⟩ := value
    cases form with
    | function head name parameters body =>
        refine .function ?_
        revert default expression
        simp only [Node.form, Form.isDefaultValue, Form.isExpression]
        cases head.role <;> decide
    | classOf head decorators name heritage members =>
        refine .class_ ?_
        revert default expression
        simp only [Node.form, Form.isDefaultValue, Form.isExpression]
        cases head.role <;> decide
    | typeDeclaration declared => exact .type_
    | _ => exact absurd default expression

theorem bareAs_bareStatement? {node : Node}
    (placed : Grammar.isDirective node = true ∨ node.form.isStatement = true) : node.BareAs (bareStatement? node) := by
  by_cases imports : node.statementKind = .importFrom
  · obtain ⟨head, specifiers, source, form_eq⟩ := Node.exists_of_importFrom imports
    obtain ⟨span, form⟩ := node
    obtain rfl : form = _ := form_eq
    exact .imported
  by_cases exports : node.statementKind = .exportDefault
  · obtain ⟨value, form_eq⟩ := Node.exists_of_exportDefault exports
    obtain ⟨span, form⟩ := node
    obtain rfl : form = _ := form_eq
    exact bareAs_bareExport? (placed.resolve_left Bool.false_ne_true)
  · rw [bareStatement?_of_other imports exports]
    exact .other imports exports

/-- As bare code a statement is a statement, or else a function without a name that is exported by default. -/
theorem isStatement_of_bareStatement? {node kept : Node} (placed : node.form.isStatement = true)
    (bare : bareStatement? node = some kept) :
    kept.form.isStatement = true ∧ node.exportsUnnamed = false ∨
      kept.form.isUnnamedFunction = true ∧ node.exportsUnnamed = true := by
  have known := bareAs_bareStatement? (.inr placed)
  rw [bare] at known
  cases known with
  | value expression =>
      exact .inl ⟨expression, Form.isUnnamedFunction_of_isExpression expression⟩
  | @function span inner head name parameters body declared =>
      have exports : (Node.mk span (.exportDefault (.mk inner (.function head name parameters body)))).exportsUnnamed =
        (Form.function head name parameters body).isUnnamedFunction := rfl
      rw [exports]
      cases unnamed : (Form.function head name parameters body : Form Node).isUnnamedFunction with
      | true => exact .inr ⟨unnamed, rfl⟩
      | false => exact .inl ⟨by simp [Node.form, Form.isStatement, declared, unnamed], rfl⟩
  | class_ declared => exact .inl ⟨by simp [Node.form, Form.isStatement, declared], rfl⟩
  | other no_import no_default =>
      refine .inl ⟨placed, ?_⟩
      unfold Node.exportsUnnamed
      split
      · rename_i form_eq
        exact absurd (by rw [Node.statementKind, form_eq]) no_default
      · rfl

theorem statementKind_of_bareStatement? {node kept : Node}
    (placed : Grammar.isDirective node = true ∨ node.form.isStatement = true) (bare : bareStatement? node = some kept) :
    kept.statementKind ≠ .importFrom ∧ kept.statementKind ≠ .exportDefault := by
  have known := bareAs_bareStatement? placed
  rw [bare] at known
  cases known with
  | value expression => exact Node.statementKind_of_expressionStatement
  | function | class_ => exact ⟨StatementKind.noConfusion, StatementKind.noConfusion⟩
  | other no_import no_default => exact ⟨no_import, no_default⟩

theorem exists_of_exportsUnnamed {node : Node} (exports : node.exportsUnnamed = true) :
    ∃ kept, bareStatement? node = some kept ∧ kept.form.isUnnamedFunction = true := by
  obtain ⟨span, form⟩ := node
  cases form with
  | exportDefault value =>
      obtain ⟨inner, form⟩ := value
      cases form with
      | function head name parameters body =>
          have no_expression : (Form.function head name parameters body : Form Node).isExpression ≠ true := by
            intro expression
            have named := Form.isUnnamedFunction_of_isExpression expression
            rw [show (Form.function head name parameters body : Form Node).isUnnamedFunction = true from exports] at named
            cases named
          exact ⟨_, if_neg no_expression, exports⟩
      | _ => cases exports
  | _ => cases exports

theorem is_placed_of_parse? {dialect : Dialect} {text : String} {module : SourceModule}
    (parsed : SourceModule.parse? dialect text = some module) :
    ∀ node ∈ module.program.children, Grammar.isDirective node = true ∨ node.form.isStatement = true := by
  obtain ⟨directives, statements, children_eq, directive, placed⟩ := SourceModule.exists_statements_of_parse? parsed
  intro node member
  rw [children_eq] at member
  exact (List.mem_append.mp member).imp (directive node) (placed node)

/-- Bare code consists of the directives of the module and of statements and functions without a name behind them. -/
theorem exists_of_bareStatements {dialect : Dialect} {text : String} {module : SourceModule}
    (parsed : SourceModule.parse? dialect text = some module) :
    ∃ directives statements, bareStatements module.program = directives ++ statements ∧
      (∀ node ∈ directives, Grammar.isDirective node = true) ∧
      (∀ node ∈ statements, node.form.isStatement = true ∨ node.form.isUnnamedFunction = true) ∧
      (directives ≠ [] ↔ ∃ node ∈ module.program.children, Grammar.isDirective node = true) ∧
      ((∃ node ∈ statements, node.form.isUnnamedFunction = true) ↔
        ∃ node ∈ module.program.children, node.exportsUnnamed = true) := by
  obtain ⟨directives, statements, children_eq, directive, placed⟩ := SourceModule.exists_statements_of_parse? parsed
  have kept : directives.filterMap bareStatement? = directives := by
    rw [List.filterMap_congr fun node member => bareStatement?_of_directive (directive node member), List.filterMap_some]
  refine ⟨directives, statements.filterMap bareStatement?, ?_, directive, ?_, ?_, ?_⟩
  · rw [bareStatements, children_eq, List.filterMap_append, kept]
  · intro node member
    obtain ⟨original, member, bare⟩ := List.mem_filterMap.mp member
    exact (isStatement_of_bareStatement? (placed _ member) bare).imp And.left And.left
  · rw [children_eq]
    constructor
    · intro some_directive
      obtain ⟨node, member⟩ := List.exists_mem_of_ne_nil directives some_directive
      exact ⟨node, List.mem_append_left _ member, directive node member⟩
    · rintro ⟨node, member, is_directive⟩ rfl
      rw [List.nil_append] at member
      rw [Grammar.isDirective_eq_false (placed node member)] at is_directive
      cases is_directive
  · rw [children_eq]
    constructor
    · rintro ⟨node, member, unnamed⟩
      obtain ⟨original, member, bare⟩ := List.mem_filterMap.mp member
      rcases isStatement_of_bareStatement? (placed _ member) bare with ⟨is_statement, -⟩ | ⟨-, exports⟩
      · rw [Form.isUnnamedFunction_of_isStatement is_statement] at unnamed
        cases unnamed
      · exact ⟨original, List.mem_append_right _ member, exports⟩
    · rintro ⟨node, member, exports⟩
      obtain ⟨kept, bare, unnamed⟩ := exists_of_exportsUnnamed exports
      rcases List.mem_append.mp member with member | member
      · have kind_eq := Node.isDirective_iff.mp (directive _ member)
        rw [Node.statementKind_of_exportsUnnamed exports] at kind_eq
        cases kind_eq
      · exact ⟨kept, List.mem_filterMap.mpr ⟨node, member, bare⟩, unnamed⟩

/-! ## Files of functions -/

/-- Whether the file of a function is one with types that takes the place of another one. -/
def isTyped (disk : Disk) (url base : String) : Bool :=
  !disk.has (resolve url base) && disk.has (typedPath (resolve url base))

/-- The path of the file of a function. -/
def functionPath (disk : Disk) (url base : String) : String :=
  if isTyped disk url base then typedPath (resolve url base) else resolve url base

/-- The dialect in which the file of a function is read. -/
def functionDialect (disk : Disk) (url base : String) : Dialect := { hasTypes := isTyped disk url base }

theorem eq_ok_of_mapError {ε ε' α : Type} {change : ε → ε'} {result : Except ε α} {value : α}
    (given : result.mapError change = .ok value) : result = .ok value := by
  cases result with
  | error error => cases given
  | ok value =>
      cases given
      rfl

theorem exists_of_bareCode {source : SourceText} {dialect : Dialect} {written : String}
    (bare : bareCode source dialect = .ok written) :
    ∃ module, SourceModule.parse? dialect source.text = some module ∧
      written = module.print source.text (bareStatements module.program) := by
  obtain ⟨module, parsed, same⟩ := exists_of_bind_eq_ok bare
  cases same
  refine ⟨module, ?_, rfl⟩
  unfold SourceText.parse at parsed
  split at parsed
  · cases parsed
    assumption
  · cases parsed

theorem exists_of_loadFunction {disk : Disk} {url base : String} {resource : FunctionResource}
    (loaded : loadFunction disk url base = .ok resource) :
    ∃ text module, readText disk (functionPath disk url base) = .ok text ∧
      SourceModule.parse? (functionDialect disk url base) text = some module ∧
      resource = {
        name := functionName (functionPath disk url base)
        isTyped := if isTyped disk url base then some true else none
        source := module.print text (bareStatements module.program) } := by
  obtain ⟨text, read, loaded⟩ := exists_of_bind_eq_ok loaded
  obtain ⟨written, bare, same⟩ := exists_of_bind_eq_ok loaded
  cases same
  obtain ⟨module, parsed, rfl⟩ := exists_of_bareCode (eq_ok_of_mapError bare)
  exact ⟨text, module, read, parsed, rfl⟩

end Loader

/-! ## An empty class -/

namespace Grammar

/-- The form of a declared class without a name and without members. -/
def emptyClass : Form Node := .classOf { role := .declaration } [] none none []

section

variable {mode : Mode} {reading next : Reading} {rules : Rules}

theorem eatMark_of_eq {mark : String} (there : reading.token.kind = .mark mark)
    (moved : advance mode reading = some ((), next)) : eatMark mark mode reading = some (true, next) := by
  have atMark_eq : atMark mark mode reading = some (reading.token.kind == .mark mark, reading) := rfl
  rw [eatMark, bind_eq_of_eq_some atMark_eq, if_pos (beq_iff_eq.mpr there), bind_eq_of_eq_some moved]
  rfl

theorem eatMark_of_ne {mark : String} (other : reading.token.kind ≠ .mark mark) :
    eatMark mark mode reading = some (false, reading) := by
  have atMark_eq : atMark mark mode reading = some (reading.token.kind == .mark mark, reading) := rfl
  rw [eatMark, bind_eq_of_eq_some atMark_eq, if_neg (by simpa using other)]
  rfl

theorem eatWord_of_eq {word : String} (there : reading.token.kind = .name word false)
    (moved : advance mode reading = some ((), next)) : eatWord word mode reading = some (true, next) := by
  rw [eatWord, bind_eq_of_eq_some atWord_eq, if_pos (beq_iff_eq.mpr there), bind_eq_of_eq_some moved]
  rfl

theorem eatWord_of_ne {word : String} (other : reading.token.kind ≠ .name word false) :
    eatWord word mode reading = some (false, reading) := by
  rw [eatWord, bind_eq_of_eq_some atWord_eq, if_neg (by simpa using other)]
  rfl

theorem collect_eq_nil {α : Type} {item : Parse (Option α)} (some_limit : mode.limit ≠ 0)
    (ended : item mode reading = some (none, next)) : collect item mode reading = some ([], next) := by
  obtain ⟨limit, limit_eq⟩ := Nat.exists_eq_succ_of_ne_zero some_limit
  have whole : collect item mode reading = collectUpTo item mode.limit mode reading := rfl
  rw [whole, limit_eq, collectUpTo, bind_eq_of_eq_some ended]
  rfl

theorem decorators_eq_nil (some_limit : mode.limit ≠ 0) (other : reading.token.kind ≠ .mark "@") :
    decorators rules mode reading = some ([], reading) := by
  refine collect_eq_nil some_limit ?_
  have start_eq : start mode reading = some (reading.token.span.start, reading) := rfl
  rw [bind_eq_of_eq_some start_eq, bind_eq_of_eq_some (eatMark_of_ne other)]
  rfl

theorem classMembers_eq_nil (some_limit : mode.limit ≠ 0) (closes : reading.token.kind = .mark "\x7d")
    (moved : advance mode reading = some ((), next)) : classMembers rules mode reading = some ([], next) := by
  have none_left : itemsUntil "\x7d" (do if ← eatMark ";" then return none else return some (← classMember rules))
      mode reading = some (([] : List (Option Node)), next) := by
    refine collect_eq_nil some_limit ?_
    rw [bind_eq_of_eq_some (eatMark_of_eq closes moved)]
    rfl
  rw [classMembers, bind_eq_of_eq_some none_left]
  rfl

end

/-- A reader stands at the word of an empty class, and another one behind its braces. -/
def Reading.AtEmptyClass (reading behind : Reading) : Prop :=
  ∃ opening closing : Reading,
    reading.token.kind = .name "class" false ∧ (∀ mode, advance mode reading = some ((), opening)) ∧
      opening.token.kind = .mark "\x7b" ∧ (∀ mode, advance mode opening = some ((), closing)) ∧
        closing.token.kind = .mark "\x7d" ∧ ∀ mode, advance mode closing = some ((), behind)

variable {mode : Mode} {reading behind : Reading} {rules : Rules}

theorem classRest_eq (rules : Rules) (start : Nat) (no_types : mode.hasTypes = false) (some_limit : mode.limit ≠ 0)
    (empty : reading.AtEmptyClass behind) :
    classRest rules start [] .declaration mode reading = some (.mk ⟨start, behind.lastStop⟩ emptyClass, behind) := by
  obtain ⟨opening, closing, kind_eq, to_opening, opens, to_closing, closes, to_behind⟩ := empty
  have no_word : ∀ word, eatWord word mode opening = some (false, opening) := fun word => eatWord_of_ne (by simp [opens])
  have class_ : expectWord "class" mode reading = some ((), opening) := by
    rw [expectWord, bind_eq_of_eq_some (eatWord_of_eq kind_eq (to_opening _))]
    rfl
  have no_name : (pure none : Parse (Option Node)) mode opening = some (none, opening) := rfl
  have no_parameter : declaredTypeParameters mode opening = some ([], opening) := by
    have read_eq : (read : Parse Mode) mode opening = some (mode, opening) := rfl
    rw [declaredTypeParameters, bind_eq_of_eq_some read_eq, no_types]
    rfl
  have no_heritage : heritage rules mode opening = some ((none, []), opening) := by
    rw [heritage, bind_eq_of_eq_some (no_word _)]
    rfl
  have none_implemented : namedTypesAfter "implements" mode opening = some ([], opening) := by
    rw [namedTypesAfter, bind_eq_of_eq_some (no_word _)]
    rfl
  have brace : expectMark "\x7b" mode opening = some ((), closing) := by
    rw [expectMark, bind_eq_of_eq_some (eatMark_of_eq opens (to_closing _))]
    rfl
  have no_member : classMembers rules { mode with allowsResult := true, inDecorator := false } closing =
      some ([], behind) := classMembers_eq_nil some_limit closes (to_behind _)
  rw [classRest, bind_eq_of_eq_some (eatWord_of_ne (by simp [kind_eq])), bind_eq_of_eq_some class_,
    bind_eq_of_eq_some (atIdentifier_of_mark opens), bind_eq_of_eq_some atWord_eq, Bool.false_and,
    if_neg Bool.false_ne_true, bind_eq_of_eq_some no_name]
  dsimp only
  rw [bind_eq_of_eq_some no_parameter, bind_eq_of_eq_some no_heritage]
  dsimp only
  rw [bind_eq_of_eq_some none_implemented, bind_eq_of_eq_some brace]
  exact bind_eq_of_eq_some no_member

theorem plainStatement_eq_emptyClass (rules : Rules) (no_types : mode.hasTypes = false) (some_limit : mode.limit ≠ 0)
    (empty : reading.AtEmptyClass behind) :
    plainStatement rules false mode reading =
      some (.mk ⟨reading.token.span.start, behind.lastStop⟩ emptyClass, behind) := by
  have rest := classRest_eq rules reading.token.span.start no_types some_limit empty
  obtain ⟨-, -, kind_eq, -⟩ := empty
  have start_eq : start mode reading = some (reading.token.span.start, reading) := rfl
  have kind_apply : kind mode reading = some (reading.token.kind, reading) := rfl
  have no_type : typedStatement rules mode reading = some (none, reading) := by
    have read_eq : (read : Parse Mode) mode reading = some (mode, reading) := rfl
    rw [typedStatement, bind_eq_of_eq_some start_eq, bind_eq_of_eq_some read_eq, no_types]
    rfl
  have ensured : ensure (!false) mode reading = some ((), reading) := rfl
  have no_rule : ∀ start, wordStatement rules start "class" = none := fun _ => rfl
  rw [plainStatement, bind_eq_of_eq_some start_eq, bind_eq_of_eq_some no_type]
  dsimp only
  rw [bind_eq_of_eq_some kind_apply, kind_eq]
  dsimp only
  rw [no_rule]
  dsimp only
  rw [if_pos (by decide), bind_eq_of_eq_some ensured, classNode, bind_eq_of_eq_some start_eq,
    bind_eq_of_eq_some (decorators_eq_nil some_limit (by simp [kind_eq])), rest]

theorem nextStatement_eq_emptyClass (depth : Nat) (no_types : mode.hasTypes = false) (some_limit : mode.limit ≠ 0)
    (empty : reading.AtEmptyClass behind) :
    nextStatement (Grammar.rules (depth + 1)) false mode reading =
      some (.mk ⟨reading.token.span.start, behind.lastStop⟩ emptyClass, behind) := by
  have plain := plainStatement_eq_emptyClass (Grammar.rules depth) no_types some_limit empty
  obtain ⟨-, -, kind_eq, -⟩ := empty
  have unmarked : unmarkedStatement (Grammar.rules depth) false mode reading =
      some (.mk ⟨reading.token.span.start, behind.lastStop⟩ emptyClass, behind) := by
    have kind_apply : kind mode reading = some (reading.token.kind, reading) := rfl
    rw [unmarkedStatement, bind_eq_of_eq_some kind_apply, kind_eq]
    exact plain
  have token_eq : token mode reading = some (reading.token, reading) := rfl
  have whole : nextStatement (Grammar.rules (depth + 1)) false mode reading =
      statement (Grammar.rules depth) false mode reading := rfl
  rw [whole, statement, bind_eq_of_eq_some token_eq, bind_eq_of_eq_some unmarked]
  split <;> rfl

theorem advance_congr {reading next : Reading} {mode : Mode} (moved : advance mode reading = some ((), next))
    (mode' : Mode) : advance mode' reading = some ((), next) := by
  rw [advance_eq] at moved ⊢
  exact moved

theorem exists_atEmptyClass (mode : Mode) (stands : reading.StandsAt "class \x7b\x7d\n".toList) :
    ∃ behind, reading.AtEmptyClass behind ∧ behind.StandsAt [] ∧ behind.covers = reading.covers := by
  have braces : ∀ mark ∈ ["\x7b", "\x7d"], mark ∈ Lexer.delimiters := by decide
  obtain ⟨previous, offset, read⟩ := stands
  have ends : Lexer.EndsBefore (.name "class" false) " \x7b\x7d\n".toList := Lexer.endsName_of_mark (by decide) _
  obtain ⟨token, here, after, read', kind_eq, rest_eq⟩ :=
    Lexer.next?_of_isToken Lexer.skips_nil (Lexer.isToken_of_isWord (by decide)) ends previous offset
  cases read.symm.trans read'
  obtain ⟨opening, to_opening, opens, rest_eq, covers⟩ := exists_advance mode Lexer.skips_space
    (Lexer.isToken_of_mem_delimiters (braces _ (.head _))) (Lexer.endsBefore_delimiter (braces _ (.head _)) ['\x7d', '\n'])
    rest_eq
  obtain ⟨closing, to_closing, closes, rest_eq, covers'⟩ := exists_advance mode Lexer.skips_nil
    (Lexer.isToken_of_mem_delimiters (braces _ (.tail _ (.head _))))
    (Lexer.endsBefore_delimiter (braces _ (.tail _ (.head _))) ['\n']) rest_eq
  have last : Lexer.next? (some closing.token.kind) closing.after =
      Lexer.next? none ⟨[], closing.after.offset + 1⟩ := by
    have after_eq : closing.after = ⟨['\n'], closing.after.offset⟩ := by rw [← rest_eq]
    rw [after_eq, closes]
    rfl
  obtain ⟨finish, here', after', found, -⟩ :=
    Lexer.next?_of_skips Lexer.skips_nil none (closing.after.offset + 1)
  have to_behind : advance mode closing = some ((), { closing with
      token := finish, here := here', after := after'
      lastStop := closing.token.span.stop
      comments := finish.comments.reverse ++ closing.comments }) := by
    rw [advance_eq, last, found]
    rfl
  exact ⟨_, ⟨opening, closing, kind_eq, advance_congr to_opening, opens, advance_congr to_closing, closes,
    advance_congr to_behind⟩, ⟨none, _, found⟩, covers'.trans covers⟩

/-- Whether a form is that of an empty class. -/
def isEmptyClass (form : Form Node) : Bool :=
  match form with
  | .classOf head [] none none [] =>
    head.role == .declaration && !head.isAbstract && head.typeParameters.isEmpty && head.heritageArguments.isEmpty &&
      head.implemented.isEmpty
  | _ => false

theorem eq_emptyClass {form : Form Node} (empty : isEmptyClass form = true) : form = emptyClass := by
  unfold isEmptyClass at empty
  split at empty
  · rename_i head
    obtain ⟨role, isAbstract, typeParameters, heritageArguments, implemented⟩ := head
    simp only [Bool.and_eq_true, beq_iff_eq, Bool.not_eq_true', List.isEmpty_iff] at empty
    obtain ⟨⟨⟨⟨rfl, rfl⟩, rfl⟩, rfl⟩, rfl⟩ := empty
    rfl
  · cases empty

end Grammar

namespace Loader

open Grammar (emptyClass)

theorem isReadAs_emptyClass {span : Span} {limit : Nat} (some_limit : limit ≠ 0) :
    Grammar.IsReadAs (SourceModule.readingMode {} limit) (Grammar.rules (8 * limit))
      (fun statement node => statement.form = node.form) (.mk span emptyClass) "class \x7b\x7d\n".toList [] := by
  refine ⟨List.cons_ne_nil _ _, fun previous offset => ?_, fun reading stands => ?_⟩
  · have ends : Lexer.EndsBefore (.name "class" false) " \x7b\x7d\n".toList := Lexer.endsName_of_mark (by decide) _
    obtain ⟨token, here, after, read, kind_eq, -⟩ :=
      Lexer.next?_of_isToken Lexer.skips_nil (Lexer.isToken_of_isWord (by decide)) ends previous offset
    exact ⟨token, here, after, read, by rw [kind_eq]; exact TokenKind.noConfusion⟩
  · obtain ⟨behind, empty, stands', covers⟩ := Grammar.exists_atEmptyClass (SourceModule.readingMode {} limit) stands
    obtain ⟨depth, depth_eq⟩ : ∃ depth, 8 * limit = depth + 1 := ⟨8 * limit - 1, by omega⟩
    rw [depth_eq]
    exact ⟨_, _, Grammar.nextStatement_eq_emptyClass depth rfl some_limit empty, rfl, stands', covers⟩

theorem writesFaithfully_emptyClass {module : SourceModule} {source : String} {span : Span}
    (no_comments : module.comments = []) (no_line : SourceModule.interpreterLine? source.toList = none) :
    module.WritesFaithfully {} source [.mk span emptyClass] fun statement node => statement.form = node.form := by
  have setting_eq : module.setting source = {} := by
    rw [SourceModule.setting, SourceModule.writtenComments, no_comments]
    rfl
  obtain ⟨height, height_eq⟩ := SourceModule.exists_height_eq (List.cons_ne_nil (Node.mk span emptyClass) [])
  have pieces_eq : module.pieces source [.mk span emptyClass] =
      [(.mk span emptyClass, "class \x7b\x7d\n".toList)] := by
    rw [SourceModule.pieces, SourceModule.texts, SourceModule.layouts, height_eq, setting_eq, SourceModule.openingPage,
      SourceModule.opening, no_line]
    rfl
  have ending_eq : module.ending source [.mk span emptyClass] = [] := by
    rw [SourceModule.ending, setting_eq]
    rfl
  refine ⟨fun page offset => ?_, fun before statement text after whole _ => ?_⟩
  · rw [setting_eq]
    exact Lexer.skips_nil
  · rw [pieces_eq] at whole
    cases before with
    | cons first before => simp at whole
    | nil =>
        cases whole
        have all : Grammar.textOf [] ++ module.ending source [.mk span emptyClass] = [] := by
          rw [ending_eq]
          rfl
        rw [all]
        exact isReadAs_emptyClass (Nat.succ_ne_zero _)

/-! ## What is loaded is read again -/

/-- What is read again of statements that import and export nothing does not either. -/
theorem no_export_of_rereadAs {Same : Node → Node → Prop} {hasDirectives : Prop} {body nodes : List Node}
    (same_kind : ∀ statement node, Same statement node → statement.statementKind = node.statementKind)
    (all : List.Forall₂ (Grammar.RereadAs Same hasDirectives) body nodes)
    (no_export : ∀ node ∈ body, node.statementKind ≠ .importFrom ∧ node.statementKind ≠ .exportDefault) :
    ∀ node ∈ nodes, node.statementKind ≠ .importFrom ∧ node.statementKind ≠ .exportDefault := by
  induction all with
  | nil => exact fun node member => nomatch member
  | @cons statement node statements nodes reread others ih =>
      obtain ⟨first, rest⟩ := List.forall_mem_cons.mp no_export
      refine List.forall_mem_cons.mpr ⟨?_, ih rest⟩
      rcases reread with same | ⟨-, -, directive⟩
      · rwa [← same_kind _ _ same]
      · rw [Node.isDirective_iff.mp directive]
        exact ⟨StatementKind.noConfusion, StatementKind.noConfusion⟩

/-- A function that is loaded consists of the statements of its module as bare code. It is read again, statement by
statement, exactly if no function without a name is exported by default. -/
theorem loaded_function_is_read_again_iff {disk : Disk} {url base : String} {resource : FunctionResource}
    (loaded : loadFunction disk url base = .ok resource) :
    ∃ (text : String) (module : SourceModule),
      readText disk (functionPath disk url base) = .ok text ∧
      SourceModule.parse? (functionDialect disk url base) text = some module ∧
      resource.source = module.print text (bareStatements module.program) ∧
      (∀ node ∈ module.program.children, node.BareAs (bareStatement? node)) ∧
      (∀ node ∈ bareStatements module.program,
        node.statementKind ≠ .importFrom ∧ node.statementKind ≠ .exportDefault) ∧
      ∀ Same : Node → Node → Prop,
        (∀ statement node, Same statement node → statement.statementKind = node.statementKind) →
        module.WritesFaithfully (functionDialect disk url base) text (bareStatements module.program) Same →
          (SourceModule.parse? (functionDialect disk url base) resource.source = none ↔
            ∃ node ∈ module.program.children, node.exportsUnnamed = true) ∧
          ∀ again, SourceModule.parse? (functionDialect disk url base) resource.source = some again →
            List.Forall₂ (Grammar.RereadAs Same (∃ node ∈ module.program.children, Grammar.isDirective node = true))
              (bareStatements module.program) again.program.children ∧
            ∀ node ∈ again.program.children,
              node.statementKind ≠ .importFrom ∧ node.statementKind ≠ .exportDefault := by
  obtain ⟨text, module, read, parsed, rfl⟩ := exists_of_loadFunction loaded
  obtain ⟨directives, statements, bare_eq, directive, placed, some_directive, some_unnamed⟩ :=
    exists_of_bareStatements parsed
  have is_placed := is_placed_of_parse? parsed
  have no_export : ∀ node ∈ bareStatements module.program,
      node.statementKind ≠ .importFrom ∧ node.statementKind ≠ .exportDefault := by
    intro node member
    obtain ⟨original, member, bare⟩ := List.mem_filterMap.mp member
    exact statementKind_of_bareStatement? (is_placed original member) bare
  refine ⟨text, module, read, parsed, rfl, fun node member => bareAs_bareStatement? (is_placed node member), no_export,
    fun Same same_kind faithful => ?_⟩
  have reads : (¬∃ node ∈ module.program.children, node.exportsUnnamed = true) →
      ∃ again, SourceModule.parse? (functionDialect disk url base) (module.print text (bareStatements module.program)) =
          some again ∧
        List.Forall₂ (Grammar.RereadAs Same (∃ node ∈ module.program.children, Grammar.isDirective node = true))
          (bareStatements module.program) again.program.children := by
    intro none_exported
    have named : ∀ node ∈ statements, node.form.isStatement = true := fun node member =>
      (placed node member).resolve_right fun unnamed => none_exported (some_unnamed.mp ⟨node, member, unnamed⟩)
    obtain ⟨again, reread, all⟩ := faithful.exists_parse?_print same_kind bare_eq directive named
    exact ⟨again, reread, all.imp fun _ _ => Or.imp_right (And.imp_left some_directive.mp)⟩
  have fails : (∃ node ∈ module.program.children, node.exportsUnnamed = true) →
      SourceModule.parse? (functionDialect disk url base) (module.print text (bareStatements module.program)) = none :=
    fun exports => faithful.parse?_print_eq_none_of_unnamed same_kind bare_eq directive placed (some_unnamed.mpr exports)
  refine ⟨⟨fun none_read => ?_, fails⟩, fun again reread => ?_⟩
  · by_contra none_exported
    obtain ⟨again, reread, -⟩ := reads none_exported
    cases none_read.symm.trans reread
  · obtain ⟨again', reread', all⟩ := reads fun exports => by cases (fails exports).symm.trans reread
    cases reread.symm.trans reread'
    exact ⟨all, no_export_of_rereadAs same_kind all no_export⟩

/-- A class without a name that is exported by default is declared, and read again. -/
theorem class_without_name_is_read_again :
    ∃ (disk : Disk) (resource : FunctionResource) (again : SourceModule),
      passes (readText disk "/app/./f.js") (fun text => text == "import a from \"./a\";export default class\x7b\x7d") =
        true ∧
      loadFunction disk "./f.js" "/app/index.js" = .ok resource ∧
      SourceModule.parse? {} resource.source = some again ∧
      again.program.children.map Node.form = [emptyClass] := by
  have settled : ∃ disk : Disk,
      passes (readText disk "/app/./f.js") (fun text => text == "import a from \"./a\";export default class\x7b\x7d") =
        true ∧
      passes (loadFunction disk "./f.js" "/app/index.js") (fun _ => true) = true ∧
      functionPath disk "./f.js" "/app/index.js" = "/app/./f.js" ∧ isTyped disk "./f.js" "/app/index.js" = false := 
    ⟨⟨"/app", [(["f.js"], .file "import a from \"./a\";export default class\x7b\x7d".toUTF8)]⟩, by decide +kernel,
      by decide +kernel, by decide +kernel, by decide +kernel⟩
  have parses : (SourceModule.parse? {} "import a from \"./a\";export default class\x7b\x7d").any (fun module =>
      module.comments.isEmpty && module.program.children.all (fun node => !node.exportsUnnamed) &&
        (bareStatements module.program).map (fun node => Grammar.isEmptyClass node.form) == [true]) = true := by
    decide +kernel
  obtain ⟨disk, reads, loads, path_eq, no_types⟩ := settled
  obtain ⟨resource, loaded, -⟩ := exists_of_passes loads
  obtain ⟨text', read', text_eq⟩ := exists_of_passes reads
  obtain ⟨text, module, read, parsed, source_eq, -, -, known⟩ := loaded_function_is_read_again_iff loaded
  have dialect_eq : functionDialect disk "./f.js" "/app/index.js" = {} := by rw [functionDialect, no_types]
  rw [path_eq, read'] at read
  cases read
  obtain rfl := eq_of_beq text_eq
  rw [dialect_eq] at parsed known
  rw [parsed] at parses
  simp only [Option.any_some, Bool.and_eq_true, List.isEmpty_iff, List.all_eq_true, beq_iff_eq] at parses
  obtain ⟨⟨no_comments, none_exported⟩, bare⟩ := parses
  obtain ⟨node, bare_eq, is_empty⟩ := List.map_eq_singleton_iff.mp bare
  obtain ⟨span, form⟩ := node
  obtain rfl : form = emptyClass := Grammar.eq_emptyClass is_empty
  rw [bare_eq] at known
  have same_kind : ∀ statement node : Node, statement.form = node.form → statement.statementKind = node.statementKind := by
    intro statement node same
    unfold Node.statementKind
    rw [same]
  obtain ⟨none_iff, rereads⟩ := known _ same_kind (writesFaithfully_emptyClass no_comments rfl)
  cases reread : SourceModule.parse? {} resource.source with
  | none =>
      obtain ⟨node, member, exports⟩ := none_iff.mp reread
      simpa [exports] using none_exported node member
  | some again =>
      obtain ⟨node, others, same | ⟨-, lone, -⟩, rest, children_eq⟩ :=
        List.forall₂_cons_left_iff.mp (rereads again reread).1
      · rw [List.forall₂_nil_left_iff.mp rest] at children_eq
        refine ⟨disk, resource, again, reads, loaded, reread, ?_⟩
        rw [children_eq, List.map_singleton, ← same]
        rfl
      · cases lone

/-- A function without a name that is exported by default is written as a text that is not read. -/
theorem function_without_name_is_not_read_again :
    ∃ disk : Disk,
      passes (readText disk "/app/./f.js") (fun text => text == "export default function()\x7b\x7d") = true ∧
      passes (loadFunction disk "./f.js" "/app/index.js") (fun resource =>
        resource.source == "function() \x7b\x7d\n" && (SourceModule.parse? {} resource.source).isNone) = true :=
  ⟨⟨"/app", [(["f.js"], .file "export default function()\x7b\x7d".toUTF8)]⟩, by decide +kernel, by decide +kernel⟩

end Loader

end Storyboard
