import Mathlib.Data.List.Forall2
import Storyboard.Proofs.ReadForms
import Storyboard.Proofs.WrittenTexts

/-!
# Statements that are written and read back

If each of the texts of the statements of a module is read back where it stands, then the whole text is read back,
statement by statement. Only the beginning of a module asks for care, where a statement that is a mere text would be a
directive.
-/

namespace Storyboard

open Text (byteLength)

/-! ## Beginnings of texts -/

namespace Lexer

theorem isToken_parenthesis : IsToken (.mark "(") ['('] :=
  ⟨⟨'(', [], rfl, by constructor <;> decide⟩, fun _ _ _ => rfl⟩

theorem endsBefore_parenthesis (rest : List Char) : EndsBefore (.mark "(") rest :=
  fun same => absurd same (by decide)

/-- A source begins as if behind the end of a line. -/
theorem next?_lineFeed (text : List Char) (offset : Nat) :
    next? none ⟨'\n' :: text, offset⟩ = next? none ⟨text, offset + 1⟩ :=
  rfl

theorem next?_interpreter (previous : Option TokenKind) (text : List Char) (offset : Nat) :
    next? previous ⟨'#' :: '!' :: text, offset⟩ = none := by
  have skipped : ∀ gap, skipGap .between ('#' :: '!' :: text) offset gap = some (⟨'#' :: '!' :: text, offset⟩, gap) :=
    fun _ => rfl
  have bare : bare? ⟨'#' :: '!' :: text, offset⟩ = none := rfl
  rw [next?]
  dsimp only
  rw [skipped]
  simp [bare]

/-- A text stands between quotes. -/
theorem exists_quoted_of_bare? {cursor after : Cursor} {value : String} {hasHalves : Bool}
    (read : bare? cursor = some (.text value hasHalves, after)) :
    ∃ quote rest raw behind, cursor.rest = quote :: rest ∧ quoted? quote rest 0 [] = some (raw, behind) := by
  obtain ⟨characters, offset⟩ := cursor
  cases characters with
  | nil => cases read
  | cons c rest =>
      have quote := quote_of_bare? read
      rw [bare?_of_quote quote] at read
      obtain ⟨⟨raw, behind⟩, quoted, -⟩ := Option.bind_eq_some_iff.mp read
      obtain ⟨text, -, across, again⟩ := quoted?_eq_some quote quoted
      have again := again behind.rest 0
      rw [← (across.1 : rest = text ++ behind.rest)] at again
      exact ⟨c, rest, raw, _, rfl, again⟩

end Lexer

/-! ## Kinds of statements -/

/-- What matters about a statement for the module it stands in. -/
inductive StatementKind where
  /-- It imports from another module. -/
  | importFrom
  /-- It says what the module exports by default. -/
  | exportDefault
  /-- It is a directive. -/
  | directive
  /-- It is a mere text, which would be a directive at the beginning of the module. -/
  | loneText
  /-- It is anything else. -/
  | other
deriving DecidableEq

/-- The kind of a statement. -/
def Node.statementKind (node : Node) : StatementKind :=
  match node.form with
  | .importFrom _ _ _ => .importFrom
  | .exportDefault _ => .exportDefault
  | .directive _ => .directive
  | .expressionStatement (.mk _ (.string _ _)) => .loneText
  | _ => .other

theorem Node.isDirective_iff {node : Node} : Grammar.isDirective node = true ↔ node.statementKind = .directive := by
  unfold Grammar.isDirective statementKind
  split
  · simp [*]
  · split <;> simp_all

namespace Grammar

/-! ## Runs of statements -/

/-- The rule for the next statement of a module, which may be a directive in the prologue. -/
def nextStatement (rules : Rules) (isPrologue : Bool) : Parse Node :=
  if isPrologue then prologueStatement rules else rules (.statement false)

/-- Statements are read one after the other. -/
inductive Run (mode : Mode) (rules : Rules) : Bool → Reading → List Node → Bool → Reading → Prop
  | nil (isPrologue : Bool) (reading : Reading) : Run mode rules isPrologue reading [] isPrologue reading
  | cons {isPrologue isPrologue' : Bool} {reading between last : Reading} {node : Node} {nodes : List Node}
      (begins : reading.token.kind ≠ .finish)
      (read : nextStatement rules isPrologue mode reading = some (node, between))
      (others : Run mode rules (isPrologue && isDirective node) between nodes isPrologue' last) :
      Run mode rules isPrologue reading (node :: nodes) isPrologue' last

section

variable {mode : Mode} {rules : Rules}

theorem Run.append {isPrologue isPrologue' isPrologue'' : Bool} {reading between last : Reading}
    {nodes nodes' : List Node}
    (first : Run mode rules isPrologue reading nodes isPrologue' between)
    (second : Run mode rules isPrologue' between nodes' isPrologue'' last) :
    Run mode rules isPrologue reading (nodes ++ nodes') isPrologue'' last := by
  induction first with
  | nil => exact second
  | cons begins read others ih => exact .cons begins read (ih second)

/-- Statements end at the end of the source, and otherwise begin with the next one. -/
theorem statementsUpTo_succ (limit : Nat) (isPrologue : Bool) (reading : Reading) :
    statementsUpTo rules .finish (limit + 1) isPrologue mode reading =
      if reading.token.kind == .finish then some ([], reading)
      else (nextStatement rules isPrologue mode reading).bind fun (node, between) =>
        (statementsUpTo rules .finish limit (isPrologue && isDirective node) mode between).map
          fun (others, last) => (node :: others, last) := by
  have mapped : ∀ (found : Option (List Node × Reading)) (node : Node),
      (found.map fun (others, last) => (node :: others, last)) =
        found.bind fun (others, last) => some (node :: others, last) := by
    intro found node
    cases found <;> rfl
  simp only [mapped]
  have unfolded : statementsUpTo rules .finish (limit + 1) isPrologue mode reading =
      (if reading.token.kind == .finish then pure [] else do
        let statement ← nextStatement rules isPrologue
        let others ← statementsUpTo rules .finish limit (isPrologue && isDirective statement)
        return statement :: others : Parse (List Node)) mode reading := by
    cases isPrologue <;> rfl
  rw [unfolded]
  split <;> rfl

theorem statementsUpTo_of_finish {reading : Reading} (finished : reading.token.kind = .finish) (limit : Nat)
    (isPrologue : Bool) : statementsUpTo rules .finish (limit + 1) isPrologue mode reading = some ([], reading) := by
  rw [statementsUpTo_succ, if_pos (beq_iff_eq.mpr finished)]

theorem statementsUpTo_of_begins {reading : Reading} (begins : reading.token.kind ≠ .finish) (limit : Nat)
    (isPrologue : Bool) :
    statementsUpTo rules .finish (limit + 1) isPrologue mode reading =
      (nextStatement rules isPrologue mode reading).bind fun (node, between) =>
        (statementsUpTo rules .finish limit (isPrologue && isDirective node) mode between).map
          fun (others, last) => (node :: others, last) := by
  rw [statementsUpTo_succ, if_neg (by simpa using begins)]

/-- The statements of a run come before all others. -/
theorem statementsUpTo_of_run {isPrologue isPrologue' : Bool} {reading last : Reading} {nodes : List Node}
    (run : Run mode rules isPrologue reading nodes isPrologue' last) (limit : Nat) :
    statementsUpTo rules .finish (nodes.length + limit) isPrologue mode reading =
      (statementsUpTo rules .finish limit isPrologue' mode last).map fun (others, final) => (nodes ++ others, final) := by
  induction run with
  | nil isPrologue reading => simp
  | cons begins read others ih =>
      rw [List.length_cons, Nat.add_right_comm, statementsUpTo_of_begins begins, read, Option.bind_some]
      dsimp only
      rw [ih, Option.map_map]
      rfl

/-! ## Statements that are read -/

/-- A reader stands at the first token of a text. -/
def Reading.StandsAt (reading : Reading) (text : List Char) : Prop :=
  ∃ previous offset, Lexer.next? previous ⟨text, offset⟩ = some (reading.token, reading.here, reading.after)

/-- A statement is read from a text that stands in front of another one. What it means that a statement is the same
as the one that was written is left open. -/
structure IsReadAs (mode : Mode) (rules : Rules) (Same : Node → Node → Prop) (statement : Node) (text rest : List Char) :
    Prop where
  /-- The text is not empty. -/
  some_text : text ≠ []
  /-- There is a token. -/
  begins : ∀ previous offset, ∃ token here after,
    Lexer.next? previous ⟨text ++ rest, offset⟩ = some (token, here, after) ∧ token.kind ≠ .finish
  /-- The rule for statements takes the text and nothing of the rest. -/
  read : ∀ reading : Reading, reading.StandsAt (text ++ rest) → ∃ node next,
    nextStatement rules (isDirective statement) mode reading = some (node, next) ∧ Same statement node ∧
      next.StandsAt rest ∧ next.covers = reading.covers

variable {Same : Node → Node → Prop} {statement : Node} {text rest : List Char}

theorem IsReadAs.kind_ne_finish (isRead : IsReadAs mode rules Same statement text rest) {reading : Reading}
    (stands : reading.StandsAt (text ++ rest)) : reading.token.kind ≠ .finish := by
  obtain ⟨previous, offset, read⟩ := stands
  obtain ⟨token, here, after, read', begins⟩ := isRead.begins previous offset
  rw [read] at read'
  cases read'
  exact begins

theorem bind_eq_of_eq_some {α β : Type} {rule : Parse α} {next : α → Parse β} {reading between : Reading} {value : α}
    (read : rule mode reading = some (value, between)) : (rule >>= next) mode reading = next value mode between := by
  have both : (rule >>= next) mode reading =
      (rule mode reading).bind fun (value, between) => next value mode between := rfl
  rw [both, read]
  rfl

theorem prologueStatement_of_other {reading : Reading}
    (other : ∀ value hasHalves, reading.token.kind ≠ .text value hasHalves) :
    prologueStatement rules mode reading = rules (.statement false) mode reading := by
  obtain ⟨rule, rule_eq, same⟩ := of_kind (rfl : prologueStatement rules mode reading = _)
  split at rule_eq
  · exact absurd ‹_› (other _ _)
  · rw [← same, ← rule_eq]

theorem rawText_of_stands (mode : Mode) {reading : Reading} {value : String} {hasHalves : Bool} (stands : reading.StandsAt text)
    (kind_eq : reading.token.kind = .text value hasHalves) : ∃ raw, rawText mode reading = some (raw, reading) := by
  obtain ⟨previous, offset, read⟩ := stands
  obtain ⟨-, bare, -⟩ := Lexer.steps_of_next? read
  rw [kind_eq] at bare
  obtain ⟨quote, others, raw, behind, rest_eq, quoted⟩ := Lexer.exists_quoted_of_bare? bare
  obtain ⟨rule, rule_eq, same⟩ := of_rule (of_get (rfl : rawText mode reading = _))
  rw [rest_eq] at rule_eq
  refine ⟨String.ofList raw, ?_⟩
  rw [← same, ← rule_eq]
  dsimp only
  rw [quoted]
  rfl

/-- A statement that begins with a text in the prologue is a directive if the text is all of it. -/
theorem prologueStatement_of_text {reading next : Reading} {value raw : String} {hasHalves : Bool} {node : Node}
    (kind_eq : reading.token.kind = .text value hasHalves) (quoted : rawText mode reading = some (raw, reading))
    (read : rules (.statement false) mode reading = some (node, next)) :
    ∃ node', prologueStatement rules mode reading = some (node', next) ∧
      (node' = node ∨ isDirective node' = true ∧ node.statementKind = .loneText) := by
  obtain ⟨rule, rule_eq, same⟩ := of_kind (rfl : prologueStatement rules mode reading = _)
  rw [kind_eq] at rule_eq
  rw [← same, ← rule_eq]
  dsimp only
  rw [bind_eq_of_eq_some quoted, bind_eq_of_eq_some read]
  obtain ⟨span, form⟩ := node
  cases form with
  | expressionStatement value =>
      obtain ⟨inner, form⟩ := value
      cases form with
      | string => exact ⟨_, rfl, .inr ⟨rfl, rfl⟩⟩
      | _ => exact ⟨_, rfl, .inl rfl⟩
  | _ => exact ⟨_, rfl, .inl rfl⟩

/-- A statement that is no directive is read in the prologue as outside of it, unless it is a mere text. -/
theorem IsReadAs.read_statement (isRead : IsReadAs mode rules Same statement text rest)
    (plain : isDirective statement = false) {reading : Reading} (stands : reading.StandsAt (text ++ rest))
    (isPrologue : Bool) :
    ∃ node next, nextStatement rules isPrologue mode reading = some (node, next) ∧ next.StandsAt rest ∧
      next.covers = reading.covers ∧ (Same statement node ∨
        isPrologue = true ∧ isDirective node = true ∧ (∃ same, Same statement same ∧ same.statementKind = .loneText) ∧
          ∃ value hasHalves, reading.token.kind = .text value hasHalves) := by
  obtain ⟨node, next, read, same, stands', covers⟩ := isRead.read reading stands
  rw [plain] at read
  have read : rules (.statement false) mode reading = some (node, next) := read
  by_cases quotes : isPrologue = true ∧ ∃ value hasHalves, reading.token.kind = .text value hasHalves
  · obtain ⟨rfl, value, hasHalves, kind_eq⟩ := quotes
    obtain ⟨raw, quoted⟩ := rawText_of_stands mode stands kind_eq
    obtain ⟨node', read', rfl | ⟨directive, lone⟩⟩ := prologueStatement_of_text kind_eq quoted read
    · exact ⟨node', next, read', stands', covers, .inl same⟩
    · exact ⟨node', next, read', stands', covers, .inr ⟨rfl, directive, ⟨node, same, lone⟩, value, hasHalves, kind_eq⟩⟩
  · refine ⟨node, next, ?_, stands', covers, .inl same⟩
    cases isPrologue with
    | false => exact read
    | true => exact (prologueStatement_of_other fun value hasHalves same => quotes ⟨rfl, value, hasHalves, same⟩).trans read

/-! ## Modules that are read -/

/-- The text of pieces one after the other. -/
def textOf (pieces : List (Node × List Char)) : List Char := (pieces.map Prod.snd).flatten

/-- Pieces are read one after the other in front of another text. -/
inductive Reads (mode : Mode) (rules : Rules) (Same : Node → Node → Prop) (tail : List Char) :
    List (Node × List Char) → Prop
  | nil : Reads mode rules Same tail []
  | cons {statement : Node} {text : List Char} {others : List (Node × List Char)}
      (first : IsReadAs mode rules Same statement text (textOf others ++ tail))
      (rest : Reads mode rules Same tail others) : Reads mode rules Same tail ((statement, text) :: others)

/-- A statement is read again as the same, or else it is a mere text that joins the directives before it. -/
def RereadAs (Same : Node → Node → Prop) (hasDirectives : Prop) (statement node : Node) : Prop :=
  Same statement node ∨ hasDirectives ∧ statement.statementKind = .loneText ∧ isDirective node = true

variable {tail : List Char} {pieces : List (Node × List Char)}

theorem Reading.StandsAt.kind_eq_of_parenthesis {reading : Reading} {text rest : List Char}
    (stands : reading.StandsAt (text ++ rest)) (opens : text.head? = some '(') : reading.token.kind = .mark "(" := by
  obtain ⟨previous, offset, read⟩ := stands
  obtain ⟨text, rfl⟩ := List.head?_eq_some_iff.mp opens
  obtain ⟨found, here, after, read', kind_eq, -⟩ := Lexer.next?_of_isToken Lexer.skips_nil Lexer.isToken_parenthesis
    (Lexer.endsBefore_parenthesis (text ++ rest)) previous offset
  rw [List.nil_append, List.singleton_append, ← List.cons_append, read] at read'
  cases read'
  exact kind_eq

theorem Reads.length_le (reads : Reads mode rules Same tail pieces) : pieces.length ≤ (textOf pieces).length := by
  induction reads with
  | nil => exact Nat.le_refl 0
  | @cons statement text others first rest ih =>
      have some_text : 0 < text.length := List.length_pos_iff.mpr first.some_text
      have whole : (textOf ((statement, text) :: others)).length = text.length + (textOf others).length := by simp [textOf]
      rw [whole, List.length_cons]
      omega

theorem textOf_append (front back : List (Node × List Char)) : textOf (front ++ back) = textOf front ++ textOf back := by
  simp [textOf]

/-- Where pieces are read a token begins, if one does behind them. -/
theorem Reads.begins (reads : Reads mode rules Same tail pieces)
    (behind : ∀ offset, (Lexer.next? none ⟨tail, offset⟩).isSome = true) (offset : Nat) :
    (Lexer.next? none ⟨textOf pieces ++ tail, offset⟩).isSome = true := by
  cases reads with
  | nil => exact behind offset
  | @cons statement text others first rest =>
      obtain ⟨token, here, after, read, -⟩ := first.begins none offset
      have text_eq : textOf ((statement, text) :: others) ++ tail = text ++ (textOf others ++ tail) := by simp [textOf]
      rw [text_eq, read]
      rfl

theorem Reads.left {front back : List (Node × List Char)} (reads : Reads mode rules Same tail (front ++ back)) :
    Reads mode rules Same (textOf back ++ tail) front := by
  induction front with
  | nil => exact .nil
  | cons piece front ih =>
      cases reads with
      | cons first rest =>
          refine .cons ?_ (ih rest)
          simpa [textOf] using first

theorem Reads.right {front back : List (Node × List Char)} (reads : Reads mode rules Same tail (front ++ back)) :
    Reads mode rules Same tail back := by
  induction front with
  | nil => exact reads
  | cons piece front ih =>
      cases reads with
      | cons first rest => exact ih rest

section

variable (same_kind : ∀ statement node, Same statement node → statement.statementKind = node.statementKind)
include same_kind

theorem isDirective_of_same {statement node : Node} (same : Same statement node) :
    isDirective node = isDirective statement := by
  rw [Bool.eq_iff_iff, Node.isDirective_iff, Node.isDirective_iff, same_kind _ _ same]

/-- Directives are read again as directives, behind which the prologue goes on. -/
theorem run_of_directives (reads : Reads mode rules Same tail pieces)
    (directives : ∀ piece ∈ pieces, isDirective piece.1 = true) {reading : Reading}
    (stands : reading.StandsAt (textOf pieces ++ tail)) :
    ∃ nodes next, Run mode rules true reading nodes true next ∧ List.Forall₂ Same (pieces.map Prod.fst) nodes ∧
      next.StandsAt tail ∧ next.covers = reading.covers := by
  induction reads generalizing reading with
  | nil => exact ⟨[], reading, .nil true reading, .nil, stands, rfl⟩
  | @cons statement text others first rest ih =>
      have stands : reading.StandsAt (text ++ (textOf others ++ tail)) := by simpa [textOf] using stands
      have directive := directives _ List.mem_cons_self
      obtain ⟨node, between, read, same, stands', covers⟩ := first.read reading stands
      have goes_on := isDirective_of_same same_kind same
      rw [directive] at read goes_on
      obtain ⟨nodes, next, run, all, stands'', covers'⟩ := ih (fun piece member => directives _ (.tail _ member)) stands'
      refine ⟨node :: nodes, next, .cons (first.kind_ne_finish stands) read ?_, .cons same all, stands'',
        covers'.trans covers⟩
      rwa [goes_on]

/-- Statements are read again as the same, unless they are mere texts that join directives before them. -/
theorem run_of_statements (reads : Reads mode rules Same tail pieces)
    (plain : ∀ piece ∈ pieces, isDirective piece.1 = false) {hasDirectives : Prop} {isPrologue : Bool}
    (first_text : isPrologue = true → hasDirectives ∨
      ∀ piece ∈ pieces.head?, piece.1.statementKind = .loneText → piece.2.head? = some '(')
    {reading : Reading} (stands : reading.StandsAt (textOf pieces ++ tail)) :
    ∃ nodes isPrologue' next, Run mode rules isPrologue reading nodes isPrologue' next ∧
      List.Forall₂ (RereadAs Same hasDirectives) (pieces.map Prod.fst) nodes ∧ next.StandsAt tail ∧
      next.covers = reading.covers := by
  induction reads generalizing reading isPrologue with
  | nil => exact ⟨[], isPrologue, reading, .nil isPrologue reading, .nil, stands, rfl⟩
  | @cons statement text others first rest ih =>
      have stands : reading.StandsAt (text ++ (textOf others ++ tail)) := by simpa [textOf] using stands
      have no_directive := plain _ List.mem_cons_self
      obtain ⟨node, between, read, stands', covers, reread⟩ := first.read_statement no_directive stands isPrologue
      have reread : RereadAs Same hasDirectives statement node := by
        refine reread.imp_right ?_
        rintro ⟨prologue, directive, ⟨node', same, lone⟩, value, hasHalves, kind_eq⟩
        have lone : statement.statementKind = .loneText := (same_kind _ _ same).trans lone
        refine ⟨(first_text prologue).resolve_right fun opens => ?_, lone, directive⟩
        rw [stands.kind_eq_of_parenthesis (opens _ rfl lone)] at kind_eq
        cases kind_eq
      have joins : (isPrologue && isDirective node) = true → hasDirectives := by
        rintro goes_on
        rcases reread with same | ⟨joined, -⟩
        · rw [isDirective_of_same same_kind same, no_directive, Bool.and_false] at goes_on
          cases goes_on
        · exact joined
      obtain ⟨nodes, isPrologue', next, run, all, stands'', covers'⟩ :=
        ih (fun piece member => plain _ (.tail _ member)) (fun goes_on => .inl (joins goes_on)) stands'
      exact ⟨node :: nodes, isPrologue', next, .cons (first.kind_ne_finish stands) read run, .cons reread all, stands'',
        covers'.trans covers⟩

/-- Directives and the statements behind them are read again. -/
theorem run_of_reads {directives statements : List (Node × List Char)}
    (reads : Reads mode rules Same tail (directives ++ statements))
    (directive : ∀ piece ∈ directives, isDirective piece.1 = true)
    (plain : ∀ piece ∈ statements, isDirective piece.1 = false)
    (first_text : directives = [] →
      ∀ piece ∈ statements.head?, piece.1.statementKind = .loneText → piece.2.head? = some '(')
    {reading : Reading} (stands : reading.StandsAt (textOf (directives ++ statements) ++ tail)) :
    ∃ nodes isPrologue next, Run mode rules true reading nodes isPrologue next ∧
      List.Forall₂ (RereadAs Same (directives ≠ [])) ((directives ++ statements).map Prod.fst) nodes ∧
      next.StandsAt tail ∧ next.covers = reading.covers := by
  have stands : reading.StandsAt (textOf directives ++ (textOf statements ++ tail)) := by simpa [textOf] using stands
  obtain ⟨nodes, between, run, all, stands', covers⟩ := run_of_directives same_kind reads.left directive stands
  have opens : true = true → directives ≠ [] ∨
      ∀ piece ∈ statements.head?, piece.1.statementKind = .loneText → piece.2.head? = some '(' :=
    fun _ => (Decidable.em (directives = [])).elim (fun none_ => .inr (first_text none_)) .inl
  obtain ⟨nodes', isPrologue, next, run', all', stands'', covers'⟩ :=
    run_of_statements same_kind reads.right plain opens stands'
  refine ⟨nodes ++ nodes', isPrologue, next, run.append run', ?_, stands'', covers'.trans covers⟩
  rw [List.map_append]
  exact List.rel_append (all.imp fun _ _ => .inl) all'

end

end

end Grammar

namespace SourceModule

theorem interpreterLine?_eq_some {characters line : List Char} (found : interpreterLine? characters = some line) :
    ∃ others, line = '#' :: '!' :: others ∧ ∀ c ∈ line, Literal.isLineEnd c = false := by
  unfold interpreterLine? at found
  split at found
  · rename_i rest
    have line_eq := Option.some.inj found
    refine ⟨rest.takeWhile fun c => !Literal.isLineEnd c, by rw [← line_eq]; rfl, fun c member => ?_⟩
    rw [← line_eq] at member
    simpa using List.all_eq_true.mp List.all_takeWhile c member
  · cases found

theorem afterInterpreterLine_eq {text : List Char} (begins : (Lexer.next? none ⟨text, 0⟩).isSome = true) :
    afterInterpreterLine text = ⟨text, 0⟩ := by
  unfold afterInterpreterLine
  split
  · rw [Lexer.next?_interpreter] at begins
    cases begins
  · rfl

/-- The statements of a text begin behind its opening. -/
theorem next?_afterInterpreterLine (source : String) {text : List Char}
    (begins : ∀ offset, (Lexer.next? none ⟨text, offset⟩).isSome = true) :
    ∃ offset, Lexer.next? none (afterInterpreterLine (opening source ++ text)) = Lexer.next? none ⟨text, offset⟩ := by
  cases line_eq : interpreterLine? source.toList with
  | none => exact ⟨0, by rw [opening, line_eq, List.nil_append, afterInterpreterLine_eq (begins 0)]⟩
  | some line =>
      obtain ⟨others, rfl, in_line⟩ := interpreterLine?_eq_some line_eq
      have ended : ('#' :: '!' :: others ++ '\n' :: text).dropWhile (fun c => !Literal.isLineEnd c) = '\n' :: text := by
        rw [List.dropWhile_append_of_pos (by simpa using in_line)]
        rfl
      refine ⟨byteLength (('#' :: '!' :: (others ++ '\n' :: text)).takeWhile fun c => !Literal.isLineEnd c) + 1, ?_⟩
      rw [opening, line_eq]
      dsimp only
      rw [List.append_assoc, List.singleton_append, List.cons_append, List.cons_append, afterInterpreterLine,
        Cursor.takeWhile_eq]
      rw [List.cons_append, List.cons_append] at ended
      rw [ended]
      rw [Nat.zero_add]
      exact Lexer.next?_lineFeed text _

/-- How the tokens of a source are read. -/
def readingMode (dialect : Dialect) (limit : Nat) : Grammar.Mode :=
  { hasMarkup := dialect.hasMarkup, hasTypes := dialect.hasTypes, limit }

/-- A source is read from the first token of its statements on. -/
theorem exists_first_reading (dialect : Dialect) {source written : String} {text : List Char}
    (whole : written.toList = opening source ++ text)
    (begins : ∀ offset, (Lexer.next? none ⟨text, offset⟩).isSome = true) :
    ∃ reading : Grammar.Reading, reading.StandsAt text ∧ reading.covers = [] ∧
      parse? dialect written =
        (Grammar.statementsUpTo (Grammar.rules (8 * (written.toList.length + 2))) .finish (written.toList.length + 2) true
          (readingMode dialect (written.toList.length + 2)) reading).bind fun (body, last) =>
            if last.covers.isEmpty then some {
              program := .mk ⟨0, written.utf8ByteSize⟩ (.program body)
              comments := last.comments.reverse } else none := by
  obtain ⟨offset, same⟩ := next?_afterInterpreterLine source begins
  obtain ⟨⟨token, here, after⟩, read⟩ := Option.isSome_iff_exists.mp (begins offset)
  refine ⟨{ token, here, after, lastStop := 0, comments := token.comments.reverse, covers := [], followed := [] },
    ⟨none, offset, read⟩, rfl, ?_⟩
  rw [parse?]
  simp only [whole, same, read, Option.bind_eq_bind, Option.bind_some]
  rfl

/-- Statements with the texts that are written for them in the place of those of a module. -/
def pieces (module : SourceModule) (source : String) (body : List Node) : List (Node × List Char) :=
  body.zip (module.texts source body)

theorem map_fst_pieces (module : SourceModule) (source : String) (body : List Node) :
    (module.pieces source body).map Prod.fst = body :=
  List.map_fst_zip (Nat.le_of_eq (module.length_texts source body).symm)

theorem textOf_pieces (module : SourceModule) (source : String) (body : List Node) :
    Grammar.textOf (module.pieces source body) = (module.texts source body).flatten := by
  rw [Grammar.textOf, pieces, List.map_snd_zip (Nat.le_of_eq (module.length_texts source body))]

/-- Everything but the first statement is written as it is; a first statement that is a mere text is written in
parentheses. -/
theorem head?_pieces_of_loneText (module : SourceModule) (source : String) (body : List Node)
    {piece : Node × List Char} (first : (module.pieces source body).head? = some piece)
    (lone : piece.1.statementKind = .loneText) : piece.2.head? = some '(' := by
  cases body with
  | nil => cases first
  | cons statement others =>
      cases first
      obtain ⟨span, form⟩ := statement
      cases form with
      | expressionStatement value =>
          obtain ⟨inner, form⟩ := value
          cases form with
          | string => rfl
          | _ => cases lone
      | _ => cases lone

/-- Statements are written at their height, which is not zero. -/
theorem exists_height_eq {body : List Node} (some_node : body ≠ []) :
    ∃ height, (body.map Node.height).foldl max 0 = height + 1 := by
  have grows : ∀ (heights : List Nat) (height : Nat), height ≤ heights.foldl max height := by
    intro heights
    induction heights with
    | nil => exact Nat.le_refl
    | cons next heights ih => exact fun height => Nat.le_trans (Nat.le_max_left height next) (ih _)
  cases body with
  | nil => exact absurd rfl some_node
  | cons first others =>
      have positive : 0 < first.height := by
        rw [Node.height]
        exact Nat.succ_pos _
      have whole := grows (others.map Node.height) (max 0 first.height)
      rw [List.map_cons, List.foldl_cons]
      exact ⟨_, (Nat.succ_pred_eq_of_pos (by omega)).symm⟩

theorem firstLayout_eq {write : Printer.Writer} {s : Printer.Setting} {statement : Node}
    (no_text : statement.statementKind ≠ .loneText) : Printer.firstLayout write s statement = write (s.right 0) statement := by
  obtain ⟨span, form⟩ := statement
  cases form with
  | expressionStatement value =>
      obtain ⟨inner, form⟩ := value
      cases form with
      | string => exact absurd rfl no_text
      | _ => rfl
  | _ => rfl

/-- A statement that is no mere text is written as it is. -/
theorem exists_page_of_mem_pieces {module : SourceModule} {source : String} {body : List Node}
    {piece : Node × List Char} (member : piece ∈ module.pieces source body)
    (no_text : piece.1.statementKind ≠ .loneText) :
    ∃ page height, piece.2 =
      Layout.textOn page (Printer.write (height + 1) ((module.setting source).right 0) piece.1).pieces := by
  cases body with
  | nil => cases member
  | cons first others =>
      obtain ⟨height, height_eq⟩ := exists_height_eq (List.cons_ne_nil first others)
      rw [pieces, texts, layouts, height_eq] at member
      rcases List.mem_cons.mp member with rfl | member
      · exact ⟨openingPage source, height,
          congrArg (fun layout => Layout.textOn _ layout.pieces) (firstLayout_eq no_text)⟩
      · obtain ⟨page, text_eq⟩ := Layout.exists_page_of_mem_zip member
        exact ⟨page, height, text_eq⟩

/-- The statements of a module are written faithfully: comments are written as comments, and each statement that has a
place in the grammar is read from its text, in front of what is written behind it, as the same statement. -/
structure WritesFaithfully (module : SourceModule) (dialect : Dialect) (source : String) (body : List Node)
    (Same : Node → Node → Prop) : Prop where
  /-- Comments have no tokens. -/
  comments : ∀ page offset,
    Lexer.Skips .between (Layout.textOn page (Printer.leadingComments (module.setting source) offset).pieces)
  /-- Statements are read from their texts. -/
  statements : ∀ before statement text after, module.pieces source body = before ++ (statement, text) :: after →
    Grammar.isDirective statement = true ∨ statement.form.isStatement = true →
      Grammar.IsReadAs (readingMode dialect ((module.print source body).toList.length + 2))
        (Grammar.rules (8 * ((module.print source body).toList.length + 2))) Same statement text
        (Grammar.textOf after ++ module.ending source body)

namespace WritesFaithfully

variable {module : SourceModule} {dialect : Dialect} {source : String} {body : List Node} {Same : Node → Node → Prop}

/-- The pieces in front of others are read. -/
theorem reads (faithful : module.WritesFaithfully dialect source body Same) {before front back : List (Node × List Char)}
    (whole : module.pieces source body = before ++ (front ++ back))
    (placed : ∀ piece ∈ front, Grammar.isDirective piece.1 = true ∨ piece.1.form.isStatement = true) :
    Grammar.Reads (readingMode dialect ((module.print source body).toList.length + 2))
      (Grammar.rules (8 * ((module.print source body).toList.length + 2))) Same
      (Grammar.textOf back ++ module.ending source body) front := by
  induction front generalizing before with
  | nil => exact .nil
  | cons piece front ih =>
      obtain ⟨statement, text⟩ := piece
      have first := faithful.statements before statement text (front ++ back) whole (placed _ List.mem_cons_self)
      have behind : module.pieces source body = before ++ [(statement, text)] ++ (front ++ back) := by simp [whole]
      refine .cons ?_ (ih behind fun piece member => placed _ (.tail _ member))
      simpa [Grammar.textOf] using first

/-- The statements in front of others are read again, and nothing is read of the others. -/
theorem exists_parse?_eq (faithful : module.WritesFaithfully dialect source body Same)
    (same_kind : ∀ statement node, Same statement node → statement.statementKind = node.statementKind)
    {directives statements back : List (Node × List Char)}
    (whole : module.pieces source body = directives ++ statements ++ back)
    (directive : ∀ piece ∈ directives, Grammar.isDirective piece.1 = true)
    (placed : ∀ piece ∈ statements, piece.1.form.isStatement = true)
    (begins : ∀ offset, (Lexer.next? none ⟨Grammar.textOf back ++ module.ending source body, offset⟩).isSome = true) :
    ∃ (limit : Nat) (nodes : List Node) (isPrologue : Bool) (reading : Grammar.Reading),
      reading.StandsAt (Grammar.textOf back ++ module.ending source body) ∧ reading.covers = [] ∧
      List.Forall₂ (Grammar.RereadAs Same (directives ≠ [])) ((directives ++ statements).map Prod.fst) nodes ∧
      parse? dialect (module.print source body) =
        (Grammar.statementsUpTo (Grammar.rules (8 * ((module.print source body).toList.length + 2))) .finish (limit + 1)
          isPrologue (readingMode dialect ((module.print source body).toList.length + 2)) reading).bind
            fun (others, last) => if last.covers.isEmpty then some {
              program := .mk ⟨0, (module.print source body).utf8ByteSize⟩ (.program (nodes ++ others))
              comments := last.comments.reverse } else none := by
  set limit := (module.print source body).toList.length + 2 with limit_eq
  have reads : Grammar.Reads (readingMode dialect limit) (Grammar.rules (8 * limit)) Same
      (Grammar.textOf back ++ module.ending source body) (directives ++ statements) :=
    faithful.reads (show _ = [] ++ (directives ++ statements ++ back) from whole) fun piece member =>
      (List.mem_append.mp member).imp (directive piece) (placed piece)
  have text_eq : (module.print source body).toList = opening source ++
      (Grammar.textOf (directives ++ statements) ++ (Grammar.textOf back ++ module.ending source body)) := by
    rw [toList_print, ← textOf_pieces, whole, Grammar.textOf_append, List.append_assoc]
  obtain ⟨first, stands, no_cover, parsed⟩ := exists_first_reading dialect text_eq (reads.begins begins)
  have first_text : directives = [] →
      ∀ piece ∈ statements.head?, piece.1.statementKind = .loneText → piece.2.head? = some '(' := by
    rintro rfl piece member lone
    refine head?_pieces_of_loneText module source body ?_ lone
    rw [whole, List.nil_append, List.head?_append, Option.mem_def.mp member]
    rfl
  obtain ⟨nodes, isPrologue, reading, run, all, stands', covers⟩ := Grammar.run_of_reads same_kind reads directive
    (fun piece member => Grammar.isDirective_eq_false (placed piece member)) first_text stands
  have short : nodes.length ≤ (module.print source body).toList.length := by
    rw [← all.length_eq, List.length_map, text_eq]
    refine Nat.le_trans reads.length_le ?_
    simp only [List.length_append]
    omega
  refine ⟨limit - 1 - nodes.length, nodes, isPrologue, reading, stands', covers.trans no_cover, all, ?_⟩
  have all_read := Grammar.statementsUpTo_of_run run (limit - 1 - nodes.length + 1)
  rw [show nodes.length + (limit - 1 - nodes.length + 1) = limit by omega] at all_read
  rw [parsed, all_read, Option.bind_map]
  rfl

/-- What is written faithfully is read again, statement by statement. -/
theorem exists_parse?_print (faithful : module.WritesFaithfully dialect source body Same)
    (same_kind : ∀ statement node, Same statement node → statement.statementKind = node.statementKind)
    {directives statements : List Node} (body_eq : body = directives ++ statements)
    (directive : ∀ node ∈ directives, Grammar.isDirective node = true)
    (placed : ∀ node ∈ statements, node.form.isStatement = true) :
    ∃ again, parse? dialect (module.print source body) = some again ∧
      List.Forall₂ (Grammar.RereadAs Same (directives ≠ [])) body again.program.children := by
  obtain ⟨first, others, whole, rfl, rfl⟩ := List.map_eq_append_iff.mp ((module.map_fst_pieces source body).trans body_eq)
  have skipped : ∀ previous offset, ∃ token here after,
      Lexer.next? previous ⟨Grammar.textOf [] ++ module.ending source body, offset⟩ = some (token, here, after) ∧
        token.kind = .finish := Lexer.next?_of_skips (faithful.comments _ _)
  have begins : ∀ offset,
      (Lexer.next? none ⟨Grammar.textOf [] ++ module.ending source body, offset⟩).isSome = true := by
    intro offset
    obtain ⟨token, here, after, read, -⟩ := skipped none offset
    rw [read]
    rfl
  obtain ⟨limit, nodes, isPrologue, reading, ⟨previous, offset, read⟩, no_cover, all, parsed⟩ :=
    faithful.exists_parse?_eq same_kind (by rw [whole, List.append_nil])
      (fun piece member => directive _ (List.mem_map_of_mem member))
      (fun piece member => placed _ (List.mem_map_of_mem member)) begins
  have finished : reading.token.kind = .finish := by
    obtain ⟨token, here, after, read', kind_eq⟩ := skipped previous offset
    rw [read] at read'
    cases read'
    exact kind_eq
  have uncovered : reading.covers.isEmpty = true := by rw [no_cover]; rfl
  rw [Grammar.statementsUpTo_of_finish finished, Option.bind_some] at parsed
  dsimp only at parsed
  rw [if_pos uncovered, List.append_nil] at parsed
  refine ⟨_, parsed, ?_⟩
  rw [List.map_append, ← body_eq] at all
  refine all.imp fun statement node => Or.imp_right fun ⟨joins, others⟩ => ⟨?_, others⟩
  simpa using joins

/-- A text is not read at all if the rule for statements fails behind some of its statements. -/
theorem parse?_print_eq_none (faithful : module.WritesFaithfully dialect source body Same)
    (same_kind : ∀ statement node, Same statement node → statement.statementKind = node.statementKind)
    {directives statements back : List (Node × List Char)} {statement : Node} {text : List Char}
    (whole : module.pieces source body = directives ++ statements ++ (statement, text) :: back)
    (directive : ∀ piece ∈ directives, Grammar.isDirective piece.1 = true)
    (placed : ∀ piece ∈ statements, piece.1.form.isStatement = true)
    (begins : ∀ offset, (Lexer.next? none ⟨text ++ (Grammar.textOf back ++ module.ending source body), offset⟩).isSome = true)
    (fails : ∀ mode depth isPrologue (reading : Grammar.Reading),
      reading.StandsAt (text ++ (Grammar.textOf back ++ module.ending source body)) → reading.token.kind ≠ .finish ∧
        Grammar.nextStatement (Grammar.rules depth) isPrologue mode reading = none) :
    parse? dialect (module.print source body) = none := by
  have text_eq : Grammar.textOf ((statement, text) :: back) ++ module.ending source body =
      text ++ (Grammar.textOf back ++ module.ending source body) := by
    simp [Grammar.textOf]
  obtain ⟨limit, nodes, isPrologue, reading, stands, -, -, parsed⟩ :=
    faithful.exists_parse?_eq same_kind whole directive placed (by rwa [text_eq])
  rw [text_eq] at stands
  obtain ⟨begins, none_read⟩ := fails _ _ isPrologue reading stands
  rw [parsed, Grammar.statementsUpTo_of_begins begins, none_read]
  rfl

end WritesFaithfully

end SourceModule

end Storyboard
