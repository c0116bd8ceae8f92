import Storyboard.Proofs.ImportTokens
import Storyboard.Proofs.WrittenStatements

/-!
# Functions without a name

What a module exports by default may be a function without a name, but a function that stands as a statement has to
have one: behind the word the rule of functions does not accept the parenthesis of the parameters, and no other rule
begins with that word. So a function without a name is written as a text that is no statement, and a module in which it
stands is not read at all.
-/

namespace Storyboard

namespace Lexer

/-- Behind a blank a token is on the line of the one before. -/
theorem afterLineEnd_of_blank {previous : TokenKind} {c : Char} {rest : List Char} {offset : Nat} {token : Token}
    {here after : Cursor} (begins : Begins c)
    (read : next? (some previous) ⟨' ' :: c :: rest, offset⟩ = some (token, here, after)) : token.afterLineEnd = false := by
  have skipped : ∀ gap, skipGap .between (' ' :: c :: rest) offset gap = some (⟨c :: rest, offset + 1⟩, gap) :=
    skipGap_of_begins begins rest (offset + 1)
  obtain ⟨⟨here', gap⟩, skipped', read⟩ := Option.bind_eq_some_iff.mp read
  cases (skipped _).symm.trans skipped'
  dsimp only at read
  split_ifs at read
  obtain ⟨⟨kind, after'⟩, -, same⟩ := Option.bind_eq_some_iff.mp read
  cases same
  rfl

end Lexer

namespace Grammar

variable {mode : Mode} {reading next : Reading} {rules : Rules}

/-! ## Words of a function without a name -/

/-- Parameters begin, or the star of a generator before them. -/
inductive OpensParameters : List Char → Prop
  | plain (rest : List Char) : OpensParameters ('(' :: rest)
  | generator (rest : List Char) : OpensParameters ('*' :: ' ' :: '(' :: rest)

/-- A reader stands at the words of a function without a name. -/
inductive Reading.AtUnnamed (reading : Reading) : Prop
  | plain (kind_eq : reading.token.kind = .name "function" false) (opens : OpensParameters reading.after.rest)
  | async {rest : List Char} (kind_eq : reading.token.kind = .name "async" false)
    (rest_eq : reading.after.rest = ' ' :: ("function".toList ++ rest)) (opens : OpensParameters rest)

/-- The words do not tell more than that a function begins. -/
theorem Reading.AtUnnamed.exists_kind_eq (unnamed : reading.AtUnnamed) :
    ∃ word ∈ ["function", "async"], reading.token.kind = .name word false := by
  cases unnamed with
  | plain kind_eq => exact ⟨_, .head _, kind_eq⟩
  | async kind_eq => exact ⟨_, .tail _ (.head _), kind_eq⟩

/-- No other word stands there. -/
theorem Reading.AtUnnamed.kind_beq {word : String} (unnamed : reading.AtUnnamed) (other : word ∉ ["function", "async"]) :
    (reading.token.kind == .name word false) = false := by
  obtain ⟨word', member, kind_eq⟩ := unnamed.exists_kind_eq
  rw [kind_eq]
  simp only [beq_eq_false_iff_ne, ne_eq, TokenKind.name.injEq, and_true]
  rintro rfl
  exact other member

/-- What the next token is can be seen in the text behind the place. -/
theorem exists_advance {gap text rest : List Char} {kind : TokenKind} (mode : Mode) (skips : Lexer.Skips .between gap)
    (token : Lexer.IsToken kind text) (ends : Lexer.EndsBefore kind rest)
    (rest_eq : reading.after.rest = gap ++ (text ++ rest)) :
    ∃ next, advance mode reading = some ((), next) ∧ next.token.kind = kind ∧ next.after.rest = rest ∧
      next.covers = reading.covers := by
  obtain ⟨found, here, after, read, kind_eq, rest_eq'⟩ :=
    Lexer.next?_of_isToken skips token ends (some reading.token.kind) reading.after.offset
  refine ⟨{ reading with
    token := found, here, after
    lastStop := reading.token.span.stop
    comments := found.comments.reverse ++ reading.comments }, ?_, kind_eq, rest_eq', rfl⟩
  rw [← rest_eq] at read
  rw [advance_eq, read]
  rfl

theorem kind_eq_of_advance {gap text rest : List Char} {kind : TokenKind} {value : Unit} (skips : Lexer.Skips .between gap)
    (token : Lexer.IsToken kind text) (ends : Lexer.EndsBefore kind rest)
    (rest_eq : reading.after.rest = gap ++ (text ++ rest)) (moved : advance mode reading = some (value, next)) :
    next.token.kind = kind ∧ next.after.rest = rest := by
  obtain ⟨next', moved', kind_eq, rest_eq', -⟩ := exists_advance mode skips token ends rest_eq
  cases moved.symm.trans moved'
  exact ⟨kind_eq, rest_eq'⟩

theorem OpensParameters.endsName {rest : List Char} (opens : OpensParameters rest) : Lexer.EndsName rest := by
  cases opens <;> (rintro c ⟨⟩; decide)

theorem isToken_function : Lexer.IsToken (.name "function" false) "function".toList :=
  Lexer.isToken_of_isWord (by decide)

/-- Behind `async` the word `function` follows on the same line. -/
theorem function_of_advance {rest : List Char} {value : Unit} (opens : OpensParameters rest)
    (rest_eq : reading.after.rest = ' ' :: ("function".toList ++ rest))
    (moved : advance mode reading = some (value, next)) :
    next.token.kind = .name "function" false ∧ next.after.rest = rest ∧ next.token.afterLineEnd = false := by
  obtain ⟨kind_eq, rest_eq'⟩ :=
    kind_eq_of_advance Lexer.skips_space isToken_function opens.endsName rest_eq moved
  refine ⟨kind_eq, rest_eq', ?_⟩
  obtain ⟨read, -⟩ := eq_of_advance moved
  have begins : Lexer.Begins 'f' := by constructor <;> decide
  have cursor_eq : reading.after = ⟨' ' :: 'f' :: ("unction".toList ++ rest), reading.after.offset⟩ := by
    rw [show ' ' :: 'f' :: ("unction".toList ++ rest) = ' ' :: ("function".toList ++ rest) from rfl, ← rest_eq]
  rw [cursor_eq] at read
  exact Lexer.afterLineEnd_of_blank begins read

/-- A word is taken exactly if it is there. -/
theorem eatWord_cases {word : String} {found : Bool} (read : eatWord word mode reading = some (found, next)) :
    found = true ∧ reading.token.kind = .name word false ∧ advance mode reading = some ((), next) ∨
      found = false ∧ reading.token.kind ≠ .name word false ∧ next = reading := by
  obtain ⟨_, _, same, read⟩ := exists_of_bind read
  cases same
  split_ifs at read with there
  · obtain ⟨_, _, moved, same⟩ := exists_of_bind read
    cases same
    exact .inl ⟨rfl, eq_of_beq there, moved⟩
  · cases read
    exact .inr ⟨rfl, by simpa using there, rfl⟩

/-- Behind `async`, if it is there, the word `function` stands in front of the parameters. -/
theorem opensParameters_of_eatWord {isAsync : Bool} (unnamed : reading.AtUnnamed)
    (read : eatWord "async" mode reading = some (isAsync, next)) : OpensParameters next.after.rest := by
  cases unnamed with
  | plain kind_eq opens =>
      rcases eatWord_cases read with ⟨-, async, -⟩ | ⟨-, -, rfl⟩
      · rw [kind_eq] at async
        exact absurd async (by decide)
      · exact opens
  | async kind_eq rest_eq opens =>
      rcases eatWord_cases read with ⟨-, -, moved⟩ | ⟨-, other, -⟩
      · obtain ⟨-, rest_eq', -⟩ := function_of_advance opens rest_eq moved
        rwa [rest_eq']
      · exact absurd kind_eq other

/-- Behind the word `function` and a star the parameters begin. -/
theorem parenthesis_of_eatMark {between : Reading} {value : Unit} {isGenerator : Bool}
    (opens : OpensParameters reading.after.rest) (moved : advance mode reading = some (value, between))
    (taken : eatMark "*" mode between = some (isGenerator, next)) : next.token.kind = .mark "(" := by
  generalize rest_eq : reading.after.rest = rest at opens
  cases opens with
  | plain rest =>
      obtain ⟨kind_eq, -⟩ := kind_eq_of_advance Lexer.skips_nil Lexer.isToken_parenthesis
        (Lexer.endsBefore_parenthesis rest) rest_eq moved
      rcases eatMark_cases taken with ⟨-, star, -⟩ | ⟨-, -, rfl⟩
      · rw [kind_eq] at star
        exact absurd star (by decide)
      · exact kind_eq
  | generator rest =>
      have ends : Lexer.EndsBefore (.mark "*") (' ' :: '(' :: rest) := by
        rintro - c ⟨⟩
        decide
      obtain ⟨kind_eq, rest_eq'⟩ := kind_eq_of_advance Lexer.skips_nil Lexer.isToken_star ends rest_eq moved
      rcases eatMark_cases taken with ⟨-, -, moved'⟩ | ⟨-, other, -⟩
      · exact (kind_eq_of_advance Lexer.skips_space Lexer.isToken_parenthesis
          (Lexer.endsBefore_parenthesis rest) rest_eq' moved').1
      · exact absurd kind_eq other

/-! ## Rules in front of such a function -/

theorem atIdentifier_of_mark {text : String} (kind_eq : reading.token.kind = .mark text) :
    atIdentifier mode reading = some (false, reading) := by
  obtain ⟨rule, rule_eq, same⟩ := of_kind (rfl : atIdentifier mode reading = _)
  rw [kind_eq] at rule_eq
  rw [← same, ← rule_eq]
  rfl

theorem atWord_eq {word : String} : atWord word mode reading = some (reading.token.kind == .name word false, reading) :=
  rfl

theorem peekIs_of_advance {condition : Token → Bool} (moved : advance mode reading = some ((), next)) :
    peekIs condition mode reading = some (condition next.token, reading) := by
  have ahead : peek mode reading = some (some next.token, reading) := by
    rw [peek, lookAhead, bind_eq_of_eq_some moved]
    rfl
  rw [peekIs, bind_eq_of_eq_some ahead]
  rfl

/-- A function that has to have a name is not read without it. -/
theorem function_eq_none {role : Role} (unnamed : reading.AtUnnamed) : function rules role true mode reading = none := by
  refine Option.eq_none_iff_forall_ne_some.mpr ?_
  rintro ⟨node, last⟩ read
  obtain ⟨isAsync, first, taken, read⟩ := exists_of_bind (of_start read)
  obtain ⟨_, second, worded, read⟩ := exists_of_bind read
  obtain ⟨isGenerator, third, starred, read⟩ := exists_of_bind read
  obtain ⟨name, fourth, named, read⟩ := exists_of_bind read
  obtain ⟨needed, -⟩ := of_ensure (of_atMark read)
  obtain ⟨found, _, eaten, checked⟩ := exists_of_bind worded
  rcases eatWord_cases eaten with ⟨rfl, -, moved⟩ | ⟨rfl, -⟩
  · cases checked
    have parenthesis := parenthesis_of_eatMark (opensParameters_of_eatWord unnamed taken) moved starred
    have named := of_withReader named
    obtain ⟨isThere, _, looked, named⟩ := exists_of_bind named
    cases (atIdentifier_of_mark parenthesis).symm.trans looked
    cases named
    simp [parenthesis] at needed
  · cases checked

/-- A function begins. -/
theorem atFunction_eq (unnamed : reading.AtUnnamed) : atFunction mode reading = some (true, reading) := by
  cases unnamed with
  | plain kind_eq =>
      rw [atFunction, bind_eq_of_eq_some atWord_eq, kind_eq]
      rfl
  | async kind_eq rest_eq opens =>
      obtain ⟨next, moved, kind_eq', -⟩ :=
        exists_advance mode Lexer.skips_space isToken_function opens.endsName rest_eq
      obtain ⟨-, -, on_line⟩ := function_of_advance opens rest_eq moved
      rw [atFunction, bind_eq_of_eq_some atWord_eq, kind_eq, if_neg (by decide), bind_eq_of_eq_some atWord_eq, kind_eq,
        if_pos (by decide), peekIs_of_advance moved, kind_eq', on_line]
      rfl

/-- What depends on another word is not done. -/
theorem of_absentWord {α : Type} {word : String} {rest : Bool → Parse α} {result : Option (α × Reading)}
    (unnamed : reading.AtUnnamed) (other : word ∉ ["function", "async"])
    (read : (atWord word >>= rest) mode reading = result) : rest false mode reading = result := by
  rwa [bind_eq_of_eq_some atWord_eq, unnamed.kind_beq other] at read

theorem of_absentWords {α : Type} {word : String} {condition : Token → Bool} {yes no : Parse α} {result : α × Reading}
    (unnamed : reading.AtUnnamed) (other : word ∉ ["function", "async"])
    (read : (do if (← atWord word) && (← peekIs condition) then yes else no : Parse α) mode reading = some result) :
    no mode reading = some result := by
  obtain ⟨_, _, peeked, read⟩ := exists_of_bind (of_absentWord unnamed other read)
  obtain ⟨_, peeked'⟩ := peekIs_eq condition mode reading
  cases peeked.symm.trans peeked'
  exact read

theorem eq_of_namespaceBlock? {start : Nat} (unnamed : reading.AtUnnamed) {found : Option Node}
    (read : namespaceBlock? rules start mode reading = some (found, next)) : found = none ∧ next = reading := by
  have read := of_absentWords unnamed (by decide) (of_absentWord unnamed (by decide) read)
  have read := of_absentWords unnamed (by decide) read
  cases read
  exact ⟨rfl, rfl⟩

/-- No declaration of types begins. -/
theorem eq_of_typedStatement (unnamed : reading.AtUnnamed) {found : Option Node}
    (read : typedStatement rules mode reading = some (found, next)) : found = none ∧ next = reading := by
  obtain ⟨_, _, same, read⟩ := exists_of_bind (of_start read)
  cases same
  split_ifs at read
  · have read := of_absentWords unnamed (by decide) read
    have read := of_absentWords unnamed (by decide) read
    have read := of_absentWords unnamed (by decide) read
    have read := of_absentWord unnamed (by decide) read
    have read := of_absentWords unnamed (by decide) read
    have read := of_absentWords unnamed (by decide) read
    exact eq_of_namespaceBlock? unnamed read
  · cases read
    exact ⟨rfl, rfl⟩

theorem plainStatement_eq_none {isSingle : Bool} (unnamed : reading.AtUnnamed) :
    plainStatement rules isSingle mode reading = none := by
  refine Option.eq_none_iff_forall_ne_some.mpr ?_
  rintro ⟨node, last⟩ read
  obtain ⟨found, between, typed, read⟩ := exists_of_bind (of_start read)
  obtain ⟨rfl, rfl⟩ := eq_of_typedStatement unnamed typed
  obtain ⟨rule, rule_eq, read⟩ := of_kind read
  obtain ⟨word, member, kind_eq⟩ := unnamed.exists_kind_eq
  have no_rule : wordStatement rules between.token.span.start word = none ∧ word ≠ "class" := by
    simp only [List.mem_cons, List.not_mem_nil, or_false] at member
    rcases member with rfl | rfl <;> exact ⟨rfl, by decide⟩
  rw [kind_eq] at rule_eq
  dsimp only at rule_eq
  rw [no_rule.1] at rule_eq
  dsimp only at rule_eq
  rw [if_neg (by simpa using no_rule.2)] at rule_eq
  rw [← rule_eq, bind_eq_of_eq_some (atFunction_eq unnamed), if_pos rfl] at read
  obtain ⟨_, _, found, -⟩ := exists_of_bind read
  rw [function_eq_none unnamed] at found
  cases found

/-- No statement is read in front of a function without a name. -/
theorem nextStatement_eq_none {depth : Nat} {isPrologue : Bool} (unnamed : reading.AtUnnamed) :
    nextStatement (Grammar.rules depth) isPrologue mode reading = none := by
  obtain ⟨word, member, kind_eq⟩ := unnamed.exists_kind_eq
  have statement_none : Grammar.rules depth (.statement false) mode reading = none := by
    cases depth with
    | zero => rfl
    | succ depth =>
        refine Option.eq_none_iff_forall_ne_some.mpr ?_
        rintro ⟨node, last⟩ read
        obtain ⟨_, _, same, read⟩ := exists_of_bind read
        cases same
        obtain ⟨_, _, found, -⟩ := exists_of_bind read
        obtain ⟨rule, rule_eq, found⟩ := of_kind found
        split at rule_eq
        · exact absurd ‹_› (ne_of_beq_false (unnamed.kind_beq (by decide)))
        · exact absurd ‹_› (ne_of_beq_false (unnamed.kind_beq (by decide)))
        · rename_i mark
          cases kind_eq.symm.trans mark
        · rw [← rule_eq, plainStatement_eq_none unnamed] at found
          cases found
  cases isPrologue with
  | false => exact statement_none
  | true => exact (prologueStatement_of_other (by simp [kind_eq])).trans statement_none

/-! ## Texts of such functions -/

/-- A text begins with the words of a function without a name. -/
inductive BeginsUnnamed : List Char → Prop
  | plain {gap rest : List Char} (skips : Lexer.Skips .between gap) (opens : OpensParameters rest) :
    BeginsUnnamed (gap ++ ("function".toList ++ rest))
  | async {gap rest : List Char} (skips : Lexer.Skips .between gap) (opens : OpensParameters rest) :
    BeginsUnnamed (gap ++ ("async".toList ++ ' ' :: ("function".toList ++ rest)))

namespace BeginsUnnamed

variable {text : List Char}

theorem append (begins : BeginsUnnamed text) (more : List Char) : BeginsUnnamed (text ++ more) := by
  have longer : ∀ {rest}, OpensParameters rest → OpensParameters (rest ++ more) := by
    rintro _ (rest | rest)
    · exact .plain (rest ++ more)
    · exact .generator (rest ++ more)
  cases begins with
  | plain skips opens =>
      rw [List.append_assoc, List.append_assoc]
      exact .plain skips (longer opens)
  | async skips opens =>
      rw [List.append_assoc, List.append_assoc, List.cons_append, List.append_assoc]
      exact .async skips (longer opens)

theorem behind {gap : List Char} (skips : Lexer.Skips .between gap) (begins : BeginsUnnamed text) :
    BeginsUnnamed (gap ++ text) := by
  cases begins with
  | plain skips' opens =>
      rw [← List.append_assoc]
      exact .plain (skips.append skips') opens
  | async skips' opens =>
      rw [← List.append_assoc]
      exact .async (skips.append skips') opens

/-- A reader of the text stands at the words. -/
theorem exists_next? (begins : BeginsUnnamed text) (previous : Option TokenKind) (offset : Nat) :
    ∃ token here after, Lexer.next? previous ⟨text, offset⟩ = some (token, here, after) ∧
      ∀ reading : Reading, reading.token = token → reading.after = after → reading.AtUnnamed := by
  cases begins with
  | plain skips opens =>
      obtain ⟨token, here, after, read, kind_eq, rest_eq⟩ :=
        Lexer.next?_of_isToken skips isToken_function opens.endsName previous offset
      refine ⟨token, here, after, read, ?_⟩
      rintro reading rfl rfl
      exact .plain kind_eq (rest_eq ▸ opens)
  | @async _ rest skips opens =>
      have ends : Lexer.EndsBefore (.name "async" false) (' ' :: ("function".toList ++ rest)) :=
        Lexer.endsName_of_mark (by decide) _
      obtain ⟨token, here, after, read, kind_eq, rest_eq⟩ :=
        Lexer.next?_of_isToken skips (Lexer.isToken_of_isWord (by decide)) ends previous offset
      refine ⟨token, here, after, read, ?_⟩
      rintro reading rfl rfl
      exact .async kind_eq rest_eq opens

theorem atUnnamed (begins : BeginsUnnamed text) (stands : reading.StandsAt text) : reading.AtUnnamed := by
  obtain ⟨previous, offset, read⟩ := stands
  obtain ⟨token, here, after, read', at_⟩ := begins.exists_next? previous offset
  rw [read] at read'
  cases read'
  exact at_ reading rfl rfl

end BeginsUnnamed

end Grammar

namespace Page

theorem skips_indentation (page : Page) (depth : Nat) : Lexer.Skips .between (page.indentation depth) := by
  unfold indentation
  split
  · exact Lexer.skips_space
  · induction depth with
    | zero => exact Lexer.skips_nil
    | succ depth ih => exact Lexer.skips_blank (.inr (by decide)) ih

end Page

namespace Printer

theorem skips_harmlessMark : Lexer.Skips .between harmlessMark.toList := by
  obtain ⟨gap, skipped⟩ : ∃ gap, Lexer.skipGap .between (harmlessMark.toList ++ ['x']) 0 {} = some (⟨['x'], 26⟩, gap) :=
    ⟨_, rfl⟩
  obtain ⟨text, across, stops⟩ := Lexer.exists_skips_of_skipGap skipped
  rw [List.append_cancel_right across.1]
  exact (stops 'x' rfl).2

theorem skips_indent (page : Page) (depth : Nat) :
    Lexer.Skips .between (Layout.textOn page (Layout.indent depth).pieces) := by
  have whole : Layout.textOn page (Layout.indent depth).pieces = page.indentation depth := List.append_nil _
  rw [whole]
  exact page.skips_indentation depth

/-- A promise about a function on a line of its own is skipped. -/
theorem skips_promise (page : Page) (depth : Nat) :
    Lexer.Skips .between (Layout.textOn page (Layout.indent depth ++ harmlessMark ++ "\n").pieces) := by
  have ending : Lexer.Skips .between ['\n'] := Lexer.skips_blank (.inl (by decide)) Lexer.skips_nil
  have whole : Layout.textOn page (Layout.indent depth ++ harmlessMark ++ "\n").pieces =
      page.indentation depth ++ (harmlessMark.toList ++ ['\n']) := rfl
  rw [whole]
  exact (page.skips_indentation depth).append (skips_harmlessMark.append ending)

theorem exists_pieces_functionText (write : Writer) (s : Setting) {head : FunctionHead} (parameters : List Node)
    (body : Option Node) (no_types : head.typeParameters = []) :
    ∃ others, (functionText write s head none parameters body).pieces =
      .text (when head.isAsync "async ") :: .text "function" :: .text (when head.isGenerator "* ") :: .text "(" ::
        others := by
  unfold functionText functionSignature
  rw [no_types]
  exact ⟨_, rfl⟩

theorem beginsUnnamed_functionText {write : Writer} {s : Setting} {head : FunctionHead} {parameters : List Node}
    {body : Option Node} (no_types : head.typeParameters = []) (page : Page) :
    Grammar.BeginsUnnamed (Layout.textOn page (functionText write s head none parameters body).pieces) := by
  obtain ⟨others, pieces_eq⟩ := exists_pieces_functionText write s parameters body no_types
  have opens : ∀ rest, Grammar.OpensParameters ((when head.isGenerator "* ").toList ++ '(' :: rest) := by
    intro rest
    cases head.isGenerator with
    | false => exact .plain rest
    | true => exact .generator rest
  rw [pieces_eq]
  simp only [Layout.textOn, Page.textOf]
  cases head.isAsync with
  | false => exact .plain Lexer.skips_nil (opens _)
  | true => exact .async Lexer.skips_nil (opens _)

/-- A declared function without a name is written with the words of one. -/
theorem beginsUnnamed_write {height : Nat} {s : Setting} {statement : Node}
    (unnamed : statement.form.isUnnamedFunction = true) (page : Page)
    (comments : ∀ page offset, Lexer.Skips .between (Layout.textOn page (leadingComments s offset).pieces)) :
    Grammar.BeginsUnnamed (Layout.textOn page (write (height + 1) s statement).pieces) := by
  obtain ⟨span, form⟩ := statement
  cases form with
  | function head name parameters body =>
      obtain ⟨⟨role, rfl⟩, no_types⟩ : (head.role = .declaration ∧ name = none) ∧ head.typeParameters = [] := by
        simpa [Node.form, Form.isUnnamedFunction] using unnamed
      have written : write (height + 1) s (.mk span (.function head none parameters body)) =
          declaredFunction s (.mk span (.function head none parameters body)) head.isPure
            (functionText (write height) s head none parameters body) := by
        have declared : (head.role == .declaration) = true := beq_iff_eq.mpr role
        exact if_pos declared
      rw [written, declaredFunction]
      simp only [Layout.pieces_append, Layout.textOn_append, List.append_assoc]
      refine .behind (comments page _) (.behind ?_ (.behind ?_ ((beginsUnnamed_functionText no_types _).append _)))
      · cases head.isPure with
        | false => exact Lexer.skips_nil
        | true => exact skips_promise _ _
      · exact skips_indent _ _
  | _ => cases unnamed

end Printer

namespace SourceModule

variable {module : SourceModule} {dialect : Dialect} {source : String} {body : List Node} {Same : Node → Node → Prop}

/-- A module in which a function without a name stands as a statement is not read. -/
theorem WritesFaithfully.parse?_print_eq_none_of_unnamed
    (faithful : module.WritesFaithfully dialect source body Same)
    (same_kind : ∀ statement node, Same statement node → statement.statementKind = node.statementKind)
    {directives statements : List Node} (body_eq : body = directives ++ statements)
    (directive : ∀ node ∈ directives, Grammar.isDirective node = true)
    (placed : ∀ node ∈ statements, node.form.isStatement = true ∨ node.form.isUnnamedFunction = true)
    (some_unnamed : ∃ node ∈ statements, node.form.isUnnamedFunction = true) :
    parse? dialect (module.print source body) = none := by
  obtain ⟨unnamed, found⟩ : ∃ unnamed, statements.find? (fun node : Node => node.form.isUnnamedFunction) = some unnamed :=
    Option.isSome_iff_exists.mp (List.find?_isSome.mpr some_unnamed)
  obtain ⟨is_unnamed, front, back, rfl, named⟩ := List.find?_eq_some_iff_append.mp found
  obtain ⟨first, others, whole, rfl, others_eq⟩ :=
    List.map_eq_append_iff.mp ((module.map_fst_pieces source body).trans body_eq)
  obtain ⟨middle, last, rfl, rfl, last_eq⟩ := List.map_eq_append_iff.mp others_eq
  obtain ⟨⟨statement, text⟩, rest, rfl, statement_eq, -⟩ := List.map_eq_cons_iff.mp last_eq
  obtain rfl : statement = unnamed := statement_eq
  have no_text : statement.statementKind ≠ .loneText := by
    obtain ⟨span, form⟩ := statement
    cases form with
    | function => exact StatementKind.noConfusion
    | _ => cases is_unnamed
  have member : (statement, text) ∈ module.pieces source body := by simp [whole]
  obtain ⟨page, height, text_eq⟩ := exists_page_of_mem_pieces member no_text
  have begins : Grammar.BeginsUnnamed (text ++ (Grammar.textOf rest ++ module.ending source body)) := by
    have words : Grammar.BeginsUnnamed text := by
      rw [show text = _ from text_eq]
      exact Printer.beginsUnnamed_write is_unnamed page faithful.comments
    exact words.append _
  refine faithful.parse?_print_eq_none same_kind (whole.trans (List.append_assoc _ _ _).symm)
    (fun piece member => directive _ (List.mem_map_of_mem member)) (fun piece member => ?_) (fun offset => ?_)
    fun mode depth isPrologue reading stands => ?_
  · have member := List.mem_map_of_mem (f := Prod.fst) member
    refine (placed _ (List.mem_append_left _ member)).resolve_right fun is_unnamed => ?_
    simpa [is_unnamed] using named _ member
  · obtain ⟨token, here, after, read, -⟩ := begins.exists_next? none offset
    rw [read]
    rfl
  · have unnamed := begins.atUnnamed stands
    obtain ⟨word, -, kind_eq⟩ := unnamed.exists_kind_eq
    exact ⟨by rw [kind_eq]; exact TokenKind.noConfusion, Grammar.nextStatement_eq_none unnamed⟩

end SourceModule

end Storyboard
