import Storyboard.Proofs.TokenTexts

/-!
# Rules on known tokens

A text spells a list of tokens if they stand in it one behind the other, with gaps that are skipped. What a rule does
in front of such a text follows from the tokens alone. So a text that was put together from known tokens is read
without looking at its characters again.
-/

namespace Storyboard

namespace Lexer

/-- A text spells tokens up to its end. -/
inductive Spells : List TokenKind → List Char → Prop
  | nil : Spells [] []
  | cons {kind : TokenKind} {kinds : List TokenKind} {gap text rest : List Char} (skips : Skips .between gap)
      (token : IsToken kind text) (ends : EndsBefore kind rest) (others : Spells kinds rest) :
      Spells (kind :: kinds) (gap ++ (text ++ rest))

/-- A token has a character. -/
theorem Spells.length_le {kinds : List TokenKind} {text : List Char} (spells : Spells kinds text) :
    kinds.length ≤ text.length := by
  induction spells with
  | nil => exact Nat.le_refl 0
  | cons skips token ends others ih =>
      obtain ⟨c, behind, rfl, -⟩ := token.1
      simp only [List.length_cons, List.length_append]
      omega

/-! ## Texts that spell tokens -/

theorem skips_space : Skips .between [' '] := skips_blank (.inr (by decide)) skips_nil

/-- A text spells tokens wherever it stands, if no name goes on behind it. -/
def IsSpelling (kinds : List TokenKind) (text : List Char) : Prop :=
  ∀ gap others rest, Skips .between gap → EndsName rest → Spells others rest →
    Spells (kinds ++ others) (gap ++ (text ++ rest))

theorem isSpelling_name {name : String} {isEscaped : Bool} {text : List Char}
    (token : IsToken (.name name isEscaped) text) :
    IsSpelling [.name name isEscaped] text :=
  fun _ _ _ skips ends spells => .cons skips token ends spells

/-- Tokens of items with commas between them. -/
def commas : List (List TokenKind) → List TokenKind
  | [] => []
  | [kinds] => kinds
  | kinds :: next :: others => kinds ++ .mark "," :: commas (next :: others)

theorem length_le_commas (items : List (List TokenKind)) : items.length ≤ (commas items).length + 1 := by
  fun_induction commas items with
  | case1 => simp
  | case2 => simp
  | case3 kinds next others ih =>
      simp only [List.length_cons, List.length_append] at ih ⊢
      omega

theorem length_le_commas_of_mem {kinds : List TokenKind} {items : List (List TokenKind)} (member : kinds ∈ items) :
    kinds.length ≤ (commas items).length := by
  fun_induction commas items with
  | case1 => cases member
  | case2 first => exact Nat.le_of_eq (congrArg List.length (List.mem_singleton.mp member))
  | case3 first next others ih =>
      rw [List.length_append, List.length_cons]
      rcases List.mem_cons.mp member with rfl | member
      · omega
      · have small := ih member
        omega

theorem endsName_of_mark {c : Char} (listed : c ∈ [' ', ',', ';']) (rest : List Char) : EndsName (c :: rest) := by
  have plain : ([' ', ',', ';'].all fun c => !Text.isNamePart c && c != '\\') = true := by decide
  intro first head
  obtain rfl : c = first := by simpa using head
  simpa using List.all_eq_true.mp plain c listed

theorem endsBefore_delimiter {mark : String} (listed : mark ∈ delimiters) (rest : List Char) :
    EndsBefore (.mark mark) rest := by
  rintro rfl
  exact absurd listed (by decide)

theorem Spells.delimiter {mark : String} {kinds : List TokenKind} {rest : List Char} (listed : mark ∈ delimiters)
    (others : Spells kinds rest) : Spells (.mark mark :: kinds) (mark.toList ++ rest) :=
  cons skips_nil (isToken_of_mem_delimiters listed) (endsBefore_delimiter listed rest) others

theorem IsSpelling.comma {first second : List TokenKind} {front back : List Char} (spelling : IsSpelling first front)
    (others : IsSpelling second back) : IsSpelling (first ++ .mark "," :: second) (front ++ (", ".toList ++ back)) := by
  intro gap kinds rest skips ends spells
  have behind := others [' '] kinds rest skips_space ends spells
  have from_comma : Spells (.mark "," :: (second ++ kinds)) (',' :: ' ' :: (back ++ rest)) :=
    .delimiter (by decide) behind
  have whole := spelling gap _ _ skips (endsName_of_mark (by decide) _) from_comma
  simpa using whole

/-- Items with commas between them are spelled by their texts. -/
theorem isSpelling_commas {ι : Type} {kinds : ι → List TokenKind} {text : ι → List Char} {entries : List ι}
    (some_entry : entries ≠ []) (spelled : ∀ entry ∈ entries, IsSpelling (kinds entry) (text entry)) :
    IsSpelling (commas (entries.map kinds)) (", ".toList.intercalate (entries.map text)) := by
  induction entries with
  | nil => exact absurd rfl some_entry
  | cons entry entries ih =>
      cases entries with
      | nil => simpa [commas] using spelled entry
      | cons next entries =>
          have others := ih (by simp) fun e member => spelled e (.tail _ member)
          have both := (spelled entry List.mem_cons_self).comma others
          simpa [commas, List.intercalate_cons_cons] using both

theorem IsSpelling.braces {kinds : List TokenKind} {text : List Char} (spelling : IsSpelling kinds text) :
    IsSpelling (.mark "\x7b" :: (kinds ++ [.mark "\x7d"])) ("\x7b ".toList ++ (text ++ " \x7d".toList)) := by
  intro gap others rest skips _ spells
  have closing : Spells (.mark "\x7d" :: others) (' ' :: "\x7d".toList ++ rest) :=
    .cons skips_space (isToken_of_mem_delimiters (by decide)) (endsBefore_delimiter (by decide) _) spells
  have inside := spelling [' '] _ _ skips_space (endsName_of_mark (by decide) _) closing
  have opening : Spells (.mark "\x7b" :: (kinds ++ .mark "\x7d" :: others)) _ :=
    .cons skips (isToken_of_mem_delimiters (by decide)) (endsBefore_delimiter (by decide) _) inside
  simpa using opening

end Lexer

namespace Grammar

open Lexer (Spells commas)

/-- The first of the tokens up to the end of a source. -/
def facing : List TokenKind → TokenKind
  | [] => .finish
  | kind :: _ => kind

namespace Reading

/-- The tokens from the place of a reading up to the end of the source. -/
def Faces (reading : Reading) : List TokenKind → Prop
  | [] => reading.token.kind = .finish
  | kind :: kinds => reading.token.kind = kind ∧ Spells kinds reading.after.rest

theorem Faces.kind_eq {reading : Reading} {kinds : List TokenKind} (faces : reading.Faces kinds) :
    reading.token.kind = facing kinds := by
  cases kinds with
  | nil => exact faces
  | cons kind kinds => exact faces.1

end Reading

/-- A move to the next token, by what the lexer finds. -/
theorem advance_eq (mode : Mode) (reading : Reading) :
    advance mode reading = (Lexer.next? (some reading.token.kind) reading.after).bind fun (token, here, after) =>
      some ((), { reading with
        token, here, after
        lastStop := reading.token.span.stop
        comments := token.comments.reverse ++ reading.comments }) := by
  have lifted : advance mode reading =
      ((Lexer.next? (some reading.token.kind) reading.after).bind fun found => some (found, reading)).bind
        fun ((token, here, after), reading') => some ((), { reading' with
          token, here, after
          lastStop := reading.token.span.stop
          comments := token.comments.reverse ++ reading'.comments }) := rfl
  rw [lifted, Option.bind_assoc]
  rfl

/-- A rule takes tokens, up to those that are left, and gives a result. -/
def Takes {α : Type} (mode : Mode) (rule : Parse α) (kinds left : List TokenKind) (result : α → Prop) : Prop :=
  ∀ reading : Reading, reading.Faces kinds → ∃ value next, rule mode reading = some (value, next) ∧ result value ∧
    next.Faces left ∧ next.covers = reading.covers

section

variable {α β : Type} {mode : Mode} {kind : TokenKind} {kinds left rest : List TokenKind}

namespace Takes

theorem pure {value : α} {result : α → Prop} (holds : result value) :
    Takes mode (Pure.pure value) kinds kinds result :=
  fun reading faces => ⟨value, reading, rfl, holds, faces, rfl⟩

theorem bind {rule : Parse α} {next : α → Parse β} {result : α → Prop} {final : β → Prop}
    (takes : Takes mode rule kinds left result)
    (goes_on : ∀ value, result value → Takes mode (next value) left rest final) :
    Takes mode (rule >>= next) kinds rest final := by
  intro reading faces
  obtain ⟨value, between, read, holds, faces', covers⟩ := takes reading faces
  obtain ⟨last, after, read', holds', faces'', covers'⟩ := goes_on value holds between faces'
  refine ⟨last, after, ?_, holds', faces'', covers'.trans covers⟩
  have both : (rule >>= next) mode reading =
      (rule mode reading).bind fun (value, between) => next value mode between := rfl
  rw [both, read]
  exact read'

theorem imp {rule : Parse α} {result final : α → Prop} (takes : Takes mode rule kinds left result)
    (weaker : ∀ value, result value → final value) : Takes mode rule kinds left final := by
  intro reading faces
  obtain ⟨value, next, read, holds, others⟩ := takes reading faces
  exact ⟨value, next, read, weaker value holds, others⟩

theorem map {rule : Parse α} {change : α → β} {result : α → Prop} {final : β → Prop}
    (takes : Takes mode rule kinds left result) (holds : ∀ value, result value → final (change value)) :
    Takes mode (change <$> rule) kinds left final := by
  rw [map_eq_pure_bind]
  exact takes.bind fun value same => .pure (holds value same)

end Takes

/-! ## Looking at tokens -/

theorem takes_read : Takes mode read kinds kinds (· = mode) :=
  fun reading faces => ⟨mode, reading, rfl, rfl, faces, rfl⟩

theorem takes_token : Takes mode token kinds kinds fun token => token.kind = facing kinds :=
  fun reading faces => ⟨_, reading, rfl, faces.kind_eq, faces, rfl⟩

theorem takes_kind : Takes mode Grammar.kind kinds kinds (· = facing kinds) :=
  fun reading faces => ⟨_, reading, rfl, faces.kind_eq, faces, rfl⟩

theorem takes_start : Takes mode start kinds kinds fun _ => True :=
  fun reading faces => ⟨_, reading, rfl, trivial, faces, rfl⟩

theorem takes_close {start : Nat} {form : Form Node} : Takes mode (close start form) kinds kinds (·.form = form) :=
  fun reading faces => ⟨_, reading, rfl, rfl, faces, rfl⟩

theorem takes_ensure {condition : Bool} (holds : condition = true) :
    Takes mode (ensure condition) kinds kinds fun _ => True := by
  rw [ensure, if_pos holds]
  exact .pure trivial

theorem takes_atMark {text : String} : Takes mode (atMark text) kinds kinds (· = (facing kinds == .mark text)) :=
  .bind takes_kind fun _ same => .pure (by rw [same])

theorem takes_atWord {text : String} : Takes mode (atWord text) kinds kinds (· = (facing kinds == .name text false)) :=
  .bind takes_kind fun _ same => .pure (by rw [same])

/-! ## Moving on -/

theorem takes_advance : Takes mode advance (kind :: kinds) kinds fun _ => True := by
  rintro reading ⟨-, spells⟩
  obtain ⟨found, here, after, read, faces⟩ : ∃ found here after,
      Lexer.next? (some reading.token.kind) reading.after = some (found, here, after) ∧
        ∀ next : Reading, next.token = found → next.after = after → next.Faces kinds := by
    generalize reading.after = cursor at spells
    obtain ⟨characters, offset⟩ := cursor
    cases spells with
    | nil => exact ⟨_, _, _, rfl, fun next same _ => by rw [Reading.Faces, same]⟩
    | cons skips token ends others =>
        obtain ⟨found, here, after, read, kind_eq, rest_eq⟩ :=
          Lexer.next?_of_isToken skips token ends (some reading.token.kind) offset
        refine ⟨found, here, after, read, fun next same after_eq => ⟨by rw [same, kind_eq], ?_⟩⟩
        rwa [after_eq, rest_eq]
  refine ⟨(), { reading with
    token := found, here, after
    lastStop := reading.token.span.stop
    comments := found.comments.reverse ++ reading.comments }, ?_, trivial, faces _ rfl rfl, rfl⟩
  rw [advance_eq, read]
  rfl

/-- What a rule would find, without moving. -/
theorem takes_lookAhead {rule : Parse α} {result : α → Prop} (takes : Takes mode rule kinds left result) :
    Takes mode (lookAhead rule) kinds kinds fun found => ∃ value, found = some value ∧ result value := by
  intro reading faces
  obtain ⟨value, next, read, holds, -⟩ := takes reading faces
  refine ⟨some value, reading, ?_, ⟨value, rfl, holds⟩, faces, rfl⟩
  rw [lookAhead, read]

/-- A rule that fails has not moved. -/
theorem takes_attempt_of_none {rule : Parse α} (fails : ∀ reading, rule mode reading = none) :
    Takes mode (attempt rule) kinds kinds (· = none) := by
  intro reading faces
  refine ⟨none, reading, ?_, rfl, faces, rfl⟩
  rw [attempt, fails]

theorem takes_peekIs {condition : Token → Bool} {holds : Bool}
    (same : ∀ token : Token, token.kind = facing kinds → condition token = holds) :
    Takes mode (peekIs condition) (kind :: kinds) (kind :: kinds) (· = holds) := by
  have ahead : Takes mode peek (kind :: kinds) (kind :: kinds) fun found =>
      ∃ token, found = some token ∧ token.kind = facing kinds :=
    takes_lookAhead (.bind takes_advance fun _ _ => takes_token)
  refine ahead.bind fun found => ?_
  rintro ⟨token, rfl, kind_eq⟩
  exact .pure (same token kind_eq)

theorem takes_eatMark {text : String} : Takes mode (eatMark text) (.mark text :: kinds) kinds (· = true) := by
  refine .bind takes_atMark ?_
  rintro _ rfl
  rw [facing, if_pos (by simp)]
  exact .bind takes_advance fun _ _ => .pure rfl

theorem takes_eatMark_of_ne {text : String} (other : facing kinds ≠ .mark text) :
    Takes mode (eatMark text) kinds kinds (· = false) := by
  refine .bind takes_atMark ?_
  rintro _ rfl
  rw [if_neg (by simpa using other)]
  exact .pure rfl

theorem takes_eatWord {text : String} : Takes mode (eatWord text) (.name text false :: kinds) kinds (· = true) := by
  refine .bind takes_atWord ?_
  rintro _ rfl
  rw [facing, if_pos (by simp)]
  exact .bind takes_advance fun _ _ => .pure rfl

theorem takes_eatWord_of_ne {text : String} (other : facing kinds ≠ .name text false) :
    Takes mode (eatWord text) kinds kinds (· = false) := by
  refine .bind takes_atWord ?_
  rintro _ rfl
  rw [if_neg (by simpa using other)]
  exact .pure rfl

theorem takes_expectMark {text : String} : Takes mode (expectMark text) (.mark text :: kinds) kinds fun _ => True :=
  .bind takes_eatMark fun _ eaten => takes_ensure eaten

theorem takes_expectWord {text : String} :
    Takes mode (expectWord text) (.name text false :: kinds) kinds fun _ => True :=
  .bind takes_eatWord fun _ eaten => takes_ensure eaten

theorem takes_endStatement : Takes mode endStatement (.mark ";" :: kinds) kinds fun _ => True := by
  have ends : Takes mode canEndStatement (.mark ";" :: kinds) (.mark ";" :: kinds) (· = true) := by
    refine .bind takes_token fun token kind_eq => .pure ?_
    rw [kind_eq]
    rfl
  refine ends.bind fun _ holds => (takes_ensure holds).bind fun _ _ => ?_
  exact .bind takes_eatMark fun _ _ => .pure trivial

/-! ## Lists -/

/-- One round of a list with commas. -/
def commaRound (closing : String) (item : Parse α) : Parse (Option α) := do
  if ← eatMark closing then return none
  else
    let value ← item
    unless ← eatMark "," do ensure (← atMark closing)
    return some value

theorem commaList_eq (closing : String) (item : Parse α) : commaList closing item = collect (commaRound closing item) :=
  rfl

theorem takes_commaRound_closing {item : Parse α} {closing : String} :
    Takes mode (commaRound closing item) (.mark closing :: kinds) kinds (· = none) := by
  refine .bind takes_eatMark ?_
  rintro _ rfl
  exact .pure rfl

/-- A round takes an item, and the comma that follows it unless it is the last one. -/
theorem takes_commaRound {item : Parse α} {closing : String} {result : α → Prop} {after : List TokenKind}
    (takes : Takes mode item kinds after result) (opens : facing kinds ≠ .mark closing)
    (goes_on : after = .mark "," :: left ∨ (after = left ∧ facing left = .mark closing ∧ closing ≠ ",")) :
    Takes mode (commaRound closing item) kinds left fun found => ∃ value, found = some value ∧ result value := by
  refine (takes_eatMark_of_ne opens).bind ?_
  rintro _ rfl
  rw [if_neg Bool.false_ne_true]
  refine takes.bind fun value holds => ?_
  rcases goes_on with rfl | ⟨rfl, closes, no_comma⟩
  · refine .bind takes_eatMark ?_
    rintro _ rfl
    exact .pure ⟨value, rfl, holds⟩
  · refine (takes_eatMark_of_ne (by rw [closes]; simpa using no_comma)).bind ?_
    rintro _ rfl
    refine .bind takes_atMark ?_
    rintro _ rfl
    exact (takes_ensure (by rw [closes]; simp)).bind fun _ _ => .pure ⟨value, rfl, holds⟩

/-- A list with commas takes what its items take. -/
theorem takes_commaList {ι : Type} {item : Parse α} {closing : String} {spelling : ι → List TokenKind}
    {result : ι → α → Prop} {entries : List ι} (no_comma : closing ≠ ",")
    (takes : ∀ entry ∈ entries, ∀ after, facing after = .mark "," ∨ facing after = .mark closing →
      Takes mode item (spelling entry ++ after) after (result entry))
    (opens : ∀ entry ∈ entries, ∀ after, facing (spelling entry ++ after) ≠ .mark closing)
    (short : entries.length < mode.limit) :
    Takes mode (commaList closing item) (commas (entries.map spelling) ++ .mark closing :: left) left
      (List.Forall₂ result entries) := by
  rw [commaList_eq]
  refine .bind takes_read fun current same => ?_
  rw [same]
  generalize mode.limit = limit at short ⊢
  induction entries generalizing limit with
  | nil =>
      obtain ⟨limit, rfl⟩ : ∃ fewer, limit = fewer + 1 := ⟨limit - 1, by omega⟩
      refine .bind takes_commaRound_closing ?_
      rintro _ rfl
      exact .pure .nil
  | cons entry entries ih =>
      obtain ⟨limit, rfl⟩ : ∃ fewer, limit = fewer + 1 := ⟨limit - 1, by omega⟩
      have others := ih (fun e member => takes e (.tail _ member)) (fun e member => opens e (.tail _ member)) limit
        (by simpa using short)
      have first := takes entry List.mem_cons_self
      have opens_first := opens entry List.mem_cons_self
      have round : Takes mode (commaRound closing item)
          (commas ((entry :: entries).map spelling) ++ .mark closing :: left)
          (commas (entries.map spelling) ++ .mark closing :: left)
          fun found => ∃ value, found = some value ∧ result entry value := by
        cases entries with
        | nil => exact takes_commaRound (first _ (.inr rfl)) (opens_first _) (.inr ⟨rfl, rfl, no_comma⟩)
        | cons next entries =>
            rw [List.map_cons, List.map_cons, commas, List.append_assoc, List.cons_append]
            exact takes_commaRound (first _ (.inl rfl)) (opens_first _) (.inl rfl)
      refine round.bind ?_
      rintro _ ⟨value, rfl, holds⟩
      exact others.bind fun values all => .pure (.cons holds all)

/-! ## Names and texts -/

theorem takes_atIdentifier {name : String} {isEscaped : Bool} (identifier : isIdentifier mode name = true) :
    Takes mode atIdentifier (.name name isEscaped :: kinds) (.name name isEscaped :: kinds) (· = true) := by
  refine .bind takes_kind ?_
  rintro _ rfl
  refine .bind takes_read ?_
  rintro _ rfl
  exact .pure identifier

theorem takes_atIdentifier_of_mark {text : String} :
    Takes mode atIdentifier (.mark text :: kinds) (.mark text :: kinds) (· = false) := by
  refine .bind takes_kind ?_
  rintro _ rfl
  exact .pure rfl

theorem takes_identifierName {name : String} {isEscaped : Bool} (identifier : isIdentifier mode name = true) :
    Takes mode identifierName (.name name isEscaped :: kinds) kinds (· = name) := by
  refine .bind takes_kind ?_
  rintro _ rfl
  refine .bind takes_read ?_
  rintro _ rfl
  exact (takes_ensure identifier).bind fun _ _ => .bind takes_advance fun _ _ => .pure rfl

theorem takes_anyName {name : String} {isEscaped : Bool} :
    Takes mode anyName (.name name isEscaped :: kinds) kinds (· = name) := by
  refine .bind takes_kind ?_
  rintro _ rfl
  exact .bind takes_advance fun _ _ => .pure rfl

theorem takes_textValue {value : String} {hasHalves : Bool} :
    Takes mode textValue (.text value hasHalves :: kinds) kinds (· = value) := by
  refine .bind takes_kind ?_
  rintro _ rfl
  exact .bind takes_advance fun _ _ => .pure rfl

end

end Grammar

end Storyboard
