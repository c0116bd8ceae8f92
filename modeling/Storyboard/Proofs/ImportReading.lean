import Storyboard.Extraction.Imports
import Storyboard.Proofs.ExpectedTokens

/-!
# Reading imports

What an import says, apart from where it stands: its module with the attributes, its phase, and its specifiers. The
tokens of its specifiers determine what is read from a source that consists of one import.
-/

namespace Storyboard

open Grammar

/-! ## What an import says -/

/-- What a specifier of an import says. -/
inductive Specifier where
  /-- The default export is known under a name. -/
  | byDefault (localName : String)
  /-- All exports are known under a name. -/
  | everything (localName : String)
  /-- One export is known under a name. -/
  | named (isTypeOnly : Bool) (imported : ExportedName) (localName : String)
deriving DecidableEq, Repr

namespace Specifier

/-- What a node says as a specifier. -/
def ofNode? (node : Node) : Option Specifier :=
  match node.form with
  | .importDefault localName => some (byDefault localName)
  | .importNamespace localName => some (everything localName)
  | .importNamed isTypeOnly imported localName => some (named isTypeOnly imported localName)
  | _ => none

/-- Whether an export is imported by its name. -/
def isNamed : Specifier → Bool
  | named _ _ _ => true
  | _ => false

end Specifier

/-- What an import says. -/
structure ImportDeclaration where
  /-- Whether it imports only types. -/
  isTypeOnly : Bool := false
  /-- The phase up to which the module is loaded. -/
  phase : Option String := none
  /-- What its specifiers say, in order. -/
  specifiers : List (Option Specifier)
  /-- The name of the module. -/
  moduleName : String
  /-- The attributes that the module is imported with. -/
  attributes : Option ImportAttributes := none
deriving DecidableEq, Repr

namespace ImportDeclaration

/-- What a statement says as an import. -/
def ofNode? (node : Node) : Option ImportDeclaration :=
  match node.form with
  | .importFrom head specifiers source => some {
      isTypeOnly := head.isTypeOnly
      phase := head.phase
      specifiers := specifiers.map Specifier.ofNode?
      moduleName := source.value
      attributes := source.attributes }
  | _ => none

/-- What the statements of a source say as imports, if it can be read. -/
def read? (dialect : Dialect) (text : String) : Option (List (Option ImportDeclaration)) :=
  (SourceModule.parse? dialect text).map fun module => module.program.children.map ofNode?

end ImportDeclaration

/-! ## Tokens of specifiers -/

namespace Grammar

/-- Whether a name can be a variable of a module. -/
def isVariableName (name : String) : Bool := !reservedWords.contains name && name != "await"

/-- The surroundings of the statements of a module without types. -/
structure Mode.IsOfModule (mode : Mode) : Prop where
  /-- No types may be written. -/
  no_types : mode.hasTypes = false
  /-- A value may be waited for. -/
  awaits : mode.awaits = true
  /-- The place is not inside a generator. -/
  no_yields : mode.yields = false

theorem Mode.IsOfModule.isIdentifier_eq {mode : Mode} (ofModule : mode.IsOfModule) (name : String) :
    isIdentifier mode name = isVariableName name := by
  rw [isIdentifier, isVariableName, ofModule.awaits, ofModule.no_yields, Bool.false_and, Bool.not_false, Bool.and_true,
    Bool.true_and]
  rfl

end Grammar

/-- The tokens that say what a specifier says. -/
inductive Specifier.SpelledBy : Specifier → List TokenKind → Prop
  | byDefault {name : String} (isEscaped : Bool) (variable_ : isVariableName name = true) :
      SpelledBy (.byDefault name) [.name name isEscaped]
  | everything {name : String} (isEscaped : Bool) (variable_ : isVariableName name = true) :
      SpelledBy (.everything name) [.mark "*", .name "as" false, .name name isEscaped]
  | named {name : String} (isEscaped : Bool) (variable_ : isVariableName name = true) :
      SpelledBy (.named false (.identifier name) name) [.name name isEscaped]
  | renamed {imported name : String} (isImportedEscaped isEscaped : Bool) (variable_ : isVariableName name = true) :
      SpelledBy (.named false (.identifier imported) name)
        [.name imported isImportedEscaped, .name "as" false, .name name isEscaped]
  | renamedText {imported name : String} (hasHalves isEscaped : Bool) (variable_ : isVariableName name = true) :
      SpelledBy (.named false (.text imported) name) [.text imported hasHalves, .name "as" false, .name name isEscaped]

/-! ## The rules of specifiers -/

namespace Grammar

variable {mode : Mode} {kinds left : List TokenKind}

theorem bind_eq_none {α β : Type} {reading : Reading} {rule : Parse α} {next : α → Parse β}
    (fails : rule mode reading = none) : (rule >>= next) mode reading = none := by
  have both : (rule >>= next) mode reading =
      (rule mode reading).bind fun (value, between) => next value mode between := rfl
  rw [both, fails]
  rfl

theorem takes_lookAhead_any {α : Type} {rule : Parse α} : Takes mode (lookAhead rule) kinds kinds fun _ => True := by
  intro reading faces
  cases found : rule mode reading with
  | none => exact ⟨none, reading, by rw [lookAhead, found], trivial, faces, rfl⟩
  | some result => exact ⟨some result.1, reading, by rw [lookAhead, found], trivial, faces, rfl⟩

theorem takes_typeModifier (ofModule : mode.IsOfModule) : Takes mode typeModifier kinds kinds (· = false) := by
  refine .bind takes_read ?_
  rintro _ rfl
  refine .bind takes_atWord fun _ _ => .bind takes_lookAhead_any fun _ _ => ?_
  rw [ofModule.no_types]
  exact .pure rfl

theorem takes_exportedName_of_name {name : String} {isEscaped : Bool} :
    Takes mode exportedName (.name name isEscaped :: kinds) kinds (· = .identifier name) := by
  refine .bind takes_kind ?_
  rintro _ rfl
  refine .bind takes_anyName ?_
  rintro _ rfl
  exact .pure rfl

theorem takes_exportedName_of_text {value : String} {hasHalves : Bool} :
    Takes mode exportedName (.text value hasHalves :: kinds) kinds (· = .text value) := by
  refine .bind takes_kind ?_
  rintro _ rfl
  exact .bind takes_advance fun _ _ => .pure rfl

/-- What follows the name of an export when it is imported under another one. -/
theorem takes_renaming {start : Nat} {imported : ExportedName} {name : String} {isEscaped : Bool} {rest : Parse Node}
    (variable_ : isIdentifier mode name = true) :
    Takes mode (do
        if ← eatWord "as" then
          let localName ← identifierName
          close start (.importNamed false imported localName)
        else rest)
      (.name "as" false :: .name name isEscaped :: left) left
      fun node => Specifier.ofNode? node = some (.named false imported name) := by
  refine .bind takes_eatWord ?_
  rintro _ rfl
  rw [if_pos rfl]
  refine (takes_identifierName variable_).bind ?_
  rintro _ rfl
  exact .imp takes_close fun node form_eq => by rw [Specifier.ofNode?, form_eq]

theorem takes_importNamed {specifier : Specifier} {spelling : List TokenKind} (ofModule : mode.IsOfModule)
    (spelled : specifier.SpelledBy spelling) (named : specifier.isNamed = true)
    (ends : facing left = .mark "," ∨ facing left = .mark "\x7d") :
    Takes mode importNamed (spelling ++ left) left fun node => Specifier.ofNode? node = some specifier := by
  refine .bind takes_start fun start _ => (takes_typeModifier ofModule).bind ?_
  rintro _ rfl
  refine .bind takes_read fun current same => ?_
  rw [same]
  cases spelled with
  | byDefault => cases named
  | everything => cases named
  | named isEscaped variable_ =>
      have no_word : facing left ≠ .name "as" false := by
        rcases ends with ends | ends <;> rw [ends] <;> decide
      rw [← ofModule.isIdentifier_eq] at variable_
      refine .bind takes_exportedName_of_name ?_
      rintro _ rfl
      refine (takes_eatWord_of_ne no_word).bind ?_
      rintro _ rfl
      refine (takes_ensure variable_).bind fun _ _ => ?_
      exact .imp takes_close fun node form_eq => by rw [Specifier.ofNode?, form_eq]
  | renamed _ _ variable_ =>
      rw [← ofModule.isIdentifier_eq] at variable_
      refine .bind takes_exportedName_of_name ?_
      rintro _ rfl
      exact takes_renaming variable_
  | renamedText _ _ variable_ =>
      rw [← ofModule.isIdentifier_eq] at variable_
      refine .bind takes_exportedName_of_text ?_
      rintro _ rfl
      exact takes_renaming variable_

theorem takes_importNamespace {name : String} {isEscaped : Bool} (variable_ : isIdentifier mode name = true) :
    Takes mode importNamespace (.mark "*" :: .name "as" false :: .name name isEscaped :: left) left
      fun node => Specifier.ofNode? node = some (.everything name) := by
  refine .bind takes_start fun start _ => .bind takes_expectMark fun _ _ => .bind takes_expectWord fun _ _ => ?_
  refine (takes_identifierName variable_).bind ?_
  rintro _ rfl
  exact .imp takes_close fun node form_eq => by rw [Specifier.ofNode?, form_eq]

end Grammar

/-! ## Clauses -/

/-- A specifier with a text that spells it. -/
structure SpelledSpecifier where
  /-- What it says. -/
  specifier : Specifier
  /-- Its tokens. -/
  kinds : List TokenKind
  /-- Its text. -/
  text : String
  /-- The tokens say what it says. -/
  spelled : specifier.SpelledBy kinds
  /-- The text spells the tokens. -/
  spelling : Lexer.IsSpelling kinds text.toList

/-- Specifiers that an import can list: a default import, and either all exports under one name or exports by
their names. -/
structure SpelledClause where
  /-- The default import. -/
  lead : Option SpelledSpecifier
  /-- The import of all exports. -/
  all : Option SpelledSpecifier
  /-- The exports that are imported by their names. -/
  named : List SpelledSpecifier
  /-- The first is a default import. -/
  lead_isDefault : ∀ entry ∈ lead, ∃ name, entry.specifier = .byDefault name
  /-- The second imports all exports. -/
  all_isEverything : ∀ entry ∈ all, ∃ name, entry.specifier = .everything name
  /-- The others import exports by their names. -/
  named_isNamed : ∀ entry ∈ named, entry.specifier.isNamed = true
  /-- All exports and single ones do not go together. -/
  alone : all = none ∨ named = []

namespace SpelledClause

/-- The specifiers of a clause. -/
def entries (clause : SpelledClause) : List SpelledSpecifier := clause.lead.toList ++ clause.all.toList ++ clause.named

/-- The tokens of names in braces. -/
def bracedKinds (named : List SpelledSpecifier) : List TokenKind :=
  .mark "\x7b" :: (Lexer.commas (named.map SpelledSpecifier.kinds) ++ [.mark "\x7d"])

/-- The tokens of a clause. -/
def kinds (clause : SpelledClause) : List TokenKind :=
  Lexer.commas ((clause.lead.toList ++ clause.all.toList).map SpelledSpecifier.kinds ++
    if clause.named.isEmpty then [] else [bracedKinds clause.named])

end SpelledClause

namespace Grammar

variable {mode : Mode} {kinds left : List TokenKind}

/-- Nodes say what specifiers say. -/
def Say (nodes : List Node) (entries : List SpelledSpecifier) : Prop :=
  nodes.map Specifier.ofNode? = entries.map fun entry => some entry.specifier

theorem say_of_forall₂ {nodes : List Node} {entries : List SpelledSpecifier}
    (all : List.Forall₂ (fun entry node => Specifier.ofNode? node = some entry.specifier) entries nodes) :
    Say nodes entries := by
  induction all with
  | nil => rfl
  | cons same _ ih =>
      rw [Say] at ih ⊢
      rw [List.map_cons, List.map_cons, same, ih]

theorem facing_of_isNamed {specifier : Specifier} {spelling : List TokenKind} (spelled : specifier.SpelledBy spelling)
    (named : specifier.isNamed = true) (after : List TokenKind) (mark : String) :
    facing (spelling ++ after) ≠ .mark mark := by
  cases spelled with
  | byDefault => cases named
  | everything => cases named
  | named | renamed | renamedText => simp [facing]

theorem takes_importList_of_named {named : List SpelledSpecifier} (ofModule : mode.IsOfModule)
    (named_isNamed : ∀ entry ∈ named, entry.specifier.isNamed = true) (short : named.length < mode.limit) :
    Takes mode importList (SpelledClause.bracedKinds named ++ left) left (Say · named) := by
  refine .bind takes_atMark ?_
  rintro _ rfl
  rw [SpelledClause.bracedKinds, List.cons_append, List.append_assoc, if_neg (by simp [facing])]
  refine .bind takes_expectMark fun _ _ => ?_
  have listed : Takes mode (commaList "\x7d" importNamed)
      (Lexer.commas (named.map SpelledSpecifier.kinds) ++ .mark "\x7d" :: left) left
      (List.Forall₂ (fun entry node => Specifier.ofNode? node = some entry.specifier) named) :=
    takes_commaList (by decide)
      (fun entry member _ => takes_importNamed ofModule entry.spelled (named_isNamed entry member))
      (fun entry member after => facing_of_isNamed entry.spelled (named_isNamed entry member) after _) short
  exact listed.imp fun nodes => say_of_forall₂

theorem exists_kinds_of_lead {entry : SpelledSpecifier} {name : String}
    (byDefault : entry.specifier = .byDefault name) :
    ∃ isEscaped, entry.kinds = [.name name isEscaped] ∧ isVariableName name = true := by
  have spelled := entry.spelled
  rw [byDefault] at spelled
  generalize entry.kinds = kinds at spelled
  cases spelled with
  | byDefault isEscaped variable_ => exact ⟨isEscaped, rfl, variable_⟩

theorem exists_kinds_of_all {entry : SpelledSpecifier} {name : String}
    (everything : entry.specifier = .everything name) :
    ∃ isEscaped, entry.kinds = [.mark "*", .name "as" false, .name name isEscaped] ∧ isVariableName name = true := by
  have spelled := entry.spelled
  rw [everything] at spelled
  generalize entry.kinds = kinds at spelled
  cases spelled with
  | everything isEscaped variable_ => exact ⟨isEscaped, rfl, variable_⟩

theorem takes_importList_of_all {entry : SpelledSpecifier} {name : String} (ofModule : mode.IsOfModule)
    (everything : entry.specifier = .everything name) :
    Takes mode importList (entry.kinds ++ left) left (Say · [entry]) := by
  obtain ⟨isEscaped, kinds_eq, variable_⟩ := exists_kinds_of_all everything
  rw [← ofModule.isIdentifier_eq] at variable_
  rw [kinds_eq]
  refine .bind takes_atMark ?_
  rintro _ rfl
  rw [if_pos (by simp [facing])]
  refine (takes_importNamespace variable_).bind fun node said => .pure ?_
  rw [Say, List.map_singleton, said, List.map_singleton, everything]

/-- A clause without a default import. -/
theorem takes_importClause_of_list {nodes : List Node → Prop} {text : String}
    (takes : Takes mode importList (.mark text :: kinds) left nodes) :
    Takes mode importClause (.mark text :: kinds) left nodes := by
  refine .bind takes_start fun start _ => .bind takes_atIdentifier_of_mark ?_
  rintro _ rfl
  exact takes

theorem takes_importClause_of_lead {entry : SpelledSpecifier} {name : String} (ofModule : mode.IsOfModule)
    (byDefault : entry.specifier = .byDefault name) (ends : facing left ≠ .mark ",") :
    Takes mode importClause (entry.kinds ++ left) left (Say · [entry]) := by
  obtain ⟨isEscaped, kinds_eq, variable_⟩ := exists_kinds_of_lead byDefault
  rw [← ofModule.isIdentifier_eq] at variable_
  rw [kinds_eq]
  refine .bind takes_start fun start _ => (takes_atIdentifier variable_).bind ?_
  rintro _ rfl
  rw [if_pos rfl]
  refine (takes_identifierName variable_).bind ?_
  rintro _ rfl
  refine .bind takes_close fun node form_eq => (takes_eatMark_of_ne ends).bind ?_
  rintro _ rfl
  refine .pure ?_
  rw [Say, List.map_singleton, List.map_singleton, Specifier.ofNode?, form_eq, byDefault]

theorem takes_importClause_of_both {entry : SpelledSpecifier} {name : String} {others : List SpelledSpecifier}
    (ofModule : mode.IsOfModule) (byDefault : entry.specifier = .byDefault name)
    (takes : Takes mode importList kinds left (Say · others)) :
    Takes mode importClause (entry.kinds ++ .mark "," :: kinds) left (Say · (entry :: others)) := by
  obtain ⟨isEscaped, kinds_eq, variable_⟩ := exists_kinds_of_lead byDefault
  rw [← ofModule.isIdentifier_eq] at variable_
  rw [kinds_eq]
  refine .bind takes_start fun start _ => (takes_atIdentifier variable_).bind ?_
  rintro _ rfl
  rw [if_pos rfl]
  refine (takes_identifierName variable_).bind ?_
  rintro _ rfl
  refine .bind takes_close fun node form_eq => .bind takes_eatMark ?_
  rintro _ rfl
  refine takes.bind fun nodes said => .pure ?_
  rw [Say] at said ⊢
  rw [List.map_cons, List.map_cons, said, Specifier.ofNode?, form_eq, byDefault]

/-- A clause is read as its specifiers. -/
theorem takes_importClause {clause : SpelledClause} (ofModule : mode.IsOfModule) (some_entry : clause.entries ≠ [])
    (ends : facing left ≠ .mark ",") (short : clause.named.length < mode.limit) :
    Takes mode importClause (clause.kinds ++ left) left (Say · clause.entries) := by
  obtain ⟨lead, all, named, lead_isDefault, all_isEverything, named_isNamed, alone⟩ := clause
  cases named with
  | nil =>
      cases all with
      | none =>
          cases lead with
          | none => exact absurd rfl some_entry
          | some entry =>
              obtain ⟨name, byDefault⟩ := lead_isDefault entry rfl
              exact takes_importClause_of_lead ofModule byDefault ends
      | some whole =>
          obtain ⟨name, everything⟩ := all_isEverything whole rfl
          have listed : Takes mode importList (whole.kinds ++ left) left (Say · [whole]) :=
            takes_importList_of_all ofModule everything
          cases lead with
          | none =>
              obtain ⟨isEscaped, kinds_eq, -⟩ := exists_kinds_of_all everything
              have kinds_eq' : whole.kinds ++ left =
                  .mark "*" :: (.name "as" false :: .name name isEscaped :: left) := by
                rw [kinds_eq]
                rfl
              rw [kinds_eq'] at listed
              have read := takes_importClause_of_list listed
              rwa [← kinds_eq'] at read
          | some entry =>
              obtain ⟨name, byDefault⟩ := lead_isDefault entry rfl
              have read := takes_importClause_of_both ofModule byDefault listed
              simpa [SpelledClause.kinds, SpelledClause.entries, Lexer.commas] using read
  | cons first others =>
      obtain rfl : all = none := alone.resolve_right (by simp)
      have listed : Takes mode importList (SpelledClause.bracedKinds (first :: others) ++ left) left
          (Say · (first :: others)) :=
        takes_importList_of_named ofModule named_isNamed short
      cases lead with
      | none => exact takes_importClause_of_list listed
      | some entry =>
          obtain ⟨name, byDefault⟩ := lead_isDefault entry rfl
          have read := takes_importClause_of_both ofModule byDefault listed
          simpa [SpelledClause.kinds, SpelledClause.entries, Lexer.commas] using read

/-! ## Whole imports -/

theorem takes_peekIs_any {condition : Token → Bool} : Takes mode (peekIs condition) kinds kinds fun _ => True :=
  .bind takes_lookAhead_any fun _ _ => .pure trivial

theorem takes_importPhase_of_mark {text : String} (marks : facing kinds = .mark text) :
    Takes mode importPhase kinds kinds (· = none) := by
  refine .bind takes_atWord ?_
  rintro _ rfl
  refine .bind takes_peekIs_any fun _ _ => ?_
  rw [marks]
  refine .bind takes_atWord ?_
  rintro _ rfl
  refine .bind takes_lookAhead_any fun _ _ => ?_
  rw [marks]
  exact .pure rfl

/-- A default import is no phase: a comma follows it, or the word `from` and a text. -/
theorem takes_importPhase_of_name {name : String} {isEscaped : Bool}
    (second : facing kinds = .mark "," ∨
      ∃ value hasHalves rest, kinds = .name "from" false :: .text value hasHalves :: rest) :
    Takes mode importPhase (.name name isEscaped :: kinds) (.name name isEscaped :: kinds) (· = none) := by
  have no_star : facing kinds ≠ .mark "*" := by
    rcases second with second | ⟨value, hasHalves, rest, rfl⟩
    · rw [second]
      decide
    · simp [facing]
  have no_defer : Takes mode (peekIs fun t => t.kind == .mark "*") (.name name isEscaped :: kinds)
      (.name name isEscaped :: kinds) (· = false) :=
    takes_peekIs fun token kind_eq => by simpa [kind_eq] using no_star
  refine .bind takes_atWord fun _ _ => no_defer.bind ?_
  rintro _ rfl
  rw [Bool.and_false, if_neg Bool.false_ne_true]
  refine .bind takes_atWord fun _ _ =>
    (@takes_lookAhead Bool mode (.name name isEscaped :: kinds) kinds _ (· = false) ?_).bind ?_
  · refine .bind takes_advance fun _ _ => .bind takes_kind ?_
    rintro _ rfl
    rcases second with second | ⟨value, hasHalves, rest, rfl⟩
    · rw [second]
      exact .pure rfl
    · refine takes_peekIs fun token kind_eq => ?_
      rw [kind_eq]
      rfl
  · rintro _ ⟨_, rfl, rfl⟩
    rw [Option.getD_some, Bool.and_false, if_neg Bool.false_ne_true]
    exact .pure rfl

theorem takes_importAttributes_none :
    Takes mode importAttributes (.mark ";" :: kinds) (.mark ";" :: kinds) (· = none) := by
  refine .bind takes_atWord ?_
  rintro _ rfl
  refine .bind takes_atWord ?_
  rintro _ rfl
  have looks : Takes mode afterLineEnd (.mark ";" :: kinds) (.mark ";" :: kinds) fun _ => True :=
    .bind takes_token fun _ _ => .pure trivial
  refine looks.bind fun _ _ => ?_
  rw [if_neg (by simp [facing])]
  exact .pure rfl

theorem takes_moduleName {value : String} {hasHalves : Bool} :
    Takes mode moduleName (.text value hasHalves :: .mark ";" :: kinds) (.mark ";" :: kinds)
      fun name => name.value = value ∧ name.attributes = none := by
  refine .bind takes_token fun token _ => .bind takes_textValue ?_
  rintro _ rfl
  refine .bind takes_importAttributes_none ?_
  rintro _ rfl
  exact .pure ⟨rfl, rfl⟩

/-- A node says what an import of a module without attributes says. -/
def SaysImport (node : Node) (entries : List SpelledSpecifier) (value : String) : Prop :=
  ImportDeclaration.ofNode? node =
    some { specifiers := entries.map fun entry => some entry.specifier, moduleName := value }

theorem saysImport_of_form_eq {node : Node} {entries : List SpelledSpecifier} {head : ImportHead} {nodes : List Node}
    {name : ModuleName} (form_eq : node.form = .importFrom head nodes name) (said : Say nodes entries)
    (plain : head.isTypeOnly = false ∧ head.phase = none) (attributes : name.attributes = none) :
    SaysImport node entries name.value := by
  rw [Say] at said
  simp only [SaysImport, ImportDeclaration.ofNode?, form_eq, said, plain, attributes]

theorem takes_importFrom_of_text {start : Nat} {value : String} {hasHalves : Bool} :
    Takes mode (importFrom start) (.text value hasHalves :: .mark ";" :: kinds) kinds (SaysImport · [] value) := by
  refine .bind takes_kind ?_
  rintro _ rfl
  refine .bind takes_moduleName ?_
  rintro name ⟨rfl, attributes⟩
  refine .bind takes_endStatement fun _ _ => .imp takes_close fun node form_eq => ?_
  exact saysImport_of_form_eq form_eq rfl ⟨rfl, rfl⟩ attributes

theorem takes_importsTypes (ofModule : mode.IsOfModule) : Takes mode importsTypes kinds kinds (· = false) := by
  refine .bind takes_read ?_
  rintro _ rfl
  refine .bind takes_atWord fun _ _ => ?_
  rw [ofModule.no_types]
  exact .pure rfl

/-- The tokens of a clause begin with a mark, or with a default import. -/
theorem facing_kinds_of_clause {clause : SpelledClause} (some_entry : clause.entries ≠ []) (left : List TokenKind) :
    (∃ text, (text = "*" ∨ text = "\x7b") ∧ facing (clause.kinds ++ left) = .mark text) ∨
      ∃ name isEscaped others, clause.kinds = .name name isEscaped :: others ∧
        (others = [] ∨ facing others = .mark ",") := by
  obtain ⟨lead, all, named, lead_isDefault, all_isEverything, named_isNamed, alone⟩ := clause
  cases lead with
  | some entry =>
      obtain ⟨name, byDefault⟩ := lead_isDefault entry rfl
      obtain ⟨isEscaped, kinds_eq, -⟩ := exists_kinds_of_lead byDefault
      right
      cases all with
      | none =>
          cases named with
          | nil => exact ⟨name, isEscaped, [], kinds_eq, .inl rfl⟩
          | cons first others =>
              exact ⟨name, isEscaped, _, by simp [SpelledClause.kinds, Lexer.commas, kinds_eq]; rfl, .inr rfl⟩
      | some whole =>
          obtain rfl : named = [] := alone.resolve_left (by simp)
          exact ⟨name, isEscaped, _, by simp [SpelledClause.kinds, Lexer.commas, kinds_eq]; rfl, .inr rfl⟩
  | none =>
      left
      cases all with
      | some whole =>
          obtain ⟨name, everything⟩ := all_isEverything whole rfl
          obtain ⟨isEscaped, kinds_eq, -⟩ := exists_kinds_of_all everything
          obtain rfl : named = [] := alone.resolve_left (by simp)
          exact ⟨"*", .inl rfl, by simp [SpelledClause.kinds, Lexer.commas, kinds_eq, facing]⟩
      | none =>
          cases named with
          | nil => exact absurd rfl some_entry
          | cons first others => exact ⟨"\x7b", .inr rfl, rfl⟩

theorem takes_importFrom_of_clause {start : Nat} {value : String} {hasHalves : Bool} {clause : SpelledClause}
    (ofModule : mode.IsOfModule) (some_entry : clause.entries ≠ []) (short : clause.named.length < mode.limit) :
    Takes mode (importFrom start)
      (clause.kinds ++ .name "from" false :: .text value hasHalves :: .mark ";" :: kinds) kinds
      (SaysImport · clause.entries value) := by
  have no_phase : Takes mode importPhase
      (clause.kinds ++ .name "from" false :: .text value hasHalves :: .mark ";" :: kinds)
      (clause.kinds ++ .name "from" false :: .text value hasHalves :: .mark ";" :: kinds) (· = none) := by
    rcases facing_kinds_of_clause some_entry (.name "from" false :: .text value hasHalves :: .mark ";" :: kinds) with
      ⟨text, -, marks⟩ | ⟨name, isEscaped, others, kinds_eq, second⟩
    · exact takes_importPhase_of_mark marks
    · rw [kinds_eq]
      refine takes_importPhase_of_name ?_
      rcases second with rfl | second
      · exact .inr ⟨value, hasHalves, _, rfl⟩
      · cases others with
        | nil => simp [facing] at second
        | cons kind others => exact .inl second
  have no_text : ∀ text hasHalves',
      facing (clause.kinds ++ .name "from" false :: .text value hasHalves :: .mark ";" :: kinds) ≠
        .text text hasHalves' := by
    rcases facing_kinds_of_clause some_entry (.name "from" false :: .text value hasHalves :: .mark ";" :: kinds) with
      ⟨text, -, marks⟩ | ⟨name, isEscaped, others, kinds_eq, -⟩
    · simp [marks]
    · simp [kinds_eq, facing]
  refine .bind takes_kind fun kind kind_eq => ?_
  split
  · exact absurd kind_eq.symm (no_text _ _)
  · refine (takes_importsTypes ofModule).bind ?_
    rintro _ rfl
    refine no_phase.bind ?_
    rintro _ rfl
    refine (takes_importClause ofModule some_entry (by simp [facing]) short).bind fun nodes said => ?_
    refine .bind takes_expectWord fun _ _ => .bind takes_moduleName ?_
    rintro name ⟨rfl, attributes⟩
    refine .bind takes_endStatement fun _ _ => .imp takes_close fun node form_eq => ?_
    exact saysImport_of_form_eq form_eq said ⟨rfl, rfl⟩ attributes

end Grammar

/-- The tokens of an import of a module without attributes. -/
def SpelledClause.importKinds (clause : SpelledClause) (value : String) (hasHalves : Bool) : List TokenKind :=
  .name "import" false :: if clause.entries.isEmpty then [.text value hasHalves, .mark ";"]
    else clause.kinds ++ [.name "from" false, .text value hasHalves, .mark ";"]

/-- Every name in braces has a token. -/
theorem SpelledClause.length_named_le (clause : SpelledClause) (value : String) (hasHalves : Bool) :
    clause.named.length ≤ (clause.importKinds value hasHalves).length := by
  by_cases no_name : clause.named = []
  · simp [no_name]
  · have some_entry : clause.entries ≠ [] := by simp [entries, no_name]
    have braced : bracedKinds clause.named ∈ (clause.lead.toList ++ clause.all.toList).map SpelledSpecifier.kinds ++
        if clause.named.isEmpty then [] else [bracedKinds clause.named] := by
      simp [no_name]
    have inside := Lexer.length_le_commas_of_mem braced
    have names := Lexer.length_le_commas (clause.named.map SpelledSpecifier.kinds)
    rw [importKinds, if_neg (by simpa using some_entry)]
    rw [← kinds, bracedKinds] at inside
    simp only [List.length_cons, List.length_append, List.length_map] at inside names ⊢
    omega

namespace Grammar

variable {mode : Mode} {clause : SpelledClause} {value : String} {hasHalves : Bool}

/-- Without types nothing is given another name. -/
theorem importAlias_eq_none (ofModule : mode.IsOfModule) (start : Nat) (reading : Reading) :
    importAlias start mode reading = none := by
  have refused : ensure mode.hasTypes mode reading = none := by
    rw [ofModule.no_types]
    rfl
  have guarded : importAlias start mode reading = (ensure mode.hasTypes >>= fun _ => _) mode reading := rfl
  exact guarded.trans (bind_eq_none refused)

theorem takes_importStatement (ofModule : mode.IsOfModule) (short : clause.named.length < mode.limit) :
    Takes mode importStatement (clause.importKinds value hasHalves) [] (SaysImport · clause.entries value) := by
  refine .bind takes_start fun start _ => .bind takes_expectWord fun _ _ => ?_
  refine (takes_attempt_of_none fun reading => importAlias_eq_none ofModule start reading).bind ?_
  rintro _ rfl
  by_cases no_entry : clause.entries = []
  · rw [no_entry]
    exact takes_importFrom_of_text
  · rw [if_neg (by simpa using no_entry)]
    exact takes_importFrom_of_clause ofModule no_entry short

/-- The token behind the word `import` makes no expression of it. -/
theorem facing_of_importKinds (clause : SpelledClause) (value : String) (hasHalves : Bool) :
    ∃ others, clause.importKinds value hasHalves = .name "import" false :: others ∧ facing others ≠ .mark "(" ∧
      facing others ≠ .mark "." := by
  refine ⟨_, rfl, ?_⟩
  by_cases no_entry : clause.entries = []
  · simp [no_entry, facing]
  · rw [if_neg (by simpa using no_entry)]
    rcases facing_kinds_of_clause no_entry [.name "from" false, .text value hasHalves, .mark ";"] with
      ⟨text, rfl | rfl, marks⟩ | ⟨name, isEscaped, others, kinds_eq, -⟩
    · simp [marks]
    · simp [marks]
    · simp [kinds_eq, facing]

theorem promiseStatement_of_saysImport {node : Node} {entries : List SpelledSpecifier}
    (said : SaysImport node entries value) :
    promiseStatement node = node := by
  obtain ⟨span, form⟩ := node
  cases form <;> first | rfl | cases said

theorem takes_statement {rules : Rules} (ofModule : mode.IsOfModule) (short : clause.named.length < mode.limit) :
    Takes mode (statement rules false) (clause.importKinds value hasHalves) [] (SaysImport · clause.entries value) := by
  refine .bind takes_token fun token _ => ?_
  obtain ⟨others, kinds_eq, no_call, no_member⟩ := facing_of_importKinds clause value hasHalves
  have unmarked : Takes mode (unmarkedStatement rules false) (clause.importKinds value hasHalves) []
      (SaysImport · clause.entries value) := by
    refine .bind takes_kind ?_
    rintro _ rfl
    have peeks : Takes mode (peekIs fun t => t.kind == .mark "(" || t.kind == .mark ".")
        (clause.importKinds value hasHalves) (clause.importKinds value hasHalves) (· = false) := by
      rw [kinds_eq]
      refine takes_peekIs fun token kind_eq => ?_
      simp [kind_eq, no_call, no_member]
    refine peeks.bind ?_
    rintro _ rfl
    exact takes_importStatement ofModule short
  refine unmarked.bind fun node said => .pure ?_
  split
  · rwa [promiseStatement_of_saysImport said]
  · exact said

/-- A source that consists of one import is read as that import. -/
theorem takes_statementsUpTo {depth limit : Nat} (ofModule : mode.IsOfModule)
    (short : clause.named.length < mode.limit) :
    Takes mode (statementsUpTo (rules (depth + 1)) .finish (limit + 2) true) (clause.importKinds value hasHalves) []
      fun body => ∃ node, body = [node] ∧ SaysImport node clause.entries value := by
  obtain ⟨others, kinds_eq, -⟩ := facing_of_importKinds clause value hasHalves
  have one : Takes mode (prologueStatement (rules (depth + 1))) (clause.importKinds value hasHalves) []
      (SaysImport · clause.entries value) := by
    refine .bind takes_kind ?_
    rintro _ rfl
    exact takes_statement ofModule short
  refine .bind takes_kind ?_
  rintro _ rfl
  rw [if_neg (by simp [kinds_eq, facing])]
  refine one.bind fun node said => ?_
  have none_left : Takes mode (statementsUpTo (rules (depth + 1)) .finish (limit + 1) (true && isDirective node)) [] []
      (· = []) := by
    refine .bind takes_kind ?_
    rintro _ rfl
    exact .pure rfl
  refine none_left.bind ?_
  rintro _ rfl
  exact .pure ⟨node, rfl, said⟩

end Grammar

/-- A text that spells one import says what that import says. -/
theorem ImportDeclaration.read?_of_spells {dialect : Dialect} (no_types : dialect.hasTypes = false)
    {clause : SpelledClause}
    {value text : String} {hasHalves : Bool}
    (spells : Lexer.Spells (clause.importKinds value hasHalves) text.toList)
    (plain : SourceModule.afterInterpreterLine text.toList = ⟨text.toList, 0⟩) :
    read? dialect text = some [some {
      specifiers := clause.entries.map fun entry => some entry.specifier, moduleName := value }] := by
  let limit := text.toList.length + 2
  let mode : Mode := { hasMarkup := dialect.hasMarkup, hasTypes := dialect.hasTypes, limit }
  have ofModule : mode.IsOfModule := ⟨no_types, rfl, rfl⟩
  obtain ⟨found, here, after, first, faces⟩ : ∃ found here after,
      Lexer.next? none ⟨text.toList, 0⟩ = some (found, here, after) ∧ ∀ reading : Reading, reading.token = found →
        reading.after = after → reading.Faces (clause.importKinds value hasHalves) := by
    revert spells
    generalize text.toList = characters
    intro spells
    cases spells with
    | cons skips token ends others =>
        obtain ⟨found, here, after, read, kind_eq, rest_eq⟩ := Lexer.next?_of_isToken skips token ends none 0
        refine ⟨found, here, after, read, fun reading token_eq after_eq => ⟨by rw [token_eq, kind_eq], ?_⟩⟩
        rwa [after_eq, rest_eq]
  have short := Nat.le_trans (clause.length_named_le value hasHalves) spells.length_le
  have takes : Takes mode (statementsUpTo (rules (8 * limit)) .finish limit true)
      (clause.importKinds value hasHalves) []
      fun body => ∃ node, body = [node] ∧ SaysImport node clause.entries value := by
    obtain ⟨depth, depth_eq⟩ : ∃ depth, 8 * limit = depth + 1 := ⟨8 * limit - 1, by omega⟩
    rw [depth_eq]
    exact takes_statementsUpTo ofModule (Nat.lt_succ_of_le (Nat.le_succ_of_le short))
  obtain ⟨_, last, read, ⟨node, rfl, said⟩, -, no_cover⟩ := takes
    { token := found, here, after, lastStop := 0, comments := found.comments.reverse, covers := [], followed := [] }
    (faces _ rfl rfl)
  have parsed : SourceModule.parse? dialect text = some {
      program := .mk ⟨0, text.utf8ByteSize⟩ (.program [node])
      comments := last.comments.reverse } := by
    rw [SourceModule.parse?]
    simp only [plain, first, Option.bind_eq_bind, Option.bind_some]
    rw [read]
    simp only [Option.bind_some, no_cover]
    rfl
  rw [read?, parsed]
  exact congrArg (fun said => some [said]) said

/-! ## Written imports -/

namespace SpelledClause

open Lexer

/-- The parts of a clause between its commas: specifiers, and names in braces. -/
def parts (clause : SpelledClause) : List (List TokenKind × String) :=
  (clause.lead.toList ++ clause.all.toList).map (fun entry => (entry.kinds, entry.text)) ++
    if clause.named.isEmpty then []
    else [(bracedKinds clause.named,
      "\x7b " ++ ", ".intercalate (clause.named.map SpelledSpecifier.text) ++ " \x7d")]

/-- An import is written with the texts of its specifiers. -/
def written (clause : SpelledClause) (source : String) : String :=
  renderImport ((clause.lead.toList ++ clause.all.toList).map SpelledSpecifier.text)
    (clause.named.map SpelledSpecifier.text) source

theorem isSpelling_of_mem_parts {clause : SpelledClause} :
    ∀ part ∈ clause.parts, IsSpelling part.1 part.2.toList := by
  intro part member
  rcases List.mem_append.mp member with member | member
  · obtain ⟨entry, -, rfl⟩ := List.mem_map.mp member
    exact entry.spelling
  · split at member
    · cases member
    · rename_i some_named
      obtain rfl := List.mem_singleton.mp member
      have listed := isSpelling_commas (by simpa using some_named)
        fun entry (_ : entry ∈ clause.named) => entry.spelling
      simpa [bracedKinds, String.toList_intercalate, Function.comp_def] using listed.braces

theorem parts_eq_nil_iff {clause : SpelledClause} : clause.parts = [] ↔ clause.entries = [] := by
  obtain ⟨lead, all, named, -, -, -, -⟩ := clause
  cases lead <;> cases all <;> cases named <;> simp [parts, entries]

theorem kinds_eq_commas (clause : SpelledClause) : clause.kinds = commas (clause.parts.map Prod.fst) := by
  rw [kinds, parts]
  simp only [List.map_append, List.map_map]
  split <;> rfl

theorem written_eq (clause : SpelledClause) (source : String) :
    clause.written source = if clause.parts.isEmpty then "import " ++ source ++ ";"
      else "import " ++ ", ".intercalate (clause.parts.map Prod.snd) ++ " from " ++ source ++ ";" := by
  have clauses_eq : ((clause.lead.toList ++ clause.all.toList).map SpelledSpecifier.text ++
      if (clause.named.map SpelledSpecifier.text).isEmpty then []
      else ["\x7b " ++ ", ".intercalate (clause.named.map SpelledSpecifier.text) ++ " \x7d"]) =
      clause.parts.map Prod.snd := by
    rw [parts]
    simp only [List.map_append, List.map_map, List.isEmpty_map]
    split <;> rfl
  rw [written, renderImport, clauses_eq, List.isEmpty_map]

/-- What is written spells the import. -/
theorem spells_written {clause : SpelledClause} {source value : String} {hasHalves : Bool}
    (token : IsToken (.text value hasHalves) source.toList) :
    Spells (clause.importKinds value hasHalves) (clause.written source).toList := by
  have ending : Spells [.text value hasHalves, .mark ";"] (' ' :: (source.toList ++ ";".toList)) :=
    .cons skips_space token trivial (.cons skips_nil (isToken_of_mem_delimiters (by decide))
      (endsBefore_delimiter (by decide) []) .nil)
  have import_ : IsToken (.name "import" false) "import".toList := isToken_of_isWord (by decide)
  have from_ : IsToken (.name "from" false) "from".toList := isToken_of_isWord (by decide)
  rw [written_eq, importKinds]
  by_cases no_entry : clause.entries = []
  · have whole : Spells (.name "import" false :: _) _ := .cons skips_nil import_ (endsName_of_mark (by decide) _) ending
    simpa [no_entry, parts_eq_nil_iff.mpr no_entry] using whole
  · have some_part : clause.parts ≠ [] := fun none_ => no_entry (parts_eq_nil_iff.mp none_)
    have listed := isSpelling_commas some_part isSpelling_of_mem_parts
    have behind : Spells (.name "from" false :: [.text value hasHalves, .mark ";"])
        (' ' :: ("from".toList ++ (' ' :: (source.toList ++ ";".toList)))) :=
      .cons skips_space from_ (endsName_of_mark (by decide) _) ending
    have clause_ := listed [' '] _ _ skips_space (endsName_of_mark (by decide) _) behind
    rw [← kinds_eq_commas] at clause_
    have whole : Spells (.name "import" false :: (clause.kinds ++ _)) _ :=
      .cons skips_nil import_ (endsName_of_mark (by decide) _) clause_
    simpa [no_entry, some_part, String.toList_intercalate, Function.comp_def] using whole

end SpelledClause

/-- An import that is written with the texts of its specifiers says what they say. -/
theorem ImportDeclaration.read?_written {dialect : Dialect} (no_types : dialect.hasTypes = false)
    (clause : SpelledClause)
    {source value : String} {hasHalves : Bool} (token : Lexer.IsToken (.text value hasHalves) source.toList) :
    read? dialect (clause.written source) = some [some {
      specifiers := clause.entries.map fun entry => some entry.specifier, moduleName := value }] := by
  refine read?_of_spells no_types (SpelledClause.spells_written token) ?_
  rw [SpelledClause.written_eq]
  split <;> simp [SourceModule.afterInterpreterLine]

end Storyboard
