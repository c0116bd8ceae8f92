import Storyboard.Text.Blank

/-!
# Placeholders

A placeholder stands for an expression that can only be evaluated later. Its text is the source of the
expression between `<%` and `%>`, with a sign for how it is evaluated and, for an expression that is
both reactive and recursive, a hint which data it follows.
-/

namespace Storyboard

/-- How a placeholder is evaluated. -/
inductive EvalMode where
  | once
  | bind
  | recursive
deriving DecidableEq, Repr

/-- The sign of a mode, which is empty for a single evaluation. -/
def EvalMode.sigil : EvalMode → String
  | .once => ""
  | .bind => "="
  | .recursive => "~"

/-- Which data a placeholder follows. -/
inductive TrackHint where
  | state
  | context
deriving DecidableEq, Repr

/-- The name of a hint. -/
def TrackHint.name : TrackHint → String
  | .state => "state"
  | .context => "context"

/-- The text of a hint inside a placeholder. -/
def TrackHint.text (hint : TrackHint) : String := "\"track " ++ hint.name ++ "\","

/-- An expression to be evaluated later. -/
structure Placeholder where
  /-- How it is evaluated. -/
  mode : EvalMode
  /-- Which data it follows, when that is stated. -/
  hint : Option TrackHint
  /-- The source of the expression. -/
  source : String
deriving DecidableEq, Repr

namespace TrackHint

/-- The rest of a text after a leading part. -/
def afterPart? : List Char → List Char → Option (List Char)
  | [], text => some text
  | _ :: _, [] => none
  | p :: part, c :: rest => if p == c then afterPart? part rest else none

/-- Whether a text begins with the word `STATE` followed by a point or a bracket. -/
def beginsWithStateAccess (text : List Char) : Bool :=
  match afterPart? ['S', 'T', 'A', 'T', 'E'] text with
  | some rest =>
    match rest.dropWhile Text.isBlank with
    | c :: _ => c == '.' || c == '['
    | [] => false
  | none => false

/-- Whether a text reads the word `STATE` somewhere, the character before it given. -/
def readsState : Bool → List Char → Bool
  | _, [] => false
  | insideWord, c :: rest =>
    (!insideWord && beginsWithStateAccess (c :: rest)) || readsState (Text.isWord c) rest

/-- An expression that reads `STATE` follows the state, any other follows the context. -/
def detect (source : String) : TrackHint :=
  if readsState false source.toList then .state else .context

end TrackHint

namespace Placeholder

/-- A placeholder without a hint. -/
def plain (mode : EvalMode) (source : String) : Placeholder := { mode, hint := none, source }

/-- A recursive placeholder of a reactive expression, with the hint that its source gives. -/
def tracked (source : String) : Placeholder :=
  { mode := .recursive, hint := some (.detect source), source }

/-- The text of a placeholder. -/
def render (placeholder : Placeholder) : String :=
  "<%" ++ placeholder.mode.sigil ++ " " ++
    ((placeholder.hint.map TrackHint.text).getD "") ++ placeholder.source ++ " %>"

/-- Split off the mode and the blank after it. -/
def parseMode? : List Char → Option (EvalMode × List Char)
  | '<' :: '%' :: ' ' :: rest => some (.once, rest)
  | '<' :: '%' :: '=' :: ' ' :: rest => some (.bind, rest)
  | '<' :: '%' :: '~' :: ' ' :: rest => some (.recursive, rest)
  | _ => none

/-- Split off a hint if there is one. -/
def parseHint (text : List Char) : Option TrackHint × List Char :=
  match TrackHint.afterPart? TrackHint.state.text.toList text,
    TrackHint.afterPart? TrackHint.context.text.toList text with
  | some rest, _ => (some .state, rest)
  | none, some rest => (some .context, rest)
  | none, none => (none, text)

/-- Split off the closing part. -/
def parseSource? (text : List Char) : Option (List Char) :=
  match text.reverse with
  | '>' :: '%' :: ' ' :: rest => some rest.reverse
  | _ => none

/-- Read a placeholder back from its text. -/
def parse? (text : String) : Option Placeholder := do
  let (mode, rest) ← parseMode? text.toList
  let (hint, rest) := parseHint rest
  let source ← parseSource? rest
  return { mode, hint, source := String.ofList source }

end Placeholder

end Storyboard
