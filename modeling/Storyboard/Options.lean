import Storyboard.Json

/-!
# Options

The names by which the framework is known inside the modules of an application. They are read from a
partial record: a missing entry takes its default, an unknown one is ignored, and a known one must be
given once and with the right type.
-/

namespace Storyboard

/-- The names of the framework. -/
structure Options where
  /-- The module whose imports are markers for compilation only. -/
  runtimeModule : String := "next-jsx/runtime"
  /-- The module of the element runtime and the loaders. -/
  jsxModule : String := "next-jsx"
  /-- The marker of a reactive expression. -/
  reactiveMarker : String := "bind"
  /-- The marker of a recursive expression. -/
  recursiveMarker : String := "recursive"
  /-- The function that loads a style sheet. -/
  styleLoader : String := "loadStyleText"
  /-- The function that loads a function. -/
  functionLoader : String := "loadFunction"
  /-- The default import that names the functions of an application. -/
  resourceBinding : String := "FN"
  /-- The global names an expression may use, in ascending order, when not the usual ones. -/
  builtinGlobals : Option (List String) := none
deriving DecidableEq, Repr

/-- The global names an expression may use. -/
def usualGlobals : List String :=
  ["Array", "Boolean", "Date", "Infinity", "JSON", "Math", "NaN", "Number", "Object", "String",
    "atob", "btoa", "decodeURI", "decodeURIComponent", "encodeURI", "encodeURIComponent", "isFinite",
    "isNaN", "parseFloat", "parseInt", "undefined"]

/-- The values that a record gives to the named entries. An object may give each name once; an array
gives them in order and may stop early. -/
def recordEntries? (names : List String) : Json → Option (List (Option Json))
  | .object fields =>
    let given (name : String) := fields.filter fun entry => entry.1 == name
    if names.all fun name => (given name).length ≤ 1 then
      some (names.map fun name => (given name).head?.map Prod.snd)
    else none
  | .array items =>
    if items.length ≤ names.length then
      some ((items.map some) ++ List.replicate (names.length - items.length) none)
    else none
  | _ => none

/-- An entry that must be a text. -/
def textOr? (default : String) : Option Json → Option String
  | none => some default
  | some (.string text) => some text
  | some _ => none

/-- An entry that may be a text, or null, or missing. -/
def optionalText? : Option Json → Option (Option String)
  | none => some none
  | some .null => some none
  | some (.string text) => some (some text)
  | some _ => none

/-- Insert a text into an ascending list unless it is there. -/
def insertAscending (text : String) : List String → List String
  | [] => [text]
  | first :: rest =>
    if text == first then first :: rest
    else if text < first then text :: first :: rest
    else first :: insertAscending text rest

/-- An entry that may be a list of texts, or null, or missing. -/
def textSet? : Option Json → Option (Option (List String))
  | none => some none
  | some .null => some none
  | some (.array items) =>
    (items.mapM Json.asString?).map fun texts => some (texts.foldl (fun acc t => insertAscending t acc) [])
  | some _ => none

namespace Options

/-- The names of the entries, in the order they are written. -/
def entryNames : List String :=
  ["runtimeModule", "jsxModule", "reactiveMarker", "recursiveMarker", "styleLoader", "functionLoader",
    "resourceBinding", "builtinGlobals"]

/-- Read options from a record. -/
def ofJson? (value : Json) : Option Options := do
  let defaults : Options := {}
  match ← recordEntries? entryNames value with
  | [a, b, c, d, e, f, g, h] =>
    return {
      runtimeModule := ← textOr? defaults.runtimeModule a
      jsxModule := ← textOr? defaults.jsxModule b
      reactiveMarker := ← textOr? defaults.reactiveMarker c
      recursiveMarker := ← textOr? defaults.recursiveMarker d
      styleLoader := ← textOr? defaults.styleLoader e
      functionLoader := ← textOr? defaults.functionLoader f
      resourceBinding := ← textOr? defaults.resourceBinding g
      builtinGlobals := ← textSet? h }
  | _ => none

/-- The record of all options; the global names are left out when they are the usual ones. -/
def toJson (options : Options) : Json :=
  .object ([
    ("runtimeModule", .string options.runtimeModule),
    ("jsxModule", .string options.jsxModule),
    ("reactiveMarker", .string options.reactiveMarker),
    ("recursiveMarker", .string options.recursiveMarker),
    ("styleLoader", .string options.styleLoader),
    ("functionLoader", .string options.functionLoader),
    ("resourceBinding", .string options.resourceBinding)] ++
    (match options.builtinGlobals with
      | some names => [("builtinGlobals", .array (names.map .string))]
      | none => []))

/-- Whether an expression may use a global name. -/
def isBuiltinGlobal (options : Options) (name : String) : Bool :=
  (options.builtinGlobals.getD usualGlobals).contains name

end Options

end Storyboard
