import Storyboard.Element.Lowering
import Storyboard.Yaml.Document

/-!
# Boards

A board collects the routes and components of an application together with its resources, and folds
them into the one document that a renderer reads.
-/

namespace Storyboard

/-- A function of an application, as source text. -/
structure FunctionResource where
  /-- The name of the function. -/
  name : String
  /-- Whether the source is written with types, when that is known. -/
  isTyped : Option Bool
  /-- The source text. -/
  source : String
deriving DecidableEq, Repr

namespace FunctionResource

/-- The document form of a function. -/
def toJson (function : FunctionResource) : Json :=
  .object (("name", .string function.name) ::
    (optionalField "typescript" (function.isTyped.map .bool) ++
      [("source", .string function.source)]))

/-- Read a function from its document form; both texts are required. -/
def ofJson? (value : Json) : Option FunctionResource := do
  let name ← (← value.field? "name").asString?
  let source ← (← value.field? "source").asString?
  let isTyped ← match value.field? "typescript" with
    | none => some none
    | some .null => some none
    | some (.bool flag) => some (some flag)
    | some _ => none
  return { name, isTyped, source }

end FunctionResource

/-- What an application brings besides its routes and components. -/
structure Resources where
  /-- Further entries of the `meta` part. -/
  metaEntries : Fields Json := []
  /-- Functions by key. -/
  functions : Fields FunctionResource := []
  /-- Menus, when given. -/
  menus : Option Json := none
  /-- Contracts, when given. -/
  contracts : Option Json := none
  /-- The texts in several languages, when given. -/
  i18n : Option Json := none

/-- An application under assembly. -/
structure Board where
  /-- Routes in the order they were added. -/
  routes : List Route := []
  /-- Components in the order they were added. -/
  components : List Component := []
  /-- Resources of the application. -/
  resources : Resources := {}
  /-- Further entries of the document. -/
  extra : Fields Json := []

namespace Board

/-- Add a route or a component; anything else is handed back. -/
def push (board : Board) : Lowered → Except Lowered Board
  | .component c => .ok { board with components := board.components ++ [c] }
  | .descriptor (.route r) => .ok { board with routes := board.routes ++ [r] }
  | other => .error other

/-- The `meta` part of the document: own entries first, then what the board computes over them. -/
def metaFields (board : Board) : Fields Json :=
  let resources := board.resources
  Fields.setAll resources.metaEntries (
    ("customTemplates", .array (board.components.map Component.toJson)) ::
    ("functions", .array ((Fields.values resources.functions).map FunctionResource.toJson)) ::
    (optionalField "menus" resources.menus ++
      optionalField "contracts" resources.contracts ++
      optionalField "i18n" resources.i18n))

/-- The document of a board. -/
def document (board : Board) : Json :=
  objectOf (
    ("routes", .array (routesToJson board.routes)) ::
    (board.extra ++ [("meta", .object board.metaFields)]))

/-- The two files of a board's document: their names and their texts. -/
def files (board : Board) : List (String × String) :=
  [("storyboard.json", board.document.renderPretty 0), ("storyboard.yaml", Yaml.render board.document)]

end Board

end Storyboard
