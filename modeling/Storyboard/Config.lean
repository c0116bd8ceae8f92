import Storyboard.Files.Path
import Storyboard.Json.Reader
import Storyboard.Options

/-!
# The configuration of an application

Where its sources are, where the results go, and which of its files are worked on. It is read from a
partial record with the same rules as the options.
-/

namespace Storyboard

/-- A file or directory of sources that is worked on. -/
structure Target where
  /-- Its path below the sources. -/
  path : String
  /-- Whether its style sheets are loaded. -/
  processCss : Bool := false
deriving DecidableEq, Repr

/-- A configuration. -/
structure Config where
  /-- The name of the application. -/
  appId : Option String := none
  /-- Where the sources are. -/
  srcDir : String := "src"
  /-- Where the results go. -/
  outDir : String := "temp"
  /-- Where results are kept for the next run. -/
  cacheDir : Option String := none
  /-- The index of the functions, below the sources. -/
  functionsIndex : String := "resources/functions/index.js"
  /-- What is worked on. -/
  targets : List Target :=
    [⟨"routes.jsx", false⟩, ⟨"views", true⟩, ⟨"components", true⟩, ⟨"resources/menus", false⟩]
  /-- The names of the framework. -/
  extract : Options := {}
deriving DecidableEq, Repr

namespace Target

/-- Read a target from a record; its path has to be given. -/
def ofJson? (value : Json) : Option Target := do
  match ← recordEntries? ["path", "processCss"] value with
  | [some (.string path), none] => return { path }
  | [some (.string path), some (.bool processCss)] => return { path, processCss }
  | _ => none

/-- The record of a target. -/
def toJson (target : Target) : Json :=
  .object [("path", .string target.path), ("processCss", .bool target.processCss)]

end Target

namespace Config

/-- The name of the file that holds the configuration of an application. -/
def fileName : String := "next-jsx.config.json"

/-- The names of the entries, in the order they are written. -/
def entryNames : List String :=
  ["appId", "srcDir", "outDir", "cacheDir", "functionsIndex", "targets", "extract"]

/-- An entry that lists targets. -/
def targetsOr? (default : List Target) : Option Json → Option (List Target)
  | none => some default
  | some (.array items) => items.mapM Target.ofJson?
  | some _ => none

/-- An entry that holds options. -/
def optionsOr? : Option Json → Option Options
  | none => some {}
  | some value => Options.ofJson? value

/-- Read a configuration from a record. -/
def ofJson? (value : Json) : Option Config := do
  let defaults : Config := {}
  match ← recordEntries? entryNames value with
  | [a, b, c, d, e, f, g] =>
    return {
      appId := ← optionalText? a
      srcDir := ← textOr? defaults.srcDir b
      outDir := ← textOr? defaults.outDir c
      cacheDir := ← optionalText? d
      functionsIndex := ← textOr? defaults.functionsIndex e
      targets := ← targetsOr? defaults.targets f
      extract := ← optionsOr? g }
  | _ => none

/-- Read a configuration from a text. -/
def parse? (text : String) : Option Config := (Json.readRaw? text).bind ofJson?

/-- The record of a configuration. -/
def toJson (config : Config) : Json :=
  .object [
    ("appId", .ofOption (config.appId.map .string)),
    ("srcDir", .string config.srcDir),
    ("outDir", .string config.outDir),
    ("cacheDir", .ofOption (config.cacheDir.map .string)),
    ("functionsIndex", .string config.functionsIndex),
    ("targets", .array (config.targets.map Target.toJson)),
    ("extract", config.extract.toJson)]

/-- Where the storyboard of the application is written. -/
def storyboardDir? (config : Config) (root : String) : Option String :=
  config.appId.map fun appId => Path.join (Path.join root "mock-micro-apps") appId

end Config

end Storyboard
