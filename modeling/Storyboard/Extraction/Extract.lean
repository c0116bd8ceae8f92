import Storyboard.Code.Grammar.Module
import Storyboard.Extraction.Imports
import Storyboard.Extraction.Walk

/-!
# Extraction

A module is read, its expressions and imports are replaced, and the result is its new text together with
what was found on the way.
-/

namespace Storyboard

/-- What comes of the extraction of a module. -/
structure Extraction where
  /-- The new text, if anything in the module was replaced. -/
  code : Option String
  /-- The findings. -/
  diagnostics : List Diagnostic
  /-- How many expressions were replaced. -/
  placeholders : Nat
deriving DecidableEq, Repr

namespace Extraction

/-- The record of an extraction. -/
def toJson (extraction : Extraction) : Json :=
  .object [("code", .ofOption (extraction.code.map .string)),
    ("diagnostics", .array (extraction.diagnostics.map Diagnostic.toJson)),
    ("placeholders", .ofNat extraction.placeholders)]

end Extraction

/-- Why there is no extraction of a module. -/
inductive ExtractionFailure where
  /-- The module can not be compiled. -/
  | rejected (error : CompileError)
  /-- The replacements do not fit the text. -/
  | misplaced

namespace SourceText

/-- The dialect that the name of a file asks for: markup in files whose name ends in `.jsx`. -/
def dialect (source : SourceText) : Dialect := { hasMarkup := source.file.endsWith ".jsx" }

/-- The failure of a source that is not well formed. The place in it is not determined. -/
def malformed (source : SourceText) : CompileError :=
  { code := CompileError.parseCode, message := "", file := source.file, line := 1, column := 0 }

/-- Read a source. -/
def parse (source : SourceText) (dialect : Dialect) : Except CompileError SourceModule :=
  match SourceModule.parse? dialect source.text with
  | some module => .ok module
  | none => .error source.malformed

end SourceText

namespace Extraction

/-- The replacements of a module that has been read, and the warnings about it. -/
def findings (source : SourceText) (options : Options) (program : Node) :
    Except CompileError Findings :=
  visit source { options } program

/-- Put the replacements into a module. -/
def assemble (source : SourceText) (found : Findings) (importEdits : List Edit) :
    Except ExtractionFailure Extraction :=
  let placeholders := found.edits.length
  if found.edits.isEmpty && importEdits.isEmpty then
    .ok { code := none, diagnostics := found.warnings, placeholders }
  else
    match Edit.splice? source.text (found.edits ++ importEdits) with
    | some text => .ok { code := some text, diagnostics := found.warnings, placeholders }
    | none => .error .misplaced

/-- Extract the expressions of a module. -/
def run (source : SourceText) (options : Options) (processCss : Bool) :
    Except ExtractionFailure Extraction := do
  let module ← (source.parse source.dialect).mapError .rejected
  let found ← (findings source options module.program).mapError .rejected
  assemble source found (Imports.edits source options processCss module.program)

end Extraction

end Storyboard
