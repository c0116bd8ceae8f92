import Storyboard.Extraction.Extract
import Storyboard.Options

/-!
# Reading extractions back

Extractions are kept as records, and these are read with care: every entry has to be there, once, and of
the right type. Only the new text may be missing, which means that there is none.
-/

namespace Storyboard

/-- The values that a record gives to the named entries; as an array it has to give all of them. -/
def fullEntries? (names : List String) (value : Json) : Option (List (Option Json)) :=
  match value with
  | .array items => if items.length == names.length then recordEntries? names value else none
  | _ => recordEntries? names value

/-- A natural number below a bound. -/
def Json.natBelow? (bound : Nat) : Json → Option Nat
  | .number (.whole n) => if 0 ≤ n ∧ n < bound then some n.toNat else none
  | _ => none

/-- Read a severity, which is its name, alone or as the name of nothing. -/
def Severity.ofJson? : Json → Option Severity
  | .string "warning" => some .warning
  | .string "error" => some .error
  | .object [("warning", .null)] => some .warning
  | .object [("error", .null)] => some .error
  | _ => none

namespace Diagnostic

/-- The names of the entries, in the order they are written. -/
def entryNames : List String := ["severity", "message", "file", "line", "column", "frame"]

/-- Read a finding from its record. -/
def ofJson? (value : Json) : Option Diagnostic := do
  match ← fullEntries? entryNames value with
  | [some severity, some message, some file, some line, some column, some frame] =>
    return {
      severity := ← Severity.ofJson? severity
      message := ← message.asString?
      file := ← file.asString?
      line := ← line.natBelow? (Nat.pow 2 32)
      column := ← column.natBelow? (Nat.pow 2 32)
      frame := ← frame.asString? }
  | _ => none

end Diagnostic

namespace Extraction

/-- The names of the entries, in the order they are written. -/
def entryNames : List String := ["code", "diagnostics", "placeholders"]

/-- Read a list of findings. -/
def diagnostics? : Json → Option (List Diagnostic)
  | .array items => items.mapM Diagnostic.ofJson?
  | _ => none

/-- Read an extraction from its record. -/
def ofJson? (value : Json) : Option Extraction := do
  match ← fullEntries? entryNames value with
  | [code, some diagnostics, some placeholders] =>
    return {
      code := ← optionalText? code
      diagnostics := ← diagnostics? diagnostics
      placeholders := ← placeholders.natBelow? (Nat.pow 2 64) }
  | _ => none

end Extraction

end Storyboard
