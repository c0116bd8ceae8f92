import Storyboard.Frame
import Storyboard.Json

/-!
# Findings and failures

A finding is reported and does not stop the work on a module; a failure does. Both carry the place they
speak of and may show it in a frame.
-/

namespace Storyboard

/-- A finding in a module. -/
structure Diagnostic where
  /-- How serious it is. -/
  severity : Severity
  /-- What was found. -/
  message : String
  /-- The file it was found in. -/
  file : String
  /-- The line of the place. -/
  line : Nat
  /-- The column of the place. -/
  column : Nat
  /-- The place in its lines. -/
  frame : String
deriving DecidableEq, Repr

/-- A failure in a module. -/
structure CompileError where
  /-- The code of the failure. -/
  code : String
  /-- What went wrong. -/
  message : String
  /-- The file it went wrong in. -/
  file : String
  /-- The line of the place. -/
  line : Nat
  /-- The column of the place. -/
  column : Nat
  /-- The place in its lines, if it is shown. -/
  context : Option String := none
  /-- Advice. -/
  hints : List String := []
deriving DecidableEq, Repr

namespace CompileError

/-- The code of a module that is not well formed. -/
def parseCode : String := "NJ-ERR-PARSE"

/-- The code of a marker with the wrong number of arguments. -/
def arityCode : String := "NJ-ERR-MARKER-ARITY"

/-- The code of a functions index that can not be read. -/
def functionsCode : String := "NJ-ERR-FUNCTIONS"

/-- The kind of failure that a code stands for. -/
def kindOf (code : String) : String :=
  if code == parseCode then "SYNTAX_ERROR"
  else if code == arityCode then "MARKER_ARITY_VIOLATION"
  else if code == functionsCode then "INVALID_FUNCTIONS_INDEX"
  else "COMPILER_ERROR"

/-- The failure on one line. -/
def display (error : CompileError) : String :=
  error.message ++ " (" ++ error.file ++ ":" ++ toString error.line ++ ":" ++ toString error.column ++ ")"

/-- The record of a failure. -/
def toJson (error : CompileError) : Json :=
  .object [("code", .string error.code), ("errorType", .string (kindOf error.code)),
    ("message", .string error.message), ("file", .string error.file), ("line", .ofNat error.line),
    ("column", .ofNat error.column), ("context", .ofOption (error.context.map .string)),
    ("hints", .array (error.hints.map .string))]

end CompileError

/-- The name of a severity in a record. -/
def Severity.name : Severity → String
  | .warning => "warning"
  | .error => "error"

namespace Diagnostic

/-- The record of a finding. -/
def toJson (d : Diagnostic) : Json :=
  .object [("severity", .string d.severity.name), ("message", .string d.message),
    ("file", .string d.file), ("line", .ofNat d.line), ("column", .ofNat d.column),
    ("frame", .string d.frame)]

end Diagnostic

end Storyboard
