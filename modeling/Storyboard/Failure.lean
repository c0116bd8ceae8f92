import Storyboard.Diagnostic
import Storyboard.Files.Sources

/-!
# Failures of work on files

Work on the files of an application stops at a module that can not be compiled, at a path that can not be
reached or searched, and at a configuration that can not be read.
-/

namespace Storyboard

/-- Why work on files stops. -/
inductive Failure where
  /-- A module can not be compiled. -/
  | rejected (error : CompileError)
  /-- A path can not be reached. -/
  | unreachable (path : String) (fault : FileFault)
  /-- A directory can not be searched; the path is the one at which the search fails. -/
  | unsearchable (path : String) (fault : SearchFault)
  /-- A configuration is not of the right form. -/
  | badConfig
  /-- The replacements in a module do not fit its text. -/
  | misplaced

namespace Failure

/-- The text about a path and what is wrong with it. -/
def accessMessage (path cause : String) : String := "failed to access " ++ path ++ ": " ++ cause

/-- The path that a failure speaks of, and the text about it. -/
def access? : Failure → Option (String × String)
  | unreachable path fault => some (path, accessMessage path fault.message)
  | unsearchable path fault => some (path, accessMessage path (fault.message path))
  | _ => none

/-- Blame a path for a fault. -/
def blame {α : Type} (path : String) (result : Except FileFault α) : Except Failure α :=
  result.mapError (unreachable path)

end Failure

end Storyboard
