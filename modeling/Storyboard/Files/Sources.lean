import Storyboard.Files.Disk

/-!
# Source files below a directory

A directory is searched with everything below it, names in ascending order, through links. A link that
leads nowhere, or back to a directory it is in, is a failure.
-/

namespace Storyboard

/-- Why a search fails at a path. -/
inductive SearchFault where
  /-- The path can not be reached. -/
  | unreachable (fault : FileFault)
  /-- The path leads back to a directory above it. -/
  | loop (ancestor : String)
deriving DecidableEq, Repr

/-- The text of a fault at a path. -/
def SearchFault.message (path : String) : SearchFault → String
  | unreachable fault => "IO error for operation on " ++ path ++ ": " ++ fault.message
  | loop ancestor => "File system loop found: " ++ path ++ " points to an ancestor " ++ ancestor

namespace Disk

/-- A directory on the way to a path: how it was reached, and where it is. -/
abbrev Ancestor := String × Place

/-- Whether a name in a directory is a link. -/
def isLink (disk : Disk) (place : Place) (name : String) : Bool :=
  match disk.at? (place ++ [name]) with
  | some (.link _) => true
  | _ => false

/-- The directory above a link that the link leads back to, the nearest first. -/
def loopAt? (ancestors : List Ancestor) (place : Place) : Option String :=
  (ancestors.find? fun ancestor => ancestor.2 == place).map Prod.fst

/-- The files below a directory, at most `depth` directories deep, in the order they are met. -/
def filesBelow (disk : Disk) :
    Nat → List Ancestor → String → Place → Except (String × SearchFault) (List String)
  | 0, _, _, _ => .ok []
  | depth + 1, above, path, place => do
    let ancestors := (path, place) :: above
    let found ← (disk.namesIn place).mapM fun name => do
      let child := Path.join path name
      match disk.find child with
      | .error fault => throw (child, .unreachable fault)
      | .ok (.absent _) => throw (child, .unreachable .notFound)
      | .ok (.present _ (.file _)) => return [child]
      | .ok (.present _ (.link _)) => throw (child, .unreachable .tooManyLinks)
      | .ok (.present there .directory) =>
        match if disk.isLink place name then loopAt? ancestors there else none with
        | some ancestor => throw (child, .loop ancestor)
        | none => filesBelow disk depth ancestors child there
    return found.flatten

/-- How deep a directory is searched; no path is longer. -/
def searchLimit : Nat := 4096

/-- Whether a file is code by its name. -/
def isSource (path : String) : Bool :=
  Path.extension? path == some "js" || Path.extension? path == some "jsx"

/-- The source files below a directory. -/
def sourcesBelow (disk : Disk) (path : String) : Except (String × SearchFault) (List String) :=
  match disk.find path with
  | .ok (.present place .directory) => do
    let files ← disk.filesBelow searchLimit [] path place
    return files.filter isSource
  | _ => .ok []

end Disk

end Storyboard
