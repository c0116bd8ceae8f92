import Storyboard.Files.Path

/-!
# Files

A disk is a directory with everything below it. Each place below the root, given by the names that lead to
it, holds a file, a directory or a link. A path is followed name by name, through links, and reading and
writing fail for the reasons that a file system knows.
-/

namespace Storyboard

/-- What a place holds. -/
inductive Content where
  | file (bytes : ByteArray)
  | directory
  | link (target : String)

/-- The names that lead from the root to a place. -/
abbrev Place := List String

/-- A directory, how it is called in paths, and everything below it. -/
structure Disk where
  /-- The path of the root. -/
  root : String
  /-- What the places below the root hold. -/
  entries : List (Place × Content)

/-- Why a file can not be reached. -/
inductive FileFault where
  | notFound
  | alreadyExists
  | notDirectory
  | isDirectory
  | tooManyLinks
  | notText
deriving DecidableEq, Repr

/-- The text of a fault. -/
def FileFault.message : FileFault → String
  | notFound => "No such file or directory (os error 2)"
  | alreadyExists => "File exists (os error 17)"
  | notDirectory => "Not a directory (os error 20)"
  | isDirectory => "Is a directory (os error 21)"
  | tooManyLinks => "Too many levels of symbolic links (os error 40)"
  | notText => "stream did not contain valid UTF-8"

/-- Where a path leads. -/
inductive Found where
  /-- To a place that holds something. -/
  | present (place : Place) (content : Content)
  /-- To a place that holds nothing, inside a directory. -/
  | absent (place : Place)

namespace Found

/-- The place that a path leads to. -/
def place : Found → Place
  | present place _ => place
  | absent place => place

/-- What is there. -/
def content? : Found → Option Content
  | present _ content => some content
  | absent _ => none

end Found

/-- An action on a disk that may fail; what was done before a failure stays done. -/
abbrev DiskAction (ε : Type) := ExceptT ε (StateM Disk)

/-- What comes of an action on a disk, and the disk after it. -/
def DiskAction.on {ε α : Type} (action : DiskAction ε α) (disk : Disk) : Except ε α × Disk :=
  action.run.run disk

namespace Disk

/-- What a place holds; the root is a directory. -/
def at? (disk : Disk) (place : Place) : Option Content :=
  if place.isEmpty then some .directory else disk.entries.lookup place

/-- Put something at a place. -/
def put (disk : Disk) (place : Place) (content : Content) : Disk :=
  { disk with entries := (place, content) :: disk.entries.filter fun entry => entry.1 != place }

/-- Leave nothing at a place. -/
def empty (disk : Disk) (place : Place) : Disk :=
  { disk with entries := disk.entries.filter fun entry => entry.1 != place }

/-- Remove a place and everything below it. -/
def erase (disk : Disk) (place : Place) : Disk :=
  { disk with entries := disk.entries.filter fun entry => !place.isPrefixOf entry.1 }

/-- Make sure that the directories above a place exist. -/
def putParents (disk : Disk) (place : Place) : Disk :=
  (List.range place.length).foldl (fun acc count =>
    let above := place.take count
    match acc.at? above with
    | some _ => acc
    | none => acc.put above .directory) disk

/-- What is put at a place is there. -/
theorem at?_put_self (disk : Disk) {place : Place} (content : Content) (below : place ≠ []) :
    (disk.put place content).at? place = some content := by
  simp [at?, put, below]

theorem lookup_filter_of_ne (entries : List (Place × Content)) {place other : Place}
    (differ : other ≠ place) :
    (entries.filter fun entry => entry.1 != place).lookup other = entries.lookup other := by
  induction entries with
  | nil => rfl
  | cons entry rest ih =>
    obtain ⟨name, content⟩ := entry
    by_cases same : name = place
    · subst same
      have apart : (other == name) = false := beq_false_of_ne differ
      simp [List.lookup_cons, apart, ih]
    · simp [List.lookup_cons, same, ih]

/-- Putting something at a place changes no other place. -/
theorem at?_put_of_ne (disk : Disk) {place other : Place} (content : Content) (differ : other ≠ place) :
    (disk.put place content).at? other = disk.at? other := by
  by_cases root : other = []
  · simp [at?, root]
  · have apart : (other == place) = false := beq_false_of_ne differ
    simp [at?, put, root, List.lookup_cons, apart, lookup_filter_of_ne disk.entries differ]

/-! ## Following paths -/

/-- Whether a name stays where it is. -/
def stays (name : String) : Bool := name == "" || name == "."

/-- How far names lead without going through a link. -/
inductive Stretch where
  /-- To their end, or to where they can not be followed. -/
  | ended (result : Except FileFault Found)
  /-- To a link, with names left. -/
  | linked (place : Place) (target : String) (rest : List String)

/-- Follow names from a place up to the first link. -/
def walk (disk : Disk) : Place → List String → Stretch
  | here, [] =>
    match disk.at? here with
    | none => .ended (.ok (.absent here))
    | some (.link target) => .linked here target []
    | some content => .ended (.ok (.present here content))
  | here, name :: rest =>
    match disk.at? here with
    | none => .ended (if (name :: rest).all stays then .ok (.absent here) else .error .notFound)
    | some (.link target) => .linked here target (name :: rest)
    | some (.file _) => .ended (.error .notDirectory)
    | some .directory =>
      if stays name then walk disk here rest
      else if name == ".." then
        if here.isEmpty then .ended (.error .notFound) else walk disk here.dropLast rest
      else walk disk (here ++ [name]) rest

/-- Follow names from a place, through fewer links than `links`; the flag tells whether to go through a link
at the end. -/
def follow (disk : Disk) (throughLast : Bool) : Nat → Place → List String → Except FileFault Found
  | 0, _, _ => .error .tooManyLinks
  | links + 1, here, names =>
    match disk.walk here names with
    | .ended result => result
    | .linked place target rest =>
      if !throughLast && rest.all stays then .ok (.present place (.link target))
      else if Path.isAbsolute target then .error .notFound
      else follow disk throughLast links place.dropLast (Path.pieces target ++ rest)

/-- How many links a path may go through. -/
def linkLimit : Nat := 40

/-- The names of a path below the root, unless the path is outside of it. -/
def namesBelowRoot? (disk : Disk) (path : String) : Option (List String) :=
  if path == disk.root then some []
  else if path.startsWith (disk.root ++ "/") then
    some ((splitSlashes (path.toList.drop (disk.root.length + 1))).map String.ofList)
  else none

/-- Where a path leads, through a link at its end or up to it. Nothing is known outside the root. -/
def locate (disk : Disk) (throughLast : Bool) (path : String) : Except FileFault Found :=
  match disk.namesBelowRoot? path with
  | some names => disk.follow throughLast (linkLimit + 1) [] names
  | none => .error .notFound

/-- Where a path leads. -/
def find (disk : Disk) (path : String) : Except FileFault Found := disk.locate true path

/-! ## Looking and reading -/

/-- Whether a path leads to something. -/
def has (disk : Disk) (path : String) : Bool :=
  match disk.find path with
  | .ok (.present _ _) => true
  | _ => false

/-- Whether a path leads to a file. -/
def isFile (disk : Disk) (path : String) : Bool :=
  match disk.find path with
  | .ok (.present _ (.file _)) => true
  | _ => false

/-- Whether a path leads to a directory. -/
def isDirectory (disk : Disk) (path : String) : Bool :=
  match disk.find path with
  | .ok (.present _ .directory) => true
  | _ => false

/-- The text of a file. -/
def readText (disk : Disk) (path : String) : Except FileFault String :=
  match disk.find path with
  | .error fault => .error fault
  | .ok (.present _ (.file bytes)) =>
    match String.fromUTF8? bytes with
    | some text => .ok text
    | none => .error .notText
  | .ok (.present _ .directory) => .error .isDirectory
  | .ok (.present _ (.link _)) => .error .tooManyLinks
  | .ok (.absent _) => .error .notFound

/-- The names in a directory, in ascending order. -/
def namesIn (disk : Disk) (place : Place) : List String :=
  (disk.entries.filterMap fun (other, _) =>
    if other.dropLast == place then other.getLast? else none).mergeSort (· ≤ ·)

/-- The text of every file below a place, in ascending order of the paths that lead there. -/
def textsBelow (disk : Disk) (path : String) : List (String × String) :=
  match disk.find path with
  | .ok (.present place .directory) =>
    let files := disk.entries.filterMap fun (other, content) =>
      match content with
      | .file bytes =>
        if place.isPrefixOf other then
          (String.fromUTF8? bytes).map fun text =>
            (Path.join path ("/".intercalate (other.drop place.length)), text)
        else none
      | _ => none
    files.mergeSort fun a b => a.1 ≤ b.1
  | _ => []

/-! ## Writing -/

/-- Write a text to a file, which is made if there is none. -/
def writeText (path text : String) : DiskAction FileFault Unit := do
  let disk ← get
  match disk.find path with
  | .error fault => throw fault
  | .ok (.present _ .directory) => throw .isDirectory
  | .ok (.present place _) => set (disk.put place (.file text.toUTF8))
  | .ok (.absent place) =>
    if path.endsWith "/" then throw .isDirectory else set (disk.put place (.file text.toUTF8))

/-- Make a directory in one that exists. -/
def makeDirectory (path : String) : DiskAction FileFault Unit := do
  let disk ← get
  match disk.locate false path with
  | .error fault => throw fault
  | .ok (.present _ _) => throw .alreadyExists
  | .ok (.absent place) => set (disk.put place .directory)

/-- Make a directory unless it is there; other reasons why it can not be made are failures. -/
def settle (path : String) (fault : FileFault) : DiskAction FileFault Unit := do
  if (← get).isDirectory path then pure () else throw fault

/-- Make a directory and those above it, at most `depth` of them. -/
def makeDirectories : Nat → String → DiskAction FileFault Unit
  | 0, _ => throw .notFound
  | depth + 1, path => do
    if path.isEmpty then pure ()
    else
      try makeDirectory path
      catch fault =>
        if fault == .notFound then
          match Path.parent? path with
          | none => throw fault
          | some above =>
            makeDirectories depth above
            try makeDirectory path
            catch fault => settle path fault
        else settle path fault

/-- Make a directory and those above it. -/
def makeAllDirectories (path : String) : DiskAction FileFault Unit :=
  makeDirectories (path.length + 1) path

/-- Remove a file, or a link to one. -/
def removeFile (path : String) : DiskAction FileFault Unit := do
  let disk ← get
  match disk.locate false path with
  | .error fault => throw fault
  | .ok (.present _ .directory) => throw .isDirectory
  | .ok (.present place _) => set (disk.empty place)
  | .ok (.absent _) => throw .notFound

end Disk

end Storyboard
