/-!
# Paths

A path is a text of names with slashes between them. Empty names and the name `.` mean nothing, except that
a path may begin with `.`; but the text of a path is kept as it is written, and nothing here looks at files.
-/

namespace Storyboard

/-- The pieces of a text between slashes; there is always one. -/
def splitSlashes : List Char → List (List Char)
  | [] => [[]]
  | c :: rest =>
    if c == '/' then [] :: splitSlashes rest
    else
      match splitSlashes rest with
      | [] => [[c]]
      | piece :: others => (c :: piece) :: others

namespace Path

/-- Whether a path begins at the root. -/
def isAbsolute (path : String) : Bool := path.startsWith "/"

/-- The pieces of a path between slashes, without the leading slash of an absolute one. -/
def pieces (path : String) : List String :=
  let text := if isAbsolute path then path.toList.drop 1 else path.toList
  (splitSlashes text).map String.ofList

/-- Whether a piece means nothing where it stands; the flag tells that it begins a relative path. -/
def isIdle (beginsRelative : Bool) (piece : String) : Bool :=
  piece == "" || (piece == "." && !beginsRelative)

/-- Drop pieces at the end that mean nothing. -/
def trimEnd (absolute : Bool) (pieces : List String) : List String :=
  match pieces with
  | [] => []
  | first :: rest =>
    match rest.reverse.dropWhile (isIdle false) with
    | [] => if isIdle (!absolute) first then [] else [first]
    | kept => first :: kept.reverse

/-- The text of pieces. -/
def ofPieces (absolute : Bool) (pieces : List String) : String :=
  (if absolute then "/" else "") ++ "/".intercalate pieces

/-- The path without its last name, if it has one. -/
def parent? (path : String) : Option String :=
  let absolute := isAbsolute path
  match (trimEnd absolute (pieces path)).reverse with
  | [] => none
  | _ :: others => some (ofPieces absolute (trimEnd absolute others.reverse))

/-- A path taken relative to another one. -/
def join (base path : String) : String :=
  if isAbsolute path then path
  else if base.isEmpty || base.endsWith "/" then base ++ path
  else base ++ "/" ++ path

/-- The last name of a path, unless that goes up. -/
def fileName? (path : String) : Option String :=
  match (trimEnd (isAbsolute path) (pieces path)).reverse with
  | [] => none
  | last :: _ => if last == ".." || last == "." then none else some last

/-- The part of a file name after its last point, unless nothing else stands before it. -/
def extension? (path : String) : Option String := do
  let name ← fileName? path
  let reversed := name.toList.reverse
  let after := reversed.takeWhile (· != '.')
  match reversed.drop after.length with
  | _ :: before => if before.isEmpty then none else some (String.ofList after.reverse)
  | [] => none

/-- The pieces of a path that mean something. -/
def names (path : String) : List String :=
  match pieces path with
  | [] => []
  | first :: rest =>
    (if isIdle (!isAbsolute path) first then [] else [first]) ++ rest.filter fun p => !isIdle false p

/-- The pieces that are left after given names; pieces that mean nothing are passed over. -/
def afterNames? : List String → List String → Option (List String)
  | pieces, [] => some pieces
  | [], _ :: _ => none
  | piece :: pieces, name :: names =>
    if piece == name then afterNames? pieces names
    else if isIdle false piece then afterNames? pieces (name :: names)
    else none

/-- The part of a path below another one. -/
def below? (path base : String) : Option String :=
  if isAbsolute path == isAbsolute base then
    (afterNames? (pieces path) (names base)).map fun left =>
      ofPieces false (trimEnd true (left.dropWhile (isIdle false)))
  else none

end Path

end Storyboard
