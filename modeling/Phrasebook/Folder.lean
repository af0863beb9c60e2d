/-
  Folders: files by path, as they stand when a bundle is loaded.

  A folder is a list of files, each with its path as a list of names; the
  directories are the beginnings of these paths.  A path that is followed from
  the folder may stay where it is (`.`) or go up (`..`), and may leave the folder;
  nothing is known of what lies outside.
-/
import Phrasebook.Text.Split

set_option autoImplicit false

namespace Phrasebook

/-! ## Paths -/

/-- The pieces of a path between its slashes. -/
def pathPieces (path : String) : List String :=
  (Text.splitOn '/' path.toList).map String.ofList

/-- The names of a path: its pieces without those that stay where they are. -/
def pathNames (path : String) : List String :=
  (pathPieces path).filter fun piece => piece ≠ "" && piece ≠ "."

/-- A relative path in its plain form. -/
def tidyPath (path : String) : String :=
  match pathNames path with
  | [] => "."
  | names => "/".intercalate names

/-- The ending of the last name of a path, with its point: from the last point on, unless this is
the first or the last character of the name. -/
def pathEnding (path : String) : String :=
  match (pathNames path).getLast? with
  | none => ""
  | some name =>
    let backwards := name.toList.reverse
    let ending := backwards.takeWhile (· ≠ '.')
    if ending.isEmpty || backwards.length ≤ ending.length + 1 then ""
    else String.ofList ('.' :: ending.reverse)

/-! ## Folders -/

/-- A snapshot of the files below a directory. -/
structure Folder where
  files : List (List String × String) := []
  deriving DecidableEq, Repr, Inhabited

/-- A place that a path can lead to. -/
inductive Place where
  | inside (names : List String)
  | outside
  deriving DecidableEq, Repr, Inhabited

/-- What stands at a place. -/
inductive Entry where
  | file (text : String)
  | directory
  | missing
  deriving DecidableEq, Repr, Inhabited

/-- Why a path leads to no file. -/
inductive PathFault where
  | missing
  /-- it leads to a directory -/
  | isDirectory
  /-- it goes on behind a file -/
  | behindFile
  deriving DecidableEq, Repr, Inhabited

namespace Folder

/-- The folder with the given files by path. -/
def ofFiles (files : List (String × String)) : Folder :=
  ⟨files.map fun (path, text) => (pathNames path, text)⟩

/-- What stands at a place.  All that is known outside is that it can be left again. -/
def entry (f : Folder) : Place → Entry
  | .outside => .directory
  | .inside names =>
    match f.files.lookup names with
    | some text => .file text
    | none =>
      if names.isEmpty || f.files.any fun file => names.isPrefixOf file.1 then .directory
      else .missing

/-- The place that a name leads to. -/
def enter (f : Folder) (place : Place) (name : String) : Except PathFault Place :=
  match f.entry place with
  | .missing => .error .missing
  | .file _ => .error .behindFile
  | .directory =>
    if name = "" || name = "." then .ok place
    else if name = ".." then
      match place with
      | .inside (first :: rest) => .ok (.inside (first :: rest).dropLast)
      | _ => .ok .outside
    else
      match place with
      | .inside names => .ok (.inside (names ++ [name]))
      | .outside => .error .missing

/-- The place that names lead to, one after the other. -/
def follow (f : Folder) (start : Place) (names : List String) : Except PathFault Place :=
  names.foldlM f.enter start

/-- Where following a path begins. -/
def startOf (path : String) : Place :=
  if path.startsWith "/" then .outside else .inside []

/-- The text of the file that a path leads to. -/
def read (f : Folder) (path : String) : Except PathFault String := do
  match f.entry (← f.follow (startOf path) (pathNames path)) with
  | .file text => return text
  | .directory => throw .isDirectory
  | .missing => throw .missing

/-- Whether a path leads to a file. -/
def isFile (f : Folder) (path : String) : Bool := (f.read path).isOk

/-- Whether there is anything where some names lead. -/
def has (f : Folder) (names : List String) : Bool :=
  match f.follow (.inside []) names with
  | .ok place => f.entry place ≠ .missing
  | .error _ => false

/-- The place where some names lead, if it is a directory. -/
def directory? (f : Folder) (names : List String) : Option Place :=
  match f.follow (.inside []) names with
  | .ok place => if f.entry place = .directory then some place else none
  | .error _ => none

/-- The root of a folder is a directory. -/
theorem entry_root (f : Folder) (h : f.files.lookup [] = none) :
    f.entry (.inside []) = .directory := by
  simp [entry, h]

/-- Staying where one is leads nowhere else. -/
theorem enter_stay {f : Folder} {place : Place} (h : f.entry place = .directory) :
    f.enter place "." = .ok place := by
  simp [enter, h]

end Folder

end Phrasebook
