/-
  Searching a folder for the files that a pattern names.

  The pieces of a pattern between slashes are names, patterns for names, or two
  stars, which stand for any number of directories on the way down and, at the
  end, for all that lies below.  Names that begin with a point are passed over
  unless the piece begins with one too.
-/
import Phrasebook.Folder
import Phrasebook.Folder.Wildcard

set_option autoImplicit false

namespace Phrasebook.Folder

/-! ## Lists of names -/

/-- Whether a name is passed over by patterns. -/
def isHidden (name : String) : Bool := name.startsWith "."

/-- The names on the way from a place down to every file below it. -/
def waysDown (f : Folder) : Place → List (List String)
  | .outside => []
  | .inside names => f.files.filterMap fun file => names.isPrefixOf? file.1

/-- The beginnings of a list that have at least one member. -/
def beginnings (names : List String) : List (List String) :=
  (List.range names.length).map fun n => names.take (n + 1)

/-- The names that lead down from a place, each with whether there is more behind it. -/
def below (f : Folder) (place : Place) : List (List String × Bool) :=
  ((f.waysDown place).flatMap fun way =>
    (beginnings way).map fun names => (names, decide (names.length < way.length))).eraseDups

/-- The names directly below a place, of directories alone or of all that is there. -/
def children (f : Folder) (place : Place) (directoriesOnly : Bool) : List String :=
  (f.below place).filterMap fun
    | ([name], isDirectory) => if isDirectory || !directoriesOnly then some name else none
    | _ => none

/-- The ways down from a place that meet nothing hidden. -/
def descendants (f : Folder) (place : Place) (directoriesOnly : Bool) : List (List String) :=
  (f.below place).filterMap fun (names, isDirectory) =>
    if (isDirectory || !directoriesOnly) && !names.any isHidden then some names else none

/-! ## Patterns -/

/-- The ways that the pieces of a pattern lead from the end of a way that is already found.  Names
are only looked up at the end and once a pattern has come before them; an end that is reached
without a name is a way with an empty name. -/
def expand (f : Folder) (found : List String) (afterPattern : Bool) :
    List String → List (List String)
  | [] => [found]
  | piece :: rest =>
    let isLast := rest.isEmpty
    if piece = "**" then
      let here := if isLast && !found.isEmpty then found ++ [""] else found
      let ways := match f.directory? found with
        | some place => here :: (f.descendants place (!isLast)).map (found ++ ·)
        | none => []
      ways.flatMap fun way => expand f way true rest
    else if Wildcard.isPattern piece then
      let names := match f.directory? found with
        | some place => f.children place (!isLast)
        | none => []
      let seen := names.filter fun name =>
        (isHidden piece || !isHidden name) && Wildcard.matchesName piece name
      seen.flatMap fun name => expand f (found ++ [name]) true rest
    else
      let way := found ++ [piece]
      if (isLast || afterPattern) && !f.has way then [] else expand f way afterPattern rest

/-- The pieces of a pattern: an empty one counts only at its end. -/
def patternPieces (pattern : String) : List String :=
  let pieces := pathPieces pattern
  pieces.dropLast.filter (· ≠ "") ++ pieces.getLast?.toList

/-- The files that a pattern names, in plain form and in the order of the ways to them.  A file to
which several ways lead is found several times. -/
def search (f : Folder) (pattern : String) : List String :=
  if pattern.startsWith "/" then []
  else
    let ways := (f.expand [] false (patternPieces pattern)).map ("/".intercalate ·)
    ((ways.mergeSort (· ≤ ·)).map tidyPath).filter f.isFile

/-- Whatever is found is a file. -/
theorem isFile_of_mem_search {f : Folder} {pattern path : String} (h : path ∈ f.search pattern) :
    f.isFile path = true := by
  simp only [search] at h
  split at h
  · simp at h
  · exact (List.mem_filter.mp h).2

end Phrasebook.Folder
