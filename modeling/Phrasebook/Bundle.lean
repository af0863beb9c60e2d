/-
  Bundles: files whose document maps locales to their tables of values.

  The locales of a document are stored one after the other, each as soon as its
  table is seen; what was stored before a fault is found stays stored.  An empty
  document holds no locale.
-/
import Phrasebook.Document
import Phrasebook.Folder.Search
import Phrasebook.Store

set_option autoImplicit false

namespace Phrasebook

/-- Why a bundle is not loaded, or not to its end. -/
inductive LoadFault where
  /-- there is no such file -/
  | noFile (fault : PathFault)
  /-- the file holds no document -/
  | document (fault : DocumentFault)
  /-- the document is no table -/
  | notTable (path : String)
  /-- what the document maps a locale to is no table -/
  | localeNotTable (path locale : String)
  /-- a key has no text -/
  | key (fault : Number.Fault)
  deriving DecidableEq, Repr, Inhabited

/-- What is wrong with a document that has not the shape of a bundle; other faults need no words. -/
def LoadFault.message? : LoadFault → Option String
  | .notTable path => some (path ++ ": top level must map locale codes to translations")
  | .localeNotTable path locale =>
    some (path ++ ": translations for locale '" ++ locale ++ "' must be a mapping")
  | _ => none

namespace Store

/-- Stores the tables of a document, locale by locale, and answers with the locales as they are
written. -/
def loadEntries (path : String) :
    List (Value × Value) → Store → Except LoadFault (List String) × Store
  | [], s => (.ok [], s)
  | (key, v) :: rest, s =>
    match key.toText, v with
    | .error fault, _ => (.error (.key fault), s)
    | .ok locale, .table entries =>
      match s.store locale entries with
      | .error fault => (.error (.key fault), s)
      | .ok s =>
        match loadEntries path rest s with
        | (.ok locales, s) => (.ok (locale :: locales), s)
        | failed => failed
    | .ok locale, _ => (.error (.localeNotTable path locale), s)

/-- Stores the document of a file. -/
def loadDocument (path : String) (document : Value) (s : Store) :
    Except LoadFault (List String) × Store :=
  match document with
  | .null => (.ok [], s)
  | .table entries => loadEntries path entries s
  | _ => (.error (.notTable path), s)

/-- The document of the file that a path leads to. -/
def documentAt (f : Folder) (path : String) (readYaml : DocumentReader := Yaml.read) :
    Except LoadFault Value := do
  let text ← (f.read path).mapError .noFile
  ((DocumentFormat.ofPath path).read readYaml text).mapError .document

/-- Loads the bundle that a path leads to. -/
def loadFile (f : Folder) (path : String) (s : Store) (readYaml : DocumentReader := Yaml.read) :
    Except LoadFault (List String) × Store :=
  match documentAt f path readYaml with
  | .error fault => (.error fault, s)
  | .ok document => s.loadDocument (tidyPath path) document

/-- Loads bundles one after the other, up to the first fault. -/
def loadFiles (f : Folder) (readYaml : DocumentReader) :
    List String → Store → Except LoadFault Unit × Store
  | [], s => (.ok (), s)
  | path :: rest, s =>
    match s.loadFile f path readYaml with
    | (.error fault, s) => (.error fault, s)
    | (.ok _, s) => loadFiles f readYaml rest s

/-- Loads the bundles that patterns name, pattern by pattern, and answers with their paths. -/
def load (f : Folder) (patterns : List String) (s : Store)
    (readYaml : DocumentReader := Yaml.read) : Except LoadFault (List String) × Store :=
  let paths := patterns.flatMap f.search
  match loadFiles f readYaml paths s with
  | (.ok (), s) => (.ok paths, s)
  | (.error fault, s) => (.error fault, s)

end Store

end Phrasebook
