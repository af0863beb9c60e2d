/-
  Documents: values as files hold them.

  JSON documents are read by the library itself.  For YAML documents it takes a
  reader, of which nothing is assumed.
-/
import Phrasebook.Document.Json
import Phrasebook.Document.Yaml
import Phrasebook.Folder

set_option autoImplicit false

namespace Phrasebook

/-- The format of a file.  Only the ending `.json`, in small letters, makes a JSON document. -/
def DocumentFormat.ofPath (path : String) : DocumentFormat :=
  if pathEnding path = ".json" then .json else .yaml

/-- Reads the texts of documents. -/
abbrev DocumentReader : Type := String → Except DocumentFault Value

/-- The value that a text in a format denotes, by a reader for YAML. -/
def DocumentFormat.read (readYaml : DocumentReader) : DocumentFormat → DocumentReader
  | .json => Json.read
  | .yaml => readYaml

end Phrasebook
