/-
  Locale codes.

  A code names a language, and may name a script, a territory and a variant
  after it.  Its parts are joined by underscores; a code that is written with
  hyphens means the same.  Tables that callers fill are kept by normalized code,
  whatever it names.
-/
import Phrasebook.Text.Lower

set_option autoImplicit false

namespace Phrasebook.Locale

/-- A code with underscores between its parts. -/
def normalize (code : String) : String :=
  String.ofList (code.toList.map fun c => if c = '-' then '_' else c)

/-- The language of a code: its first part in lower case. -/
def language (code : String) : String :=
  Text.lower (String.ofList ((normalize code).toList.takeWhile (· ≠ '_')))

/-- Normalizing twice changes nothing. -/
theorem normalize_normalize (code : String) : normalize (normalize code) = normalize code := by
  simp only [normalize, String.toList_ofList, List.map_map]
  congr 1
  apply List.map_congr_left
  intro c _
  by_cases h : c = '-' <;> simp [h]

/-- A code and its normal form name the same language. -/
theorem language_normalize (code : String) : language (normalize code) = language code := by
  simp only [language, normalize_normalize]

end Phrasebook.Locale
