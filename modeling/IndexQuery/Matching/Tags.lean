import IndexQuery.Data.JsonText
import IndexQuery.Matching.Words
set_option autoImplicit false

/-! # Stored tags

The tags of a document are stored as a text with commas between them or as a list, and are compared
in lower case. Truth values and numbers are tags too, in the spelling they have in JSON. -/

namespace IndexQuery.Matching

/-- The tags in a text: what stands between commas, without blanks around it. -/
def splitTags (s : List Char) : List (List Char) :=
  (s.splitOnP (· == ',')).map fun tag => Text.lowercase (Text.trim tag)

mutual

/-- The tags of a stored value. -/
def tagsOf : Datum → List (List Char)
  | .text s => splitTags s.toList
  | .list items => tagsOfItems items
  | .bool b => [JsonText.truth b]
  | .int n => [(toString n).toList]
  | .float x => [JsonText.number x]
  | .null => []
  | .record _ => []

def tagsOfItems : List Datum → List (List Char)
  | [] => []
  | item :: rest => tagsOf item ++ tagsOfItems rest

end

/-- Whether a wanted tag meets a stored one, which is in lower case already. -/
def tagMatches (mode : TagMode) (wanted tag : List Char) : Bool :=
  let wanted := Text.lowercase wanted
  match mode with
  | .exact => tag == wanted
  | .starts => wanted.isPrefixOf tag
  | .ends => wanted.isSuffixOf tag
  | .contains => hasRun wanted tag

end IndexQuery.Matching
