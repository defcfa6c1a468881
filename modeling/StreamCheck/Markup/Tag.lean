import StreamCheck.Markup.Number
import StreamCheck.Markup.Timestamp

/-! Tags: of what kind a value of a document is. A value need not be marked with its tag; of a plain word
its form tells the tag. -/

namespace StreamCheck.Markup

inductive Tag where
  | null
  | truth
  | whole
  | real
  | timestamp
  | binary
  | text
  /-- A text with halves of characters in it. -/
  | broken
  | list
  | mapping
  /-- A list of fields of different names. -/
  | orderedFields
  /-- A list of fields. -/
  | fields
  | set
  /-- A key whose value holds further fields. -/
  | merge
  /-- A key for the mapping's own value. -/
  | own
  | other (name : String)
deriving DecidableEq, Repr, Inhabited

namespace Tag

def start : String := "tag:yaml.org,2002:"

def known? : String → Option Tag
  | "null" => some null
  | "bool" => some truth
  | "int" => some whole
  | "float" => some real
  | "timestamp" => some timestamp
  | "binary" => some binary
  | "str" => some text
  | "seq" => some list
  | "map" => some mapping
  | "omap" => some orderedFields
  | "pairs" => some fields
  | "set" => some set
  | "merge" => some merge
  | "value" => some own
  | _ => none

def ofName (name : String) : Tag :=
  if name.startsWith start then
    (known? (String.ofList (name.toList.drop start.length))).getD (other name)
  else other name

def nullWords : List String := ["", "~", "null", "Null", "NULL"]

def trueWords : List String := ["yes", "Yes", "YES", "true", "True", "TRUE", "on", "On", "ON"]

def falseWords : List String := ["no", "No", "NO", "false", "False", "FALSE", "off", "Off", "OFF"]

def signWords : List String := ["!", "&", "*"]

/-- The tag of a plain word. The line feed that ends a word is not looked at. -/
def ofWord (word : String) : Tag :=
  let word := Text.withoutLastFeed word
  if nullWords.contains word then null
  else if trueWords.contains word || falseWords.contains word then truth
  else if Number.isReal word.toList then real
  else if Number.isWhole word.toList then whole
  else if word = "<<" then merge
  else if Timestamp.isWord word then timestamp
  else if word = "=" then own
  else if signWords.contains word then other word
  else text

end Tag

end StreamCheck.Markup
