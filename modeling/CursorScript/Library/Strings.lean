import CursorScript.Host
import CursorScript.Outside
import CursorScript.Text.Blank
import CursorScript.Text.LetterCase
import CursorScript.Text.Search

/-!
Functions on texts. Lengths and places count characters.
-/
namespace CursorScript.Library

def indexOf (text part : String) : Int :=
  match Text.findByte? part.toList text.toList with
  | some byte => Text.charsBefore byte text.toList
  | none => -1

def substring (text : String) (first last : Int) : Except String String :=
  match Text.slice? text.toList first last with
  | some chars => .ok (String.ofList chars)
  | none => .error ("substring range out of bounds for length " ++ toString text.length)

def compareTexts (a b : String) : Int := if a < b then -1 else if a = b then 0 else 1

/-- Whether two texts differ in case alone. -/
def equalIgnoringCase (a b : String) : Bool := Text.lower a.toList == Text.lower b.toList

/-- A text made from the characters of a text, bound under a name. -/
def textFunction (name : String) (f : List Char → List Char) : Function :=
  .ofHost name [("text", .string)] (some .string)
    (.ofMap .string .string fun (text : String) => String.ofList (f text.toList))

def textTest (name first second : String) (f : String → String → Bool) : Function :=
  .ofHost name [(first, .string), (second, .string)] (some .logic)
    (.ofMap2 .string .string .logic f)

/-- The part of a text between two places. -/
def substringFunction : HostFunction where
  parameters := [.string, .number, .number]
  returns := some .string
  run := fun (text, first, last, _) context => (substring text first last).map (·, context)

def replaceFunction : HostFunction where
  parameters := [.string, .string, .string]
  returns := some .string
  run := fun ((text : String), (target : String), (replacement : String), _) context =>
    .ok (String.ofList (Text.replace text.toList target.toList replacement.toList), context)

def matchWhole (engine : PatternEngine) (text pattern : String) : Except String Bool :=
  (engine.compile ("^(?:" ++ pattern ++ ")$")).map (· text)

def matchesFunction (engine : PatternEngine) : HostFunction where
  parameters := [.string, .string]
  returns := some .logic
  run := fun (text, pattern, _) context => (matchWhole engine text pattern).map (·, context)

def strings (engine : PatternEngine) : List Function :=
  [.ofHost "length" [("text", .string)] (some .number)
     (.ofMap .string .number fun (text : String) => (text.length : Int)),
   textFunction "upper" Text.upper,
   textFunction "lower" Text.lower,
   textTest "contains" "text" "part" fun text part => Text.contains text.toList part.toList,
   textTest "starts_with" "text" "prefix" fun text part =>
     part.toList.isPrefixOf text.toList,
   textTest "ends_with" "text" "suffix" fun text part => part.toList.isSuffixOf text.toList,
   .ofHost "index_of" [("text", .string), ("part", .string)] (some .number)
     (.ofMap2 .string .string .number indexOf),
   .ofHost "substring" [("text", .string), ("begin", .number), ("end", .number)] (some .string)
     substringFunction,
   .ofHost "replace" [("text", .string), ("target", .string), ("replacement", .string)]
     (some .string) replaceFunction,
   textFunction "trim" Text.trim,
   .ofHost "is_empty" [("text", .string)] (some .logic)
     (.ofMap .string .logic fun (text : String) => text == ""),
   textTest "equals_ignore_case" "a" "b" equalIgnoringCase,
   .ofHost "compare_to" [("a", .string), ("b", .string)] (some .number)
     (.ofMap2 .string .string .number compareTexts),
   .ofHost "matches" [("text", .string), ("pattern", .string)] (some .logic)
     (matchesFunction engine)]

end CursorScript.Library
