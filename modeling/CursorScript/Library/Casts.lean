import CursorScript.Decimal.Read
import CursorScript.Library.Arithmetic
import CursorScript.Text.Blank

/-!
Functions that turn values of one type into another.
-/
namespace CursorScript.Library

/-- A text as it is read as a number: without underscores, and without blanks at its ends. -/
def bareDigits (text : String) : List Char := Text.trim (text.toList.filter (· != '_'))

def realOfText (text : String) : Except String Float :=
  match Decimal.readReal? (bareDigits text) with
  | some x => .ok x
  | none => .error (Text.quoted text ++ " is not a real")

def numberOfText (text : String) : Except String Int :=
  match Decimal.readInt? (bareDigits text) with
  | some n => .ok n
  | none => .error (Text.quoted text ++ " is not a number")

def materialOfText (text : String) : Except String Material :=
  match Material.ofText? text with
  | some m => .ok m
  | none => .error (Text.quoted text ++ " is not a material")

def casts : List Function :=
  [.ofHost "as_real" [("value", .number)] (some .real) (.ofMap .number .real Float.ofInt),
   .ofHost "as_real" [("value", .string)] (some .real) (.ofTry .string .real realOfText),
   .ofHost "as_number" [("value", .real)] (some .number)
     (.ofTry .real .number (wholeNumber .truncate)),
   .ofHost "as_number" [("value", .string)] (some .number) (.ofTry .string .number numberOfText),
   .ofHost "as_string" [("value", .number)] (some .string)
     (.ofMap .number .string fun n => (Value.number n).describe),
   .ofHost "as_string" [("value", .real)] (some .string)
     (.ofMap .real .string fun x => (Value.real x).describe),
   .ofHost "as_string" [("value", .logic)] (some .string)
     (.ofMap .logic .string fun b => (Value.logic b).describe),
   .ofHost "as_string" [("value", .material)] (some .string)
     (.ofMap .material .string Material.describe),
   .ofHost "as_material" [("value", .string)] (some .material)
     (.ofTry .string .material materialOfText)]

end CursorScript.Library
