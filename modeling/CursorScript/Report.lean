import CursorScript.Error
import CursorScript.Source

/-!
Errors shown with the line of the script they stand in: a heading, the place, the line without its
leading spaces, and a caret under the place.
-/
namespace CursorScript.Report

/-- `text` moved right with `fill` until it is `width` characters long. -/
def padLeft (fill : Char) (width : Nat) (text : List Char) : List Char :=
  List.replicate (width - text.length) fill ++ text

def heading (e : Error) : String :=
  let title := e.cause.kind.heading ++ ": " ++ e.cause.name
  match e.cause.tip with
  | none => title
  | some tip => title ++ " (" ++ tip ++ ")"

def render (e : Error) (source : List Char) : String :=
  let line := Source.lineAt source e.position.offset
  let number := toString line.number
  let gutter := String.ofList (padLeft ' ' (number.length + 2) ['|'])
  let indent := (line.text.takeWhile (· = ' ')).length
  let shown := String.ofList (Text.trimEnd (line.text.drop indent))
  let caret := String.ofList (padLeft '-' (line.offset - indent + 1) ['^'])
  heading e ++ "\n-> " ++ e.position.describe ++ "\n" ++ gutter ++ "\n" ++
    number ++ " | " ++ shown ++ "\n" ++ gutter ++ " " ++ caret ++ "\n"

end CursorScript.Report
