import CursorScript.Text.CaseTable

/-!
Upper and lower case of texts. A capital sigma at the end of a word becomes a final sigma.
-/
namespace CursorScript.Text

/-- The one-character image of `c` under `runs`, or `c` itself. -/
def mapCase (runs : List CaseRun) (c : Char) : Char :=
  match runs.findSome? (fun run => run.image? c.toNat) with
  | some n => Char.ofNat n
  | none => c

def upperChar (c : Char) : List Char :=
  match upperWide.lookup c.toNat with
  | some image => image.map Char.ofNat
  | none => [mapCase upperRuns c]

/-- The lower case of one character, wherever it stands. -/
def lowerChar (c : Char) : List Char :=
  match lowerWide.lookup c.toNat with
  | some image => image.map Char.ofNat
  | none => [mapCase lowerRuns c]

/-- Whether the first character that is not passed over has a case. -/
def startsCased (chars : List Char) : Bool :=
  match chars.dropWhile caseIgnorable.has with
  | [] => false
  | c :: _ => cased.has c

/-- The lower case of a text whose characters before it, in reverse, are `before`. -/
def lowerAfter (before : List Char) : List Char → List Char
  | [] => []
  | c :: rest =>
    let image :=
      if c = 'Σ' then
        if startsCased before && !startsCased rest then ['ς'] else ['σ']
      else lowerChar c
    image ++ lowerAfter (c :: before) rest

def upper (chars : List Char) : List Char := chars.flatMap upperChar

def lower (chars : List Char) : List Char := lowerAfter [] chars

end CursorScript.Text
