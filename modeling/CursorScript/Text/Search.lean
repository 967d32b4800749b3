/-!
Searching and cutting texts. A search finds a byte; all other places in a text are counted in
characters.
-/
namespace CursorScript.Text

def findByte? (part : List Char) : List Char → Option Nat
  | [] => if part = [] then some 0 else none
  | c :: cs =>
    if part.isPrefixOf (c :: cs) then some 0 else (findByte? part cs).map (· + c.utf8Size)

/-- The number of characters in the first `bytes` bytes of a text. -/
def charsBefore (bytes : Nat) : List Char → Nat
  | [] => 0
  | c :: cs => if bytes = 0 then 0 else charsBefore (bytes - c.utf8Size) cs + 1

def contains (text part : List Char) : Bool := (findByte? part text).isSome

/-- The characters of `text` from `first` up to `last`, if both lie in the text in this order. -/
def slice? (text : List Char) (first last : Int) : Option (List Char) :=
  if 0 ≤ first ∧ first ≤ last ∧ last ≤ text.length then
    some ((text.drop first.toNat).take (last - first).toNat)
  else none

/-- Replaces the occurrences of a non-empty `target`, from left to right; the next `skip`
characters belong to an occurrence already replaced. -/
def replaceFrom (target replacement : List Char) : (skip : Nat) → List Char → List Char
  | _, [] => []
  | skip + 1, _ :: cs => replaceFrom target replacement skip cs
  | 0, c :: cs =>
    if target.isPrefixOf (c :: cs) then
      replacement ++ replaceFrom target replacement (target.length - 1) cs
    else c :: replaceFrom target replacement 0 cs

/-- Replaces every occurrence of `target`; an empty target occurs before and after each
character. -/
def replace (text target replacement : List Char) : List Char :=
  if target = [] then replacement ++ text.flatMap (fun c => c :: replacement)
  else replaceFrom target replacement 0 text

/-- Cuts `chars` at the first `mark`, which belongs to neither part. -/
def splitOnce? (mark : Char) : List Char → Option (List Char × List Char)
  | [] => none
  | c :: cs =>
    if c = mark then some ([], cs)
    else (splitOnce? mark cs).map fun (before, behind) => (c :: before, behind)

end CursorScript.Text
