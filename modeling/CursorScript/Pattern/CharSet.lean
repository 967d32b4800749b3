import CursorScript.Pattern.Fault
import CursorScript.Text.Blank
import CursorScript.Text.FoldTable
import CursorScript.Text.WordTable

/-!
Sets of characters as patterns write them: in brackets, by name or by a letter behind a backslash.
Without regard to case, a bracket, a named class and both sides of a join take in every character
that differs from one of theirs in case alone, before they are negated or joined.
-/
namespace CursorScript.Pattern

abbrev CharSet := Char → Bool

namespace CharSet

def when (set : CharSet) (positive : Bool) : CharSet := fun c => set c == positive

/-- The set and, without regard to case, the characters that differ from one of its own in case
alone. -/
def folded (set : CharSet) (ignoresCase : Bool) : CharSet :=
  if ignoresCase then fun c => (Text.caseVariants c).any set else set

def between (lo hi : Char) : CharSet := fun c => lo ≤ c && c ≤ hi

/-- The character, or without regard to case all that differ from it in case alone. -/
def only (c : Char) (ignoresCase : Bool) : CharSet :=
  if ignoresCase then
    let variants := Text.caseVariants c
    fun d => variants.contains d
  else (· == c)

/-- The classes named between `[:` and `:]`, all of ASCII characters. -/
def named? (name : String) : Option CharSet :=
  match name with
  | "alnum" => some Char.isAlphanum
  | "alpha" => some Char.isAlpha
  | "ascii" => some fun c => c.toNat < 128
  | "blank" => some fun c => c == ' ' || c == '\t'
  | "cntrl" => some fun c => c.toNat < 32 || c.toNat == 127
  | "digit" => some Char.isDigit
  | "graph" => some (between '!' '~')
  | "lower" => some (between 'a' 'z')
  | "print" => some (between ' ' '~')
  | "punct" => some fun c => between '!' '~' c && !c.isAlphanum
  | "space" => some fun c => c == ' ' || (9 ≤ c.toNat && c.toNat ≤ 13)
  | "upper" => some (between 'A' 'Z')
  | "word" => some fun c => c.isAlphanum || c == '_'
  | "xdigit" => some fun c => c.isDigit || between 'a' 'f' c || between 'A' 'F' c
  | _ => none

end CharSet

/-- A class that a letter behind a backslash stands for; a capital stands for all other
characters. -/
inductive LetterClass where
  | digit (positive : Bool)
  | blank (positive : Bool)
  | word (positive : Bool)
deriving DecidableEq, Repr

namespace LetterClass

def ofLetter? (c : Char) : Option LetterClass :=
  match c with
  | 'd' => some (digit true)
  | 'D' => some (digit false)
  | 's' => some (blank true)
  | 'S' => some (blank false)
  | 'w' => some (word true)
  | 'W' => some (word false)
  | _ => none

def set : LetterClass → CharSet
  | digit positive => CharSet.when Text.isDecimalDigit positive
  | blank positive => CharSet.when Text.isBlank positive
  | word positive => CharSet.when Text.isWord positive

/-- How many bytes the class takes up in a machine for it. -/
def weight : LetterClass → Nat
  | digit positive => if positive then 5116 else 12720
  | blank positive => if positive then 680 else 1924
  | word positive => if positive then 49836 else 46420

end LetterClass

inductive Join where
  | both
  | without
  | notBoth
deriving DecidableEq, Repr

def Join.apply : Join → CharSet → CharSet → CharSet
  | both, a, b => fun c => a c && b c
  | without, a, b => fun c => a c && !b c
  | notBoth, a, b => fun c => a c != b c

inductive ClassTerm where
  | one (c : Char)
  | range (lo hi : Char)
  /-- A class named between `[:` and `:]`. -/
  | named (set : CharSet) (positive : Bool)
  | lettered (cls : LetterClass)
  | bracketed (extent : Extent) (positive : Bool) (inner : ClassTerm)
  | union (extent : Extent) (items : List ClassTerm)
  | joined (extent : Extent) (join : Join) (left right : ClassTerm)

namespace ClassTerm

mutual

def set (ignoresCase : Bool) : ClassTerm → CharSet
  | one c => (· == c)
  | range lo hi => CharSet.between lo hi
  | named set positive => (CharSet.folded set ignoresCase).when positive
  | lettered cls => cls.set
  | bracketed _ positive inner => ((set ignoresCase inner).folded ignoresCase).when positive
  | union _ items => anySet ignoresCase items
  | joined _ join left right =>
    join.apply ((set ignoresCase left).folded ignoresCase)
      ((set ignoresCase right).folded ignoresCase)

def anySet (ignoresCase : Bool) : List ClassTerm → CharSet
  | [] => fun _ => false
  | item :: items =>
    let first := set ignoresCase item
    let others := anySet ignoresCase items
    fun c => first c || others c

end

mutual

/-- The first part, from outside in and from left to right, that lies deeper than `room`. -/
def beyond? : (room : Nat) → ClassTerm → Option Extent
  | 0, bracketed extent _ _ => some extent
  | 0, union extent _ => some extent
  | 0, joined extent _ _ _ => some extent
  | room + 1, bracketed _ _ inner => beyond? room inner
  | room + 1, union _ items => anyBeyond? room items
  | room + 1, joined _ _ left right => (beyond? room left).or (beyond? room right)
  | _, _ => none

/-- The first part of several items that lies deeper than `room`. -/
def anyBeyond? (room : Nat) : List ClassTerm → Option Extent
  | [] => none
  | item :: items => (beyond? room item).or (anyBeyond? room items)

end

mutual

/-- About how many bytes the class takes up in a machine for it. -/
def weight : ClassTerm → Nat
  | one c => if c.toNat < 128 then 8 else 32 * c.utf8Size
  | range lo hi => if hi.toNat < 128 then 8 else 32 * (lo.utf8Size + hi.utf8Size)
  | named _ positive => if positive then 16 else 1000
  | lettered cls => cls.weight
  | bracketed _ positive inner => weight inner + if positive then 0 else 1000
  | union _ items => totalWeight items
  | joined _ _ left right => weight left + weight right

def totalWeight : List ClassTerm → Nat
  | [] => 0
  | item :: items => weight item + totalWeight items

end

end ClassTerm

end CursorScript.Pattern
