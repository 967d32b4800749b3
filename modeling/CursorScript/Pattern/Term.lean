import CursorScript.Pattern
import CursorScript.Pattern.CharSet

/-!
Patterns as they are written, with the stretches they cover, and what they mean. Flags hold from
where they are set to the end of the group in which they are set, across its alternatives.
-/
namespace CursorScript.Pattern

structure Flags where
  ignoresCase : Bool
  pointTakesNewline : Bool
  manyLines : Bool
deriving DecidableEq, Repr

def Flags.none : Flags := ⟨false, false, false⟩

inductive Flag where
  | ignoresCase
  | pointTakesNewline
  | manyLines
  /-- Which of several matches is preferred. -/
  | preference
  /-- Whether letters behind a backslash stand for characters of all scripts. -/
  | allScripts
deriving DecidableEq, Repr

def Flag.ofLetter? (c : Char) : Option Flag :=
  match c with
  | 'i' => some ignoresCase
  | 's' => some pointTakesNewline
  | 'm' => some manyLines
  | 'U' => some preference
  | 'u' => some allScripts
  | _ => Option.none

def Flags.put (flags : Flags) : Flag × Bool → Flags
  | (.ignoresCase, value) => { flags with ignoresCase := value }
  | (.pointTakesNewline, value) => { flags with pointTakesNewline := value }
  | (.manyLines, value) => { flags with manyLines := value }
  | (.preference, _) => flags
  | (.allScripts, _) => flags

/-- The flags after several of them were set or unset. -/
def Flags.putAll (flags : Flags) (changes : List (Flag × Bool)) : Flags :=
  changes.foldl Flags.put flags

inductive Term where
  | empty
  /-- Flags set for the rest of the group. -/
  | setting (changes : List (Flag × Bool))
  | literal (c : Char)
  | point
  | lettered (cls : LetterClass)
  | caret
  | dollar
  /-- A place that does not depend on flags. -/
  | edge (pattern : Pattern)
  | charClass (cls : ClassTerm)
  | repeated (extent : Extent) (least : Nat) (most : Option Nat) (inner : Term)
  | group (extent : Extent) (changes : List (Flag × Bool)) (inner : Term)
  | alternatives (extent : Extent) (terms : List Term)
  | concat (extent : Extent) (terms : List Term)

namespace Term

def ofSequence (extent : Extent) : List Term → Term
  | [] => empty
  | [term] => term
  | terms => concat extent terms

mutual

def meaning (flags : Flags) : Term → Pattern × Flags
  | empty => (.empty, flags)
  | setting changes => (.empty, flags.putAll changes)
  | literal c => (.char (CharSet.only c flags.ignoresCase), flags)
  | point => (.char (fun c => flags.pointTakesNewline || c != '\n'), flags)
  | lettered cls => (.char cls.set, flags)
  | caret => (if flags.manyLines then .lineStart else .textStart, flags)
  | dollar => (if flags.manyLines then .lineEnd else .textEnd, flags)
  | edge pattern => (pattern, flags)
  | charClass cls => (.char (cls.set flags.ignoresCase), flags)
  | repeated _ least most inner =>
    let (pattern, flags) := meaning flags inner
    (Pattern.repeated pattern least most, flags)
  | group _ changes inner => ((meaning (flags.putAll changes) inner).1, flags)
  | alternatives _ terms => anyMeaning flags terms
  | concat _ terms => sequenceMeaning flags terms

def sequenceMeaning (flags : Flags) : List Term → Pattern × Flags
  | [] => (.empty, flags)
  | term :: terms =>
    let (first, flags) := meaning flags term
    let (rest, flags) := sequenceMeaning flags terms
    (.sequence first rest, flags)

def anyMeaning (flags : Flags) : List Term → Pattern × Flags
  | [] => (.empty, flags)
  | [term] => meaning flags term
  | term :: terms =>
    let (first, flags) := meaning flags term
    let (rest, flags) := anyMeaning flags terms
    (.either first rest, flags)

end

mutual

/-- The first part, from outside in and from left to right, that lies deeper than `room`. -/
def beyond? : (room : Nat) → Term → Option Extent
  | 0, repeated extent _ _ _ => some extent
  | 0, group extent _ _ => some extent
  | 0, alternatives extent _ => some extent
  | 0, concat extent _ => some extent
  | room + 1, repeated _ _ _ inner => beyond? room inner
  | room + 1, group _ _ inner => beyond? room inner
  | room + 1, alternatives _ terms => anyBeyond? room terms
  | room + 1, concat _ terms => anyBeyond? room terms
  | room, charClass cls => cls.beyond? room
  | _, _ => none

/-- The first part of several terms that lies deeper than `room`. -/
def anyBeyond? (room : Nat) : List Term → Option Extent
  | [] => none
  | term :: terms => (beyond? room term).or (anyBeyond? room terms)

end

mutual

/-- About how many bytes a machine for the term takes up. -/
def weight : Term → Nat
  | empty => 32
  | setting _ => 0
  | literal c => 32 * c.utf8Size
  | point => 1000
  | lettered cls => cls.weight
  | caret => 32
  | dollar => 32
  | edge _ => 32
  | charClass cls => 64 + cls.weight
  | repeated _ least most inner =>
    let copies := match most with
      | some most => max least most
      | none => least + 1
    copies * (40 + weight inner)
  | group _ _ inner => 64 + weight inner
  | alternatives _ terms => totalWeight terms
  | concat _ terms => totalWeight terms

def totalWeight : List Term → Nat
  | [] => 0
  | term :: terms => weight term + totalWeight terms

end

end Term

end CursorScript.Pattern
