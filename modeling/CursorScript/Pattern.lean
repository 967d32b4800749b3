import Std.Data.HashSet
import CursorScript.Text.WordTable

/-!
Patterns for texts. A pattern leads from places of a text to the places where a match that starts at
one of them can end. Whether a text matches does not depend on which of several matches is
preferred, so places are kept as sets, and no place is visited twice.
-/
namespace CursorScript

inductive Pattern where
  /-- Matches at every place without taking anything. -/
  | empty
  /-- Takes one character of a set. -/
  | char (accepts : Char → Bool)
  | sequence (first second : Pattern)
  | either (left right : Pattern)
  /-- At most so many matches one after the other, or any number of them. -/
  | many (most : Option Nat) (inner : Pattern)
  | textStart
  | textEnd
  | lineStart
  | lineEnd
  /-- A place chosen by whether the characters before and behind it are part of a word. -/
  | wordEdge (fits : (before behind : Bool) → Bool)

namespace Pattern

def replicate (inner : Pattern) : (count : Nat) → Pattern
  | 0 => empty
  | count + 1 => sequence inner (replicate inner count)

/-- `inner` repeated at least `least` and at most `most` times; without a `most` there is no upper
limit. -/
def repeated (inner : Pattern) (least : Nat) (most : Option Nat) : Pattern :=
  sequence (replicate inner least) (many (most.map (· - least)) inner)

/-- The places of both lists, those of the second only if the first does not have them. -/
def unite (places more : List Nat) : List Nat :=
  let known := Std.HashSet.ofList places
  places ++ more.filter fun place => !known.contains place

/-- `found` and the places reached from `frontier` by at most `rounds` steps. What was found is
`known` and led on with no fewer rounds left, so only new places are followed. -/
def closure (step : List Nat → List Nat) :
    (rounds : Nat) → (known : Std.HashSet Nat) → (found frontier : List Nat) → List Nat
  | 0, _, found, _ => found
  | rounds + 1, known, found, frontier =>
    let fresh := (step frontier).filter fun place => !known.contains place
    if fresh.isEmpty then found
    else closure step rounds (known.insertMany fresh) (fresh ++ found) fresh

def wordAt (text : Array Char) (place : Nat) : Bool := (text[place]?).any Text.isWord

def wordBefore (text : Array Char) (place : Nat) : Bool :=
  match place with
  | 0 => false
  | n + 1 => wordAt text n

def behind? (text : Array Char) (accepts : Char → Bool) (place : Nat) : Option Nat :=
  match text[place]? with
  | some c => if accepts c then some (place + 1) else none
  | none => none

/-- The places where a match that starts at one of `places` can end. -/
def reach (text : Array Char) : Pattern → (places : List Nat) → List Nat
  | empty, places => places
  | char accepts, places => places.filterMap (behind? text accepts)
  | sequence first second, places =>
    let between := reach text first places
    if between.isEmpty then [] else reach text second between
  | either left right, places => unite (reach text left places) (reach text right places)
  | many most inner, places =>
    -- Every round but the last finds a new place, and there are no more places than these.
    let rounds := min (most.getD (text.size + 1)) (text.size + 1)
    closure (reach text inner) rounds (Std.HashSet.ofList places) places places
  | textStart, places => places.filter (· == 0)
  | textEnd, places => places.filter (· == text.size)
  | lineStart, places =>
    places.filter fun place => place == 0 || text[place - 1]? == some '\n'
  | lineEnd, places =>
    places.filter fun place => place == text.size || text[place]? == some '\n'
  | wordEdge fits, places =>
    places.filter fun place => fits (wordBefore text place) (wordAt text place)

/-- Whether a match starts somewhere in the text. -/
def occursIn (pattern : Pattern) (text : List Char) : Bool :=
  let text := text.toArray
  !(pattern.reach text (List.range (text.size + 1))).isEmpty

end Pattern

end CursorScript
