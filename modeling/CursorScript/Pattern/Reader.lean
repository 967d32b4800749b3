import CursorScript.Decimal.Read
import CursorScript.Pattern.Term

/-!
Reading patterns, and whether a text matches one. A pattern is read from left to right, and the
first mistake is the one that is told.
-/
namespace CursorScript.Pattern

/-- What is left of a pattern, the place where it starts, and the names of the groups before it. -/
structure Rest where
  chars : List Char
  place : Nat
  names : List (List Char × Extent)

namespace Rest

def skip (r : Rest) (n : Nat) : Rest := { r with chars := r.chars.drop n, place := r.place + n }

/-- Drops the characters at the front that pass a test. -/
def skipWhile (r : Rest) (test : Char → Bool) : Rest := r.skip (r.chars.takeWhile test).length

/-- Drops a question mark behind a repetition sign: it asks for the shortest match and does not
change whether there is one. -/
def skipPreference (r : Rest) : Rest :=
  match r.chars with
  | '?' :: _ => r.skip 1
  | _ => r

end Rest

def hexValue? (c : Char) : Option Nat :=
  if c.isDigit then some (c.toNat - '0'.toNat)
  else if CharSet.between 'a' 'f' c then some (c.toNat - 'a'.toNat + 10)
  else if CharSet.between 'A' 'F' c then some (c.toNat - 'A'.toNat + 10)
  else none

/-- The character with the given hexadecimal digits, which stand between two places. -/
def charOfHex (first last : Nat) (digits : List Char) : Except Fault Char :=
  let n := digits.foldl (fun n c => 16 * n + (hexValue? c).getD 0) 0
  if n.isValidChar then .ok (Char.ofNat n) else fault first last .hexNotCharacter

/-- A character given by `count` hexadecimal digits. -/
def plainHex (r : Rest) (count : Nat) : Except Fault (Char × Rest) :=
  let digits := r.chars.take count
  let good := digits.takeWhile fun c => (hexValue? c).isSome
  let behind := r.skip good.length
  if good.length < digits.length then fault behind.place (behind.place + 1) .hexDigit
  else if digits.length < count then fault behind.place behind.place .endInEscape
  else do
    let c ← charOfHex r.place behind.place digits
    return (c, behind)

/-- A character given by hexadecimal digits in braces; `r` starts at the opening brace. -/
def bracedHex (r : Rest) : Except Fault (Char × Rest) :=
  let inner := r.skip 1
  let digits := inner.chars.takeWhile fun c => (hexValue? c).isSome
  let behind := inner.skip digits.length
  match behind.chars with
  | [] => fault r.place behind.place .endInEscape
  | '\x7d' :: _ =>
    if digits.isEmpty then fault r.place (behind.place + 1) .emptyHex
    else do
      let c ← charOfHex inner.place behind.place digits
      return (c, behind.skip 1)
  | _ => fault behind.place (behind.place + 1) .hexDigit

/-- A character given by hexadecimal digits; `r` starts behind the letter. -/
def hexEscape (r : Rest) (count : Nat) : Except Fault (Char × Rest) :=
  match r.chars with
  | [] => fault r.place r.place .endInEscape
  | '\x7b' :: _ => bracedHex r
  | _ => plainHex r count

inductive Atom where
  | char (c : Char)
  | lettered (cls : LetterClass)
  | edge (pattern : Pattern)

/-- The control character that a letter behind a backslash stands for. -/
def controlOf? (c : Char) : Option Char :=
  match c with
  | 'a' => some '\x07'
  | 'f' => some '\x0c'
  | 't' => some '\t'
  | 'n' => some '\n'
  | 'r' => some '\r'
  | 'v' => some '\x0b'
  | _ => none

/-- The place that a character behind a backslash stands for. -/
def edgeOf? (c : Char) : Option Pattern :=
  match c with
  | 'A' => some textStart
  | 'z' => some textEnd
  | 'b' => some (wordEdge fun before behind => before != behind)
  | 'B' => some (wordEdge fun before behind => before == behind)
  | '<' => some (wordEdge fun before behind => !before && behind)
  | '>' => some (wordEdge fun before behind => before && !behind)
  | _ => none

/-- Whether a character behind a backslash stands for itself. -/
def standsForItself (c : Char) : Bool :=
  c.toNat < 128 && !c.isAlphanum && c != '<' && c != '>'

def escape (r : Rest) : Except Fault (Atom × Rest) :=
  let behind := r.skip 2
  match (r.skip 1).chars with
  | [] => fault r.place (r.place + 1) .endInEscape
  | 'x' :: _ => (hexEscape behind 2).map fun (c, rest) => (.char c, rest)
  | 'u' :: _ => (hexEscape behind 4).map fun (c, rest) => (.char c, rest)
  | 'U' :: _ => (hexEscape behind 8).map fun (c, rest) => (.char c, rest)
  | c :: _ =>
    if c.isDigit then fault r.place behind.place .backReference
    else if standsForItself c then .ok (.char c, behind)
    else match LetterClass.ofLetter? c, controlOf? c, edgeOf? c with
      | some cls, _, _ => .ok (.lettered cls, behind)
      | _, some control, _ => .ok (.char control, behind)
      | _, _, some pattern => .ok (.edge pattern, behind)
      | _, _, _ => fault r.place behind.place .unknownEscape

/-- A character inside brackets, or an escape. -/
def classAtom (r : Rest) : Except Fault (Atom × Rest) :=
  match r.chars with
  | [] => fault r.place r.place .unclosedClass
  | '\\' :: _ => escape r
  | c :: _ => .ok (.char c, r.skip 1)

def Atom.item (first last : Nat) : Atom → Except Fault ClassTerm
  | char c => .ok (.one c)
  | lettered cls => .ok (.lettered cls)
  | edge _ => fault first last .classEscape

def Atom.bound (first last : Nat) : Atom → Except Fault Char
  | char c => .ok c
  | lettered _ => fault first last .classRangeBound
  | edge _ => fault first last .classRangeBound

/-- An item of a class that was opened by `opening`: a range if a dash follows that neither ends the
class nor starts a join. -/
def classRange (opening : Extent) (r : Rest) : Except Fault (ClassTerm × Rest) := do
  let (low, rest) ← classAtom r
  let single := do
    let item ← low.item r.place rest.place
    return (item, rest)
  match rest.chars with
  | [] => fault opening.first opening.last .unclosedClass
  | ['-'] => fault opening.first opening.last .unclosedClass
  | '-' :: next :: _ =>
    if next = ']' ∨ next = '-' then single
    else
      let start := rest.skip 1
      let (high, behind) ← classAtom start
      let lo ← low.bound r.place rest.place
      let hi ← high.bound start.place behind.place
      if hi < lo then fault r.place behind.place .classRangeOrder
      else return (.range lo hi, behind)
  | _ => single

/-- A class named between `[:` and `:]`, if one stands at the front. -/
def namedClass? (r : Rest) : Option (ClassTerm × Rest) :=
  match r.chars with
  | '[' :: ':' :: cs =>
    let (positive, behind) := match cs with
      | '^' :: _ => (false, r.skip 3)
      | _ => (true, r.skip 2)
    let name := behind.chars.takeWhile (· != ':')
    let rest := behind.skip name.length
    match rest.chars with
    | ':' :: ']' :: _ =>
      (CharSet.named? (String.ofList name)).map fun set => (.named set positive, rest.skip 2)
    | _ => none
  | _ => none

def join? (r : Rest) : Option Join :=
  match r.chars with
  | '&' :: '&' :: _ => some .both
  | '-' :: '-' :: _ => some .without
  | '~' :: '~' :: _ => some .notBoth
  | _ => none

/-- What was read of a class: the stretch that opened it, whether it is negated, what stands before
the last join sign, and the items behind it, last first, with the stretches they cover. -/
structure ClassDraft where
  opening : Extent
  positive : Bool
  before : Option (Extent × ClassTerm × Join)
  items : List (Extent × ClassTerm)

namespace ClassDraft

def add (d : ClassDraft) (first last : Nat) (item : ClassTerm) : ClassDraft :=
  { d with items := (⟨first, last⟩, item) :: d.items }

/-- The items behind the last join sign, at the place where they end. -/
def union (d : ClassDraft) (place : Nat) : Extent × ClassTerm :=
  match d.items.reverse with
  | [] => (⟨place, place⟩, .union ⟨place, place⟩ [])
  | [item] => item
  | (first, item) :: items =>
    let extent := ⟨first.first, place⟩
    (extent, .union extent (item :: items.map (·.2)))

def inside (d : ClassDraft) (place : Nat) : Extent × ClassTerm :=
  let (last, right) := d.union place
  match d.before with
  | none => (last, right)
  | some (first, left, join) =>
    let extent := ⟨first.first, last.last⟩
    (extent, .joined extent join left right)

def join (d : ClassDraft) (place : Nat) (join : Join) : ClassDraft :=
  let (extent, left) := d.inside place
  { d with before := some (extent, left, join), items := [] }

end ClassDraft

/-- The opening of a class; `r` starts at the bracket. Dashes right behind the opening stand for
themselves, and so does a closing bracket. -/
def classOpening (r : Rest) : Except Fault (ClassDraft × Rest) :=
  let (positive, inner) := match (r.skip 1).chars with
    | '^' :: _ => (false, r.skip 2)
    | _ => (true, r.skip 1)
  let dashes := (inner.chars.takeWhile (· == '-')).length
  let dash (n : Nat) : Extent × ClassTerm := (⟨inner.place + n, inner.place + n + 1⟩, .one '-')
  let behind := inner.skip dashes
  let (items, behind) : List (Extent × ClassTerm) × Rest := match dashes, behind.chars with
    | 0, ']' :: _ => ([(⟨behind.place, behind.place + 1⟩, .one ']')], behind.skip 1)
    | _, _ => ((List.range dashes).reverse.map dash, behind)
  match behind.chars with
  | [] =>
    fault r.place (if dashes = 0 then behind.place else r.place) .unclosedClass
  | _ => .ok (⟨⟨r.place, behind.place⟩, positive, none, items⟩, behind)

mutual

def classItems (d : ClassDraft) : (fuel : Nat) → Rest → Except Fault (ClassTerm × Rest)
  | 0, _ => fault d.opening.first d.opening.last .unclosedClass
  | fuel + 1, r =>
    match r.chars with
    | [] => fault d.opening.first d.opening.last .unclosedClass
    | ']' :: _ =>
      let behind := r.skip 1
      .ok (.bracketed ⟨d.opening.first, behind.place⟩ d.positive (d.inside r.place).2, behind)
    | '[' :: _ => do
      let (item, rest) ← match namedClass? r with
        | some found => .ok found
        | none => charClass fuel r
      classItems (d.add r.place rest.place item) fuel rest
    | _ =>
      match join? r with
      | some join => classItems (d.join r.place join) fuel (r.skip 2)
      | none => do
        let (item, rest) ← classRange d.opening r
        classItems (d.add r.place rest.place item) fuel rest

def charClass : (fuel : Nat) → Rest → Except Fault (ClassTerm × Rest)
  | 0, r => fault r.place (r.place + 1) .unclosedClass
  | fuel + 1, r => do
    let (draft, rest) ← classOpening r
    classItems draft fuel rest

end

/-- A number between blanks, and what stands behind it. -/
def count (r : Rest) : Except Fault Nat × Rest :=
  let start := r.skipWhile Text.isBlank
  let digits := start.chars.takeWhile Decimal.isDigit
  let rest := start.skip digits.length
  let n := Decimal.digitsValue 0 digits
  let result :=
    if digits.isEmpty then fault start.place rest.place .emptyCount
    else if n < 4294967296 then .ok n
    else fault start.place rest.place .decimalTooLarge
  (result, rest.skipWhile Text.isBlank)

/-- The closing brace of a repetition that was opened at `opened`, and whether its bounds are in
order. -/
def closeCount (opened least : Nat) (most : Option Nat) (r : Rest) :
    Except Fault ((Nat × Option Nat) × Rest) :=
  match r.chars with
  | '\x7d' :: _ =>
    let behind := (r.skip 1).skipPreference
    if most.all (least ≤ ·) then .ok ((least, most), behind)
    else fault opened behind.place .countOrder
  | _ => fault opened r.place .unclosedCount

/-- The bounds of a repetition in braces; `r` starts at the opening brace. -/
def counted (r : Rest) : Except Fault ((Nat × Option Nat) × Rest) :=
  match (r.skip 1).chars with
  | [] => fault r.place (r.place + 1) .unclosedCount
  | _ =>
    let (low, rest) := count (r.skip 1)
    match rest.chars with
    | [] => fault r.place rest.place .unclosedCount
    | [','] => fault r.place (rest.place + 1) .unclosedCount
    | ',' :: '\x7d' :: _ => do
      let least ← low
      closeCount r.place least none (rest.skip 1)
    | ',' :: _ => do
      let least ← low
      let (high, behind) := count (rest.skip 1)
      let most ← high
      closeCount r.place least (some most) behind
    | _ => do
      let least ← low
      closeCount r.place least (some least) rest

/-- Whether a repetition sign stands at the front. -/
def startsRepetition (r : Rest) : Bool :=
  match r.chars with
  | c :: _ => c == '*' || c == '+' || c == '?' || c == '\x7b'
  | [] => false

def repetition (r : Rest) : Except Fault ((Nat × Option Nat) × Rest) :=
  match r.chars with
  | '*' :: _ => .ok ((0, none), (r.skip 1).skipPreference)
  | '+' :: _ => .ok ((1, none), (r.skip 1).skipPreference)
  | '?' :: _ => .ok ((0, some 1), (r.skip 1).skipPreference)
  | _ => counted r

/-- Flags up to `)` or `:`, of which those behind a dash are unset. `found` holds the flags before
them, and `dash` where the dash was. -/
def flagChanges (found : List (Flag × Extent × Bool)) (dash : Option Extent) :
    (fuel : Nat) → Rest → Except Fault (List (Flag × Bool) × Rest)
  | 0, r => fault r.place r.place .endInFlags
  | fuel + 1, r =>
    let here : Extent := ⟨r.place, r.place + 1⟩
    match r.chars with
    | [] => fault r.place r.place .endInFlags
    | c :: _ =>
      if c = ':' ∨ c = ')' then
        match dash with
        | some ⟨first, last⟩ =>
          if last = r.place then fault first last .danglingNegation
          else .ok (found.reverse.map fun (flag, _, value) => (flag, value), r)
        | none => .ok (found.reverse.map fun (flag, _, value) => (flag, value), r)
      else if c = '-' then
        match dash with
        | some earlier => faultAfter here.first here.last earlier .repeatedNegation
        | none => flagChanges found (some here) fuel (r.skip 1)
      else
        match Flag.ofLetter? c with
        | none => fault here.first here.last .unknownFlag
        | some flag =>
          match found.find? (·.1 == flag) with
          | some (_, earlier, _) => faultAfter here.first here.last earlier .repeatedFlag
          | none => flagChanges ((flag, here, dash.isNone) :: found) dash fuel (r.skip 1)

def namesGroup (first : Bool) (c : Char) : Bool :=
  if first then c == '_' || (Text.isWord c && !Text.isDecimalDigit c)
  else c == '_' || c == '.' || c == '[' || c == ']' || Text.isWord c

def groupName (r : Rest) : Except Fault Rest :=
  let name := r.chars.takeWhile (· != '>')
  let good := match name with
    | [] => []
    | c :: cs => if namesGroup true c then c :: cs.takeWhile (namesGroup false) else []
  let behind := r.skip good.length
  if good.length < name.length then fault behind.place (behind.place + 1) .groupNameCharacter
  else match behind.chars with
    | [] => fault behind.place behind.place .endInGroupName
    | _ =>
      if name.isEmpty then fault r.place r.place .emptyGroupName
      else match r.names.lookup name with
        | some earlier => faultAfter r.place behind.place earlier .repeatedGroupName
        | none =>
          .ok { behind.skip 1 with names := (name, ⟨r.place, behind.place⟩) :: r.names }

/-- What a group's head says: with which flags its inside is read, or that it only sets flags for
what follows it. -/
inductive GroupHead where
  | group (changes : List (Flag × Bool))
  | setting (changes : List (Flag × Bool))

def groupHead (r : Rest) : Except Fault (GroupHead × Rest) := do
  match (r.skip 1).chars with
  | '?' :: '=' :: _ => fault r.place (r.place + 3) .lookAround
  | '?' :: '!' :: _ => fault r.place (r.place + 3) .lookAround
  | '?' :: '<' :: '=' :: _ => fault r.place (r.place + 4) .lookAround
  | '?' :: '<' :: '!' :: _ => fault r.place (r.place + 4) .lookAround
  | '?' :: 'P' :: '<' :: _ =>
    let rest ← groupName (r.skip 4)
    return (.group [], rest)
  | '?' :: '<' :: _ =>
    let rest ← groupName (r.skip 3)
    return (.group [], rest)
  | ['?'] => fault r.place (r.place + 1) .unclosedGroup
  | '?' :: cs =>
    let (changes, rest) ← flagChanges [] none (cs.length + 1) (r.skip 2)
    match rest.chars with
    | ':' :: _ => return (.group changes, rest.skip 1)
    | _ =>
      if changes.isEmpty then fault (r.place + 1) (r.place + 1) .nothingToRepeat
      else return (.setting changes, rest.skip 1)
  | _ => return (.group [], r.skip 1)

/-- A term that is neither a group nor a class nor repeated. -/
def single (r : Rest) : Except Fault (Term × Rest) :=
  match r.chars with
  | [] => .ok (.empty, r)
  | '\\' :: _ => (escape r).map fun (atom, rest) =>
    match atom with
    | .char c => (.literal c, rest)
    | .lettered cls => (.lettered cls, rest)
    | .edge pattern => (.edge pattern, rest)
  | '.' :: _ => .ok (.point, r.skip 1)
  | '^' :: _ => .ok (.caret, r.skip 1)
  | '$' :: _ => .ok (.dollar, r.skip 1)
  | c :: _ => .ok (.literal c, r.skip 1)

/-- What was read of a group: where its inside starts, its alternatives, last first, where the
current one starts, and the terms of that one, last first, with the places where they start. -/
structure Draft where
  start : Nat
  branches : List Term
  branchStart : Nat
  terms : List (Nat × Term)

namespace Draft

def begin (place : Nat) : Draft := ⟨place, [], place, []⟩

def add (d : Draft) (first : Nat) (term : Term) : Draft :=
  { d with terms := (first, term) :: d.terms }

def branch (d : Draft) (place : Nat) : Term :=
  .ofSequence ⟨d.branchStart, place⟩ (d.terms.reverse.map (·.2))

def bar (d : Draft) (place : Nat) : Draft :=
  ⟨d.start, d.branch place :: d.branches, place + 1, []⟩

def inside (d : Draft) (place : Nat) : Term :=
  match d.branches with
  | [] => d.branch place
  | branches => .alternatives ⟨d.start, place⟩ (d.branch place :: branches).reverse

/-- The draft with its last term repeated as the sign at the front says; flags cannot be
repeated. -/
def repeatLast (d : Draft) (r : Rest) : Except Fault (Draft × Rest) :=
  match d.terms with
  | [] => fault r.place r.place .nothingToRepeat
  | (_, .setting _) :: _ => fault r.place r.place .nothingToRepeat
  | (first, term) :: terms => do
    let ((least, most), rest) ← repetition r
    let term := Term.repeated ⟨first, rest.place⟩ least most term
    return ({ d with terms := (first, term) :: terms }, rest)

end Draft

/-- The inside of a group up to the end or a closing parenthesis, which is left. -/
def groupInside (d : Draft) : (fuel : Nat) → Rest → Except Fault (Term × Rest)
  | 0, r => .ok (d.inside r.place, r)
  | fuel + 1, r =>
    match r.chars with
    | [] => .ok (d.inside r.place, r)
    | ')' :: _ => .ok (d.inside r.place, r)
    | '|' :: _ => groupInside (d.bar r.place) fuel (r.skip 1)
    | '[' :: _ => do
      let (cls, rest) ← charClass (r.chars.length + 1) r
      groupInside (d.add r.place (.charClass cls)) fuel rest
    | '(' :: _ => do
      let (head, rest) ← groupHead r
      match head with
      | .setting changes => groupInside (d.add r.place (.setting changes)) fuel rest
      | .group changes =>
        let (term, behind) ← groupInside (.begin rest.place) fuel rest
        match behind.chars with
        | ')' :: _ =>
          let behind := behind.skip 1
          groupInside (d.add r.place (.group ⟨r.place, behind.place⟩ changes term)) fuel behind
        | _ => fault r.place (r.place + 1) .unclosedGroup
    | _ =>
      if startsRepetition r then do
        let (d, rest) ← d.repeatLast r
        groupInside d fuel rest
      else do
        let (term, rest) ← single r
        groupInside (d.add r.place term) fuel rest

/-- How deep groups, classes and repetitions may be nested. -/
def maxDepth : Nat := 250

def Term.ofChars (chars : List Char) : Except Fault Term := do
  let (term, rest) ← groupInside (.begin 0) (chars.length + 1) ⟨chars, 0, []⟩
  match rest.chars with
  | [] =>
    match term.beyond? maxDepth with
    | some extent => fault extent.first extent.last (.tooDeep maxDepth)
    | none => return term
  | _ => fault rest.place (rest.place + 1) .unopenedGroup

/-- How many bytes a machine for a pattern may take up. -/
def maxWeight : Nat := 10485760

def compile (pattern : String) : Except String (String → Bool) :=
  match Term.ofChars pattern.toList with
  | .error f => .error (f.describe pattern.toList)
  | .ok term =>
    if maxWeight < term.weight then
      .error ("Compiled regex exceeds size limit of " ++ toString maxWeight ++ " bytes.")
    else .ok fun text => (term.meaning Flags.none).1.occursIn text.toList

end CursorScript.Pattern
