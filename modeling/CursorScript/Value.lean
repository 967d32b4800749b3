import CursorScript.Decimal.Written
import CursorScript.Text.Quoted
import CursorScript.Text.Search

/-!
Values. They are plain data: storing a list or a map somewhere else copies it. A map keeps its
entries in the order in which their keys were first inserted.
-/
namespace CursorScript

/-- A block or an item: `space:id`. -/
structure Material where
  space : String
  id : String
deriving DecidableEq, Repr

namespace Material

def defaultSpace : String := "minecraft"

/-- Whether `part` can be one of the two parts of a material's text. -/
def isPart (part : List Char) : Bool :=
  !part.isEmpty &&
    part.all fun c => c.isAlphanum || c == '_' || c == '/' || c == '.' || c == '-'

/-- Reads `space:id`, `:id` or `id`; the latter two name the default space. -/
def ofText? (text : String) : Option Material :=
  let (space, id) :=
    match Text.splitOnce? ':' text.toList with
    | none => (defaultSpace.toList, text.toList)
    | some ([], id) => (defaultSpace.toList, id)
    | some (space, id) => (space, id)
  if isPart space ∧ isPart id then some ⟨String.ofList space, String.ofList id⟩ else none

def describe (m : Material) : String := m.space ++ ":" ++ m.id

end Material

inductive Value where
  | number (n : Int)
  | real (x : Float)
  | logic (b : Bool)
  | string (s : String)
  | material (m : Material)
  /-- A member of a literal type. -/
  | literal (name : String)
  | list (items : List Value)
  | map (entries : List (Value × Value))
  /-- What a function without a return type leaves. -/
  | unit

namespace Value

def kindName : Value → String
  | number _ => "number"
  | real _ => "real"
  | logic _ => "logic"
  | string _ => "string"
  | material _ => "material"
  | literal _ => "literal"
  | list _ => "list"
  | map _ => "map"
  | unit => "nothing"

mutual

/-- Equality of values: reals as numbers, so an undefined real differs from itself, and
collections entry by entry in order. -/
def equal : Value → Value → Bool
  | number a, number b => a == b
  | real a, real b => a == b
  | logic a, logic b => a == b
  | string a, string b => a == b
  | material a, material b => a == b
  | literal a, literal b => a == b
  | list as, list bs => equalLists as bs
  | map as, map bs => equalEntries as bs
  | unit, unit => true
  | _, _ => false

def equalLists : List Value → List Value → Bool
  | [], [] => true
  | a :: as, b :: bs => equal a b && equalLists as bs
  | _, _ => false

def equalEntries : List (Value × Value) → List (Value × Value) → Bool
  | [], [] => true
  | (k, a) :: as, (l, b) :: bs => equal k l && equal a b && equalEntries as bs
  | _, _ => false

end

mutual

def describe : Value → String
  | number n => Decimal.writeWhole n
  | real x => Decimal.write x
  | logic b => if b then "true" else "false"
  | string s => s
  | material m => m.describe
  | literal name => name
  | list items => "[" ++ ", ".intercalate (describeItems items) ++ "]"
  | map entries => "\x7b" ++ ", ".intercalate (describeEntries entries) ++ "\x7d"
  | unit => "nothing"

def describeItems : List Value → List String
  | [] => []
  | string s :: rest => Text.quoted s :: describeItems rest
  | v :: rest => describe v :: describeItems rest

/-- The texts of the entries of a map; strings among them are quoted. -/
def describeEntries : List (Value × Value) → List String
  | [] => []
  | (k, v) :: rest =>
    let key := match k with
      | string s => Text.quoted s
      | k => describe k
    let value := match v with
      | string s => Text.quoted s
      | v => describe v
    (key ++ ": " ++ value) :: describeEntries rest

end

def lookup? (entries : List (Value × Value)) (key : Value) : Option Value :=
  (entries.find? fun entry => entry.1.equal key).map Prod.snd

/-- Sets the value under a key: in place if the key is there, else at the end. -/
def insertEntry (key value : Value) : List (Value × Value) → List (Value × Value)
  | [] => [(key, value)]
  | (k, v) :: rest =>
    if k.equal key then (k, value) :: rest else (k, v) :: insertEntry key value rest

/-- Inserts pairs one after the other into an empty map. -/
def entriesOf (pairs : List (Value × Value)) : List (Value × Value) :=
  pairs.foldl (fun entries (k, v) => insertEntry k v entries) []

def hasKey (entries : List (Value × Value)) (key : Value) : Bool := (lookup? entries key).isSome

def keysOf (entries : List (Value × Value)) : List Value := entries.map Prod.fst

end Value

end CursorScript
