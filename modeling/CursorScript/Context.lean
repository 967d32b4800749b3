import CursorScript.Value

/-!
What a run carries besides its script: the building cursor, a source of random numbers, the text
printed so far, the arguments it was started with and the data its host attached.
-/
namespace CursorScript

structure Cursor where
  x : Int64
  y : Int64
  z : Int64
deriving DecidableEq, Repr

def Cursor.origin : Cursor := ⟨0, 0, 0⟩

/-- The cursor moved by a step along each axis. A sum beyond 64 bits wraps around. A host that is
built to check for that stops there instead, so what it can reach is among what is reached here. -/
def Cursor.move (c : Cursor) (dx dy dz : Int64) : Cursor := ⟨c.x + dx, c.y + dy, c.z + dz⟩

theorem Cursor.toInt_move (c : Cursor) (dx dy dz : Int64) :
    (c.move dx dy dz).x.toInt = (c.x.toInt + dx.toInt).bmod Int64.size ∧
      (c.move dx dy dz).y.toInt = (c.y.toInt + dy.toInt).bmod Int64.size ∧
      (c.move dx dy dz).z.toInt = (c.z.toInt + dz.toInt).bmod Int64.size :=
  ⟨Int64.toInt_add .., Int64.toInt_add .., Int64.toInt_add ..⟩

inductive Draw where
  | number (lo hi : Int64)
  | real (lo hi : Float)
deriving Repr

/-- Where a source of random values stands: the seed it was started from, and what was drawn since,
the latest first. All that a source gives follows from these. -/
structure Generator where
  seed : Nat
  drawn : List Draw
deriving Repr

/-- The state that host functions can see and change. -/
structure Context where
  cursor : Cursor
  random : Generator
  args : String
  /-- What was printed and not yet taken by the host. -/
  output : String
  /-- Whether what is printed is thrown away. -/
  silent : Bool
  metadata : Option String
deriving Repr

namespace Context

def initial (args : String) (seed : Nat) : Context :=
  ⟨Cursor.origin, ⟨seed, []⟩, args, "", false, none⟩

def print (c : Context) (line : String) : Context :=
  if c.silent then c else { c with output := c.output ++ line ++ "\n" }

def move (c : Context) (dx dy dz : Int64) : Context := { c with cursor := c.cursor.move dx dy dz }

/-- Restarts the random numbers from a seed, of which the low 64 bits count. -/
def reseed (c : Context) (seed : Int) : Context :=
  { c with random := ⟨(seed % 18446744073709551616).toNat, []⟩ }

def draw (c : Context) (request : Draw) : Context :=
  { c with random := { c.random with drawn := request :: c.random.drawn } }

end Context

end CursorScript
