import CursorScript.Error
import CursorScript.Host

/-!
Functions that move the building cursor, tell where it is, and give the arguments of the run.
-/
namespace CursorScript.Library

def fitsCoordinate (n : Int) : Bool := -9223372036854775808 ≤ n && n < 9223372036854775808

def coordinate (n : Int) : Except String Int64 :=
  if fitsCoordinate n then .ok (.ofInt n) else .error (Decimal.writeWhole n ++ " is out of range")

theorem coordinate_eq_ok_iff {n : Int} {x : Int64} : coordinate n = .ok x ↔ x.toInt = n := by
  unfold coordinate fitsCoordinate
  constructor
  · intro h
    split at h
    · next fits =>
      cases h
      simp only [Bool.and_eq_true, decide_eq_true_eq] at fits
      exact Int64.toInt_ofInt_of_le fits.1 fits.2
    · cases h
  · rintro rfl
    have least := x.le_toInt
    have most := x.toInt_lt
    rw [if_pos (by simp; omega), Int64.ofInt_toInt]

def directions : List (String × (Int64 × Int64 × Int64)) :=
  [("posx", (1, 0, 0)), ("negx", (-1, 0, 0)), ("posy", (0, 1, 0)), ("negy", (0, -1, 0)),
   ("posz", (0, 0, 1)), ("negz", (0, 0, -1))]

def moveDirection : HostFunction where
  parameters := [.string]
  returns := none
  run := fun ((direction : String), _) context =>
    match directions.lookup direction with
    | some (x, y, z) => .ok ((), context.move x y z)
    | none => .error ("invalid move direction " ++ Text.quoted direction)

def moveBy : HostFunction where
  parameters := [.number, .number, .number]
  returns := none
  run := fun (x, y, z, _) context => do
    return ((), context.move (← coordinate x) (← coordinate y) (← coordinate z))

def moveVector : HostFunction where
  parameters := [.list .number]
  returns := none
  run := fun ((vector : List Int), _) context =>
    match vector with
    | [x, y, z] => do
      return ((), context.move (← coordinate x) (← coordinate y) (← coordinate z))
    | _ => .error ("expected a vector of 3 numbers, received " ++ toString vector.length)

def position : HostFunction where
  parameters := []
  returns := some (.list .number)
  run := fun _ context =>
    let cursor := context.cursor
    .ok ([cursor.x.toInt, cursor.y.toInt, cursor.z.toInt], context)

/-- Behind a move the position is the sum, as far as 64 bits hold it. -/
theorem position_moveBy {x y z : Int} {c c' : Context}
    (h : moveBy.run (x, y, z, ()) c = .ok ((), c')) :
    position.run () c' = .ok ([(c.cursor.x.toInt + x).bmod Int64.size,
      (c.cursor.y.toInt + y).bmod Int64.size, (c.cursor.z.toInt + z).bmod Int64.size], c') := by
  obtain ⟨dx, readX, h⟩ := exists_of_bind_ok h
  obtain ⟨dy, readY, h⟩ := exists_of_bind_ok h
  obtain ⟨dz, readZ, h⟩ := exists_of_bind_ok h
  cases h
  obtain ⟨sumX, sumY, sumZ⟩ := c.cursor.toInt_move dx dy dz
  rw [coordinate_eq_ok_iff.1 readX] at sumX
  rw [coordinate_eq_ok_iff.1 readY] at sumY
  rw [coordinate_eq_ok_iff.1 readZ] at sumZ
  simp only [position, Context.move, sumX, sumY, sumZ]

def args : HostFunction where
  parameters := []
  returns := some .string
  run := fun _ context => .ok (context.args, context)

def movement : List Function :=
  [.ofHost "move" [("direction", .literal (.ofList (directions.map Prod.fst)))] none moveDirection,
   .ofHost "move" [("x", .number), ("y", .number), ("z", .number)] none moveBy,
   .ofHost "move" [("vector", .list .number)] none moveVector,
   .ofHost "position" [] (some (.list .number)) position,
   .ofHost "args" [] (some .string) args]

end CursorScript.Library
