import CursorScript.Library.Casts
import CursorScript.Library.Collections
import CursorScript.Library.Movement
import CursorScript.Library.Randomness
import CursorScript.Library.Strings

/-!
The library that scripts have unless their host says otherwise.
-/
namespace CursorScript

def Library.standard (outside : Outside) : Library where
  natives :=
    Library.movement ++ Library.arithmetic ++ Library.casts ++ Library.strings outside.patterns ++
      Library.randomness outside.random
  families := Library.collections

def Function.interface (f : Function) : String × List Ty × Option Ty :=
  (f.name, f.parameterTypes, f.returns)

/-- What is taken from outside changes nothing that analysis sees of the functions. -/
theorem Library.map_interface_standard {β : Type} (view : String × List Ty × Option Ty → β)
    (outside other : Outside) :
    (standard outside).natives.map (fun f => view f.interface) =
      (standard other).natives.map (fun f => view f.interface) := by
  have same : (standard outside).natives.map Function.interface =
      (standard other).natives.map Function.interface := by
    simp only [standard, strings, randomness, List.map_append, List.map_cons, Function.ofHost,
      Function.interface]
  have mapped := congrArg (List.map view) same
  rwa [List.map_map, List.map_map] at mapped

end CursorScript
