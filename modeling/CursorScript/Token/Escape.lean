/-!
Backslash escapes in texts. `\n`, `\t`, `\r`, `\0` and a backslash before a backslash, a quote, a
backtick or a brace stand for one character, `\x` reads one or two hexadecimal digits, and any
other escape stands for itself.
-/
namespace CursorScript.Escape

def hexValue? (c : Char) : Option Nat :=
  if '0' ≤ c ∧ c ≤ '9' then some (c.toNat - '0'.toNat)
  else if 'a' ≤ c ∧ c ≤ 'f' then some (c.toNat - 'a'.toNat + 10)
  else if 'A' ≤ c ∧ c ≤ 'F' then some (c.toNat - 'A'.toNat + 10)
  else none

/-- What a backslash followed by `c` stands for, `x` apart. -/
def escaped (c : Char) : List Char :=
  match c.toNat with
  | 0x6E => ['\n']
  | 0x74 => ['\t']
  | 0x72 => ['\r']
  | 0x30 => ['\x00']
  | 0x5C => [c]
  | 0x22 => [c]
  | 0x60 => [c]
  | 0x7B => [c]
  | 0x7D => [c]
  | _ => ['\\', c]

/-- Resolves the escapes of a text; `\x` without a digit is the only escape that fails, and the
failure gives its text. -/
def unescape : List Char → Except String (List Char)
  | [] => .ok []
  | c :: cs =>
    if c = '\\' then
      match cs with
      | [] => .ok ['\\']
      | e :: rest =>
        if e = 'x' then
          match rest with
          | [] => .error "\\x"
          | high :: tail =>
            match hexValue? high with
            | none => .error "\\x"
            | some h =>
              match tail with
              | [] => .ok [Char.ofNat h]
              | low :: more =>
                match hexValue? low with
                | none => (unescape (low :: more)).map (Char.ofNat h :: ·)
                | some l => (unescape more).map (Char.ofNat (16 * h + l) :: ·)
        else (unescape rest).map (escaped e ++ ·)
    else (unescape cs).map (c :: ·)
termination_by cs => cs.length
decreasing_by all_goals (subst_vars; simp; try omega)

end CursorScript.Escape
