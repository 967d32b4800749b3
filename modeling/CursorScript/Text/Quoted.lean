import CursorScript.Text.Printable

/-!
Quoted texts: a text between double quotes, in which quotes, backslashes and characters that are
not printable are escaped.
-/
namespace CursorScript.Text

/-- The number `n` in lower-case hexadecimal digits. -/
def hex (n : Nat) : List Char := Nat.toDigits 16 n

/-- How `c` is written inside a quoted text. -/
def quoteChar (c : Char) : List Char :=
  match c.toNat with
  | 0x00 => ['\\', '0']
  | 0x09 => ['\\', 't']
  | 0x0A => ['\\', 'n']
  | 0x0D => ['\\', 'r']
  | 0x22 => ['\\', c]
  | 0x5C => ['\\', c]
  | n => if isPrintable c then [c] else ['\\', 'u', '\x7b'] ++ hex n ++ ['\x7d']

def quoted (text : String) : String :=
  String.ofList ('\x22' :: text.toList.flatMap quoteChar ++ ['\x22'])

end CursorScript.Text
