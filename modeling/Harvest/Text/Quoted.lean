import Harvest.Text.Digits
import Harvest.Text.Invisible

/-! # Quoted text in messages

A text is quoted in a message so that all of it can be seen: quotes, backslashes and line ends are
escaped by a letter, invisible characters by their code point in hexadecimal.
-/

namespace Harvest.Text

/-- The quoted form of a character. -/
def quotedChar (c : Char) : List Char :=
  match c with
  | '\x00' => ['\\', '0']
  | '\t' => ['\\', 't']
  | '\r' => ['\\', 'r']
  | '\n' => ['\\', 'n']
  | '\\' => ['\\', '\\']
  | '"' => ['\\', '"']
  | _ =>
    if isInvisible c then ['\\', 'u', '\x7b'] ++ hexDigits c.toNat ++ ['\x7d'] else [c]

/-- The quoted form of a text. -/
def quoted (s : String) : String :=
  String.ofList ('"' :: s.toList.flatMap quotedChar ++ ['"'])

end Harvest.Text
