/-
Text in double quotes, for diagnostics. Quotes, backslashes and the usual controls
are escaped by a letter, other characters without a visible form by their number.
-/

import EntityStore.Text.Invisible

set_option autoImplicit false

namespace EntityStore
namespace Text

def quotedChar (character : Char) : List Char :=
  match character with
  | '"' => ['\\', '"']
  | '\\' => ['\\', '\\']
  | '\n' => ['\\', 'n']
  | '\r' => ['\\', 'r']
  | '\t' => ['\\', 't']
  | '\x00' => ['\\', '0']
  | _ =>
      if isInvisible character then
        ['\\', 'u', '\x7b'] ++ Nat.toDigits 16 character.toNat ++ ['\x7d']
      else [character]

def quoted (text : String) : String :=
  String.ofList ('"' :: text.toList.flatMap quotedChar ++ ['"'])

end Text
end EntityStore
