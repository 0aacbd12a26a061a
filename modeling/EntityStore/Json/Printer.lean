/-
Writing JSON text, on one line without blanks or over several lines with two blanks
of indentation a level. Members stand in the order of the document.
-/

import EntityStore.Json.Basic

set_option autoImplicit false

namespace EntityStore
namespace Json

def hexChar (nibble : Nat) : Char :=
  if nibble < 10 then Char.ofNat (nibble + 48) else Char.ofNat (nibble + 87)

/-- How a character stands in a string: quotes, backslashes and controls are
escaped, everything else stands for itself. -/
def stringChar (character : Char) : List Char :=
  match character with
  | '"' => ['\\', '"']
  | '\\' => ['\\', '\\']
  | '\x08' => ['\\', 'b']
  | '\x0c' => ['\\', 'f']
  | '\n' => ['\\', 'n']
  | '\r' => ['\\', 'r']
  | '\t' => ['\\', 't']
  | _ =>
      if character.toNat < 0x20 then
        ['\\', 'u', '0', '0', hexChar (character.toNat / 16), hexChar (character.toNat % 16)]
      else [character]

def stringText (content : String) : String :=
  String.ofList ('"' :: content.toList.flatMap stringChar ++ ['"'])

/-- A number; a float that is no finite number is written as null. -/
def numberText : JsonNumber → String
  | .integer whole => toString whole
  | .float real => if real.isFinite then real.text .interchange else "null"

def scalarText : Json → String
  | .boolean flag => if flag then "true" else "false"
  | .number value => numberText value
  | .string content => stringText content
  | _ => "null"

mutual

def compact : Json → String
  | .array items => "[" ++ compactItems items ++ "]"
  | .object members => "\x7b" ++ compactMembers members ++ "\x7d"
  | other => scalarText other

def compactItems : List Json → String
  | [] => ""
  | [item] => item.compact
  | item :: rest => item.compact ++ "," ++ compactItems rest

def compactMembers : List (String × Json) → String
  | [] => ""
  | [(name, value)] => stringText name ++ ":" ++ value.compact
  | (name, value) :: rest =>
      stringText name ++ ":" ++ value.compact ++ "," ++ compactMembers rest

end

def newLine (level : Nat) : String :=
  String.ofList ('\n' :: List.replicate (2 * level) ' ')

mutual

def pretty (level : Nat) : Json → String
  | .array [] => "[]"
  | .array (item :: items) =>
      "[" ++ prettyItems (level + 1) (item :: items) ++ newLine level ++ "]"
  | .object [] => "\x7b\x7d"
  | .object (member :: members) =>
      "\x7b" ++ prettyMembers (level + 1) (member :: members) ++ newLine level ++ "\x7d"
  | other => scalarText other

def prettyItems (level : Nat) : List Json → String
  | [] => ""
  | [item] => newLine level ++ item.pretty level
  | item :: rest => newLine level ++ item.pretty level ++ "," ++ prettyItems level rest

def prettyMembers (level : Nat) : List (String × Json) → String
  | [] => ""
  | [(name, value)] => newLine level ++ stringText name ++ ": " ++ value.pretty level
  | (name, value) :: rest =>
      newLine level ++ stringText name ++ ": " ++ value.pretty level ++ ","
        ++ prettyMembers level rest

end

end Json
end EntityStore
