/-
Values, rows and keys as documents. Nothing is lost: a float is written by its bits
and bytes in hexadecimal digits, both inside an object that says what it holds. All
values that are not a number are one.
-/

import EntityStore.Json.Access
import EntityStore.Key
import EntityStore.Row

set_option autoImplicit false

namespace EntityStore

namespace Hex

def digit (nibble : Nat) : Char :=
  if nibble < 10 then Char.ofNat (nibble + 48) else Char.ofNat (nibble + 87)

def digits : Nat → Nat → List Char
  | 0, _ => []
  | count + 1, number => digits count (number / 16) ++ [digit (number % 16)]

/-- The value of a digit in either case; anything else counts as zero. -/
def value (character : Char) : Nat :=
  let code := character.toNat
  if 48 ≤ code && code ≤ 57 then code - 48
  else if 97 ≤ code && code ≤ 102 then code - 87
  else if 65 ≤ code && code ≤ 70 then code - 55
  else 0

def number (content : List Char) : Nat :=
  content.foldl (fun total character => total * 16 + value character) 0

def ofBytes (content : List UInt8) : String :=
  String.ofList (content.flatMap fun byte => digits 2 byte.toNat)

def toBytes : List Char → List UInt8
  | high :: low :: rest => (value high * 16 + value low).toUInt8 :: toBytes rest
  | _ => []

end Hex

namespace Double

def toDocument (number : Double) : Json :=
  let bits := if number.isNaN then canonicalNaN.bits else number.bits
  .object [("float", .string (String.ofList (Hex.digits 16 bits.toNat)))]

end Double

namespace Value

def toDocument : Value → Json
  | null => .null
  | boolean content => .boolean content
  | integer number => Json.integer number.toInt
  | float number => number.toDocument
  | text content => .string content
  | bytes content => .object [("bytes", .string (Hex.ofBytes content))]

def ofDocument : Json → Value
  | .boolean content => boolean content
  | .number (.integer whole) => integer (Int64.ofInt whole)
  | .string content => text content
  | .object [("float", .string content)] => float ⟨(Hex.number content.toList).toUInt64⟩
  | .object [("bytes", .string content)] => bytes (Hex.toBytes content.toList)
  | _ => null

end Value

namespace Row

def toDocument (row : Row) : Json :=
  Json.ofList (Json.ofPair Value.toDocument) row.columns

def ofDocument (document : Json) : Row := ofList (document.pairs Value.ofDocument)

end Row

namespace Key

def idOfDocument (document : Json) : Option Int64 := document.integer?.map Int64.ofInt

def ofDocument (document : Json) : Key :=
  ⟨(document.item 0).text, idOfDocument (document.item 1)⟩

def toDocument (key : Key) : Json := .string key.display

end Key

end EntityStore
