/-
Characters of text: the letter case of the ASCII letters, blank text, and the length of text in
bytes. Keywords, type names, dialect names and column names are compared without regard to
letter case; all characters but the ASCII letters keep theirs.
-/

set_option autoImplicit false

namespace EntityStore
namespace Text

def lowerChar (character : Char) : Char :=
  if 'A' ≤ character ∧ character ≤ 'Z' then Char.ofNat (character.toNat + 32) else character

def upperChar (character : Char) : Char :=
  if 'a' ≤ character ∧ character ≤ 'z' then Char.ofNat (character.toNat - 32) else character

def lower (text : String) : String :=
  String.ofList (text.toList.map lowerChar)

def upper (text : String) : String :=
  String.ofList (text.toList.map upperChar)

def sameIgnoringCase (left right : String) : Bool :=
  left.toList.map lowerChar == right.toList.map lowerChar

def isDigit (character : Char) : Bool :=
  '0' ≤ character && character ≤ '9'

def isLetter (character : Char) : Bool :=
  ('a' ≤ character && character ≤ 'z') || ('A' ≤ character && character ≤ 'Z')

/-- The characters of words: letters, digits and the underscore. -/
def isWordChar (character : Char) : Bool :=
  isLetter character || isDigit character || character == '_'

/-- The Unicode property White_Space, which has twenty-five members. -/
def isWhiteSpace (character : Char) : Bool :=
  let code := character.toNat
  (9 ≤ code && code ≤ 13) || code == 0x20 || code == 0x85 || code == 0xa0 || code == 0x1680
    || (0x2000 ≤ code && code ≤ 0x200a) || code == 0x2028 || code == 0x2029 || code == 0x202f
    || code == 0x205f || code == 0x3000

/-- A name is blank when it is empty or holds only white space. -/
def isBlank (text : String) : Bool :=
  text.toList.all isWhiteSpace

/-- The length of text in bytes, as it is written in UTF-8. Positions in texts are counted in
these units. -/
def byteLength : List Char → Nat
  | [] => 0
  | character :: rest => character.utf8Size + byteLength rest

end Text
end EntityStore
