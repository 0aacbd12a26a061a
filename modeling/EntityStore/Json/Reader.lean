/-
Reading JSON text. A reader consumes characters from the left and stops at the
first fault, which is of one of three classes: the text ended too early, the text
is not JSON, or the text is JSON so far but not of the form asked for.
Arrays and objects may be nested at most 127 deep.
-/

import EntityStore.Json.Basic
import EntityStore.Text

set_option autoImplicit false

namespace EntityStore
namespace Json

inductive Fault where
  | ended
  | malformed
  | unfitting
  deriving DecidableEq, Repr

/-- A reader of a value from the rest of a text. -/
abbrev Reader (α : Type) := StateT (List Char) (Except Fault) α

/-- The deepest nesting of arrays and objects. -/
def nestingLimit : Nat := 127

namespace Reader

def fail {α : Type} (fault : Fault) : Reader α := throw fault

def isSpace (character : Char) : Bool :=
  character == ' ' || character == '\n' || character == '\t' || character == '\r'

/-- Skips blanks and shows the next character without consuming it. -/
def peek : Reader (Option Char) := do
  let rest := (← get).dropWhile isSpace
  set rest
  return rest.head?

def skip : Reader Unit := modify List.tail

/-- The next character, blanks included, consumed. -/
def next? : Reader (Option Char) := do
  match ← get with
  | [] => return none
  | character :: rest =>
      set rest
      return some character

def word : List Char → Reader Unit
  | [] => return ()
  | expected :: rest => do
      match ← next? with
      | none => fail .ended
      | some character =>
          if character = expected then word rest else fail .malformed

/-! ### Strings -/

def hexDigit? (character : Char) : Option Nat :=
  if Text.isDigit character then some (character.toNat - 48)
  else if 'a' ≤ character && character ≤ 'f' then some (character.toNat - 87)
  else if 'A' ≤ character && character ≤ 'F' then some (character.toNat - 55)
  else none

/-- Four hexadecimal digits. With less than four bytes left the text has ended. -/
def hexFour (rest : List Char) : Except Fault (Nat × List Char) :=
  match rest with
  | first :: second :: third :: fourth :: tail =>
      match hexDigit? first, hexDigit? second, hexDigit? third, hexDigit? fourth with
      | some a, some b, some c, some d => .ok (((a * 16 + b) * 16 + c) * 16 + d, tail)
      | _, _, _, _ => .error .malformed
  | _ =>
      if Text.byteLength rest < 4 then .error .ended else .error .malformed

/-- The second half of a character written as a surrogate pair. -/
def lowSurrogate (high : Nat) (rest : List Char) : Except Fault (Char × List Char) :=
  match rest with
  | [] => .error .ended
  | '\\' :: [] => .error .ended
  | '\\' :: 'u' :: tail => do
      let (low, after) ← hexFour tail
      if 0xdc00 ≤ low && low ≤ 0xdfff then
        .ok (Char.ofNat (0x10000 + (high - 0xd800) * 0x400 + (low - 0xdc00)), after)
      else .error .malformed
  | _ => .error .malformed

/-- The character that an escape stands for; `rest` starts after the backslash. -/
def escaped (rest : List Char) : Except Fault (Char × List Char) :=
  match rest with
  | [] => .error .ended
  | '"' :: tail => .ok ('"', tail)
  | '\\' :: tail => .ok ('\\', tail)
  | '/' :: tail => .ok ('/', tail)
  | 'b' :: tail => .ok ('\x08', tail)
  | 'f' :: tail => .ok ('\x0c', tail)
  | 'n' :: tail => .ok ('\n', tail)
  | 'r' :: tail => .ok ('\r', tail)
  | 't' :: tail => .ok ('\t', tail)
  | 'u' :: tail => do
      let (code, after) ← hexFour tail
      if 0xdc00 ≤ code && code ≤ 0xdfff then .error .malformed
      else if 0xd800 ≤ code && code ≤ 0xdbff then lowSurrogate code after
      else .ok (Char.ofNat code, after)
  | _ => .error .malformed

/-- The rest of a string up to its closing quote. The first argument bounds the
number of characters. -/
def stringFrom : Nat → List Char → List Char → Except Fault (String × List Char)
  | 0, _, _ => .error .ended
  | _ + 1, _, [] => .error .ended
  | steps + 1, collected, character :: rest =>
      if character = '"' then .ok (String.ofList collected.reverse, rest)
      else if character = '\\' then
        match escaped rest with
        | .error fault => .error fault
        | .ok (meant, after) => stringFrom steps (meant :: collected) after
      else if character.toNat < 0x20 then .error .malformed
      else stringFrom steps (character :: collected) rest

def string : Reader String := fun rest => stringFrom (rest.length + 1) [] rest

/-! ### Numbers -/

def wordLimit : Nat := 0x10000000000000000

def powerOfTen (exponent : Nat) : Double := Double.ofDecimal false 1 exponent

/-- Scales a rounded significand by rounded powers of ten; a result beyond the
range of doubles is no number. -/
def scaled (negative : Bool) (significand : Nat) (exponent : Int) : Except Fault Double :=
  let start := Double.ofNat significand
  let signed := fun (number : Double) => if negative then number.negate else number
  if 0 ≤ exponent then
    if exponent ≤ 308 then
      let number := start.multiply (powerOfTen exponent.toNat)
      if number.isInfinite then .error .malformed else .ok (signed number)
    else if significand = 0 then .ok (signed start)
    else .error .malformed
  else if exponent.natAbs ≤ 308 then
    .ok (signed (start.divide (powerOfTen exponent.natAbs)))
  else
    let lowered := start.divide (powerOfTen 308)
    let remaining := exponent.natAbs - 308
    if remaining ≤ 308 then .ok (signed (lowered.divide (powerOfTen remaining)))
    else .ok (signed (Double.zero false))

/-- Leading digits as far as they fit a word of sixty-four bits: the number they
form, and what follows them. -/
def wordDigits : Nat → List Char → Nat × List Char
  | significand, [] => (significand, [])
  | significand, character :: rest =>
      if Text.isDigit character then
        let extended := significand * 10 + (character.toNat - 48)
        if extended < wordLimit then wordDigits extended rest
        else (significand, character :: rest)
      else (significand, character :: rest)

def withExponent (negative : Bool) (significand : Nat) (exponent : Int) (rest : List Char) :
    Except Fault (Double × List Char) := do
  let finish (power : Int) (after : List Char) : Except Fault (Double × List Char) := do
    return (← scaled negative significand power, after)
  match rest with
  | [] => finish exponent []
  | marker :: afterMarker =>
      if marker = 'e' || marker = 'E' then
        let (lowers, unsigned) := match afterMarker with
          | '+' :: tail => (false, tail)
          | '-' :: tail => (true, tail)
          | other => (false, other)
        match unsigned with
        | [] => .error .ended
        | first :: _ =>
            if !Text.isDigit first then .error .malformed
            else
              let digits := unsigned.takeWhile Text.isDigit
              let power : Nat := digits.foldl (fun total digit => total * 10 + (digit.toNat - 48)) 0
              let after := unsigned.dropWhile Text.isDigit
              if 0x80000000 ≤ power then
                if significand != 0 && !lowers then .error .malformed
                else .ok (Double.zero negative, after)
              else
                let shift : Int := power
                finish (if lowers then exponent - shift else exponent + shift) after
      else finish exponent (marker :: afterMarker)

def withFraction (negative : Bool) (significand : Nat) (exponent : Int) (rest : List Char) :
    Except Fault (Double × List Char) :=
  match rest with
  | [] => .error .ended
  | first :: _ =>
      let (extended, after) := wordDigits significand rest
      let read : Int := (rest.length : Int) - after.length
      if !Text.isDigit first then .error .malformed
      else withExponent negative extended (exponent - read) (after.dropWhile Text.isDigit)

def numberFrom (negative : Bool) (rest : List Char) : Except Fault (JsonNumber × List Char) := do
  match rest with
  | [] => .error .ended
  | first :: tail =>
      if !Text.isDigit first then .error .malformed
      else if first = '0' && (tail.head?.any Text.isDigit) then .error .malformed
      else
        let (significand, after) := wordDigits 0 rest
        let surplus : Int := (after.takeWhile Text.isDigit).length
        let asFloat (reading : Except Fault (Double × List Char)) :
            Except Fault (JsonNumber × List Char) := do
          let (magnitude, remaining) ← reading
          return (.float magnitude, remaining)
        match after.dropWhile Text.isDigit with
        | '.' :: fraction => asFloat (withFraction negative significand surplus fraction)
        | other =>
            if surplus != 0 || other.head?.any (fun c => c = 'e' || c = 'E') then
              asFloat (withExponent negative significand surplus other)
            else if !negative then .ok (.integer significand, other)
            else if significand = 0 || 0x8000000000000000 < significand then
              .ok (.float (Double.ofNat significand).negate, other)
            else .ok (.integer (-(significand : Int)), other)

def number (negative : Bool) : Reader JsonNumber := fun rest => numberFrom negative rest

/-! ### Arrays and objects -/

/-- Whether another item follows in an array, its comma consumed. -/
def moreItems (first : Bool) : Reader Bool := do
  match ← peek with
  | none => fail .ended
  | some ']' => return false
  | some ',' =>
      if first then return true
      skip
      match ← peek with
      | none => fail .ended
      | some ']' => fail .malformed
      | some _ => return true
  | some _ => if first then return true else fail .malformed

/-- Whether another member follows in an object, its comma and the opening quote
of its name consumed. -/
def moreMembers (first : Bool) : Reader Bool := do
  match ← peek with
  | none => fail .ended
  | some '\x7d' => return false
  | some character =>
      if character = ',' && !first then
        skip
        match ← peek with
        | none => fail .ended
        | some '"' =>
            skip
            return true
        | some _ => fail .malformed
      else if first && character = '"' then
        skip
        return true
      else fail .malformed

def colon : Reader Unit := do
  match ← peek with
  | none => fail .ended
  | some ':' => skip
  | some _ => fail .malformed

def endArray : Reader Unit := do
  match ← peek with
  | none => fail .ended
  | some ']' => skip
  | some _ => fail .malformed

/-- What begins with the next character, when it is not an array or an object. -/
def scalar : Reader Json := do
  match ← peek with
  | none => fail .ended
  | some 'n' => do skip; word ['u', 'l', 'l']; return .null
  | some 't' => do skip; word ['r', 'u', 'e']; return .boolean true
  | some 'f' => do skip; word ['a', 'l', 's', 'e']; return .boolean false
  | some '"' => do skip; return .string (← string)
  | some '-' => do skip; return .number (← number true)
  | some character =>
      if Text.isDigit character then return .number (← number false) else fail .malformed

mutual

/-- Any document, with `depth` levels of nesting left. The first argument bounds
the number of documents read. -/
def document : Nat → Nat → Reader Json
  | 0, _ => fail .malformed
  | steps + 1, depth => do
      match ← peek with
      | some '[' =>
          if depth = 0 then fail .malformed
          skip
          let items ← documentItems steps (depth - 1) true
          endArray
          return .array items
      | some '\x7b' =>
          if depth = 0 then fail .malformed
          skip
          let members ← documentMembers steps (depth - 1) true
          skip
          return .object members
      | _ => scalar

def documentItems : Nat → Nat → Bool → Reader (List Json)
  | 0, _, _ => fail .malformed
  | steps + 1, depth, first => do
      if ← moreItems first then
        let item ← document steps depth
        return item :: (← documentItems steps depth false)
      else return []

def documentMembers : Nat → Nat → Bool → Reader (List (String × Json))
  | 0, _, _ => fail .malformed
  | steps + 1, depth, first => do
      if ← moreMembers first then
        let name ← string
        colon
        let value ← document steps depth
        return (name, value) :: (← documentMembers steps depth false)
      else return []

end

def value (depth : Nat) : Reader Json := do
  document (2 * (← get).length + 2) depth

/-- What is found where something of another form was asked for: a fault inside a
scalar is reported as such. -/
def unfitting {α : Type} : Reader α := do
  match ← peek with
  | some '[' => fail .unfitting
  | some '\x7b' => fail .unfitting
  | _ =>
      let _ ← scalar
      fail .unfitting

/-- A whole text: nothing but blanks may follow. -/
def run {α : Type} (reader : Reader α) (text : String) : Except Fault α := do
  let (result, rest) ← StateT.run reader text.toList
  if rest.all isSpace then .ok result else .error .malformed

end Reader

def read (text : String) : Except Fault Json :=
  (Reader.value nestingLimit).run text

end Json
end EntityStore
