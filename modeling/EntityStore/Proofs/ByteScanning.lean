/-
Scanning bytes. A text is scanned as its bytes, one after the other, and names, numbers and
strings are slices of the text between byte offsets. A slice that cuts a character is no text,
and a scan that takes one gives nothing. No scan does: it always gives what the scan of the
characters gives.
-/

import EntityStore.Proofs.Spellings

set_option autoImplicit false

namespace EntityStore
namespace Token

open Text (byteLength byteIs nextIs bytes slice? IsAscii)

/-! ### Literals -/

def signOf : List Char → Bool × List Char
  | '-' :: digits => (true, digits)
  | digits => (false, digits)

def integerLiteral (literal : List Char) : Except LexicalCause TokenKind :=
  let (negative, digits) := signOf literal
  match integerOf? negative digits with
  | some number => .ok (.integer number)
  | none => .error (.integerOutOfRange (String.ofList literal))

def floatLiteral (literal : List Char) : TokenKind :=
  let (negative, digits) := signOf literal
  let whole := digits.takeWhile Text.isDigit
  let fraction := digits.drop (whole.length + 1)
  .float (Double.ofDecimal negative (digitsValue (whole ++ fraction)) (-fraction.length))

/-! ### The scan -/

/-- The number with these bytes from a position on, and where it stops. A sign stands between
the start and the position. -/
def numberBytes (text : List Char) (start position : Nat) (digits : List UInt8) :
    Option (Except LexicalCause (TokenKind × Nat)) :=
  let point := position + (digits.takeWhile (byteIs Text.isDigit)).length
  let behind := digits.dropWhile (byteIs Text.isDigit)
  if nextIs (· == '.') behind && nextIs Text.isDigit behind.tail then
    let stop := point + 1 + (behind.tail.takeWhile (byteIs Text.isDigit)).length
    (slice? text start stop).map fun literal => .ok (floatLiteral literal, stop)
  else
    (slice? text start point).map fun literal =>
      (integerLiteral literal).map fun kind => (kind, point)

/-- The content of a string and where it stops. What is left of it begins with these bytes at a
position; the text from the chunk to the position still has to be added to the content. -/
def stringBytes (text content : List Char) (chunk position : Nat) :
    List UInt8 → Option (Except LexicalCause (List Char × Nat))
  | [] => some (.error .unterminatedString)
  | byte :: rest =>
      if byteIs (· == '\'') byte then
        if nextIs (· == '\'') rest then
          (slice? text chunk (position + 1)).bind fun piece =>
            stringBytes text (content ++ piece) (position + 2) (position + 2) rest.tail
        else
          (slice? text chunk position).map fun piece => .ok (content ++ piece, position + 1)
      else stringBytes text content chunk (position + 1) rest
  termination_by rest => rest.length
  decreasing_by
    · rw [List.length_tail, List.length_cons]
      omega
    · exact Nat.lt_succ_self _

def namedBytes (text : List Char) (position : Nat) (name : List UInt8) :
    Option (Except LexicalCause (TokenKind × Nat)) :=
  let length := (name.takeWhile (byteIs Text.isWordChar)).length
  if length = 0 || nextIs Text.isDigit name then some (.error .parameterName)
  else
    (slice? text position (position + length)).map fun name =>
      .ok (.named (String.ofList name), position + length)

def wordBytes (text : List Char) (position : Nat) (name : List UInt8) :
    Option (Except LexicalCause (TokenKind × Nat)) :=
  let stop := position + (name.takeWhile (byteIs Text.isWordChar)).length
  (slice? text position stop).map fun name => .ok (.word (String.ofList name), stop)

def exclamationBytes (position : Nat) (tail : List UInt8) :
    Except LexicalCause (TokenKind × Nat) :=
  if nextIs (· == '=') tail then .ok (.unequal, position + 2) else .error .exclamationAlone

def lessBytes (position : Nat) (tail : List UInt8) : TokenKind × Nat :=
  if nextIs (· == '=') tail then (.atMost, position + 2)
  else if nextIs (· == '>') tail then (.unequal, position + 2)
  else (.less, position + 1)

def greaterBytes (position : Nat) (tail : List UInt8) : TokenKind × Nat :=
  if nextIs (· == '=') tail then (.atLeast, position + 2) else (.greater, position + 1)

def lexemeBytes (text : List Char) (position : Nat) (first : UInt8) (tail : List UInt8) :
    Option (Except LexicalCause (TokenKind × Nat)) :=
  let character := Char.ofUInt8 first
  match symbol? character with
  | some kind => some (.ok (kind, position + 1))
  | none =>
      if character = '!' then some (exclamationBytes position tail)
      else if character = '<' then some (.ok (lessBytes position tail))
      else if character = '>' then some (.ok (greaterBytes position tail))
      else if character = ':' then namedBytes text (position + 1) tail
      else if character = '\'' then
        (stringBytes text [] (position + 1) (position + 1) tail).map fun scanned =>
          scanned.map fun (content, stop) => (.string (String.ofList content), stop)
      else if character = '-' ∧ nextIs Text.isDigit tail then
        numberBytes text position (position + 1) tail
      else if Text.isDigit character then numberBytes text position position (first :: tail)
      else if Text.isWordChar character then wordBytes text position (first :: tail)
      else
        (slice? text position (byteLength text)).map fun rest =>
          .error (.unexpectedCharacter (rest.headD '?'))

def scanBytes (text : List Char) (position : Nat) (rest : List UInt8) :
    Option (Except Fault (List Token)) :=
  match rest with
  | [] => some (.ok [⟨.finish, byteLength text⟩])
  | first :: tail =>
      if byteIs isBlank first then scanBytes text (position + 1) tail
      else
        match lexemeBytes text position first tail with
        | none => none
        | some (.error cause) => some (.error ⟨position, cause⟩)
        | some (.ok (kind, stop)) =>
            (scanBytes text stop (tail.drop (stop - (position + 1)))).map fun scanned =>
              scanned.map (⟨kind, position⟩ :: ·)
  termination_by rest.length
  decreasing_by
    · exact Nat.lt_succ_self _
    · rw [List.length_drop, List.length_cons]
      omega

/-! ### Kinds of characters -/

private theorem isAscii_eq {mark : Char} (narrow : mark.toNat < 128) : IsAscii (· == mark) := by
  intro character same
  rwa [eq_of_beq same]

private theorem isAscii_isDigit : IsAscii Text.isDigit := by
  intro character isDigit
  simp only [Text.isDigit, Char.le_def, UInt32.le_iff_toNat_le, Bool.and_eq_true,
    decide_eq_true_eq] at isDigit
  exact Nat.lt_of_le_of_lt isDigit.2 (by decide)

private theorem isAscii_isWordChar : IsAscii Text.isWordChar := by
  intro character isWordChar
  simp only [Text.isWordChar, Text.isLetter, Char.le_def, UInt32.le_iff_toNat_le,
    Bool.or_eq_true, Bool.and_eq_true, decide_eq_true_eq] at isWordChar
  obtain ((⟨_, below⟩ | ⟨_, below⟩) | isDigit) | isUnderscore := isWordChar
  · exact Nat.lt_of_le_of_lt below (by decide)
  · exact Nat.lt_of_le_of_lt below (by decide)
  · exact isAscii_isDigit character isDigit
  · exact isAscii_eq (by decide) character isUnderscore

private theorem isAscii_isBlank : IsAscii isBlank := by
  intro character blank
  simp only [isBlank, Bool.or_eq_true, beq_iff_eq] at blank
  obtain (((rfl | rfl) | rfl) | rfl) | rfl := blank <;> decide

/-! ### Numbers -/

def stopsIn (text : List Char) (taken : Except LexicalCause (TokenKind × List Char)) :
    Except LexicalCause (TokenKind × Nat) :=
  taken.map fun (kind, rest) => (kind, byteLength text - byteLength rest)

private theorem stopsIn_ok (done inner rest : List Char) (kind : TokenKind) :
    stopsIn (done ++ (inner ++ rest)) (.ok (kind, rest))
      = .ok (kind, byteLength done + byteLength inner) := by
  have stop : byteLength (done ++ (inner ++ rest)) - byteLength rest
      = byteLength done + byteLength inner := by
    rw [Text.byteLength_append, Text.byteLength_append]
    omega
  simp only [stopsIn, Except.map, stop]

private theorem bytes_cons_of_narrow {first : Char} (narrow : first.toNat < 128)
    (rest : List Char) : bytes (first :: rest) = first.toUInt8 :: bytes rest := by
  rw [Text.bytes_cons, (Text.utf8EncodeChar_narrow narrow).1, List.singleton_append]

private theorem byteLength_cons_of_narrow {first : Char} (narrow : first.toNat < 128)
    (rest : List Char) : byteLength (first :: rest) = byteLength rest + 1 := by
  rw [← Text.length_bytes, bytes_cons_of_narrow narrow, List.length_cons, Text.length_bytes]

private theorem byteLength_signed (negative : Bool) (digits : List Char) :
    byteLength (signed negative digits) = negative.toNat + byteLength digits := by
  cases negative with
  | true => exact (byteLength_cons_of_narrow (by decide) digits).trans (Nat.add_comm _ _)
  | false => exact (Nat.zero_add _).symm

private theorem signed_append (negative : Bool) (digits rest : List Char) :
    signed negative (digits ++ rest) = signed negative digits ++ rest := by
  cases negative <;> rfl

private theorem signOf_signed (negative : Bool) {first : Char} (isDigit : Text.isDigit first = true)
    (more : List Char) : signOf (signed negative (first :: more)) = (negative, first :: more) := by
  cases negative with
  | true => rfl
  | false =>
      simp only [signed, Bool.false_eq_true, ↓reduceIte]
      unfold signOf
      split
      · rename_i same
        cases same
        cases isDigit
      · rfl

private theorem nextIs_point (rest : List Char) :
    (nextIs (· == '.') (bytes rest) && nextIs Text.isDigit (bytes rest).tail)
      = (fraction? rest).isSome := by
  rw [Text.nextIs_bytes (isAscii_eq (by decide))]
  cases rest with
  | nil => rfl
  | cons point more =>
      cases isPoint : point == '.' with
      | false =>
          have other : fraction? (point :: more) = none := by
            unfold fraction?
            split
            · rename_i same
              cases same
              cases isPoint
            · rfl
          simp [isPoint, other]
      | true =>
          obtain rfl := eq_of_beq isPoint
          rw [bytes_cons_of_narrow (by decide), List.tail_cons,
            Text.nextIs_bytes isAscii_isDigit]
          cases more with
          | nil => rfl
          | cons digit more =>
              simp only [fraction?, List.head?_cons, Option.any_some, beq_self_eq_true,
                Bool.true_and]
              cases Text.isDigit digit <;> rfl

private theorem floatLiteral_signed (negative : Bool) {whole fraction : List Char}
    (areDigits : AreDigits whole) :
    floatLiteral (signed negative (whole ++ '.' :: fraction))
      = .float (Double.ofDecimal negative (digitsValue (whole ++ fraction))
        (-fraction.length)) := by
  obtain ⟨first, more, rfl⟩ := List.exists_cons_of_ne_nil areDigits.1
  obtain ⟨taken, _⟩ := takeWhile_dropWhile_iff.mpr
    ⟨@rfl _ (first :: more ++ '.' :: fraction), areDigits.2, rfl⟩
  have sign := signOf_signed negative (areDigits.2 first List.mem_cons_self)
    (more ++ '.' :: fraction)
  rw [← List.cons_append] at sign
  simp only [floatLiteral, sign, taken, List.drop_length_add_append, List.drop_one, List.tail_cons]

private theorem integerLiteral_signed (negative : Bool) {whole : List Char}
    (areDigits : AreDigits whole) :
    integerLiteral (signed negative whole)
      = match integerOf? negative whole with
        | some number => .ok (.integer number)
        | none => .error (.integerOutOfRange (String.ofList (signed negative whole))) := by
  obtain ⟨first, more, rfl⟩ := List.exists_cons_of_ne_nil areDigits.1
  rw [integerLiteral, signOf_signed negative (areDigits.2 first List.mem_cons_self)]

section Number

variable (done : List Char) (negative : Bool) {whole : List Char} (areDigits : AreDigits whole)
include areDigits

private theorem numberBytes_float {fraction after : List Char} (areFraction : AreDigits fraction)
    (ends : after.head?.any Text.isDigit = false) :
    numberBytes (done ++ signed negative (whole ++ '.' :: (fraction ++ after))) (byteLength done)
        (byteLength done + negative.toNat) (bytes (whole ++ '.' :: (fraction ++ after)))
      = some (stopsIn (done ++ signed negative (whole ++ '.' :: (fraction ++ after)))
          (.ok (.float (Double.ofDecimal negative (digitsValue (whole ++ fraction))
            (-fraction.length)), after))) := by
  obtain ⟨taken, left⟩ := takeWhile_dropWhile_iff.mpr
    ⟨@rfl _ (whole ++ '.' :: (fraction ++ after)), areDigits.2, rfl⟩
  have takenFraction := (takeWhile_dropWhile_iff.mpr ⟨rfl, areFraction.2, ends⟩).1
  have fractional : fraction? ('.' :: (fraction ++ after)) = some (fraction, after) :=
    fraction?_eq_some_iff.mpr ⟨rfl, areFraction, ends⟩
  have behind : (bytes ('.' :: (fraction ++ after))).tail = bytes (fraction ++ after) := by
    rw [bytes_cons_of_narrow (by decide), List.tail_cons]
  have length : byteLength done + negative.toNat + byteLength whole + 1 + byteLength fraction
      = byteLength done + byteLength (signed negative (whole ++ '.' :: fraction)) := by
    rw [byteLength_signed, Text.byteLength_append, byteLength_cons_of_narrow (by decide)]
    omega
  have text : signed negative (whole ++ '.' :: (fraction ++ after))
      = signed negative (whole ++ '.' :: fraction) ++ after := by
    rw [← signed_append, List.append_assoc, List.cons_append]
  have spanWhole := Text.span_bytes isAscii_isDigit (whole ++ '.' :: (fraction ++ after))
  have spanFraction := Text.span_bytes isAscii_isDigit (fraction ++ after)
  simp only [numberBytes, spanWhole, taken, left, nextIs_point, fractional, Option.isSome_some,
    ↓reduceIte]
  simp only [behind, spanFraction, takenFraction, Text.length_bytes, length, text,
    Text.slice?_append, floatLiteral_signed negative areDigits, stopsIn_ok, Option.map_some]

private theorem numberBytes_integer {rest : List Char} (stops : rest.head?.any Text.isDigit = false)
    (noFraction : fraction? rest = none) :
    numberBytes (done ++ signed negative (whole ++ rest)) (byteLength done)
        (byteLength done + negative.toNat) (bytes (whole ++ rest))
      = some (stopsIn (done ++ signed negative (whole ++ rest))
          ((integerLiteral (signed negative whole)).map fun kind => (kind, rest))) := by
  obtain ⟨taken, left⟩ := takeWhile_dropWhile_iff.mpr
    ⟨@rfl _ (whole ++ rest), areDigits.2, stops⟩
  have length : byteLength done + negative.toNat + byteLength whole
      = byteLength done + byteLength (signed negative whole) := by
    rw [byteLength_signed, Nat.add_assoc]
  have span := Text.span_bytes isAscii_isDigit (whole ++ rest)
  simp only [numberBytes, span, taken, left, nextIs_point, noFraction, Option.isSome_none,
    Bool.false_eq_true, ↓reduceIte, Text.length_bytes, length, signed_append, Text.slice?_append,
    Option.map_some]
  cases integerLiteral (signed negative whole) with
  | error cause => rfl
  | ok kind => simp only [Except.map, stopsIn_ok]

end Number

private theorem numberBytes_eq (done : List Char) (negative : Bool) {first : Char}
    (isDigit : Text.isDigit first = true) (tail : List Char) :
    numberBytes (done ++ signed negative (first :: tail)) (byteLength done)
        (byteLength done + negative.toNat) (bytes (first :: tail))
      = some (stopsIn (done ++ signed negative (first :: tail)) (number negative first tail)) := by
  obtain ⟨same, inside, stops⟩ := takeWhile_dropWhile_iff.mp
    ⟨@rfl _ (tail.takeWhile Text.isDigit), @rfl _ (tail.dropWhile Text.isDigit)⟩
  unfold number
  dsimp only
  generalize tail.takeWhile Text.isDigit = more at *
  generalize tail.dropWhile Text.isDigit = rest at *
  subst same
  have areDigits : AreDigits (first :: more) :=
    ⟨List.cons_ne_nil _ _, List.forall_mem_cons.mpr ⟨isDigit, inside⟩⟩
  rw [← List.cons_append]
  cases fractional : fraction? rest with
  | some found =>
      obtain ⟨rfl, areFraction, ends⟩ := fraction?_eq_some_iff.mp fractional
      exact numberBytes_float done negative areDigits areFraction ends
  | none =>
      rw [numberBytes_integer done negative areDigits stops fractional,
        integerLiteral_signed negative areDigits]
      cases integerOf? negative (first :: more) <;> rfl

/-! ### Words and names -/

private theorem wordBytes_eq (done : List Char) {first : Char}
    (isWordChar : Text.isWordChar first = true) (tail : List Char) :
    wordBytes (done ++ first :: tail) (byteLength done) (bytes (first :: tail))
      = some (stopsIn (done ++ first :: tail) (.ok (wordLexeme first tail))) := by
  have taken := (Text.span_bytes isAscii_isWordChar (first :: tail)).1
  rw [List.takeWhile_cons_of_pos isWordChar] at taken
  have same := @List.takeWhile_append_dropWhile _ Text.isWordChar tail
  unfold wordBytes wordLexeme
  simp only [taken, Text.length_bytes]
  generalize tail.takeWhile Text.isWordChar = name at *
  generalize tail.dropWhile Text.isWordChar = rest at *
  subst same
  simp only [← List.cons_append, Text.slice?_append, stopsIn_ok,
    Option.map_some]

private theorem namedBytes_eq (done tail : List Char) :
    namedBytes (done ++ tail) (byteLength done) (bytes tail)
      = some (stopsIn (done ++ tail) (namedLexeme tail)) := by
  have same := @List.takeWhile_append_dropWhile _ Text.isWordChar tail
  unfold namedBytes namedLexeme
  simp only [(Text.span_bytes isAscii_isWordChar tail).1, Text.length_bytes,
    Text.nextIs_bytes isAscii_isDigit]
  generalize tail.takeWhile Text.isWordChar = name at *
  generalize tail.dropWhile Text.isWordChar = rest at *
  subst same
  cases name with
  | nil => rfl
  | cons initial name =>
      have nonempty : byteLength (initial :: name) ≠ 0 :=
        fun zero => List.cons_ne_nil _ _ (Text.byteLength_eq_zero_iff.mp zero)
      simp only [nonempty, decide_false, Bool.false_or, List.cons_append, List.head?_cons,
        Option.any_some]
      cases Text.isDigit initial with
      | true => rfl
      | false =>
          simp only [← List.cons_append, Text.slice?_append, stopsIn_ok,
            Option.map_some, Bool.false_eq_true, ↓reduceIte]

/-! ### Strings -/

private theorem stringBytes_inside (text content : List Char) (chunk position : Nat)
    {character : Char} (other : character ≠ '\'') (after : List Char) :
    stringBytes text content chunk position (bytes (character :: after))
      = stringBytes text content chunk (position + character.utf8Size) (bytes after) := by
  have isOther : (character == '\'') = false := by simp [other]
  have noQuote : ∀ byte ∈ String.utf8EncodeChar character, byteIs (· == '\'') byte = false :=
    fun byte member => (Text.byteIs_of_mem (isAscii_eq (by decide)) member).trans isOther
  rw [Text.bytes_cons, ← String.length_utf8EncodeChar]
  generalize String.utf8EncodeChar character = encoded at noQuote
  induction encoded generalizing position with
  | nil => rfl
  | cons byte encoded ih =>
      obtain ⟨notQuote, others⟩ := List.forall_mem_cons.mp noQuote
      rw [List.cons_append, stringBytes, if_neg (by simp [notQuote]), ih _ others,
        List.length_cons, Nat.add_assoc, Nat.add_comm 1]

section Quote

variable {text done pending after : List Char} {chunk position : Nat}
  (atChunk : byteLength done = chunk) (atPosition : chunk + byteLength pending = position)
include atChunk atPosition

/-- Behind a doubled quote, a chunk that ends with one of the two has been added. -/
theorem stringBytes_doubled (same : text = done ++ (pending ++ '\'' :: '\'' :: after))
    (content : List Char) :
    stringBytes text content chunk position (bytes ('\'' :: '\'' :: after))
      = stringBytes text (content ++ (pending ++ ['\''])) (position + 2) (position + 2)
        (bytes after) := by
  have isQuote : byteIs (· == '\'') '\''.toUInt8 = true := by decide
  have one : byteLength ['\''] = 1 := rfl
  have piece := Text.slice?_append done (pending ++ ['\'']) ('\'' :: after)
  rw [Text.byteLength_append, one, ← Nat.add_assoc, atChunk, atPosition, List.append_assoc,
    List.singleton_append, ← same] at piece
  have next : nextIs (· == '\'') ('\''.toUInt8 :: bytes after) = true := isQuote
  rw [bytes_cons_of_narrow (by decide), stringBytes, if_pos isQuote,
    bytes_cons_of_narrow (by decide), if_pos next, piece]
  rfl

private theorem doubled_done (same : text = done ++ (pending ++ '\'' :: '\'' :: after)) :
    ∃ front, text = front ++ ([] ++ after) ∧ byteLength front = position + 2 := by
  refine ⟨done ++ (pending ++ ['\'', '\'']), by simp [same], ?_⟩
  have two : byteLength ['\'', '\''] = 2 := rfl
  rw [Text.byteLength_append, Text.byteLength_append, atChunk, two, ← atPosition, Nat.add_assoc]

private theorem stringBytes_closed (same : text = done ++ (pending ++ '\'' :: after))
    (single : after.head? ≠ some '\'') (content : List Char) :
    stringBytes text content chunk position (bytes ('\'' :: after))
      = some (.ok (content ++ pending, position + 1)) := by
  have isQuote : byteIs (· == '\'') '\''.toUInt8 = true := by decide
  have notDoubled : nextIs (· == '\'') (bytes after) = false := by
    rw [Text.nextIs_bytes (isAscii_eq (by decide))]
    cases after with
    | nil => rfl
    | cons next after => simpa using single
  have piece := Text.slice?_append done pending ('\'' :: after)
  rw [atChunk, atPosition, ← same] at piece
  rw [bytes_cons_of_narrow (by decide), stringBytes, if_pos isQuote, if_neg (by simp [notDoubled]),
    piece]
  rfl

end Quote

private theorem pending_more {text done pending after : List Char} {character : Char}
    {chunk position : Nat} (same : text = done ++ (pending ++ character :: after))
    (atPosition : chunk + byteLength pending = position) :
    text = done ++ (pending ++ [character] ++ after) ∧
      chunk + byteLength (pending ++ [character]) = position + character.utf8Size := by
  have one : byteLength [character] = character.utf8Size := rfl
  refine ⟨by simp [same], ?_⟩
  rw [Text.byteLength_append, one, ← Nat.add_assoc, atPosition]

def stringStopsIn (text content : List Char) (taken : Option (List Char × List Char)) :
    Except LexicalCause (List Char × Nat) :=
  match taken with
  | none => .error .unterminatedString
  | some (inner, rest) => .ok (content ++ inner, byteLength text - byteLength rest)

-- The text is what is done up to the chunk, what is pending from there to the position, and what
-- is left; a character is pending until a quote ends the chunk.
private theorem stringBytes_eq {text done pending left : List Char} {chunk position : Nat}
    (same : text = done ++ (pending ++ left)) (atChunk : byteLength done = chunk)
    (atPosition : chunk + byteLength pending = position) (content : List Char) :
    stringBytes text content chunk position (bytes left)
      = some (stringStopsIn text (content ++ pending) (stringBody left)) := by
  fun_induction stringBody left generalizing done pending content chunk position with
  | case1 =>
      rw [show bytes [] = [] from rfl, stringBytes]
      rfl
  | case2 after missing ih =>
      obtain ⟨front, sameFront, length⟩ := doubled_done atChunk atPosition same
      rw [stringBytes_doubled atChunk atPosition same,
        ih sameFront length (@rfl _ (position + 2)), missing]
      rfl
  | case3 after inner rest matched ih =>
      obtain ⟨front, sameFront, length⟩ := doubled_done atChunk atPosition same
      rw [stringBytes_doubled atChunk atPosition same,
        ih sameFront length (@rfl _ (position + 2)), matched]
      simp [stringStopsIn]
  | case4 after notDoubled =>
      have single : after.head? ≠ some '\'' := by
        intro isQuote
        obtain ⟨more, rfl⟩ := List.head?_eq_some_iff.mp isQuote
        exact notDoubled more rfl rfl
      have stop : byteLength text - byteLength after = position + 1 := by
        rw [same, Text.byteLength_append, Text.byteLength_append, atChunk,
          byteLength_cons_of_narrow (by decide)]
        omega
      rw [stringBytes_closed atChunk atPosition same single, stringStopsIn, stop, List.append_nil]
  | case5 character after notDoubled notQuote missing ih =>
      obtain ⟨sameMore, atMore⟩ := pending_more same atPosition
      rw [stringBytes_inside _ _ _ _ notQuote, ih sameMore atChunk atMore, missing]
      rfl
  | case6 character after notDoubled notQuote inner rest matched ih =>
      obtain ⟨sameMore, atMore⟩ := pending_more same atPosition
      rw [stringBytes_inside _ _ _ _ notQuote, ih sameMore atChunk atMore, matched]
      simp [stringStopsIn]

/-! ### Tokens -/

section Lexeme

variable (done : List Char)

private theorem stopsIn_one {first : Char} (narrow : first.toNat < 128) (rest : List Char)
    (kind : TokenKind) :
    stopsIn (done ++ first :: rest) (.ok (kind, rest)) = .ok (kind, byteLength done + 1) := by
  have one : byteLength [first] = 1 := byteLength_cons_of_narrow narrow []
  exact (stopsIn_ok done [first] rest kind).trans (by rw [one])

private theorem stopsIn_two {first second : Char} (narrow : first.toNat < 128)
    (narrowToo : second.toNat < 128) (rest : List Char) (kind : TokenKind) :
    stopsIn (done ++ first :: second :: rest) (.ok (kind, rest))
      = .ok (kind, byteLength done + 2) := by
  have two : byteLength [first, second] = 2 := by
    rw [byteLength_cons_of_narrow narrow, byteLength_cons_of_narrow narrowToo]
    rfl
  exact (stopsIn_ok done [first, second] rest kind).trans (by rw [two])

private theorem nextIs_mark {mark : Char} (narrow : mark.toNat < 128) (rest : List Char) :
    nextIs (· == mark) (bytes (mark :: rest)) = true := by
  rw [Text.nextIs_bytes (isAscii_eq narrow)]
  exact beq_self_eq_true mark

private theorem nextIs_other {mark : Char} (narrow : mark.toNat < 128) {text : List Char}
    (other : ∀ rest, text = mark :: rest → False) : nextIs (· == mark) (bytes text) = false := by
  rw [Text.nextIs_bytes (isAscii_eq narrow)]
  cases text with
  | nil => rfl
  | cons next rest => exact beq_false_of_ne fun same => other rest (by rw [same])

private theorem exclamationBytes_eq (tail : List Char) :
    exclamationBytes (byteLength done) (bytes tail)
      = stopsIn (done ++ '!' :: tail) (exclamationLexeme tail) := by
  unfold exclamationBytes
  fun_cases exclamationLexeme tail with
  | case1 rest =>
      rw [nextIs_mark (by decide), if_pos rfl,
        stopsIn_two done (by decide) (by decide)]
  | case2 tail other =>
      rw [nextIs_other (by decide) other]
      rfl

private theorem lessBytes_eq (tail : List Char) :
    .ok (lessBytes (byteLength done) (bytes tail))
      = stopsIn (done ++ '<' :: tail) (.ok (lessLexeme tail)) := by
  unfold lessBytes
  fun_cases lessLexeme tail with
  | case1 rest =>
      rw [nextIs_mark (by decide), if_pos rfl,
        stopsIn_two done (by decide) (by decide)]
  | case2 rest =>
      have other : nextIs (· == '=') (bytes ('>' :: rest)) = false := by
        rw [bytes_cons_of_narrow (by decide)]
        rfl
      rw [other, nextIs_mark (by decide), if_neg (by decide), if_pos rfl,
        stopsIn_two done (by decide) (by decide)]
  | case3 tail notEqual notGreater =>
      rw [nextIs_other (by decide) notEqual, nextIs_other (by decide) notGreater,
        if_neg (by decide), if_neg (by decide), stopsIn_one done (by decide)]

private theorem greaterBytes_eq (tail : List Char) :
    .ok (greaterBytes (byteLength done) (bytes tail))
      = stopsIn (done ++ '>' :: tail) (.ok (greaterLexeme tail)) := by
  unfold greaterBytes
  fun_cases greaterLexeme tail with
  | case1 rest =>
      rw [nextIs_mark (by decide), if_pos rfl,
        stopsIn_two done (by decide) (by decide)]
  | case2 tail other =>
      rw [nextIs_other (by decide) other, if_neg (by decide), stopsIn_one done (by decide)]

private theorem namedBytes_mark (tail : List Char) :
    namedBytes (done ++ ':' :: tail) (byteLength done + 1) (bytes tail)
      = some (stopsIn (done ++ ':' :: tail) (namedLexeme tail)) := by
  have length : byteLength (done ++ [':']) = byteLength done + 1 := Text.byteLength_append _ _
  rw [← length, List.append_cons]
  exact namedBytes_eq _ tail

private theorem stringBytes_mark (tail : List Char) :
    ((stringBytes (done ++ '\'' :: tail) [] (byteLength done + 1) (byteLength done + 1)
        (bytes tail)).map fun scanned =>
          scanned.map fun (content, stop) => (TokenKind.string (String.ofList content), stop))
      = some (stopsIn (done ++ '\'' :: tail) (stringLexeme tail)) := by
  have same : done ++ '\'' :: tail = done ++ ['\''] ++ ([] ++ tail) := by simp
  have length : byteLength (done ++ ['\'']) = byteLength done + 1 := Text.byteLength_append _ _
  rw [stringBytes_eq same length (@rfl _ (byteLength done + 1)), stringLexeme]
  cases stringBody tail with
  | none => rfl
  | some taken => rfl

private theorem lexemeBytes_minus (tail : List Char) :
    lexemeBytes (done ++ '-' :: tail) (byteLength done) '-'.toUInt8 (bytes tail)
      = some (stopsIn (done ++ '-' :: tail) (negativeLexeme tail)) := by
  have isMinus : Char.ofUInt8 '-'.toUInt8 = '-' := rfl
  have noSymbol : symbol? '-' = none := rfl
  have noDigit : Text.isDigit '-' = false := rfl
  have noWordChar : Text.isWordChar '-' = false := rfl
  simp only [lexemeBytes, isMinus, noSymbol, noDigit, noWordChar, Text.slice?_rest,
    Text.nextIs_bytes isAscii_isDigit]
  fun_cases negativeLexeme tail with
  | case1 => rfl
  | case2 digit after isDigit =>
      simp only [List.head?_cons, Option.any_some, isDigit, and_self, Char.reduceEq, ↓reduceIte]
      exact numberBytes_eq done true isDigit after
  | case3 digit after notDigit =>
      simp only [List.head?_cons, Option.any_some, notDigit, and_false, Char.reduceEq,
        Bool.false_eq_true, ↓reduceIte, Option.map_some, List.headD_cons]
      rfl

private theorem lexemeBytes_narrow {first : Char} (narrow : first.toNat < 128) (tail : List Char) :
    lexemeBytes (done ++ first :: tail) (byteLength done) first.toUInt8 (bytes tail)
      = some (stopsIn (done ++ first :: tail) (lexeme first tail)) := by
  -- A sign is looked at together with the digit behind it, so this case is apart.
  by_cases isMinus : first = '-'
  · subst isMinus
    exact lexemeBytes_minus done tail
  unfold lexemeBytes lexeme
  simp only [(Text.utf8EncodeChar_narrow narrow).2, Text.slice?_rest, isMinus, false_and,
    ↓reduceIte]
  cases symbol? first with
  | some kind => rw [stopsIn_one done narrow]
  | none =>
      dsimp only
      split
      · rename_i isExclamation
        rw [isExclamation, exclamationBytes_eq]
      split
      · rename_i isLess
        rw [isLess, lessBytes_eq]
      split
      · rename_i isGreater
        rw [isGreater, greaterBytes_eq]
      split
      · rename_i isColon
        rw [isColon, namedBytes_mark]
      split
      · rename_i isQuote
        rw [isQuote, stringBytes_mark]
      split
      · rename_i isDigit
        have unsigned := numberBytes_eq done false isDigit tail
        rw [bytes_cons_of_narrow narrow] at unsigned
        exact unsigned
      split
      · rename_i isWordChar
        have word := wordBytes_eq done isWordChar tail
        rwa [bytes_cons_of_narrow narrow] at word
      · rfl

end Lexeme

private theorem plain_of_wide {character : Char} (wide : 128 ≤ character.toNat) :
    symbol? character = none ∧ character ≠ '!' ∧ character ≠ '<' ∧ character ≠ '>' ∧
      character ≠ ':' ∧ character ≠ '\'' ∧ character ≠ '-' ∧
      Text.isDigit character = false ∧ Text.isWordChar character = false := by
  have apart {other : Char} (narrow : other.toNat < 128) : character ≠ other := by
    rintro rfl
    omega
  have noSymbol : symbol? character = none := by
    unfold symbol?
    split
    case h_7 => rfl
    all_goals exact absurd wide (by decide)
  have noDigit : Text.isDigit character = false :=
    Bool.eq_false_iff.mpr fun isDigit => Nat.not_lt_of_le wide (isAscii_isDigit _ isDigit)
  have noWordChar : Text.isWordChar character = false :=
    Bool.eq_false_iff.mpr fun isWordChar => Nat.not_lt_of_le wide (isAscii_isWordChar _ isWordChar)
  exact ⟨noSymbol, apart (by decide), apart (by decide), apart (by decide), apart (by decide),
    apart (by decide), apart (by decide), noDigit, noWordChar⟩

private theorem lexeme_wide {first : Char} (wide : 128 ≤ first.toNat) (tail : List Char) :
    lexeme first tail = .error (.unexpectedCharacter first) := by
  simp [lexeme, plain_of_wide wide]

private theorem lexemeBytes_wide (done tail : List Char) {first : Char} {byte : UInt8}
    (wide : 128 ≤ byte.toNat) (more : List UInt8) :
    lexemeBytes (done ++ first :: tail) (byteLength done) byte more
      = some (.error (.unexpectedCharacter first)) := by
  have wideByte : 128 ≤ (Char.ofUInt8 byte).toNat := wide
  simp [lexemeBytes, plain_of_wide wideByte, Text.slice?_rest]

private theorem lexemeBytes_eq (done tail : List Char) {first : Char} {byte : UInt8}
    {more : List UInt8} (encoded : bytes (first :: tail) = byte :: more) :
    lexemeBytes (done ++ first :: tail) (byteLength done) byte more
      = some (stopsIn (done ++ first :: tail) (lexeme first tail)) := by
  rcases Nat.lt_or_ge first.toNat 128 with narrow | wide
  · rw [bytes_cons_of_narrow narrow] at encoded
    obtain ⟨rfl, rfl⟩ := List.cons.inj encoded
    exact lexemeBytes_narrow done narrow tail
  · obtain ⟨head, inner, single⟩ := List.exists_cons_of_ne_nil (@String.utf8EncodeChar_ne_nil first)
    rw [Text.bytes_cons, single, List.cons_append] at encoded
    obtain ⟨rfl, rfl⟩ := List.cons.inj encoded
    have wideByte := Text.utf8EncodeChar_wide wide (single ▸ List.mem_cons_self)
    rw [lexemeBytes_wide done tail wideByte, lexeme_wide wide]
    rfl

private theorem narrow_of_lexeme {first : Char} {tail : List Char} {taken : TokenKind × List Char}
    (found : lexeme first tail = .ok taken) : first.toNat < 128 := by
  by_contra wide
  rw [lexeme_wide (Nat.le_of_not_lt wide)] at found
  cases found

/-! ### Texts -/

section Scan

variable {first : Char} {tail : List Char}

private theorem scanBytes_blank (blank : isBlank first = true) (text : List Char) (position : Nat) :
    scanBytes text position (bytes (first :: tail))
      = scanBytes text (position + 1) (bytes tail) := by
  have narrow := isAscii_isBlank first blank
  have blankByte : byteIs isBlank first.toUInt8 = true := by
    rw [byteIs, (Text.utf8EncodeChar_narrow narrow).2, blank]
  rw [bytes_cons_of_narrow narrow, scanBytes, if_pos blankByte]

private theorem scanBytes_lexeme (notBlank : isBlank first = false) (done : List Char)
    {byte : UInt8} {more : List UInt8} (encoded : bytes (first :: tail) = byte :: more) :
    scanBytes (done ++ first :: tail) (byteLength done) (byte :: more)
      = match stopsIn (done ++ first :: tail) (lexeme first tail) with
        | .error cause => some (.error ⟨byteLength done, cause⟩)
        | .ok (kind, stop) =>
            (scanBytes (done ++ first :: tail) stop
              (more.drop (stop - (byteLength done + 1)))).map fun scanned =>
                scanned.map (⟨kind, byteLength done⟩ :: ·) := by
  have plainByte := Text.nextIs_bytes isAscii_isBlank (first :: tail)
  rw [encoded, List.head?_cons, Option.any_some, notBlank] at plainByte
  have notBlankByte : ¬ byteIs isBlank byte = true := Bool.eq_false_iff.mp plainByte
  rw [scanBytes, if_neg notBlankByte, lexemeBytes_eq done tail encoded]
  cases stopsIn (done ++ first :: tail) (lexeme first tail) <;> rfl

end Scan

private theorem drop_bytes {first : Char} (narrow : first.toNat < 128) (position : Nat)
    (eaten rest : List Char) :
    (bytes (eaten ++ rest)).drop (position + byteLength (first :: eaten) - (position + 1))
      = bytes rest := by
  have length : position + byteLength (first :: eaten) - (position + 1) = (bytes eaten).length := by
    rw [byteLength_cons_of_narrow narrow, Text.length_bytes]
    omega
  rw [length, Text.bytes_append, List.drop_left]

/-- From each place between characters, the bytes that are left give what the characters that
are left give. -/
theorem scanBytes_eq (done left : List Char) :
    scanBytes (done ++ left) (byteLength done) (bytes left)
      = some (scan (byteLength done) left) := by
  induction left using text_induction generalizing done with
  | nil => rw [List.append_nil, show bytes [] = [] from rfl, scanBytes, scan]
  | blank first tail blank ih =>
      have one : byteLength [first] = 1 :=
        byteLength_cons_of_narrow (isAscii_isBlank first blank) []
      have size : first.utf8Size = 1 := one
      have later := ih (done ++ [first])
      rw [Text.byteLength_append, one, ← List.append_cons] at later
      rw [scanBytes_blank blank, later, scan, if_pos blank, size]
  | fault first tail cause notBlank found =>
      obtain ⟨byte, more, encoded⟩ := Text.exists_byte first tail
      rw [encoded, scanBytes_lexeme notBlank done encoded, found, scan_fault notBlank found]
      rfl
  | token kind eaten rest spelling ends ih =>
      have later := ih (done ++ eaten)
      have stops := stopsIn_ok done eaten rest kind
      have begins := begins_spelling spelling ends
      rw [Text.byteLength_append, List.append_assoc] at later
      rw [scan_begins begins]
      obtain ⟨first, more, rfl, notBlank, found⟩ := begins
      have narrow := narrow_of_lexeme found
      rw [List.cons_append] at later stops ⊢
      rw [bytes_cons_of_narrow narrow,
        scanBytes_lexeme notBlank done (bytes_cons_of_narrow narrow _), found, stops]
      simp only [drop_bytes narrow, later, Option.map_some]

/-- The scan of the bytes of a text cuts no character, and gives the tokens of the text. -/
theorem scanBytes_text (text : String) :
    scanBytes text.toList 0 (bytes text.toList) = some (ofText text) :=
  scanBytes_eq [] text.toList

end Token
end EntityStore
