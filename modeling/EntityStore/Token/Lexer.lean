/-
Splitting query text into tokens. At each place the longest token is taken; blanks
are the ASCII ones and only separate tokens. A piece that starts no token is
reported with the byte offset at which it starts.
-/

import EntityStore.Token

set_option autoImplicit false

namespace EntityStore
namespace Token

/-- The ASCII blanks: space, tab, line feed, form feed, carriage return. -/
def isBlank (character : Char) : Bool :=
  character == ' ' || character == '\t' || character == '\n' || character == '\x0c'
    || character == '\r'

def digitsValue (digits : List Char) : Nat :=
  digits.foldl (fun total digit => total * 10 + (digit.toNat - 48)) 0

private theorem length_dropWhile_le (holds : Char → Bool) (characters : List Char) :
    (characters.dropWhile holds).length ≤ characters.length := by
  induction characters with
  | nil => exact Nat.le_refl 0
  | cons head tail ih =>
      rw [List.dropWhile_cons]
      split
      · exact Nat.le_succ_of_le ih
      · exact Nat.le_refl _

/-! ### Strings -/

/-- The content of a string behind its opening quote, and the text behind the
closing one. A doubled quote stands for one quote. -/
def stringBody : List Char → Option (List Char × List Char)
  | [] => none
  | '\'' :: '\'' :: after =>
      match stringBody after with
      | none => none
      | some (content, rest) => some ('\'' :: content, rest)
  | character :: after =>
      if character = '\'' then some ([], after)
      else
        match stringBody after with
        | none => none
        | some (content, rest) => some (character :: content, rest)

private theorem stringBody_shorter (text content rest : List Char)
    (found : stringBody text = some (content, rest)) : rest.length < text.length := by
  fun_induction stringBody text generalizing content rest with
  | case1 => cases found
  | case2 after missing ih => cases found
  | case3 after inner tail matched ih =>
      cases found
      have bound := ih inner tail matched
      simp only [List.length_cons]
      omega
  | case4 after notDoubled =>
      cases found
      exact Nat.lt_succ_self _
  | case5 character after notDoubled notQuote missing ih => cases found
  | case6 character after notDoubled notQuote inner tail matched ih =>
      cases found
      have bound := ih inner tail matched
      simp only [List.length_cons]
      omega

/-! ### Numbers -/

/-- The integer with these digits, when sixty-four bits hold it. -/
def integerOf? (negative : Bool) (digits : List Char) : Option Int64 :=
  let value : Int := if negative then -(digitsValue digits) else digitsValue digits
  if -0x8000000000000000 ≤ value && value < 0x8000000000000000 then some (Int64.ofInt value) else none

/-- The digits of a fraction, and the text behind them: a point and at least one
digit. -/
def fraction? (text : List Char) : Option (List Char × List Char) :=
  match text with
  | '.' :: digit :: rest =>
      if Text.isDigit digit then
        some (digit :: rest.takeWhile Text.isDigit, rest.dropWhile Text.isDigit)
      else none
  | _ => none

/-- A number with at least one digit, behind its sign, and the text behind it. -/
def number (negative : Bool) (first : Char) (tail : List Char) :
    Except LexicalCause (TokenKind × List Char) :=
  let whole := first :: tail.takeWhile Text.isDigit
  let rest := tail.dropWhile Text.isDigit
  match fraction? rest with
  | some (fraction, after) =>
      let value := Double.ofDecimal negative (digitsValue (whole ++ fraction)) (-fraction.length)
      .ok (.float value, after)
  | none =>
      match integerOf? negative whole with
      | some value => .ok (.integer value, rest)
      | none =>
          let literal := String.ofList (if negative then '-' :: whole else whole)
          .error (.integerOutOfRange literal)

private theorem fraction?_shorter (text digits after : List Char)
    (found : fraction? text = some (digits, after)) : after.length ≤ text.length := by
  unfold fraction? at found
  split at found
  · rename_i digit rest
    split at found
    · cases found
      have bound := length_dropWhile_le Text.isDigit rest
      simp only [List.length_cons]
      omega
    · cases found
  · cases found

private theorem number_shorter (negative : Bool) (first : Char) (tail : List Char)
    (kind : TokenKind) (rest : List Char) (found : number negative first tail = .ok (kind, rest)) :
    rest.length ≤ tail.length := by
  have bound := length_dropWhile_le Text.isDigit tail
  unfold number at found
  dsimp only at found
  split at found
  · rename_i digits after matched
    cases found
    exact Nat.le_trans (fraction?_shorter _ _ _ matched) bound
  · split at found
    · cases found
      exact bound
    · cases found

/-! ### Tokens -/

def symbol? (character : Char) : Option TokenKind :=
  match character with
  | '.' => some .dot
  | ',' => some .comma
  | '(' => some .leftParenthesis
  | ')' => some .rightParenthesis
  | '=' => some .equal
  | '?' => some .positional
  | _ => none

def exclamationLexeme : List Char → Except LexicalCause (TokenKind × List Char)
  | '=' :: rest => .ok (.unequal, rest)
  | _ => .error .exclamationAlone

def lessLexeme : List Char → TokenKind × List Char
  | '=' :: rest => (.atMost, rest)
  | '>' :: rest => (.unequal, rest)
  | rest => (.less, rest)

def greaterLexeme : List Char → TokenKind × List Char
  | '=' :: rest => (.atLeast, rest)
  | rest => (.greater, rest)

def namedLexeme (tail : List Char) : Except LexicalCause (TokenKind × List Char) :=
  match tail.takeWhile Text.isWordChar with
  | [] => .error .parameterName
  | initial :: name =>
      if Text.isDigit initial then .error .parameterName
      else .ok (.named (String.ofList (initial :: name)), tail.dropWhile Text.isWordChar)

def stringLexeme (tail : List Char) : Except LexicalCause (TokenKind × List Char) :=
  match stringBody tail with
  | none => .error .unterminatedString
  | some (content, rest) => .ok (.string (String.ofList content), rest)

def negativeLexeme : List Char → Except LexicalCause (TokenKind × List Char)
  | [] => .error (.unexpectedCharacter '-')
  | digit :: after =>
      if Text.isDigit digit then number true digit after
      else .error (.unexpectedCharacter '-')

def wordLexeme (first : Char) (tail : List Char) : TokenKind × List Char :=
  (.word (String.ofList (first :: tail.takeWhile Text.isWordChar)),
    tail.dropWhile Text.isWordChar)

/-- The token at the start of a text that does not begin with a blank, and the text
behind it. -/
def lexeme (first : Char) (tail : List Char) : Except LexicalCause (TokenKind × List Char) :=
  match symbol? first with
  | some kind => .ok (kind, tail)
  | none =>
      if first = '!' then exclamationLexeme tail
      else if first = '<' then .ok (lessLexeme tail)
      else if first = '>' then .ok (greaterLexeme tail)
      else if first = ':' then namedLexeme tail
      else if first = '\'' then stringLexeme tail
      else if first = '-' then negativeLexeme tail
      else if Text.isDigit first then number false first tail
      else if Text.isWordChar first then .ok (wordLexeme first tail)
      else .error (.unexpectedCharacter first)

private theorem exclamationLexeme_shorter (tail : List Char) (kind : TokenKind) (rest : List Char)
    (found : exclamationLexeme tail = .ok (kind, rest)) : rest.length ≤ tail.length := by
  unfold exclamationLexeme at found
  split at found
  · cases found
    exact Nat.le_succ _
  · cases found

private theorem lessLexeme_shorter (tail : List Char) :
    (lessLexeme tail).2.length ≤ tail.length := by
  unfold lessLexeme
  split <;> simp only [List.length_cons] <;> omega

private theorem greaterLexeme_shorter (tail : List Char) :
    (greaterLexeme tail).2.length ≤ tail.length := by
  unfold greaterLexeme
  split <;> simp only [List.length_cons] <;> omega

private theorem namedLexeme_shorter (tail : List Char) (kind : TokenKind) (rest : List Char)
    (found : namedLexeme tail = .ok (kind, rest)) : rest.length ≤ tail.length := by
  unfold namedLexeme at found
  split at found
  · cases found
  · split at found
    · cases found
    · cases found
      exact length_dropWhile_le _ _

private theorem stringLexeme_shorter (tail : List Char) (kind : TokenKind) (rest : List Char)
    (found : stringLexeme tail = .ok (kind, rest)) : rest.length ≤ tail.length := by
  unfold stringLexeme at found
  split at found
  · cases found
  · rename_i matched
    cases found
    exact Nat.le_of_lt (stringBody_shorter _ _ _ matched)

private theorem negativeLexeme_shorter (tail : List Char) (kind : TokenKind) (rest : List Char)
    (found : negativeLexeme tail = .ok (kind, rest)) : rest.length ≤ tail.length := by
  unfold negativeLexeme at found
  split at found
  · cases found
  · split at found
    · exact Nat.le_succ_of_le (number_shorter _ _ _ _ _ found)
    · cases found

theorem lexeme_shorter (first : Char) (tail : List Char) (kind : TokenKind)
    (rest : List Char) (found : lexeme first tail = .ok (kind, rest)) :
    rest.length ≤ tail.length := by
  unfold lexeme at found
  split at found
  · cases found
    exact Nat.le_refl _
  · split at found
    · exact exclamationLexeme_shorter _ _ _ found
    split at found
    · have bound := lessLexeme_shorter tail
      rw [Except.ok.inj found] at bound
      exact bound
    split at found
    · have bound := greaterLexeme_shorter tail
      rw [Except.ok.inj found] at bound
      exact bound
    split at found
    · exact namedLexeme_shorter _ _ _ found
    split at found
    · exact stringLexeme_shorter _ _ _ found
    split at found
    · exact negativeLexeme_shorter _ _ _ found
    split at found
    · exact number_shorter _ _ _ _ _ found
    split at found
    · cases found
      exact length_dropWhile_le _ _
    · cases found

structure Fault where
  position : Nat
  cause : LexicalCause
  deriving DecidableEq, Repr

/-- The tokens of the rest of a text that starts at a byte offset, with the mark of
the end. -/
def scan (position : Nat) (text : List Char) : Except Fault (List Token) :=
  match text with
  | [] => .ok [⟨.finish, position⟩]
  | first :: tail =>
      if isBlank first then scan (position + first.utf8Size) tail
      else
        match found : lexeme first tail with
        | .error cause => .error ⟨position, cause⟩
        | .ok (kind, rest) =>
            have _shorter : rest.length ≤ tail.length := lexeme_shorter first tail kind rest found
            let length := Text.byteLength (first :: tail) - Text.byteLength rest
            match scan (position + length) rest with
            | .error fault => .error fault
            | .ok tokens => .ok (⟨kind, position⟩ :: tokens)
  termination_by text.length
  decreasing_by
    · exact Nat.lt_succ_self _
    · exact Nat.lt_succ_of_le _shorter

/-- Splits query text into tokens; the last one marks the end. -/
def ofText (text : String) : Except Fault (List Token) := scan 0 text.toList

def distinct (names : List String) : List String :=
  names.foldl (fun known name => if known.contains name then known else known ++ [name]) []

def parameterNames (tokens : List Token) : List String :=
  tokens.filterMap fun token =>
    match token.kind with
    | .named name => some name
    | _ => none

def namedParameters (text : String) : Except Fault (List String) :=
  match ofText text with
  | .error fault => .error fault
  | .ok tokens => .ok (distinct (parameterNames tokens))

end Token
end EntityStore
