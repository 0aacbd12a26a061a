/-
Tokens of the query language, each with the byte offset of its first character in
the query text. Keywords are words; the parser tells them apart.
-/

import EntityStore.Text
import EntityStore.Text.Quoted
import EntityStore.Value

set_option autoImplicit false

namespace EntityStore

inductive TokenKind where
  | word (name : String)
  | integer (number : Int64)
  | float (number : Double)
  | string (content : String)
  | named (name : String)
  | positional
  | dot
  | comma
  | leftParenthesis
  | rightParenthesis
  | equal
  | unequal
  | less
  | atMost
  | greater
  | atLeast
  | finish
  deriving DecidableEq, Repr

structure Token where
  kind : TokenKind
  position : Nat
  deriving DecidableEq, Repr

namespace TokenKind

def isKeyword (kind : TokenKind) (keyword : String) : Bool :=
  match kind with
  | word name => Text.sameIgnoringCase name keyword
  | _ => false

/-- What a message says was found. -/
def describe : TokenKind → String
  | word name => "'" ++ name ++ "'"
  | integer number => "Integer(" ++ toString number.toInt ++ ")"
  | float number => "Float(" ++ number.text .literal ++ ")"
  | string content => "Str(" ++ Text.quoted content ++ ")"
  | named name => "Named(" ++ Text.quoted name ++ ")"
  | positional => "Positional"
  | dot => "Dot"
  | comma => "Comma"
  | leftParenthesis => "LParen"
  | rightParenthesis => "RParen"
  | equal => "Eq"
  | unequal => "Ne"
  | less => "Lt"
  | atMost => "Le"
  | greater => "Gt"
  | atLeast => "Ge"
  | finish => "end of query"

end TokenKind

inductive LexicalCause where
  | exclamationAlone
  | parameterName
  | unterminatedString
  | integerOutOfRange (literal : String)
  | unexpectedCharacter (character : Char)
  deriving DecidableEq, Repr

def LexicalCause.message : LexicalCause → String
  | .exclamationAlone => "expected '=' after '!'"
  | .parameterName => "expected parameter name after ':'"
  | .unterminatedString => "unterminated string literal"
  | .integerOutOfRange literal => "integer '" ++ literal ++ "' out of range"
  | .unexpectedCharacter character => "unexpected character '" ++ character.toString ++ "'"

end EntityStore
