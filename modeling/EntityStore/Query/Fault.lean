/-
What can be wrong with a query text: a piece that is no token, a token where another
was expected, or a name that does not resolve.
-/

import EntityStore.Token.Lexer

set_option autoImplicit false

namespace EntityStore

inductive Expectation where
  | entityName
  | keyword (word : String)
  | closingParenthesis
  | comparison
  | operand
  | propertyReference
  | propertyName
  | endOfQuery
  deriving DecidableEq, Repr

def Expectation.describe : Expectation → String
  | .entityName => "entity name"
  | .keyword word => "'" ++ word ++ "'"
  | .closingParenthesis => "')'"
  | .comparison => "comparison operator"
  | .operand => "operand"
  | .propertyReference => "property reference"
  | .propertyName => "property name"
  | .endOfQuery => "end of query"

inductive ReferenceFault where
  | unknownEntity (name : String) (position : Nat)
  | repeatedEntity (name : String)
  | outsideQuery (name : String) (position : Nat)
  | collectionInCondition (entity property : String)
  | unknownProperty (entity property : String)
  | undefinedType (name : String)
  deriving DecidableEq, Repr

def ReferenceFault.message : ReferenceFault → String
  | .unknownEntity name position =>
      "unknown entity type '" ++ name ++ "' at " ++ toString position
  | .repeatedEntity name =>
      "entity type '" ++ name ++ "' appears more than once in the query"
  | .outsideQuery name position =>
      "entity type '" ++ name ++ "' at " ++ toString position ++ " is not part of the query"
  | .collectionInCondition entity property =>
      "collection " ++ entity ++ "." ++ property ++ " cannot be used in a query condition"
  | .unknownProperty entity property =>
      "unknown property " ++ entity ++ "." ++ property
  | .undefinedType name => "unknown entity type '" ++ name ++ "'"

inductive QueryFault where
  | lexical (fault : Token.Fault)
  | unexpected (position : Nat) (expected : Expectation) (found : TokenKind)
  | reference (fault : ReferenceFault)
  deriving DecidableEq, Repr

namespace QueryFault

/-- Where the text of a query cannot be read; a name without meaning has no place. -/
def position? : QueryFault → Option Nat
  | lexical fault => some fault.position
  | unexpected position .. => some position
  | reference _ => none

def detail : QueryFault → String
  | lexical fault => fault.cause.message
  | unexpected _ expected found =>
      "expected " ++ expected.describe ++ ", found " ++ found.describe
  | reference fault => fault.message

def message (fault : QueryFault) : String :=
  match fault.position? with
  | some position => "query parse error at " ++ toString position ++ ": " ++ fault.detail
  | none => "reference error: " ++ fault.detail

end QueryFault

end EntityStore
