/-
Queries with every name resolved. The entity types of a query are numbered: zero is
the type whose instances the query returns, joined types follow in source order.
-/

import EntityStore.Mapping.Basic

set_option autoImplicit false

namespace EntityStore

structure ColumnRef where
  scope : Nat
  column : String
  deriving DecidableEq, Repr

inductive Comparison where
  | equal
  | unequal
  | less
  | atMost
  | greater
  | atLeast
  | like
  deriving DecidableEq, Repr

def Comparison.sql : Comparison → String
  | equal => "="
  | unequal => "<>"
  | less => "<"
  | atMost => "<="
  | greater => ">"
  | atLeast => ">="
  | like => "LIKE"

/-- Where the value of a marker comes from. -/
inductive Slot where
  | literal (value : Value)
  | named (name : String)
  | positional (index : Nat)
  deriving DecidableEq, Repr

inductive Operand where
  | column (reference : ColumnRef)
  | bound (slot : Slot)
  deriving DecidableEq, Repr

def Operand.isNullLiteral : Operand → Bool
  | bound (.literal .null) => true
  | _ => false

inductive Expression where
  | compare (left : Operand) (comparison : Comparison) (right : Operand)
  | nullTest (operand : Operand) (negated : Bool)
  | conjunction (left right : Expression)
  | disjunction (left right : Expression)
  | negation (inner : Expression)
  deriving DecidableEq, Repr

/-- An inner join drops rows without a match, an outer join keeps them. -/
inductive JoinKind where
  | inner
  | outer
  deriving DecidableEq, Repr

def JoinKind.sql : JoinKind → String
  | inner => " INNER JOIN "
  | outer => " LEFT OUTER JOIN "

structure Join where
  kind : JoinKind
  target : Mapping
  on : Expression
  deriving DecidableEq, Repr

inductive Direction where
  | ascending
  | descending
  deriving DecidableEq, Repr

def Direction.sql : Direction → String
  | ascending => "ASC"
  | descending => "DESC"

structure OrderKey where
  column : ColumnRef
  direction : Direction
  deriving DecidableEq, Repr

structure Query where
  root : Mapping
  joins : List Join
  predicate : Option Expression
  order : List OrderKey
  positional : Nat
  deriving DecidableEq, Repr

namespace Query

def scope (query : Query) : List Mapping :=
  query.root :: query.joins.map Join.target

end Query

end EntityStore
