/-
Queries as statements. Every table has an alias by its number, the columns of the
first entity type are selected under their own names, and every value is bound: the
text has a marker for each slot, numbered in the order in which they stand.
-/

import EntityStore.Dialect
import EntityStore.Query.Syntax

set_option autoImplicit false

namespace EntityStore

namespace Expression

/-- The expression with comparisons to a literal null read as null tests: in a
statement, nothing equals null. -/
def withNullTests : Expression → Expression
  | compare left comparison right =>
      if comparison = .equal || comparison = .unequal then
        if right.isNullLiteral then .nullTest left (comparison = .unequal)
        else if left.isNullLiteral then .nullTest right (comparison = .unequal)
        else .compare left comparison right
      else .compare left comparison right
  | nullTest operand negated => .nullTest operand negated
  | conjunction left right => .conjunction left.withNullTests right.withNullTests
  | disjunction left right => .disjunction left.withNullTests right.withNullTests
  | negation inner => .negation inner.withNullTests

end Expression

namespace Operand

def slots : Operand → List Slot
  | column _ => []
  | bound slot => [slot]

end Operand

def columnText (scope : Nat) (column : String) : String :=
  "t" ++ toString scope ++ "." ++ Sql.quote column

def ColumnRef.text (reference : ColumnRef) : String :=
  columnText reference.scope reference.column

def Operand.text (dialect : Dialect) (next : Nat) : Operand → String
  | column reference => reference.text
  | bound _ => dialect.placeholder next

namespace Expression

def slots : Expression → List Slot
  | compare left _ right => left.slots ++ right.slots
  | nullTest operand _ => operand.slots
  | conjunction left right => left.slots ++ right.slots
  | disjunction left right => left.slots ++ right.slots
  | negation inner => inner.slots

/-- The text of an expression whose first marker has number `next`. -/
def text (dialect : Dialect) (next : Nat) : Expression → String
  | compare left comparison right =>
      left.text dialect next ++ " " ++ comparison.sql ++ " "
        ++ right.text dialect (next + left.slots.length)
  | nullTest operand negated =>
      operand.text dialect next ++ (if negated then " IS NOT NULL" else " IS NULL")
  | conjunction left right =>
      "(" ++ left.text dialect next ++ " AND "
        ++ right.text dialect (next + left.slots.length) ++ ")"
  | disjunction left right =>
      "(" ++ left.text dialect next ++ " OR "
        ++ right.text dialect (next + left.slots.length) ++ ")"
  | negation inner => "NOT (" ++ inner.text dialect next ++ ")"

end Expression

structure CompiledQuery where
  text : String
  slots : List Slot
  root : Mapping
  positional : Nat
  deriving DecidableEq, Repr

namespace Query

/-- The columns of the first entity type, each under its own name. -/
def selectText (root : Mapping) : String :=
  "SELECT " ++ Sql.commaSeparated
    (root.columns.map fun column => columnText 0 column ++ " AS " ++ Sql.quote column)

def tableText (mapping : Mapping) : String :=
  Sql.qualified mapping.schema mapping.table

def joinsText (dialect : Dialect) : Nat → Nat → List Join → String
  | _, _, [] => ""
  | number, next, join :: rest =>
      let on := join.on.withNullTests
      join.kind.sql ++ tableText join.target ++ " t" ++ toString number ++ " ON "
        ++ on.text dialect next
        ++ joinsText dialect (number + 1) (next + on.slots.length) rest

def joinsSlots (joins : List Join) : List Slot :=
  joins.flatMap fun join => join.on.withNullTests.slots

def predicateText (dialect : Dialect) (next : Nat) (predicate : Option Expression) : String :=
  match predicate with
  | none => ""
  | some expression => " WHERE " ++ expression.withNullTests.text dialect next

def predicateSlots (predicate : Option Expression) : List Slot :=
  match predicate with
  | none => []
  | some expression => expression.withNullTests.slots

def orderText (keys : List OrderKey) : String :=
  match keys with
  | [] => ""
  | _ =>
      " ORDER BY " ++ Sql.commaSeparated
        (keys.map fun key => key.column.text ++ " " ++ key.direction.sql)

def slots (query : Query) : List Slot :=
  joinsSlots query.joins ++ predicateSlots query.predicate

def text (dialect : Dialect) (query : Query) : String :=
  selectText query.root ++ " FROM " ++ tableText query.root ++ " t0"
    ++ joinsText dialect 1 0 query.joins
    ++ predicateText dialect (joinsSlots query.joins).length query.predicate
    ++ orderText query.order

def compile (dialect : Dialect) (query : Query) : CompiledQuery :=
  ⟨query.text dialect, query.slots, query.root, query.positional⟩

end Query

namespace CompiledQuery

def namedParameters (compiled : CompiledQuery) : List String :=
  Token.distinct (compiled.slots.filterMap fun
    | .named name => some name
    | _ => none)

end CompiledQuery

end EntityStore
