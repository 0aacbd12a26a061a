/-
Requests on tables. A statement either changes the tables or asks for rows; a text
that contains the character zero breaks off there and cannot be read.
-/

import EntityStore.Query.Meaning
import EntityStore.Tables.Basic

set_option autoImplicit false

namespace EntityStore

structure Change where
  tables : Tables
  affected : Nat := 0
  generated : Option Int64 := none

namespace Statement

def checkReadable (statement : Statement) : Except TableFault Unit :=
  if statement.text.toList.contains '\x00' then .error .unreadable else .ok ()

def given (columns : List String) (values : List Value) : Row × Value :=
  (⟨columns.zip values⟩, values.getD columns.length .null)

end Statement

namespace Paging

/-- The numbers must be below two to the power sixty-three; when nothing is asked for,
the number of skipped rows does not matter. -/
def checkNumbers (paging : Paging) : Except TableFault Unit :=
  let check (number : UInt64) : Except TableFault Unit :=
    if number.toNat < 0x8000000000000000 then .ok () else .error .unfittingValue
  match paging with
  | limit count => check count
  | offset skipped => check skipped
  | unlimitedOffset skipped => check skipped
  | limitOffset count skipped => do
      check count
      if count != 0 then check skipped
  | _ => .ok ()

end Paging

namespace Tables

def execute (tables : Tables) (statement : Statement) : Except TableFault Change := do
  statement.checkReadable
  match statement.request with
  | .createTable name idColumn columns =>
      return { tables := ← tables.create name idColumn columns }
  | .dropTable name => return { tables := ← tables.drop name }
  | .insert name _ columns =>
      let table ← tables.find name
      let (id, after) ← table.insert (Statement.given columns statement.values).1
      return { tables := tables.replace after, affected := 1, generated := some id }
  | .update name idColumn columns =>
      let table ← tables.find name
      let (row, id) := Statement.given columns statement.values
      let (affected, after) ← table.update row idColumn id
      return { tables := tables.replace after, affected := affected }
  | .delete name idColumn =>
      let table ← tables.find name
      let (affected, after) ← table.delete idColumn (Statement.given [] statement.values).2
      return { tables := tables.replace after, affected := affected }
  | _ => throw .unreadable

def rowsOf (tables : Tables) (mapping : Mapping) : List Row :=
  match tables.find (Statement.tableOf mapping) with
  | .ok table => table.fullRows
  | .error _ => []

/-- Every table and column that a query names must be there. -/
def checkQuery (tables : Tables) (query : Query) : Except TableFault Unit := do
  let found ← query.scope.mapM fun mapping => tables.find (Statement.tableOf mapping)
  query.references.forM fun reference =>
    match found[reference.scope]? with
    | some table => table.checkColumns [reference.column]
    | none => .ok ()

def answer (tables : Tables) (statement : Statement) : Except TableFault (List Row) := do
  statement.checkReadable
  match statement.request with
  | .selectById name idColumn columns =>
      let table ← tables.find name
      table.selectById columns idColumn (Statement.given [] statement.values).2
  | .select query paging =>
      tables.checkQuery query
      paging.checkNumbers
      let rows := query.rows tables.rowsOf (statement.values.map Value.stored)
      match paging.rows? rows with
      | some page => return page
      | none => throw .unreadable
  | _ => throw .unreadable

end Tables

end EntityStore
