/-
Tables in memory. A row has an integer id, generated in increasing order unless it is
given, and a value for every other column. Names of tables and columns are compared
without regard to the case of ASCII letters.
-/

import EntityStore.Database
import EntityStore.Value.Order

set_option autoImplicit false

namespace EntityStore

structure Table where
  name : String
  idColumn : String
  columns : List ColumnSpec
  /-- The rows without their ids, by id, in increasing order. -/
  rows : List (Int64 × Row) := []
  /-- The greatest id that the table ever had. -/
  lastId : Int64 := 0
  deriving DecidableEq, Repr

structure Tables where
  list : List Table := []
  deriving DecidableEq, Repr

inductive TableFault where
  | missingTable (name : String)
  | existingTable (name : String)
  | reservedName (name : String)
  | missingSchema (name : String)
  | missingColumn (name : String)
  /-- A null in a column that does not take it. -/
  | requiredValue (table column : String)
  | repeatedId (table column : String)
  | unfittingValue
  | exhausted
  /-- Text that breaks off or whose meaning is not known. -/
  | unreadable
  | locked
  | insideTransaction
  | outsideTransaction (action : String)
  deriving DecidableEq, Repr

namespace TableFault

def message : TableFault → String
  | missingTable name => "no such table: " ++ name
  | existingTable name => "table " ++ Sql.quote name ++ " already exists"
  | reservedName name => "object name reserved for internal use: " ++ name
  | missingSchema name => "unknown database " ++ name
  | missingColumn name => "no such column: " ++ name
  | requiredValue table column => "NOT NULL constraint failed: " ++ table ++ "." ++ column
  | repeatedId table column => "UNIQUE constraint failed: " ++ table ++ "." ++ column
  | unfittingValue => "datatype mismatch"
  | exhausted => "database or disk is full"
  | unreadable => "syntax error"
  | locked => "database is locked"
  | insideTransaction => "cannot start a transaction within a transaction"
  | outsideTransaction action => "cannot " ++ action ++ " - no transaction is active"

/-- Whether a rule about values was violated. -/
def isConstraint : TableFault → Bool
  | requiredValue .. => true
  | repeatedId .. => true
  | _ => false

def refusal : TableFault → Refusal
  | unfittingValue => .unfitting
  | exhausted => .full
  | locked => .busy
  | _ => .statement

def toDatabaseError (fault : TableFault) : DatabaseError :=
  if fault.isConstraint then .constraint fault.message else .engine fault.refusal fault.message

end TableFault

namespace Table

/-! ### Columns -/

def columnNames (table : Table) : List String :=
  table.idColumn :: table.columns.map ColumnSpec.name

def hasColumn (table : Table) (name : String) : Bool :=
  table.columnNames.any (Text.sameIgnoringCase name)

def checkColumns (table : Table) (names : List String) : Except TableFault Unit :=
  match names.find? fun name => !table.hasColumn name with
  | some name => .error (.missingColumn name)
  | none => .ok ()

def fullRow (table : Table) (entry : Int64 × Row) : Row :=
  ⟨(table.idColumn, .integer entry.1) :: entry.2.columns⟩

def fullRows (table : Table) : List Row := table.rows.map table.fullRow

/-- Whether a column of a row holds an id. -/
def holds (table : Table) (column : String) (id : Value) (entry : Int64 × Row) : Bool :=
  match (table.fullRow entry).get? column with
  | some value => !value.isNull && !id.isNull && value.order id == .eq
  | none => false

/-! ### Rows -/

def place (id : Int64) (row : Row) : List (Int64 × Row) → List (Int64 × Row)
  | [] => [(id, row)]
  | entry :: rest =>
      if id < entry.1 then (id, row) :: entry :: rest else entry :: place id row rest

/-- The first column without a value that needs one. -/
def checkRequired (table : Table) (row : Row) (columns : List ColumnSpec) :
    Except TableFault Unit :=
  match columns.find? fun column =>
      !column.nullable && ((row.get? column.name).getD .null).isNull with
  | some column => .error (.requiredValue table.name column.name)
  | none => .ok ()

/-- The row of an insertion: each column has the given value or else its default. -/
def newRow (table : Table) (given : Row) : Row :=
  ⟨table.columns.map fun column =>
    (column.name, ((given.get? column.name).getD (column.default.getD .null)).stored)⟩

/-- The id of an insertion: the given one, or else one more than there has been. -/
def newId (table : Table) (given : Row) : Except TableFault Int64 :=
  match (given.get? table.idColumn).getD .null with
  | .integer id =>
      if (table.rows.lookup id).isSome then .error (.repeatedId table.name table.idColumn)
      else .ok id
  | .null =>
      if table.lastId = Int64.maxValue then .error .exhausted else .ok (table.lastId + 1)
  | _ => .error .unfittingValue

/-- Inserts a row; gives its id. -/
def insert (table : Table) (given : Row) : Except TableFault (Int64 × Table) := do
  table.checkColumns given.names
  let row := table.newRow given
  let id ← table.newId given
  table.checkRequired row table.columns
  return (id, { table with
    rows := place id row table.rows
    lastId := if table.lastId < id then id else table.lastId })

def changedRow (given row : Row) : Row :=
  ⟨row.columns.map fun entry =>
    (entry.1, match given.get? entry.1 with
      | some value => value.stored
      | none => entry.2)⟩

def givenColumns (table : Table) (given : Row) : List ColumnSpec :=
  table.columns.filter fun column => (given.get? column.name).isSome

def update (table : Table) (given : Row) (column : String) (id : Value) :
    Except TableFault (Nat × Table) := do
  table.checkColumns (column :: given.names)
  let affected := table.rows.filter (table.holds column id)
  affected.forM fun entry =>
    table.checkRequired (changedRow given entry.2) (table.givenColumns given)
  return (affected.length, { table with
    rows := table.rows.map fun entry =>
      if table.holds column id entry then (entry.1, changedRow given entry.2) else entry })

def delete (table : Table) (column : String) (id : Value) : Except TableFault (Nat × Table) := do
  table.checkColumns [column]
  let affected := table.rows.filter (table.holds column id)
  return (affected.length, { table with
    rows := table.rows.filter fun entry => !table.holds column id entry })

/-- Columns of the rows in which a column holds an id. -/
def selectById (table : Table) (columns : List String) (column : String) (id : Value) :
    Except TableFault (List Row) := do
  table.checkColumns (column :: columns)
  return (table.rows.filter (table.holds column id)).map fun entry =>
    Row.ofList (columns.map fun name => (name, ((table.fullRow entry).get? name).getD .null))

end Table

namespace Tables

/-! ### Finding tables -/

def table? (tables : Tables) (name : String) : Option Table :=
  tables.list.find? fun table => Text.sameIgnoringCase table.name name

/-- Whether a table has exactly this name. -/
def contains (tables : Tables) (name : String) : Bool :=
  tables.list.any fun table => table.name == name

/-- There is one schema, which has a name of its own. -/
def mainSchema : String := "main"

/-- A qualified name in messages. -/
def shownName (name : QualifiedName) : String :=
  match name.schema with
  | some schema => schema ++ "." ++ name.name
  | none => name.name

def missingSchema? (schema : Option String) : Option String :=
  schema.filter fun name => !Text.sameIgnoringCase name mainSchema

def find (tables : Tables) (name : QualifiedName) : Except TableFault Table :=
  match missingSchema? name.schema, tables.table? name.name with
  | none, some table => .ok table
  | _, _ => .error (.missingTable (shownName name))

def replace (tables : Tables) (table : Table) : Tables :=
  ⟨tables.list.map fun other => if other.name == table.name then table else other⟩

/-! ### Creating and dropping -/

/-- Names that begin with this are kept for the database itself. -/
def reservedStart : List Char := ['s', 'q', 'l', 'i', 't', 'e', '_']

def isReserved (name : String) : Bool :=
  (name.toList.map Text.lowerChar).take reservedStart.length == reservedStart

def create (tables : Tables) (name : QualifiedName) (idColumn : String)
    (columns : List ColumnSpec) : Except TableFault Tables := do
  if let some schema := missingSchema? name.schema then throw (.missingSchema schema)
  if isReserved name.name then throw (.reservedName name.name)
  if (tables.table? name.name).isSome then throw (.existingTable name.name)
  return ⟨tables.list ++ [{ name := name.name, idColumn := idColumn, columns := columns }]⟩

/-- Drops a table with its rows; its ids start anew if it is created again. -/
def drop (tables : Tables) (name : QualifiedName) : Except TableFault Tables := do
  let table ← tables.find name
  return ⟨tables.list.filter fun other => other.name != table.name⟩

end Tables

end EntityStore
