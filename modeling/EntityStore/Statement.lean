/-
Statements as they are sent to a database: a text with markers, the values of the
markers, and what the statement asks for. The last part says in data what the text
says in words, so that a database can be described without reading text.
-/

import EntityStore.Query.Compiled
import EntityStore.Row

set_option autoImplicit false

namespace EntityStore

/-- A table or a sequence; without a schema the connection's default one is meant. -/
structure QualifiedName where
  schema : Option String
  name : String
  deriving DecidableEq, Repr

structure ColumnSpec where
  name : String
  nullable : Bool
  default : Option Value
  deriving DecidableEq, Repr

/-- What a statement asks for. The values belong to the columns in order; where a
row is named by its id, the id is the last value. -/
inductive Request where
  | createTable (table : QualifiedName) (idColumn : String) (columns : List ColumnSpec)
  | dropTable (table : QualifiedName)
  | createSequence (sequence : QualifiedName)
  | dropSequence (sequence : QualifiedName)
  | nextValue (sequence : QualifiedName)
  | defaultSchema
  | insert (table : QualifiedName) (idColumn : String) (columns : List String)
  | update (table : QualifiedName) (idColumn : String) (columns : List String)
  | delete (table : QualifiedName) (idColumn : String)
  | selectById (table : QualifiedName) (idColumn : String) (columns : List String)
  | select (query : Query) (paging : Paging)
  /-- Text whose meaning is not known here. -/
  | unread

structure Statement where
  text : String
  values : List Value
  request : Request

namespace Statement

def ofText (text : String) (values : List Value) : Statement := ⟨text, values, .unread⟩

def tableOf (mapping : Mapping) : QualifiedName := ⟨mapping.schema, mapping.table⟩

def markers (dialect : Dialect) (count : Nat) : String :=
  Sql.commaSeparated ((List.range count).map dialect.placeholder)

def insertText (dialect : Dialect) (mapping : Mapping) (columns : List String) : String :=
  match columns with
  | [] => "INSERT INTO " ++ Query.tableText mapping ++ " DEFAULT VALUES"
  | _ =>
      "INSERT INTO " ++ Query.tableText mapping ++ " ("
        ++ Sql.commaSeparated (columns.map Sql.quote) ++ ") VALUES ("
        ++ markers dialect columns.length ++ ")"

/-- The condition that picks one row; its marker has number `next`. -/
def idCondition (dialect : Dialect) (mapping : Mapping) (next : Nat) : String :=
  " WHERE " ++ Sql.quote mapping.id.column ++ " = " ++ dialect.placeholder next

def assignmentText (dialect : Dialect) (entry : String × Nat) : String :=
  Sql.quote entry.1 ++ " = " ++ dialect.placeholder entry.2

def updateText (dialect : Dialect) (mapping : Mapping) (columns : List String) : String :=
  "UPDATE " ++ Query.tableText mapping ++ " SET "
    ++ Sql.commaSeparated (columns.zipIdx.map (assignmentText dialect))
    ++ idCondition dialect mapping columns.length

def deleteText (dialect : Dialect) (mapping : Mapping) : String :=
  "DELETE FROM " ++ Query.tableText mapping ++ idCondition dialect mapping 0

def selectByIdText (dialect : Dialect) (mapping : Mapping) : String :=
  "SELECT " ++ Sql.commaSeparated (mapping.columns.map Sql.quote) ++ " FROM "
    ++ Query.tableText mapping ++ idCondition dialect mapping 0

/-! ### Rows -/

def insert (dialect : Dialect) (mapping : Mapping) (columns : List (String × Value)) :
    Statement :=
  ⟨insertText dialect mapping (columns.map Prod.fst), columns.map Prod.snd,
    .insert (tableOf mapping) mapping.id.column (columns.map Prod.fst)⟩

def update (dialect : Dialect) (mapping : Mapping) (columns : List (String × Value))
    (id : Int64) : Statement :=
  ⟨updateText dialect mapping (columns.map Prod.fst),
    columns.map Prod.snd ++ [.integer id],
    .update (tableOf mapping) mapping.id.column (columns.map Prod.fst)⟩

def delete (dialect : Dialect) (mapping : Mapping) (id : Int64) : Statement :=
  ⟨deleteText dialect mapping, [.integer id], .delete (tableOf mapping) mapping.id.column⟩

def selectById (dialect : Dialect) (mapping : Mapping) (id : Int64) : Statement :=
  ⟨selectByIdText dialect mapping, [.integer id],
    .selectById (tableOf mapping) mapping.id.column mapping.columns⟩

def select (dialect : Dialect) (query : Query) (page : Page) (values : List Value) :
    Statement :=
  let paging := dialect.paging page
  ⟨paging.text (query.text dialect), values, .select query paging⟩

/-! ### Tables and sequences -/

def columnSpec? : Property → Option ColumnSpec
  | .scalar property => some ⟨property.column, property.nullable, property.default⟩
  | .object relation => some ⟨relation.column, relation.nullable, none⟩
  | .collection _ => none

def createTable (dialect : Dialect) (mapping : Mapping) : Except MappingFault Statement := do
  let text ← dialect.createTable mapping mapping.schema
  return ⟨text, [], .createTable (tableOf mapping) mapping.id.column
    (mapping.properties.filterMap columnSpec?)⟩

def dropTable (mapping : Mapping) : Statement :=
  ⟨Dialect.dropTable mapping mapping.schema, [], .dropTable (tableOf mapping)⟩

/-- Creates the sequence of a mapping, if it has one and the dialect has sequences. -/
def createSequence? (dialect : Dialect) (mapping : Mapping) : Option Statement := do
  let sequence ← mapping.id.sequence
  let text ← dialect.createSequence sequence mapping.schema
  return ⟨text, [], .createSequence ⟨mapping.schema, sequence⟩⟩

def dropSequence? (dialect : Dialect) (mapping : Mapping) : Option Statement := do
  let sequence ← mapping.id.sequence
  let text ← dialect.dropSequence sequence mapping.schema
  return ⟨text, [], .dropSequence ⟨mapping.schema, sequence⟩⟩

/-- The statements that create what a mapping needs: its table, then its sequence. -/
def creation (dialect : Dialect) (mapping : Mapping) : Except MappingFault (List Statement) := do
  let table ← createTable dialect mapping
  return table :: (createSequence? dialect mapping).toList

/-- The statements that drop what belongs to a mapping. -/
def removal (dialect : Dialect) (mapping : Mapping) : List Statement :=
  dropTable mapping :: (dropSequence? dialect mapping).toList

/-- Draws from a sequence, which is named without a schema. -/
def nextValue? (dialect : Dialect) (sequence : String) : Option Statement :=
  (dialect.nextSequenceValue sequence).map fun text => ⟨text, [], .nextValue ⟨none, sequence⟩⟩

/-- Asks which schema unqualified names mean. -/
def defaultSchema? (dialect : Dialect) : Option Statement :=
  dialect.defaultSchemaQuery.map fun text => ⟨text, [], .defaultSchema⟩

end Statement

end EntityStore
