/-
The dialects of three databases. One has neither sequences nor booleans, one has
both, one has sequences and pages by row numbers.
-/

import EntityStore.Error

set_option autoImplicit false

namespace EntityStore
namespace Dialect

def unsized (sqlName : String) : Option ColumnType := some ⟨sqlName, none⟩

def sized (sqlName : String) (length : Nat) : Option ColumnType := some ⟨sqlName, some length⟩

def sqliteType : ScalarType → Option ColumnType
  | .integer => unsized "INTEGER"
  | .long => unsized "BIGINT"
  | .short => unsized "SMALLINT"
  | .float => unsized "FLOAT"
  | .double => unsized "DOUBLE"
  | .character => sized "CHAR" 1
  | .string => sized "VARCHAR" 4000
  | .byte => unsized "TINYINT"
  | .boolean => unsized "BOOLEAN"
  | .date => unsized "DATE"
  | .time => unsized "TIME"
  | .timestamp => unsized "TIMESTAMP"
  | .binary => unsized "BLOB"
  | .text => unsized "TEXT"

def postgresType : ScalarType → Option ColumnType
  | .integer => unsized "integer"
  | .long => unsized "bigint"
  | .short => unsized "smallint"
  | .float => unsized "real"
  | .double => unsized "double precision"
  | .character => sized "char" 1
  | .string => sized "varchar" 4000
  | .byte => unsized "smallint"
  | .boolean => unsized "boolean"
  | .date => unsized "date"
  | .time => unsized "time"
  | .timestamp => unsized "timestamp"
  | .binary => unsized "bytea"
  | .text => unsized "text"

def oracleType : ScalarType → Option ColumnType
  | .integer => unsized "number(10,0)"
  | .long => unsized "number(19,0)"
  | .short => unsized "number(5,0)"
  | .float => unsized "float"
  | .double => unsized "double precision"
  | .character => unsized "char(1 char)"
  | .string => sized "varchar2" 4000
  | .byte => unsized "number(3,0)"
  | .boolean => unsized "number(1,0)"
  | .date => unsized "date"
  | .time => unsized "date"
  | .timestamp => unsized "timestamp"
  | .binary => unsized "blob"
  | .text => unsized "clob"

def booleanAsNumber (flag : Bool) : Value := .integer (if flag then 1 else 0)

def createSequenceText (sequence : String) (schema : Option String) : Option String :=
  some ("CREATE SEQUENCE " ++ Sql.qualified schema sequence)

def dropSequenceText (sequence : String) (schema : Option String) : Option String :=
  some ("DROP SEQUENCE " ++ Sql.qualified schema sequence)

/-- Ids are generated by the table, booleans are numbers, and an offset needs a
limit in front of it. -/
def sqlite : Dialect where
  name := "sqlite"
  columnType := sqliteType
  limit := .limit
  offset := .unlimitedOffset
  range offset limit := .limitOffset limit offset
  idColumn column _ := Sql.quote column ++ " INTEGER PRIMARY KEY AUTOINCREMENT"
  booleanValue := booleanAsNumber

/-- Markers are numbered from one; ids come from a sequence or a serial column. -/
def postgres : Dialect where
  name := "postgres"
  columnType := postgresType
  placeholder index := "$" ++ toString (index + 1)
  limit := .limit
  offset := .offset
  range offset limit := .limitOffset limit offset
  hasSequences := true
  nextSequenceValue sequence :=
    some ("SELECT nextval(" ++ Sql.textLiteral (Sql.quote sequence) ++ ")")
  createSequence := createSequenceText
  dropSequence := dropSequenceText
  idColumn column usesSequence :=
    Sql.quote column ++ (if usesSequence then " bigint" else " bigserial") ++ " PRIMARY KEY"
  defaultSchemaQuery := some "SELECT current_schema()"

/-- Markers are numbered from one, booleans are numbers, and pages are cut by row
numbers of a subquery. -/
def oracle : Dialect where
  name := "oracle"
  columnType := oracleType
  placeholder index := ":" ++ toString (index + 1)
  limit := .firstNumbered
  offset := .afterNumber
  range offset limit := .betweenNumbers offset (Paging.saturatingSum offset limit)
  hasSequences := true
  nextSequenceValue sequence :=
    some ("SELECT " ++ Sql.quote sequence ++ ".NEXTVAL FROM DUAL")
  createSequence := createSequenceText
  dropSequence := dropSequenceText
  idColumn column _ := Sql.quote column ++ " number(19,0) PRIMARY KEY"
  defaultSchemaQuery := some "SELECT sys_context('USERENV', 'CURRENT_SCHEMA') FROM DUAL"
  booleanValue := booleanAsNumber

def ofName? (name : String) : Option Dialect :=
  let lowered := Text.lower name
  if lowered = "sqlite" then some sqlite
  else if lowered = "postgres" || lowered = "postgresql" then some postgres
  else if lowered = "oracle" then some oracle
  else none

def named (name : String) : Except Error Dialect :=
  match ofName? name with
  | some dialect => .ok dialect
  | none => .error (.invalidState (.unknownDialect (Text.lower name)))

end Dialect
end EntityStore
