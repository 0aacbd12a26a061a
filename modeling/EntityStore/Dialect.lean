/-
Dialects: everything that differs between databases. A dialect supplies column types,
markers, paging and sequences; identifiers, names and literals are written the same
way for all of them.
-/

import EntityStore.Mapping.Basic
import EntityStore.Paging
import EntityStore.Sql

set_option autoImplicit false

namespace EntityStore

/-- A column type of a database. The default length is written behind the name when
a mapping gives none. -/
structure ColumnType where
  sqlName : String
  defaultLength : Option Nat
  deriving DecidableEq, Repr

structure Dialect where
  name : String
  columnType : ScalarType → Option ColumnType
  /-- The marker of a parameter, by its number from zero. -/
  placeholder : Nat → String := fun _ => "?"
  limit : UInt64 → Paging
  offset : UInt64 → Paging
  /-- Offset, then limit. -/
  range : UInt64 → UInt64 → Paging
  /-- Whether ids can be drawn from sequences. -/
  hasSequences : Bool := false
  nextSequenceValue : String → Option String := fun _ => none
  createSequence : String → Option String → Option String := fun _ _ => none
  dropSequence : String → Option String → Option String := fun _ _ => none
  /-- The definition of the primary key column; the flag tells whether ids come from
  a sequence. -/
  idColumn : String → Bool → String
  /-- The query for the schema that unqualified names mean. -/
  defaultSchemaQuery : Option String := none
  booleanValue : Bool → Value := .boolean

namespace Dialect

def stored (dialect : Dialect) : Value → Value
  | .boolean flag => dialect.booleanValue flag
  | other => other

/-- The form for whichever of limit and offset are given; an offset of zero skips
nothing. -/
def paging (dialect : Dialect) (page : Page) : Paging :=
  match page.limit, page.offset with
  | some limit, some offset =>
      if 0 < offset then dialect.range offset limit else dialect.limit limit
  | some limit, none => dialect.limit limit
  | none, some offset => if 0 < offset then dialect.offset offset else .whole
  | none, none => .whole

def columnDefinition (dialect : Dialect) (type : ScalarType) (length : Option Nat) :
    Except MappingFault String :=
  match dialect.columnType type with
  | none => .error (.noColumnType type)
  | some column =>
      match length <|> column.defaultLength with
      | some size => .ok (column.sqlName ++ "(" ++ toString size ++ ")")
      | none => .ok column.sqlName

def hexDigit (nibble : Nat) : Char :=
  if nibble < 10 then Char.ofNat (nibble + 48) else Char.ofNat (nibble + 55)

def hexText (content : List UInt8) : List Char :=
  content.flatMap fun byte => [hexDigit (byte.toNat / 16), hexDigit (byte.toNat % 16)]

/-- A value that is not a boolean as a literal. -/
def plainLiteral : Value → String
  | .null => "NULL"
  | .boolean flag => if flag then "TRUE" else "FALSE"
  | .integer number => toString number.toInt
  | .float number => number.text .plain
  | .text content => Sql.textLiteral content
  | .bytes content => String.ofList (['X', '\''] ++ hexText content ++ ['\''])

/-- A value as a literal, for the defaults of columns. -/
def literal (dialect : Dialect) (value : Value) : String :=
  plainLiteral (dialect.stored value)

/-! ### Tables -/

def propertyColumn (dialect : Dialect) : Property → Except MappingFault (Option String)
  | .scalar property => do
      let type ← dialect.columnDefinition property.type property.length
      let default := match property.default with
        | some value => " DEFAULT " ++ dialect.literal value
        | none => ""
      let mandatory := if property.nullable then "" else " NOT NULL"
      return some (Sql.quote property.column ++ " " ++ type ++ default ++ mandatory)
  | .object relation => do
      let type ← dialect.columnDefinition .long none
      let mandatory := if relation.nullable then "" else " NOT NULL"
      return some (Sql.quote relation.column ++ " " ++ type ++ mandatory)
  | .collection _ => return none

def propertyColumns (dialect : Dialect) :
    List Property → Except MappingFault (List String)
  | [] => return []
  | property :: rest => do
      let definition ← dialect.propertyColumn property
      let definitions ← dialect.propertyColumns rest
      return definition.toList ++ definitions

/-- Whether the ids of a mapping come from a sequence. -/
def drawsIds (dialect : Dialect) (mapping : Mapping) : Bool :=
  mapping.id.sequence.isSome && dialect.hasSequences

def createTable (dialect : Dialect) (mapping : Mapping) (schema : Option String) :
    Except MappingFault String := do
  let columns ← dialect.propertyColumns mapping.properties
  let id := dialect.idColumn mapping.id.column (dialect.drawsIds mapping)
  return "CREATE TABLE " ++ Sql.qualified schema mapping.table ++ " ("
    ++ Sql.commaSeparated (id :: columns) ++ ")"

def dropTable (mapping : Mapping) (schema : Option String) : String :=
  "DROP TABLE " ++ Sql.qualified schema mapping.table

end Dialect

end EntityStore
