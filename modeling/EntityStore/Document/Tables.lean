/-
Tables as documents, so that they can be kept in a file: an array of tables, each an
object with its name, its columns and its rows.
-/

import EntityStore.Document.Values
import EntityStore.Tables.Basic

set_option autoImplicit false

namespace EntityStore

namespace ColumnSpec

def toDocument (column : ColumnSpec) : Json := .array [.string column.name,
  .boolean column.nullable, .ofOption (fun value => .array [value.toDocument]) column.default]

def ofDocument (document : Json) : ColumnSpec where
  name := (document.item 0).text
  nullable := (document.item 1).flag
  default := (document.item 2).items.head?.map Value.ofDocument

end ColumnSpec

namespace Table

def rowDocument (entry : Int64 × Row) : Json :=
  .array [Json.integer entry.1.toInt, entry.2.toDocument]

def toDocument (table : Table) : Json := .object [
  ("name", .string table.name), ("id", .string table.idColumn),
  ("columns", .ofList ColumnSpec.toDocument table.columns),
  ("rows", .ofList rowDocument table.rows), ("last", Json.integer table.lastId.toInt)]

def ofDocument (document : Json) : Table where
  name := (document.field "name").text
  idColumn := (document.field "id").text
  columns := (document.field "columns").items.map ColumnSpec.ofDocument
  rows := (document.field "rows").items.map fun entry =>
    ((Key.idOfDocument (entry.item 0)).getD 0, Row.ofDocument (entry.item 1))
  lastId := (Key.idOfDocument (document.field "last")).getD 0

end Table

namespace Tables

def toDocument (tables : Tables) : Json := .ofList Table.toDocument tables.list

def ofDocument (document : Json) : Tables := ⟨document.items.map Table.ofDocument⟩

end Tables

end EntityStore
