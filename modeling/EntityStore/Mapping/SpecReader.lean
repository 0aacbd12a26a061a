/-
Reading specifications from JSON text. The text is read once from the left and the
first problem decides: text that ends early, text that is not JSON, or JSON that is
no specification. The value of one property is read as a whole before it is looked
at. A structure may also be written as an array of its fields in order.
-/

import EntityStore.Json.Reader
import EntityStore.Mapping.Spec

set_option autoImplicit false

namespace EntityStore
namespace SpecReader

open Json (Fault Reader)
open Json.Reader

/-! ### Properties, from documents -/

def optional {α : Type} (convert : Json → Option α) : Json → Option (Option α)
  | .null => some none
  | document => (convert document).map some

def asString : Json → Option String
  | .string content => some content
  | _ => none

def asBoolean : Json → Option Bool
  | .boolean flag => some flag
  | _ => none

/-- An unsigned integer of thirty-two bits. -/
def asLength : Json → Option Nat
  | .number (.integer number) =>
      if 0 ≤ number && number < 0x100000000 then some number.toNat else none
  | _ => none

structure OptionsDraft where
  kind : Option String := none
  column : Option (Option String) := none
  nullable : Option (Option Bool) := none
  length : Option (Option Nat) := none
  default : Option (Option Json) := none
  entity : Option (Option String) := none
  query : Option (Option String) := none

def OptionsDraft.finish (draft : OptionsDraft) : Option PropertyOptions :=
  draft.kind.map fun kind =>
    { kind := kind
      column := draft.column.getD none
      nullable := draft.nullable.getD none
      length := draft.length.getD none
      default := draft.default.getD none
      entity := draft.entity.getD none
      query := draft.query.getD none }

def once {α : Type} (present : Option α) (value : Option α) : Option (Option α) :=
  match present, value with
  | none, some content => some (some content)
  | _, _ => none

/-- Reads one named field of a property. -/
def OptionsDraft.field (draft : OptionsDraft) (name : String) (document : Json) :
    Option OptionsDraft :=
  if name = "type" then
    (once draft.kind (asString document)).map ({ draft with kind := · })
  else if name = "column" then
    (once draft.column (optional asString document)).map ({ draft with column := · })
  else if name = "nullable" then
    (once draft.nullable (optional asBoolean document)).map ({ draft with nullable := · })
  else if name = "length" then
    (once draft.length (optional asLength document)).map ({ draft with length := · })
  else if name = "default" then
    (once draft.default (optional some document)).map ({ draft with default := · })
  else if name = "entity" then
    (once draft.entity (optional asString document)).map ({ draft with entity := · })
  else if name = "query" then
    (once draft.query (optional asString document)).map ({ draft with query := · })
  else none

/-- The fields of a property in the order in which an array gives them. -/
def optionNames : List String :=
  ["type", "column", "nullable", "length", "default", "entity", "query"]

def fields (draft : OptionsDraft) (members : List (String × Json)) : Option OptionsDraft :=
  members.foldlM (fun current member => current.field member.1 member.2) draft

def property : Json → Option PropertySpec
  | .string kind => some (.bare kind)
  | .object members => (fields {} members).bind fun draft => draft.finish.map .detailed
  | .array items =>
      if items.length ≤ optionNames.length then
        (fields {} (optionNames.zip items)).bind fun draft => draft.finish.map .detailed
      else none
  | _ => none

/-! ### Mappings, from text -/

def optionalValue {α : Type} (reader : Reader α) : Reader (Option α) := do
  match ← peek with
  | some 'n' => do
      skip
      word ['u', 'l', 'l']
      return none
  | _ => return some (← reader)

def stringValue : Reader String := do
  match ← peek with
  | some '"' => do
      skip
      string
  | _ => unfitting

/-- The members of an object in order, repeated names included. The first argument
bounds their number. -/
def entries {α : Type} (reader : Reader α) : Nat → Bool → Reader (List (String × α))
  | 0, _ => fail .malformed
  | steps + 1, first => do
      if ← moreMembers first then
        let name ← string
        colon
        let content ← reader
        return (name, content) :: (← entries reader steps false)
      else return []

/-- An object with members of one form. -/
def ordered {α : Type} (reader : Reader α) : Reader (List (String × α)) := do
  match ← peek with
  | some '\x7b' => do
      skip
      let bound := (← get).length
      let members ← entries reader (bound + 1) true
      skip
      return members
  | _ => unfitting

/-- Reads the members of a structure into a draft; `field` refuses names that are
unknown or already read before their values are looked at. -/
def members {α : Type} (field : α → String → Option (Reader α)) :
    Nat → Bool → α → Reader α
  | 0, _, _ => fail .malformed
  | steps + 1, first, draft => do
      if ← moreMembers first then
        let name ← string
        match field draft name with
        | none => fail .unfitting
        | some reader => do
            colon
            let extended ← reader
            members field steps false extended
      else return draft

/-- Reads the items of an array as the fields of a structure in order. -/
def items {α : Type} (field : α → String → Option (Reader α)) :
    List String → Bool → α → Reader α
  | [], _, draft => return draft
  | name :: names, first, draft => do
      if ← moreItems first then
        match field draft name with
        | none => fail .unfitting
        | some reader => do
            let extended ← reader
            items field names false extended
      else return draft

/-- A structure, written as an object or as an array. -/
def record {α : Type} (names : List String) (field : α → String → Option (Reader α))
    (empty : α) : Reader α := do
  match ← peek with
  | some '\x7b' => do
      skip
      let bound := (← get).length
      let draft ← members field (bound + 1) true empty
      skip
      return draft
  | some '[' => do
      skip
      let draft ← items field names true empty
      endArray
      return draft
  | _ => unfitting

structure IdDraft where
  column : Option (Option String) := none
  sequence : Option (Option String) := none

def IdDraft.field (draft : IdDraft) (name : String) : Option (Reader IdDraft) :=
  if name = "column" && draft.column.isNone then
    some do
      let column ← optionalValue stringValue
      return { draft with column := some column }
  else if name = "sequence" && draft.sequence.isNone then
    some do
      let sequence ← optionalValue stringValue
      return { draft with sequence := some sequence }
  else none

def idSpec : Reader IdSpec := do
  let draft ← record ["column", "sequence"] IdDraft.field {}
  return { column := draft.column.getD none, sequence := draft.sequence.getD none }

/-- The deepest nesting inside the value of a property, given the levels of arrays
and objects around it. -/
def propertyDepth (around : Nat) : Nat := Json.nestingLimit - around

/-- The value of a property: read whole, then looked at. -/
def propertyValue (around : Nat) : Reader PropertySpec := do
  let document ← Json.Reader.value (propertyDepth around)
  match property document with
  | some spec => return spec
  | none => fail .unfitting

structure MappingDraft where
  table : Option (Option String) := none
  schema : Option (Option String) := none
  id : Option (Option IdSpec) := none
  properties : Option (List (String × PropertySpec)) := none

def MappingDraft.field (around : Nat) (draft : MappingDraft) (name : String) :
    Option (Reader MappingDraft) :=
  if name = "table" && draft.table.isNone then
    some do
      let table ← optionalValue stringValue
      return { draft with table := some table }
  else if name = "schema" && draft.schema.isNone then
    some do
      let schema ← optionalValue stringValue
      return { draft with schema := some schema }
  else if name = "id" && draft.id.isNone then
    some do
      let id ← optionalValue idSpec
      return { draft with id := some id }
  else if name = "properties" && draft.properties.isNone then
    some do
      let properties ← ordered (propertyValue (around + 2))
      return { draft with properties := some properties }
  else none

def mappingSpec (around : Nat) : Reader MappingSpec := do
  let draft ← record ["table", "schema", "id", "properties"] (MappingDraft.field around) {}
  return {
    table := draft.table.getD none
    schema := draft.schema.getD none
    id := draft.id.getD none
    properties := draft.properties.getD [] }

end SpecReader

namespace MappingSpec

def ofJson (text : String) : Except Json.Fault MappingSpec :=
  (SpecReader.mappingSpec 0).run text

/-- Reads an object of specifications by entity name, in the order of the text. -/
def setOfJson (text : String) : Except Json.Fault (List (String × MappingSpec)) :=
  (SpecReader.ordered (SpecReader.mappingSpec 1)).run text

end MappingSpec

end EntityStore
