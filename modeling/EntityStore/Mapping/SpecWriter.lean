/-
Writing mapping files. A file is an object with a member for each entity type; what is
not stated is left out, and a property of which only the type is stated is written as
the name of that type.
-/

import EntityStore.Json.Access
import EntityStore.Json.Printer
import EntityStore.Mapping.Spec

set_option autoImplicit false

namespace EntityStore

def Json.optional {α : Type} (name : String) (write : α → Json) (content : Option α) :
    List (String × Json) :=
  (content.map fun content => (name, write content)).toList

def PropertySpec.toJson : PropertySpec → Json
  | bare kind => .string kind
  | detailed options => .object (("type", .string options.kind)
      :: Json.optional "column" .string options.column
      ++ Json.optional "nullable" .boolean options.nullable
      ++ Json.optional "length" .ofNat options.length
      ++ Json.optional "default" id options.default
      ++ Json.optional "entity" .string options.entity
      ++ Json.optional "query" .string options.query)

def IdSpec.toJson (spec : IdSpec) : Json := .object
  (Json.optional "column" .string spec.column ++ Json.optional "sequence" .string spec.sequence)

namespace MappingSpec

def toJson (spec : MappingSpec) : Json := .object
  (Json.optional "table" .string spec.table
    ++ Json.optional "schema" .string spec.schema
    ++ Json.optional "id" IdSpec.toJson spec.id
    ++ [("properties", .object (spec.properties.map fun entry => (entry.1, entry.2.toJson)))])

def fileText (specs : List (String × MappingSpec)) : String :=
  (Json.object (specs.map fun entry => (entry.1, entry.2.toJson))).pretty 0

end MappingSpec

end EntityStore
