/-
Specifications and mappings as documents. Everything that can be left out of a
specification is written as null.
-/

import EntityStore.Document.Values
import EntityStore.Mapping.Basic

set_option autoImplicit false

namespace EntityStore

/-! ### Specifications -/

namespace Json

mutual

/-- A document inside a document: arrays and objects say what they are, floats are
written by their bits, and the members of objects are sorted. -/
def labelled : Json → Json
  | .number (.float real) => real.toDocument
  | .array content => .object [("array", .array (labelledItems content))]
  | .object content =>
      .object [("object", ofList (ofPair id) (sortMembers (labelledMembers content)))]
  | other => other

def labelledItems : List Json → List Json
  | [] => []
  | item :: rest => item.labelled :: labelledItems rest

def labelledMembers : List (String × Json) → List (String × Json)
  | [] => []
  | (name, value) :: rest => (name, value.labelled) :: labelledMembers rest

end

end Json

def PropertySpec.toDocument : PropertySpec → Json
  | bare kind => .string kind
  | detailed options => .object [
      ("type", .string options.kind), ("column", .ofOption .string options.column),
      ("nullable", .ofOption .boolean options.nullable),
      ("length", .ofOption .ofNat options.length),
      ("default", .ofOption Json.labelled options.default),
      ("entity", .ofOption .string options.entity), ("query", .ofOption .string options.query)]

def IdSpec.toDocument (spec : IdSpec) : Json := .object [
  ("column", .ofOption .string spec.column), ("sequence", .ofOption .string spec.sequence)]

def MappingSpec.toDocument (spec : MappingSpec) : Json := .object [
  ("table", .ofOption .string spec.table), ("schema", .ofOption .string spec.schema),
  ("id", .ofOption IdSpec.toDocument spec.id),
  ("properties", .ofList (Json.ofPair PropertySpec.toDocument) spec.properties)]

/-! ### Mappings -/

def Property.toDocument : Property → Json
  | scalar property => .object [("kind", .string "scalar"), ("name", .string property.name),
      ("type", .string property.type.name), ("column", .string property.column),
      ("nullable", .boolean property.nullable), ("length", .ofOption .ofNat property.length),
      ("default", .ofOption (fun value => .array [value.toDocument]) property.default)]
  | object relation => .object [("kind", .string "object"), ("name", .string relation.name),
      ("column", .string relation.column), ("target", .string relation.target),
      ("nullable", .boolean relation.nullable)]
  | collection relation => .object [("kind", .string "collection"),
      ("name", .string relation.name), ("query", .string relation.query),
      ("placeholder", .string relation.placeholder)]

def Mapping.members (mapping : Mapping) : List (String × Json) := [
  ("entity", .string mapping.entity), ("table", .string mapping.table),
  ("schema", .ofOption .string mapping.schema),
  ("id", .object [("column", .string mapping.id.column),
    ("sequence", .ofOption .string mapping.id.sequence)]),
  ("properties", .ofList Property.toDocument mapping.properties),
  ("columns", .ofList .string mapping.columns),
  ("objects", .ofList (fun relation => .string relation.name) mapping.objectRelations),
  ("collections", .ofList (fun relation => .string relation.name) mapping.collectionRelations)]

def Mapping.toDocument (mapping : Mapping) : Json := .object mapping.members

end EntityStore
