/-
The registry of entity types. Types are defined in batches, so that they may refer to
each other; a batch with a fault defines nothing, and a definition is for good.
-/

import EntityStore.Error
import EntityStore.Query.Parser

set_option autoImplicit false

namespace EntityStore

/-- The mappings of the defined entity types in the order of definition. -/
structure Registry where
  mappings : List Mapping := []
  deriving DecidableEq, Repr

/-- A name and what is written about its mapping. -/
abbrev Definition := String × MappingSpec

namespace Mapping

def buildAll (isKnown : String → Bool) : List Definition → Except Error (List Mapping)
  | [] => return []
  | definition :: rest => do
      let mapping ← (build definition.1 definition.2 isKnown).mapError (.mapping definition.1)
      let mappings ← buildAll isKnown rest
      return mapping :: mappings

/-- Checks that the query of a collection can be read, given the entity types that
it may name. -/
def checkCollection (mapping : Mapping) (find : String → Option Mapping)
    (relation : CollectionRelation) : Except Error Unit :=
  match Query.parse find relation.query with
  | .ok _ => .ok ()
  | .error fault => .error (.mapping mapping.entity (.collectionQuery relation.name fault))

def checkCollections (find : String → Option Mapping) (mappings : List Mapping) :
    Except Error Unit :=
  mappings.forM fun mapping =>
    mapping.collectionRelations.forM (mapping.checkCollection find)

end Mapping

namespace Registry

def names (registry : Registry) : List String := registry.mappings.map Mapping.entity

def contains (registry : Registry) (entity : String) : Bool :=
  registry.names.contains entity

def mapping? (registry : Registry) (entity : String) : Option Mapping :=
  registry.mappings.find? fun mapping => mapping.entity == entity

/-- The first name that is taken, by the names given or by an earlier one of its own
list. -/
def repeated? (taken : List String) : List String → Option String
  | [] => none
  | name :: rest =>
      if taken.contains name then some name else repeated? (name :: taken) rest

def append (registry : Registry) (mappings : List Mapping) : Registry :=
  ⟨registry.mappings ++ mappings⟩

def define (registry : Registry) (batch : List Definition) :
    Except Error (List Mapping × Registry) := do
  let names := batch.map Prod.fst
  match repeated? registry.names names with
  | some name => throw (.mapping name .alreadyDefined)
  | none =>
      let mappings ← Mapping.buildAll
        (fun target => registry.contains target || names.contains target) batch
      let extended := registry.append mappings
      Mapping.checkCollections extended.mapping? mappings
      return (mappings, extended)

end Registry

end EntityStore
