/-
Specifications of mappings: what a user writes down about the table of an entity
type, before anything is checked. Properties keep their order, and repeated names
are kept so that the definition can reject them.
-/

import EntityStore.Json.Basic

set_option autoImplicit false

namespace EntityStore

structure PropertyOptions where
  kind : String
  column : Option String := none
  nullable : Option Bool := none
  length : Option Nat := none
  default : Option Json := none
  entity : Option String := none
  query : Option String := none
  deriving Repr

/-- A property, written as the bare name of a type or with options. -/
inductive PropertySpec where
  | bare (kind : String)
  | detailed (options : PropertyOptions)
  deriving Repr

def PropertySpec.options : PropertySpec → PropertyOptions
  | bare kind => { kind := kind }
  | detailed options => options

structure IdSpec where
  column : Option String := none
  sequence : Option String := none
  deriving DecidableEq, Repr

structure MappingSpec where
  table : Option String := none
  schema : Option String := none
  id : Option IdSpec := none
  properties : List (String × PropertySpec) := []
  deriving Repr

namespace PropertyOptions

def object (entity : String) : PropertyOptions :=
  { kind := "object", entity := some entity }

def collection (query : String) : PropertyOptions :=
  { kind := "collection", query := some query }

def withColumn (options : PropertyOptions) (column : String) : PropertyOptions :=
  { options with column := some column }

def withNullable (options : PropertyOptions) (nullable : Bool) : PropertyOptions :=
  { options with nullable := some nullable }

def withLength (options : PropertyOptions) (length : Nat) : PropertyOptions :=
  { options with length := some length }

def withDefault (options : PropertyOptions) (value : Json) : PropertyOptions :=
  { options with default := some value }

end PropertyOptions

namespace MappingSpec

def withTable (spec : MappingSpec) (table : String) : MappingSpec :=
  { spec with table := some table }

def withSchema (spec : MappingSpec) (schema : String) : MappingSpec :=
  { spec with schema := some schema }

def withIdColumn (spec : MappingSpec) (column : String) : MappingSpec :=
  { spec with id := some { spec.id.getD {} with column := some column } }

def withSequence (spec : MappingSpec) (sequence : String) : MappingSpec :=
  { spec with id := some { spec.id.getD {} with sequence := some sequence } }

def withProperty (spec : MappingSpec) (name : String) (property : PropertySpec) :
    MappingSpec :=
  { spec with properties := spec.properties ++ [(name, property)] }

end MappingSpec

end EntityStore
