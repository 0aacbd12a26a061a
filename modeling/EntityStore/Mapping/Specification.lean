/-
The specification of a mapping: what would have to be written down for it. Columns
and nullability are stated in full; defaults are left out, since they do not show in
the table of an entity type once it exists.
-/

import EntityStore.Mapping.Basic

set_option autoImplicit false

namespace EntityStore

namespace Property

def specification : Property → PropertySpec
  | scalar property => .detailed {
      kind := property.type.name
      column := some property.column
      nullable := some property.nullable
      length := property.length }
  | object relation => .detailed
      (((PropertyOptions.object relation.target).withColumn relation.column).withNullable
        relation.nullable)
  | collection relation => .detailed (.collection relation.query)

def withoutDefault : Property → Property
  | scalar property => scalar { property with default := none }
  | other => other

end Property

namespace Mapping

def specification (mapping : Mapping) : MappingSpec where
  table := some mapping.table
  schema := mapping.schema
  id := some { column := some mapping.id.column, sequence := mapping.id.sequence }
  properties := mapping.properties.map fun property => (property.name, property.specification)

def withoutDefaults (mapping : Mapping) : Mapping :=
  { mapping with properties := mapping.properties.map Property.withoutDefault }

end Mapping

end EntityStore
