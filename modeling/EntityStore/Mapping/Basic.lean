/-
Mappings: the checked description of how an entity type is stored. A property is a
plain column, a reference to one entity held as a foreign key, or a collection that
a query selects and that has no column. The checks are in `Mapping.build`; a mapping
that passed them has columns that differ even when letter case is ignored.
-/

import EntityStore.Mapping.Spec
import EntityStore.Query.Fault
import EntityStore.Scalar
import EntityStore.Text

set_option autoImplicit false

namespace EntityStore

/-- The name that always means the primary key. -/
def idProperty : String := "id"

structure IdMapping where
  column : String
  sequence : Option String
  deriving DecidableEq, Repr

structure ScalarProperty where
  name : String
  type : ScalarType
  column : String
  nullable : Bool
  length : Option Nat
  default : Option Value
  deriving DecidableEq, Repr

structure ObjectRelation where
  name : String
  column : String
  target : String
  nullable : Bool
  deriving DecidableEq, Repr

/-- The entities that a query selects; the placeholder stands for the owner's id. -/
structure CollectionRelation where
  name : String
  query : String
  placeholder : String
  deriving DecidableEq, Repr

inductive Property where
  | scalar (property : ScalarProperty)
  | object (relation : ObjectRelation)
  | collection (relation : CollectionRelation)
  deriving DecidableEq, Repr

namespace Property

def name : Property → String
  | scalar property => property.name
  | object relation => relation.name
  | collection relation => relation.name

def column? : Property → Option String
  | scalar property => some property.column
  | object relation => some relation.column
  | collection _ => none

def isCollection : Property → Bool
  | collection _ => true
  | _ => false

end Property

structure Mapping where
  entity : String
  table : String
  schema : Option String
  id : IdMapping
  properties : List Property
  deriving DecidableEq, Repr

namespace Mapping

def property? (mapping : Mapping) (name : String) : Option Property :=
  mapping.properties.find? fun property => property.name == name

/-- The properties that own a column, in declaration order. -/
def columnProperties (mapping : Mapping) : List Property :=
  mapping.properties.filter fun property => property.column?.isSome

def objectRelations (mapping : Mapping) : List ObjectRelation :=
  mapping.properties.filterMap fun
    | .object relation => some relation
    | _ => none

def collectionRelations (mapping : Mapping) : List CollectionRelation :=
  mapping.properties.filterMap fun
    | .collection relation => some relation
    | _ => none

/-- The column that a property name means, the primary key included. -/
def columnOf? (mapping : Mapping) (property : String) : Option String :=
  if property = idProperty then some mapping.id.column
  else (mapping.property? property).bind Property.column?

/-- The columns in table order: the primary key, then the properties. -/
def columns (mapping : Mapping) : List String :=
  mapping.id.column :: mapping.properties.filterMap Property.column?

end Mapping

inductive MappingFault where
  | blank (what : String)
  | reservedProperty
  | duplicateProperty (property : String)
  | duplicateColumn (column property : String)
  | objectWithQueryOrDefault (property : String)
  | objectWithoutEntity (property : String)
  | unknownTarget (property target : String)
  | collectionWithEntityOrDefault (property : String)
  | collectionWithoutQuery (property : String)
  | collectionQuery (property : String) (fault : QueryFault)
  | placeholderCount (property : String) (count : Nat)
  | unknownType (property type : String)
  | scalarWithEntityOrQuery (property : String)
  | structuredDefault (property : String)
  | noColumnType (type : ScalarType)
  | alreadyDefined
  deriving DecidableEq, Repr

/-- Why arrays and objects are refused as values of columns. -/
def structuredValueMessage : String := "arrays and objects are not column values"

def MappingFault.message : MappingFault → String
  | blank what => what ++ " must not be empty"
  | reservedProperty => "property '" ++ idProperty ++ "' is reserved for the primary key"
  | duplicateProperty property => "duplicate property '" ++ property ++ "'"
  | duplicateColumn column property =>
      "column '" ++ column ++ "' of property '" ++ property ++ "' is already mapped"
  | objectWithQueryOrDefault property =>
      "object relation '" ++ property ++ "' accepts no query or default"
  | objectWithoutEntity property => "object relation '" ++ property ++ "' needs an 'entity'"
  | unknownTarget property target =>
      "object relation '" ++ property ++ "' refers to unknown entity type '" ++ target ++ "'"
  | collectionWithEntityOrDefault property =>
      "collection '" ++ property
        ++ "' accepts no entity or default; its query selects the members"
  | collectionWithoutQuery property => "collection '" ++ property ++ "' needs a 'query'"
  | collectionQuery property fault => "collection '" ++ property ++ "': " ++ fault.message
  | placeholderCount property count =>
      "collection '" ++ property ++ "' query needs exactly one named placeholder, found "
        ++ toString count
  | unknownType property type =>
      "property '" ++ property ++ "': " ++ ScalarType.unknownMessage type
  | scalarWithEntityOrQuery property =>
      "scalar property '" ++ property ++ "' accepts no entity or query"
  | structuredDefault property => "property '" ++ property ++ "': " ++ structuredValueMessage
  | noColumnType type => "no native column type for '" ++ type.name ++ "'"
  | alreadyDefined => "entity type is already defined"

/-- The value of a column that a document stands for. Integers beyond sixty-four
signed bits become floats; arrays and objects stand for none. -/
def Value.ofJson? : Json → Option Value
  | .null => some .null
  | .boolean flag => some (.boolean flag)
  | .number (.integer number) =>
      if -0x8000000000000000 ≤ number && number < 0x8000000000000000 then some (.integer (Int64.ofInt number))
      else some (.float (Double.ofInt number))
  | .number (.float number) => some (.float number)
  | .string content => some (.text content)
  | .array _ => none
  | .object _ => none

namespace Mapping

/-! ### Building -/

/-- A name that is given must not be blank; one that is missing has a fallback. -/
def nameOr (given : Option String) (fallback what : String) : Except MappingFault String :=
  match given with
  | some name => if Text.isBlank name then .error (.blank what) else .ok name
  | none => .ok fallback

def buildObject (name column : String) (options : PropertyOptions)
    (isKnown : String → Bool) : Except MappingFault Property :=
  if options.query.isSome || options.default.isSome then
    .error (.objectWithQueryOrDefault name)
  else
    match options.entity with
    | none => .error (.objectWithoutEntity name)
    | some target =>
        if isKnown target then
          .ok (.object ⟨name, column, target, options.nullable.getD true⟩)
        else .error (.unknownTarget name target)

def buildCollection (name : String) (options : PropertyOptions) :
    Except MappingFault Property :=
  if options.entity.isSome || options.default.isSome then
    .error (.collectionWithEntityOrDefault name)
  else
    match options.query with
    | none => .error (.collectionWithoutQuery name)
    | some query =>
        match Token.namedParameters query with
        | .error fault => .error (.collectionQuery name (.lexical fault))
        | .ok [placeholder] => .ok (.collection ⟨name, query, placeholder⟩)
        | .ok names => .error (.placeholderCount name names.length)

def buildScalar (name column : String) (options : PropertyOptions) :
    Except MappingFault Property :=
  match ScalarType.ofName? options.kind with
  | none => .error (.unknownType name options.kind)
  | some type =>
      if options.entity.isSome || options.query.isSome then
        .error (.scalarWithEntityOrQuery name)
      else
        let nullable := options.nullable.getD true
        match options.default with
        | none => .ok (.scalar ⟨name, type, column, nullable, options.length, none⟩)
        | some document =>
            match Value.ofJson? document with
            | none => .error (.structuredDefault name)
            | some value =>
                .ok (.scalar ⟨name, type, column, nullable, options.length, some value⟩)

def buildProperty (name : String) (options : PropertyOptions) (isKnown : String → Bool) :
    Except MappingFault Property :=
  match nameOr options.column name "column name" with
  | .error fault => .error fault
  | .ok column =>
      if options.kind = "object" then buildObject name column options isKnown
      else if options.kind = "collection" then buildCollection name options
      else buildScalar name column options

/-- Checks a property against the names and the lower-cased columns before it. -/
def accept (name : String) (options : PropertyOptions) (isKnown : String → Bool)
    (taken columns : List String) : Except MappingFault Property :=
  if Text.isBlank name then .error (.blank "property name")
  else if name = idProperty then .error .reservedProperty
  else if taken.contains name then .error (.duplicateProperty name)
  else
    match buildProperty name options isKnown with
    | .error fault => .error fault
    | .ok property =>
        match property.column? with
        | none => .ok property
        | some column =>
            if columns.contains (Text.lower column) then .error (.duplicateColumn column name)
            else .ok property

def buildProperties (isKnown : String → Bool) :
    List (String × PropertySpec) → List String → List String →
      Except MappingFault (List Property)
  | [], _, _ => .ok []
  | (name, spec) :: rest, taken, columns =>
      match accept name spec.options isKnown taken columns with
      | .error fault => .error fault
      | .ok property =>
          let used := match property.column? with
            | none => columns
            | some column => Text.lower column :: columns
          match buildProperties isKnown rest (name :: taken) used with
          | .error fault => .error fault
          | .ok properties => .ok (property :: properties)

def checkSchema (schema : Option String) : Except MappingFault (Option String) :=
  if schema.any Text.isBlank then .error (.blank "schema name") else .ok schema

/-- The primary key; a blank sequence counts as none. -/
def buildId (spec : IdSpec) : Except MappingFault IdMapping :=
  match nameOr spec.column "id" "id column" with
  | .error fault => .error fault
  | .ok column => .ok ⟨column, spec.sequence.filter fun name => !Text.isBlank name⟩

/-- Checks a specification and builds the mapping of an entity type. `isKnown` says
which entity types relations may refer to. -/
def build (entity : String) (spec : MappingSpec) (isKnown : String → Bool) :
    Except MappingFault Mapping := do
  if Text.isBlank entity then throw (.blank "entity name")
  let table ← nameOr spec.table entity "table name"
  let schema ← checkSchema spec.schema
  let id ← buildId (spec.id.getD {})
  let properties ← buildProperties isKnown spec.properties [] [Text.lower id.column]
  return ⟨entity, table, schema, id, properties⟩

end Mapping

end EntityStore
