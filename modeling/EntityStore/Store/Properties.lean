/-
Properties of instances. Reading a property takes the assigned value if there is one
and loads the row otherwise; assigned values are checked only when they are saved.
-/

import EntityStore.Store.Reading

set_option autoImplicit false

namespace EntityStore

def Instance.property (subject : Instance) (name : String) : Except Error Property :=
  match subject.mapping.property? name with
  | some property => .ok property
  | none => .error (.unknownProperty subject.entity name)

/-- A removed or vanished instance cannot be read. -/
def Instance.checkUsable (subject : Instance) : Except Error Unit :=
  if subject.state = .removed then .error (.invalidState (.removed subject.key))
  else if subject.vanished then .error (.notFound subject.key)
  else .ok ()

def Instance.isNew (subject : Instance) : Bool := subject.state = .transient

namespace Store

variable {World : Type}

def change (subject : InstanceId) (edit : Instance → Instance) : Operation World Unit :=
  modify (modifyInstance edit subject)

/-- The row of an instance, loaded if it is not in memory. An instance whose row is
missing has vanished for good. -/
def rowOf (session : Session World) (subject : InstanceId) : Operation World Row := do
  let content := (← get).instanceAt subject
  if content.vanished then throw (.notFound content.key)
  match content.row with
  | some row => return row
  | none =>
      match ← loadRow session content.mapping content.key with
      | some row =>
          change subject fun current => { current with row := some row }
          return row
      | none =>
          change subject fun current => { current with vanished := true }
          throw (.notFound content.key)

def columnOf (session : Session World) (subject : InstanceId) (column : String) :
    Operation World Value := do
  let row ← rowOf session subject
  return (row.get? column).getD .null

def idValue (store : Store World) (subject : InstanceId) : Value :=
  match (store.instanceAt subject).key.id with
  | some id => .integer id
  | none => .null

def readScalar (session : Session World) (subject : InstanceId) (property : ScalarProperty) :
    Operation World Value := do
  let store ← get
  let content := store.instanceAt subject
  match content.pending.lookup property.name with
  | some (.value value) => return value
  | some .cleared => return .null
  | some (.entity other) =>
      throw (.typeMismatch content.entity property.name property.type.name
        ("entity " ++ (store.instanceAt other).entity))
  | none =>
      if content.isNew then return property.default.getD .null
      else
        let value ← columnOf session subject property.column
        return property.type.normalize value

/-- Reads a relation as the id that it holds. -/
def readReference (session : Session World) (subject : InstanceId)
    (relation : ObjectRelation) : Operation World Value := do
  let store ← get
  let content := store.instanceAt subject
  match content.pending.lookup relation.name with
  | some (.entity other) => return store.idValue other
  | some (.value value) => return value
  | some .cleared => return .null
  | none =>
      if content.isNew then return .null
      else columnOf session subject relation.column

/-- Reads a property; `id` means the primary key. -/
def read (session : Session World) (subject : InstanceId) (name : String) :
    Operation World Value := do
  let content := (← get).instanceAt subject
  if name = idProperty then return (← get).idValue subject
  let property ← settleOutcome (content.property name)
  settleOutcome content.checkUsable
  match property with
  | .collection _ => throw (.invalidState (.readsCollection content.entity name))
  | .scalar property => readScalar session subject property
  | .object relation => readReference session subject relation

/-- Creates an instance of a defined type for an id, without reading anything. -/
def reference (entity : String) (id : Int64) : Operation World InstanceId := do
  let mapping ← entityType entity
  remember (Instance.reference (← get).id mapping id)

/-- The instance that a relation refers to: the assigned one, or a new one for the id
that the row holds. Its own row is not read. -/
def readObject (session : Session World) (subject : InstanceId) (name : String) :
    Operation World (Option InstanceId) := do
  let content := (← get).instanceAt subject
  match ← settleOutcome (content.property name) with
  | .object relation =>
      settleOutcome content.checkUsable
      match content.pending.lookup name with
      | some (.entity other) => return some other
      | some .cleared => return none
      | some (.value .null) => return none
      | some (.value value) =>
          throw (.typeMismatch content.entity name relation.target value.kind)
      | none =>
          if content.isNew then return none
          else
            match (← columnOf session subject relation.column).integer? with
            | none => return none
            | some id => return some (← reference relation.target id)
  | _ => throw (.invalidState (.notObject content.entity name))

/-- Reads the members of a collection and keeps them on the instance until a write
affects it. An instance without id has no members. -/
def readCollection (session : Session World) (subject : InstanceId) (name : String) :
    Operation World (List InstanceId) := do
  let content := (← get).instanceAt subject
  match ← settleOutcome (content.property name) with
  | .collection relation =>
      settleOutcome content.checkUsable
      match content.collections.lookup name, content.key.id with
      | some members, _ => return members
      | none, none => return []
      | none, some id =>
          let prepared ← prepare relation.query
          let members ← run session prepared (.named [(relation.placeholder, .integer id)]) {}
          change subject fun current =>
            { current with collections := Row.place name members current.collections }
          modify (registerOwner content.key subject)
          return members
  | _ => throw (.invalidState (.notCollection content.entity name))

def assign (subject : InstanceId) (name : String) (value : PropertyValue) :
    Operation World Unit := do
  let content := (← get).instanceAt subject
  if name = idProperty then throw (.invalidState .idAssigned)
  match ← settleOutcome (content.property name) with
  | .collection _ => throw (.invalidState (.writesCollection content.entity name))
  | _ =>
      if content.state = .removed then throw (.invalidState (.removed content.key))
      change subject fun current => current.assign name value

def clear (subject : InstanceId) (name : String) : Operation World Unit :=
  assign subject name .cleared

def forgetCollections (subject : InstanceId) : Operation World Unit :=
  change subject fun current => { current with collections := [] }

def assignAll (subject : InstanceId) : List (String × PropertyValue) → Operation World Unit
  | [] => return ()
  | (name, value) :: rest => do
      assign subject name value
      assignAll subject rest

def createInstance (mapping : Mapping) (values : List (String × PropertyValue)) :
    Operation World InstanceId := do
  let subject ← remember (Instance.transient (← get).id mapping)
  assignAll subject values
  return subject

end Store

end EntityStore
