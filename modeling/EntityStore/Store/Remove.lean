/-
Removing: deletes the row of an instance, which stays removed. A new instance has no
row, so that nothing is sent for it.
-/

import EntityStore.Store.Reading

set_option autoImplicit false

namespace EntityStore

namespace Mapping

def targetsOf (mapping : Mapping) (row : Row) : List Key :=
  mapping.objectRelations.filterMap fun relation =>
    ((row.get? relation.column).bind Value.integer?).map (Key.withId relation.target)

end Mapping

namespace WriteSet

/-- What the removal of a row does; the row itself is given if it is known. -/
def ofRemoval (mapping : Mapping) (key : Key) (row : Option Row) : WriteSet :=
  (({} : WriteSet).add (.evict key)).addOwners
    (key :: (row.map mapping.targetsOf).getD [])

end WriteSet

namespace Store

variable {World : Type}

def withdraw (session : Session World) (subject : InstanceId) : Operation World Unit := do
  modify (rememberInTransaction session.thread subject)
  modify (modifyInstance Instance.withdraw subject)

def deleteRow (session : Session World) (content : Instance) (id : Int64) :
    Operation World Unit :=
  unit session true fun lease => do
    -- The row tells which instances have collections that lose a member.
    let row ← match content.row with
      | some row => pure (some row)
      | none => fetchRow session lease content.mapping content.key
    let _ ← execute session lease (Statement.delete session.dialect content.mapping id)
    return ((), WriteSet.ofRemoval content.mapping content.key row)

def remove (session : Session World) (subject : InstanceId) : Operation World Unit := do
  ensureOpen
  let content := (← get).instanceAt subject
  match content.state, content.key.id with
  | .removed, _ => throw (.invalidState (.alreadyRemoved content.key))
  -- There is no row to be deleted.
  | .transient, _ => withdraw session subject
  | _, none => throw (.invalidState (.withoutId content.key))
  | _, some id =>
      deleteRow session content id
      withdraw session subject

end Store

end EntityStore
