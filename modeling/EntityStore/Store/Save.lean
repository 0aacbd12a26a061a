/-
Saving: writes a new or changed instance and all that it refers to, in one unit of
work. New instances are inserted in the order of the schedule; references that were
put off are set next; changed instances come last, each with only the columns that
differ from the row it was read or written with. The instances in memory are settled
once the unit has succeeded.
-/

import EntityStore.Store.Reading
import EntityStore.Store.Schedule

set_option autoImplicit false

namespace EntityStore

structure Written where
  planned : PlannedNode
  id : Int64
  row : Row
  /-- The row before the change; an insertion has none. -/
  old : Option Row
  deriving DecidableEq, Repr

namespace Written

/-- The integers that the relations of a row hold, as keys of their targets; of each
relation first the old one, then the new one. -/
def targets (written : Written) : List Key :=
  written.planned.mapping.objectRelations.flatMap fun relation =>
    let ids := [written.old.bind fun row => row.get? relation.column,
      written.row.get? relation.column].filterMap fun value => value.bind Value.integer?
    ids.map (Key.withId relation.target)

def key (written : Written) : Key :=
  Key.withId written.planned.mapping.entity written.id

end Written

namespace WriteSet

/-- Records a written row and the owners that it may concern. -/
def addWritten (writes : WriteSet) (written : Written) : WriteSet :=
  (writes.add (.put written.key written.row)).addOwners (written.key :: written.targets)

def ofWritten (written : List Written) : WriteSet :=
  written.foldl addWritten {}

end WriteSet

namespace PlannedNode

def id? (planned : PlannedNode) : Option (Nat × Int64) :=
  planned.content.key.id.map fun id => (planned.place, id)

end PlannedNode

def Assignment.columns (ids : Ids) (assignments : List Assignment) : List (String × Value) :=
  assignments.map fun assignment => (assignment.column, assignment.source.resolve ids)

/-- The columns of an insertion: the id if it is known, then every assignment; those
put off are null. -/
def Waiting.columns (ids : Ids) (waiting : Waiting) : List (String × Value) :=
  let planned := waiting.planned
  let id := (ids.lookup planned.place).map fun id =>
    (planned.mapping.id.column, Value.integer id)
  id.toList ++ planned.assignments.map fun assignment =>
    (assignment.column,
      if waiting.deferred.contains assignment.property then .null
      else assignment.source.resolve ids)

def changedColumns (row : Row) (columns : List (String × Value)) : List (String × Value) :=
  columns.filter fun entry => !(row.get? entry.1).any fun old => old.same entry.2

def Row.update (row : Row) (columns : List (String × Value)) : Row :=
  columns.foldl (fun current entry => current.insert entry.1 entry.2) row

/-- The relations of a circle in which instances wait for each other. -/
def Schedule.circle (plan : List PlannedNode) (schedule : Schedule) :
    List (String × String × String) :=
  schedule.stuck.flatMap fun waiting =>
    (waiting.openRelations schedule.known).map fun assignment =>
      let target := assignment.source.place?.bind fun place => plan[place]?
      (waiting.planned.mapping.entity, assignment.property,
        (target.map fun planned => planned.mapping.entity).getD "")

namespace Store

variable {World : Type}

/-! ### Ids -/

def drawId (session : Session World) (lease : LeaseId) (sequence : String) :
    Operation World Int64 := do
  let rows ← match Statement.nextValue? session.dialect sequence with
    | none => pure []
    | some statement => query session lease statement
  match rows.head?.bind fun row => (row.at? 0).bind Value.integer? with
  | some id => return id
  | none => throw (.invalidState (.emptySequence sequence))

/-- Draws ids for the new instances whose types have a sequence. -/
def drawIds (session : Session World) (lease : LeaseId) :
    List PlannedNode → Operation World Ids
  | [] => return []
  | planned :: rest => do
      match planned.sequence? session.dialect with
      | none => drawIds session lease rest
      | some sequence =>
          let id ← drawId session lease sequence
          let ids ← drawIds session lease rest
          return (planned.place, id) :: ids

/-! ### Insertions -/

def insert (session : Session World) (lease : LeaseId) (ids : Ids) (waiting : Waiting) :
    Operation World Written := do
  let planned := waiting.planned
  let columns := waiting.columns ids
  let _ ← execute session lease (Statement.insert session.dialect planned.mapping columns)
  match ids.lookup planned.place with
  | some id => return ⟨planned, id, Row.ofList columns, none⟩
  | none =>
      -- The table has generated the id, which no column of the insertion had.
      let id ← call lease session.database.lastInsertId
      let row := Row.ofList (columns ++ [(planned.mapping.id.column, .integer id)])
      return ⟨planned, id, row, none⟩

/-- Inserts instances in order; gives what was written and all ids known then. -/
def insertAll (session : Session World) (lease : LeaseId) :
    List Waiting → Ids → Operation World (List (Waiting × Written) × Ids)
  | [], ids => return ([], ids)
  | waiting :: rest, ids => do
      let written ← insert session lease ids waiting
      let (later, known) ← insertAll session lease rest ((waiting.planned.place, written.id) :: ids)
      return ((waiting, written) :: later, known)

/-! ### Changes -/

/-- Sets columns of the row with an id; without columns there is nothing to do. -/
def update (session : Session World) (lease : LeaseId) (mapping : Mapping)
    (columns : List (String × Value)) (id : Int64) : Operation World Unit := do
  if !columns.isEmpty then
    let _ ← execute session lease (Statement.update session.dialect mapping columns id)

def completeAll (session : Session World) (lease : LeaseId) (ids : Ids) :
    List (Waiting × Written) → Operation World (List Written)
  | [] => return []
  | (waiting, written) :: rest => do
      let columns := Assignment.columns ids waiting.postponed
      update session lease waiting.planned.mapping columns written.id
      let later ← completeAll session lease ids rest
      return { written with row := written.row.update columns } :: later

/-- The row that a changed instance holds, or else its row in the database. -/
def rowBefore (session : Session World) (lease : LeaseId) (content : Instance) :
    Operation World Row := do
  match content.row with
  | some row => return row
  | none =>
      match ← fetchRow session lease content.mapping content.key with
      | some row => return row
      | none => throw (.notFound content.key)

def updateAll (session : Session World) (lease : LeaseId) (ids : Ids) :
    List PlannedNode → Operation World (List Written)
  | [] => return []
  | planned :: rest => do
      match planned.content.state, planned.content.key.id with
      | .dirty, some id =>
          let old ← rowBefore session lease planned.content
          let columns := Assignment.columns ids planned.assignments
          update session lease planned.mapping (changedColumns old columns) id
          let later ← updateAll session lease ids rest
          return ⟨planned, id, old.update columns, some old⟩ :: later
      | _, _ => updateAll session lease ids rest

/-! ### The whole save -/

def writeAll (session : Session World) (lease : LeaseId) (plan : List PlannedNode) :
    Operation World (List Written) := do
  let drawn ← drawIds session lease plan
  let ids := plan.filterMap PlannedNode.id? ++ drawn
  let schedule := Schedule.ofPlan (ids.map Prod.fst) plan
  let (inserted, known) ← insertAll session lease schedule.insertions ids
  -- A circle is found only when nothing more is ready: what is ready has been inserted by then.
  if !schedule.stuck.isEmpty then
    throw (.integrity (.referenceCycle (schedule.circle plan)))
  -- From here on every id is known.
  let completed ← completeAll session lease known inserted
  let changed ← updateAll session lease known plan
  return completed ++ changed

/-- Brings the instances in line with what was written. -/
def settleAll (session : Session World) : List Written → Operation World Unit
  | [] => return ()
  | written :: rest => do
      let subject := written.planned.node.subject
      modify (rememberInTransaction session.thread subject)
      modify (modifyInstance (fun content => content.settle written.id written.row) subject)
      settleAll session rest

/-- Saves an instance and every new or changed one that it reaches. -/
def save (session : Session World) (subject : InstanceId) : Operation World Unit := do
  ensureOpen
  let store ← get
  let graph ← settleOutcome (Graph.collect store.id store.memory subject)
  if graph.needsWrite then
    let plan := graph.plan session.dialect
    let written ← unit session true fun lease => do
      let written ← writeAll session lease plan
      return (written, WriteSet.ofWritten written)
    settleAll session written

end Store

end EntityStore
