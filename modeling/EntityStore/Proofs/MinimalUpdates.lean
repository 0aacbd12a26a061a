/-
What a save writes of the instances that were changed. It compares what was assigned with the
row that the instance holds, or else with the row that it fetches, and sets the columns that
differ, in the order of the mapping and with a marker for each; where none differs it sends
nothing. The row that the instance and the cache have afterwards is the old one with all
assigned values in it.
-/

import EntityStore.Proofs.ReadingBack
import EntityStore.Proofs.Recorded
import EntityStore.Proofs.SavedGraphs
import EntityStore.Proofs.SavedValues

set_option autoImplicit false

namespace EntityStore

open Sql (Lexeme Spells Follows Separates)

/-! ### The text of an update -/

namespace Statement

def tableLexemes (mapping : Mapping) : List Lexeme :=
  match mapping.schema with
  | some schema => [.quoted schema, .symbol ".", .quoted mapping.table]
  | none => [.quoted mapping.table]

def equation (dialect : Dialect) (entry : String × Nat) : List Lexeme :=
  [.quoted entry.1, .symbol "=", .marker (dialect.placeholder entry.2)]

/-- An update of a row as a database reads it: the columns with the markers from zero on, and
the id with the marker that follows. -/
def updateLexemes (dialect : Dialect) (mapping : Mapping) (columns : List String) : List Lexeme :=
  [.word "UPDATE"] ++ tableLexemes mapping ++ [.word "SET"]
    ++ Sql.commas (columns.zipIdx.map (equation dialect))
    ++ [.word "WHERE"] ++ equation dialect (mapping.id.column, columns.length)

private theorem separates_equals : Separates " = " [.symbol "="] :=
  ⟨' ', "= ".toList, [], _, rfl, .space, rfl, rfl⟩

private theorem separates_set : Separates " SET " [.word "SET"] :=
  ⟨' ', "SET ".toList, [], _, rfl, .space, rfl, rfl⟩

private theorem spells_update :
    Sql.run .none "UPDATE ".toList = some ([.word "UPDATE"], .none) := rfl

theorem spells_table (mapping : Mapping) :
    Spells (Query.tableText mapping) (tableLexemes mapping) := by
  unfold Query.tableText Sql.qualified tableLexemes
  cases mapping.schema with
  | none => exact Sql.spells_quote mapping.table
  | some schema =>
      have spells := Sql.separates_point.follows (Sql.spells_quote mapping.table) _ _
        (Sql.spells_quote schema)
      simpa [String.append_assoc] using spells

theorem spells_equation {dialect : Dialect} (marks : dialect.Marks) (entry : String × Nat) :
    Spells (assignmentText dialect entry) (equation dialect entry) := by
  unfold assignmentText
  rw [String.append_assoc]
  exact separates_equals.follows (marks entry.2) _ _ (Sql.spells_quote entry.1)

/-- The text of an update sets each of its columns to a marker of its own. -/
theorem spells_updateText {dialect : Dialect} (marks : dialect.Marks) (mapping : Mapping)
    {columns : List String} (some' : columns ≠ []) :
    Spells (updateText dialect mapping columns) (updateLexemes dialect mapping columns) := by
  obtain ⟨first, others, rfl⟩ := List.exists_cons_of_ne_nil some'
  have sets : Spells (Sql.commaSeparated ((first :: others).zipIdx.map (assignmentText dialect)))
      (Sql.commas ((first :: others).zipIdx.map (equation dialect))) := by
    rw [List.zipIdx_cons]
    exact spells_commaSeparated (spells_equation marks) _ _
  have condition := separates_where.follows
    (spells_equation marks (mapping.id.column, (first :: others).length))
  have follows := (separates_set.follows sets).append condition
  have spells := follows _ _ ((spells_table mapping).behind spells_update)
  simpa [updateText, updateLexemes, idCondition, assignmentText, String.append_assoc] using spells

end Statement

/-! ### Assigned columns -/

/-- The column of a property that was assigned, with the value that it is to have: of a plain
column the value as the dialect stores it, of a relation the id of the instance. -/
def Instance.assignedColumn? (content : Instance) (dialect : Dialect)
    (idOf : InstanceId → Option Int64) : Property → Option (String × Value)
  | .scalar property => (content.pending.lookup property.name).map fun value =>
      (property.column, property.columnValue dialect (some value))
  | .object relation => (content.pending.lookup relation.name).map fun value =>
      (relation.column, ((value.entity?.bind idOf).map Value.integer).getD .null)
  | .collection _ => none

def Instance.assignedColumns (content : Instance) (dialect : Dialect)
    (idOf : InstanceId → Option Int64) : List (String × Value) :=
  content.mapping.properties.filterMap (content.assignedColumn? dialect idOf)

/-- The row has another value in the column, or none. -/
def Row.Lacks (row : Row) (entry : String × Value) : Prop :=
  ∀ old, row.get? entry.1 = some old → old.same entry.2 = false

/-! ### Revisions -/

structure Revision where
  subject : InstanceId
  /-- The instance before the save. -/
  content : Instance
  id : Int64
  /-- The row before, and what was asked to know it. -/
  old : Row
  asked : List Event
  /-- The columns that are set. -/
  columns : List (String × Value)
  /-- The row as it is known afterwards. -/
  row : Row

namespace Revision

def log (revision : Revision) (dialect : Dialect) : List Event :=
  revision.asked ++ updateLog dialect revision.content.mapping revision.columns revision.id

def key (revision : Revision) : Key := Key.withId revision.content.mapping.entity revision.id

def outcome (revision : Revision) : InstanceId × Instance × Int64 × Row :=
  (revision.subject, revision.content, revision.id, revision.row)

/-- From the row that the instance held or that was fetched for it, those assigned columns are
set that it lacks, by one statement. Afterwards the row has the assigned values, and elsewhere
what it had. -/
structure Minimal (revision : Revision) (dialect : Dialect) (idOf : InstanceId → Option Int64) :
    Prop where
  keyed : revision.content.key.id = some revision.id
  before : RowBefore dialect revision.content revision.old revision.asked
  inOrder : revision.columns.Sublist (revision.content.assignedColumns dialect idOf)
  lacking : ∀ entry ∈ revision.content.assignedColumns dialect idOf,
    entry ∈ revision.columns ↔ revision.old.Lacks entry
  executes : (∃ statement, .executed statement ∈ revision.log dialect) ↔
    ∃ entry ∈ revision.content.assignedColumns dialect idOf, revision.old.Lacks entry
  statement : ∀ statement, .executed statement ∈ revision.log dialect →
    statement.request = .update (Statement.tableOf revision.content.mapping)
      revision.content.mapping.id.column (revision.columns.map Prod.fst) ∧
    statement.values = revision.columns.map Prod.snd ++ [.integer revision.id] ∧
    statement.text = Statement.updateText dialect revision.content.mapping
      (revision.columns.map Prod.fst) ∧
    (dialect.Marks → Spells statement.text (Statement.updateLexemes dialect
      revision.content.mapping (revision.columns.map Prod.fst)))
  assigned : ∀ entry ∈ revision.content.assignedColumns dialect idOf,
    revision.row.get? entry.1 = some entry.2
  unassigned : ∀ column ∈ revision.content.mapping.columns,
    column ∉ (revision.content.assignedColumns dialect idOf).map Prod.fst →
    revision.row.get? column = revision.old.get? column

end Revision

def Written.outcome (one : Written) : InstanceId × Instance × Int64 × Row :=
  (one.planned.node.subject, one.planned.content, one.id, one.row)

theorem mem_updateLog {dialect : Dialect} {mapping : Mapping} {columns : List (String × Value)}
    {id : Int64} {event : Event} :
    event ∈ updateLog dialect mapping columns id ↔
      columns ≠ [] ∧ event = .executed (Statement.update dialect mapping columns id) := by
  unfold updateLog
  cases columns <;> simp

theorem RowBefore.not_executed {dialect : Dialect} {content : Instance} {row : Row}
    {log : List Event} (before : RowBefore dialect content row log) (statement : Statement) :
    .executed statement ∉ log := by
  cases before <;> simp

theorem RowBefore.eq_of_held {dialect : Dialect} {content : Instance} {old row : Row}
    {log : List Event} (before : RowBefore dialect content old log)
    (held : content.row = some row) : old = row := by
  cases before with
  | held isRow => exact Option.some.inj (isRow.symm.trans held)
  | fetched missing _ _ => cases missing.symm.trans held

theorem Revision.minimal_of_update {dialect : Dialect} {idOf : InstanceId → Option Int64}
    {planned : PlannedNode} {id : Int64} {old : Row} {asked : List Event} {ids : Ids}
    (tidy : planned.Tidy) (keyed : planned.content.key.id = some id)
    (before : RowBefore dialect planned.content old asked)
    (assigned : Assignment.columns ids planned.assignments
      = planned.content.assignedColumns dialect idOf) :
    Minimal ⟨planned.node.subject, planned.content, id, old, asked,
      changedColumns old (planned.content.assignedColumns dialect idOf),
      old.update (planned.content.assignedColumns dialect idOf)⟩ dialect idOf := by
  have isLog (statement : Statement) : .executed statement ∈ Revision.log
      ⟨planned.node.subject, planned.content, id, old, asked,
        changedColumns old (planned.content.assignedColumns dialect idOf),
        old.update (planned.content.assignedColumns dialect idOf)⟩ dialect ↔
      changedColumns old (planned.content.assignedColumns dialect idOf) ≠ [] ∧
        statement = Statement.update dialect planned.content.mapping
          (changedColumns old (planned.content.assignedColumns dialect idOf)) id := by
    unfold Revision.log
    rw [List.mem_append, mem_updateLog]
    simp [before.not_executed statement]
  have distinct : Row.Distinct (planned.content.assignedColumns dialect idOf) :=
    assigned ▸ tidy.distinct_map (List.Sublist.refl _) _
  have isMapped : ∀ entry ∈ planned.content.assignedColumns dialect idOf,
      entry.1 ∈ planned.content.mapping.columns := by
    intro entry member
    rw [← assigned] at member
    obtain ⟨assignment, isAssignment, rfl⟩ := List.mem_map.mp member
    exact List.mem_cons_of_mem _ (tidy.mem_columns isAssignment)
  refine ⟨keyed, before, List.filter_sublist, ?_, ?_, ?_, ?_, ?_⟩
  · intro entry member
    exact mem_changedColumns.trans (and_iff_right member)
  · simp only [isLog, exists_and_left, exists_eq, and_true]
    constructor
    · intro some'
      obtain ⟨entry, isChanged⟩ := List.exists_mem_of_ne_nil _ some'
      exact ⟨entry, mem_changedColumns.mp isChanged⟩
    · rintro ⟨entry, isChanged⟩
      exact List.ne_nil_of_mem (mem_changedColumns.mpr isChanged)
  · intro statement isExecuted
    obtain ⟨some', rfl⟩ := (isLog statement).mp isExecuted
    exact ⟨rfl, rfl, rfl, fun marks =>
      Statement.spells_updateText marks _ fun none' => some' (List.map_eq_nil_iff.mp none')⟩
  · intro entry member
    exact Row.get?_update_of_mem old distinct member
  · intro column isColumn other
    refine Row.get?_update_of_lower_ne old _ fun entry member same => other ?_
    rw [List.inj_on_of_nodup_map tidy.wellFormed.distinctColumns isColumn (isMapped entry member)
      same]
    exact List.mem_map_of_mem member

theorem Updated.exists_revisions {dialect : Dialect} {idOf : InstanceId → Option Int64} {ids : Ids}
    {plan : List PlannedNode} {changed : List Written} {log : List Event}
    (changes : Updated dialect ids plan changed log)
    (tidy : ∀ planned ∈ plan, planned.content.needsWrite = true → planned.Tidy)
    (assigned : ∀ planned ∈ plan, planned.content.state = .dirty →
      Assignment.columns ids planned.assignments = planned.content.assignedColumns dialect idOf) :
    ∃ revisions : List Revision, log = revisions.flatMap (Revision.log · dialect) ∧
      (∀ revision ∈ revisions, revision.Minimal dialect idOf) ∧
      revisions.map Revision.outcome = changed.map Written.outcome := by
  induction changes with
  | nil => exact ⟨[], rfl, by simp, rfl⟩
  | skipped _ _ ih =>
      exact ih (fun planned member => tidy planned (List.mem_cons_of_mem _ member))
        fun planned member => assigned planned (List.mem_cons_of_mem _ member)
  | @changed planned rest id old later asked log dirty keyed before _ ih =>
      obtain ⟨revisions, rfl, others, same⟩ :=
        ih (fun planned member => tidy planned (List.mem_cons_of_mem _ member))
          fun planned member => assigned planned (List.mem_cons_of_mem _ member)
      have isAssigned := assigned planned List.mem_cons_self dirty
      have minimal := Revision.minimal_of_update
        (tidy planned List.mem_cons_self (by simp [Instance.needsWrite, dirty])) keyed before
        isAssigned
      rw [isAssigned]
      exact ⟨_ :: revisions, rfl, List.forall_mem_cons.mpr ⟨minimal, others⟩,
        congrArg (List.cons _) same⟩

/-! ### Saves -/

/-- The row that an executed update is for, by its table and its id. -/
def Event.updatedRow? : Event → Option (QualifiedName × Value)
  | .executed statement =>
      match statement.request with
      | .update table _ _ => statement.values.getLast?.map (Prod.mk table)
      | _ => none
  | _ => none

theorem updatedRow?_update (dialect : Dialect) (mapping : Mapping)
    (columns : List (String × Value)) (id : Int64) :
    (Event.executed (Statement.update dialect mapping columns id)).updatedRow?
      = some (Statement.tableOf mapping, .integer id) := by
  simp [Event.updatedRow?, Statement.update]

theorem Drawn.updatedRow? {dialect : Dialect} {plan : List PlannedNode} {ids : Ids}
    {log : List Event} (drawn : Drawn dialect plan ids log) :
    ∀ event ∈ log, event.updatedRow? = none := by
  induction drawn with
  | nil => exact fun _ impossible => nomatch impossible
  | without _ _ ih => exact ih
  | drawn _ _ _ ih => exact List.forall_mem_cons.mpr ⟨rfl, ih⟩

theorem Inserted.updatedRow? {dialect : Dialect} {ids known : Ids} {insertions : List Waiting}
    {inserted : List (Waiting × Written)} {log : List Event}
    (inserts : Inserted dialect ids insertions inserted known log) :
    ∀ event ∈ log, event.updatedRow? = none := by
  induction inserts with
  | nil ids => exact fun _ impossible => nomatch impossible
  | known _ _ ih => exact List.forall_mem_cons.mpr ⟨rfl, ih⟩
  | generated _ _ ih => exact List.forall_mem_cons.mpr ⟨rfl, List.forall_mem_cons.mpr ⟨rfl, ih⟩⟩

theorem RowBefore.updatedRow? {dialect : Dialect} {content : Instance} {row : Row}
    {log : List Event} (before : RowBefore dialect content row log) :
    ∀ event ∈ log, event.updatedRow? = none := by
  cases before with
  | held _ => exact fun _ impossible => nomatch impossible
  | fetched _ _ _ => exact List.forall_mem_singleton.mpr rfl

theorem updatedRow?_updateLog {dialect : Dialect} {mapping : Mapping}
    {columns : List (String × Value)} {id : Int64} {event : Event}
    (member : event ∈ updateLog dialect mapping columns id) :
    event.updatedRow? = some (Statement.tableOf mapping, .integer id) := by
  obtain ⟨_, rfl⟩ := mem_updateLog.mp member
  exact updatedRow?_update dialect mapping columns id

theorem Completed.updatedRow? {dialect : Dialect} {ids : Ids}
    {inserted : List (Waiting × Written)} {completed : List Written} {log : List Event}
    (completes : Completed dialect ids inserted completed log) :
    ∀ event ∈ log, ∃ entry ∈ inserted, event.updatedRow?
      = some (Statement.tableOf entry.1.planned.mapping, .integer entry.2.id) := by
  induction completes with
  | nil => exact fun _ impossible => nomatch impossible
  | @cons waiting written rest later log _ ih =>
      intro event member
      rcases List.mem_append.mp member with isFirst | isLater
      · exact ⟨_, List.mem_cons_self, updatedRow?_updateLog isFirst⟩
      · obtain ⟨entry, isEntry, same⟩ := ih event isLater
        exact ⟨entry, List.mem_cons_of_mem _ isEntry, same⟩

theorem Writing.updatedRow? {dialect : Dialect} {plan : List PlannedNode}
    (writing : Writing dialect plan) {event : Event}
    (member : event ∈ writing.drawLog ++ writing.insertLog ++ writing.completeLog)
    {row : QualifiedName × Value} (updates : event.updatedRow? = some row) :
    ∃ entry ∈ writing.inserted,
      row = (Statement.tableOf entry.1.planned.mapping, .integer entry.2.id) := by
  rcases List.mem_append.mp member with isEarlier | isCompletion
  · have none' : event.updatedRow? = none := by
      rcases List.mem_append.mp isEarlier with isDraw | isInsertion
      · exact writing.draws.updatedRow? event isDraw
      · exact writing.inserts.updatedRow? event isInsertion
    rw [none'] at updates
    cases updates
  · obtain ⟨entry, isEntry, same⟩ := writing.completes.updatedRow? event isCompletion
    rw [same] at updates
    exact ⟨entry, isEntry, (Option.some.inj updates).symm⟩

namespace Revision

variable {revision : Revision} {dialect : Dialect} {idOf : InstanceId → Option Int64}

theorem updatedRow?_log (minimal : revision.Minimal dialect idOf) {event : Event}
    (member : event ∈ revision.log dialect) {row : QualifiedName × Value}
    (updates : event.updatedRow? = some row) :
    row = (Statement.tableOf revision.content.mapping, .integer revision.id) ∧
      ∃ entry ∈ revision.content.assignedColumns dialect idOf, revision.old.Lacks entry := by
  rcases List.mem_append.mp member with isAsked | isUpdate
  · rw [minimal.before.updatedRow? event isAsked] at updates
    cases updates
  · refine ⟨?_, minimal.executes.mp ?_⟩
    · rw [updatedRow?_updateLog isUpdate] at updates
      exact (Option.some.inj updates).symm
    · obtain ⟨_, rfl⟩ := mem_updateLog.mp isUpdate
      exact ⟨_, member⟩

private theorem exists_updatedRow? (minimal : revision.Minimal dialect idOf)
    (lacks : ∃ entry ∈ revision.content.assignedColumns dialect idOf, revision.old.Lacks entry) :
    ∃ event ∈ revision.log dialect, event.updatedRow?
      = some (Statement.tableOf revision.content.mapping, .integer revision.id) := by
  obtain ⟨statement, isExecuted⟩ := minimal.executes.mpr lacks
  obtain ⟨request, values, _⟩ := minimal.statement statement isExecuted
  exact ⟨_, isExecuted, by simp [Event.updatedRow?, request, values]⟩

end Revision

namespace Store

variable {World : Type} {session : Session World} {store between after : Store World}
  {root : InstanceId} {graph : Graph}

/-- What is planned for a changed instance are the columns that were assigned, with the ids that
instances have in the end. -/
theorem columns_of_changed (sound : store.Sound) (inMemory : root < store.memory.size)
    (collected : Graph.collect store.id store.memory root = .ok graph) {dialect : Dialect}
    {known : Ids} {idOf : InstanceId → Option Int64}
    (final : ∀ planned ∈ graph.plan dialect, ∃ id, known.lookup planned.place = some id ∧
      idOf planned.node.subject = some id)
    {planned : PlannedNode} (member : planned ∈ graph.plan dialect)
    (dirty : planned.content.state = .dirty) :
    Assignment.columns known planned.assignments
      = planned.content.assignedColumns dialect idOf := by
  obtain ⟨_, writes⟩ := Graph.mem_plan.mp member
  have needed : planned.content.needsWrite = true := by simp [Instance.needsWrite, dirty]
  rw [writes]
  unfold Graph.assignments Assignment.columns Instance.assignedColumns
  rw [if_pos needed, List.map_filterMap]
  refine List.filterMap_congr fun property _ => ?_
  unfold Graph.assignment? Instance.assignedColumn?
  cases property with
  | scalar property =>
      cases assigned : planned.content.pending.lookup property.name with
      | none => simp [Property.name, assigned, dirty]
      | some value => simp [Property.name, assigned, resolve_scalarSource]
  | object relation =>
      cases assigned : planned.content.pending.lookup relation.name with
      | none => simp [Property.name, assigned, dirty]
      | some value =>
          cases value with
          | entity target =>
              obtain ⟨other, isPlanned, rfl, placed⟩ :=
                planned_target sound inMemory collected member assigned
              obtain ⟨id, isKnown, isFinal⟩ := final other isPlanned
              simp [Property.name, assigned, Graph.referenceSource, placed, Source.resolve, isKnown,
                isFinal, PropertyValue.entity?]
          | _ =>
              simp [Property.name, assigned, Graph.referenceSource, Source.resolve,
                PropertyValue.entity?]
  | collection relation =>
      cases planned.content.pending.lookup relation.name <;> simp

/-- What a save does for the changed instances that its root reaches: `before` is what it does
for new ones, `effects` what it records for the cache. -/
structure Revises (dialect : Dialect) (store after : Store World) (root : InstanceId)
    (before : List Event) (effects : List CacheEffect) (revisions : List Revision) : Prop where
  distinct : (revisions.map Revision.subject).Nodup
  members : ∀ subject, subject ∈ revisions.map Revision.subject ↔
    Reaches store.memory root subject ∧ (store.instanceAt subject).state = .dirty
  found : ∀ revision ∈ revisions, revision.content = store.instanceAt revision.subject
  minimal : ∀ revision ∈ revisions, revision.Minimal dialect after.idOf
  held : ∀ revision ∈ revisions, (after.instanceAt revision.subject).row = some revision.row
  recorded : ∀ revision ∈ revisions, .put revision.key revision.row ∈ effects
  /-- Where nothing else is written to the row of an instance, the row is updated exactly if it
  lacks anything that was assigned. -/
  updated_iff : ∀ revision ∈ revisions,
    (∀ other, Reaches store.memory root other → (store.instanceAt other).needsWrite = true →
      Statement.tableOf (store.instanceAt other).mapping
        = Statement.tableOf revision.content.mapping →
      after.idOf other = some revision.id → other = revision.subject) →
    ((∃ event ∈ before ++ revisions.flatMap (Revision.log · dialect),
        event.updatedRow? = some (Statement.tableOf revision.content.mapping,
          .integer revision.id)) ↔
      ∃ entry ∈ revision.content.assignedColumns dialect after.idOf, revision.old.Lacks entry)

section Revised

variable (regular : store.Regular) (inMemory : root < store.memory.size)
  (collected : Graph.collect store.id store.memory root = .ok graph)
  (writing : Writing session.dialect (graph.plan session.dialect))
  {revisions : List Revision}
  (same : revisions.map Revision.outcome = writing.changed.map Written.outcome)

include same in
private theorem exists_changed_of_revision {revision : Revision} (member : revision ∈ revisions) :
    ∃ one ∈ writing.changed, revision.subject = one.planned.node.subject ∧
      revision.content = one.planned.content ∧ revision.id = one.id ∧ revision.row = one.row := by
  have isOne := List.mem_map_of_mem (f := Revision.outcome) member
  rw [same] at isOne
  obtain ⟨one, isChanged, equal⟩ := List.mem_map.mp isOne
  simp only [Written.outcome, Revision.outcome, Prod.mk.injEq] at equal
  exact ⟨one, isChanged, equal.1.symm, equal.2.1.symm, equal.2.2.1.symm, equal.2.2.2.symm⟩

include same in
private theorem subjects_of_revisions :
    revisions.map Revision.subject
      = writing.changed.map fun one => one.planned.node.subject := by
  have subjects := congrArg (List.map Prod.fst) same
  rw [List.map_map, List.map_map] at subjects
  exact subjects

include collected same in
private theorem nodup_revised : (revisions.map Revision.subject).Nodup := by
  rw [subjects_of_revisions writing same]
  exact nodup_subjects collected (fun one member => (writing.changes.of_changed member).1)
    (writing.changes.sublist.nodup (List.Nodup.of_map _ (Graph.places_plan _ graph)))

include regular inMemory collected same in
/-- What is revised is a changed instance that the root reaches, under the id that it has. -/
theorem revised_of_mem
    (final : ∀ planned ∈ graph.plan session.dialect, ∃ id,
      writing.known.lookup planned.place = some id ∧ after.idOf planned.node.subject = some id)
    {revision : Revision} (member : revision ∈ revisions) :
    revision.content = store.instanceAt revision.subject ∧ revision.content.state = .dirty ∧
      Reaches store.memory root revision.subject ∧
      after.idOf revision.subject = some revision.id := by
  obtain ⟨one, isOne, subject, content, id, _⟩ := exists_changed_of_revision writing same member
  obtain ⟨isPlanned, dirty, _⟩ := writing.changes.of_changed isOne
  have settles := settles_of_written regular.sound inMemory collected final
    (List.mem_append_right _ isOne : one ∈ writing.written)
  rw [subject, content, id]
  exact ⟨(regular.sound.instanceAt_plan collected isPlanned).symm, dirty, settles.1.1,
    settles.2.1⟩

include regular inMemory collected same in
private theorem mem_revised_iff (subject : InstanceId)
    (final : ∀ planned ∈ graph.plan session.dialect, ∃ id,
      writing.known.lookup planned.place = some id ∧ after.idOf planned.node.subject = some id) :
    subject ∈ revisions.map Revision.subject ↔
      Reaches store.memory root subject ∧ (store.instanceAt subject).state = .dirty := by
  constructor
  · intro isRevised
    obtain ⟨revision, member, rfl⟩ := List.mem_map.mp isRevised
    obtain ⟨found, dirty, reaches, _⟩ :=
      revised_of_mem regular inMemory collected writing same final member
    exact ⟨reaches, found ▸ dirty⟩
  · rintro ⟨reaches, dirty⟩
    obtain ⟨one, isWritten, rfl⟩ :=
      (exists_written_iff regular.sound inMemory collected writing subject).mpr
        ⟨reaches, by simp [Instance.needsWrite, dirty]⟩
    rw [subjects_of_revisions writing same]
    rcases List.mem_append.mp isWritten with isCompleted | isOne
    · have isNew : one.planned.content.state = .transient :=
        of_decide_eq_true (writing.isNew_of_completed isCompleted)
      rw [regular.sound.instanceAt_plan collected (writing.planned_mem isWritten), isNew] at dirty
      cases dirty
    · exact List.mem_map_of_mem isOne

include regular inMemory collected same in
/-- Rows that are inserted are of new instances; so a row that nothing else is written to is
updated only by its own revision. -/
theorem updates_iff_lacks
    (final : ∀ planned ∈ graph.plan session.dialect, ∃ id,
      writing.known.lookup planned.place = some id ∧ after.idOf planned.node.subject = some id)
    (minimal : ∀ revision ∈ revisions, revision.Minimal session.dialect after.idOf)
    {revision : Revision} (member : revision ∈ revisions)
    (alone : ∀ other, Reaches store.memory root other →
      (store.instanceAt other).needsWrite = true →
      Statement.tableOf (store.instanceAt other).mapping
        = Statement.tableOf revision.content.mapping →
      after.idOf other = some revision.id → other = revision.subject) :
    (∃ event ∈ (writing.drawLog ++ writing.insertLog ++ writing.completeLog)
          ++ revisions.flatMap (Revision.log · session.dialect),
        event.updatedRow? = some (Statement.tableOf revision.content.mapping,
          .integer revision.id)) ↔
      ∃ entry ∈ revision.content.assignedColumns session.dialect after.idOf,
        revision.old.Lacks entry := by
  have sound := regular.sound
  have revised {revision : Revision} (member : revision ∈ revisions) :=
    revised_of_mem regular inMemory collected writing same final member
  constructor
  · rintro ⟨event, isEvent, updates⟩
    rcases List.mem_append.mp isEvent with isEarlier | isRevision
    · obtain ⟨entry, isInserted, isRow⟩ := writing.updatedRow? isEarlier updates
      obtain ⟨table, id⟩ := Prod.mk.inj isRow
      obtain ⟨⟨reaches, transient⟩, isFinal⟩ :=
        newFrom_of_inserted sound inMemory collected final isInserted
      have isSubject := alone _ reaches (by simp [Instance.needsWrite, transient])
        (by rw [sound.instanceAt_plan collected (writing.planned_of_inserted isInserted).1]
            exact table.symm)
        (by rw [isFinal, Value.integer.inj id])
      obtain ⟨found, dirty, _⟩ := revised member
      rw [isSubject, ← found, dirty] at transient
      cases transient
    · obtain ⟨other, isOther, isEvent⟩ := List.mem_flatMap.mp isRevision
      obtain ⟨isRow, lacks⟩ := Revision.updatedRow?_log (minimal other isOther) isEvent updates
      obtain ⟨table, id⟩ := Prod.mk.inj isRow
      obtain ⟨found, dirty, reaches, isFinal⟩ := revised isOther
      have isSubject := alone _ reaches (by simp [Instance.needsWrite, ← found, dirty])
        (by rw [← found, table]) (by rw [isFinal, Value.integer.inj id])
      rw [← List.inj_on_of_nodup_map (nodup_revised collected writing same) isOther member
        isSubject]
      exact lacks
  · intro lacks
    obtain ⟨event, isEvent, updates⟩ := Revision.exists_updatedRow? (minimal revision member) lacks
    exact ⟨event, List.mem_append_right _ (List.mem_flatMap.mpr ⟨revision, member, isEvent⟩),
      updates⟩

end Revised

theorem revises_of_writing (regular : store.Regular) (inMemory : root < store.memory.size)
    (collected : Graph.collect store.id store.memory root = .ok graph)
    (writing : Writing session.dialect (graph.plan session.dialect))
    (final : ∀ planned ∈ graph.plan session.dialect, ∃ id,
      writing.known.lookup planned.place = some id ∧ after.idOf planned.node.subject = some id)
    (sameSize : between.memory.size = store.memory.size)
    (settled : (settleAll session writing.written).run between = (.ok (), after)) :
    ∃ revisions : List Revision,
      writing.changeLog = revisions.flatMap (Revision.log · session.dialect) ∧
      Revises session.dialect store after root
        (writing.drawLog ++ writing.insertLog ++ writing.completeLog)
        (writing.written.map fun one => .put one.key one.row) revisions := by
  have sound := regular.sound
  obtain ⟨revisions, isLog, minimal, same⟩ := writing.changes.exists_revisions
    (fun planned member _ => (sound.fit_of_plan collected member).tidy)
    fun planned member dirty => columns_of_changed sound inMemory collected final member dirty
  refine ⟨revisions, isLog, nodup_revised collected writing same,
    fun subject => mem_revised_iff regular inMemory collected writing same subject final,
    fun revision member =>
      (revised_of_mem regular inMemory collected writing same final member).1,
    minimal, fun revision member => ?_, fun revision member => ?_, fun revision member alone =>
      updates_iff_lacks regular inMemory collected writing same final minimal member alone⟩
  · obtain ⟨one, isOne, subject, _, _, row⟩ := exists_changed_of_revision writing same member
    have distinct : (writing.written.map fun one => one.planned.node.subject).Nodup :=
      nodup_subjects collected (fun one member => writing.planned_mem member)
        (writing.nodup_planned (List.Nodup.of_map _ (Graph.places_plan session.dialect graph)))
    rw [subject, row, instanceAt_settleAll settled distinct (List.mem_append_right _ isOne)
      (sameSize ▸ (sound.of_plan collected (writing.changes.of_changed isOne).1).1)]
    rfl
  · obtain ⟨one, isOne, _, content, id, row⟩ := exists_changed_of_revision writing same member
    unfold Revision.key
    rw [content, id, row]
    exact List.mem_map.mpr ⟨one, List.mem_append_right _ isOne, rfl⟩

/-- What is recorded for the cache: in a transaction it is added to what the commit will do,
elsewhere it is done at once. -/
structure Records (store after : Store World) (thread : ThreadId)
    (effects : List CacheEffect) : Prop where
  inside : store.inTransaction thread = true →
    (after.owed thread).effects = (store.owed thread).effects ++ effects
  outside : store.inTransaction thread = false →
    after.cache = effects.foldl (WriteSet.applyEffect store.cache.generation) store.cache

theorem Records.nothing (store : Store World) (thread : ThreadId) :
    Records store store thread [] :=
  ⟨fun _ => (List.append_nil _).symm, fun _ => rfl⟩

private theorem records_of_written {plan : List PlannedNode} {issued : Question → Prop}
    {written : List Written}
    (unit : UnitEnds session issued true (WritesPlan session.dialect plan) store (.ok written)
      between)
    (quiet : between.Quiet after) :
    Records store after session.thread (written.map fun one => .put one.key one.row) := by
  refine ⟨fun inside => ?_, fun outside => ?_⟩
  · obtain ⟨writes, _, ⟨writing, same, _⟩, owed⟩ := unit.owed inside
    obtain ⟨rfl, rfl⟩ := Prod.mk.inj same
    rw [quiet.owed, owed, WriteSet.kept_ofWritten]
  · obtain ⟨writes, _, ⟨writing, same, _⟩, applied⟩ := unit.applies outside
    obtain ⟨rfl, rfl⟩ := Prod.mk.inj same
    rw [quiet.cache, applied]
    unfold WriteSet.apply
    rw [WriteSet.effects_ofWritten]

/-- A save that succeeds revises each changed instance that its root reaches once. It sets the
assigned columns that the row lacks, and if there are none it sends no update; the instance and
the cache are given the row with everything that was assigned. -/
theorem save_updates_minimally {inner : Deployment World}
    {allowed : Store (Journaled World) → ThreadId → Action → Prop}
    {store after : Store (Journaled World)} {thread : ThreadId} {root : InstanceId}
    (reached : inner.journaled.Reached allowed store) (inMemory : root < store.memory.size)
    (saved : (save (inner.journaled.session thread) root).run store = (.ok (), after)) :
    ∃ connection before effects revisions, after.pool.world.journal = store.pool.world.journal ++
        (before ++ revisions.flatMap (Revision.log · inner.dialect)).map (Prod.mk connection) ∧
      Records store after thread effects ∧
      Revises inner.dialect store after root before effects revisions := by
  have regular := reached.regular
  obtain ⟨graph, _, collected, ends⟩ := save_ok regular saved
  cases ends with
  | unchanged nothing =>
      have none' (subject : InstanceId) : ¬(Reaches store.memory root subject ∧
          (store.instanceAt subject).state = .dirty) := by
        rintro ⟨reaches, dirty⟩
        have needed := regular.sound.needsWrite_of_reached inMemory collected reaches
          (by simp [Instance.needsWrite, dirty])
        rw [nothing] at needed
        cases needed
      refine ⟨0, [], [], [], (List.append_nil _).symm, .nothing store thread, List.nodup_nil,
        fun subject => iff_of_false List.not_mem_nil (none' subject), ?_, ?_, ?_, ?_, ?_⟩
      all_goals exact fun _ impossible => absurd impossible List.not_mem_nil
  | @written written between after unit settled =>
      obtain ⟨connection, log, writes, ⟨writing, same, rfl⟩, grown⟩ :=
        @UnitEnds.journal _ _ inner.database _ rfl _ _ _ _ _ _ unit
      obtain rfl : written = writing.written := congrArg Prod.fst same
      have sameSize : between.memory.size = store.memory.size := congrArg Prod.snd unit.extent
      obtain ⟨revisions, isLog, revises⟩ := revises_of_writing regular inMemory collected writing
        (fun planned member => final_id regular collected writing (fun other => unit.idOf other)
          sameSize settled member) sameSize settled
      have quiet := quiet_settleAll (fun one member => sameSize ▸
        (regular.sound.of_plan collected (writing.planned_mem member)).1) settled
      refine ⟨connection, _, _, revisions, ?_, records_of_written unit quiet, revises⟩
      have wholeLog : writing.log = writing.drawLog ++ writing.insertLog ++ writing.completeLog
          ++ revisions.flatMap (Revision.log · inner.dialect) := by
        unfold Writing.log
        rw [isLog, ← List.append_assoc, ← List.append_assoc]
        rfl
      rw [pool_settleAll settled, grown, wholeLog]

end Store

namespace Samples

/-- Ada is saved; she is given the name that she has, and somebody new for a friend. -/
def introduced : List (ThreadId × Action) := saved ++ [
  (0, person "Bo"), (0, .assign 0 "name" (.value (.text "Ada"))),
  (0, .assign 0 "friend" (.entity 1))]

end Samples

namespace Store

set_option maxRecDepth 100000 in
/-- Of her name and her friend, both assigned, her friend alone is written. -/
theorem save_updates_minimally_introduced : ∃ store after : Store (Journaled Tables.World),
    (save (Samples.deployment.journaled.session 0) 0).run store = (.ok (), after) ∧
      (store.instanceAt 0).assignedColumns Dialect.sqlite after.idOf
        = [("name", .text "Ada"), ("friend", .integer 2)] ∧
      ∃ connection before effects revisions, after.pool.world.journal
          = store.pool.world.journal ++ (before ++
            revisions.flatMap (Revision.log · Dialect.sqlite)).map (Prod.mk connection) ∧
        Records store after 0 effects ∧
        Revises Dialect.sqlite store after 0 before effects revisions ∧
        ∃ revision ∈ revisions, revision.subject = 0 ∧
          ("friend", .integer 2) ∈ revision.columns ∧ ("name", .text "Ada") ∉ revision.columns := by
  obtain ⟨store, visited⟩ : ∃ store,
      Samples.deployment.journaled.visited? Samples.introduced = some store :=
    Option.isSome_iff_exists.mp (by decide +kernel)
  have facts : ∀ store ∈ Samples.deployment.journaled.visited? Samples.introduced,
      let result := (save (Samples.deployment.journaled.session 0) 0).run store
      result.1.isOk = true ∧ 0 < store.memory.size ∧ (store.instanceAt 0).state = .dirty ∧
        (store.instanceAt 0).assignedColumns Dialect.sqlite result.2.idOf
          = [("name", .text "Ada"), ("friend", .integer 2)] ∧
        (store.instanceAt 0).row.map (fun row => (row.get? "name", row.get? "friend"))
          = some (some (.text "Ada"), some .null) := by
    decide +kernel
  have reached := Deployment.reached_visited (fun _ _ _ _ => trivial) visited
  obtain ⟨isOk, inMemory, dirty, assigned, held⟩ := facts store visited
  generalize ran : (save (Samples.deployment.journaled.session 0) 0).run store = result
    at isOk assigned
  obtain ⟨outcome | _, after⟩ := result
  · cases isOk
  replace assigned : (store.instanceAt 0).assignedColumns Samples.deployment.dialect after.idOf
      = [("name", .text "Ada"), ("friend", .integer 2)] := assigned
  obtain ⟨connection, before, effects, revisions, journal, records, revises⟩ :=
    save_updates_minimally reached inMemory ran
  refine ⟨store, after, ran, assigned, connection, before, effects, revisions, journal, records,
    revises, ?_⟩
  obtain ⟨revision, member, subject⟩ :=
    List.mem_map.mp ((revises.members 0).mpr ⟨.refl, dirty⟩)
  have minimal := revises.minimal revision member
  have found := revises.found revision member
  rw [subject] at found
  have lacking := minimal.lacking
  rw [found, assigned] at lacking
  obtain ⟨row, isRow, values⟩ := Option.map_eq_some_iff.mp held
  obtain ⟨name, friend⟩ := Prod.mk.inj values
  rw [minimal.before.eq_of_held (found ▸ isRow)] at lacking
  refine ⟨revision, member, subject, (lacking _ (by simp)).mpr ?_, fun isSet => ?_⟩
  · intro old isOld
    rw [friend] at isOld
    cases isOld
    rfl
  · have differs := (lacking _ (by simp)).mp isSet _ name
    exact absurd differs (by decide)

end Store
end EntityStore
