/-
The rows after a save. Once insertions and completions are replayed, the row of each new
instance holds everything that the plan says; the row that goes to the cache holds the
same values; and rows that the plan is not about have not changed.
-/

import EntityStore.Proofs.Effects

set_option autoImplicit false

namespace EntityStore

variable {layout : Layout} {honest : Contents → Statement → List Row → Prop}
  {dialect : Dialect}

structure PlannedNode.Holds (layout : Layout) (known : Ids) (planned : PlannedNode) (id : Int64)
    (fields : Fields) : Prop where
  id : fields (layout.column planned.mapping.id.column) = .integer id
  assigned : ∀ assignment ∈ planned.assignments,
    fields (layout.column assignment.column) = layout.stored (assignment.source.resolve known)

structure PlannedNode.Gives (known : Ids) (planned : PlannedNode) (id : Int64) (row : Row) :
    Prop where
  id : row.get? planned.mapping.id.column = some (.integer id)
  assigned : ∀ assignment ∈ planned.assignments,
    row.get? assignment.column = some (assignment.source.resolve known)

namespace Waiting

variable {waiting : Waiting} {known : Ids} {id : Int64}

private theorem postponed_sublist (waiting : Waiting) :
    waiting.postponed.Sublist waiting.planned.assignments := List.filter_sublist

private theorem eq_of_lower_column_eq (tidy : waiting.planned.Tidy)
    {first second : Assignment} (firstMember : first ∈ waiting.planned.assignments)
    (secondMember : second ∈ waiting.planned.assignments)
    (same : Text.lower first.column = Text.lower second.column) : first = second := by
  have distinct := (List.nodup_cons.mp
    (List.map_cons (f := Text.lower) ▸ tidy.distinct)).2
  rw [List.map_map] at distinct
  exact List.inj_on_of_nodup_map distinct firstMember secondMember same

private theorem lower_ne_of_postponed (tidy : waiting.planned.Tidy) :
    ∀ entry ∈ Assignment.columns known waiting.postponed,
      Text.lower entry.1 ≠ Text.lower waiting.planned.mapping.id.column := by
  intro entry member
  obtain ⟨assignment, isPostponed, rfl⟩ := List.mem_map.mp member
  exact tidy.lower_ne_id (Waiting.mem_postponed.mp isPostponed).1

private theorem lower_ne_of_immediate (tidy : waiting.planned.Tidy) {assignment : Assignment}
    (member : assignment ∈ waiting.planned.assignments)
    (immediate : assignment.property ∉ waiting.deferred) :
    ∀ entry ∈ Assignment.columns known waiting.postponed,
      Text.lower entry.1 ≠ Text.lower assignment.column := by
  intro entry entryMember same
  obtain ⟨other, isPostponed, rfl⟩ := List.mem_map.mp entryMember
  obtain ⟨otherMember, deferred⟩ := Waiting.mem_postponed.mp isPostponed
  rw [eq_of_lower_column_eq tidy otherMember member same] at deferred
  exact immediate deferred

theorem Filled.completed (tidy : waiting.planned.Tidy) {fields : Fields}
    (filled : waiting.Filled layout known id fields) :
    waiting.planned.Holds layout known id
      (layout.write (Assignment.columns known waiting.postponed) fields) := by
  constructor
  · rw [Layout.write_of_not_mem]
    · exact filled.id
    · intro entry member same
      exact lower_ne_of_postponed tidy entry member (layout.lower_of_column same)
  · intro assignment member
    by_cases deferred : assignment.property ∈ waiting.deferred
    · have isPostponed : (assignment.column, assignment.source.resolve known)
          ∈ Assignment.columns known waiting.postponed :=
        List.mem_map.mpr ⟨assignment, Waiting.mem_postponed.mpr ⟨member, deferred⟩, rfl⟩
      exact Layout.write_of_mem (tidy.distinct_map waiting.postponed_sublist _) fields isPostponed
    · rw [Layout.write_of_not_mem]
      · exact filled.immediate assignment member deferred
      · intro entry entryMember same
        exact lower_ne_of_immediate tidy member deferred entry entryMember
          (layout.lower_of_column same)

structure Listed (known : Ids) (waiting : Waiting) (id : Int64) (row : Row) : Prop where
  id : row.get? waiting.planned.mapping.id.column = some (.integer id)
  immediate : ∀ assignment ∈ waiting.planned.assignments,
    assignment.property ∉ waiting.deferred →
    row.get? assignment.column = some (assignment.source.resolve known)

theorem Listed.completed (tidy : waiting.planned.Tidy) {row : Row}
    (listed : waiting.Listed known id row) :
    waiting.planned.Gives known id (row.update (Assignment.columns known waiting.postponed)) := by
  constructor
  · rw [Row.get?_update_of_lower_ne]
    · exact listed.id
    · exact fun entry member => (lower_ne_of_postponed tidy entry member).symm
  · intro assignment member
    by_cases deferred : assignment.property ∈ waiting.deferred
    · have isPostponed : (assignment.column, assignment.source.resolve known)
          ∈ Assignment.columns known waiting.postponed :=
        List.mem_map.mpr ⟨assignment, Waiting.mem_postponed.mpr ⟨member, deferred⟩, rfl⟩
      exact Row.get?_update_of_mem row (tidy.distinct_map waiting.postponed_sublist _) isPostponed
    · rw [Row.get?_update_of_lower_ne]
      · exact listed.immediate assignment member deferred
      · exact fun entry entryMember =>
          (lower_ne_of_immediate tidy member deferred entry entryMember).symm

/-- A row built from distinct columns, those of the insertion among them, lists what was
inserted. -/
theorem listed_of_columns {ids : Ids} {columns : List (String × Value)}
    (distinct : Row.Distinct columns)
    (idColumn : (waiting.planned.mapping.id.column, Value.integer id) ∈ columns)
    (included : ∀ entry ∈ waiting.columns ids, entry ∈ columns)
    (resolved : ∀ assignment ∈ waiting.planned.assignments,
      assignment.property ∉ waiting.deferred →
      assignment.source.resolve ids = assignment.source.resolve known) :
    waiting.Listed known id (Row.ofList columns) := by
  constructor
  · exact Row.get?_ofList_of_mem distinct idColumn
  · intro assignment member immediate
    rw [← resolved assignment member immediate]
    exact Row.get?_ofList_of_mem distinct
      (included _ (waiting.immediate_mem_columns ids member immediate))

/-- Behind the columns of an insertion that does not name the id there is room for it. -/
theorem distinct_with_id (tidy : waiting.planned.Tidy) {ids : Ids}
    (missing : ids.lookup waiting.planned.place = none) (id : Int64) :
    Row.Distinct (waiting.columns ids ++ [(waiting.planned.mapping.id.column, .integer id)]) := by
  unfold Row.Distinct
  rw [List.map_append, List.nodup_append]
  refine ⟨(waiting.columns_ok tidy ids).1, by simp, ?_⟩
  intro first firstMember second secondMember same
  obtain ⟨entry, entryMember, rfl⟩ := List.mem_map.mp firstMember
  obtain rfl : second = Text.lower waiting.planned.mapping.id.column := by simpa using secondMember
  simp only [Waiting.columns, missing, Option.map_none, Option.toList_none, List.nil_append]
    at entryMember
  obtain ⟨assignment, isAssignment, rfl⟩ := List.mem_map.mp entryMember
  exact tidy.lower_ne_id isAssignment same

end Waiting

theorem Inserted.listed {ids known : Ids} {insertions : List Waiting}
    {inserted : List (Waiting × Written)} {log : List Event}
    (inserts : Inserted dialect ids insertions inserted known log)
    (ordered : Schedule.InOrder (ids.map Prod.fst) insertions)
    (tidy : ∀ waiting ∈ insertions, waiting.planned.Tidy) :
    ∀ entry ∈ inserted, entry.1.Listed known entry.2.id entry.2.row := by
  induction inserts with
  | nil ids =>
      intro entry member
      cases member
  | @known ids known waiting rest id inserted log found later ih =>
      cases ordered with
      | cons ready orderedRest =>
      intro entry member
      rcases List.mem_cons.mp member with rfl | isLater
      · have extended : Inserted dialect ids (waiting :: rest) _ known _ := .known found later
        exact Waiting.listed_of_columns
          (waiting.columns_ok (tidy waiting List.mem_cons_self) ids).1
          (Waiting.id_mem_columns found) (fun _ isColumn => isColumn)
          fun assignment isAssignment immediate => extended.resolve_eq ready isAssignment immediate
      · exact ih orderedRest (fun other otherMember =>
          tidy other (List.mem_cons_of_mem waiting otherMember)) entry isLater
  | @generated ids known waiting rest id inserted log missing later ih =>
      cases ordered with
      | cons ready orderedRest =>
      intro entry member
      rcases List.mem_cons.mp member with rfl | isLater
      · have extended : Inserted dialect ids (waiting :: rest) _ known _ :=
          .generated missing later
        exact Waiting.listed_of_columns
          (Waiting.distinct_with_id (tidy waiting List.mem_cons_self) missing id) (by simp)
          (fun _ isColumn => List.mem_append_left _ isColumn)
          fun assignment isAssignment immediate => extended.resolve_eq ready isAssignment immediate
      · exact ih orderedRest (fun other otherMember =>
          tidy other (List.mem_cons_of_mem waiting otherMember)) entry isLater

/-- Completions change the rows in memory and nothing else of what was written. -/
theorem Completed.eq_map {ids : Ids} {inserted : List (Waiting × Written)}
    {completed : List Written} {log : List Event}
    (completes : Completed dialect ids inserted completed log) :
    completed = inserted.map fun entry => { entry.2 with
      row := entry.2.row.update (Assignment.columns ids entry.1.postponed) } := by
  induction completes with
  | nil => rfl
  | cons later ih => rw [List.map_cons, ← ih]

theorem mem_changedColumns {row : Row} {columns : List (String × Value)} {entry : String × Value} :
    entry ∈ changedColumns row columns ↔ entry ∈ columns ∧
      ∀ old, row.get? entry.1 = some old → old.same entry.2 = false := by
  unfold changedColumns
  rw [List.mem_filter]
  cases row.get? entry.1 <;> simp

/-- Writing the columns that differ from a row leaves every one of them as it is to be, but
for those in which the row has the value already. -/
theorem Layout.write_changedColumns (layout : Layout) {row : Row}
    {columns : List (String × Value)} (distinct : Row.Distinct columns) (fields : Fields)
    {entry : String × Value} (member : entry ∈ columns) :
    layout.write (changedColumns row columns) fields (layout.column entry.1)
        = layout.stored entry.2 ∨
      (layout.write (changedColumns row columns) fields (layout.column entry.1)
          = fields (layout.column entry.1) ∧
        ∃ old, row.get? entry.1 = some old ∧ old.same entry.2 = true) := by
  have distinctChanged : Row.Distinct (changedColumns row columns) :=
    (List.filter_sublist.map _).nodup distinct
  by_cases known : ∃ old, row.get? entry.1 = some old ∧ old.same entry.2 = true
  · refine Or.inr ⟨layout.write_of_not_mem fields fun other isChanged same => ?_, known⟩
    obtain ⟨isColumn, differs⟩ := mem_changedColumns.mp isChanged
    obtain rfl : other = entry :=
      List.inj_on_of_nodup_map distinct isColumn member (layout.lower_of_column same)
    obtain ⟨old, found, isSame⟩ := known
    rw [differs old found] at isSame
    cases isSame
  · refine Or.inl (layout.write_of_mem distinctChanged fields (mem_changedColumns.mpr ⟨member, ?_⟩))
    intro old found
    exact Bool.eq_false_iff.mpr fun isSame => known ⟨old, found, isSame⟩

namespace Writing

variable {plan : List PlannedNode} (writing : Writing dialect plan)

/-- What is settled once everything is inserted and completed: the rows of new instances
were missing, they are apart, they hold what the plan says, and no other row changed. -/
structure Settled (layout : Layout) (before settled : Contents) : Prop where
  distinct :
    (writing.inserted.map fun entry => layout.address entry.1.planned entry.2.id).Nodup
  absent : ∀ entry ∈ writing.inserted,
    before.row (layout.address entry.1.planned entry.2.id) = none
  holds : ∀ entry ∈ writing.inserted, ∃ fields,
    settled.row (layout.address entry.1.planned entry.2.id) = some fields ∧
      entry.1.planned.Holds layout writing.known entry.2.id fields
  frame : ∀ address,
    (∀ entry ∈ writing.inserted, layout.address entry.1.planned entry.2.id ≠ address) →
    settled.row address = before.row address

variable {writing}

theorem inOrder : Schedule.InOrder (writing.ids.map Prod.fst) writing.schedule.insertions :=
  Schedule.inOrder_ofPlan _ _

theorem tidy_of_inserted
    (tidy : ∀ planned ∈ plan, planned.content.needsWrite = true → planned.Tidy)
    {entry : Waiting × Written} (member : entry ∈ writing.inserted) :
    entry.1.planned.Tidy := by
  obtain ⟨isPlanned, isNew⟩ := writing.planned_of_inserted member
  have transient : entry.1.planned.content.state = .transient := of_decide_eq_true isNew
  exact tidy _ isPlanned (by simp [Instance.needsWrite, transient])

/-- Replaying a save first settles the new instances and then updates the changed ones. -/
theorem exists_settled
    (tidy : ∀ planned ∈ plan, planned.content.needsWrite = true → planned.Tidy)
    {before after : Ledger} (replays : Ledger.Replays layout honest before writing.log after) :
    ∃ settled : Ledger, writing.Settled layout before.contents settled.contents ∧
      Ledger.Replays layout honest settled writing.changeLog after := by
  obtain ⟨drawn, replaysDraw, replaysRest⟩ := replays.split
  obtain ⟨filled, replaysInsert, replaysRest⟩ := replaysRest.split
  obtain ⟨settled, replaysComplete, replaysChange⟩ := replaysRest.split
  obtain rfl := writing.draws.unchanged replaysDraw
  have inserts := writing.inserts.effect writing.inOrder replaysInsert
  obtain ⟨completes, frame⟩ := writing.completes.effect inserts.distinct replaysComplete
  refine ⟨settled, ⟨inserts.distinct, inserts.absent, ?_, ?_⟩, replaysChange⟩
  · intro entry member
    obtain ⟨fields, present, filledHere⟩ := inserts.present entry member
    refine ⟨_, ?_, filledHere.completed (tidy_of_inserted tidy member)⟩
    rw [completes entry member, present]
    rfl
  · intro address apart
    rw [frame address apart, inserts.frame address apart]

theorem exists_completed {entry : Waiting × Written} (member : entry ∈ writing.inserted) :
    ∃ written ∈ writing.completed, written.planned = entry.1.planned ∧ written.id = entry.2.id := by
  rw [writing.completes.eq_map]
  exact ⟨_, List.mem_map.mpr ⟨entry, member, rfl⟩, (writing.inserts.lookup member).2, rfl⟩

/-- What is completed is, entry by entry, what was inserted, and its row gives what the
plan says. -/
theorem gives_of_completed
    (tidy : ∀ planned ∈ plan, planned.content.needsWrite = true → planned.Tidy)
    {written : Written} (member : written ∈ writing.completed) :
    ∃ entry ∈ writing.inserted, written.planned = entry.1.planned ∧ written.id = entry.2.id ∧
      written.planned.Gives writing.known written.id written.row := by
  rw [writing.completes.eq_map] at member
  obtain ⟨entry, isInserted, rfl⟩ := List.mem_map.mp member
  have samePlanned := (writing.inserts.lookup isInserted).2
  have tidyWaiting : ∀ waiting ∈ writing.schedule.insertions, waiting.planned.Tidy := by
    intro waiting isWaiting
    rw [← writing.waiting_eq] at isWaiting
    obtain ⟨other, isOther, rfl⟩ := List.mem_map.mp isWaiting
    exact tidy_of_inserted tidy isOther
  have listed := writing.inserts.listed writing.inOrder tidyWaiting entry isInserted
  refine ⟨entry, isInserted, samePlanned, rfl, ?_⟩
  show entry.2.planned.Gives _ _ _
  rw [samePlanned]
  exact listed.completed (tidy_of_inserted tidy isInserted)

end Writing

end EntityStore
