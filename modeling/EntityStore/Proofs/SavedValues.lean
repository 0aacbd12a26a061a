/-
What a save leaves in the rows of the instances that it writes. The row of a new instance
holds everything that was assigned. So does the row of a changed one, but for the columns in
which the row that the instance knows has the assigned value already: these are not written.
Where several instances of one row are changed, this is said of the columns that one of them
alone assigns to. Nothing else is written.
-/

import EntityStore.Proofs.Columns
import EntityStore.Proofs.Orderly
import EntityStore.Proofs.Runs

set_option autoImplicit false

namespace EntityStore

/-- A column and the value that it is to hold for what was assigned to a property, given the
ids of instances. -/
inductive Instance.Assigns (content : Instance) (dialect : Dialect)
    (idOf : InstanceId → Option Int64) : String → Value → Prop where
  | scalar {property : ScalarProperty} {value : PropertyValue} :
      .scalar property ∈ content.mapping.properties →
      content.pending.lookup property.name = some value →
      Assigns content dialect idOf property.column (property.columnValue dialect (some value))
  | related {relation : ObjectRelation} {target : InstanceId} {id : Int64} :
      .object relation ∈ content.mapping.properties →
      content.pending.lookup relation.name = some (.entity target) → idOf target = some id →
      Assigns content dialect idOf relation.column (.integer id)
  | unrelated {relation : ObjectRelation} {value : PropertyValue} :
      .object relation ∈ content.mapping.properties →
      content.pending.lookup relation.name = some value →
      (∀ target, value ≠ .entity target) → Assigns content dialect idOf relation.column .null

def Instance.Knows (content : Instance) (column : String) (value : Value) : Prop :=
  ∃ known old, content.row = some known ∧ known.get? column = some old ∧ old.same value = true

namespace Store

variable {World : Type} {session : Session World} {store after : Store World}
  {root : InstanceId} {layout : Layout} {graph : Graph}

theorem exists_assignment (sound : store.Sound) (inMemory : root < store.memory.size)
    (collected : Graph.collect store.id store.memory root = .ok graph) {dialect : Dialect}
    {known : Ids} {idOf : InstanceId → Option Int64}
    (final : ∀ planned ∈ graph.plan dialect, ∃ id, known.lookup planned.place = some id ∧
      idOf planned.node.subject = some id)
    {planned : PlannedNode} (member : planned ∈ graph.plan dialect)
    (needed : planned.content.needsWrite = true) {column : String} {value : Value}
    (assigns : planned.content.Assigns dialect idOf column value) :
    ∃ assignment ∈ planned.assignments,
      assignment.column = column ∧ assignment.source.resolve known = value := by
  obtain ⟨_, writes⟩ := Graph.mem_plan.mp member
  have planned_of {property : Property} {assignment : Assignment}
      (declared : property ∈ planned.content.mapping.properties)
      (assigned : graph.assignment? dialect planned.content property = some assignment) :
      assignment ∈ planned.assignments := by
    rw [writes]
    exact Graph.mem_assignments.mpr ⟨needed, property, declared, assigned⟩
  cases assigns with
  | @scalar property value declared assigned =>
      refine ⟨⟨property.name, property.column, property.nullable,
        Graph.scalarSource dialect property (some value)⟩, planned_of declared ?_, rfl,
        resolve_scalarSource dialect property _ known⟩
      unfold Graph.assignment?
      simp [Property.name, assigned]
  | @related relation target id declared assigned isFinal =>
      obtain ⟨other, isPlanned, rfl, placed⟩ :=
        planned_target sound inMemory collected member assigned
      obtain ⟨otherId, isKnown, otherFinal⟩ := final other isPlanned
      rw [isFinal] at otherFinal
      cases otherFinal
      refine ⟨⟨relation.name, relation.column, relation.nullable, .idOf other.place⟩,
        planned_of declared ?_, rfl, ?_⟩
      · unfold Graph.assignment?
        simp [Property.name, assigned, Graph.referenceSource, placed]
      · simp [Source.resolve, isKnown]
  | @unrelated relation value declared assigned unrelated =>
      refine ⟨⟨relation.name, relation.column, relation.nullable, .value .null⟩,
        planned_of declared ?_, rfl, rfl⟩
      unfold Graph.assignment?
      cases value with
      | entity target => exact absurd rfl (unrelated target)
      | _ => simp [Property.name, assigned, Graph.referenceSource]

private theorem exists_assigns (sound : store.Sound) (inMemory : root < store.memory.size)
    (collected : Graph.collect store.id store.memory root = .ok graph) {dialect : Dialect}
    {known : Ids} {idOf : InstanceId → Option Int64}
    (final : ∀ planned ∈ graph.plan dialect, ∃ id, known.lookup planned.place = some id ∧
      idOf planned.node.subject = some id)
    {planned : PlannedNode} (member : planned ∈ graph.plan dialect)
    (dirty : planned.content.state = .dirty) {assignment : Assignment}
    (isPlanned : assignment ∈ planned.assignments) :
    ∃ value, planned.content.Assigns dialect idOf assignment.column value := by
  obtain ⟨_, writes⟩ := Graph.mem_plan.mp member
  rw [writes] at isPlanned
  obtain ⟨_, property, declared, assigned⟩ := Graph.mem_assignments.mp isPlanned
  unfold Graph.assignment? at assigned
  cases offered : planned.content.pending.lookup property.name with
  | none => simp [offered, dirty] at assigned
  | some value =>
      simp only [offered, Option.isNone_some, Bool.false_and, Bool.false_eq_true, ↓reduceIte]
        at assigned
      cases property with
      | scalar property =>
          cases assigned
          exact ⟨_, .scalar declared offered⟩
      | object relation =>
          cases assigned
          by_cases refers : ∃ target, value = .entity target
          · obtain ⟨target, rfl⟩ := refers
            obtain ⟨other, isOther, rfl, _⟩ := planned_target sound inMemory collected member offered
            obtain ⟨id, _, isFinal⟩ := final other isOther
            exact ⟨_, .related declared offered isFinal⟩
          · exact ⟨_, .unrelated declared offered fun target same => refers ⟨target, same⟩⟩
      | collection _ => cases assigned

structure WrittenTo (layout : Layout) (store after : Store World) (root : InstanceId)
    (address : String × Int64) (subject : InstanceId) : Prop where
  reaches : Reaches store.memory root subject
  needed : (store.instanceAt subject).needsWrite = true
  table : layout.tableOf (store.instanceAt subject).mapping = address.1
  id : after.idOf subject = some address.2

structure Sets (layout : Layout) (dialect : Dialect) (store after : Store World)
    (root : InstanceId) (address : String × Int64) (column : String) (subject : InstanceId) :
    Prop where
  written : WrittenTo layout store after root address subject
  dirty : (store.instanceAt subject).state = .dirty
  assigned : ∃ name value, (store.instanceAt subject).Assigns dialect after.idOf name value ∧
    layout.column name = column

/-- What a save makes of the row of an instance that it writes: of each column to which
something was assigned, unless another changed instance of the row sets the column too. Of a
changed instance this is said where its row is there to be changed: it is, unless the
instance knows a row that the database holds no more. -/
structure Writes (layout : Layout) (dialect : Dialect) (store after : Store World)
    (root : InstanceId) (before now : Contents) (subject : InstanceId) (id : Int64) : Prop where
  keyed : after.idOf subject = some id
  related : ∀ relation target,
    .object relation ∈ (store.instanceAt subject).mapping.properties →
    (store.instanceAt subject).pending.lookup relation.name = some (.entity target) →
    (after.idOf target).isSome = true
  inserted : (store.instanceAt subject).state = .transient →
    ∃ fields, now (layout.tableOf (store.instanceAt subject).mapping) id = some fields ∧
      ∀ column value, (store.instanceAt subject).Assigns dialect after.idOf column value →
        (∀ other, Sets layout dialect store after root
          (layout.tableOf (store.instanceAt subject).mapping, id) (layout.column column) other →
          other = subject) →
        fields (layout.column column) = layout.stored value
  updated : (store.instanceAt subject).state = .dirty →
    (store.instanceAt subject).row = none ∨
      before (layout.tableOf (store.instanceAt subject).mapping) id ≠ none →
    ∃ fields, now (layout.tableOf (store.instanceAt subject).mapping) id = some fields ∧
      ∀ column value, (store.instanceAt subject).Assigns dialect after.idOf column value →
        (∀ other, Sets layout dialect store after root
          (layout.tableOf (store.instanceAt subject).mapping, id) (layout.column column) other →
          other = subject) →
        layout.Agree value (fields (layout.column column)) ∨
          ((store.instanceAt subject).Knows column value ∧
            ∃ old, before (layout.tableOf (store.instanceAt subject).mapping) id = some old ∧
              fields (layout.column column) = old (layout.column column))

/-- A save writes nothing else: rows that no new or changed instance is kept in stay as they
are, and of the rows that were there before the columns that no changed instance sets. -/
structure WritesOnly (layout : Layout) (dialect : Dialect) (store after : Store World)
    (root : InstanceId) (before now : Contents) : Prop where
  rows : ∀ address, (∀ subject, ¬WrittenTo layout store after root address subject) →
    now.row address = before.row address
  columns : ∀ address old, before.row address = some old →
    ∃ fields, now.row address = some fields ∧
      ∀ column, (∀ subject, ¬Sets layout dialect store after root address column subject) →
        fields column = old column

private theorem writesOnly_refl (layout : Layout) (dialect : Dialect) (store after : Store World)
    (root : InstanceId) (contents : Contents) :
    WritesOnly layout dialect store after root contents contents :=
  ⟨fun _ _ => rfl, fun _ old isOld => ⟨old, isOld, fun _ _ => rfl⟩⟩

section Rows

variable {dialect : Dialect} {writing : Writing dialect (graph.plan dialect)}
  {before settled now : Ledger} {planned : PlannedNode} {id : Int64} {address : String × Int64}

private theorem frame_of_present (settles : writing.Settled layout before.contents settled.contents)
    (present : before.contents.row address ≠ none) :
    settled.contents.row address = before.contents.row address :=
  settles.frame address fun entry isInserted same =>
    present (same ▸ settles.absent entry isInserted)

private theorem columns_of_inserted
    (settles : writing.Settled layout before.contents settled.contents)
    (replays : Ledger.Replays layout layout.Answers settled writing.changeLog now)
    (member : planned ∈ graph.plan dialect) (isNew : planned.isNew = true)
    (isKnown : writing.known.lookup planned.place = some id) :
    ∃ fields, now.contents.row (layout.address planned id) = some fields ∧
      ∀ assignment ∈ planned.assignments,
        (∀ other ∈ graph.plan dialect, ¬other.SetsColumn layout (layout.address planned id)
          (layout.column assignment.column)) →
        fields (layout.column assignment.column)
          = layout.stored (assignment.source.resolve writing.known) := by
  obtain ⟨entry, isInserted, rfl⟩ := writing.exists_inserted member isNew
  obtain rfl : id = entry.2.id := by
    rw [(writing.inserts.lookup isInserted).1] at isKnown
    exact (Option.some.inj isKnown).symm
  obtain ⟨first, present, holds⟩ := settles.holds entry isInserted
  have rewrites := writing.changes.rewrites replays (layout.address entry.1.planned entry.2.id)
  rw [present] at rewrites
  obtain ⟨fields, isNow⟩ := Option.isSome_iff_exists.mp rewrites.isSome_eq
  rw [isNow] at rewrites
  refine ⟨fields, isNow, fun assignment isAssignment unset => ?_⟩
  exact (Option.some.inj (rewrites.column_eq unset)).trans (holds.assigned assignment isAssignment)

private theorem exists_held {first : List PlannedNode} {current : Option Fields} {known : Row}
    (settles : writing.Settled layout before.contents settled.contents)
    (present : planned.content.row = none ∨
      before.contents.row (layout.address planned id) ≠ none)
    (earlier : Rewrites layout layout.Answers dialect writing.known (layout.address planned id)
      first (settled.contents.row (layout.address planned id)) current)
    (isOld : OldRow layout.Answers dialect planned id current (layout.address planned id) known) :
    ∃ held, current = some held ∧
      ((planned.content.row = some known ∧ settled.contents.row (layout.address planned id)
          = before.contents.row (layout.address planned id)) ∨
        layout.Shows planned.mapping.columns held known) := by
  -- The row before the change is the one that is known, or the database has just shown it.
  cases isOld with
  | held isRow =>
      have there := present.resolve_left fun missing => by
        rw [missing] at isRow
        cases isRow
      have frame := frame_of_present settles there
      rw [← frame] at there
      obtain ⟨held, isHeld⟩ := Option.isSome_iff_exists.mp
        (earlier.isSome_eq.trans (Option.isSome_iff_ne_none.mpr there))
      exact ⟨held, isHeld, Or.inl ⟨isRow, frame⟩⟩
  | fetched _ isFirst truthful same =>
      rcases Layout.answers_selectById truthful with ⟨_, rfl⟩ | ⟨held, row, found, rfl, shown⟩
      · cases isFirst
      · cases isFirst
        exact ⟨held, same.symm.trans found, Or.inr shown⟩

/-- The columns of a changed instance that no other one sets. -/
theorem columns_of_updated (settles : writing.Settled layout before.contents settled.contents)
    (replays : Ledger.Replays layout layout.Answers settled writing.changeLog now)
    (member : planned ∈ graph.plan dialect) (tidy : planned.Tidy)
    (dirty : planned.content.state = .dirty) (keyed : planned.content.key.id = some id)
    (present : planned.content.row = none ∨
      before.contents.row (layout.address planned id) ≠ none) :
    ∃ fields, now.contents.row (layout.address planned id) = some fields ∧
      ∀ assignment ∈ planned.assignments,
        (∀ other ∈ graph.plan dialect, other.SetsColumn layout (layout.address planned id)
          (layout.column assignment.column) → other = planned) →
        layout.Agree (assignment.source.resolve writing.known)
            (fields (layout.column assignment.column)) ∨
          (planned.content.Knows assignment.column (assignment.source.resolve writing.known) ∧
            ∃ old, before.contents.row (layout.address planned id) = some old ∧
              fields (layout.column assignment.column) = old (layout.column assignment.column)) := by
  have distinct : (graph.plan dialect).Nodup :=
    List.Nodup.of_map _ (Graph.places_plan dialect graph)
  obtain ⟨first, rest, current, known, isSplit, earlier, isOld, later⟩ :=
    (writing.changes.rewrites replays _).exists_turn member dirty keyed rfl
  rw [isSplit, List.nodup_append] at distinct
  obtain ⟨held, rfl, source⟩ := exists_held settles present earlier isOld
  obtain ⟨fields, isNow⟩ := Option.isSome_iff_exists.mp later.isSome_eq
  rw [isNow] at later
  refine ⟨fields, isNow, fun assignment isPlanned sole => ?_⟩
  -- Neither before nor after its turn anything else sets the column.
  have before_eq := earlier.column_eq fun other isFirst sets => by
    obtain rfl := sole other (isSplit ▸ List.mem_append_left _ isFirst) sets
    exact distinct.2.2 _ isFirst _ List.mem_cons_self rfl
  have after_eq := later.column_eq fun other isRest sets => by
    obtain rfl := sole other
      (isSplit ▸ List.mem_append_right _ (List.mem_cons_of_mem _ isRest)) sets
    exact (List.nodup_cons.mp distinct.2.1).1 isRest
  have columnsDistinct : Row.Distinct (Assignment.columns writing.known planned.assignments) :=
    tidy.distinct_map (List.Sublist.refl _) _
  have isColumn : (assignment.column, assignment.source.resolve writing.known)
      ∈ Assignment.columns writing.known planned.assignments :=
    List.mem_map.mpr ⟨assignment, isPlanned, rfl⟩
  have isField : fields (layout.column assignment.column) = layout.write (changedColumns known
      (Assignment.columns writing.known planned.assignments)) held (layout.column assignment.column) :=
    Option.some.inj after_eq
  rcases @Layout.write_changedColumns layout known _ columnsDistinct held _ isColumn with
    stored | ⟨unchanged, value, found, same⟩
  · exact Or.inl (.of_stored (isField.trans stored))
  · rcases source with ⟨isRow, frame⟩ | shown
    · rw [frame] at before_eq
      obtain ⟨old, isThere, sameOld⟩ := Option.map_eq_some_iff.mp before_eq.symm
      exact Or.inr ⟨⟨known, value, isRow, found, same⟩, old, isThere,
        (isField.trans unchanged).trans sameOld.symm⟩
    · have isShown := shown assignment.column
        (List.mem_cons_of_mem _ (tidy.mem_columns isPlanned))
      rw [found] at isShown
      cases isShown
      rw [isField.trans unchanged]
      exact Or.inl (Or.inl (Value.Alike.of_same same).symm)

end Rows

section Written

variable {dialect : Dialect} {writing : Writing dialect (graph.plan dialect)}
  {before now : Ledger} {address : String × Int64} (sound : store.Sound)
  (inMemory : root < store.memory.size)
  (collected : Graph.collect store.id store.memory root = .ok graph)
  (final : ∀ planned ∈ graph.plan dialect, ∃ id, writing.known.lookup planned.place = some id ∧
    after.idOf planned.node.subject = some id)
include sound inMemory collected final

private theorem writtenTo_of_planned {planned : PlannedNode} (member : planned ∈ graph.plan dialect)
    (needed : planned.content.needsWrite = true) {id : Int64}
    (isKnown : writing.known.lookup planned.place = some id) :
    WrittenTo layout store after root (layout.address planned id) planned.node.subject := by
  have contentAt := sound.instanceAt_plan collected member
  obtain ⟨isFinalId, known, isFinal⟩ := final planned member
  obtain rfl := Option.some.inj (known.symm.trans isKnown)
  refine ⟨sound.reaches_of_plan inMemory collected member, ?_, ?_, isFinal⟩
  · rw [contentAt]
    exact needed
  · rw [contentAt]
    rfl

private theorem writtenTo_of_touches {planned : PlannedNode} (member : planned ∈ graph.plan dialect)
    (touches : planned.Touches layout address) :
    WrittenTo layout store after root address planned.node.subject := by
  obtain ⟨dirty, id, keyed, rfl⟩ := touches
  exact writtenTo_of_planned sound inMemory collected final member
    (by simp [Instance.needsWrite, dirty])
    (writing.known_of_id (Graph.places_plan dialect graph) member keyed)

private theorem sets_of_setsColumn {planned : PlannedNode} (member : planned ∈ graph.plan dialect)
    {column : String} (sets : planned.SetsColumn layout address column) :
    Sets layout dialect store after root address column planned.node.subject := by
  obtain ⟨touches, assignment, isAssignment, rfl⟩ := sets
  have contentAt := sound.instanceAt_plan collected member
  obtain ⟨value, assigns⟩ :=
    exists_assigns sound inMemory collected final member touches.1 isAssignment
  refine ⟨writtenTo_of_touches sound inMemory collected final member touches, ?_,
    assignment.column, value, ?_, rfl⟩
  · rw [contentAt]
    exact touches.1
  · rw [contentAt]
    exact assigns

variable (replays : Ledger.Replays layout layout.Answers before writing.log now)
include replays

private theorem writesOnly_of_writing :
    WritesOnly layout dialect store after root before.contents now.contents := by
  obtain ⟨settled, settles, replaysChange⟩ := writing.exists_settled
    (fun planned member _ => (sound.fit_of_plan collected member).tidy) replays
  constructor
  · intro address unwritten
    refine (writing.changes.frame replaysChange fun planned member touches => ?_).trans
      (settles.frame address fun entry isInserted same => ?_)
    · exact unwritten _ (writtenTo_of_touches sound inMemory collected final member touches)
    · obtain ⟨member, isNew⟩ := writing.planned_of_inserted isInserted
      have transient : entry.1.planned.content.state = .transient := of_decide_eq_true isNew
      refine unwritten entry.1.planned.node.subject (same ▸ ?_)
      exact writtenTo_of_planned sound inMemory collected final member
        (by simp [Instance.needsWrite, transient]) (writing.inserts.lookup isInserted).1
  · intro address old isOld
    have rewrites := writing.changes.rewrites replaysChange address
    rw [frame_of_present settles (by rw [isOld]; exact Option.some_ne_none old), isOld] at rewrites
    obtain ⟨fields, isNow⟩ := Option.isSome_iff_exists.mp rewrites.isSome_eq
    rw [isNow] at rewrites
    refine ⟨fields, isNow, fun column unset => ?_⟩
    exact Option.some.inj (rewrites.column_eq fun planned member sets =>
      unset _ (sets_of_setsColumn sound inMemory collected final member sets))

/-- A plan that was carried out, if afterwards the instances have the ids that became
known. -/
theorem writes_of_writing {subject : InstanceId} (reached : Reaches store.memory root subject)
    (needed : (store.instanceAt subject).needsWrite = true) :
    ∃ id, Writes layout dialect store after root before.contents now.contents subject id := by
  have isMember : subject ∈ graph.subjects := (sound.mem_graph inMemory collected _).mpr reached
  obtain ⟨planned, isPlanned, rfl, _⟩ := @exists_planned _ _ dialect isMember
  have contentAt := sound.instanceAt_plan collected isPlanned
  rw [contentAt] at needed
  obtain ⟨id, isKnown, isFinal⟩ := final planned isPlanned
  obtain ⟨settled, settles, replaysChange⟩ := writing.exists_settled
    (fun planned member _ => (sound.fit_of_plan collected member).tidy) replays
  -- What alone sets a column among instances does so in the plan.
  have alone {column : String} (sole : ∀ other, Sets layout dialect store after root
      (layout.tableOf planned.content.mapping, id) column other → other = planned.node.subject)
      {other : PlannedNode} (isOther : other ∈ graph.plan dialect)
      (sets : other.SetsColumn layout (layout.address planned id) column) : other = planned :=
    planned_eq_of_subject collected isOther isPlanned
      (sole _ (sets_of_setsColumn sound inMemory collected final isOther sets))
  refine ⟨id, isFinal, ?_, ?_, ?_⟩
  · intro relation target declared assigned
    rw [contentAt] at assigned
    obtain ⟨other, isOther, rfl, _⟩ := planned_target sound inMemory collected isPlanned assigned
    obtain ⟨_, _, otherFinal⟩ := final other isOther
    rw [otherFinal]
    rfl
  · intro transient
    rw [contentAt] at transient ⊢
    obtain ⟨fields, isNow, holds⟩ := columns_of_inserted settles replaysChange isPlanned
      (decide_eq_true transient) isKnown
    refine ⟨fields, isNow, fun column value assigns sole => ?_⟩
    obtain ⟨assignment, isAssignment, rfl, rfl⟩ :=
      exists_assignment sound inMemory collected final isPlanned needed assigns
    refine holds assignment isAssignment fun other isOther sets => ?_
    obtain rfl := alone sole isOther sets
    rw [sets.1.1] at transient
    cases transient
  · intro dirty present
    rw [contentAt] at dirty present ⊢
    -- A changed instance has an id, which is the one that is known of it.
    obtain ⟨ownId, keyed⟩ := Option.isSome_iff_exists.mp
      ((sound.of_plan collected isPlanned).2.2.sound.keyed (Or.inr dirty))
    obtain rfl : id = ownId := Option.some.inj (isKnown.symm.trans
      (writing.known_of_id (Graph.places_plan dialect graph) isPlanned keyed))
    obtain ⟨fields, isNow, holds⟩ := columns_of_updated settles replaysChange isPlanned
      (sound.fit_of_plan collected isPlanned).tidy dirty keyed present
    refine ⟨fields, isNow, fun column value assigns sole => ?_⟩
    obtain ⟨assignment, isAssignment, rfl, rfl⟩ :=
      exists_assignment sound inMemory collected final isPlanned needed assigns
    exact holds assignment isAssignment fun other isOther sets => alone sole isOther sets

end Written

end Store

namespace Samples

/-- Two instances of Ada's key are given different names, and one refers to the other. -/
def twins : List (ThreadId × Action) := twofold ++ [
  (0, .assign 1 "friend" (.entity 0)), (0, .assign 0 "name" (.value (.text "Cy")))]

/-- Ada is removed through another instance of her key, and the first one is given a name. -/
def removedElsewhere : List (ThreadId × Action) := saved ++ [
  (0, .reference "Person" 1), (0, .remove 1), (0, .assign 0 "name" (.value (.text "Bo")))]

end Samples

namespace Deployment

variable {World : Type} {layout : Layout} {deployment : Deployment World}
  {faithful : Faithful layout deployment.database}
  {allowed : Store World → ThreadId → Action → Prop} {store after : Store World}
  {thread : ThreadId} {root : InstanceId}

/-- Whatever was done before, a save that succeeds outside of any transaction leaves in the
rows of the new and changed instances that it reaches what was assigned to them, but for
columns of which the instance knows that they have the value already and for those that
another instance of the row sets. It writes nothing else. -/
theorem save_writes_assigned (rest : faithful.AtRest deployment.world)
    (reached : deployment.Reached allowed store)
    (fits : ∀ mapping ∈ store.registry.mappings, layout.Fits mapping)
    (outside : store.inTransaction thread = false) (inMemory : root < store.memory.size)
    (saved : (Store.save (deployment.session thread) root).run store = (.ok (), after)) :
    Store.WritesOnly layout deployment.dialect store after root
      (faithful.published store.pool.world) (faithful.published after.pool.world) ∧
    ∀ subject, Reaches store.memory root subject →
      (store.instanceAt subject).needsWrite = true →
      ∃ id, Store.Writes layout deployment.dialect store after root
        (faithful.published store.pool.world) (faithful.published after.pool.world) subject id := by
  have regular := reached.regular
  have orderly := reached.orderly rest fits
  obtain ⟨graph, _, collected, ends⟩ := Store.save_ok regular saved
  cases ends with
  | unchanged nothing =>
      refine ⟨Store.writesOnly_refl _ _ _ _ _ _, fun subject reaches needed => ?_⟩
      rw [regular.sound.needsWrite_of_reached inMemory collected reaches needed] at nothing
      cases nothing
  | @written written between after unit settled =>
      have sameSize : between.memory.size = store.memory.size := congrArg Prod.snd unit.extent
      have sameIds (other : InstanceId) : between.idOf other = store.idOf other := unit.idOf other
      cases unit with
      | recorded _ inside _ _ _ =>
          unfold Store.inTransaction at outside
          rw [show store.transaction? thread = some _ from inside] at outside
          cases outside
      | @applied pool lease connection world _ writes _ _ acquired held bracketed =>
          obtain ⟨log, ⟨writing, same, rfl⟩, published⟩ := Store.published_of_applied regular
            orderly fits acquired held bracketed (Store.pool_written writes store.cache.generation
              { store with pool := { pool with world := world } })
          obtain rfl : written = writing.written := congrArg Prod.fst same
          obtain ⟨start, last, replays⟩ := published.replayed
          rw [Store.pool_settleAll settled]
          have final (planned : PlannedNode)
              (member : planned ∈ graph.plan (deployment.session thread).dialect) :=
            Store.final_id regular collected writing sameIds sameSize settled member
          exact ⟨Store.writesOnly_of_writing regular.sound inMemory collected final replays,
            fun subject reaches needed => Store.writes_of_writing regular.sound inMemory collected
              final replays reaches needed⟩

set_option maxRecDepth 100000 in
/-- The second instance of a key is saved under the name that it was given. -/
theorem save_writes_assigned_twofold : ∃ store after : Store Tables.World, ∃ id,
    (Store.save (Samples.deployment.session 0) 1).run store = (.ok (), after) ∧
      (store.instanceAt 1).state = .dirty ∧ (store.instanceAt 1).row = none ∧
      (store.instanceAt 1).Assigns Dialect.sqlite after.idOf "name" (.text "Bo") ∧
      Store.Writes (Tables.layout fun _ => "id") Dialect.sqlite store after 1
        (Samples.faithful.published store.pool.world)
        (Samples.faithful.published after.pool.world) 1 id := by
  obtain ⟨store, visited⟩ : ∃ store, Samples.deployment.visited? Samples.twofold = some store :=
    Option.isSome_iff_exists.mp (by decide +kernel)
  have facts : ∀ store ∈ Samples.deployment.visited? Samples.twofold,
      ((Store.save (Samples.deployment.session 0) 1).run store).1.isOk = true ∧
        store.inTransaction 0 = false ∧ 1 < store.memory.size ∧
        (store.instanceAt 1).state = .dirty ∧ (store.instanceAt 1).row = none ∧
        (store.instanceAt 1).pending = [("name", .value (.text "Bo"))] ∧
        .scalar ⟨"name", .string, "name", true, none, none⟩
          ∈ (store.instanceAt 1).mapping.properties ∧
        ∀ mapping ∈ store.registry.mappings, (Tables.layout fun _ => "id").column
          mapping.id.column = (Tables.layout fun _ => "id").column "id" := by
    decide +kernel
  obtain ⟨isOk, outside, inMemory, dirty, unread, pending, declared, keyed⟩ := facts store visited
  have reached := Deployment.reached_visited (fun _ _ _ _ => trivial) visited
  have fits : ∀ mapping ∈ store.registry.mappings, (Tables.layout fun _ => "id").Fits mapping :=
    fun mapping member =>
      ⟨reached.regular.sound.registry.mappings mapping member, keyed mapping member⟩
  generalize saved : (Store.save (Samples.deployment.session 0) 1).run store = result at isOk
  obtain ⟨outcome | _, after⟩ := result
  · cases isOk
  have assigned : (store.instanceAt 1).pending.lookup "name" = some (.value (.text "Bo")) := by
    rw [pending]
    rfl
  have needed : (store.instanceAt 1).needsWrite = true := by simp [Instance.needsWrite, dirty]
  obtain ⟨_, written⟩ := @save_writes_assigned _ _ _ Samples.faithful _ _ _ _ _
    (Tables.atRest_empty _ _) reached fits outside inMemory saved
  obtain ⟨id, writes⟩ := written 1 .refl needed
  exact ⟨store, after, id, saved, dirty, unread, .scalar declared assigned, writes⟩

/-- After some steps an instance of a person is given a name and saved outside of any
transaction. The save succeeds, and the row of the person has no or another name. -/
def Loses (steps : List (ThreadId × Action)) (root : InstanceId) (name : String)
    (held : Option Value) : Prop :=
  ∃ store after : Store Tables.World, Samples.deployment.visited? steps = some store ∧
    store.inTransaction 0 = false ∧
    (Store.save (Samples.deployment.session 0) root).run store = (.ok (), after) ∧
    (store.instanceAt root).Assigns Dialect.sqlite after.idOf "name" (.text name) ∧
    after.idOf root = some 1 ∧
    (Samples.faithful.published after.pool.world "person" 1).map (fun fields => fields "name")
      = held

private theorem loses_of_visited {steps : List (ThreadId × Action)} {root : InstanceId}
    {name : String}
    {held : Option Value} (isVisited : (Samples.deployment.visited? steps).isSome = true)
    (facts : ∀ store ∈ Samples.deployment.visited? steps,
      let saved := (Store.save (Samples.deployment.session 0) root).run store
      saved.1.isOk = true ∧ store.inTransaction 0 = false ∧ saved.2.idOf root = some 1 ∧
        (store.instanceAt root).pending.lookup "name" = some (.value (.text name)) ∧
        .scalar ⟨"name", .string, "name", true, none, none⟩
          ∈ (store.instanceAt root).mapping.properties ∧
        (saved.2.pool.world.published.contents "person" 1).map (fun fields => fields "name")
          = held) : Loses steps root name held := by
  obtain ⟨store, visited⟩ := Option.isSome_iff_exists.mp isVisited
  obtain ⟨isOk, outside, keyed, assigned, declared, isHeld⟩ := facts store visited
  generalize saved : (Store.save (Samples.deployment.session 0) root).run store = result
    at isOk keyed isHeld
  obtain ⟨outcome | _, after⟩ := result
  · cases isOk
  exact ⟨store, after, visited, outside, saved, .scalar declared assigned, keyed, isHeld⟩

set_option maxRecDepth 100000 in
/-- Ada is given the name that she is known by, and the other one stays in her row; two
instances of her key are given different names and saved together; Ada is removed through
another instance and then given a name. -/
theorem assigned_names_lost :
    Loses Samples.stale 0 "Ada" (some (.text "Bo")) ∧
    Loses Samples.twins 1 "Bo" (some (.text "Cy")) ∧
    Loses Samples.removedElsewhere 0 "Bo" none :=
  ⟨loses_of_visited (by decide +kernel) (by decide +kernel),
    loses_of_visited (by decide +kernel) (by decide +kernel),
    loses_of_visited (by decide +kernel) (by decide +kernel)⟩

end Deployment
end EntityStore
