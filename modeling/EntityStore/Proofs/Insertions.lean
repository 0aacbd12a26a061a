/-
The insertions of a save, one for each new instance. An insertion gives every relation
that has an assigned instance the id of that instance, which is known by then, or null if
the relation may be empty. Where the ids are free, the log can be replayed.
-/

import EntityStore.Proofs.Columns

set_option autoImplicit false

namespace EntityStore

def Event.insertion? : Event → Option Statement
  | .executed statement =>
      match statement.request with
      | .insert .. => some statement
      | _ => none
  | _ => none

/-- The statement inserts the instance: each relation with an assigned instance is given
the id of that instance, which is a known one, or else null if it may be empty. -/
def Instance.InsertedBy (content : Instance) (dialect : Dialect)
    (idOf : InstanceId → Option Int64) (known : InstanceId → Prop) (statement : Statement) :
    Prop :=
  ∃ columns, statement = Statement.insert dialect content.mapping columns ∧
    Row.Distinct columns ∧
    ∀ relation, .object relation ∈ content.mapping.properties → ∀ target,
      content.pending.lookup relation.name = some (.entity target) →
      (relation.nullable = true ∧ (relation.column, .null) ∈ columns) ∨
        (known target ∧ ∃ id, idOf target = some id ∧ (relation.column, .integer id) ∈ columns)

/-- The statements insert the instances, one after the other; an instance that was
inserted is a known one for those that follow. -/
inductive InsertsInOrder (contentOf : InstanceId → Instance) (dialect : Dialect)
    (idOf : InstanceId → Option Int64) :
    (InstanceId → Prop) → List Statement → List InstanceId → Prop where
  | nil (known : InstanceId → Prop) : InsertsInOrder contentOf dialect idOf known [] []
  | cons {known : InstanceId → Prop} {statement : Statement} {statements : List Statement}
      {subject : InstanceId} {order : List InstanceId} :
      (contentOf subject).InsertedBy dialect idOf known statement →
      InsertsInOrder contentOf dialect idOf (fun other => other = subject ∨ known other)
        statements order →
      InsertsInOrder contentOf dialect idOf known (statement :: statements) (subject :: order)

theorem InsertsInOrder.weaken {contentOf : InstanceId → Instance} {dialect : Dialect}
    {idOf : InstanceId → Option Int64} {known more : InstanceId → Prop}
    {statements : List Statement} {order : List InstanceId}
    (inserts : InsertsInOrder contentOf dialect idOf known statements order)
    (weaker : ∀ subject, known subject → more subject) :
    InsertsInOrder contentOf dialect idOf more statements order := by
  induction inserts generalizing more with
  | nil => exact .nil more
  | cons inserted _ ih =>
      obtain ⟨columns, same, distinct, relations⟩ := inserted
      refine .cons ⟨columns, same, distinct, fun relation declared target assigned => ?_⟩
        (ih fun subject => Or.imp id (weaker subject))
      exact (relations relation declared target assigned).imp id
        fun ⟨isKnown, given⟩ => ⟨weaker target isKnown, given⟩

/-! ### Logs without insertions -/

theorem Drawn.insertion? {dialect : Dialect} {plan : List PlannedNode} {ids : Ids}
    {log : List Event} (drawn : Drawn dialect plan ids log) :
    log.filterMap Event.insertion? = [] := by
  induction drawn with
  | nil => rfl
  | without _ _ ih => exact ih
  | drawn _ _ _ ih => exact ih

private theorem insertion?_updateLog (dialect : Dialect) (mapping : Mapping)
    (columns : List (String × Value)) (id : Int64) :
    (updateLog dialect mapping columns id).filterMap Event.insertion? = [] := by
  unfold updateLog
  split <;> rfl

theorem Completed.insertion? {dialect : Dialect} {ids : Ids}
    {inserted : List (Waiting × Written)} {completed : List Written} {log : List Event}
    (completes : Completed dialect ids inserted completed log) :
    log.filterMap Event.insertion? = [] := by
  induction completes with
  | nil => rfl
  | cons _ ih => rw [List.filterMap_append, insertion?_updateLog, ih, List.append_nil]

theorem RowBefore.insertion? {dialect : Dialect} {content : Instance} {row : Row}
    {log : List Event} (before : RowBefore dialect content row log) :
    log.filterMap Event.insertion? = [] := by
  cases before <;> rfl

theorem Updated.insertion? {dialect : Dialect} {ids : Ids} {plan : List PlannedNode}
    {changed : List Written} {log : List Event}
    (changes : Updated dialect ids plan changed log) :
    log.filterMap Event.insertion? = [] := by
  induction changes with
  | nil => rfl
  | skipped _ _ ih => exact ih
  | changed _ _ before _ ih =>
      rw [List.filterMap_append, List.filterMap_append, before.insertion?, insertion?_updateLog,
        ih, List.append_nil, List.append_nil]

/-- The insertions of a save are those of its insertion log. -/
theorem Writing.insertion?_log {dialect : Dialect} {plan : List PlannedNode}
    (writing : Writing dialect plan) :
    writing.log.filterMap Event.insertion? = writing.insertLog.filterMap Event.insertion? := by
  unfold Writing.log
  rw [List.filterMap_append, List.filterMap_append, List.filterMap_append,
    writing.draws.insertion?, writing.completes.insertion?, writing.changes.insertion?,
    List.append_nil, List.append_nil, List.nil_append]

/-! ### Insertions in order -/

theorem Waiting.Lenient.nullable {waiting : Waiting} (lenient : waiting.Lenient)
    (tidy : waiting.planned.Tidy) {assignment : Assignment}
    (member : assignment ∈ waiting.planned.assignments)
    (deferred : assignment.property ∈ waiting.deferred) : assignment.nullable = true := by
  obtain ⟨other, otherMember, same, nullable⟩ := lenient _ deferred
  have distinct := tidy.names.nodup tidy.wellFormed.distinctNames
  rw [← List.inj_on_of_nodup_map distinct otherMember member same]
  exact nullable

/-- A relation that is put off is inserted as null. -/
theorem Waiting.postponed_mem_columns {waiting : Waiting} (ids : Ids) {assignment : Assignment}
    (member : assignment ∈ waiting.planned.assignments)
    (deferred : assignment.property ∈ waiting.deferred) :
    (assignment.column, .null) ∈ waiting.columns ids := by
  unfold Waiting.columns
  apply List.mem_append_right
  refine List.mem_map.mpr ⟨assignment, member, ?_⟩
  simp [deferred]

namespace Store

variable {World : Type} {store : Store World} {subject : InstanceId} {graph : Graph}
  {dialect : Dialect}

def KnownIn (plan : List PlannedNode) (ids : Ids) (target : InstanceId) : Prop :=
  ∃ planned ∈ plan, planned.node.subject = target ∧ planned.place ∈ ids.map Prod.fst

/-- What a new instance writes for a relation with an assigned instance is the id of that
instance. -/
theorem exists_reference (sound : store.Sound) (inMemory : subject < store.memory.size)
    (collected : Graph.collect store.id store.memory subject = .ok graph)
    {planned : PlannedNode} (member : planned ∈ graph.plan dialect) (isNew : planned.isNew = true)
    {relation : ObjectRelation} (declared : .object relation ∈ planned.mapping.properties)
    {target : InstanceId}
    (assigned : planned.content.pending.lookup relation.name = some (.entity target)) :
    ∃ other ∈ graph.plan dialect, other.node.subject = target ∧
      ⟨relation.name, relation.column, relation.nullable, .idOf other.place⟩
        ∈ planned.assignments := by
  obtain ⟨other, otherMember, same, placed⟩ :=
    planned_target sound inMemory collected member assigned
  refine ⟨other, otherMember, same, ?_⟩
  have isAssignment := assignment_of_new member isNew declared (assignment?_object isNew relation)
  simpa only [Graph.referenceSource, assigned, placed] using isAssignment

/-- What is ready and not put off is inserted with an id that is known by then. -/
theorem inserted_of_immediate {ids known : Ids} {idOf : InstanceId → Option Int64}
    (final : ∀ planned ∈ graph.plan dialect, ∃ id, known.lookup planned.place = some id ∧
      idOf planned.node.subject = some id)
    (keeps : ∀ place id, ids.lookup place = some id → known.lookup place = some id)
    {waiting : Waiting} (ready : waiting.isReady (ids.map Prod.fst) = true)
    {relation : ObjectRelation} {other : PlannedNode} (otherMember : other ∈ graph.plan dialect)
    (isAssignment : ⟨relation.name, relation.column, relation.nullable, .idOf other.place⟩
      ∈ waiting.planned.assignments) (immediate : relation.name ∉ waiting.deferred) :
    KnownIn (graph.plan dialect) ids other.node.subject ∧
      ∃ id, idOf other.node.subject = some id ∧
        (relation.column, .integer id) ∈ waiting.columns ids := by
  have isKnown := Waiting.isReady_iff.mp ready _
    (Waiting.mem_immediate.mpr ⟨isAssignment, immediate⟩) other.place rfl
  obtain ⟨id, found⟩ := exists_lookup isKnown
  obtain ⟨finalId, knownId, isFinal⟩ := final other otherMember
  rw [keeps _ _ found] at knownId
  have given := waiting.immediate_mem_columns ids isAssignment immediate
  simp only [Source.resolve, found] at given
  exact ⟨⟨other, otherMember, rfl, isKnown⟩, id, isFinal.trans knownId.symm, given⟩

private theorem insertedBy_of_ready (sound : store.Sound) (inMemory : subject < store.memory.size)
    (collected : Graph.collect store.id store.memory subject = .ok graph)
    {ids known : Ids} {idOf : InstanceId → Option Int64}
    (final : ∀ planned ∈ graph.plan dialect, ∃ id, known.lookup planned.place = some id ∧
      idOf planned.node.subject = some id)
    (keeps : ∀ place id, ids.lookup place = some id → known.lookup place = some id)
    {waiting : Waiting} (member : waiting.planned ∈ graph.plan dialect)
    (isNew : waiting.planned.isNew = true) (lenient : waiting.Lenient)
    (ready : waiting.isReady (ids.map Prod.fst) = true) :
    waiting.planned.content.InsertedBy dialect idOf (KnownIn (graph.plan dialect) ids)
      (Statement.insert dialect waiting.planned.mapping (waiting.columns ids)) := by
  have tidy := (sound.fit_of_plan collected member).tidy
  refine ⟨_, rfl, (waiting.columns_ok tidy ids).1, fun relation declared target assigned => ?_⟩
  obtain ⟨other, otherMember, rfl, isAssignment⟩ :=
    exists_reference sound inMemory collected member isNew declared assigned
  by_cases deferred : relation.name ∈ waiting.deferred
  · exact Or.inl ⟨lenient.nullable tidy isAssignment deferred,
      waiting.postponed_mem_columns ids isAssignment deferred⟩
  · exact Or.inr (inserted_of_immediate final keeps ready otherMember isAssignment deferred)

theorem insertsInOrder (sound : store.Sound) (inMemory : subject < store.memory.size)
    (collected : Graph.collect store.id store.memory subject = .ok graph)
    {ids known : Ids} {idOf : InstanceId → Option Int64}
    (final : ∀ planned ∈ graph.plan dialect, ∃ id, known.lookup planned.place = some id ∧
      idOf planned.node.subject = some id)
    {insertions : List Waiting} {inserted : List (Waiting × Written)} {log : List Event}
    (inserts : Inserted dialect ids insertions inserted known log)
    (ordered : Schedule.InOrder (ids.map Prod.fst) insertions)
    (planned : ∀ waiting ∈ insertions, waiting.planned ∈ graph.plan dialect ∧
      waiting.planned.isNew = true ∧ waiting.Lenient) :
    InsertsInOrder store.instanceAt dialect idOf (KnownIn (graph.plan dialect) ids)
      (log.filterMap Event.insertion?)
      (insertions.map fun waiting => waiting.planned.node.subject) := by
  -- Of an insertion one learns no more than the id of its own instance.
  have grows : ∀ (waiting : Waiting) (id : Int64), waiting.planned ∈ graph.plan dialect →
      ∀ (earlier : Ids) target,
        KnownIn (graph.plan dialect) ((waiting.planned.place, id) :: earlier) target →
        target = waiting.planned.node.subject ∨ KnownIn (graph.plan dialect) earlier target := by
    rintro waiting id member earlier target ⟨other, otherMember, same, isKnown⟩
    rcases List.mem_cons.mp isKnown with isHere | isEarlier
    · rw [← same, Graph.eq_of_place_eq otherMember member isHere]
      exact Or.inl rfl
    · exact Or.inr ⟨other, otherMember, same, isEarlier⟩
  -- The induction is on the insertions in order: the ids known at each one are those known before
  -- and those of the instances inserted until then.
  induction inserts with
  | nil ids => exact .nil _
  | @known ids known waiting rest id inserted log found later ih =>
      cases ordered with
      | cons ready orderedRest =>
      obtain ⟨member, isNew, lenient⟩ := planned waiting List.mem_cons_self
      have extended : Inserted dialect ids (waiting :: rest) _ known _ := .known found later
      refine .cons ?_ ((ih final orderedRest fun other otherMember =>
        planned other (List.mem_cons_of_mem waiting otherMember)).weaken
          (grows waiting id member ids))
      rw [sound.instanceAt_plan collected member]
      exact insertedBy_of_ready sound inMemory collected final (fun _ _ => extended.keeps)
        member isNew lenient ready
  | @generated ids known waiting rest id inserted log missing later ih =>
      cases ordered with
      | cons ready orderedRest =>
      obtain ⟨member, isNew, lenient⟩ := planned waiting List.mem_cons_self
      have extended : Inserted dialect ids (waiting :: rest) _ known _ := .generated missing later
      refine .cons ?_ ((ih final orderedRest fun other otherMember =>
        planned other (List.mem_cons_of_mem waiting otherMember)).weaken
          (grows waiting id member ids))
      rw [sound.instanceAt_plan collected member]
      exact insertedBy_of_ready sound inMemory collected final (fun _ _ => extended.keeps)
        member isNew lenient ready

end Store

/-! ### Replaying -/

section Replaying

variable {layout : Layout} {dialect : Dialect}

/-- Whatever the answers are. -/
abbrev anyAnswer (_ : Contents) (_ : Statement) (_ : List Row) : Prop := True

private theorem executes_insert_of_missing {waiting : Waiting} {ids : Ids} {before : Contents}
    {columns : List (String × Value)} {id : Int64} (distinct : Row.Distinct columns)
    (idColumn : (waiting.planned.mapping.id.column, Value.integer id) ∈ columns)
    (included : ∀ entry ∈ waiting.columns ids, entry ∈ columns)
    (missing : before.row (layout.address waiting.planned id) = none) :
    ∃ fields, layout.Executes
      (Statement.insert dialect waiting.planned.mapping (waiting.columns ids)) before
      (before.set (layout.tableOf waiting.planned.mapping) id (some fields)) (some id) := by
  refine ⟨layout.write columns fun _ => .null, Layout.executes_insert.mpr
    ⟨id, _, missing, ?_, ?_, rfl, rfl⟩⟩
  · exact (Layout.write_of_mem distinct _ idColumn).trans (layout.stored_integer id)
  · intro entry member
    exact Layout.write_of_mem distinct _ (included entry member)

theorem Inserted.exists_replay {ids known : Ids} {insertions : List Waiting}
    {inserted : List (Waiting × Written)} {log : List Event}
    (inserts : Inserted dialect ids insertions inserted known log)
    (tidy : ∀ waiting ∈ insertions, waiting.planned.Tidy) {before : Ledger}
    (absent : ∀ entry ∈ inserted,
      before.contents.row (layout.address entry.1.planned entry.2.id) = none)
    (distinct : (inserted.map fun entry => layout.address entry.1.planned entry.2.id).Nodup) :
    ∃ after, Ledger.Replays layout anyAnswer before log after := by
  -- after one insertion the rows of the others are still missing
  have remain : ∀ {entry : Waiting × Written} {rest : List (Waiting × Written)}
      {contents : Contents} (fields : Fields),
      (∀ other ∈ entry :: rest,
        contents.row (layout.address other.1.planned other.2.id) = none) →
      ((entry :: rest).map fun other => layout.address other.1.planned other.2.id).Nodup →
      ∀ other ∈ rest, (contents.set (layout.tableOf entry.1.planned.mapping) entry.2.id
        (some fields)).row (layout.address other.1.planned other.2.id) = none := by
    intro entry rest contents fields missing apart other member
    rw [List.map_cons, List.nodup_cons] at apart
    have elsewhere : layout.address other.1.planned other.2.id
        ≠ layout.address entry.1.planned entry.2.id :=
      fun same => apart.1 (List.mem_map.mpr ⟨other, member, same⟩)
    exact (contents.row_set_of_ne _ elsewhere).trans
      (missing other (List.mem_cons_of_mem entry member))
  induction inserts generalizing before with
  | nil ids => exact ⟨before, .nil before⟩
  | @known ids known waiting rest id inserted log found later ih =>
      obtain ⟨fields, executes⟩ := executes_insert_of_missing
        (waiting.columns_ok (tidy waiting List.mem_cons_self) ids).1
        (Waiting.id_mem_columns found) (fun _ isColumn => isColumn)
        (absent _ List.mem_cons_self)
      obtain ⟨after, replays⟩ := @ih
        (fun other member => tidy other (List.mem_cons_of_mem waiting member)) ⟨_, id⟩
        (remain fields absent distinct) (List.nodup_cons.mp distinct).2
      exact ⟨after, .cons (.executed executes) replays⟩
  | @generated ids known waiting rest id inserted log missing later ih =>
      obtain ⟨fields, executes⟩ := executes_insert_of_missing
        (Waiting.distinct_with_id (tidy waiting List.mem_cons_self) missing id) (by simp)
        (fun _ isColumn => List.mem_append_left _ isColumn)
        (absent _ List.mem_cons_self)
      obtain ⟨after, replays⟩ := @ih
        (fun other member => tidy other (List.mem_cons_of_mem waiting member)) ⟨_, id⟩
        (remain fields absent distinct) (List.nodup_cons.mp distinct).2
      exact ⟨after, .cons (.executed executes) (.cons .generated replays)⟩

private theorem exists_replay_updateLog (mapping : Mapping) (columns : List (String × Value))
    (id : Int64) (before : Ledger) :
    ∃ after, Ledger.Replays layout anyAnswer before (updateLog dialect mapping columns id)
      after := by
  unfold updateLog
  split
  · exact ⟨before, .nil before⟩
  · exact ⟨_, .cons (.executed (Layout.executes_update.mpr ⟨rfl, rfl⟩)) (.nil _)⟩

theorem Drawn.replay {plan : List PlannedNode} {ids : Ids} {log : List Event}
    (draws : Drawn dialect plan ids log) (before : Ledger) :
    Ledger.Replays layout anyAnswer before log before := by
  induction draws with
  | nil => exact .nil before
  | without _ _ ih => exact ih
  | drawn _ _ _ ih => exact .cons (.answered trivial) ih

theorem Completed.exists_replay {ids : Ids} {inserted : List (Waiting × Written)}
    {completed : List Written} {log : List Event}
    (completes : Completed dialect ids inserted completed log) (before : Ledger) :
    ∃ after, Ledger.Replays layout anyAnswer before log after := by
  induction completes generalizing before with
  | nil => exact ⟨before, .nil before⟩
  | cons _ ih =>
      obtain ⟨between, first⟩ := exists_replay_updateLog _ _ _ before
      obtain ⟨after, second⟩ := ih between
      exact ⟨after, first.append second⟩

theorem RowBefore.replay {content : Instance} {row : Row} {log : List Event}
    (old : RowBefore dialect content row log) (before : Ledger) :
    Ledger.Replays layout anyAnswer before log before := by
  cases old with
  | held _ => exact .nil before
  | fetched _ _ _ => exact .cons (.answered trivial) (.nil before)

theorem Updated.exists_replay {ids : Ids} {plan : List PlannedNode} {changed : List Written}
    {log : List Event} (changes : Updated dialect ids plan changed log) (before : Ledger) :
    ∃ after, Ledger.Replays layout anyAnswer before log after := by
  induction changes generalizing before with
  | nil => exact ⟨before, .nil before⟩
  | skipped _ _ ih => exact ih before
  | changed _ _ old _ ih =>
      obtain ⟨between, updates⟩ := exists_replay_updateLog _ _ _ before
      obtain ⟨after, later⟩ := ih between
      exact ⟨after, ((old.replay before).append updates).append later⟩

/-- A save whose new rows are missing and apart can be replayed. -/
theorem Writing.exists_replay {plan : List PlannedNode} (writing : Writing dialect plan)
    (tidy : ∀ planned ∈ plan, planned.content.needsWrite = true → planned.Tidy)
    {before : Ledger}
    (absent : ∀ entry ∈ writing.inserted,
      before.contents.row (layout.address entry.1.planned entry.2.id) = none)
    (distinct :
      (writing.inserted.map fun entry => layout.address entry.1.planned entry.2.id).Nodup) :
    ∃ after, Ledger.Replays layout anyAnswer before writing.log after := by
  have tidyWaiting : ∀ waiting ∈ writing.schedule.insertions, waiting.planned.Tidy := by
    intro waiting isWaiting
    rw [← writing.waiting_eq] at isWaiting
    obtain ⟨entry, isInserted, rfl⟩ := List.mem_map.mp isWaiting
    exact tidy_of_inserted tidy isInserted
  obtain ⟨filled, inserts⟩ := writing.inserts.exists_replay tidyWaiting absent distinct
  obtain ⟨settled, completes⟩ := writing.completes.exists_replay filled
  obtain ⟨after, changes⟩ := writing.changes.exists_replay settled
  exact ⟨after, (writing.draws.replay before).append
    (inserts.append (completes.append changes))⟩

end Replaying

end EntityStore
