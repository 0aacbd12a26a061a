/-
The owners that a save or a removal affects: what it writes, and whatever a relation of one
of these refers to, in the row before or in the row afterwards. The writes of its unit note
them all, if they have ids.
-/

import EntityStore.Proofs.PuttingBack
import EntityStore.Proofs.Transactions

set_option autoImplicit false

namespace EntityStore

/-! ### The owners that writes note -/

namespace WriteSet

variable {writes first second : WriteSet} {key other : Key} {keys : List Key}

private theorem mem_addOwner :
    key ∈ (writes.addOwner other).owners ↔
      key ∈ writes.owners ∨ (key = other ∧ key.hasId = true) := by
  unfold addOwner
  by_cases noted : (other.hasId && !writes.owners.contains other) = true
  · rw [if_pos noted, List.mem_append, List.mem_singleton]
    rw [Bool.and_eq_true] at noted
    constructor
    · rintro (isOld | rfl)
      · exact Or.inl isOld
      · exact Or.inr ⟨rfl, noted.1⟩
    · rintro (isOld | ⟨same, _⟩)
      · exact Or.inl isOld
      · exact Or.inr same
  · rw [if_neg noted]
    constructor
    · exact Or.inl
    · rintro (isOld | ⟨rfl, hasId⟩)
      · exact isOld
      · by_contra isNew
        apply noted
        rw [hasId, Bool.true_and, Bool.not_eq_true', ← Bool.not_eq_true, List.contains_iff_mem]
        exact isNew

private theorem mem_addOwners :
    key ∈ (writes.addOwners keys).owners ↔
      key ∈ writes.owners ∨ (key ∈ keys ∧ key.hasId = true) := by
  unfold addOwners
  induction keys generalizing writes with
  | nil => simp
  | cons one rest ih =>
      rw [List.foldl_cons, ih, mem_addOwner, List.mem_cons, or_and_right, or_assoc]

theorem mem_append :
    key ∈ (first.append second).owners ↔
      key ∈ first.owners ∨ (key ∈ second.owners ∧ key.hasId = true) :=
  mem_addOwners

theorem mem_ofWritten {written : List Written} :
    key ∈ (ofWritten written).owners ↔
      key.hasId = true ∧ ∃ one ∈ written, key = one.key ∨ key ∈ one.targets := by
  have added : ∀ writes : WriteSet, key ∈ (written.foldl addWritten writes).owners ↔
      key ∈ writes.owners ∨
        (key.hasId = true ∧ ∃ one ∈ written, key = one.key ∨ key ∈ one.targets) := by
    induction written with
    | nil => simp
    | cons one rest ih =>
        intro writes
        have here : key ∈ (writes.addWritten one).owners ↔
            key ∈ writes.owners ∨ (key ∈ one.key :: one.targets ∧ key.hasId = true) :=
          mem_addOwners
        rw [List.foldl_cons, ih, here, List.mem_cons, List.exists_mem_cons_iff, and_or_left,
          or_assoc, and_comm]
  rw [ofWritten, added]
  simp

theorem mem_ofRemoval {mapping : Mapping} {row : Option Row} :
    key ∈ (ofRemoval mapping other row).owners ↔
      key.hasId = true ∧ (key = other ∨ ∃ known, row = some known ∧ key ∈ mapping.targetsOf known) := by
  have noted : key ∈ (ofRemoval mapping other row).owners ↔
      key ∈ [] ∨ (key ∈ other :: (row.map mapping.targetsOf).getD [] ∧ key.hasId = true) :=
    mem_addOwners
  rw [noted, List.mem_cons, and_comm]
  cases row with
  | none => simp
  | some known => simp

end WriteSet

/-! ### The targets of rows -/

def Mapping.Targets (mapping : Mapping) (row : Row) (key : Key) : Prop :=
  ∃ relation ∈ mapping.objectRelations, ∃ id,
    (row.get? relation.column).bind Value.integer? = some id ∧ key = Key.withId relation.target id

theorem Mapping.mem_targetsOf {mapping : Mapping} {row : Row} {key : Key} :
    key ∈ mapping.targetsOf row ↔ mapping.Targets row key := by
  unfold targetsOf Targets
  rw [List.mem_filterMap]
  constructor
  · rintro ⟨relation, declared, found⟩
    obtain ⟨id, refers, rfl⟩ := Option.map_eq_some_iff.mp found
    exact ⟨relation, declared, id, refers, rfl⟩
  · rintro ⟨relation, declared, id, refers, rfl⟩
    exact ⟨relation, declared, Option.map_eq_some_iff.mpr ⟨id, refers, rfl⟩⟩

theorem Written.mem_targets {written : Written} {row : Row} {key : Key}
    (isRow : written.old = some row ∨ written.row = row)
    (targets : written.planned.mapping.Targets row key) : key ∈ written.targets := by
  obtain ⟨relation, declared, id, refers, rfl⟩ := targets
  unfold Written.targets
  refine List.mem_flatMap.mpr ⟨relation, declared, List.mem_map_of_mem ?_⟩
  rcases isRow with isOld | rfl
  · refine List.mem_filterMap.mpr ⟨_, List.mem_cons_self, ?_⟩
    rw [isOld]
    exact refers
  · exact List.mem_filterMap.mpr ⟨_, List.mem_cons_of_mem _ List.mem_cons_self, refers⟩

/-! ### The rows that are looked up -/

def Event.fetched? : Event → Option (List Row)
  | .answered statement rows =>
      match statement.request with
      | .selectById .. => some rows
      | _ => none
  | _ => none

def fetches (log : List Event) : List (List Row) := log.filterMap Event.fetched?

private theorem fetches_append (first second : List Event) :
    fetches (first ++ second) = fetches first ++ fetches second :=
  List.filterMap_append

private theorem fetches_updateLog (dialect : Dialect) (mapping : Mapping)
    (columns : List (String × Value))
    (id : Int64) : fetches (updateLog dialect mapping columns id) = [] := by
  unfold updateLog
  split <;> rfl

theorem Drawn.fetches {dialect : Dialect} {plan : List PlannedNode} {ids : Ids} {log : List Event}
    (draws : Drawn dialect plan ids log) : fetches log = [] := by
  induction draws with
  | nil => rfl
  | without _ _ ih => exact ih
  | drawn _ next _ ih =>
      obtain ⟨_, _, rfl⟩ := Option.map_eq_some_iff.mp next
      exact ih

theorem Inserted.fetches {dialect : Dialect} {ids known : Ids} {insertions : List Waiting}
    {inserted : List (Waiting × Written)} {log : List Event}
    (inserts : Inserted dialect ids insertions inserted known log) : fetches log = [] := by
  induction inserts with
  | nil _ => rfl
  | known _ _ ih => exact ih
  | generated _ _ ih => exact ih

theorem Completed.fetches {dialect : Dialect} {ids : Ids} {inserted : List (Waiting × Written)}
    {completed : List Written} {log : List Event}
    (completes : Completed dialect ids inserted completed log) : fetches log = [] := by
  induction completes with
  | nil => rfl
  | cons _ ih => rw [fetches_append, fetches_updateLog, ih, List.append_nil]

/-- A changed instance without its row: to save it, the row has to be looked up. -/
def Instance.isUnread (content : Instance) : Bool :=
  decide (content.state = .dirty) && content.row.isNone

theorem Updated.old {dialect : Dialect} {ids : Ids} {plan : List PlannedNode}
    {changed : List Written} {log : List Event} (changes : Updated dialect ids plan changed log)
    {one : Written} (member : one ∈ changed) {row : Row} (held : one.planned.content.row = some row) :
    one.old = some row := by
  induction changes with
  | nil => cases member
  | skipped _ _ ih => exact ih member
  | changed _ _ before _ ih =>
      rcases List.mem_cons.mp member with rfl | isLater
      · cases before with
        | held same =>
            rw [show _ = some row from held] at same
            exact same.symm
        | fetched missing _ _ =>
            rw [show _ = some row from held] at missing
            cases missing
      · exact ih isLater

/-- The rows that are looked up while changes are made are, in this order, the old ones of
those that had none. -/
theorem Updated.fetched {dialect : Dialect} {ids : Ids} {plan : List PlannedNode}
    {changed : List Written} {log : List Event} (changes : Updated dialect ids plan changed log)
    (keyed : ∀ planned ∈ plan, planned.content.state = .dirty → planned.content.key.id.isSome)
    {planned : PlannedNode} {rows : List Row}
    (member : (planned, rows) ∈
      (plan.filter fun planned => planned.content.isUnread).zip (fetches log)) :
    ∃ one ∈ changed, one.planned = planned ∧ one.old = rows.head? := by
  induction changes with
  | nil => cases member
  | @skipped first rest _ _ unchanged _ ih =>
      have read : first.content.isUnread = false := by
        rw [Instance.isUnread, Bool.and_eq_false_iff, decide_eq_false_iff_not]
        exact Or.inl fun dirty => unchanged ⟨dirty, keyed first List.mem_cons_self dirty⟩
      rw [List.filter_cons_of_neg (by simp [read])] at member
      exact ih (fun other isOther => keyed other (List.mem_cons_of_mem _ isOther)) member
  | @changed first rest _ _ _ _ _ dirty _ before _ ih =>
      have later := ih fun other isOther => keyed other (List.mem_cons_of_mem _ isOther)
      rw [fetches_append, fetches_append, fetches_updateLog, List.append_nil] at member
      cases before with
      | held known =>
          rw [List.filter_cons_of_neg (by simp [Instance.isUnread, known])] at member
          obtain ⟨one, isOne, facts⟩ := later member
          exact ⟨one, List.mem_cons_of_mem _ isOne, facts⟩
      | fetched missing _ found =>
          rw [List.filter_cons_of_pos (by simp [Instance.isUnread, dirty, missing])] at member
          rcases List.mem_cons.mp member with same | isLater
          · cases same
            exact ⟨_, List.mem_cons_self, rfl, found.symm⟩
          · obtain ⟨one, isOne, facts⟩ := later isLater
            exact ⟨one, List.mem_cons_of_mem _ isOne, facts⟩

theorem Writing.fetches {dialect : Dialect} {plan : List PlannedNode}
    (writing : Writing dialect plan) : fetches writing.log = fetches writing.changeLog := by
  unfold Writing.log
  rw [fetches_append, writing.draws.fetches, fetches_append, writing.inserts.fetches,
    fetches_append, writing.completes.fetches]
  rfl

/-! ### What an action affects -/

section Actions

variable {World : Type} {session : Session World} {store between after : Store World}
  {root subject : InstanceId} {key : Key}

/-- The instances whose rows an action looks up when it succeeds, in this order. -/
def Action.seeks (store : Store World) : Action → List InstanceId
  | .save root =>
      match Graph.collect store.id store.memory root with
      | .ok graph => graph.subjects.filter fun subject => (store.instanceAt subject).isUnread
      | .error _ => []
  | .remove subject => [subject].filter fun subject => (store.instanceAt subject).row.isNone
  | _ => []

/-- The owners that an action affects when it succeeds: what it saves or removes, and
whatever a relation of this referred to before or refers to afterwards. A row that was not
known before is looked up. -/
inductive Action.Affects (action : Action) (store after : Store World) (log : List Event) :
    Key → Prop where
  | settled {subject : InstanceId} : action.Settles store subject →
      Affects action store after log (after.instanceAt subject).key
  | known {subject : InstanceId} {row : Row} {key : Key} : action.Settles store subject →
      (store.instanceAt subject).state ≠ .transient → (store.instanceAt subject).row = some row →
      (store.instanceAt subject).mapping.Targets row key → Affects action store after log key
  | fetched {subject : InstanceId} {rows : List Row} {row : Row} {key : Key} :
      (subject, rows) ∈ (action.seeks store).zip (fetches log) → rows.head? = some row →
      (store.instanceAt subject).mapping.Targets row key → Affects action store after log key
  | now {subject : InstanceId} {row : Row} {key : Key} : action.Settles store subject →
      (after.instanceAt subject).row = some row →
      (store.instanceAt subject).mapping.Targets row key → Affects action store after log key

namespace Store

/-- What no settling changes of an instance is left as it is. -/
theorem part_settleAll {β : Type} (part : Instance → β)
    (same : ∀ content id row, part (Instance.settle content id row) = part content)
    {written : List Written} (ran : (settleAll session written).run store = (.ok (), after))
    (subject : InstanceId) : part (after.instanceAt subject) = part (store.instanceAt subject) := by
  induction written generalizing store with
  | nil =>
      cases ran
      rfl
  | cons one rest ih =>
      rw [run_settleAll_cons] at ran
      rw [ih ran, instanceAt_modifyInstance, instanceAt_rememberInTransaction]
      split
      · exact same _ _ _
      · rfl

theorem entityType_settleAll {written : List Written}
    (ran : (settleAll session written).run store = (.ok (), after)) (subject : InstanceId) :
    (after.instanceAt subject).key.entityType = (store.instanceAt subject).key.entityType := by
  refine part_settleAll (fun content => content.key.entityType) (fun content id row => ?_) ran subject
  unfold Instance.settle
  dsimp only
  split <;> rfl

private theorem row_settleAll {written : List Written} (inMemory : subject < store.memory.size)
    (ran : (settleAll session written).run store = (.ok (), after))
    (settles : ∃ one ∈ written, one.planned.node.subject = subject) :
    ∃ one ∈ written, one.planned.node.subject = subject ∧
      (after.instanceAt subject).row = some one.row := by
  induction written generalizing store with
  | nil =>
      obtain ⟨_, impossible, _⟩ := settles
      cases impossible
  | cons one rest ih =>
      rw [run_settleAll_cons] at ran
      by_cases again : ∃ other ∈ rest, other.planned.node.subject = subject
      · have inMemoryStill := inMemory
        rw [← size_rememberInTransaction session.thread one.planned.node.subject store,
          ← size_modifyInstance] at inMemoryStill
        obtain ⟨other, isOther, facts⟩ := ih inMemoryStill ran again
        exact ⟨other, List.mem_cons_of_mem _ isOther, facts⟩
      · obtain ⟨other, isOther, rfl⟩ := settles
        rcases List.mem_cons.mp isOther with rfl | isLater
        · refine ⟨_, List.mem_cons_self, rfl, ?_⟩
          have look := (notes_settleAll ran).look _ again
          rw [show (after.instanceAt _).row = _ from congrArg Snapshot.row look]
          unfold Store.look
          rw [instanceAt_modifyInstance, size_rememberInTransaction, if_pos ⟨rfl, inMemory⟩]
          rfl
        · exact absurd ⟨other, isLater, rfl⟩ again

section Saves

variable {graph : Graph} (regular : store.Regular) (inMemory : root < store.memory.size)
  (collected : Graph.collect store.id store.memory root = .ok graph)
  (writing : Writing session.dialect (graph.plan session.dialect))
include regular collected writing

private theorem fetched_of_save {rows : List Row}
    (member : (subject, rows) ∈ ((Action.save root).seeks store).zip (fetches writing.log)) :
    ∃ one ∈ writing.changed, one.planned.node.subject = subject ∧ one.old = rows.head? := by
  have sound := regular.sound
  have keyed (planned : PlannedNode) (isPlanned : planned ∈ graph.plan session.dialect)
      (dirty : planned.content.state = .dirty) : planned.content.key.id.isSome :=
    (sound.of_plan collected isPlanned).2.2.sound.keyed (Or.inr dirty)
  -- The instances of a graph are planned in their order.
  have subjects : (Action.save root).seeks store
      = ((graph.plan session.dialect).filter fun planned => planned.content.isUnread).map
        fun planned => planned.node.subject := by
    have planned : graph.subjects = (graph.plan session.dialect).map
        fun planned => planned.node.subject := by
      apply List.ext_getElem?
      intro place
      rw [List.getElem?_map, Graph.getElem?_plan, Graph.subjects, List.getElem?_map, Option.map_map]
      rfl
    unfold Action.seeks
    dsimp only
    rw [collected]
    dsimp only
    rw [planned, List.filter_map]
    congr 1
    refine List.filter_congr fun planned isPlanned => ?_
    exact congrArg Instance.isUnread (sound.instanceAt_plan collected isPlanned)
  rw [subjects, writing.fetches, List.zip_map_left] at member
  obtain ⟨⟨planned, found⟩, isFound, same⟩ := List.mem_map.mp member
  cases same
  obtain ⟨one, isOne, rfl, old⟩ := writing.changes.fetched keyed isFound
  exact ⟨one, isOne, rfl, old⟩

include inMemory

/-- The writes of a save note every owner that it affects. -/
theorem mem_owners_of_save (sameIds : ∀ other, between.idOf other = store.idOf other)
    (silent : store.Silent between)
    (settled : (settleAll session writing.written).run between = (.ok (), after))
    (affects : (Action.save root).Affects store after writing.log key) (hasId : key.hasId = true) :
    key ∈ (WriteSet.ofWritten writing.written).owners := by
  have sound := regular.sound
  refine WriteSet.mem_ofWritten.mpr ⟨hasId, ?_⟩
  have content {one : Written} (member : one ∈ writing.written) :
      store.instanceAt one.planned.node.subject = one.planned.content :=
    sound.instanceAt_plan collected (writing.planned_mem member)
  have exists_written {subject : InstanceId} (settles : (Action.save root).Settles store subject) :
      ∃ one ∈ writing.written, one.planned.node.subject = subject :=
    (exists_written_iff sound inMemory collected writing subject).mpr settles
  have inMemoryStill {one : Written} (member : one ∈ writing.written) :
      one.planned.node.subject < between.memory.size := by
    rw [silent.size]
    exact (sound.of_plan collected (writing.planned_mem member)).1
  cases affects with
  | settled settles =>
      obtain ⟨one, isWritten, rfl⟩ := exists_written settles
      refine ⟨one, isWritten, Or.inl ?_⟩
      obtain ⟨id, known, final⟩ := final_id regular collected writing sameIds silent.size settled
        (writing.planned_mem isWritten)
      rw [known_of_written writing isWritten] at known
      obtain rfl := Option.some.inj known
      have entity := (entityType_settleAll settled one.planned.node.subject).trans
        (congrArg (fun snapshot => snapshot.key.entityType) (silent.look one.planned.node.subject))
      have isEntity := entity.trans
        (sound.instanceAt (sound.of_plan collected (writing.planned_mem isWritten)).1).sound.entity
      rw [content isWritten] at isEntity
      exact congrArg₂ Key.mk isEntity final
  | known settles notNew held targets =>
      obtain ⟨one, isWritten, rfl⟩ := exists_written settles
      rw [content isWritten] at notNew held targets
      refine ⟨one, isWritten, Or.inr (Written.mem_targets (Or.inl ?_) targets)⟩
      rcases List.mem_append.mp isWritten with isNew | isChanged
      · exact absurd (of_decide_eq_true (writing.isNew_of_completed isNew)) notNew
      · exact writing.changes.old isChanged held
  | fetched found isRow targets =>
      obtain ⟨one, isChanged, rfl, old⟩ := fetched_of_save regular collected writing found
      have isWritten : one ∈ writing.written := List.mem_append_right _ isChanged
      rw [content isWritten] at targets
      exact ⟨one, isWritten, Or.inr (Written.mem_targets (Or.inl (old.trans isRow)) targets)⟩
  | now settles isRow targets =>
      obtain ⟨first, isFirst, rfl⟩ := exists_written settles
      obtain ⟨one, isWritten, same, row⟩ :=
        row_settleAll (inMemoryStill isFirst) settled ⟨first, isFirst, rfl⟩
      rw [← same, content isWritten] at targets
      rw [isRow] at row
      exact ⟨one, isWritten, Or.inr (Written.mem_targets (Or.inr (Option.some.inj row).symm) targets)⟩

end Saves

/-- The writes of a removal note every owner that it affects. -/
theorem mem_owners_of_removal {id : Int64} {row : Option Row} {log : List Event}
    (keyed : (store.instanceAt subject).key.id = some id)
    (known : RowKnown session.dialect (store.instanceAt subject) id row log)
    (look : after.look subject = Snapshot.ofInstance (store.instanceAt subject).withdraw)
    (affects : (Action.remove subject).Affects store after
      (log ++ [.executed (Statement.delete session.dialect (store.instanceAt subject).mapping id)])
      key) (hasId : key.hasId = true) :
    key ∈ (WriteSet.ofRemoval (store.instanceAt subject).mapping (store.instanceAt subject).key
      row).owners := by
  refine WriteSet.mem_ofRemoval.mpr ⟨hasId, ?_⟩
  cases affects with
  | settled settles =>
      obtain rfl := settles
      exact Or.inl (congrArg Snapshot.key look)
  | known settles _ held targets =>
      obtain rfl := settles
      refine Or.inr ⟨_, ?_, Mapping.mem_targetsOf.mpr targets⟩
      cases known with
      | held same => exact same.symm.trans held
      | fetched missing =>
          rw [missing] at held
          cases held
  | @fetched sought _ _ _ found isRow targets =>
      obtain ⟨isSought, isFetched⟩ := List.of_mem_zip found
      obtain rfl := List.mem_singleton.mp (List.mem_filter.mp isSought).1
      refine Or.inr ⟨_, ?_, Mapping.mem_targetsOf.mpr targets⟩
      cases known with
      | held _ => cases isFetched
      | fetched _ =>
          obtain rfl := List.mem_singleton.mp isFetched
          exact isRow
  | now settles isRow _ =>
      obtain rfl := settles
      rw [show (after.instanceAt _).row = none from congrArg Snapshot.row look] at isRow
      cases isRow

end Store

end Actions

def Act.Affects {World : Type} (act : Act (Journaled World)) (thread : ThreadId)
    (store : Store (Journaled World)) (key : Key) : Prop :=
  act.thread = thread ∧ act.outcome.isOk = true ∧
    act.action.Affects store act.after (Deployment.logOf store act) key

end EntityStore
