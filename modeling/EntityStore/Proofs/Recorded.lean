/-
What acts record in a transaction. A save puts the row of every instance that it settles, a
removal takes out the key of the instance that it removes, and nothing else records anything.
The cache shows none of it before the commit, which then leaves under each key what was
recorded for it last.
-/

import EntityStore.Proofs.Forgetting
import EntityStore.Proofs.Withholding

set_option autoImplicit false

namespace EntityStore

/-- What an instance that was settled means for the cache: its row is put under its key, or
its key is taken out if it is removed. An instance without id means nothing. -/
def Instance.effect? (content : Instance) : Option CacheEffect :=
  if content.key.hasId then
    match content.state, content.row with
    | .removed, _ => some (.evict content.key)
    | _, some row => some (.put content.key row)
    | _, none => none
  else none

namespace WriteSet

theorem kept_ofWritten (written : List Written) :
    (ofWritten written).withoutFills.effects = written.map fun one => .put one.key one.row := by
  unfold withoutFills
  rw [effects_ofWritten]
  refine List.filter_eq_self.mpr fun effect member => ?_
  obtain ⟨one, _, rfl⟩ := List.mem_map.mp member
  rfl

private theorem kept_ofRemoval (mapping : Mapping) (key : Key) (row : Option Row) :
    (ofRemoval mapping key row).withoutFills.effects = [.evict key] := by
  unfold withoutFills
  rw [effects_ofRemoval]
  rfl

end WriteSet

/-! ### What a save writes, instance by instance -/

section Written

variable {dialect : Dialect} {plan : List PlannedNode}

theorem Updated.sublist {ids : Ids} {changed : List Written} {log : List Event}
    (changes : Updated dialect ids plan changed log) :
    (changed.map Written.planned).Sublist plan := by
  induction changes with
  | nil => exact List.Sublist.slnil
  | skipped _ _ ih => exact ih.cons _
  | changed _ _ _ _ ih => exact ih.cons_cons _

/-- Every instance of a plan is written at most once. -/
theorem Writing.nodup_planned (writing : Writing dialect plan) (distinct : plan.Nodup) :
    (writing.written.map Written.planned).Nodup := by
  have completed : writing.completed.map Written.planned
      = writing.inserted.map fun entry => entry.1.planned := by
    rw [writing.completes.eq_map, List.map_map]
    exact List.map_congr_left fun entry member => (writing.inserts.lookup member).2
  unfold Writing.written
  rw [List.map_append, List.nodup_append]
  refine ⟨?_, writing.changes.sublist.nodup distinct, ?_⟩
  · rw [completed]
    exact writing.inserted_perm.nodup_iff.mpr (distinct.filter _)
  · rintro planned isCompleted other isChanged rfl
    obtain ⟨one, isOne, rfl⟩ := List.mem_map.mp isCompleted
    obtain ⟨other, isOther, same⟩ := List.mem_map.mp isChanged
    have isNew : one.planned.content.state = .transient :=
      of_decide_eq_true (writing.isNew_of_completed isOne)
    have dirty := (writing.changes.of_changed isOther).2.1
    rw [same, isNew] at dirty
    cases dirty

end Written

namespace Store

variable {World : Type} {session : Session World} {store between after : Store World}
  {subject root : InstanceId}

theorem instanceAt_settleAll_of_ne {written : List Written}
    (ran : (settleAll session written).run store = (.ok (), after))
    (apart : ∀ one ∈ written, one.planned.node.subject ≠ subject) :
    after.instanceAt subject = store.instanceAt subject := by
  induction written generalizing store with
  | nil =>
      cases ran
      rfl
  | cons one rest ih =>
      rw [run_settleAll_cons] at ran
      rw [ih ran fun other member => apart other (List.mem_cons_of_mem one member),
        instanceAt_modifyInstance, instanceAt_rememberInTransaction,
        if_neg fun both => apart one List.mem_cons_self both.1.symm]

/-- An instance that is settled once is as this leaves it. -/
theorem instanceAt_settleAll {written : List Written}
    (ran : (settleAll session written).run store = (.ok (), after))
    (distinct : (written.map fun one => one.planned.node.subject).Nodup)
    {one : Written} (member : one ∈ written)
    (inMemory : one.planned.node.subject < store.memory.size) :
    after.instanceAt one.planned.node.subject
      = (store.instanceAt one.planned.node.subject).settle one.id one.row := by
  induction written generalizing store with
  | nil => cases member
  | cons first rest ih =>
      obtain ⟨fresh, distinctRest⟩ := List.nodup_cons.mp distinct
      rw [run_settleAll_cons] at ran
      rcases List.mem_cons.mp member with rfl | isLater
      · have apart : ∀ other ∈ rest, other.planned.node.subject ≠ one.planned.node.subject :=
          fun other isOther same => fresh (List.mem_map.mpr ⟨other, isOther, same⟩)
        rw [instanceAt_settleAll_of_ne ran apart, instanceAt_modifyInstance,
          instanceAt_rememberInTransaction, size_rememberInTransaction, if_pos ⟨rfl, inMemory⟩]
      · have different : one.planned.node.subject ≠ first.planned.node.subject :=
          fun same => fresh (List.mem_map.mpr ⟨one, isLater, same⟩)
        rw [ih ran distinctRest isLater
          (by rw [size_modifyInstance, size_rememberInTransaction]; exact inMemory),
          instanceAt_modifyInstance, instanceAt_rememberInTransaction,
          if_neg fun both => different both.1]

def recordedOf (after : Store World) (subjects : List InstanceId) : List CacheEffect :=
  subjects.filterMap fun subject => (after.instanceAt subject).effect?

theorem UnitEnds.owed {α : Type} {issued : Question → Prop} {transactional : Bool}
    {gives : α × WriteSet → List Event → Prop} {result : α}
    (ends : UnitEnds session issued transactional gives store (.ok result) after)
    (inside : store.inTransaction session.thread = true) :
    ∃ writes log, gives (result, writes) log ∧ (after.owed session.thread).effects
      = (store.owed session.thread).effects ++ writes.withoutFills.effects := by
  obtain ⟨transaction, isInside⟩ := Option.isSome_iff_exists.mp inside
  cases ends with
  | @recorded other _ world log _ writes _ isInside' _ _ given =>
      refine ⟨writes, log, given, ?_⟩
      exact (@withholds_recordWrites _ (store.withWorld world) False _ _ isInside' writes).owed
  | applied _ outside _ _ _ => exact nomatch isInside.symm.trans outside

section Saved

variable {graph : Graph} (regular : store.Regular)
  (collected : Graph.collect store.id store.memory root = .ok graph)
  (writing : Writing session.dialect (graph.plan session.dialect))
  (ends : UnitEnds session (Question.Issued (· ∈ store.registry.mappings) true) true
    (WritesPlan session.dialect (graph.plan session.dialect)) store (.ok writing.written) between)
  (settled : (settleAll session writing.written).run between = (.ok (), after)) {one : Written}
  (member : one ∈ writing.written)
include regular collected ends settled member

/-- Whatever a save has written is settled once. -/
theorem settle_of_written : after.instanceAt one.planned.node.subject
    = (between.instanceAt one.planned.node.subject).settle one.id one.row := by
  have bound := (regular.sound.of_plan collected (writing.planned_mem member)).1
  have silent : store.Silent between := ends.read regular.sound
  exact instanceAt_settleAll settled
    (nodup_subjects collected (fun one member => writing.planned_mem member)
      (writing.nodup_planned (List.Nodup.of_map _ (Graph.places_plan session.dialect graph))))
    member (silent.size.symm ▸ bound)

/-- What a save has written of an instance is what the instance holds then. -/
theorem instanceAt_of_written (inMemory : root < store.memory.size) :
    (after.instanceAt one.planned.node.subject).key = one.key ∧
      (after.instanceAt one.planned.node.subject).state = .clean ∧
      (after.instanceAt one.planned.node.subject).row = some one.row := by
  have sound := regular.sound
  have silent : store.Silent between := ends.read sound
  have bound := (sound.of_plan collected (writing.planned_mem member)).1
  obtain ⟨_, isFinal, mapping⟩ := settles_of_written sound inMemory collected
    (fun planned isPlanned =>
      final_id regular collected writing ends.idOf silent.size settled isPlanned) member
  have entity := (entityType_settleAll settled one.planned.node.subject).trans
    (congrArg (fun snapshot => snapshot.key.entityType)
      (silent.look one.planned.node.subject))
  refine ⟨congrArg₂ Key.mk (entity.trans ?_) isFinal, ?_⟩
  · exact (sound.instanceAt bound).sound.entity.trans (congrArg Mapping.entity mapping)
  · rw [settle_of_written regular collected writing ends settled member]
    exact ⟨rfl, rfl⟩

end Saved

section Acts

variable (regular : store.Regular) (inside : store.inTransaction session.thread = true)
include regular inside

private theorem recorded_of_save (inMemory : root < store.memory.size)
    (ran : (save session root).run store = (.ok (), after)) :
    ∃ subjects : List InstanceId, subjects.Nodup ∧
      (∀ subject, subject ∈ subjects ↔ (Action.save root).Settles store subject) ∧
      (after.owed session.thread).effects
        = (store.owed session.thread).effects ++ after.recordedOf subjects := by
  have sound := regular.sound
  obtain ⟨graph, _, collected, ends⟩ := save_ok regular ran
  cases ends with
  | unchanged nothing =>
      refine ⟨[], List.nodup_nil, fun subject => ?_, (List.append_nil _).symm⟩
      refine iff_of_false (List.not_mem_nil) ?_
      rintro ⟨reaches, needed⟩
      rw [sound.needsWrite_of_reached inMemory collected reaches needed] at nothing
      cases nothing
  | @written written between _ unit settled =>
      obtain ⟨writes, log, ⟨writing, same, rfl⟩, owed⟩ := unit.owed inside
      cases same
      have silent : store.Silent between := unit.read sound
      have isPlanned {one : Written} (member : one ∈ writing.written) :=
        sound.of_plan collected (writing.planned_mem member)
      have inMemoryStill : ∀ one ∈ writing.written,
          one.planned.node.subject < between.memory.size :=
        fun one member => silent.size.symm ▸ (isPlanned member).1
      have distinct : (writing.written.map fun one => one.planned.node.subject).Nodup :=
        nodup_subjects collected (fun one member => writing.planned_mem member)
          (writing.nodup_planned (List.Nodup.of_map _ (Graph.places_plan session.dialect graph)))
      refine ⟨_, distinct, fun subject => ?_, ?_⟩
      · rw [List.mem_map]
        exact exists_written_iff sound inMemory collected writing subject
      -- What is put for an instance is what it holds once it is settled.
      have stands : ∀ one ∈ writing.written,
          (after.instanceAt one.planned.node.subject).effect? = some (.put one.key one.row) := by
        intro one member
        obtain ⟨isKey, isClean, isRow⟩ :=
          instanceAt_of_written regular collected writing unit settled member inMemory
        unfold Instance.effect?
        rw [isKey, isClean, isRow]
        rfl
      have puts : after.recordedOf (writing.written.map fun one => one.planned.node.subject)
          = writing.written.map fun one => .put one.key one.row := by
        rw [recordedOf, List.filterMap_map]
        exact (List.filterMap_congr stands).trans (congrFun List.filterMap_eq_map' _)
      rw [(quiet_settleAll inMemoryStill settled).owed, owed, WriteSet.kept_ofWritten, puts]

private theorem recorded_of_removal (inMemory : subject < store.memory.size)
    (ran : (remove session subject).run store = (.ok (), after)) :
    (after.owed session.thread).effects
      = (store.owed session.thread).effects ++ after.recordedOf [subject] := by
  obtain ⟨between, withdrawn, new | ends⟩ := remove_ok regular inMemory ran
  · obtain ⟨isNew, rfl⟩ := new
    have look := look_withdraw inMemory withdrawn
    have unkeyed : (after.instanceAt subject).key.hasId = false := by
      have fresh : (between.instanceAt subject).key.id = none :=
        (regular.sound.instanceAt inMemory).sound.fresh isNew
      have isKey : (after.instanceAt subject).key = (between.instanceAt subject).key :=
        congrArg Snapshot.key look
      rw [isKey, Key.hasId, fresh]
      rfl
    have nothing : after.recordedOf [subject] = [] := by
      simp [recordedOf, Instance.effect?, unkeyed]
    rw [(quiet_withdraw inMemory withdrawn).owed, nothing, List.append_nil]
  · obtain ⟨writes, log, given, owed⟩ := ends.owed inside
    have silent : store.Silent between := ends.read regular.sound
    have inMemoryStill : subject < between.memory.size := silent.size.symm ▸ inMemory
    have look := look_withdraw inMemoryStill withdrawn
    have isKey : (after.instanceAt subject).key = (store.instanceAt subject).key :=
      (congrArg Snapshot.key look).trans (congrArg Snapshot.key (silent.look subject))
    have isRemoved : (after.instanceAt subject).state = .removed := congrArg Snapshot.state look
    cases given with
    | @removal _ _ row _ keyed _ =>
        have hasId : (store.instanceAt subject).key.hasId = true := Option.isSome_of_eq_some keyed
        have evicts : after.recordedOf [subject] = [.evict (store.instanceAt subject).key] := by
          simp [recordedOf, Instance.effect?, isKey, isRemoved, hasId]
        rw [(quiet_withdraw inMemoryStill withdrawn).owed, evicts]
        exact owed.trans (congrArg _ (WriteSet.kept_ofRemoval _ _ row))

end Acts

end Store
/-! ### Acts in a transaction -/

namespace Action

variable {World : Type} {session : Session World} {store after : Store World} {action : Action}
  {outcome : Except Error Unit}

structure Settled (action : Action) (store : Store World) (outcome : Except Error Unit)
    (subjects : List InstanceId) : Prop where
  distinct : subjects.Nodup
  mem_iff : ∀ subject, subject ∈ subjects ↔ outcome.isOk = true ∧ action.Settles store subject

private theorem settled_nothing
    (nothing : outcome.isOk = true → ∀ subject, ¬action.Settles store subject) :
    action.Settled store outcome [] :=
  ⟨List.nodup_nil, fun subject => iff_of_false List.not_mem_nil fun both =>
    nothing both.1 subject both.2⟩

def records : Action → Bool
  | save _ | remove _ => true
  | _ => false

private theorem records_of_poses (other : action.records = false) :
    ∀ task, action.Poses session store task → task.records = false := by
  intro task posed
  cases action with
  | save _ => cases other
  | remove _ => cases other
  | sync | drop | begin | commit | rollback | close =>
      cases posed
      rfl
  | _ => exact posed.elim

private theorem not_settles (other : action.records = false) (subject : InstanceId) :
    ¬action.Settles store subject := by
  cases action with
  | save _ => cases other
  | remove _ => cases other
  | _ => exact id

section Inside

variable (regular : store.Regular) (roomy : store.cache.Roomy)
  (inMemory : action.InMemory store.memory.size)
  (ran : (action.perform session).run store = (outcome, after))
  (inside : store.inTransaction session.thread = true)
include regular ran inside

/-- A boundary that leaves the transaction open has done nothing. -/
theorem eq_of_boundary (bounds : action.boundary? ≠ none)
    (still : after.inTransaction session.thread = true) : after = store := by
  have leased := fun transaction isInside => regular.leased.connection
    (show store.transaction? session.thread = some transaction from isInside)
  obtain ⟨transaction, isInside⟩ := Option.isSome_iff_exists.mp inside
  have dropped {other : Store World}
      (same : after.transactions = (other.dropTransaction session.thread).transactions) :
      after = store :=
    nomatch still.symm.trans (Store.inTransaction_of_dropped other same)
  cases action with
  | begin =>
      cases (Store.ensures_beginTransaction session store).of_run ran with
      | closed _ => rfl
      | alreadyOpen _ _ => rfl
      | unconnected _ outside _ => exact nomatch isInside.symm.trans outside
      | begun _ outside _ _ _ => exact nomatch isInside.symm.trans outside
      | refused _ outside _ _ _ => exact nomatch isInside.symm.trans outside
  | commit =>
      cases (Store.ensures_commitTransaction leased).of_run ran with
      | closed _ => rfl
      | notOpen _ _ => rfl
      | committed _ _ _ _ => exact dropped (Store.transactions_written _ _ _)
      | refused _ _ _ _ _ => exact dropped (Store.transactions_rolledBack _ _ _)
  | rollback =>
      cases (Store.ensures_rollbackTransaction leased).of_run ran with
      | closed _ => rfl
      | notOpen _ _ => rfl
      | rolledBack _ _ _ _ => exact dropped (Store.transactions_rolledBack _ _ _)
  | close =>
      obtain ⟨closed, ends, ranClose⟩ := Store.run_close session store
      obtain ⟨rfl, rfl⟩ := Prod.ext_iff.mp (ranClose.symm.trans ran)
      cases ends with
      | again _ => rfl
      | closed _ abandoned =>
          have ended := congrArg (List.lookup session.thread) abandoned.transactions
          exact nomatch (congrArg Option.isSome ended).symm.trans still
  | _ => exact absurd rfl bounds

include roomy inMemory

/-- An act in a transaction withholds what it writes. -/
theorem withholds (still : after.inTransaction session.thread = true) :
    ∃ subjects, action.Settled store outcome subjects ∧
      Store.Withholds session.thread action.Clears (after.recordedOf subjects) store after := by
  cases bounds : action.boundary? with
  | some task =>
      obtain rfl := eq_of_boundary regular ran inside (by rw [bounds]; exact nofun) still
      refine ⟨[], settled_nothing fun _ => not_settles ?_, .of_same rfl rfl⟩
      cases action <;> first | rfl | cases bounds
  | none =>
      have path := (treads_perform regular inMemory).of_run ran
      obtain ⟨_, withheld, silent⟩ | ⟨_, ended, _⟩ :=
        path.withholds (works_of_boundary? bounds) roomy inside
      rotate_left
      · exact nomatch still.symm.trans ended
      have lasts := Deployment.serving_of_inTransaction (path.regular regular) still
      obtain ⟨connection, serves⟩ := Option.ne_none_iff_exists'.mp
        (Deployment.serving_of_inTransaction regular inside)
      have unchanged (same : after = store) :
          Store.Withholds session.thread action.Clears [] store after :=
        .of_same (by rw [same]) (by rw [same])
      cases action with
      | save root =>
          cases outcome with
          | ok _ =>
              obtain ⟨subjects, distinct, settles, owed⟩ :=
                Store.recorded_of_save regular inside inMemory ran
              refine ⟨subjects, ⟨distinct, fun subject => ?_⟩, withheld.effects_eq owed ▸ withheld⟩
              exact (settles subject).trans ⟨fun settled => ⟨rfl, settled⟩, And.right⟩
          | error error =>
              refine ⟨[], settled_nothing nofun, unchanged ?_⟩
              cases (Store.save_lasts regular serves).of_run ran lasts
              rfl
      | remove subject =>
          cases outcome with
          | ok _ =>
              have owed := Store.recorded_of_removal regular inside inMemory ran
              refine ⟨[subject], ⟨List.nodup_singleton subject, fun other => ?_⟩,
                withheld.effects_eq owed ▸ withheld⟩
              exact List.mem_singleton.trans ⟨fun same => ⟨rfl, same⟩, And.right⟩
          | error error =>
              refine ⟨[], settled_nothing nofun, unchanged ?_⟩
              cases (Store.removal_lasts regular inMemory serves).of_run ran lasts
              rfl
      | _ =>
          obtain rfl := silent (records_of_poses rfl)
          exact ⟨[], settled_nothing fun _ => not_settles rfl, withheld⟩

/-- An act that ends the transaction commits what was put off, or brings nothing into the
cache. -/
theorem cache_of_ended (ended : after.inTransaction session.thread = false) :
    (action = .commit ∧ outcome.isOk = true ∧ after.cache
        = (store.owed session.thread).apply store.cache.generation store.cache) ∨
      (¬(action = .commit ∧ outcome.isOk = true) ∧ store.ShowsOnly after) := by
  have leased := fun transaction isInside => regular.leased.connection
    (show store.transaction? session.thread = some transaction from isInside)
  obtain ⟨transaction, isInside⟩ := Option.isSome_iff_exists.mp inside
  cases bounds : action.boundary? with
  | none =>
      have path := (treads_perform regular inMemory).of_run ran
      obtain ⟨still, _, _⟩ | ⟨_, _, shows⟩ :=
        path.withholds (works_of_boundary? bounds) roomy inside
      · exact nomatch still.symm.trans ended
      · refine Or.inr ⟨?_, shows⟩
        rintro ⟨rfl, _⟩
        cases bounds
  | some task =>
      cases action with
      | begin =>
          refine Or.inr ⟨fun both => (nomatch both.1), Store.showsOnly_of_same ?_⟩
          exact ((Store.ensures_beginTransaction session store).of_run ran).cache_eq
      | commit =>
          cases (Store.ensures_commitTransaction leased).of_run ran with
          | closed _ => exact Or.inr ⟨fun both => (nomatch both.2), Store.showsOnly_of_same rfl⟩
          | notOpen _ outside => exact nomatch isInside.symm.trans outside
          | @committed other _ _ _ isInside' _ _ =>
              refine Or.inl ⟨rfl, rfl, ?_⟩
              rw [Store.owed_of_inside isInside']
              exact Store.cache_written _ _ _
          | refused _ _ _ _ _ =>
              exact Or.inr ⟨fun both => (nomatch both.2),
                Store.showsOnly_of_same (Store.cache_rolledBack _ _ _)⟩
      | rollback =>
          refine Or.inr ⟨fun both => (nomatch both.1), Store.showsOnly_of_same ?_⟩
          exact ((Store.ensures_rollbackTransaction leased).of_run ran).cache_eq
      | close =>
          obtain ⟨closed, ends, ranClose⟩ := Store.run_close session store
          obtain ⟨rfl, rfl⟩ := Prod.ext_iff.mp (ranClose.symm.trans ran)
          refine Or.inr ⟨fun both => (nomatch both.1), ?_⟩
          cases ends with
          | again _ => exact Store.showsOnly_of_same rfl
          | closed _ _ => exact fun key row isShown => (Cache.not_shows_clear _ _ _ isShown).elim
      | _ => cases bounds

end Inside

end Action

/-- What an act in a transaction records and what it leaves of the cache: whatever the
transaction has recorded is absent, and under other keys than those that the act records the
cache is as it was, unless it was emptied. -/
structure Act.Withholds {World : Type} (act : Act World) (thread : ThreadId)
    (before : Store World) : Prop where
  records : ∃ subjects, act.action.Settled before act.outcome subjects ∧
    (act.after.owed thread).effects
      = (before.owed thread).effects ++ act.after.recordedOf subjects ∧
    ∀ key, (∀ effect ∈ act.after.recordedOf subjects, effect.key ≠ key) →
      act.after.cache.find? key = before.cache.find? key ∨
        (act.action.Clears ∧ act.after.cache.find? key = none)
  hidden : ∀ effect ∈ (act.after.owed thread).effects, act.after.cache.find? effect.key = none
  shows : ∀ key row, act.after.cache.find? key = some row → before.cache.find? key = some row

/-! ### Runs of a transaction -/

namespace Deployment

variable {World : Type} {deployment : Deployment World} {thread : ThreadId}
  {store opened closing after : Store World} {acts : List (Act World)}

structure PutOff (thread : ThreadId) (store : Store World) : Prop where
  hidden : ∀ effect ∈ (store.owed thread).effects, store.cache.find? effect.key = none
  writing : ∀ effect ∈ (store.owed thread).effects, effect.isFill = false
  keyed : ∀ effect ∈ (store.owed thread).effects, effect.key.hasId = true

private theorem mem_recordedOf {subjects : List InstanceId} {effect : CacheEffect}
    (member : effect ∈ store.recordedOf subjects) :
    effect.isFill = false ∧ effect.key.hasId = true := by
  obtain ⟨subject, _, stands⟩ := List.mem_filterMap.mp member
  unfold Instance.effect? at stands
  split at stands
  · rename_i hasId
    split at stands <;> cases stands
    · exact ⟨rfl, hasId⟩
    · exact ⟨rfl, hasId⟩
  · cases stands

theorem withholds_of_act {session : Session World} {action : Action}
    {outcome : Except Error Unit} (regular : store.Regular) (roomy : store.cache.Roomy)
    (inMemory : action.InMemory store.memory.size)
    (ran : (action.perform session).run store = (outcome, after))
    (inside : store.inTransaction session.thread = true)
    (still : after.inTransaction session.thread = true) (putOff : PutOff session.thread store) :
    Act.Withholds ⟨session.thread, action, outcome, after⟩ session.thread store ∧
      PutOff session.thread after := by
  obtain ⟨subjects, settled, withheld⟩ := action.withholds regular roomy inMemory ran inside still
  have hidden : ∀ effect ∈ (after.owed session.thread).effects,
      after.cache.find? effect.key = none := by
    intro effect member
    rw [withheld.owed] at member
    rcases List.mem_append.mp member with isEarlier | isNew
    · exact withheld.find?_eq_none (putOff.hidden effect isEarlier)
    · exact withheld.hidden effect isNew
  refine ⟨⟨⟨subjects, settled, withheld.owed, withheld.others⟩, hidden, withheld.shows⟩,
    hidden, fun effect member => ?_, fun effect member => ?_⟩
  all_goals
    rw [withheld.owed] at member
    rcases List.mem_append.mp member with isEarlier | isNew
  · exact putOff.writing effect isEarlier
  · exact (mem_recordedOf isNew).1
  · exact putOff.keyed effect isEarlier
  · exact (mem_recordedOf isNew).2

/-- Act by act, a run in a transaction withholds what it writes. -/
theorem withholds_of_run (run : deployment.Run opened acts closing) (regular : opened.Regular)
    (roomy : opened.cache.Roomy) (alone : ∀ act ∈ acts, act.thread = thread)
    (inside : opened.inTransaction thread = true)
    (stays : ∀ act ∈ acts, act.after.inTransaction thread = true)
    (putOff : PutOff thread opened) :
    (∀ earlier act later, acts = earlier ++ act :: later →
      act.Withholds thread (left opened earlier)) ∧
      PutOff thread closing ∧ closing.inTransaction thread = true ∧ opened.ShowsOnly closing := by
  induction run with
  | nil store =>
      refine ⟨fun earlier act later impossible => ?_, putOff, inside, Store.showsOnly_of_same rfl⟩
      cases earlier <;> cases impossible
  | @cons store between after other action outcome rest inMemory ran _ ih =>
      obtain rfl := alone _ List.mem_cons_self
      have still := stays _ List.mem_cons_self
      obtain ⟨first, putOffStill⟩ := @withholds_of_act _ _ _ (deployment.session other) _ _ regular
        roomy inMemory ran inside still putOff
      have path := (Action.treads_perform regular inMemory).of_run ran
      obtain ⟨later, closes, insideClosing, shows⟩ := ih (path.regular regular)
        (path.cache Cache.closed_roomy roomy)
        (fun act member => alone act (List.mem_cons_of_mem _ member)) still
        (fun act member => stays act (List.mem_cons_of_mem _ member)) putOffStill
      refine ⟨fun earlier act others same => ?_, closes, insideClosing,
        Store.ShowsOnly.trans first.shows shows⟩
      cases earlier with
      | nil =>
          cases same
          exact first
      | cons head tail =>
          obtain ⟨rfl, rfl⟩ := List.cons.inj same
          exact later tail act others rfl

theorem Run.cache (run : deployment.Run opened acts closing) (regular : opened.Regular)
    {holds : Cache → Prop} (closed : Cache.Closed holds) (before : holds opened.cache) :
    holds closing.cache := by
  induction run with
  | nil store => exact before
  | cons inMemory ran _ ih =>
      have path := (Action.treads_perform regular inMemory).of_run ran
      exact ih (path.regular regular) (path.cache closed before)

/-- Nothing uncommitted is ever in the cache. What a transaction records is absent until the
end, nothing is added or changed on the way, and what else is there stays. If the transaction
is aborted, the cache shows no more than at the beginning; if it is committed and every row is
kept, each key has what was recorded for it last, and all other keys are left alone. -/
theorem nothing_uncommitted_cached {allowed : Store World → ThreadId → Action → Prop}
    {action : Action} {outcome : Except Error Unit} (reached : deployment.Reached allowed store)
    (begun : (Store.beginTransaction (deployment.session thread)).run store = (.ok (), opened))
    (run : deployment.Run opened acts closing) (alone : ∀ act ∈ acts, act.thread = thread)
    (stays : ∀ act ∈ acts, act.after.inTransaction thread = true)
    (inMemory : action.InMemory closing.memory.size)
    (ran : (action.perform (deployment.session thread)).run closing = (outcome, after))
    (ended : after.inTransaction thread = false) :
    (opened.owed thread).effects = [] ∧
    (∀ earlier act later, acts = earlier ++ act :: later →
      act.Withholds thread (left opened earlier)) ∧
    (¬(action = .commit ∧ outcome.isOk = true) → ∀ key row,
      after.cache.find? key = some row → store.cache.find? key = some row) ∧
    (action = .commit → outcome.isOk = true → deployment.config.cache = .unbounded → ∀ key,
      after.cache.find? key
        = overwritten (closing.owed thread).effects closing.cache.find? key) := by
  obtain ⟨regular, _⟩ := begun_with reached.regular begun
  have begins := (Store.ensures_beginTransaction (deployment.session thread) store).of_run begun
  have sameCache := begins.cache_eq
  obtain ⟨inside, nothing⟩ : opened.inTransaction thread = true ∧
      (opened.owed thread).effects = [] := by
    cases begins with
    | begun _ _ _ _ _ =>
        exact ⟨Store.inTransaction_of_inside (Store.transaction?_setTransaction_self _ _ _),
          congrArg WriteSet.effects
            (Store.owed_of_inside (Store.transaction?_setTransaction_self _ _ _))⟩
  have roomy : opened.cache.Roomy :=
    sameCache ▸ reached.cache Cache.closed_roomy (Cache.roomy_empty _)
  have putOff : PutOff thread opened := by
    refine ⟨?_, ?_, ?_⟩ <;>
      · rw [nothing]
        exact nofun
  obtain ⟨withholds, closes, insideClosing, shows⟩ :=
    withholds_of_run run regular roomy alone inside stays putOff
  have ends := @Action.cache_of_ended _ (deployment.session thread) _ _ _ _ (run.regular regular)
    (run.cache regular Cache.closed_roomy roomy) inMemory ran insideClosing ended
  refine ⟨nothing, withholds, fun uncommitted key row isShown => ?_,
    fun commits succeeded unbounded key => ?_⟩
  · obtain ⟨commits, succeeded, _⟩ | ⟨_, showsEnd⟩ := ends
    · exact absurd ⟨commits, succeeded⟩ uncommitted
    · exact sameCache ▸ shows key row (showsEnd key row isShown)
  · obtain ⟨_, _, cache⟩ | ⟨uncommitted, _⟩ := ends
    · have policy := (run.cache regular (Cache.closed_policy _)
        (sameCache ▸ reached.cache (Cache.closed_policy _) rfl)).trans unbounded
      rw [cache]
      exact Cache.find?_apply_of_unbounded policy closes.writing closes.keyed _
    · exact absurd ⟨commits, succeeded⟩ uncommitted

set_option maxRecDepth 100000 in
/-- Ada is cached. In a transaction she is renamed, saved and removed, and Cy is saved; neither of
them is in the cache then, and after the commit Cy is and Ada is not. -/
theorem nothing_uncommitted_cached_replaced : ∃ store opened closing after : Store Tables.World,
    ∃ acts, (Store.beginTransaction (Samples.deployment.session 0)).run store = (.ok (), opened) ∧
      Samples.deployment.Run opened acts closing ∧
      acts.map (fun act => (act.thread, act.action)) = Samples.replaced ∧
      (Store.commitTransaction (Samples.deployment.session 0)).run closing = (.ok (), after) ∧
      store.cache.contains (Key.withId "Person" 1) = true ∧
      closing.cache.contains (Key.withId "Person" 1) = false ∧
      closing.cache.contains (Key.withId "Person" 2) = false ∧
      after.cache.contains (Key.withId "Person" 1) = false ∧
      after.cache.contains (Key.withId "Person" 2) = true ∧
      (∀ earlier act later, acts = earlier ++ act :: later →
        act.Withholds 0 (left opened earlier)) ∧
      ∀ key, after.cache.find? key
        = overwritten (closing.owed 0).effects closing.cache.find? key := by
  obtain ⟨store, visited⟩ : ∃ store, Samples.deployment.visited? Samples.saved = some store :=
    Option.isSome_iff_exists.mp (by decide +kernel)
  have facts : ∀ store ∈ Samples.deployment.visited? Samples.saved,
      let begun := (Store.beginTransaction (Samples.deployment.session 0)).run store
      let acts := Samples.deployment.enact Samples.replaced begun.2
      let closing := left begun.2 acts
      let ended := (Store.commitTransaction (Samples.deployment.session 0)).run closing
      begun.1.isOk = true ∧ named begun.2 acts = true ∧ ended.1.isOk = true ∧
        (∀ act ∈ acts, act.after.inTransaction 0 = true) ∧ ended.2.inTransaction 0 = false ∧
        store.cache.contains (Key.withId "Person" 1) = true ∧
        closing.cache.contains (Key.withId "Person" 1) = false ∧
        closing.cache.contains (Key.withId "Person" 2) = false ∧
        ended.2.cache.contains (Key.withId "Person" 1) = false ∧
        ended.2.cache.contains (Key.withId "Person" 2) = true := by
    decide +kernel
  obtain ⟨isOk, inMemory, committed, stays, ended, before, hidden, unseen, gone, shown⟩ :=
    facts store visited
  have reached := reached_visited (fun _ _ _ _ => trivial) visited
  generalize begun : (Store.beginTransaction (Samples.deployment.session 0)).run store
    = result at isOk inMemory committed stays ended hidden unseen gone shown
  obtain ⟨outcome | _, opened⟩ := result
  · cases isOk
  generalize ran : (Store.commitTransaction (Samples.deployment.session 0)).run
    (left opened _) = result at committed ended gone shown
  obtain ⟨outcome | _, after⟩ := result
  · cases committed
  have run := run_enact inMemory
  have alone : ∀ step ∈ Samples.replaced, step.1 = 0 := by
    simp [Samples.replaced, Samples.person]
  obtain ⟨_, withholds, _, commits⟩ := @nothing_uncommitted_cached _ _ 0 _ _ _ _ _ _ .commit _
    reached begun run (fun act member => alone _ (mem_enact member)) stays trivial ran ended
  exact ⟨store, opened, _, after, _, begun, run, steps_enact _ opened, ran, before, hidden, unseen,
    gone, shown, withholds, commits rfl rfl rfl⟩

end Deployment
end EntityStore
