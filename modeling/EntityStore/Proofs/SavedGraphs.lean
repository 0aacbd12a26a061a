/-
What a save does for the new instances that its root reaches. Its log, as the journal of
the database shows it, inserts each of them once; replayed on contents in which their ids
are fresh, it leaves one row for each that holds everything that was assigned.
-/

import EntityStore.Proofs.Insertions
import EntityStore.Proofs.Journals
import EntityStore.Proofs.Runs

set_option autoImplicit false

namespace EntityStore

namespace Store

variable {World : Type} {session : Session World} {store after : Store World}
  {root : InstanceId} {layout : Layout} {dialect : Dialect}

def KnownAhead (store : Store World) (dialect : Dialect) (subject : InstanceId) : Prop :=
  (store.idOf subject).isSome = true ∨
    (dialect.hasSequences = true ∧ (store.instanceAt subject).mapping.id.sequence.isSome = true)

def NewFrom (store : Store World) (root subject : InstanceId) : Prop :=
  Reaches store.memory root subject ∧ (store.instanceAt subject).state = .transient

/-- The ids that new instances have after a save are fresh: their tables had no row under
them, and no other instance that the root reaches has the same id in the same table. -/
structure FreshIds (layout : Layout) (before : Contents) (store after : Store World)
    (root : InstanceId) : Prop where
  absent : ∀ subject id, store.NewFrom root subject → after.idOf subject = some id →
    before (layout.tableOf (store.instanceAt subject).mapping) id = none
  apart : ∀ subject other id, store.NewFrom root subject → Reaches store.memory root other →
    layout.tableOf (store.instanceAt other).mapping
      = layout.tableOf (store.instanceAt subject).mapping →
    after.idOf subject = some id → after.idOf other = some id → other = subject

/-- What a log does for the new instances that a root reaches; `order` lists them as they
are inserted. -/
structure InsertsNew (layout : Layout) (dialect : Dialect) (store after : Store World)
    (root : InstanceId) (log : List Event) (order : List InstanceId) : Prop where
  distinct : order.Nodup
  members : ∀ subject, subject ∈ order ↔ store.NewFrom root subject
  inserts : InsertsInOrder store.instanceAt dialect after.idOf (store.KnownAhead dialect)
    (log.filterMap Event.insertion?) order
  replayable : ∀ before : Ledger, FreshIds layout before.contents store after root →
    ∃ final, Ledger.Replays layout anyAnswer before log final
  leaves : ∀ before final : Ledger, FreshIds layout before.contents store after root →
    Ledger.Replays layout anyAnswer before log final → ∀ subject ∈ order, ∃ id fields,
      after.idOf subject = some id ∧
      final.contents (layout.tableOf (store.instanceAt subject).mapping) id = some fields ∧
      fields (layout.column (store.instanceAt subject).mapping.id.column) = .integer id ∧
      (store.instanceAt subject).HeldIn layout dialect after.idOf fields

/-! ### Graphs and plans -/

section Plans

variable {graph : Graph} (sound : store.Sound) (inMemory : root < store.memory.size)
  (collected : Graph.collect store.id store.memory root = .ok graph)
include sound inMemory collected

theorem newFrom_iff {subject : InstanceId} :
    store.NewFrom root subject ↔ ∃ planned ∈ graph.plan dialect,
      planned.isNew = true ∧ planned.node.subject = subject := by
  unfold NewFrom
  rw [← sound.mem_graph inMemory collected]
  constructor
  · rintro ⟨member, isNew⟩
    obtain ⟨planned, isPlanned, rfl, _⟩ := @exists_planned _ _ dialect member
    refine ⟨planned, isPlanned, ?_, rfl⟩
    rw [sound.instanceAt_plan collected isPlanned] at isNew
    exact decide_eq_true isNew
  · rintro ⟨planned, isPlanned, isNew, rfl⟩
    obtain ⟨isNode, _⟩ := Graph.mem_plan.mp isPlanned
    refine ⟨Graph.mem_subjects.mpr ⟨planned.node, List.mem_of_getElem? isNode, rfl⟩, ?_⟩
    rw [sound.instanceAt_plan collected isPlanned]
    exact of_decide_eq_true isNew

omit inMemory in
private theorem knownAhead_of_knownIn (writing : Writing dialect (graph.plan dialect))
    {target : InstanceId} (known : KnownIn (graph.plan dialect) writing.ids target) :
    store.KnownAhead dialect target := by
  obtain ⟨planned, isPlanned, rfl, isKnown⟩ := known
  unfold KnownAhead idOf
  rw [sound.instanceAt_plan collected isPlanned]
  unfold Writing.ids at isKnown
  rw [List.map_append, List.mem_append] at isKnown
  rcases isKnown with keyed | drawn
  · obtain ⟨entry, member, same⟩ := List.mem_map.mp keyed
    obtain ⟨other, isOther, isId⟩ := List.mem_filterMap.mp member
    obtain ⟨id, otherKeyed, rfl⟩ := Option.map_eq_some_iff.mp isId
    rw [← Graph.eq_of_place_eq isOther isPlanned same, otherKeyed]
    exact Or.inl rfl
  · obtain ⟨other, isOther, same, sequenced⟩ := writing.draws.sequenced drawn
    rw [Graph.eq_of_place_eq isOther isPlanned same] at sequenced
    exact Or.inr sequenced

/-- What is inserted is new, and afterwards it has the id under which it was inserted. -/
theorem newFrom_of_inserted {writing : Writing dialect (graph.plan dialect)}
    (final : ∀ planned ∈ graph.plan dialect, ∃ id,
      writing.known.lookup planned.place = some id ∧ after.idOf planned.node.subject = some id)
    {entry : Waiting × Written} (member : entry ∈ writing.inserted) :
    store.NewFrom root entry.1.planned.node.subject ∧
      after.idOf entry.1.planned.node.subject = some entry.2.id := by
  obtain ⟨isPlanned, isNew⟩ := writing.planned_of_inserted member
  refine ⟨(newFrom_iff sound inMemory collected).mpr ⟨_, isPlanned, isNew, rfl⟩, ?_⟩
  obtain ⟨id, known, isFinal⟩ := final _ isPlanned
  rw [(writing.inserts.lookup member).1] at known
  rw [isFinal, Option.some.inj known]

/-- Where the ids are fresh, the rows of what is inserted were missing and are apart. -/
theorem FreshIds.of_inserted {writing : Writing dialect (graph.plan dialect)}
    (final : ∀ planned ∈ graph.plan dialect, ∃ id,
      writing.known.lookup planned.place = some id ∧ after.idOf planned.node.subject = some id)
    {before : Contents} (fresh : FreshIds layout before store after root) :
    (∀ entry ∈ writing.inserted,
      before.row (layout.address entry.1.planned entry.2.id) = none) ∧
    (writing.inserted.map fun entry => layout.address entry.1.planned entry.2.id).Nodup := by
  have content : ∀ entry ∈ writing.inserted,
      store.instanceAt entry.1.planned.node.subject = entry.1.planned.content :=
    fun entry member =>
      sound.instanceAt_plan collected (writing.planned_of_inserted member).1
  have isFinal := fun entry member =>
    @newFrom_of_inserted _ _ _ _ _ _ sound inMemory collected _ final entry member
  constructor
  · intro entry member
    have missing := fresh.absent _ _ (isFinal entry member).1 (isFinal entry member).2
    rw [content entry member] at missing
    exact missing
  · have plannedOnce : (writing.inserted.map fun entry => entry.1.planned).Nodup :=
      writing.inserted_perm.nodup_iff.mpr
        ((List.Nodup.of_map _ (Graph.places_plan dialect graph)).filter _)
    rw [List.Nodup, List.pairwise_map] at plannedOnce ⊢
    refine plannedOnce.imp_of_mem ?_
    intro first second isFirst isSecond different same
    apply different
    have sameId : first.2.id = second.2.id := congrArg Prod.snd same
    have sameTable : layout.tableOf first.1.planned.mapping
        = layout.tableOf second.1.planned.mapping := congrArg Prod.fst same
    refine planned_eq_of_subject collected (writing.planned_of_inserted isFirst).1
      (writing.planned_of_inserted isSecond).1 ?_
    refine fresh.apart _ _ second.2.id (isFinal second isSecond).1 (isFinal first isFirst).1.1 ?_
      (isFinal second isSecond).2 (sameId ▸ (isFinal first isFirst).2)
    rw [content first isFirst, content second isSecond]
    exact sameTable

theorem FreshIds.untouched {known : Ids}
    (final : ∀ planned ∈ graph.plan dialect, ∃ id,
      known.lookup planned.place = some id ∧ after.idOf planned.node.subject = some id)
    (keyed : ∀ planned ∈ graph.plan dialect, ∀ id, planned.content.key.id = some id →
      known.lookup planned.place = some id)
    {before : Contents} (fresh : FreshIds layout before store after root)
    {planned : PlannedNode} (member : planned ∈ graph.plan dialect)
    (isNew : planned.isNew = true) {id : Int64}
    (isFinal : after.idOf planned.node.subject = some id) :
    ∀ other ∈ graph.plan dialect, ¬other.Touches layout (layout.address planned id) := by
  rintro other isOther ⟨dirty, otherId, otherKeyed, same⟩
  obtain ⟨knownId, isKnown, otherFinal⟩ := final other isOther
  rw [keyed other isOther otherId otherKeyed] at isKnown
  cases isKnown
  have sameId : otherId = id := congrArg Prod.snd same
  have sameTable : layout.tableOf other.mapping = layout.tableOf planned.mapping :=
    congrArg Prod.fst same
  have sameSubject : other.node.subject = planned.node.subject := by
    refine fresh.apart planned.node.subject _ id
      ((newFrom_iff sound inMemory collected).mpr ⟨planned, member, isNew, rfl⟩)
      (sound.reaches_of_plan inMemory collected isOther) ?_ isFinal (sameId ▸ otherFinal)
    rw [sound.instanceAt_plan collected isOther, sound.instanceAt_plan collected member]
    exact sameTable
  rw [planned_eq_of_subject collected isOther member sameSubject] at dirty
  have transient : planned.content.state = .transient := of_decide_eq_true isNew
  rw [transient] at dirty
  cases dirty

omit sound inMemory in
theorem nodup_inserted (writing : Writing dialect (graph.plan dialect)) :
    (writing.inserted.map fun entry => entry.1.planned.node.subject).Nodup := by
  have plannedOnce : (writing.inserted.map fun entry => entry.1.planned).Nodup :=
    writing.inserted_perm.nodup_iff.mpr
      ((List.Nodup.of_map _ (Graph.places_plan dialect graph)).filter _)
  exact nodup_subjects collected
    (fun entry member => (writing.planned_of_inserted member).1) plannedOnce

/-- What is inserted are the new instances. -/
theorem mem_inserted_iff (writing : Writing dialect (graph.plan dialect)) {subject : InstanceId} :
    subject ∈ writing.inserted.map (fun entry => entry.1.planned.node.subject) ↔
      store.NewFrom root subject := by
  rw [@newFrom_iff _ _ _ dialect _ sound inMemory collected, List.mem_map]
  constructor
  · rintro ⟨entry, member, rfl⟩
    exact ⟨_, (writing.planned_of_inserted member).1, (writing.planned_of_inserted member).2, rfl⟩
  · rintro ⟨planned, isPlanned, isNew, rfl⟩
    obtain ⟨entry, member, rfl⟩ := writing.exists_inserted isPlanned isNew
    exact ⟨entry, member, rfl⟩

/-- A plan that was carried out inserts what is new, if afterwards the instances have the
ids that became known. -/
theorem insertsNew_of_writing (writing : Writing dialect (graph.plan dialect))
    (final : ∀ planned ∈ graph.plan dialect, ∃ id,
      writing.known.lookup planned.place = some id ∧ after.idOf planned.node.subject = some id) :
    InsertsNew layout dialect store after root writing.log
      (writing.inserted.map fun entry => entry.1.planned.node.subject) := by
  have tidy : ∀ planned ∈ graph.plan dialect, planned.content.needsWrite = true →
      planned.Tidy := fun planned member _ => (sound.fit_of_plan collected member).tidy
  refine ⟨nodup_inserted collected writing,
    fun subject => mem_inserted_iff sound inMemory collected writing, ?_, ?_, ?_⟩
  · have order : (writing.inserted.map fun entry => entry.1.planned.node.subject)
        = writing.schedule.insertions.map fun waiting => waiting.planned.node.subject := by
      rw [← writing.waiting_eq, List.map_map]
      rfl
    rw [order, writing.insertion?_log]
    refine (insertsInOrder sound inMemory collected final writing.inserts writing.inOrder
      fun waiting member => ?_).weaken fun _ => knownAhead_of_knownIn sound collected writing
    obtain ⟨isPlanned, isNew⟩ := List.mem_filter.mp (Schedule.planned_of_mem member)
    exact ⟨isPlanned, isNew, Schedule.lenient_ofPlan member⟩
  · intro before fresh
    obtain ⟨absent, distinct⟩ := fresh.of_inserted sound inMemory collected final
    exact writing.exists_replay tidy absent distinct
  · intro before finalLedger fresh replays subject member
    obtain ⟨entry, isInserted, rfl⟩ := List.mem_map.mp member
    obtain ⟨isPlanned, isNew⟩ := writing.planned_of_inserted isInserted
    obtain ⟨_, isFinal⟩ := newFrom_of_inserted sound inMemory collected final isInserted
    obtain ⟨settled, settles, replaysChange⟩ := writing.exists_settled tidy replays
    obtain ⟨fields, present, holds⟩ := settles.holds entry isInserted
    -- The updates that follow leave the row as the insertion and its completion left it.
    have kept := writing.changes.frame replaysChange
      (fresh.untouched sound inMemory collected final
        (fun planned isOne _ keyed =>
          writing.known_of_id (Graph.places_plan dialect graph) isOne keyed)
        isPlanned isNew isFinal)
    rw [sound.instanceAt_plan collected isPlanned]
    exact ⟨entry.2.id, fields, isFinal, kept.trans present, holds.id,
      heldIn_of_holds sound inMemory collected final isPlanned isNew holds⟩

end Plans

/-- Whatever was done before, a save that succeeds adds a log to the journal that inserts
each new instance that the root reaches once. On contents in which their ids are fresh the
log can be replayed, and it leaves the row of each of them as it is to be. -/
theorem save_inserts_new {inner : Deployment World}
    {allowed : Store (Journaled World) → ThreadId → Action → Prop}
    {store after : Store (Journaled World)} {thread : ThreadId} {root : InstanceId}
    (reached : inner.journaled.Reached allowed store) (inMemory : root < store.memory.size)
    (saved : (save (inner.journaled.session thread) root).run store = (.ok (), after)) :
    ∃ connection log order, after.pool.world.journal
        = store.pool.world.journal ++ log.map (Prod.mk connection) ∧
      ∀ layout, InsertsNew layout inner.dialect store after root log order := by
  have regular := reached.regular
  obtain ⟨graph, _, collected, ends⟩ := save_ok regular saved
  cases ends with
  | unchanged nothing =>
      have none (subject : InstanceId) : ¬store.NewFrom root subject := by
        intro isNew
        obtain ⟨planned, isPlanned, isNew, _⟩ := (@newFrom_iff _ _ _ inner.dialect _
          regular.sound inMemory collected _).mp isNew
        have isNode := List.mem_of_getElem? (Graph.mem_plan.mp isPlanned).1
        have written := List.any_eq_false.mp nothing planned.node isNode
        have transient : planned.node.content.state = .transient := of_decide_eq_true isNew
        simp [Instance.needsWrite, transient] at written
      refine ⟨0, [], [], (List.append_nil _).symm, fun layout => ⟨List.nodup_nil, ?_, .nil _,
        fun before _ => ⟨before, .nil before⟩, fun _ _ _ _ _ member => by cases member⟩⟩
      exact fun subject => iff_of_false List.not_mem_nil (none subject)
  | @written written between after unit settled =>
      obtain ⟨connection, log, writes, ⟨writing, same, rfl⟩, grown⟩ :=
        @UnitEnds.journal _ _ inner.database _ rfl _ _ _ _ _ _ unit
      obtain rfl : written = writing.written := congrArg Prod.fst same
      have sameSize : between.memory.size = store.memory.size := congrArg Prod.snd unit.extent
      refine ⟨connection, writing.log, _, ?_, fun layout => insertsNew_of_writing regular.sound
        inMemory collected writing fun planned member =>
          final_id regular collected writing (fun other => unit.idOf other) sameSize settled member⟩
      rw [pool_settleAll settled]
      exact grown

set_option maxRecDepth 100000 in
/-- Two people who are each other's friends are both inserted; in tables without rows
their ids are fresh. -/
theorem save_inserts_new_friends : ∃ store after : Store (Journaled Tables.World),
    (save (Samples.deployment.journaled.session 0) 0).run store = (.ok (), after) ∧
      store.NewFrom 0 1 ∧
      FreshIds (Tables.layout fun _ => "id") (fun _ _ => none) store after 0 ∧
      ∃ connection log order, after.pool.world.journal
          = store.pool.world.journal ++ log.map (Prod.mk connection) ∧
        ∀ layout, InsertsNew layout Dialect.sqlite store after 0 log order := by
  obtain ⟨store, visited⟩ : ∃ store,
      Samples.deployment.journaled.visited? Samples.friends = some store :=
    Option.isSome_iff_exists.mp (by decide +kernel)
  have facts : ∀ store ∈ Samples.deployment.journaled.visited? Samples.friends,
      let result := (save (Samples.deployment.journaled.session 0) 0).run store
      result.1.isOk = true ∧ result.2.idOf 0 = some 1 ∧ result.2.idOf 1 = some 2 ∧
        0 < store.memory.size ∧ (store.instanceAt 1).state = .transient ∧
        (Graph.collect store.id store.memory 0).toOption.map Graph.subjects = some [0, 1] := by
    decide +kernel
  have reached := Deployment.reached_visited (fun _ _ _ _ => trivial) visited
  obtain ⟨isOk, idFirst, idSecond, inMemory, isNew, subjects⟩ := facts store visited
  generalize ran : (save (Samples.deployment.journaled.session 0) 0).run store = result
    at isOk idFirst idSecond
  obtain ⟨outcome | _, after⟩ := result
  · cases isOk
  obtain ⟨graph, collected, isGraph⟩ := Option.map_eq_some_iff.mp subjects
  have members (other : InstanceId) : Reaches store.memory 0 other ↔ other ∈ [0, 1] := by
    rw [← isGraph, reached.regular.sound.mem_graph inMemory (toOption_eq_some.mp collected)]
  refine ⟨store, after, ran, ⟨(members 1).mpr (by simp), isNew⟩,
    ⟨fun _ _ _ _ => rfl, ?_⟩, save_inserts_new reached inMemory ran⟩
  intro subject other id isSubject reachesOther _ isFinal otherFinal
  have differ : (1 : Int64) ≠ 2 := by decide
  rcases List.mem_pair.mp ((members subject).mp isSubject.1) with rfl | rfl <;>
  rcases List.mem_pair.mp ((members other).mp reachesOther) with rfl | rfl <;>
  simp_all

end Store
end EntityStore
