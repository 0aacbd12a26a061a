/-
Saves to which nothing is refused. Such a save fails because references run in a circle
exactly if, among the new instances that draw no id from a sequence, relations that cannot
be empty do; otherwise it inserts every new instance.
-/

import EntityStore.Proofs.Circles
import EntityStore.Proofs.SavedGraphs
import EntityStore.Proofs.Services

set_option autoImplicit false

namespace EntityStore

theorem Source.eq_idOf {source : Source} {place : Nat} (needed : source.place? = some place) :
    source = .idOf place := by
  cases source with
  | value content => cases needed
  | idOf other =>
      cases needed
      rfl

namespace Store

variable {World : Type} {inner : Deployment World} {thread : ThreadId}

def Awaited (store : Store World) (dialect : Dialect) (root subject : InstanceId) : Prop :=
  store.NewFrom root subject ∧ ¬(dialect.hasSequences = true ∧
    (store.instanceAt subject).mapping.id.sequence.isSome = true)

/-- The first instance is assigned the second one by a relation that cannot be empty, and
neither has an id before it is inserted. -/
def Needs (store : Store World) (dialect : Dialect) (root subject target : InstanceId) : Prop :=
  store.Awaited dialect root subject ∧ store.Awaited dialect root target ∧
    ∃ relation, .object relation ∈ (store.instanceAt subject).mapping.properties ∧
      relation.nullable = false ∧
      (store.instanceAt subject).pending.lookup relation.name = some (.entity target)

/-! ### Needs and demands -/

section Plans

variable {store : Store World} {root : InstanceId} {graph : Graph} {dialect : Dialect}

theorem mem_placesKnown {planned : PlannedNode} (member : planned ∈ graph.plan dialect) :
    planned.place ∈ placesKnown dialect (graph.plan dialect) ↔
      planned.content.key.id.isSome = true ∨ (planned.sequence? dialect).isSome = true := by
  unfold placesKnown
  rw [List.mem_append]
  constructor
  · rintro (keyed | drawn)
    · obtain ⟨entry, isEntry, same⟩ := List.mem_map.mp keyed
      obtain ⟨other, isOther, isId⟩ := List.mem_filterMap.mp isEntry
      obtain ⟨id, found, rfl⟩ := Option.map_eq_some_iff.mp isId
      rw [← Graph.eq_of_place_eq isOther member same, found]
      exact Or.inl rfl
    · obtain ⟨other, isOther, same⟩ := List.mem_map.mp drawn
      obtain ⟨otherMember, sequenced⟩ := List.mem_filter.mp isOther
      rw [← Graph.eq_of_place_eq otherMember member same]
      exact Or.inr sequenced
  · rintro (keyed | sequenced)
    · obtain ⟨id, found⟩ := Option.isSome_iff_exists.mp keyed
      refine Or.inl (List.mem_map.mpr ⟨(planned.place, id), ?_, rfl⟩)
      exact List.mem_filterMap.mpr ⟨planned, member, by rw [PlannedNode.id?, found]; rfl⟩
    · exact Or.inr (List.mem_map_of_mem (List.mem_filter.mpr ⟨member, sequenced⟩))

variable (sound : store.Sound) (inMemory : root < store.memory.size)
  (collected : Graph.collect store.id store.memory root = .ok graph)
include sound inMemory collected

theorem isAwaited_iff {planned : PlannedNode} (member : planned ∈ graph.plan dialect) :
    planned.IsAwaited (placesKnown dialect (graph.plan dialect)) (graph.plan dialect) ↔
      store.Awaited dialect root planned.node.subject := by
  have found := sound.of_plan collected member
  have content := instanceAt_eq found.2.1
  unfold PlannedNode.IsAwaited Awaited
  rw [mem_placesKnown member, @newFrom_iff _ _ _ dialect _ sound inMemory collected, content]
  have isNew : (∃ other ∈ graph.plan dialect, other.isNew = true ∧
      other.node.subject = planned.node.subject) ↔ planned.isNew = true := by
    constructor
    · rintro ⟨other, isOther, isNew, same⟩
      rw [← planned_eq_of_subject collected isOther member same]
      exact isNew
    · exact fun isNew => ⟨planned, member, isNew, rfl⟩
  rw [isNew]
  constructor
  · rintro ⟨_, isNew, unknown⟩
    refine ⟨isNew, fun ⟨sequences, sequenced⟩ => unknown (Or.inr ?_)⟩
    unfold PlannedNode.sequence?
    rw [isNew, sequences]
    exact sequenced
  · rintro ⟨isNew, undrawn⟩
    refine ⟨member, isNew, ?_⟩
    rintro (keyed | sequenced)
    · have transient : planned.content.state = .transient := of_decide_eq_true isNew
      have unkeyed := found.2.2.sound.fresh transient
      rw [show planned.content.key.id = none from unkeyed] at keyed
      cases keyed
    · unfold PlannedNode.sequence? at sequenced
      split at sequenced
      · rename_i both
        exact undrawn ⟨(Bool.and_eq_true_iff.mp both).2, sequenced⟩
      · cases sequenced

omit inMemory in
/-- A planned instance that needs the id of another one is assigned it by a relation. -/
theorem relation_of_assignment {planned other : PlannedNode}
    (member : planned ∈ graph.plan dialect) (otherMember : other ∈ graph.plan dialect)
    {assignment : Assignment} (isAssignment : assignment ∈ planned.assignments)
    (needed : assignment.source.place? = some other.place) :
    ∃ relation, .object relation ∈ (store.instanceAt planned.node.subject).mapping.properties ∧
      (store.instanceAt planned.node.subject).pending.lookup relation.name
        = some (.entity other.node.subject) ∧
      assignment = ⟨relation.name, relation.column, relation.nullable, .idOf other.place⟩ := by
  rw [sound.instanceAt_plan collected member]
  rw [(Graph.mem_plan.mp member).2] at isAssignment
  obtain ⟨_, property, declared, assigned⟩ := Graph.mem_assignments.mp isAssignment
  have refers := Source.eq_idOf needed
  obtain ⟨relation, target, rfl, isTarget, placed, nullable⟩ :=
    Graph.place?_of_assignment assigned refers
  obtain ⟨node, isNode, isSubject⟩ := Graph.place?_eq_some placed
  rw [(Graph.mem_plan.mp otherMember).1] at isNode
  cases isNode
  obtain ⟨name, column⟩ := Graph.assignment?_eq_some assigned
  refine ⟨relation, declared, isSubject ▸ isTarget, ?_⟩
  obtain ⟨property, _, _, source⟩ := assignment
  cases name
  cases column
  cases nullable
  cases refers
  rfl

private theorem needs_iff {planned other : PlannedNode} (member : planned ∈ graph.plan dialect)
    (otherMember : other ∈ graph.plan dialect) :
    planned.Demands (placesKnown dialect (graph.plan dialect)) (graph.plan dialect) other ↔
      store.Needs dialect root planned.node.subject other.node.subject := by
  have content := sound.instanceAt_plan collected member
  unfold PlannedNode.Demands Needs
  rw [isAwaited_iff sound inMemory collected member,
    isAwaited_iff sound inMemory collected otherMember]
  refine and_congr_right fun awaited => and_congr_right fun _ => ?_
  have isNew : planned.isNew = true := by
    have transient := awaited.1.2
    rw [content] at transient
    exact decide_eq_true transient
  constructor
  · rintro ⟨assignment, isAssignment, strict, needed⟩
    obtain ⟨relation, declared, isTarget, rfl⟩ :=
      relation_of_assignment sound collected member otherMember isAssignment needed
    exact ⟨relation, declared, strict, isTarget⟩
  · rw [content]
    rintro ⟨relation, declared, strict, isTarget⟩
    obtain ⟨found, isFound, same, isAssignment⟩ :=
      exists_reference sound inMemory collected member isNew declared isTarget
    rw [planned_eq_of_subject collected isFound otherMember same] at isAssignment
    exact ⟨_, isAssignment, strict, rfl⟩

/-- Needs run in a circle exactly if demands do. -/
theorem circle_iff :
    (∃ planned, Relation.TransGen (PlannedNode.Demands
      (placesKnown dialect (graph.plan dialect)) (graph.plan dialect)) planned planned) ↔
    ∃ subject, Relation.TransGen (store.Needs dialect root) subject subject := by
  have planned_of {subject : InstanceId} (awaited : store.Awaited dialect root subject) :
      ∃ planned ∈ graph.plan dialect, planned.node.subject = subject := by
    obtain ⟨planned, member, _, same⟩ :=
      (newFrom_iff sound inMemory collected).mp awaited.1
    exact ⟨planned, member, same⟩
  constructor
  · rintro ⟨planned, circle⟩
    refine ⟨planned.node.subject, circle.lift (fun one => one.node.subject) ?_⟩
    exact fun first second demands =>
      (needs_iff sound inMemory collected demands.1.1 demands.2.1.1).mp demands
  · rintro ⟨subject, circle⟩
    -- a chain of needs is one of demands between the planned instances
    have chain {first second : InstanceId}
        (needs : Relation.TransGen (store.Needs dialect root) first second) :
        ∀ planned ∈ graph.plan dialect, planned.node.subject = first →
        ∀ other ∈ graph.plan dialect, other.node.subject = second →
          Relation.TransGen (PlannedNode.Demands (placesKnown dialect (graph.plan dialect))
            (graph.plan dialect)) planned other := by
      rintro planned member rfl
      induction needs with
      | single needs =>
          rintro other otherMember rfl
          exact .single ((needs_iff sound inMemory collected member otherMember).mpr needs)
      | tail _ needs ih =>
          rintro other otherMember rfl
          obtain ⟨between, isBetween, same⟩ := planned_of needs.1
          refine (ih between isBetween same).tail ?_
          exact (needs_iff sound inMemory collected isBetween otherMember).mpr (same ▸ needs)
    obtain ⟨_, needs, _⟩ := Relation.TransGen.head'_iff.mp circle
    obtain ⟨planned, member, same⟩ := planned_of needs.1
    exact ⟨planned, chain circle planned member same planned member same⟩

theorem closed_plan :
    Schedule.Closed (placesKnown dialect (graph.plan dialect)) (graph.plan dialect) := by
  intro planned member assignment isAssignment place needed
  rw [(Graph.mem_plan.mp member).2] at isAssignment
  obtain ⟨_, property, _, assigned⟩ := Graph.mem_assignments.mp isAssignment
  obtain ⟨_, target, _, isTarget, placed, _⟩ :=
    Graph.place?_of_assignment assigned (Source.eq_idOf needed)
  obtain ⟨other, isOther, _, otherPlaced⟩ :=
    planned_target sound inMemory collected member isTarget
  rw [placed] at otherPlaced
  cases otherPlaced
  rcases sound.isNew_or_keyed collected isOther with isNew | keyed
  · exact Or.inr ⟨other, isOther, isNew, rfl⟩
  · exact Or.inl ((mem_placesKnown isOther).mpr (Or.inl keyed))

end Plans

/-! ### Saves -/

section Saves

variable {store : Store (Traced World)} {root : InstanceId} {graph : Graph}

private theorem works_save {lease : LeaseId} (draws : inner.dialect.DrawsFromSequences)
    (plan : List PlannedNode) :
    Works lease (do
      let written ← writeAll (inner.traced.session thread) lease plan
      return (written, WriteSet.ofWritten written)) (KeepsSchedule inner.dialect plan) := by
  refine works_bind (works_writeAll draws plan) ?_ fun written => works_pure ?_
  · exact fun error statements keeps => keeps.transfer fun _ => by constructor <;> (rintro ⟨⟩; rfl)
  · intro statements keeps
    rw [List.append_nil]
    exact keeps.transfer fun _ => by constructor <;> rintro ⟨⟩

private theorem serviced_save (draws : inner.dialect.DrawsFromSequences) (leased : store.Leased)
    (collected : Graph.collect store.id store.memory root = .ok graph)
    (connects : store.Connects inner thread) :
    Ensures (save (inner.traced.session thread) root) store
      (store.Serviced (KeepsSchedule inner.dialect (graph.plan inner.dialect))) := by
  unfold save
  have isOpen := run_ensureOpen store
  rw [connects.1, if_pos rfl] at isOpen
  refine serviced_silent_bind isOpen rfl ?_
  refine serviced_silent_bind (run_get store) rfl ?_
  have settles := run_settleOutcome (Graph.collect store.id store.memory root) store
  rw [collected] at settles
  rw [collected]
  refine serviced_silent_bind settles rfl ?_
  cases needed : graph.needsWrite with
  | true =>
      simp only [↓reduceIte]
      refine serviced_bind_sure (serviced_unit (fun _ => works_save draws _) leased connects)
        ?_ ?_
      · rintro error statements ⟨done, same, keeps⟩
        refine keeps.transfer fun other => ?_
        cases done with
        | ok result => cases same
        | error error' =>
            cases same
            constructor <;>
            · rintro ⟨⟩
              rfl
      · intro written between
        obtain ⟨after, settles⟩ := run_settleAll (inner.traced.session thread) written between
        refine ⟨(), after, settles, pool_settleAll settles, ?_⟩
        rintro statements ⟨done, same, keeps⟩
        refine keeps.transfer fun other => ?_
        cases done with
        | ok result => exact iff_of_false (by rintro ⟨⟩) (by rintro ⟨⟩)
        | error error => cases same
  | false =>
      simp only [Bool.false_eq_true, ↓reduceIte]
      -- Nothing is new, and the schedule is empty.
      obtain ⟨insertions, stuck⟩ := @Schedule.ofPlan_of_none
        (placesKnown inner.dialect (graph.plan inner.dialect)) _
        fun planned => Graph.isNew_of_unchanged needed
      refine ⟨[], (List.append_nil _).symm, fun _ => ⟨?_, ?_⟩⟩
      · exact iff_of_false (by rintro ⟨_, ⟨⟩⟩) (not_not_intro stuck)
      · unfold scheduleOf
        rw [insertions]
        exact .nil

end Saves

/-- Provided that no call is refused and every sequence gives a value, a save fails because
references run in a circle exactly if the new instances that draw no id need each other in
a circle. Otherwise it inserts every new instance, each once. -/
theorem save_circle_iff {allowed : Store (Traced World) → ThreadId → Action → Prop}
    {store after : Store (Traced World)} {root : InstanceId} {graph : Graph}
    {outcome : Except Error Unit} {calls : List Exchange}
    (draws : inner.dialect.DrawsFromSequences) (reached : inner.traced.Reached allowed store)
    (inMemory : root < store.memory.size)
    (collected : Graph.collect store.id store.memory root = .ok graph)
    (connects : store.Connects inner thread)
    (saved : (save (inner.traced.session thread) root).run store = (outcome, after))
    (grown : after.pool.world.trace = store.pool.world.trace ++ calls)
    (serve : ∀ call ∈ calls, call.Serves) :
    ((∃ circle, outcome = .error (.integrity (.referenceCycle circle))) ↔
      ∃ subject, Relation.TransGen (store.Needs inner.dialect root) subject subject) ∧
    ((¬∃ subject, Relation.TransGen (store.Needs inner.dialect root) subject subject) →
      ∃ order : List InstanceId, order.Nodup ∧
        (∀ subject, subject ∈ order ↔ store.NewFrom root subject) ∧
        List.Forall₂ (fun subject => IsInsertion inner.dialect (store.instanceAt subject).mapping)
          order (calls.filterMap Exchange.insertion?)) := by
  have regular := reached.regular
  have sound := regular.sound
  obtain ⟨calls', grown', given⟩ :=
    (serviced_save draws regular.leased collected connects).of_run saved
  obtain rfl := List.append_cancel_left (grown.symm.trans grown')
  have keeps := given serve
  -- The outcome says whether the schedule is stuck, and it is stuck if there is a circle in the
  -- plan, which is one of instances.
  have stuck := Schedule.stuck_iff (@closed_plan _ _ _ _ inner.dialect sound inMemory collected)
    (fun first isFirst second isSecond same => Graph.eq_of_place_eq isFirst isSecond same)
    fun planned member =>
      have tidy := (sound.fit_of_plan collected member).tidy
      tidy.names.nodup tidy.wellFormed.distinctNames
  have circle := keeps.circle.trans (stuck.trans (circle_iff sound inMemory collected))
  refine ⟨circle, fun none => ?_⟩
  have free : (scheduleOf inner.dialect (graph.plan inner.dialect)).stuck = [] := by
    by_contra isStuck
    exact none (circle.mp (keeps.circle.mpr isStuck))
  have inserted := Schedule.insertions_ofPlan free
  have plannedOnce := inserted.nodup_iff.mpr
    ((List.Nodup.of_map _ (Graph.places_plan inner.dialect graph)).filter _)
  have isPlanned : ∀ waiting ∈ (scheduleOf inner.dialect (graph.plan inner.dialect)).insertions,
      waiting.planned ∈ graph.plan inner.dialect :=
    fun waiting member => (List.mem_filter.mp (Schedule.planned_of_mem member)).1
  refine ⟨(scheduleOf inner.dialect (graph.plan inner.dialect)).insertions.map
    fun waiting => waiting.planned.node.subject, ?_, fun subject => ?_, ?_⟩
  · exact nodup_subjects collected isPlanned plannedOnce
  · rw [@newFrom_iff _ _ _ inner.dialect _ sound inMemory collected, List.mem_map]
    constructor
    · rintro ⟨waiting, member, rfl⟩
      obtain ⟨isMember, isNew⟩ := List.mem_filter.mp (Schedule.planned_of_mem member)
      exact ⟨_, isMember, isNew, rfl⟩
    · rintro ⟨planned, member, isNew, rfl⟩
      obtain ⟨waiting, isInserted, rfl⟩ := List.mem_map.mp
        (inserted.mem_iff.mpr (List.mem_filter.mpr ⟨member, isNew⟩))
      exact ⟨waiting, isInserted, rfl⟩
  · rw [List.forall₂_map_left_iff]
    refine ((List.forall₂_and_left _ _).mpr ⟨isPlanned, keeps.inserts⟩).imp ?_
    rintro waiting statement ⟨member, inserts⟩
    rw [sound.instanceAt_plan collected member]
    exact inserts

end Store

namespace Samples

/-- A chicken and an egg are new and need each other. -/
def hatching : List (ThreadId × Action) := [
  (0, .define strictCycle),
  (0, .sync),
  (0, .create "Chicken" [("name", .value (.text "Berta"))]),
  (0, .create "Egg" [("chicken", .entity 0)]),
  (0, .assign 0 "egg" (.entity 1))]

end Samples

namespace Store

set_option maxRecDepth 100000 in
/-- A chicken and an egg that need each other cannot be saved. -/
theorem save_circle_iff_hatching : ∃ store after : Store (Traced Tables.World),
    ∃ graph outcome calls,
      Samples.deployment.dialect.DrawsFromSequences ∧ 0 < store.memory.size ∧
      Graph.collect store.id store.memory 0 = .ok graph ∧
      store.Connects Samples.deployment 0 ∧
      (save (Samples.deployment.traced.session 0) 0).run store = (outcome, after) ∧
      after.pool.world.trace = store.pool.world.trace ++ calls ∧
      (∀ call ∈ calls, call.Serves) ∧
      (∃ circle, outcome = .error (.integrity (.referenceCycle circle))) ∧
      ∃ subject, Relation.TransGen (store.Needs Samples.deployment.dialect 0) subject subject := by
  obtain ⟨store, visited⟩ : ∃ store,
      Samples.deployment.traced.visited? Samples.hatching = some store :=
    Option.isSome_iff_exists.mp (by decide +kernel)
  -- the calls are those of a unit that does nothing
  have facts : ∀ store ∈ Samples.deployment.traced.visited? Samples.hatching,
      let result := (save (Samples.deployment.traced.session 0) 0).run store
      result.1 = .error (.integrity (.referenceCycle
        [("Chicken", "egg", "Egg"), ("Egg", "chicken", "Chicken")])) ∧
      (Graph.collect store.id store.memory 0).isOk = true ∧
      0 < store.memory.size ∧ store.isOpen = true ∧
      (store.pool.acquire Samples.deployment.traced.database).1.isOk = true ∧
      ∀ call ∈ result.2.pool.world.trace.drop store.pool.world.trace.length,
        call.deed.query?.isNone = true ∧ call.answer.isOk = true := by
    decide +kernel
  obtain ⟨fails, collects, inMemory, isOpen, acquires, served⟩ := facts store visited
  have reached := Deployment.reached_visited (fun _ _ _ _ => trivial) visited
  have draws : Samples.deployment.dialect.DrawsFromSequences := by
    rintro ⟨⟩
  have connects : store.Connects Samples.deployment 0 := by
    refine ⟨isOpen, fun _ => ?_⟩
    rcases acquired : store.pool.acquire Samples.deployment.traced.database with ⟨_ | lease, pool⟩
    · rw [acquired] at acquires
      cases acquires
    · exact ⟨lease, pool, rfl⟩
  cases collected : Graph.collect store.id store.memory 0 with
  | error error =>
      rw [collected] at collects
      cases collects
  | ok graph =>
      generalize saved : (save (Samples.deployment.traced.session 0) 0).run store = result
        at fails served
      obtain ⟨outcome, after⟩ := result
      obtain ⟨calls, grown, _⟩ :=
        (serviced_save draws reached.regular.leased collected connects).of_run saved
      have circle : ∃ circle, outcome = .error (.integrity (.referenceCycle circle)) := ⟨_, fails⟩
      have serve : ∀ call ∈ calls, call.Serves := by
        intro call member
        rw [show after.pool.world.trace = _ from grown, List.drop_left] at served
        obtain ⟨noQuery, granted⟩ := served call member
        refine ⟨?_, fun statement _ _ isQuery => ?_⟩
        · cases answer : call.answer with
          | ok rows => exact ⟨rows, rfl⟩
          | error fault =>
              rw [answer] at granted
              cases granted
        · rw [isQuery] at noQuery
          cases noQuery
      exact ⟨store, after, graph, outcome, calls, draws, inMemory, collected, connects, saved,
        grown, serve, circle, (save_circle_iff draws reached inMemory collected connects saved
          grown serve).1.mp circle⟩

end Store
end EntityStore
