/-
What a save leaves behind in its graph. Whatever needs to be written is written once, and so
is settled; the rest was settled before. Saving any of it once more finds nothing to write,
and nothing is done.
-/

import EntityStore.Proofs.CheckedGraphs
import EntityStore.Proofs.Recorded
import EntityStore.Proofs.Unpublished

set_option autoImplicit false

namespace EntityStore

structure Instance.Settled (content : Instance) : Prop where
  clean : content.state = .clean
  keyed : content.key.hasId = true
  pending : content.pending = []

namespace Instance

variable {content : Instance}

private theorem settled_settle (content : Instance) (id : Int64) (row : Row) :
    (content.settle id row).Settled := by
  refine ⟨rfl, ?_, rfl⟩
  unfold settle
  dsimp only
  split
  · assumption
  · rfl

theorem Consistent.settled (consistent : content.Consistent) (present : content.state ≠ .removed)
    (unneeded : content.needsWrite = false) : content.Settled := by
  have clean : content.state = .clean := by
    unfold needsWrite at unneeded
    cases state : content.state <;> simp_all
  obtain ⟨keyed, pending⟩ := consistent.look.clean clean
  exact ⟨clean, keyed, pending⟩

private theorem settled_congr {other : Instance}
    (same : Snapshot.ofInstance other = Snapshot.ofInstance content) (settled : content.Settled) :
    other.Settled := by
  have key : other.key = content.key := congrArg Snapshot.key same
  exact ⟨(congrArg Snapshot.state same).trans settled.clean, key ▸ settled.keyed,
    (congrArg Snapshot.pending same).trans settled.pending⟩

end Instance

/-! ### What is written -/

section Written

variable {dialect : Dialect} {plan : List PlannedNode}

namespace Writing

variable (writing : Writing dialect plan)

private theorem mem_planned {planned : PlannedNode}
    (keyed : ∀ planned ∈ plan, planned.content.state = .dirty →
      planned.content.key.id.isSome = true) :
    planned ∈ writing.written.map Written.planned ↔
      planned ∈ plan ∧ planned.content.needsWrite = true := by
  constructor
  · intro member
    obtain ⟨one, isWritten, rfl⟩ := List.mem_map.mp member
    rcases List.mem_append.mp isWritten with isCompleted | isChanged
    · rw [writing.completes.eq_map] at isCompleted
      obtain ⟨entry, isInserted, rfl⟩ := List.mem_map.mp isCompleted
      obtain ⟨isPlanned, isNew⟩ := writing.planned_of_inserted isInserted
      have transient : entry.1.planned.content.state = .transient := of_decide_eq_true isNew
      have same := (writing.inserts.lookup isInserted).2
      refine same.symm ▸ ⟨isPlanned, ?_⟩
      simp [Instance.needsWrite, transient]
    · obtain ⟨isPlanned, dirty, _⟩ := writing.changes.of_changed isChanged
      exact ⟨isPlanned, by simp [Instance.needsWrite, dirty]⟩
  · rintro ⟨member, needed⟩
    unfold Instance.needsWrite at needed
    rcases (Bool.or_eq_true _ _).mp needed with isNew | isDirty
    · obtain ⟨entry, isInserted, same⟩ := writing.exists_inserted member isNew
      obtain ⟨one, isCompleted, samePlanned, _⟩ := writing.exists_completed isInserted
      exact List.mem_map.mpr
        ⟨one, List.mem_append_left _ isCompleted, samePlanned.trans same⟩
    · have dirty := of_decide_eq_true isDirty
      obtain ⟨one, isChanged, same⟩ :=
        writing.changes.exists_changed member dirty (keyed planned member dirty)
      exact List.mem_map.mpr ⟨one, List.mem_append_right _ isChanged, same⟩

end Writing
end Written

/-! ### The store of the instances -/

namespace Store

variable {World α : Type} {session : Session World} {store between after : Store World}
  {root subject : InstanceId} {graph : Graph}

private theorem id_invalidateOwners (keys : List Key) (store : Store World) :
    (store.invalidateOwners keys).id = store.id := by
  have cleared : ∀ (affected : List InstanceId) (current : Store World),
      (affected.foldl (fun current subject => current.modifyInstance
        (fun content => { content with collections := [] }) subject) current).id = current.id := by
    intro affected
    induction affected with
    | nil => exact fun _ => rfl
    | cons other rest ih => exact fun current => ih _
  exact cleared _ store

section Unit

variable {issued : Question → Prop} {transactional : Bool}
  {gives : α × WriteSet → List Event → Prop} {result : α}

theorem UnitEnds.id
    (ends : UnitEnds session issued transactional gives store (.ok result) after) :
    after.id = store.id := by
  cases ends with
  | recorded _ _ _ _ _ =>
      unfold recordWrites
      simp only
      split <;> exact id_invalidateOwners _ _
  | applied _ _ _ _ _ => exact id_invalidateOwners _ _

theorem UnitEnds.part {β : Type} (part : Instance → β)
    (same : ∀ content : Instance, part { content with collections := [] } = part content)
    (ends : UnitEnds session issued transactional gives store (.ok result) after)
    (subject : InstanceId) : part (after.instanceAt subject) = part (store.instanceAt subject) := by
  cases ends with
  | recorded _ _ _ _ _ =>
      unfold recordWrites
      simp only
      split <;> exact part_invalidateOwners part same _ _ _
  | applied _ _ _ _ _ => exact part_invalidateOwners part same _ _ _

theorem UnitEnds.gave
    (ends : UnitEnds session issued transactional gives store (.ok result) after) :
    ∃ writes log, gives (result, writes) log := by
  cases ends with
  | recorded _ _ _ _ given => exact ⟨_, _, given⟩
  | applied _ _ _ _ bracketed =>
      cases bracketed with
      | done _ given => exact ⟨_, _, given⟩
      | committed _ _ given _ => exact ⟨_, _, given⟩

end Unit

private theorem id_settleAll {written : List Written}
    (ran : (settleAll session written).run store = (.ok (), after)) : after.id = store.id := by
  induction written generalizing store with
  | nil =>
      cases ran
      rfl
  | cons one rest ih =>
      rw [run_settleAll_cons] at ran
      rw [ih ran]
      unfold rememberInTransaction
      split <;> rfl

/-! ### Saving what is settled -/

private theorem collect_of_settled {store : StoreId} {memory : Array Instance} {content : Instance}
    (found : memory[subject]? = some content) (owned : content.store = store)
    (settled : content.Settled) : Graph.collect store memory subject = .ok [⟨subject, content⟩] := by
  have isNode : Node.ofMemory memory subject = ⟨subject, content⟩ := by
    unfold Node.ofMemory
    rw [found]
    rfl
  have checked : (Node.mk subject content).check store memory = .ok () := by
    unfold Node.check
    simp only [owned, settled.clean, settled.pending, ne_eq, not_true_eq_false, reduceCtorEq,
      ↓reduceIte]
    rfl
  have inMemory : subject ∈ List.range memory.size :=
    List.mem_range.mpr (Array.getElem?_eq_some_iff.mp found).1
  unfold Graph.collect
  rw [Graph.explore, dif_pos inMemory, isNode]
  simp only [checked, Instance.targets, settled.pending, List.filterMap_nil, List.reverse_nil,
    List.nil_append]
  rw [Graph.explore]

/-- Whoever saves what is settled asks for nothing and changes nothing. -/
theorem run_save_of_settled (isOpen : store.isOpen = true) {content : Instance}
    (found : store.memory[subject]? = some content) (owned : content.store = store.id)
    (settled : content.Settled) (session : Session World) :
    (save session subject).run store = (.ok (), store) := by
  have unneeded : Graph.needsWrite [⟨subject, content⟩] = false := by
    simp [Graph.needsWrite, Instance.needsWrite, settled.clean]
  unfold save
  simp only [run_bind, run_ensureOpen, run_get, run_settleOutcome, isOpen,
    collect_of_settled found owned settled, unneeded, Bool.false_eq_true, ↓reduceIte]
  rfl

/-! ### The graph of a save -/

theorem own_of_collected (collected : Graph.collect store.id store.memory root = .ok graph)
    {dialect : Dialect} {planned : PlannedNode} (member : planned ∈ graph.plan dialect) :
    planned.content.store = store.id ∧ planned.content.state ≠ .removed := by
  obtain ⟨isNode, _⟩ := Graph.mem_plan.mp member
  have checked := (Graph.collect_ok collected).checked _ (List.mem_of_getElem? isNode)
  constructor
  · by_contra other
    exact Node.not_unsavable checked (.foreign other)
  · intro removed
    exact Node.not_unsavable checked (.removed removed)

theorem Sound.keyed_of_plan (sound : store.Sound)
    (collected : Graph.collect store.id store.memory root = .ok graph) {dialect : Dialect}
    {planned : PlannedNode} (member : planned ∈ graph.plan dialect)
    (dirty : planned.content.state = .dirty) : planned.content.key.id.isSome = true :=
  (sound.of_plan collected member).2.2.sound.keyed (Or.inr dirty)

section Written

variable {dialect : Dialect} {writing : Writing dialect (graph.plan dialect)} {planned : PlannedNode}
  (sound : store.Sound) (collected : Graph.collect store.id store.memory root = .ok graph)
include sound collected

theorem planned_of_written {one : Written} (member : one ∈ writing.written) :
    one.planned ∈ graph.plan dialect ∧ one.planned.content.needsWrite = true :=
  (writing.mem_planned fun _ isOther dirty => sound.keyed_of_plan collected isOther dirty).mp
    (List.mem_map_of_mem member)

variable (writing) in
/-- Whatever needs to be written is written. -/
theorem exists_written (isPlanned : planned ∈ graph.plan dialect)
    (needed : planned.content.needsWrite = true) : ∃ one ∈ writing.written, one.planned = planned :=
  List.mem_map.mp ((writing.mem_planned fun _ isOther dirty =>
    sound.keyed_of_plan collected isOther dirty).mpr ⟨isPlanned, needed⟩)

end Written

section Settling

variable (regular : store.Regular)
  (collected : Graph.collect store.id store.memory root = .ok graph)
  (writing : Writing session.dialect (graph.plan session.dialect))
  (ends : UnitEnds session (Question.Issued (· ∈ store.registry.mappings) true) true
    (WritesPlan session.dialect (graph.plan session.dialect)) store (.ok writing.written) between)
  (settles : (settleAll session writing.written).run between = (.ok (), after))
  {planned : PlannedNode} (isPlanned : planned ∈ graph.plan session.dialect)
include regular collected ends settles isPlanned

private theorem settled_of_needed (needed : planned.content.needsWrite = true) :
    (after.instanceAt planned.node.subject).Settled := by
  obtain ⟨one, member, rfl⟩ := exists_written writing regular.sound collected isPlanned needed
  rw [settle_of_written regular collected writing ends settles member]
  exact Instance.settled_settle _ _ _

private theorem settled_of_unneeded (unneeded : planned.content.needsWrite = false)
    (settled : (store.instanceAt planned.node.subject).Settled) :
    (after.instanceAt planned.node.subject).Settled := by
  have apart : ∀ one ∈ writing.written, one.planned.node.subject ≠ planned.node.subject := by
    intro one member same
    obtain ⟨isOther, needed⟩ := planned_of_written regular.sound collected member
    rw [planned_eq_of_subject collected isOther isPlanned same, unneeded] at needed
    cases needed
  rw [instanceAt_settleAll_of_ne settles apart]
  exact Instance.settled_congr
    (ends.part Snapshot.ofInstance (fun _ => rfl) planned.node.subject) settled

end Settling

/-- A save that succeeds leaves the members of its graph settled, in a store that is open and
still theirs. -/
theorem SaveEnds.settles (regular : store.Regular) (consistent : store.Consistent)
    (isOpen : store.isOpen = true) (inMemory : root < store.memory.size)
    (collected : Graph.collect store.id store.memory root = .ok graph)
    (ends : SaveEnds session store graph after) {subject : InstanceId}
    (reaches : Reaches store.memory root subject) :
    after.isOpen = true ∧ subject < after.memory.size ∧
      (after.instanceAt subject).store = after.id ∧ (after.instanceAt subject).Settled := by
  have sound := regular.sound
  obtain ⟨planned, isPlanned, rfl, _⟩ := @exists_planned _ _ session.dialect
    ((sound.mem_graph inMemory collected subject).mpr reaches)
  have bound := (sound.of_plan collected isPlanned).1
  have contentAt := sound.instanceAt_plan collected isPlanned
  obtain ⟨owned, present⟩ := own_of_collected collected isPlanned
  -- What is neither new nor changed has nothing pending, whoever dealt with it before.
  have settledBefore (unneeded : planned.content.needsWrite = false) :
      (store.instanceAt planned.node.subject).Settled := by
    have consistentAt := consistent.memory planned.node.subject
    rw [contentAt] at consistentAt ⊢
    exact consistentAt.settled present unneeded
  cases ends with
  | unchanged nothing =>
      have isNode := List.mem_of_getElem? (Graph.mem_plan.mp isPlanned).1
      have unneeded : planned.content.needsWrite = false :=
        Bool.eq_false_iff.mpr (List.any_eq_false.mp nothing planned.node isNode)
      exact ⟨isOpen, bound, contentAt ▸ owned, settledBefore unneeded⟩
  | @written written between after unit settles =>
      have sameSize : between.memory.size = store.memory.size := congrArg Prod.snd unit.extent
      obtain ⟨_, _, writing, same, _⟩ := unit.gave
      obtain rfl : written = writing.written := congrArg Prod.fst same
      have quiet := quiet_settleAll (fun one member => sameSize.symm ▸
        (sound.of_plan collected (writing.planned_mem member)).1) settles
      have settled : (after.instanceAt planned.node.subject).Settled := by
        cases needed : planned.content.needsWrite with
        | true => exact settled_of_needed regular collected writing unit settles isPlanned needed
        | false =>
            exact settled_of_unneeded regular collected writing unit settles isPlanned needed
              (settledBefore needed)
      refine ⟨quiet.isOpen.trans (unit.isOpen.trans isOpen),
        Nat.lt_of_lt_of_le (sameSize.symm ▸ bound) quiet.size, ?_, settled⟩
      rw [part_settleAll Instance.store (fun _ _ _ => rfl) settles,
        unit.part Instance.store (fun _ => rfl), contentAt, owned, id_settleAll settles, unit.id]

end Store

namespace Deployment

variable {World : Type} {deployment : Deployment World}
  {allowed : Store World → ThreadId → Action → Prop} {store after : Store World}
  {thread : ThreadId} {root : InstanceId}

/-- Whatever was done before, a save that succeeds settles all that the root reaches through
assigned values; whoever saves some of it once more right away does nothing to the store, the
pool of connections included. -/
theorem save_settles_graph (reached : deployment.Reached allowed store)
    (inMemory : root < store.memory.size)
    (saved : (Store.save (deployment.session thread) root).run store = (.ok (), after)) :
    ∀ subject, Reaches store.memory root subject →
      (after.instanceAt subject).Settled ∧
        ∀ session, (Store.save session subject).run after = (.ok (), after) := by
  intro subject reaches
  obtain ⟨graph, isOpen, collected, ends⟩ := Store.save_ok reached.regular saved
  obtain ⟨stillOpen, bound, owned, settled⟩ :=
    ends.settles reached.regular reached.consistent isOpen inMemory collected reaches
  refine ⟨settled, fun session => ?_⟩
  have found : after.memory[subject]? = some (after.instanceAt subject) := by
    unfold Store.instanceAt Store.instance?
    rw [Array.getElem?_eq_getElem bound]
    rfl
  exact Store.run_save_of_settled stillOpen found owned settled session

set_option maxRecDepth 100000 in
/-- Ada and Bo, who are new and each other's friends, are settled by saving Ada. -/
theorem save_settles_friends : ∃ store after : Store Tables.World,
    Samples.deployment.Reached (fun _ _ _ => True) store ∧ 0 < store.memory.size ∧
      (Store.save (Samples.deployment.session 0) 0).run store = (.ok (), after) ∧
      (store.instanceAt 1).state = .transient ∧ (after.instanceAt 1).Settled ∧
      ∀ session, (Store.save session 1).run after = (.ok (), after) := by
  obtain ⟨store, visited⟩ : ∃ store, Samples.deployment.visited? Samples.friends = some store :=
    Option.isSome_iff_exists.mp (by decide +kernel)
  have facts : ∀ store ∈ Samples.deployment.visited? Samples.friends,
      0 < store.memory.size ∧ (store.instanceAt 1).state = .transient ∧
        1 ∈ (Node.ofMemory store.memory 0).content.targets ∧
        ((Store.save (Samples.deployment.session 0) 0).run store).1.isOk = true := by
    decide +kernel
  obtain ⟨inMemory, isNew, refers, isOk⟩ := facts store visited
  generalize ran : (Store.save (Samples.deployment.session 0) 0).run store = result at isOk
  obtain ⟨outcome | _, after⟩ := result
  · cases isOk
  have reached : Samples.deployment.Reached (fun _ _ _ => True) store :=
    Deployment.reached_visited (fun _ _ _ _ => trivial) visited
  exact ⟨store, after, reached, inMemory, ran, isNew,
    save_settles_graph reached inMemory ran 1 (.single refers)⟩

end Deployment
end EntityStore
