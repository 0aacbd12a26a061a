/-
What the row of an instance is to hold: in the column of a relation the id of the
assigned instance, in a plain column the assigned value or else the default, as the
dialect writes it. A row that holds what a plan says holds this, with the ids that the
instances have after the save.
-/

import EntityStore.Proofs.Settling

set_option autoImplicit false

namespace EntityStore

def ScalarProperty.columnValue (property : ScalarProperty) (dialect : Dialect) :
    Option PropertyValue → Value
  | some (.value content) => dialect.stored content
  | some _ => .null
  | none => dialect.stored (property.default.getD .null)

structure Instance.HeldIn (content : Instance) (layout : Layout) (dialect : Dialect)
    (idOf : InstanceId → Option Int64) (fields : Fields) : Prop where
  scalar : ∀ property, .scalar property ∈ content.mapping.properties →
    fields (layout.column property.column) =
      layout.stored (property.columnValue dialect (content.pending.lookup property.name))
  /-- A relation with an assigned instance holds the id that this one has. -/
  related : ∀ relation, .object relation ∈ content.mapping.properties → ∀ target,
    content.pending.lookup relation.name = some (.entity target) →
    ∃ id, idOf target = some id ∧ fields (layout.column relation.column) = .integer id
  unrelated : ∀ relation, .object relation ∈ content.mapping.properties →
    (∀ target, content.pending.lookup relation.name ≠ some (.entity target)) →
    fields (layout.column relation.column) = layout.stored .null

namespace Store

variable {World : Type} {session : Session World} {store between after : Store World}
  {subject : InstanceId} {graph : Graph}

theorem Sound.refers (sound : store.Sound) {source target : InstanceId}
    (refers : Refers store.memory source target) : target < store.memory.size := by
  unfold Refers Node.ofMemory Instance.targets at refers
  obtain ⟨entry, member, isTarget⟩ := List.mem_filterMap.mp refers
  cases found : store.memory[source]? with
  | none =>
      rw [found] at member
      cases member
  | some content =>
      rw [found] at member
      refine (sound.memory source content found).sound.targets entry member target ?_
      revert isTarget
      cases entry.2 with
      | entity other =>
          intro same
          cases same
          rfl
      | _ => intro impossible; cases impossible

/-- The members of the graph of a save are the instances that the root reaches. -/
theorem Sound.mem_graph (sound : store.Sound) (inMemory : subject < store.memory.size)
    (collected : Graph.collect store.id store.memory subject = .ok graph) (other : InstanceId) :
    other ∈ graph.subjects ↔ Reaches store.memory subject other :=
  (Graph.collect_ok collected).members (fun _ _ => sound.refers) inMemory other

/-- A graph that reaches a new or changed instance is written. -/
theorem Sound.needsWrite_of_reached (sound : store.Sound) (inMemory : subject < store.memory.size)
    (collected : Graph.collect store.id store.memory subject = .ok graph) {other : InstanceId}
    (reached : Reaches store.memory subject other)
    (needed : (store.instanceAt other).needsWrite = true) : graph.needsWrite = true := by
  rw [← sound.mem_graph inMemory collected] at reached
  obtain ⟨node, isNode, rfl⟩ := Graph.mem_subjects.mp reached
  have facts := Graph.collect_ok collected
  have found : store.memory[node.subject]? = some node.content := by
    rw [facts.found node isNode]
    simp [Node.ofMemory, facts.inMemory node isNode]
  rw [instanceAt_eq found] at needed
  exact List.any_eq_true.mpr ⟨node, isNode, needed⟩

theorem Sound.instanceAt_plan (sound : store.Sound) {dialect : Dialect}
    (collected : Graph.collect store.id store.memory subject = .ok graph)
    {planned : PlannedNode} (member : planned ∈ graph.plan dialect) :
    store.instanceAt planned.node.subject = planned.content :=
  instanceAt_eq (sound.of_plan collected member).2.1

theorem Sound.reaches_of_plan (sound : store.Sound) (inMemory : subject < store.memory.size)
    {dialect : Dialect} (collected : Graph.collect store.id store.memory subject = .ok graph)
    {planned : PlannedNode} (member : planned ∈ graph.plan dialect) :
    Reaches store.memory subject planned.node.subject :=
  (sound.mem_graph inMemory collected _).mp (Graph.mem_subjects.mpr
    ⟨planned.node, List.mem_of_getElem? (Graph.mem_plan.mp member).1, rfl⟩)

theorem exists_planned {dialect : Dialect} (member : subject ∈ graph.subjects) :
    ∃ planned ∈ graph.plan dialect, planned.node.subject = subject ∧
      graph.place? subject = some planned.place := by
  obtain ⟨place, placed⟩ := Graph.exists_place member
  obtain ⟨node, found, same⟩ := Graph.place?_eq_some placed
  refine ⟨⟨place, node, graph.assignments dialect node.content⟩, ?_, same, placed⟩
  apply List.mem_of_getElem?
  rw [Graph.getElem?_plan, found]
  rfl

theorem Sound.isNew_or_keyed (sound : store.Sound) {dialect : Dialect}
    (collected : Graph.collect store.id store.memory subject = .ok graph)
    {planned : PlannedNode} (member : planned ∈ graph.plan dialect) :
    planned.isNew = true ∨ planned.content.key.id.isSome = true := by
  obtain ⟨isNode, _⟩ := Graph.mem_plan.mp member
  have checked := (Graph.collect_ok collected).checked _ (List.mem_of_getElem? isNode)
  have keyed := (sound.of_plan collected member).2.2.sound.keyed
  have notRemoved : planned.content.state ≠ .removed := by
    intro removed
    unfold Node.check at checked
    simp only [show planned.node.content.state = .removed from removed] at checked
    split at checked <;> cases checked
  unfold PlannedNode.isNew
  cases state : planned.content.state with
  | transient => exact Or.inl (decide_eq_true state)
  | clean => exact Or.inr (keyed (Or.inl state))
  | dirty => exact Or.inr (keyed (Or.inr state))
  | removed => exact absurd state notRemoved

/-- What is written for an instance is written under the id that is known in the end. -/
theorem known_of_written {dialect : Dialect} (writing : Writing dialect (graph.plan dialect))
    {written : Written} (member : written ∈ writing.written) :
    writing.known.lookup written.planned.place = some written.id := by
  rcases List.mem_append.mp member with isNew | isChanged
  · rw [writing.completes.eq_map] at isNew
    obtain ⟨entry, isInserted, rfl⟩ := List.mem_map.mp isNew
    obtain ⟨known, same⟩ := writing.inserts.lookup isInserted
    show writing.known.lookup entry.2.planned.place = some entry.2.id
    rw [same]
    exact known
  · exact writing.known_of_id (Graph.places_plan dialect graph)
      (writing.changes.of_changed isChanged).1 (writing.changes.of_changed isChanged).2.2

theorem planned_eq_of_subject {dialect : Dialect}
    (collected : Graph.collect store.id store.memory subject = .ok graph)
    {first second : PlannedNode} (firstMember : first ∈ graph.plan dialect)
    (secondMember : second ∈ graph.plan dialect)
    (same : first.node.subject = second.node.subject) : first = second := by
  obtain ⟨firstNode, _⟩ := Graph.mem_plan.mp firstMember
  obtain ⟨secondNode, _⟩ := Graph.mem_plan.mp secondMember
  have firstSubject : graph.subjects[first.place]? = some first.node.subject := by
    simp [Graph.subjects, firstNode]
  have secondSubject : graph.subjects[second.place]? = some second.node.subject := by
    simp [Graph.subjects, secondNode]
  obtain ⟨bound, _⟩ := List.getElem?_eq_some_iff.mp firstSubject
  apply Graph.eq_of_place_eq firstMember secondMember
  apply (List.getElem?_inj bound (Graph.collect_ok collected).distinct).mp
  rw [firstSubject, secondSubject, same]

/-- What is planned for differs in the instance as well. -/
theorem nodup_subjects {dialect : Dialect} {α : Type} {planned : α → PlannedNode} {list : List α}
    (collected : Graph.collect store.id store.memory subject = .ok graph)
    (isPlanned : ∀ one ∈ list, planned one ∈ graph.plan dialect)
    (distinct : (list.map planned).Nodup) :
    (list.map fun one => (planned one).node.subject).Nodup := by
  rw [List.Nodup, List.pairwise_map] at distinct ⊢
  refine distinct.imp_of_mem fun isFirst isSecond different same => different ?_
  exact planned_eq_of_subject collected (isPlanned _ isFirst) (isPlanned _ isSecond) same

theorem final_id (regular : store.Regular)
    (collected : Graph.collect store.id store.memory subject = .ok graph)
    (writing : Writing session.dialect (graph.plan session.dialect))
    (sameIds : ∀ other, between.idOf other = store.idOf other)
    (sameSize : between.memory.size = store.memory.size)
    (settled : (settleAll session writing.written).run between = (.ok (), after))
    {planned : PlannedNode} (member : planned ∈ graph.plan session.dialect) :
    ∃ id, writing.known.lookup planned.place = some id ∧
      after.idOf planned.node.subject = some id := by
  obtain ⟨inMemory, found, _⟩ := regular.sound.of_plan collected member
  have idBefore : store.idOf planned.node.subject = planned.content.key.id := by
    unfold idOf
    rw [instanceAt_eq found]
  have idAfter := idOf_settleAll (sameSize ▸ inMemory) settled
  rw [sameIds, idBefore] at idAfter
  obtain ⟨id, known⟩ := writing.exists_known (Graph.places_plan session.dialect graph) member
    (regular.sound.isNew_or_keyed collected member)
  refine ⟨id, known, ?_⟩
  cases keyed : planned.content.key.id with
  | some other =>
      have same := writing.known_of_id (Graph.places_plan session.dialect graph) member keyed
      rw [known] at same
      rw [idAfter, keyed, same]
      rfl
  | none =>
      rw [idAfter, keyed, Option.none_or]
      have isNew : planned.isNew = true :=
        (regular.sound.isNew_or_keyed collected member).resolve_right (by simp [keyed])
      -- A new instance gets its id from the one that was written for it.
      obtain ⟨entry, isInserted, same⟩ := writing.exists_inserted member isNew
      obtain ⟨completed, isCompleted, samePlanned, _⟩ := writing.exists_completed isInserted
      have isWritten : completed ∈ writing.written := List.mem_append_left _ isCompleted
      cases found : writing.written.find? fun one =>
          one.planned.node.subject == planned.node.subject with
      | none =>
          have apart := List.find?_eq_none.mp found completed isWritten
          simp [samePlanned, same] at apart
      | some one =>
          have isOne := List.mem_of_find?_eq_some found
          have sameSubject : one.planned.node.subject = planned.node.subject := by
            simpa using List.find?_some found
          have equal := planned_eq_of_subject collected (writing.planned_mem isOne) member
            sameSubject
          have knownOne := known_of_written writing isOne
          rw [equal, known] at knownOne
          rw [Option.map_some, knownOne]

/-! ### Columns -/

theorem assignment_of_new {dialect : Dialect} {planned : PlannedNode}
    (member : planned ∈ graph.plan dialect) (isNew : planned.isNew = true) {property : Property}
    (declared : property ∈ planned.mapping.properties) {assignment : Assignment}
    (assigned : graph.assignment? dialect planned.content property = some assignment) :
    assignment ∈ planned.assignments := by
  obtain ⟨_, writes⟩ := Graph.mem_plan.mp member
  have transient : planned.content.state = .transient := of_decide_eq_true isNew
  rw [writes]
  exact Graph.mem_assignments.mpr
    ⟨by simp [Instance.needsWrite, transient], property, declared, assigned⟩

theorem assignment?_scalar {dialect : Dialect} {planned : PlannedNode}
    (isNew : planned.isNew = true) (property : ScalarProperty) :
    graph.assignment? dialect planned.content (.scalar property) =
      some ⟨property.name, property.column, property.nullable,
        Graph.scalarSource dialect property (planned.content.pending.lookup property.name)⟩ := by
  have transient : planned.content.state = .transient := of_decide_eq_true isNew
  unfold Graph.assignment?
  simp [transient, Property.name]

theorem assignment?_object {dialect : Dialect} {planned : PlannedNode}
    (isNew : planned.isNew = true) (relation : ObjectRelation) :
    graph.assignment? dialect planned.content (.object relation) =
      some ⟨relation.name, relation.column, relation.nullable,
        graph.referenceSource (planned.content.pending.lookup relation.name)⟩ := by
  have transient : planned.content.state = .transient := of_decide_eq_true isNew
  unfold Graph.assignment?
  simp [transient, Property.name]

theorem resolve_scalarSource (dialect : Dialect) (property : ScalarProperty)
    (assigned : Option PropertyValue) (ids : Ids) :
    (Graph.scalarSource dialect property assigned).resolve ids =
      property.columnValue dialect assigned := by
  cases assigned with
  | none => rfl
  | some value => cases value <;> rfl

/-- The target of a relation in the graph, as it is planned. -/
theorem planned_target (sound : store.Sound) (inMemory : subject < store.memory.size)
    (collected : Graph.collect store.id store.memory subject = .ok graph) {dialect : Dialect}
    {planned : PlannedNode} (member : planned ∈ graph.plan dialect) {name : String}
    {target : InstanceId} (assigned : planned.content.pending.lookup name = some (.entity target)) :
    ∃ other ∈ graph.plan dialect, other.node.subject = target ∧
      graph.place? target = some other.place := by
  apply exists_planned
  rw [sound.mem_graph inMemory collected]
  obtain ⟨isNode, _⟩ := Graph.mem_plan.mp member
  have isMember : planned.node.subject ∈ graph.subjects :=
    Graph.mem_subjects.mpr ⟨planned.node, List.mem_of_getElem? isNode, rfl⟩
  refine .tail ((sound.mem_graph inMemory collected _).mp isMember) ?_
  unfold Refers
  rw [← (Graph.collect_ok collected).found _ (List.mem_of_getElem? isNode)]
  exact List.mem_filterMap.mpr ⟨_, mem_of_lookup assigned, rfl⟩

/-- A row that holds what is planned for a new instance holds what it is to hold. -/
theorem heldIn_of_holds {layout : Layout} (sound : store.Sound)
    (inMemory : subject < store.memory.size)
    (collected : Graph.collect store.id store.memory subject = .ok graph) {dialect : Dialect}
    {known : Ids} {idOf : InstanceId → Option Int64}
    (final : ∀ planned ∈ graph.plan dialect, ∃ id, known.lookup planned.place = some id ∧
      idOf planned.node.subject = some id)
    {planned : PlannedNode} (member : planned ∈ graph.plan dialect) (isNew : planned.isNew = true)
    {id : Int64} {fields : Fields} (holds : planned.Holds layout known id fields) :
    planned.content.HeldIn layout dialect idOf fields := by
  refine ⟨?_, ?_, ?_⟩
  · intro property declared
    have held := holds.assigned _
      (assignment_of_new member isNew declared (assignment?_scalar isNew property))
    rw [resolve_scalarSource] at held
    exact held
  · intro relation declared target assigned
    have held := holds.assigned _
      (assignment_of_new member isNew declared (assignment?_object isNew relation))
    obtain ⟨other, otherMember, same, placed⟩ :=
      planned_target sound inMemory collected member assigned
    obtain ⟨targetId, known, isFinal⟩ := final other otherMember
    refine ⟨targetId, same ▸ isFinal, ?_⟩
    simp only [Graph.referenceSource, assigned, placed, Source.resolve, known] at held
    rw [held, layout.stored_integer]
  · intro relation declared unassigned
    have held := holds.assigned _
      (assignment_of_new member isNew declared (assignment?_object isNew relation))
    have cleared : graph.referenceSource (planned.content.pending.lookup relation.name)
        = .value .null := by
      unfold Graph.referenceSource
      split
      · rename_i target assigned
        exact absurd assigned (unassigned target)
      · rfl
    rw [cleared] at held
    exact held

end Store
end EntityStore
