/-
What a save checks before it writes. The graph is collected from the instances in memory
alone; if one of them cannot be saved, the save fails before it has asked the database for
anything. Otherwise the graph is every instance that the root reaches, each once, and the
relations to be written refer to members of it of the right type.
-/

import EntityStore.Proofs.Refusals
import EntityStore.Proofs.Registries

set_option autoImplicit false

namespace EntityStore

private theorem error_of_forM {α ε : Type} {check : α → Except ε Unit} {list : List α} {error : ε}
    (fails : list.forM check = .error error) : ∃ element ∈ list, check element = .error error := by
  induction list with
  | nil => cases fails
  | cons first rest ih =>
      unfold List.forM at fails
      simp only [bind, Except.bind] at fails
      split at fails
      · rename_i failed
        cases fails
        exact ⟨first, List.mem_cons_self, failed⟩
      · obtain ⟨element, member, failed⟩ := ih fails
        exact ⟨element, List.mem_cons_of_mem first member, failed⟩

/-! ### What cannot be saved -/

inductive Mapping.Mismatches (mapping : Mapping) (memory : Array Instance) (name : String) :
    PropertyValue → String → String → Prop where
  | ofOtherType {relation : ObjectRelation} {target : InstanceId}
      (declared : mapping.property? name = some (.object relation))
      (other : (Node.ofMemory memory target).content.entity ≠ relation.target) :
      Mismatches mapping memory name (.entity target) relation.target
        ("an instance of " ++ (Node.ofMemory memory target).content.entity)
  | notAnInstance {relation : ObjectRelation} {content : Value}
      (declared : mapping.property? name = some (.object relation))
      (present : content.isNull = false) :
      Mismatches mapping memory name (.value content) relation.target
        ("a " ++ content.kind ++ " value")
  | notAValue {property : ScalarProperty} {target : InstanceId}
      (declared : mapping.property? name = some (.scalar property)) :
      Mismatches mapping memory name (.entity target) property.type.name
        ("an instance of " ++ (Node.ofMemory memory target).content.entity)

inductive Instance.Unsavable (content : Instance) (store : StoreId) (memory : Array Instance) :
    Error → Prop where
  | foreign (other : content.store ≠ store) :
      Unsavable content store memory (.invalidState (.foreign content.key))
  | removed (removed : content.state = .removed) :
      Unsavable content store memory (.invalidState (.savingRemoved content.key))
  | mismatch {name expected actual : String} {value : PropertyValue}
      (assigned : (name, value) ∈ content.pending)
      (mismatches : content.mapping.Mismatches memory name value expected actual) :
      Unsavable content store memory (.typeMismatch content.mapping.entity name expected actual)

namespace Node

variable {store : StoreId} {memory : Array Instance} {mapping : Mapping} {name : String}
  {value : PropertyValue} {node : Node} {error : Error}

private theorem checkAssignment_error
    (fails : checkAssignment memory mapping name value = .error error) :
    ∃ expected actual, mapping.Mismatches memory name value expected actual ∧
      error = .typeMismatch mapping.entity name expected actual := by
  unfold checkAssignment at fails
  dsimp only at fails
  split at fails
  · rename_i relation target declared
    split at fails
    · cases fails
    · rename_i other
      cases fails
      exact ⟨_, _, .ofOtherType declared other, rfl⟩
  · rename_i relation content declared
    split at fails
    · cases fails
    · rename_i present
      cases fails
      exact ⟨_, _, .notAnInstance declared (Bool.not_eq_true _ ▸ present), rfl⟩
  · rename_i property target declared
    cases fails
    exact ⟨_, _, .notAValue declared, rfl⟩
  · cases fails

private theorem checkAssignment_of_mismatches {expected actual : String}
    (mismatches : mapping.Mismatches memory name value expected actual) :
    checkAssignment memory mapping name value
      = .error (.typeMismatch mapping.entity name expected actual) := by
  unfold checkAssignment
  cases mismatches with
  | ofOtherType declared other =>
      rw [declared]
      exact if_neg other
  | notAnInstance declared present =>
      rw [declared]
      simp only [present, Bool.false_eq_true, ↓reduceIte]
  | notAValue declared => rw [declared]

private theorem check_error (fails : node.check store memory = .error error) :
    node.content.Unsavable store memory error := by
  unfold check at fails
  dsimp only at fails
  split at fails
  · rename_i other
    cases fails
    exact .foreign other
  split at fails
  · rename_i removed
    cases fails
    exact .removed removed
  · obtain ⟨⟨name, value⟩, assigned, failed⟩ := error_of_forM fails
    obtain ⟨expected, actual, mismatches, rfl⟩ := checkAssignment_error failed
    exact .mismatch assigned mismatches

theorem not_unsavable (passes : node.check store memory = .ok ()) :
    ¬node.content.Unsavable store memory error := by
  unfold check at passes
  dsimp only at passes
  split at passes
  · cases passes
  rename_i own
  split at passes
  · cases passes
  rename_i present
  rintro (other | removed | ⟨assigned, mismatches⟩)
  · exact own other
  · exact present removed
  · have fails := checkAssignment_of_mismatches mismatches
    rw [Mapping.of_forM passes _ assigned] at fails
    cases fails

end Node

/-! ### Memory -/

/-- Instances refer to instances in memory and are of types that were checked. Whose they are,
and what has been assigned to them, is left open. -/
structure Linked (memory : Array Instance) : Prop where
  known : ∀ content ∈ memory.toList, ∀ target ∈ content.targets, target < memory.size
  formed : ∀ content ∈ memory.toList, content.mapping.WellFormed

namespace Linked

variable {memory : Array Instance}

private theorem refers (linked : Linked memory) {subject target : InstanceId}
    (refers : Refers memory subject target) : target < memory.size := by
  unfold Refers Node.ofMemory at refers
  cases found : memory[subject]? with
  | none =>
      rw [found] at refers
      cases refers
  | some content =>
      rw [found] at refers
      exact linked.known content (Array.mem_def.mp (Array.mem_of_getElem? found)) target refers

end Linked

theorem Store.Sound.linked {World : Type} {store : Store World} (sound : store.Sound) :
    Linked store.memory where
  known content member target refers := by
    obtain ⟨subject, found⟩ := List.mem_iff_getElem?.mp member
    rw [Array.getElem?_toList] at found
    have refersAt : Refers store.memory subject target := by
      unfold Refers Node.ofMemory
      rw [found]
      exact refers
    exact sound.refers refersAt
  formed content member := by
    obtain ⟨subject, found⟩ := List.mem_iff_getElem?.mp member
    rw [Array.getElem?_toList] at found
    exact sound.registry.mappings _ (sound.memory subject content found).registered

namespace Graph

variable {store : StoreId} {memory : Array Instance} {root : InstanceId} {error : Error}

/-- The exploration fails only at an instance that the stack leads to. -/
theorem explore_error {found : Graph} {unseen stack : List InstanceId}
    (fails : explore store memory found unseen stack = .error error) :
    ∃ start ∈ stack, ∃ subject, Reaches memory start subject ∧
      (Node.ofMemory memory subject).content.Unsavable store memory error := by
  induction found, unseen, stack using explore.induct store memory with
  | case1 found unseen =>
      rw [explore] at fails
      cases fails
  | case2 found unseen subject rest member node other failed =>
      rw [explore] at fails
      simp only [member, ↓reduceDIte] at fails
      rw [show (Node.ofMemory memory subject).check store memory = .error other from failed]
        at fails
      cases fails
      exact ⟨subject, List.mem_cons_self, subject, .refl, Node.check_error failed⟩
  | case3 found unseen subject rest member node checked ih =>
      rw [explore] at fails
      simp only [member, ↓reduceDIte] at fails
      rw [show (Node.ofMemory memory subject).check store memory = .ok () from checked] at fails
      -- The stack has got the targets of what was popped: what they reach, it reaches.
      obtain ⟨start, isStart, last, reaches, unsavable⟩ := ih fails
      rcases List.mem_append.mp isStart with isTarget | isRest
      · exact ⟨subject, List.mem_cons_self, last, .head (List.mem_reverse.mp isTarget) reaches,
          unsavable⟩
      · exact ⟨start, List.mem_cons_of_mem subject isRest, last, reaches, unsavable⟩
  | case4 found unseen subject rest member ih =>
      rw [explore] at fails
      simp only [member, ↓reduceDIte] at fails
      obtain ⟨start, isStart, reaches⟩ := ih fails
      exact ⟨start, List.mem_cons_of_mem subject isStart, reaches⟩

private theorem collect_error (fails : collect store memory root = .error error) :
    ∃ subject, Reaches memory root subject ∧
      (Node.ofMemory memory subject).content.Unsavable store memory error := by
  obtain ⟨start, isStart, found⟩ := explore_error fails
  exact List.mem_singleton.mp isStart ▸ found

private theorem not_unsavable_of_collect (linked : Linked memory) (inMemory : root < memory.size)
    {graph : Graph} (collected : collect store memory root = .ok graph) {subject : InstanceId}
    (reaches : Reaches memory root subject) :
    ¬(Node.ofMemory memory subject).content.Unsavable store memory error := by
  have facts := collect_ok collected
  obtain ⟨node, isNode, rfl⟩ := mem_subjects.mp
    ((facts.members (fun _ _ => linked.refers) inMemory subject).mpr reaches)
  rw [← facts.found node isNode]
  exact Node.not_unsavable (facts.checked node isNode)

/-! ### Relations to be written -/

theorem property?_of_mem {mapping : Mapping} (formed : mapping.WellFormed) {property : Property}
    (declared : property ∈ mapping.properties) :
    mapping.property? property.name = some property := by
  unfold Mapping.property?
  cases found : mapping.properties.find? fun other => other.name == property.name with
  | none =>
      have apart := List.find?_eq_none.mp found property declared
      exact absurd (beq_self_eq_true property.name) apart
  | some other =>
      have sameName : other.name = property.name := beq_iff_eq.mp (List.find?_some found :)
      exact congrArg some (List.inj_on_of_nodup_map formed.distinctNames
        (List.mem_of_find?_eq_some found) declared sameName)

/-- The relations that are written refer to members of the graph that were assigned to them
and are of the type they need; none that was assigned is left out. -/
structure WellRelated (graph : Graph) (plan : List PlannedNode) : Prop where
  typed : ∀ planned ∈ plan, ∀ assignment ∈ planned.assignments, ∀ place,
    assignment.source = .idOf place →
    ∃ relation other, .object relation ∈ planned.mapping.properties ∧
      relation.name = assignment.property ∧ relation.column = assignment.column ∧
      planned.content.pending.lookup relation.name = some (.entity other.subject) ∧
      graph[place]? = some other ∧ other.content.entity = relation.target
  assigned : ∀ planned ∈ plan, planned.content.needsWrite = true →
    ∀ relation, .object relation ∈ planned.mapping.properties → ∀ target,
    planned.content.pending.lookup relation.name = some (.entity target) →
    ∃ place other, graph[place]? = some other ∧ other.subject = target ∧
      other.content.entity = relation.target ∧
      ⟨relation.name, relation.column, relation.nullable, .idOf place⟩ ∈ planned.assignments

structure Exact (graph : Graph) (memory : Array Instance) (root : InstanceId) : Prop where
  once : graph.subjects.Nodup
  members : ∀ subject, subject ∈ graph.subjects ↔ Reaches memory root subject
  inMemory : ∀ node ∈ graph, memory[node.subject]? = some node.content
  related : ∀ dialect, graph.WellRelated (graph.plan dialect)

section Collected

variable {graph : Graph} (linked : Linked memory) (inMemory : root < memory.size)
  (collected : collect store memory root = .ok graph)
include linked inMemory collected

private theorem typed_target {node : Node} (isNode : node ∈ graph) {relation : ObjectRelation}
    (declared : .object relation ∈ node.content.mapping.properties) {target : InstanceId}
    (assigned : node.content.pending.lookup relation.name = some (.entity target)) :
    ∃ place other, graph.place? target = some place ∧ graph[place]? = some other ∧
      other.subject = target ∧ other.content.entity = relation.target := by
  have facts := collect_ok collected
  have entry := mem_of_lookup assigned
  have refers : Refers memory node.subject target := by
    unfold Refers
    rw [← facts.found node isNode]
    exact List.mem_filterMap.mpr ⟨_, entry, rfl⟩
  have members := facts.members (fun _ _ => linked.refers) inMemory
  have isMember : target ∈ graph.subjects :=
    (members target).mpr (((members node.subject).mp
      (mem_subjects.mpr ⟨node, isNode, rfl⟩)).tail refers)
  obtain ⟨place, placed⟩ := exists_place isMember
  obtain ⟨other, found, same⟩ := place?_eq_some placed
  refine ⟨place, other, placed, found, same, ?_⟩
  have isOther : other = Node.ofMemory memory target :=
    same ▸ facts.found other (List.mem_of_getElem? found)
  have formed : node.content.mapping.WellFormed := by
    have bound := facts.inMemory node isNode
    rw [facts.found node isNode]
    unfold Node.ofMemory
    rw [Array.getElem?_eq_getElem bound]
    exact linked.formed _ (Array.mem_def.mp (Array.getElem_mem bound))
  by_contra wrong
  exact Node.not_unsavable (facts.checked node isNode) (.mismatch entry
    (.ofOtherType (property?_of_mem formed declared) (isOther ▸ wrong)))

private theorem wellRelated_plan (dialect : Dialect) : graph.WellRelated (graph.plan dialect) where
  typed planned isPlanned assignment isAssignment place refers := by
    obtain ⟨isNode, writes⟩ := mem_plan.mp isPlanned
    rw [writes] at isAssignment
    obtain ⟨_, property, declared, assigns⟩ := mem_assignments.mp isAssignment
    obtain ⟨relation, target, rfl, assigned, placed, _⟩ := place?_of_assignment assigns refers
    obtain ⟨sameName, sameColumn⟩ := assignment?_eq_some assigns
    obtain ⟨_, other, isPlace, found, rfl, typed⟩ := typed_target linked inMemory collected
      (List.mem_of_getElem? isNode) declared assigned
    cases placed.symm.trans isPlace
    exact ⟨relation, other, declared, sameName.symm, Option.some.inj sameColumn, assigned, found,
      typed⟩
  assigned planned isPlanned needed relation declared target assigned := by
    obtain ⟨isNode, writes⟩ := mem_plan.mp isPlanned
    obtain ⟨place, other, placed, found, same, typed⟩ := typed_target linked inMemory collected
      (List.mem_of_getElem? isNode) declared assigned
    refine ⟨place, other, found, same, typed, ?_⟩
    rw [writes]
    refine mem_assignments.mpr ⟨needed, _, declared, ?_⟩
    have isAssigned : planned.content.pending.lookup relation.name = some (.entity target) :=
      assigned
    simp only [assignment?, Property.name, isAssigned, Option.isNone_some, Bool.false_and,
      Bool.false_eq_true, ↓reduceIte, referenceSource, placed]

private theorem exact_of_collect : graph.Exact memory root := by
  have facts := collect_ok collected
  refine ⟨facts.distinct, facts.members (fun _ _ => linked.refers) inMemory, ?_,
    wellRelated_plan linked inMemory collected⟩
  intro node isNode
  have bound := facts.inMemory node isNode
  rw [facts.found node isNode]
  unfold Node.ofMemory
  rw [Array.getElem?_eq_getElem bound]
  rfl

end Collected
end Graph

/-! ### Saving -/

namespace Store

variable {World : Type} {store : Store World} {root : InstanceId}

def Obstructed (store : Store World) (root : InstanceId) (error : Error) : Prop :=
  ∃ subject, Reaches store.memory root subject ∧
    (store.instanceAt subject).Unsavable store.id store.memory error

/-- If there is something in the graph that cannot be saved, a save fails, and since it does
so with any database, without a call; it changes nothing. Otherwise the graph is collected. -/
theorem save_checks_graph (linked : Linked store.memory) (inMemory : root < store.memory.size) :
    ((∃ error, store.Obstructed root error) →
      ∃ error, (store.isOpen = true → store.Obstructed root error) ∧
        ∀ session, (save session root).run store = (.error error, store)) ∧
    ((¬∃ error, store.Obstructed root error) →
      ∃ graph, Graph.collect store.id store.memory root = .ok graph ∧
        graph.Exact store.memory root) := by
  cases collected : Graph.collect store.id store.memory root with
  | ok graph =>
      refine ⟨?_, fun _ => ⟨graph, rfl, Graph.exact_of_collect linked inMemory collected⟩⟩
      rintro ⟨error, subject, reaches, unsavable⟩
      exact absurd unsavable
        (Graph.not_unsavable_of_collect linked inMemory collected reaches)
  | error error =>
      have obstructed : store.Obstructed root error := Graph.collect_error collected
      refine ⟨fun _ => ?_, fun free => absurd ⟨error, obstructed⟩ free⟩
      cases isOpen : store.isOpen with
      | false =>
          refine ⟨.storeClosed, fun impossible => absurd impossible Bool.false_ne_true, ?_⟩
          intro session
          unfold save
          rw [run_bind, run_ensureOpen, isOpen]
          rfl
      | true =>
          refine ⟨error, fun _ => obstructed, fun session => ?_⟩
          unfold save
          rw [run_bind, run_ensureOpen, isOpen]
          simp only [run_bind, run_get, run_settleOutcome, collected, ↓reduceIte]

set_option maxRecDepth 100000 in
/-- Ada and Bo, who are each other's friends, are collected by their store; another one with the
same instances refuses to save them. -/
theorem save_checks_graph_of_friends : ∃ store : Store Tables.World,
    Linked store.memory ∧ 0 < store.memory.size ∧
    (∃ graph, Graph.collect store.id store.memory 0 = .ok graph ∧
      graph.subjects = [0, 1] ∧ graph.Exact store.memory 0) ∧
    ∃ error, ({ store with id := 7 }).Obstructed 0 error ∧
      ∀ session, (save session 0).run { store with id := 7 }
        = (.error error, { store with id := 7 }) := by
  obtain ⟨store, visited⟩ : ∃ store, Samples.deployment.visited? Samples.friends = some store :=
    Option.isSome_iff_exists.mp (by decide +kernel)
  have facts : ∀ store ∈ Samples.deployment.visited? Samples.friends,
      0 < store.memory.size ∧ store.isOpen = true ∧ (store.instanceAt 0).store = 0 ∧
        (Graph.collect store.id store.memory 0).toOption.map Graph.subjects = some [0, 1] := by
    decide +kernel
  obtain ⟨inMemory, isOpen, owned, subjects⟩ := facts store visited
  obtain ⟨graph, isGraph, members⟩ := Option.map_eq_some_iff.mp subjects
  have collected := toOption_eq_some.mp isGraph
  have reached : Samples.deployment.Reached (fun _ _ _ => True) store :=
    Deployment.reached_visited (fun _ _ _ _ => trivial) visited
  have linked := reached.regular.sound.linked
  have free : ¬∃ error, store.Obstructed 0 error := by
    rintro ⟨error, subject, reaches, unsavable⟩
    exact Graph.not_unsavable_of_collect linked inMemory collected reaches unsavable
  have apart : (store.instanceAt 0).store ≠ 7 := by rw [owned]; decide
  have foreign : ({ store with id := 7 }).Obstructed 0
      (.invalidState (.foreign (store.instanceAt 0).key)) := ⟨0, .refl, .foreign apart⟩
  obtain ⟨other, isCollected, exact⟩ := (save_checks_graph linked inMemory).2 free
  obtain rfl : graph = other := Except.ok.inj (collected.symm.trans isCollected)
  obtain ⟨error, obstructed, refused⟩ :=
    (@save_checks_graph _ { store with id := 7 } _ linked inMemory).1 ⟨_, foreign⟩
  exact ⟨store, linked, inMemory, ⟨graph, collected, members, exact⟩, error,
    obstructed isOpen, refused⟩

end Store
end EntityStore
