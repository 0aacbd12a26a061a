/-
What the plan of a save says: every instance of the graph at its place, with one
assignment for each column it writes, in the order of its properties.
-/

import EntityStore.Proofs.Graphs
import EntityStore.Proofs.Mappings
import EntityStore.Store.Plan

set_option autoImplicit false

namespace EntityStore

namespace Graph

variable {dialect : Dialect} {graph : Graph}

/-! ### Assignments -/

theorem assignment?_eq_some {content : Instance} {property : Property}
    {assignment : Assignment}
    (planned : graph.assignment? dialect content property = some assignment) :
    assignment.property = property.name ∧ property.column? = some assignment.column := by
  unfold assignment? at planned
  simp only at planned
  split at planned
  · cases planned
  split at planned
  · cases planned
    exact ⟨rfl, rfl⟩
  · cases planned
    exact ⟨rfl, rfl⟩
  · cases planned

private theorem filterMap_sublist_map {α β γ : Type} (toFirst : α → Option β)
    (toSecond : α → Option γ)
    (view : β → γ) (agree : ∀ content first, toFirst content = some first →
      toSecond content = some (view first)) (contents : List α) :
    ((contents.filterMap toFirst).map view).Sublist (contents.filterMap toSecond) := by
  induction contents with
  | nil => exact List.Sublist.slnil
  | cons content rest ih =>
      cases first : toFirst content with
      | none =>
          rw [List.filterMap_cons_none first]
          cases second : toSecond content with
          | none => rw [List.filterMap_cons_none second]; exact ih
          | some other => rw [List.filterMap_cons_some second]; exact ih.cons other
      | some found =>
          rw [List.filterMap_cons_some first, List.filterMap_cons_some (agree _ _ first),
            List.map_cons]
          exact ih.cons_cons (view found)

theorem columns_of_assignments (dialect : Dialect) (graph : Graph) (content : Instance) :
    ((graph.assignments dialect content).map Assignment.column).Sublist
      (content.mapping.properties.filterMap Property.column?) := by
  unfold assignments
  split
  · exact filterMap_sublist_map (graph.assignment? dialect content) Property.column?
      Assignment.column (fun property assignment planned => (assignment?_eq_some planned).2) _
  · simp

theorem names_of_assignments (dialect : Dialect) (graph : Graph) (content : Instance) :
    ((graph.assignments dialect content).map Assignment.property).Sublist
      (content.mapping.properties.map Property.name) := by
  unfold assignments
  split
  · have named := filterMap_sublist_map (graph.assignment? dialect content)
      (some ∘ Property.name) Assignment.property
      (fun property assignment planned => congrArg some (assignment?_eq_some planned).1.symm)
      content.mapping.properties
    rw [List.filterMap_eq_map] at named
    exact named
  · simp

theorem mem_assignments {content : Instance} {assignment : Assignment} :
    assignment ∈ graph.assignments dialect content ↔ content.needsWrite = true ∧
      ∃ property ∈ content.mapping.properties,
        graph.assignment? dialect content property = some assignment := by
  unfold assignments
  by_cases writes : content.needsWrite = true
  · rw [if_pos writes, List.mem_filterMap]
    simp [writes]
  · rw [if_neg writes]
    simp [writes]

/-- Only a relation that was assigned refers to another place, the one of its target. -/
theorem place?_of_assignment {content : Instance} {property : Property}
    {assignment : Assignment} {place : Nat}
    (planned : graph.assignment? dialect content property = some assignment)
    (refers : assignment.source = .idOf place) :
    ∃ relation target, property = .object relation ∧
      content.pending.lookup relation.name = some (.entity target) ∧
      graph.place? target = some place ∧ assignment.nullable = relation.nullable := by
  unfold assignment? at planned
  simp only at planned
  split at planned
  · cases planned
  split at planned
  · cases planned
    rename_i property _
    exfalso
    revert refers
    unfold scalarSource
    split <;> simp
  · cases planned
    rename_i relation _
    revert refers
    unfold referenceSource
    split
    · rename_i target assigned
      split
      · rename_i place' placed
        intro same
        cases same
        exact ⟨relation, target, rfl, assigned, placed, rfl⟩
      · simp
    · simp
  · cases planned

/-! ### Places -/

theorem getElem?_plan (dialect : Dialect) (graph : Graph) (place : Nat) :
    (graph.plan dialect)[place]? = graph[place]?.map fun node =>
      ⟨place, node, graph.assignments dialect node.content⟩ := by
  unfold plan
  rw [List.getElem?_map, List.getElem?_zipIdx]
  cases graph[place]? <;> simp

theorem mem_plan {planned : PlannedNode} :
    planned ∈ graph.plan dialect ↔ graph[planned.place]? = some planned.node ∧
      planned.assignments = graph.assignments dialect planned.content := by
  constructor
  · intro member
    obtain ⟨place, found⟩ := List.mem_iff_getElem?.mp member
    rw [getElem?_plan] at found
    obtain ⟨node, nodeFound, rfl⟩ := Option.map_eq_some_iff.mp found
    exact ⟨nodeFound, rfl⟩
  · rintro ⟨nodeFound, writes⟩
    apply List.mem_iff_getElem?.mpr
    refine ⟨planned.place, ?_⟩
    rw [getElem?_plan, nodeFound]
    cases planned
    simp only [PlannedNode.content] at writes
    simp [writes]

/-- Where nothing is to be written, nothing is new. -/
theorem isNew_of_unchanged (unchanged : graph.needsWrite = false) {planned : PlannedNode}
    (member : planned ∈ graph.plan dialect) : planned.isNew = false := by
  have isNode := List.mem_of_getElem? (mem_plan.mp member).1
  have settled := List.any_eq_false.mp unchanged planned.node isNode
  refine Bool.eq_false_iff.mpr fun isNew => settled ?_
  have transient : planned.node.content.state = .transient := of_decide_eq_true isNew
  simp [Instance.needsWrite, transient]

theorem eq_of_place_eq {first second : PlannedNode} (firstMember : first ∈ graph.plan dialect)
    (secondMember : second ∈ graph.plan dialect) (same : first.place = second.place) :
    first = second := by
  obtain ⟨firstFound, firstWrites⟩ := mem_plan.mp firstMember
  obtain ⟨secondFound, secondWrites⟩ := mem_plan.mp secondMember
  rw [same, secondFound] at firstFound
  have sameNode : second.node = first.node := Option.some.inj firstFound
  cases first
  cases second
  simp only [PlannedNode.content] at *
  subst same sameNode
  rw [firstWrites, secondWrites]

theorem places_plan (dialect : Dialect) (graph : Graph) :
    ((graph.plan dialect).map PlannedNode.place).Nodup := by
  have places : (graph.plan dialect).map PlannedNode.place = List.range graph.length := by
    unfold plan
    rw [List.map_map]
    show graph.zipIdx.map Prod.snd = _
    rw [List.zipIdx_map_snd, List.range_eq_range']
  rw [places]
  exact List.nodup_range

end Graph

end EntityStore
