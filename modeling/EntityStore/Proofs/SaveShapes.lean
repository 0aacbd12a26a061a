/-
Shapes of what is saved. The shape of an instance keeps which properties are assigned and
to which instances they refer, but no other value and no id. Everything up to the texts of
the insertions goes by shapes: which instances a save reaches, what it plans to write, in
which order it inserts, and which columns.
-/

import EntityStore.Proofs.Registries
import EntityStore.Proofs.Schedules
import EntityStore.Proofs.UnrefusedWork

set_option autoImplicit false

namespace EntityStore

/-! ### Instances -/

def PropertyValue.shape : PropertyValue → PropertyValue
  | entity target => .entity target
  | _ => .cleared

@[simp] theorem PropertyValue.shape_shape (value : PropertyValue) :
    value.shape.shape = value.shape := by
  cases value <;> rfl

@[simp] theorem PropertyValue.entity?_shape (value : PropertyValue) :
    value.shape.entity? = value.entity? := by
  cases value <;> rfl

namespace Instance

def shape (content : Instance) : Instance :=
  { content with
    key := { content.key with id := content.key.id.map fun _ => 0 }
    row := none
    pending := content.pending.map fun entry => (entry.1, entry.2.shape)
    collections := []
    vanished := false }

@[simp] theorem mapping_shape (content : Instance) : content.shape.mapping = content.mapping := rfl

@[simp] theorem needsWrite_shape (content : Instance) :
    content.shape.needsWrite = content.needsWrite := rfl

@[simp] theorem targets_shape (content : Instance) : content.shape.targets = content.targets := by
  unfold targets shape
  simp [List.filterMap_map]

private theorem shape_shape (content : Instance) : content.shape.shape = content.shape := by
  unfold shape
  simp [Function.comp_def]

private theorem lookup_pending_shape (content : Instance) (name : String) :
    content.shape.pending.lookup name = (content.pending.lookup name).map PropertyValue.shape :=
  lookup_map_content (fun _ => PropertyValue.shape) content.pending name

end Instance

/-! ### Graphs -/

namespace Node

def shape (node : Node) : Node := { node with content := node.content.shape }

theorem shape_shape (node : Node) : node.shape.shape = node.shape :=
  congrArg (Node.mk node.subject) node.content.shape_shape

private theorem ofMemory_shape (memory : Array Instance) (subject : InstanceId) :
    ofMemory (memory.map Instance.shape) subject = (ofMemory memory subject).shape := by
  unfold ofMemory shape
  rw [Array.getElem?_map]
  cases memory[subject]? <;> rfl

private theorem checkAssignment_shape {memory : Array Instance} {mapping : Mapping} {name : String}
    {value : PropertyValue} (checked : checkAssignment memory mapping name value = .ok ()) :
    checkAssignment (memory.map Instance.shape) mapping name value.shape = .ok () := by
  unfold checkAssignment PropertyValue.shape at *
  cases value with
  | entity target =>
      have same : (ofMemory (memory.map Instance.shape) target).content.entity
          = (ofMemory memory target).content.entity := by
        rw [ofMemory_shape]
        rfl
      cases found : mapping.property? name with
      | none => rfl
      | some property =>
          rw [found] at checked
          cases property with
          | scalar property => cases checked
          | object relation =>
              simp only [same]
              exact checked
          | collection relation => rfl
  | value content | cleared =>
      rcases mapping.property? name with _ | _ | _ | _ <;> rfl

private theorem check_shape {store : StoreId} {memory : Array Instance} {node : Node}
    (checked : node.check store memory = .ok ()) :
    node.shape.check store (memory.map Instance.shape) = .ok () := by
  unfold check at *
  dsimp only at checked
  split at checked
  · cases checked
  rename_i native
  split at checked
  · cases checked
  rename_i present
  have assignments := Mapping.of_forM checked
  have nativeShape : ¬node.shape.content.store ≠ store := native
  have presentShape : ¬node.shape.content.state = .removed := present
  dsimp only
  rw [if_neg nativeShape, if_neg presentShape]
  refine Mapping.forM_of_all fun entry member => ?_
  obtain ⟨assigned, isAssigned, rfl⟩ := List.mem_map.mp member
  exact checkAssignment_shape (assignments assigned isAssigned)

end Node

namespace Graph

private theorem explore_shape {store : StoreId} {memory : Array Instance} {found graph : Graph}
    {unseen stack : List InstanceId} (ok : explore store memory found unseen stack = .ok graph) :
    explore store (memory.map Instance.shape) (found.map Node.shape) unseen stack
      = .ok (graph.map Node.shape) := by
  -- The induction follows the exploration, which takes the same way in the shapes.
  induction found, unseen, stack using explore.induct store memory with
  | case1 found unseen =>
      rw [explore] at ok ⊢
      cases ok
      rfl
  | case2 found unseen subject rest member node error failed =>
      rw [explore] at ok
      simp only [member, ↓reduceDIte] at ok
      rw [show (Node.ofMemory memory subject).check store memory = .error error from failed] at ok
      cases ok
  | case3 found unseen subject rest member node checked ih =>
      rw [explore] at ok ⊢
      simp only [member, ↓reduceDIte] at ok ⊢
      rw [show (Node.ofMemory memory subject).check store memory = .ok () from checked] at ok
      rw [Node.ofMemory_shape, Node.check_shape checked]
      have explored := ih ok
      rw [List.map_append] at explored
      simpa [node, Node.shape] using explored
  | case4 found unseen subject rest member ih =>
      rw [explore] at ok ⊢
      simp only [member, ↓reduceDIte] at ok ⊢
      exact ih ok

theorem collect_shape {store : StoreId} {memory : Array Instance} {root : InstanceId}
    {graph : Graph} (ok : collect store memory root = .ok graph) :
    collect store (memory.map Instance.shape) root = .ok (graph.map Node.shape) := by
  unfold collect at *
  rw [Array.size_map]
  exact explore_shape ok

private theorem place?_shape (graph : Graph) (subject : InstanceId) :
    place? (graph.map Node.shape) subject = graph.place? subject := by
  unfold place?
  rw [List.findIdx?_map]
  rfl

end Graph

/-! ### Plans -/

def Source.shape : Source → Source
  | value _ => .value .null
  | idOf place => .idOf place

@[simp] theorem Source.place?_shape (source : Source) : source.shape.place? = source.place? := by
  cases source <;> rfl

namespace Assignment

def shape (assignment : Assignment) : Assignment :=
  { assignment with source := assignment.source.shape }

@[simp] theorem isOpen_shape (known : List Nat) (assignment : Assignment) :
    assignment.shape.isOpen known = assignment.isOpen known := by
  unfold isOpen shape
  rw [Source.place?_shape]

end Assignment

namespace PlannedNode

def shape (planned : PlannedNode) : PlannedNode :=
  ⟨planned.place, planned.node.shape, planned.assignments.map Assignment.shape⟩

@[simp] theorem mapping_shape (planned : PlannedNode) : planned.shape.mapping = planned.mapping :=
  rfl

@[simp] theorem sequence?_shape (dialect : Dialect) (planned : PlannedNode) :
    planned.shape.sequence? dialect = planned.sequence? dialect := rfl

private theorem place_id?_shape (planned : PlannedNode) :
    planned.shape.id?.map Prod.fst = planned.id?.map Prod.fst := by
  unfold id?
  show ((planned.content.key.id.map fun _ => (0 : Int64)).map _).map Prod.fst = _
  simp only [Option.map_map, Function.comp_def]
  rfl

end PlannedNode

namespace Graph

variable {dialect : Dialect}

private theorem shape_scalarSource (property : ScalarProperty) (assigned : Option PropertyValue) :
    (scalarSource dialect property (assigned.map PropertyValue.shape)).shape
      = (scalarSource dialect property assigned).shape := by
  cases assigned with
  | none => rfl
  | some value => cases value <;> rfl

private theorem shape_referenceSource (graph : Graph) (assigned : Option PropertyValue) :
    (referenceSource (graph.map Node.shape) (assigned.map PropertyValue.shape)).shape
      = (graph.referenceSource assigned).shape := by
  cases assigned with
  | none => rfl
  | some value =>
      cases value with
      | entity target =>
          unfold referenceSource
          simp only [Option.map_some, PropertyValue.shape, place?_shape]
      | value content => rfl
      | cleared => rfl

private theorem shape_assignment? (graph : Graph) (content : Instance) (property : Property) :
    (assignment? dialect (graph.map Node.shape) content.shape property).map Assignment.shape
      = (graph.assignment? dialect content property).map Assignment.shape := by
  unfold assignment?
  simp only [Instance.lookup_pending_shape, Option.isNone_map]
  have sameState : decide (content.shape.state ≠ .transient)
      = decide (content.state ≠ .transient) := rfl
  rw [sameState]
  by_cases unwritten : ((content.pending.lookup property.name).isNone &&
      decide (content.state ≠ .transient)) = true
  · rw [if_pos unwritten, if_pos unwritten]
  · rw [if_neg unwritten, if_neg unwritten]
    cases property with
    | scalar property => simp only [Option.map_some, Assignment.shape, shape_scalarSource]
    | object relation => simp only [Option.map_some, Assignment.shape, shape_referenceSource]
    | collection relation => rfl

private theorem shape_assignments (graph : Graph) (content : Instance) :
    (assignments dialect (graph.map Node.shape) content.shape).map Assignment.shape
      = (graph.assignments dialect content).map Assignment.shape := by
  unfold assignments
  rw [Instance.needsWrite_shape, Instance.mapping_shape]
  by_cases writes : content.needsWrite = true
  · rw [if_pos writes, if_pos writes, List.map_filterMap, List.map_filterMap]
    simp only [shape_assignment?]
  · rw [if_neg writes, if_neg writes]

private theorem shape_plan (graph : Graph) :
    (plan dialect (graph.map Node.shape)).map PlannedNode.shape
      = (graph.plan dialect).map PlannedNode.shape := by
  unfold plan
  rw [List.zipIdx_map, List.map_map, List.map_map, List.map_map]
  refine List.map_congr_left fun entry _ => ?_
  exact congrArg₂ (PlannedNode.mk entry.2) (Node.shape_shape entry.1)
    (shape_assignments graph entry.1.content)

end Graph

/-! ### Schedules -/

namespace Waiting

def shape (waiting : Waiting) : Waiting := { waiting with planned := waiting.planned.shape }

private theorem blockers_shape (known : List Nat) (waiting : Waiting) :
    waiting.shape.blockers known = (waiting.blockers known).map Assignment.shape := by
  unfold blockers immediate shape PlannedNode.shape
  simp only [List.filter_map, Function.comp_def, Assignment.isOpen_shape]
  rfl

private theorem isReady_shape (known : List Nat) (waiting : Waiting) :
    waiting.shape.isReady known = waiting.isReady known := by
  unfold isReady
  rw [blockers_shape]
  cases waiting.blockers known <;> rfl

private theorem deferFirst?_shape (known : List Nat) (waiting : Waiting) :
    waiting.shape.deferFirst? known = (waiting.deferFirst? known).map shape := by
  unfold deferFirst?
  rw [blockers_shape, List.find?_map, Option.map_map, Option.map_map]
  rfl

end Waiting

namespace Schedule

private theorem takeReady?_shape (known : List Nat) (waiting : List Waiting) :
    takeReady? known (waiting.map Waiting.shape)
      = (takeReady? known waiting).map fun found => (found.1.shape, found.2.map Waiting.shape) := by
  induction waiting with
  | nil => rfl
  | cons head tail ih =>
      rw [List.map_cons, takeReady?, takeReady?, Waiting.isReady_shape, ih]
      split
      · rfl
      · rw [Option.map_map, Option.map_map]
        rfl

private theorem deferFirst?_shape (known : List Nat) (waiting : List Waiting) :
    deferFirst? known (waiting.map Waiting.shape)
      = (deferFirst? known waiting).map fun eased => eased.map Waiting.shape := by
  induction waiting with
  | nil => rfl
  | cons head tail ih =>
      rw [List.map_cons, deferFirst?, deferFirst?, Waiting.deferFirst?_shape, ih]
      cases head.deferFirst? known with
      | some relaxed => rfl
      | none =>
          simp only [Option.map_none, Option.map_map]
          rfl

/-- Shapes are inserted in the order of what they are shapes of. The induction follows the
schedule. -/
theorem insertions_build_shape (known : List Nat) (waiting : List Waiting) :
    (build known (waiting.map Waiting.shape)).insertions
      = (build known waiting).insertions.map Waiting.shape := by
  induction known, waiting using build.induct with
  | case1 known waiting next rest ready ih =>
      have readyShape := takeReady?_shape known waiting
      rw [ready] at readyShape
      rw [build_of_ready ready, build_of_ready readyShape]
      exact congrArg _ ih
  | case2 known waiting noReady eased eases ih =>
      have noReadyShape := takeReady?_shape known waiting
      have easesShape := deferFirst?_shape known waiting
      rw [noReady] at noReadyShape
      rw [eases] at easesShape
      rw [build_of_eased noReady eases, build_of_eased noReadyShape easesShape]
      exact ih
  | case3 known waiting noReady noEased =>
      have noReadyShape := takeReady?_shape known waiting
      have noEasedShape := deferFirst?_shape known waiting
      rw [noReady] at noReadyShape
      rw [noEased] at noEasedShape
      rw [build_of_stuck noReady noEased, build_of_stuck noReadyShape noEasedShape]
      rfl

end Schedule

/-! ### Texts of insertions -/

def Waiting.columnNames (known : List Nat) (waiting : Waiting) : List String :=
  (if known.contains waiting.planned.place then [waiting.planned.mapping.id.column] else []) ++
    waiting.planned.assignments.map Assignment.column

def insertionTexts (dialect : Dialect) : List Nat → List Waiting → List String
  | _, [] => []
  | known, waiting :: rest =>
      Statement.insertText dialect waiting.planned.mapping (waiting.columnNames known) ::
        insertionTexts dialect (waiting.planned.place :: known) rest

private theorem insertionTexts_shape (dialect : Dialect) (known : List Nat)
    (waiting : List Waiting) :
    insertionTexts dialect known (waiting.map Waiting.shape)
      = insertionTexts dialect known waiting := by
  induction waiting generalizing known with
  | nil => rfl
  | cons head tail ih =>
      have names : head.shape.columnNames known = head.columnNames known := by
        unfold Waiting.columnNames Waiting.shape PlannedNode.shape
        rw [List.map_map]
        rfl
      rw [List.map_cons, insertionTexts, insertionTexts, names, ← ih]
      rfl

def planTexts (dialect : Dialect) (plan : List PlannedNode) : List String :=
  insertionTexts dialect (Store.placesKnown dialect plan)
    (Store.scheduleOf dialect plan).insertions

private theorem placesKnown_shape (dialect : Dialect) (plan : List PlannedNode) :
    Store.placesKnown dialect (plan.map PlannedNode.shape) = Store.placesKnown dialect plan := by
  unfold Store.placesKnown
  simp only [List.filterMap_map, List.map_filterMap, Function.comp_def, List.filter_map,
    PlannedNode.place_id?_shape, PlannedNode.sequence?_shape, List.map_map]
  rfl

private theorem planTexts_shape (dialect : Dialect) (plan : List PlannedNode) :
    planTexts dialect (plan.map PlannedNode.shape) = planTexts dialect plan := by
  have news : ((plan.map PlannedNode.shape).filter PlannedNode.isNew).map
        (fun planned => ({ planned := planned } : Waiting))
      = ((plan.filter PlannedNode.isNew).map fun planned => { planned := planned }).map
        Waiting.shape := by
    rw [List.filter_map, List.map_map, List.map_map]
    rfl
  unfold planTexts Store.scheduleOf Schedule.ofPlan
  rw [placesKnown_shape, news, Schedule.insertions_build_shape, insertionTexts_shape]

/-- Graphs of one shape are inserted by the same texts. -/
theorem planTexts_congr_shape {graph other : Graph}
    (same : graph.map Node.shape = other.map Node.shape) (dialect : Dialect) :
    planTexts dialect (graph.plan dialect) = planTexts dialect (other.plan dialect) := by
  have plans : (graph.plan dialect).map PlannedNode.shape
      = (other.plan dialect).map PlannedNode.shape := by
    rw [← Graph.shape_plan, same, Graph.shape_plan]
  rw [← planTexts_shape, plans, planTexts_shape]

end EntityStore
