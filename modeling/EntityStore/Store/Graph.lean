/-
The graph of a save: the instances that can be reached from a root through assigned
values, each once. Everything that the values can be checked for without a database
is checked on the way.
-/

import EntityStore.Error
import EntityStore.Instance

set_option autoImplicit false

namespace EntityStore

structure Node where
  subject : InstanceId
  content : Instance
  deriving DecidableEq, Repr

namespace Node

def ofMemory (memory : Array Instance) (subject : InstanceId) : Node :=
  ⟨subject, (memory[subject]?).getD Instance.absent⟩

/-- Checks that an assigned value is of the kind of its property. -/
def checkAssignment (memory : Array Instance) (mapping : Mapping) (name : String)
    (value : PropertyValue) : Except Error Unit :=
  let mismatch (expected actual : String) : Except Error Unit :=
    .error (.typeMismatch mapping.entity name expected actual)
  match mapping.property? name, value with
  | some (.object relation), .entity target =>
      let actual := (ofMemory memory target).content.entity
      if actual = relation.target then .ok ()
      else mismatch relation.target ("an instance of " ++ actual)
  | some (.object relation), .value content =>
      if content.isNull then .ok ()
      else mismatch relation.target ("a " ++ content.kind ++ " value")
  | some (.scalar property), .entity target =>
      mismatch property.type.name ("an instance of " ++ (ofMemory memory target).content.entity)
  | _, _ => .ok ()

def check (store : StoreId) (memory : Array Instance) (node : Node) : Except Error Unit :=
  let content := node.content
  if content.store ≠ store then .error (.invalidState (.foreign content.key))
  else if content.state = .removed then .error (.invalidState (.savingRemoved content.key))
  else content.pending.forM fun entry =>
    checkAssignment memory content.mapping entry.1 entry.2

end Node

/-- The instances of a save in the order in which they were found. An instance is
named by its place. -/
abbrev Graph := List Node

namespace Graph

/-- The number of instances that an instance refers to. -/
def outgoing (memory : Array Instance) (subject : InstanceId) : Nat :=
  (Node.ofMemory memory subject).content.targets.length

def outgoingAll (memory : Array Instance) : List InstanceId → Nat
  | [] => 0
  | subject :: rest => outgoing memory subject + outgoingAll memory rest

private theorem outgoingAll_erase (memory : Array Instance) {unseen : List InstanceId}
    {subject : InstanceId} (member : subject ∈ unseen) :
    outgoingAll memory unseen
      = outgoing memory subject + outgoingAll memory (unseen.erase subject) := by
  induction unseen with
  | nil => cases member
  | cons first rest ih =>
      by_cases same : first = subject
      · rw [same, List.erase_cons_head]
        rfl
      · have later : subject ∈ rest :=
          (List.mem_cons.mp member).resolve_left fun equal => same equal.symm
        rw [List.erase_cons_tail (by simpa using same)]
        simp only [outgoingAll, ih later]
        omega

/-- Follows the instances on the stack, the first one first and its targets before the
rest, the last target first. Those not `unseen` have been found before. Each step takes
one off the stack, and what it puts there is no longer outgoing from the unseen. -/
def explore (store : StoreId) (memory : Array Instance) (found : Graph)
    (unseen stack : List InstanceId) : Except Error Graph :=
  match stack with
  | [] => .ok found
  | subject :: rest =>
      if _member : subject ∈ unseen then
        let node := Node.ofMemory memory subject
        match node.check store memory with
        | .error error => .error error
        | .ok () =>
            explore store memory (found ++ [node]) (unseen.erase subject)
              (node.content.targets.reverse ++ rest)
      else explore store memory found unseen rest
termination_by stack.length + outgoingAll memory unseen
decreasing_by
  · have total := outgoingAll_erase memory _member
    simp only [outgoing] at total ⊢
    simp only [List.length_append, List.length_reverse, List.length_cons]
    omega
  · simp

def collect (store : StoreId) (memory : Array Instance) (root : InstanceId) :
    Except Error Graph :=
  explore store memory [] (List.range memory.size) [root]

def needsWrite (graph : Graph) : Bool :=
  graph.any fun node => node.content.needsWrite

def place? (graph : Graph) (subject : InstanceId) : Option Nat :=
  graph.findIdx? fun node => node.subject == subject

end Graph

end EntityStore
