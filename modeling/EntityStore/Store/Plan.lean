/-
The plan of a save: which columns each instance writes, and where their values come
from. A new instance writes every column, a changed one those that were assigned. A
relation is written as the id of another instance of the graph, which may not be known
before that one is inserted.
-/

import EntityStore.Dialect
import EntityStore.Store.Graph

set_option autoImplicit false

namespace EntityStore

/-- Known ids by the place of the instance in the graph. -/
abbrev Ids := List (Nat × Int64)

inductive Source where
  | value (content : Value)
  /-- The id of the instance at a place of the graph. -/
  | idOf (place : Nat)
  deriving DecidableEq, Repr

namespace Source

/-- The place whose id is needed. -/
def place? : Source → Option Nat
  | value _ => none
  | idOf place => some place

def resolve (ids : Ids) : Source → Value
  | value content => content
  | idOf place =>
      match ids.lookup place with
      | some id => .integer id
      | none => .null

end Source

structure Assignment where
  property : String
  column : String
  nullable : Bool
  source : Source
  deriving DecidableEq, Repr

/-- Whether the value needs an id that is not among the known ones. -/
def Assignment.isOpen (known : List Nat) (assignment : Assignment) : Bool :=
  assignment.source.place?.any fun place => !known.contains place

structure PlannedNode where
  place : Nat
  node : Node
  assignments : List Assignment
  deriving DecidableEq, Repr

namespace PlannedNode

def content (planned : PlannedNode) : Instance := planned.node.content

def mapping (planned : PlannedNode) : Mapping := planned.node.content.mapping

def isNew (planned : PlannedNode) : Bool := planned.node.content.state = .transient

/-- The sequence from which the id of a new instance is drawn. -/
def sequence? (dialect : Dialect) (planned : PlannedNode) : Option String :=
  if planned.isNew && dialect.hasSequences then planned.mapping.id.sequence else none

end PlannedNode

namespace Graph

/-- The source of a plain column. A value that was never assigned is the default. -/
def scalarSource (dialect : Dialect) (property : ScalarProperty) :
    Option PropertyValue → Source
  | some (.value content) => .value (dialect.stored content)
  | some _ => .value .null
  | none => .value (dialect.stored (property.default.getD .null))

def referenceSource (graph : Graph) : Option PropertyValue → Source
  | some (.entity target) =>
      match graph.place? target with
      | some place => .idOf place
      | none => .value .null
  | _ => .value .null

/-- What an instance writes for a property. -/
def assignment? (dialect : Dialect) (graph : Graph) (content : Instance)
    (property : Property) : Option Assignment :=
  let assigned := content.pending.lookup property.name
  if assigned.isNone && content.state ≠ .transient then none
  else
    match property with
    | .scalar property =>
        some ⟨property.name, property.column, property.nullable,
          scalarSource dialect property assigned⟩
    | .object relation =>
        some ⟨relation.name, relation.column, relation.nullable,
          graph.referenceSource assigned⟩
    | .collection _ => none

def assignments (dialect : Dialect) (graph : Graph) (content : Instance) :
    List Assignment :=
  if content.needsWrite then
    content.mapping.properties.filterMap (graph.assignment? dialect content)
  else []

/-- The instances of the graph with what they write. -/
def plan (dialect : Dialect) (graph : Graph) : List PlannedNode :=
  graph.zipIdx.map fun entry =>
    ⟨entry.2, entry.1, graph.assignments dialect entry.1.content⟩

end Graph

end EntityStore
