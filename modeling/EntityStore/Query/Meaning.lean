/-
What a query means on tables of rows. Entity types are joined one after the other,
conditions are true, false or unknown, and only what is true is kept. Markers take
their values by number, as they stand in the statement.
-/

import EntityStore.Query.Compiled
import EntityStore.Row
import EntityStore.Value.Order

set_option autoImplicit false

namespace EntityStore

/-! ### Truth -/

/-- A truth value; whatever depends on a null is unknown. -/
abbrev Truth := Option Bool

namespace Truth

def and : Truth → Truth → Truth
  | some false, _ => some false
  | _, some false => some false
  | some true, some true => some true
  | _, _ => none

def or : Truth → Truth → Truth
  | some true, _ => some true
  | _, some true => some true
  | some false, some false => some false
  | _, _ => none

def not (truth : Truth) : Truth := truth.map (!·)

end Truth

/-- Whether a text has the form of a pattern: a percent sign stands for any characters,
an underscore for one, and a letter for itself in either case. -/
def matchesPattern : List Char → List Char → Bool
  | [], content => content.isEmpty
  | '%' :: pattern, content =>
      matchesPattern pattern content || (match content with
        | [] => false
        | _ :: rest => matchesPattern ('%' :: pattern) rest)
  | _ :: _, [] => false
  | '_' :: pattern, _ :: rest => matchesPattern pattern rest
  | expected :: pattern, character :: rest =>
      Text.lowerChar expected == Text.lowerChar character && matchesPattern pattern rest
termination_by pattern content => pattern.length + content.length

def Comparison.holds (comparison : Comparison) (left right : Value) : Bool :=
  match comparison with
  | equal => left.order right == .eq
  | unequal => left.order right != .eq
  | less => left.order right == .lt
  | atMost => left.order right != .gt
  | greater => left.order right == .gt
  | atLeast => left.order right != .lt
  | like =>
      match left, right with
      | .text content, .text pattern => matchesPattern pattern.toList content.toList
      | _, _ => false

/-- The truth of a comparison; with a null it is unknown. -/
def Comparison.truth (comparison : Comparison) (left right : Value) : Truth :=
  if left.isNull || right.isNull then none else some (comparison.holds left right)

/-! ### Conditions -/

/-- One row of each entity type, by number; an outer join without a match has none. -/
abbrev Combination := List (Option Row)

def ColumnRef.value (reference : ColumnRef) (combination : Combination) : Value :=
  match combination[reference.scope]? with
  | some (some row) => (row.get? reference.column).getD .null
  | _ => .null

/-- The value of an operand; `next` is the number of its marker if it has one. -/
def Operand.value (values : List Value) (combination : Combination) (next : Nat) :
    Operand → Value
  | column reference => reference.value combination
  | bound _ => values.getD next .null

def Operand.references : Operand → List ColumnRef
  | column reference => [reference]
  | bound _ => []

namespace Expression

/-- The columns that an expression names. -/
def references : Expression → List ColumnRef
  | compare left _ right => left.references ++ right.references
  | nullTest operand _ => operand.references
  | conjunction left right => left.references ++ right.references
  | disjunction left right => left.references ++ right.references
  | negation inner => inner.references

/-- The truth of an expression whose first marker has number `next`. -/
def truth (values : List Value) (combination : Combination) (next : Nat) :
    Expression → Truth
  | compare left comparison right =>
      comparison.truth (left.value values combination next)
        (right.value values combination (next + left.slots.length))
  | nullTest operand negated =>
      some ((operand.value values combination next).isNull != negated)
  | conjunction left right =>
      (left.truth values combination next).and
        (right.truth values combination (next + left.slots.length))
  | disjunction left right =>
      (left.truth values combination next).or
        (right.truth values combination (next + left.slots.length))
  | negation inner => (inner.truth values combination next).not

end Expression

/-! ### Order -/

def OrderKey.compare (key : OrderKey) (left right : Combination) : Ordering :=
  let ascending := (key.column.value left).order (key.column.value right)
  if key.direction = .ascending then ascending else ascending.swap

/-- Whether a combination may stand before another one; later keys decide where the
earlier ones do not. -/
def OrderKey.precedes : List OrderKey → Combination → Combination → Bool
  | [], _, _ => true
  | key :: rest, left, right =>
      match key.compare left right with
      | .lt => true
      | .gt => false
      | .eq => precedes rest left right

namespace Query

/-! ### Results -/

/-- A combination with each row of a joined type that satisfies the condition. -/
def extend (values : List Value) (next : Nat) (join : Join) (rows : List Row)
    (combination : Combination) : List Combination :=
  let condition := join.on.withNullTests
  let extended := rows.map fun row => combination ++ [some row]
  let found := extended.filter fun candidate =>
    condition.truth values candidate next == some true
  if found.isEmpty && join.kind == .outer then [combination ++ [none]] else found

/-- Joins entity types one after the other; `source` gives the rows of a type. -/
def joinAll (source : Mapping → List Row) (values : List Value) :
    Nat → List Join → List Combination → List Combination
  | _, [], combinations => combinations
  | next, join :: rest, combinations =>
      joinAll source values (next + join.on.withNullTests.slots.length) rest
        (combinations.flatMap (extend values next join (source join.target)))

/-- Whether a combination satisfies the condition of the query. -/
def accepts (query : Query) (values : List Value) (combination : Combination) : Bool :=
  match query.predicate with
  | none => true
  | some expression =>
      expression.withNullTests.truth values combination (joinsSlots query.joins).length
        == some true

def project (mapping : Mapping) (row : Row) : Row :=
  Row.ofList (mapping.columns.map fun column => (column, (row.get? column).getD .null))

def combinations (query : Query) (source : Mapping → List Row) (values : List Value) :
    List Combination :=
  let joined := joinAll source values 0 query.joins
    ((source query.root).map fun row => [some row])
  (joined.filter (query.accepts values)).mergeSort (OrderKey.precedes query.order)

/-- The rows of the result: those of the first entity type, under its own columns. -/
def rows (query : Query) (source : Mapping → List Row) (values : List Value) : List Row :=
  (query.combinations source values).filterMap fun combination =>
    combination.head?.join.map (project query.root)

/-! ### Names -/

/-- The columns that a query names: those of its result, then those of conditions and
order. -/
def references (query : Query) : List ColumnRef :=
  query.root.columns.map (ColumnRef.mk 0)
    ++ query.joins.flatMap (fun join => join.on.references)
    ++ (query.predicate.map Expression.references).getD []
    ++ query.order.map OrderKey.column

end Query

end EntityStore
