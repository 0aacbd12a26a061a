/-
Shapes of queries. The shape keeps everything of a query but its values: of a literal it
says only whether it is null, of a named parameter only that it is there. The text of a
query as a statement is that of its shape, so that queries of one shape have one text.
-/

import EntityStore.Query.Compiled

set_option autoImplicit false

namespace EntityStore

def Slot.shape : Slot → Slot
  | literal .null => .literal .null
  | literal _ => .literal (.boolean true)
  | named _ => .named ""
  | positional index => .positional index

namespace Operand

def shape : Operand → Operand
  | column reference => .column reference
  | bound slot => .bound slot.shape

@[simp] theorem isNullLiteral_shape (operand : Operand) :
    operand.shape.isNullLiteral = operand.isNullLiteral := by
  cases operand with
  | column reference => rfl
  | bound slot =>
      cases slot with
      | literal value => cases value <;> rfl
      | named name => rfl
      | positional index => rfl

@[simp] theorem length_slots_shape (operand : Operand) :
    operand.shape.slots.length = operand.slots.length := by
  cases operand <;> rfl

@[simp] theorem text_shape (dialect : Dialect) (next : Nat) (operand : Operand) :
    operand.shape.text dialect next = operand.text dialect next := by
  cases operand <;> rfl

end Operand

namespace Expression

def shape : Expression → Expression
  | compare left comparison right => .compare left.shape comparison right.shape
  | nullTest operand negated => .nullTest operand.shape negated
  | conjunction left right => .conjunction left.shape right.shape
  | disjunction left right => .disjunction left.shape right.shape
  | negation inner => .negation inner.shape

@[simp] theorem length_slots_shape (expression : Expression) :
    expression.shape.slots.length = expression.slots.length := by
  induction expression with
  | compare left comparison right => simp [shape, slots]
  | nullTest operand negated => simp [shape, slots]
  | conjunction left right ihLeft ihRight => simp [shape, slots, ihLeft, ihRight]
  | disjunction left right ihLeft ihRight => simp [shape, slots, ihLeft, ihRight]
  | negation inner ih => simpa [shape, slots] using ih

@[simp] theorem text_shape (dialect : Dialect) (next : Nat) (expression : Expression) :
    expression.shape.text dialect next = expression.text dialect next := by
  induction expression generalizing next with
  | compare left comparison right => simp [shape, text]
  | nullTest operand negated => simp [shape, text]
  | conjunction left right ihLeft ihRight => simp [shape, text, ihLeft, ihRight]
  | disjunction left right ihLeft ihRight => simp [shape, text, ihLeft, ihRight]
  | negation inner ih => simp [shape, text, ih]

/-- Which comparisons are null tests is decided by the nulls alone. -/
@[simp] theorem withNullTests_shape (expression : Expression) :
    expression.shape.withNullTests = expression.withNullTests.shape := by
  induction expression with
  | compare left comparison right =>
      simp only [shape, withNullTests, Operand.isNullLiteral_shape]
      split
      · split
        · rfl
        · split <;> rfl
      · rfl
  | nullTest operand negated => rfl
  | conjunction left right ihLeft ihRight => simp only [shape, withNullTests, ihLeft, ihRight]
  | disjunction left right ihLeft ihRight => simp only [shape, withNullTests, ihLeft, ihRight]
  | negation inner ih => simp only [shape, withNullTests, ih]

end Expression

def Join.shape (join : Join) : Join := { join with on := join.on.shape }

namespace Query

def shape (query : Query) : Query :=
  { query with
    joins := query.joins.map Join.shape
    predicate := query.predicate.map Expression.shape }

private theorem length_joinsSlots_shape (joins : List Join) :
    (joinsSlots (joins.map Join.shape)).length = (joinsSlots joins).length := by
  induction joins with
  | nil => rfl
  | cons join rest ih =>
      simp only [joinsSlots, List.map_cons, List.flatMap_cons, List.length_append, Join.shape,
        Expression.withNullTests_shape, Expression.length_slots_shape] at ih ⊢
      rw [ih]

private theorem joinsText_shape (dialect : Dialect) (number next : Nat) (joins : List Join) :
    joinsText dialect number next (joins.map Join.shape) = joinsText dialect number next joins := by
  induction joins generalizing number next with
  | nil => rfl
  | cons join rest ih =>
      simp only [List.map_cons, joinsText, Join.shape, Expression.withNullTests_shape,
        Expression.text_shape, Expression.length_slots_shape, ih]

private theorem predicateText_shape (dialect : Dialect) (next : Nat)
    (predicate : Option Expression) :
    predicateText dialect next (predicate.map Expression.shape)
      = predicateText dialect next predicate := by
  cases predicate with
  | none => rfl
  | some expression => simp [predicateText]

private theorem text_shape (dialect : Dialect) (query : Query) :
    query.shape.text dialect = query.text dialect := by
  unfold text shape
  simp only [joinsText_shape, length_joinsSlots_shape, predicateText_shape]

/-- Queries that differ in values and names of parameters alone have the same text. -/
theorem text_congr_shape {query other : Query} (same : query.shape = other.shape)
    (dialect : Dialect) : query.text dialect = other.text dialect := by
  rw [← text_shape dialect query, same, text_shape]

end Query
end EntityStore
