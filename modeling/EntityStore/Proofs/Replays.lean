/-
The meaning of a log. A unit of work leaves a log of what was executed and answered on
its connection; replaying the log on some contents executes its statements in order.
An id that was read back is the one that the last insertion generated.
-/

import EntityStore.Proofs.Contents
import EntityStore.Proofs.Mappings

set_option autoImplicit false

namespace EntityStore

inductive Event where
  | executed (statement : Statement)
  | answered (statement : Statement) (rows : List Row)
  /-- The id of the last insertion was read. -/
  | generated (id : Int64)
  | lookedUp (table : QualifiedName) (found : Bool)

namespace Layout

variable (layout : Layout)

def Executes (statement : Statement) (before after : Contents) (generated : Option Int64) :
    Prop :=
  match statement.request with
  | .insert table idColumn columns =>
      ∃ id fields, before (layout.table table) id = none ∧
        fields (layout.column idColumn) = .integer id ∧
        layout.Sets (columns.zip statement.values) fields ∧
        after = before.set (layout.table table) id (some fields) ∧ generated = some id
  | .update table _ columns =>
      ∃ id, statement.values[columns.length]? = some (.integer id) ∧
        after = before.change (layout.table table) id
          (layout.write (columns.zip statement.values)) ∧ generated = none
  | .delete table _ =>
      ∃ id, statement.values[0]? = some (.integer id) ∧
        after = before.set (layout.table table) id none ∧ generated = none
  | .dropTable table => after = before.clear (layout.table table) ∧ generated = none
  | _ => after = before ∧ generated = none

/-- The rows that a statement may answer with. What a query selects beyond its first
entity type is left open. -/
def Answers (contents : Contents) (statement : Statement) (rows : List Row) : Prop :=
  match statement.request with
  | .selectById table _ columns =>
      ∃ id, statement.values[0]? = some (.integer id) ∧
        match contents (layout.table table) id with
        | none => rows = []
        | some fields => ∃ row, rows = [row] ∧ layout.Shows columns fields row
  | .select query _ =>
      ∀ row ∈ rows, ∃ id fields, contents (layout.tableOf query.root) id = some fields ∧
        layout.Shows query.root.columns fields row
  | _ => True

/-- The mapping is well formed, and the database keeps the rows of its table by the
column that the mapping calls the id. -/
structure Fits (mapping : Mapping) : Prop where
  wellFormed : mapping.WellFormed
  keyed : layout.column mapping.id.column = layout.column (layout.key (layout.tableOf mapping))

variable {layout}

/-! ### The statements of rows -/

theorem zip_columns (columns : List (String × Value)) (more : List Value) :
    (columns.map Prod.fst).zip (columns.map Prod.snd ++ more) = columns := by
  induction columns with
  | nil => rfl
  | cons entry rest ih => simp only [List.map_cons, List.cons_append, List.zip_cons_cons, ih]

theorem executes_insert {dialect : Dialect} {mapping : Mapping}
    {columns : List (String × Value)} {before after : Contents} {generated : Option Int64} :
    layout.Executes (Statement.insert dialect mapping columns) before after generated ↔
      ∃ id fields, before (layout.tableOf mapping) id = none ∧
        fields (layout.column mapping.id.column) = .integer id ∧ layout.Sets columns fields ∧
        after = before.set (layout.tableOf mapping) id (some fields) ∧ generated = some id := by
  have zipped := zip_columns columns []
  rw [List.append_nil] at zipped
  simp only [Executes, Statement.insert, zipped]
  exact Iff.rfl

theorem executes_update {dialect : Dialect} {mapping : Mapping}
    {columns : List (String × Value)} {id : Int64} {before after : Contents}
    {generated : Option Int64} :
    layout.Executes (Statement.update dialect mapping columns id) before after generated ↔
      after = before.change (layout.tableOf mapping) id (layout.write columns) ∧
        generated = none := by
  have zipped := zip_columns columns [.integer id]
  have last : (columns.map Prod.snd ++ [Value.integer id])[(columns.map Prod.fst).length]?
      = some (.integer id) := by
    simp
  simp only [Executes, Statement.update, zipped, last]
  constructor
  · rintro ⟨other, same, rest⟩
    cases same
    exact rest
  · intro rest
    exact ⟨id, rfl, rest⟩

theorem executes_delete {dialect : Dialect} {mapping : Mapping} {id : Int64}
    {before after : Contents} {generated : Option Int64} :
    layout.Executes (Statement.delete dialect mapping id) before after generated ↔
      after = before.set (layout.tableOf mapping) id none ∧ generated = none := by
  simp only [Executes, Statement.delete, List.getElem?_cons_zero]
  constructor
  · rintro ⟨other, same, rest⟩
    cases same
    exact rest
  · intro rest
    exact ⟨id, rfl, rest⟩

theorem answers_selectById {dialect : Dialect} {mapping : Mapping} {id : Int64}
    {contents : Contents} {rows : List Row}
    (answered : layout.Answers contents (Statement.selectById dialect mapping id) rows) :
    (contents (layout.tableOf mapping) id = none ∧ rows = []) ∨
      ∃ fields row, contents (layout.tableOf mapping) id = some fields ∧ rows = [row] ∧
        layout.Shows mapping.columns fields row := by
  simp only [Answers, Statement.selectById, List.getElem?_cons_zero] at answered
  obtain ⟨other, same, answer⟩ := answered
  cases same
  cases found : contents (layout.tableOf mapping) id with
  | none =>
      rw [show contents (layout.table (Statement.tableOf mapping)) id = none from found] at answer
      exact Or.inl ⟨rfl, answer⟩
  | some fields =>
      rw [show contents (layout.table (Statement.tableOf mapping)) id = some fields from found]
        at answer
      obtain ⟨row, sameRows, shown⟩ := answer
      exact Or.inr ⟨fields, row, rfl, sameRows, shown⟩

end Layout

theorem Statement.request_of_createTable {dialect : Dialect} {mapping : Mapping}
    {statement : Statement} (created : Statement.createTable dialect mapping = .ok statement) :
    statement.request = .createTable (Statement.tableOf mapping) mapping.id.column
      (mapping.properties.filterMap Statement.columnSpec?) := by
  unfold Statement.createTable at created
  simp only [bind, Except.bind, pure, Except.pure] at created
  split at created
  · cases created
  · cases created
    rfl

inductive Statement.Conforms (fits : Mapping → Prop) : Statement → Prop where
  | insert (dialect : Dialect) {mapping : Mapping} {columns : List (String × Value)} :
      fits mapping → Row.Distinct columns →
      (∀ entry ∈ columns, entry.1 ∈ mapping.columns) →
      (∀ entry ∈ columns, entry.1 = mapping.id.column → ∃ id, entry.2 = .integer id) →
      Conforms fits (Statement.insert dialect mapping columns)
  | update (dialect : Dialect) {mapping : Mapping} {columns : List (String × Value)}
      (id : Int64) :
      fits mapping → Row.Distinct columns →
      (∀ entry ∈ columns, entry.1 ∈ mapping.properties.filterMap Property.column?) →
      Conforms fits (Statement.update dialect mapping columns id)
  | delete (dialect : Dialect) {mapping : Mapping} (id : Int64) :
      fits mapping → Conforms fits (Statement.delete dialect mapping id)
  | selectById (dialect : Dialect) {mapping : Mapping} (id : Int64) :
      fits mapping → Conforms fits (Statement.selectById dialect mapping id)
  | select (dialect : Dialect) {query : Query} (page : Page) (values : List Value) :
      fits query.root → Conforms fits (Statement.select dialect query page values)
  | createTable (dialect : Dialect) {mapping : Mapping} {statement : Statement} :
      fits mapping → Statement.createTable dialect mapping = .ok statement →
      Conforms fits statement
  | dropTable (mapping : Mapping) : Conforms fits (Statement.dropTable mapping)
  | createSequence {statement : Statement} (sequence : QualifiedName) :
      statement.request = .createSequence sequence → Conforms fits statement
  | dropSequence {statement : Statement} (sequence : QualifiedName) :
      statement.request = .dropSequence sequence → Conforms fits statement
  | nextValue {statement : Statement} (sequence : QualifiedName) :
      statement.request = .nextValue sequence → Conforms fits statement
  | defaultSchema {statement : Statement} :
      statement.request = .defaultSchema → Conforms fits statement

/-! ### Replaying -/

structure Ledger where
  contents : Contents
  lastId : Int64

namespace Ledger

variable (layout : Layout) (honest : Contents → Statement → List Row → Prop)

/-- What one event makes of a ledger. Answers satisfy `honest`. -/
inductive Step : Ledger → Event → Ledger → Prop where
  | executed {before : Ledger} {statement : Statement} {contents : Contents}
      {generated : Option Int64} :
      layout.Executes statement before.contents contents generated →
      Step before (.executed statement) ⟨contents, generated.getD before.lastId⟩
  | answered {before : Ledger} {statement : Statement} {rows : List Row} :
      honest before.contents statement rows → Step before (.answered statement rows) before
  | generated {before : Ledger} : Step before (.generated before.lastId) before
  | lookedUp {before : Ledger} (table : QualifiedName) (found : Bool) :
      Step before (.lookedUp table found) before

inductive Replays : Ledger → List Event → Ledger → Prop where
  | nil (ledger : Ledger) : Replays ledger [] ledger
  | cons {before between after : Ledger} {event : Event} {log : List Event} :
      Step layout honest before event between → Replays between log after →
      Replays before (event :: log) after

variable {layout honest}

theorem Replays.append {before between after : Ledger} {first second : List Event}
    (replaysFirst : Replays layout honest before first between)
    (replaysSecond : Replays layout honest between second after) :
    Replays layout honest before (first ++ second) after := by
  induction replaysFirst with
  | nil ledger => exact replaysSecond
  | cons step rest ih => exact .cons step (ih replaysSecond)

theorem Replays.split {before after : Ledger} {first second : List Event}
    (replays : Replays layout honest before (first ++ second) after) :
    ∃ between, Replays layout honest before first between ∧
      Replays layout honest between second after := by
  induction first generalizing before with
  | nil => exact ⟨before, .nil before, replays⟩
  | cons event rest ih =>
      cases replays with
      | cons step later =>
          obtain ⟨between, left, right⟩ := ih later
          exact ⟨between, .cons step left, right⟩

/-- Fewer conditions on the answers allow more replays. -/
theorem Replays.weaken {weaker : Contents → Statement → List Row → Prop}
    (weak : ∀ contents statement rows, honest contents statement rows →
      weaker contents statement rows)
    {before after : Ledger} {log : List Event}
    (replays : Replays layout honest before log after) :
    Replays layout weaker before log after := by
  induction replays with
  | nil ledger => exact .nil ledger
  | cons step later ih =>
      refine .cons ?_ ih
      cases step with
      | executed executes => exact .executed executes
      | answered answer => exact .answered (weak _ _ _ answer)
      | generated => exact .generated
      | lookedUp table found => exact .lookedUp table found

end Ledger

end EntityStore
