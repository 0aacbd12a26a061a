/-
What a plan carried out does to the rows of a database. The log is replayed pass by
pass: an insertion fills a row that was not there, a completion sets the columns that
were put off, an update changes its columns, and every other row stays as it is.
-/

import EntityStore.Proofs.KnownIds

set_option autoImplicit false

namespace EntityStore

def Layout.address (layout : Layout) (planned : PlannedNode) (id : Int64) : String × Int64 :=
  (layout.tableOf planned.mapping, id)

namespace Contents

def row (contents : Contents) (address : String × Int64) : Option Fields :=
  contents address.1 address.2

theorem row_set_self (contents : Contents) (address : String × Int64) (row : Option Fields) :
    (contents.set address.1 address.2 row).row address = row :=
  contents.set_self _ _ _

theorem row_set_of_ne (contents : Contents) {address other : String × Int64}
    (row : Option Fields) (different : other ≠ address) :
    (contents.set address.1 address.2 row).row other = contents.row other :=
  contents.set_of_ne row fun same => different (Prod.ext same.1 same.2)

theorem row_change_self (contents : Contents) (address : String × Int64)
    (edit : Fields → Fields) :
    (contents.change address.1 address.2 edit).row address = (contents.row address).map edit :=
  contents.change_self _ _ _

theorem row_change_of_ne (contents : Contents) {address other : String × Int64}
    (edit : Fields → Fields) (different : other ≠ address) :
    (contents.change address.1 address.2 edit).row other = contents.row other :=
  contents.change_of_ne edit fun same => different (Prod.ext same.1 same.2)

private theorem change_write_nil (layout : Layout) (contents : Contents) (table : String)
    (id : Int64) : contents.change table id (layout.write []) = contents := by
  funext other number
  by_cases same : other = table ∧ number = id
  · obtain ⟨rfl, rfl⟩ := same
    rw [change_self]
    cases contents other number <;> rfl
  · exact contents.change_of_ne _ same

end Contents

variable {layout : Layout} {honest : Contents → Statement → List Row → Prop}
  {dialect : Dialect}

/-! ### Drawing -/

theorem Drawn.unchanged {plan : List PlannedNode} {ids : Ids} {log : List Event}
    (drawn : Drawn dialect plan ids log) {before after : Ledger}
    (replays : Ledger.Replays layout honest before log after) : after = before := by
  induction drawn with
  | nil =>
      cases replays
      rfl
  | without sequenced later ih => exact ih replays
  | drawn sequenced next later ih =>
      cases replays with
      | cons step rest =>
          cases step
          exact ih rest

/-! ### Inserting -/

structure Waiting.Filled (layout : Layout) (known : Ids) (waiting : Waiting) (id : Int64)
    (fields : Fields) : Prop where
  id : fields (layout.column waiting.planned.mapping.id.column) = .integer id
  immediate : ∀ assignment ∈ waiting.planned.assignments,
    assignment.property ∉ waiting.deferred →
    fields (layout.column assignment.column) = layout.stored (assignment.source.resolve known)

structure InsertEffect (layout : Layout) (known : Ids) (inserted : List (Waiting × Written))
    (before after : Contents) : Prop where
  distinct : (inserted.map fun entry => layout.address entry.1.planned entry.2.id).Nodup
  absent : ∀ entry ∈ inserted, before.row (layout.address entry.1.planned entry.2.id) = none
  present : ∀ entry ∈ inserted, ∃ fields,
    after.row (layout.address entry.1.planned entry.2.id) = some fields ∧
      entry.1.Filled layout known entry.2.id fields
  frame : ∀ address,
    (∀ entry ∈ inserted, layout.address entry.1.planned entry.2.id ≠ address) →
    after.row address = before.row address

theorem InsertEffect.cons {known : Ids} {entry : Waiting × Written}
    {inserted : List (Waiting × Written)} {before after : Contents} {fields : Fields}
    (missing : before.row (layout.address entry.1.planned entry.2.id) = none)
    (filled : entry.1.Filled layout known entry.2.id fields)
    (later : InsertEffect layout known inserted
      (before.set (layout.tableOf entry.1.planned.mapping) entry.2.id (some fields)) after) :
    InsertEffect layout known (entry :: inserted) before after := by
  have presentHere : (before.set (layout.tableOf entry.1.planned.mapping) entry.2.id
      (some fields)).row (layout.address entry.1.planned entry.2.id) = some fields :=
    before.row_set_self (layout.address entry.1.planned entry.2.id) (some fields)
  have elsewhere : ∀ other ∈ inserted, layout.address other.1.planned other.2.id
      ≠ layout.address entry.1.planned entry.2.id := by
    intro other member same
    have gone := later.absent other member
    rw [same, presentHere] at gone
    cases gone
  refine ⟨?_, ?_, ?_, ?_⟩
  · rw [List.map_cons, List.nodup_cons]
    refine ⟨?_, later.distinct⟩
    intro again
    obtain ⟨other, member, same⟩ := List.mem_map.mp again
    exact elsewhere other member same
  · intro other member
    rcases List.mem_cons.mp member with rfl | isLater
    · exact missing
    · have kept := before.row_set_of_ne (some fields) (elsewhere other isLater)
      exact kept.symm.trans (later.absent other isLater)
  · intro other member
    rcases List.mem_cons.mp member with rfl | isLater
    · exact ⟨fields, (later.frame _ elsewhere).trans presentHere, filled⟩
    · exact later.present other isLater
  · intro address apart
    rw [later.frame address fun other member => apart other (List.mem_cons_of_mem entry member)]
    exact before.row_set_of_ne (some fields) (apart entry List.mem_cons_self).symm

theorem Waiting.filled_of_sets {waiting : Waiting} {ids known : Ids} {fields : Fields}
    {id : Int64} (idField : fields (layout.column waiting.planned.mapping.id.column) = .integer id)
    (sets : layout.Sets (waiting.columns ids) fields)
    (resolved : ∀ assignment ∈ waiting.planned.assignments,
      assignment.property ∉ waiting.deferred →
      assignment.source.resolve ids = assignment.source.resolve known) :
    waiting.Filled layout known id fields := by
  refine ⟨idField, fun assignment member immediate => ?_⟩
  rw [← resolved assignment member immediate]
  exact sets _ (waiting.immediate_mem_columns ids member immediate)

theorem Inserted.effect {ids known : Ids} {insertions : List Waiting}
    {inserted : List (Waiting × Written)} {log : List Event}
    (inserts : Inserted dialect ids insertions inserted known log)
    (ordered : Schedule.InOrder (ids.map Prod.fst) insertions) {before after : Ledger}
    (replays : Ledger.Replays layout honest before log after) :
    InsertEffect layout known inserted before.contents after.contents := by
  -- The induction is on the insertions in order: each is ready, so that what it writes is already
  -- final.
  induction inserts generalizing before with
  | nil ids =>
      cases replays
      refine ⟨List.nodup_nil, ?_, ?_, fun _ _ => rfl⟩
      · intro entry member
        cases member
      · intro entry member
        cases member
  | @known ids known waiting rest id inserted log found later ih =>
      cases ordered with
      | cons ready orderedRest =>
      cases replays with
      | cons step replaysRest =>
      cases step with
      | executed executes =>
          obtain ⟨id', fields, missing, idField, sets, rfl, rfl⟩ :=
            Layout.executes_insert.mp executes
          have same : id' = id := by
            have stored := sets _ (Waiting.id_mem_columns found)
            rw [layout.stored_integer, idField] at stored
            exact Value.integer.inj stored
          subst same
          have extended : Inserted dialect ids (waiting :: rest)
              ((waiting, ⟨waiting.planned, id', Row.ofList (waiting.columns ids), none⟩)
                :: inserted) known _ := .known found later
          exact .cons missing (Waiting.filled_of_sets idField sets
            fun assignment member immediate => extended.resolve_eq ready member immediate)
            (ih orderedRest replaysRest)
  | @generated ids known waiting rest id inserted log missing' later ih =>
      cases ordered with
      | cons ready orderedRest =>
      cases replays with
      | cons step replaysRest =>
      cases step with
      | executed executes =>
          -- The id read back is the one that the insertion has generated.
          obtain ⟨id', fields, missing, idField, sets, rfl, rfl⟩ :=
            Layout.executes_insert.mp executes
          cases replaysRest with
          | cons step replaysLater =>
          cases step
          have extended : Inserted dialect ids (waiting :: rest)
              ((waiting, ⟨waiting.planned, id', Row.ofList (waiting.columns ids
                ++ [(waiting.planned.mapping.id.column, .integer id')]), none⟩) :: inserted)
              known _ := .generated missing' later
          exact .cons missing (Waiting.filled_of_sets idField sets
            fun assignment member immediate => extended.resolve_eq ready member immediate)
            (ih orderedRest replaysLater)

/-! ### Updating -/

/-- The log of an update changes its row; a log without columns changes nothing, and
neither does setting no columns. -/
theorem replays_updateLog {mapping : Mapping} {columns : List (String × Value)} {id : Int64}
    {log : List Event} {before after : Ledger}
    (replays : Ledger.Replays layout honest before (updateLog dialect mapping columns id ++ log)
      after) :
    ∃ between : Ledger, between.contents =
        before.contents.change (layout.tableOf mapping) id (layout.write columns) ∧
      Ledger.Replays layout honest between log after := by
  unfold updateLog at replays
  cases columns with
  | nil => exact ⟨before, (Contents.change_write_nil layout _ _ _).symm, replays⟩
  | cons entry rest =>
      cases replays with
      | cons step later =>
          cases step with
          | executed executes =>
              obtain ⟨same, rfl⟩ := Layout.executes_update.mp executes
              exact ⟨_, same, later⟩

/-- What completions do: each inserted row gets the columns that were put off. -/
theorem Completed.effect {ids : Ids} {inserted : List (Waiting × Written)}
    {completed : List Written} {log : List Event}
    (completes : Completed dialect ids inserted completed log)
    (distinct : (inserted.map fun entry => layout.address entry.1.planned entry.2.id).Nodup)
    {before after : Ledger} (replays : Ledger.Replays layout honest before log after) :
    (∀ entry ∈ inserted, after.contents.row (layout.address entry.1.planned entry.2.id) =
      (before.contents.row (layout.address entry.1.planned entry.2.id)).map
        (layout.write (Assignment.columns ids entry.1.postponed))) ∧
    ∀ address, (∀ entry ∈ inserted, layout.address entry.1.planned entry.2.id ≠ address) →
      after.contents.row address = before.contents.row address := by
  induction completes generalizing before with
  | nil =>
      cases replays
      refine ⟨?_, fun _ _ => rfl⟩
      intro entry member
      cases member
  | @cons waiting written rest later log laterCompletes ih =>
      obtain ⟨between, changed, replaysLater⟩ := replays_updateLog replays
      rw [List.map_cons, List.nodup_cons] at distinct
      obtain ⟨effect, frame⟩ := ih distinct.2 replaysLater
      have elsewhere : ∀ entry ∈ rest, layout.address entry.1.planned entry.2.id
          ≠ layout.address waiting.planned written.id := by
        intro entry member same
        exact distinct.1 (List.mem_map.mpr ⟨entry, member, same⟩)
      have here := before.contents.row_change_self (layout.address waiting.planned written.id)
        (layout.write (Assignment.columns ids waiting.postponed))
      have away : ∀ address, address ≠ layout.address waiting.planned written.id →
          between.contents.row address = before.contents.row address := by
        intro address different
        rw [changed]
        exact before.contents.row_change_of_ne _ different
      constructor
      · intro entry member
        rcases List.mem_cons.mp member with rfl | isLater
        · rw [frame _ elsewhere, changed]
          exact here
        · rw [effect entry isLater, away _ (elsewhere entry isLater)]
      · intro address apart
        rw [frame address fun entry member => apart entry (List.mem_cons_of_mem _ member)]
        exact away address (apart _ List.mem_cons_self).symm

def PlannedNode.Touches (layout : Layout) (address : String × Int64) (planned : PlannedNode) :
    Prop :=
  planned.content.state = .dirty ∧
    ∃ id, planned.content.key.id = some id ∧ layout.address planned id = address

/-- Where the row before a change comes from: it is the one in memory, or it was answered
for contents that hold the row of the address as before. -/
inductive OldRow (honest : Contents → Statement → List Row → Prop) (dialect : Dialect)
    (planned : PlannedNode) (id : Int64) (current : Option Fields)
    (address : String × Int64) : Row → Prop where
  | held {old : Row} : planned.content.row = some old →
      OldRow honest dialect planned id current address old
  | fetched {old : Row} {rows : List Row} {contents : Contents} :
      planned.content.row = none → rows.head? = some old →
      honest contents (Statement.selectById dialect planned.mapping id) rows →
      contents.row address = current → OldRow honest dialect planned id current address old

/-- The row before a change is looked up without changing anything. -/
theorem RowBefore.oldRow {planned : PlannedNode} {id : Int64} {old : Row}
    {fetchLog log : List Event} (keyed : planned.content.key.id = some id)
    (before : RowBefore dialect planned.content old fetchLog) {start after : Ledger}
    (replays : Ledger.Replays layout honest start (fetchLog ++ log) after)
    (address : String × Int64) :
    OldRow honest dialect planned id (start.contents.row address) address old ∧
      Ledger.Replays layout honest start log after := by
  cases before with
  | held row => exact ⟨.held row, replays⟩
  | @fetched rows other missing otherKeyed first =>
      rw [keyed] at otherKeyed
      cases otherKeyed
      cases replays with
      | cons step later =>
          cases step with
          | answered truthful => exact ⟨.fetched missing first truthful rfl, later⟩

/-- What updates do to the row at an address: each instance that is kept there sets, in its
turn, the columns that differ from the row before. -/
inductive Rewrites (layout : Layout) (honest : Contents → Statement → List Row → Prop)
    (dialect : Dialect) (ids : Ids) (address : String × Int64) :
    List PlannedNode → Option Fields → Option Fields → Prop where
  | nil (row : Option Fields) : Rewrites layout honest dialect ids address [] row row
  | apart {planned : PlannedNode} {rest : List PlannedNode} {row after : Option Fields} :
      ¬planned.Touches layout address → Rewrites layout honest dialect ids address rest row after →
      Rewrites layout honest dialect ids address (planned :: rest) row after
  | here {planned : PlannedNode} {rest : List PlannedNode} {id : Int64} {old : Row}
      {row after : Option Fields} :
      planned.content.state = .dirty → planned.content.key.id = some id →
      layout.address planned id = address →
      OldRow honest dialect planned id row address old →
      Rewrites layout honest dialect ids address rest (row.map (layout.write
        (changedColumns old (Assignment.columns ids planned.assignments)))) after →
      Rewrites layout honest dialect ids address (planned :: rest) row after

theorem Updated.rewrites {ids : Ids} {plan : List PlannedNode} {changed : List Written}
    {log : List Event} (updates : Updated dialect ids plan changed log) {before after : Ledger}
    (replays : Ledger.Replays layout honest before log after) (address : String × Int64) :
    Rewrites layout honest dialect ids address plan (before.contents.row address)
      (after.contents.row address) := by
  induction updates generalizing before with
  | nil =>
      cases replays
      exact .nil _
  | @skipped planned rest later log unchanged laterUpdates ih =>
      refine .apart ?_ (ih replays)
      rintro ⟨dirty, id, keyed, _⟩
      exact unchanged ⟨dirty, Option.isSome_of_eq_some keyed⟩
  | @changed planned rest id old later fetchLog log dirty keyed old' laterUpdates ih =>
      rw [List.append_assoc] at replays
      obtain ⟨oldRow, replaysUpdate⟩ := old'.oldRow keyed replays address
      obtain ⟨between, same, replaysLater⟩ := replays_updateLog replaysUpdate
      have rewrites := ih replaysLater
      rw [same] at rewrites
      by_cases here : layout.address planned id = address
      · subst here
        refine .here dirty keyed rfl oldRow ?_
        rwa [← before.contents.row_change_self]
      · have kept := before.contents.row_change_of_ne
          (layout.write (changedColumns old (Assignment.columns ids planned.assignments)))
          (Ne.symm here)
        refine .apart ?_ (kept ▸ rewrites)
        rintro ⟨_, other, otherKeyed, there⟩
        exact here (Option.some.inj (keyed.symm.trans otherKeyed) ▸ there)

def PlannedNode.SetsColumn (layout : Layout) (address : String × Int64) (column : String)
    (planned : PlannedNode) : Prop :=
  planned.Touches layout address ∧
    ∃ assignment ∈ planned.assignments, layout.column assignment.column = column

namespace Rewrites

variable {ids : Ids} {plan first second : List PlannedNode} {address : String × Int64}
  {row after : Option Fields}

private theorem split
    (rewrites : Rewrites layout honest dialect ids address (first ++ second) row after) :
    ∃ between, Rewrites layout honest dialect ids address first row between ∧
      Rewrites layout honest dialect ids address second between after := by
  induction first generalizing row with
  | nil => exact ⟨row, .nil row, rewrites⟩
  | cons planned rest ih =>
      cases rewrites with
      | apart elsewhere later =>
          obtain ⟨between, earlier, last⟩ := ih later
          exact ⟨between, .apart elsewhere earlier, last⟩
      | here dirty keyed here old later =>
          obtain ⟨between, earlier, last⟩ := ih later
          exact ⟨between, .here dirty keyed here old earlier, last⟩

theorem isSome_eq (rewrites : Rewrites layout honest dialect ids address plan row after) :
    after.isSome = row.isSome := by
  induction rewrites with
  | nil _ => rfl
  | apart _ _ ih => exact ih
  | here _ _ _ _ _ ih => rw [ih, Option.isSome_map]

/-- A column that no changed instance of the row assigns to stays as it is. -/
theorem column_eq (rewrites : Rewrites layout honest dialect ids address plan row after)
    {column : String} (unset : ∀ planned ∈ plan, ¬planned.SetsColumn layout address column) :
    after.map (fun fields => fields column) = row.map fun fields => fields column := by
  induction rewrites with
  | nil _ => rfl
  | apart _ _ ih => exact ih fun other member => unset other (List.mem_cons_of_mem _ member)
  | @here planned _ id old row _ dirty keyed here _ _ ih =>
      rw [ih fun other member => unset other (List.mem_cons_of_mem _ member), Option.map_map]
      refine Option.map_congr fun fields _ => layout.write_of_not_mem fields fun entry member same =>
        unset planned List.mem_cons_self ⟨⟨dirty, id, keyed, here⟩, ?_⟩
      obtain ⟨assignment, isAssignment, rfl⟩ := List.mem_map.mp (List.mem_filter.mp member).1
      exact ⟨assignment, isAssignment, same⟩

private theorem frame (rewrites : Rewrites layout honest dialect ids address plan row after)
    (untouched : ∀ planned ∈ plan, ¬planned.Touches layout address) : after = row := by
  induction rewrites with
  | nil _ => rfl
  | apart _ _ ih => exact ih fun other member => untouched other (List.mem_cons_of_mem _ member)
  | here dirty keyed here _ _ _ =>
      exact absurd ⟨dirty, _, keyed, here⟩ (untouched _ List.mem_cons_self)

/-- The turn of a changed instance comes after some instances and before the others. -/
theorem exists_turn (rewrites : Rewrites layout honest dialect ids address plan row after)
    {planned : PlannedNode} (member : planned ∈ plan) {id : Int64}
    (dirty : planned.content.state = .dirty) (keyed : planned.content.key.id = some id)
    (here : layout.address planned id = address) :
    ∃ first rest current old, plan = first ++ planned :: rest ∧
      Rewrites layout honest dialect ids address first row current ∧
      OldRow honest dialect planned id current address old ∧
      Rewrites layout honest dialect ids address rest (current.map (layout.write
        (changedColumns old (Assignment.columns ids planned.assignments)))) after := by
  obtain ⟨first, rest, rfl⟩ := List.append_of_mem member
  obtain ⟨current, earlier, later⟩ := rewrites.split
  cases later with
  | apart elsewhere _ => exact absurd ⟨dirty, id, keyed, here⟩ elsewhere
  | here _ otherKeyed _ old last =>
      obtain rfl := Option.some.inj (keyed.symm.trans otherKeyed)
      exact ⟨first, rest, current, _, rfl, earlier, old, last⟩

end Rewrites

/-- What updates do to a row that no changed instance is kept in: nothing. -/
theorem Updated.frame {ids : Ids} {plan : List PlannedNode} {changed : List Written}
    {log : List Event} (updates : Updated dialect ids plan changed log) {before after : Ledger}
    (replays : Ledger.Replays layout honest before log after) {address : String × Int64}
    (untouched : ∀ planned ∈ plan, ¬planned.Touches layout address) :
    after.contents.row address = before.contents.row address :=
  (updates.rewrites replays address).frame untouched

end EntityStore
