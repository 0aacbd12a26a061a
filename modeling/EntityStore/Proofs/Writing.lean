/-
What the work of a save asks for: ids are drawn, new instances are inserted in the order
of the schedule, references that were put off are set, and changed instances are
updated. Each of the four passes is described by what it gives and by its log.
-/

import EntityStore.Proofs.Calls
import EntityStore.Proofs.Plans
import EntityStore.Proofs.Schedules

set_option autoImplicit false

namespace EntityStore

inductive Drawn (dialect : Dialect) : List PlannedNode → Ids → List Event → Prop where
  | nil : Drawn dialect [] [] []
  | without {planned : PlannedNode} {rest : List PlannedNode} {ids : Ids} {log : List Event} :
      planned.sequence? dialect = none → Drawn dialect rest ids log →
      Drawn dialect (planned :: rest) ids log
  | drawn {planned : PlannedNode} {rest : List PlannedNode} {sequence : String}
      {statement : Statement} {rows : List Row} {id : Int64} {ids : Ids} {log : List Event} :
      planned.sequence? dialect = some sequence →
      Statement.nextValue? dialect sequence = some statement → Drawn dialect rest ids log →
      Drawn dialect (planned :: rest) ((planned.place, id) :: ids)
        (.answered statement rows :: log)

/-- Insertions in order with what was written. An id is known before the insertion or
read after it. -/
inductive Inserted (dialect : Dialect) :
    Ids → List Waiting → List (Waiting × Written) → Ids → List Event → Prop where
  | nil (ids : Ids) : Inserted dialect ids [] [] ids []
  | known {ids known : Ids} {waiting : Waiting} {rest : List Waiting} {id : Int64}
      {inserted : List (Waiting × Written)} {log : List Event} :
      ids.lookup waiting.planned.place = some id →
      Inserted dialect ((waiting.planned.place, id) :: ids) rest inserted known log →
      Inserted dialect ids (waiting :: rest)
        ((waiting, ⟨waiting.planned, id, Row.ofList (waiting.columns ids), none⟩) :: inserted)
        known
        (.executed (Statement.insert dialect waiting.planned.mapping (waiting.columns ids)) :: log)
  | generated {ids known : Ids} {waiting : Waiting} {rest : List Waiting} {id : Int64}
      {inserted : List (Waiting × Written)} {log : List Event} :
      ids.lookup waiting.planned.place = none →
      Inserted dialect ((waiting.planned.place, id) :: ids) rest inserted known log →
      Inserted dialect ids (waiting :: rest)
        ((waiting, ⟨waiting.planned, id, Row.ofList (waiting.columns ids
          ++ [(waiting.planned.mapping.id.column, .integer id)]), none⟩) :: inserted)
        known
        (.executed (Statement.insert dialect waiting.planned.mapping (waiting.columns ids))
          :: .generated id :: log)

/-- Everything in the list of insertions was inserted, in this order. -/
theorem Inserted.waiting {dialect : Dialect} {ids known : Ids} {insertions : List Waiting}
    {inserted : List (Waiting × Written)} {log : List Event}
    (inserts : Inserted dialect ids insertions inserted known log) :
    inserted.map Prod.fst = insertions := by
  induction inserts with
  | nil ids => rfl
  | known found later ih => rw [List.map_cons, ih]
  | generated found later ih => rw [List.map_cons, ih]

/-- The log of setting columns of a row; without columns nothing is sent. -/
def updateLog (dialect : Dialect) (mapping : Mapping) (columns : List (String × Value))
    (id : Int64) : List Event :=
  if columns.isEmpty then [] else [.executed (Statement.update dialect mapping columns id)]

inductive Completed (dialect : Dialect) (ids : Ids) :
    List (Waiting × Written) → List Written → List Event → Prop where
  | nil : Completed dialect ids [] [] []
  | cons {waiting : Waiting} {written : Written} {rest : List (Waiting × Written)}
      {later : List Written} {log : List Event} :
      Completed dialect ids rest later log →
      Completed dialect ids ((waiting, written) :: rest)
        ({ written with
            row := written.row.update (Assignment.columns ids waiting.postponed) } :: later)
        (updateLog dialect waiting.planned.mapping (Assignment.columns ids waiting.postponed)
          written.id ++ log)

inductive RowBefore (dialect : Dialect) (content : Instance) : Row → List Event → Prop where
  | held {row : Row} : content.row = some row → RowBefore dialect content row []
  | fetched {row : Row} {rows : List Row} {id : Int64} :
      content.row = none → content.key.id = some id → rows.head? = some row →
      RowBefore dialect content row
        [.answered (Statement.selectById dialect content.mapping id) rows]

/-- Changed instances are updated in order, the others are passed over. -/
inductive Updated (dialect : Dialect) (ids : Ids) :
    List PlannedNode → List Written → List Event → Prop where
  | nil : Updated dialect ids [] [] []
  | skipped {planned : PlannedNode} {rest : List PlannedNode} {later : List Written}
      {log : List Event} :
      ¬(planned.content.state = .dirty ∧ planned.content.key.id.isSome) →
      Updated dialect ids rest later log → Updated dialect ids (planned :: rest) later log
  | changed {planned : PlannedNode} {rest : List PlannedNode} {id : Int64} {old : Row}
      {later : List Written} {fetchLog log : List Event} :
      planned.content.state = .dirty → planned.content.key.id = some id →
      RowBefore dialect planned.content old fetchLog → Updated dialect ids rest later log →
      Updated dialect ids (planned :: rest)
        (⟨planned, id, old.update (Assignment.columns ids planned.assignments), some old⟩ :: later)
        (fetchLog ++ updateLog dialect planned.mapping
          (changedColumns old (Assignment.columns ids planned.assignments)) id ++ log)

structure Writing (dialect : Dialect) (plan : List PlannedNode) where
  drawn : Ids
  inserted : List (Waiting × Written)
  /-- All ids that are known once everything is inserted. -/
  known : Ids
  completed : List Written
  changed : List Written
  drawLog : List Event
  insertLog : List Event
  completeLog : List Event
  changeLog : List Event
  draws : Drawn dialect plan drawn drawLog
  free : (Schedule.ofPlan ((plan.filterMap PlannedNode.id? ++ drawn).map Prod.fst) plan).stuck = []
  inserts : Inserted dialect (plan.filterMap PlannedNode.id? ++ drawn)
    (Schedule.ofPlan ((plan.filterMap PlannedNode.id? ++ drawn).map Prod.fst) plan).insertions
    inserted known insertLog
  completes : Completed dialect known inserted completed completeLog
  changes : Updated dialect known plan changed changeLog

namespace Writing

variable {dialect : Dialect} {plan : List PlannedNode}

def ids (writing : Writing dialect plan) : Ids :=
  plan.filterMap PlannedNode.id? ++ writing.drawn

def schedule (writing : Writing dialect plan) : Schedule :=
  Schedule.ofPlan (writing.ids.map Prod.fst) plan

def written (writing : Writing dialect plan) : List Written :=
  writing.completed ++ writing.changed

def log (writing : Writing dialect plan) : List Event :=
  writing.drawLog ++ (writing.insertLog ++ (writing.completeLog ++ writing.changeLog))

end Writing

/-! ### Statements that conform -/

structure PlannedNode.Tidy (planned : PlannedNode) : Prop where
  wellFormed : planned.mapping.WellFormed
  columns : (planned.assignments.map Assignment.column).Sublist
    (planned.mapping.properties.filterMap Property.column?)
  names : (planned.assignments.map Assignment.property).Sublist
    (planned.mapping.properties.map Property.name)

structure PlannedNode.Fit (fits : Mapping → Prop) (planned : PlannedNode) : Prop where
  tidy : planned.Tidy
  fits : fits planned.mapping

namespace PlannedNode.Tidy

variable {planned : PlannedNode}

theorem distinct (tidy : planned.Tidy) :
    ((planned.mapping.id.column :: planned.assignments.map Assignment.column).map
      Text.lower).Nodup :=
  ((tidy.columns.cons_cons planned.mapping.id.column).map Text.lower).nodup
    tidy.wellFormed.distinctColumns

theorem mem_columns (tidy : planned.Tidy) {assignment : Assignment}
    (member : assignment ∈ planned.assignments) :
    assignment.column ∈ planned.mapping.properties.filterMap Property.column? :=
  tidy.columns.subset (List.mem_map_of_mem member)

theorem lower_ne_id (tidy : planned.Tidy) {assignment : Assignment}
    (member : assignment ∈ planned.assignments) :
    Text.lower assignment.column ≠ Text.lower planned.mapping.id.column := by
  intro same
  have distinct := tidy.distinct
  rw [List.map_cons, List.nodup_cons] at distinct
  apply distinct.1
  rw [← same, List.map_map]
  exact List.mem_map_of_mem (f := Text.lower ∘ Assignment.column) member

theorem distinct_map (tidy : planned.Tidy) {picked : List Assignment}
    (sublist : picked.Sublist planned.assignments) (value : Assignment → Value) :
    Row.Distinct (picked.map fun assignment => (assignment.column, value assignment)) := by
  have distinct := tidy.distinct
  rw [List.map_cons, List.nodup_cons] at distinct
  have chosen := ((sublist.map Assignment.column).map Text.lower).nodup distinct.2
  unfold Row.Distinct
  rw [List.map_map] at chosen ⊢
  exact chosen

end PlannedNode.Tidy

/-- The columns of an insertion are different columns of the mapping, and the one of the
id, if it is given, has an integer. -/
theorem Waiting.columns_ok {waiting : Waiting}
    (tidy : waiting.planned.Tidy) (ids : Ids) :
    Row.Distinct (waiting.columns ids) ∧
      (∀ entry ∈ waiting.columns ids, entry.1 ∈ waiting.planned.mapping.columns) ∧
      ∀ entry ∈ waiting.columns ids, entry.1 = waiting.planned.mapping.id.column →
        ∃ id, entry.2 = .integer id := by
  have distinct := tidy.distinct
  rw [List.map_cons, List.nodup_cons] at distinct
  have plain := tidy.distinct_map (List.Sublist.refl _) fun assignment =>
    if waiting.deferred.contains assignment.property then Value.null
    else assignment.source.resolve ids
  have notId : ∀ assignment ∈ waiting.planned.assignments,
      assignment.column ≠ waiting.planned.mapping.id.column :=
    fun assignment member same => tidy.lower_ne_id member (by rw [same])
  unfold Waiting.columns
  simp only
  cases ids.lookup waiting.planned.place with
  | none =>
      refine ⟨plain, ?_, ?_⟩
      · intro entry member
        obtain ⟨assignment, isAssignment, rfl⟩ := List.mem_map.mp member
        exact List.mem_cons_of_mem _ (tidy.mem_columns isAssignment)
      · intro entry member same
        obtain ⟨assignment, isAssignment, rfl⟩ := List.mem_map.mp member
        exact absurd same (notId assignment isAssignment)
  | some id =>
      simp only [Option.map_some, Option.toList_some, List.singleton_append]
      refine ⟨?_, ?_, ?_⟩
      · unfold Row.Distinct
        rw [List.map_cons, List.nodup_cons]
        refine ⟨?_, plain⟩
        intro again
        obtain ⟨entry, member, same⟩ := List.mem_map.mp again
        obtain ⟨assignment, isAssignment, rfl⟩ := List.mem_map.mp member
        exact tidy.lower_ne_id isAssignment same
      · intro entry member
        rcases List.mem_cons.mp member with rfl | isLater
        · exact List.mem_cons_self
        · obtain ⟨assignment, isAssignment, rfl⟩ := List.mem_map.mp isLater
          exact List.mem_cons_of_mem _ (tidy.mem_columns isAssignment)
      · intro entry member same
        rcases List.mem_cons.mp member with rfl | isLater
        · exact ⟨id, rfl⟩
        · obtain ⟨assignment, isAssignment, rfl⟩ := List.mem_map.mp isLater
          exact absurd same (notId assignment isAssignment)

theorem Waiting.id_mem_columns {waiting : Waiting} {ids : Ids} {id : Int64}
    (found : ids.lookup waiting.planned.place = some id) :
    (waiting.planned.mapping.id.column, .integer id) ∈ waiting.columns ids := by
  unfold Waiting.columns
  apply List.mem_append_left
  simp [found]

theorem Waiting.immediate_mem_columns {waiting : Waiting} (ids : Ids) {assignment : Assignment}
    (member : assignment ∈ waiting.planned.assignments)
    (immediate : assignment.property ∉ waiting.deferred) :
    (assignment.column, assignment.source.resolve ids) ∈ waiting.columns ids := by
  unfold Waiting.columns
  apply List.mem_append_right
  refine List.mem_map.mpr ⟨assignment, member, ?_⟩
  simp [immediate]

theorem Waiting.insert_conforms {fits : Mapping → Prop} (dialect : Dialect) {waiting : Waiting}
    (fit : waiting.planned.Fit fits) (ids : Ids) :
    (Statement.insert dialect waiting.planned.mapping (waiting.columns ids)).Conforms fits := by
  obtain ⟨distinct, known, integral⟩ := waiting.columns_ok fit.tidy ids
  exact .insert dialect fit.fits distinct known integral

theorem PlannedNode.Fit.update_conforms {fits : Mapping → Prop} (dialect : Dialect)
    {planned : PlannedNode} (fit : planned.Fit fits) {columns : List (String × Value)}
    {picked : List Assignment} {ids : Ids} (chosen : picked.Sublist planned.assignments)
    (sublist : columns.Sublist (Assignment.columns ids picked)) (id : Int64) :
    (Statement.update dialect planned.mapping columns id).Conforms fits := by
  refine .update dialect id fit.fits ?_ ?_
  · exact (sublist.map _).nodup (fit.tidy.distinct_map chosen fun assignment =>
      assignment.source.resolve ids)
  · intro entry member
    obtain ⟨assignment, isAssignment, rfl⟩ := List.mem_map.mp (sublist.subset member)
    exact fit.tidy.mem_columns (chosen.subset isAssignment)

namespace Store

variable {World : Type} {session : Session World} {fits : Mapping → Prop} {lease : LeaseId}

/-! ### The four passes -/

private theorem asks_drawId (sequence : String) :
    Asks session.database (Question.Issued fits true) lease (drawId session lease sequence)
      fun _ log => ∃ statement rows,
        Statement.nextValue? session.dialect sequence = some statement ∧
          log = [.answered statement rows] := by
  unfold drawId
  cases next : Statement.nextValue? session.dialect sequence with
  | none =>
      have asksNothing : Asks session.database (Question.Issued fits true) lease
          (pure [] : Operation World (List Row)) fun rows _ => rows = [] := asks_pure rfl
      refine asks_bind asksNothing ?_
      intro rows log same
      subst same
      exact asks_throw
  | some statement =>
      have isDraw : statement.request = .nextValue ⟨none, sequence⟩ := by
        obtain ⟨text, _, rfl⟩ := Option.map_eq_some_iff.mp next
        rfl
      refine asks_bind (asks_query (.nextValue _ isDraw) fun rows => rfl) ?_
      intro rows log same
      subst same
      beta_reduce
      split
      · exact asks_pure ⟨statement, rows, rfl, rfl⟩
      · exact asks_throw

private theorem asks_drawIds (plan : List PlannedNode) :
    Asks session.database (Question.Issued fits true) lease (drawIds session lease plan)
      (Drawn session.dialect plan) := by
  induction plan with
  | nil => exact asks_pure .nil
  | cons planned rest ih =>
      unfold drawIds
      cases sequenced : planned.sequence? session.dialect with
      | none => exact ih.weaken fun ids log drawn => .without sequenced drawn
      | some sequence =>
          refine asks_bind (asks_drawId sequence) ?_
          rintro id log ⟨statement, rows, next, rfl⟩
          refine asks_bind ih fun ids later drawn => asks_pure ?_
          rw [List.append_nil]
          exact .drawn sequenced next drawn

private theorem asks_insert {waiting : Waiting} (fit : waiting.planned.Fit fits) (ids : Ids)
    {gives : Written → List Event → Prop}
    (known : ∀ id, ids.lookup waiting.planned.place = some id →
      gives ⟨waiting.planned, id, Row.ofList (waiting.columns ids), none⟩
        [.executed (Statement.insert session.dialect waiting.planned.mapping (waiting.columns ids))])
    (generated : ∀ id, ids.lookup waiting.planned.place = none →
      gives ⟨waiting.planned, id, Row.ofList (waiting.columns ids
          ++ [(waiting.planned.mapping.id.column, .integer id)]), none⟩
        [.executed (Statement.insert session.dialect waiting.planned.mapping (waiting.columns ids)),
          .generated id]) :
    Asks session.database (Question.Issued fits true) lease (insert session lease ids waiting) gives := by
  unfold insert
  refine asks_bind (asks_execute (waiting.insert_conforms session.dialect fit ids)
    fun _ => rfl) ?_
  intro affected log same
  subst same
  cases found : ids.lookup waiting.planned.place with
  | some id => exact asks_pure (known id found)
  | none =>
      refine asks_bind (asks_lastInsertId fun id => rfl) ?_
      intro id later same
      subst same
      exact asks_pure (generated id found)

private theorem asks_insertAll {insertions : List Waiting}
    (fit : ∀ waiting ∈ insertions, waiting.planned.Fit fits) (ids : Ids) :
    Asks session.database (Question.Issued fits true) lease (insertAll session lease insertions ids)
      fun result log => Inserted session.dialect ids insertions result.1 result.2 log := by
  induction insertions generalizing ids with
  | nil => exact asks_pure (.nil ids)
  | cons waiting rest ih =>
      have fitRest : ∀ other ∈ rest, other.planned.Fit fits :=
        fun other member => fit other (List.mem_cons_of_mem waiting member)
      have asksFirst : Asks session.database (Question.Issued fits true) lease
          (insert session lease ids waiting) fun written log => ∀ inserted known later,
            Inserted session.dialect ((waiting.planned.place, written.id) :: ids) rest inserted
              known later →
            Inserted session.dialect ids (waiting :: rest) ((waiting, written) :: inserted) known
              (log ++ later) :=
        asks_insert (fit waiting List.mem_cons_self) ids
          (fun id found inserted known later insertedLater => .known found insertedLater)
          (fun id found inserted known later insertedLater => .generated found insertedLater)
      unfold insertAll
      refine asks_bind asksFirst ?_
      intro written log extend
      refine asks_bind (ih fitRest _) fun result later insertedLater => asks_pure ?_
      rw [List.append_nil]
      exact extend _ _ _ insertedLater

private theorem asks_update {planned : PlannedNode} (fit : planned.Fit fits)
    {columns : List (String × Value)} {picked : List Assignment} {ids : Ids}
    (chosen : picked.Sublist planned.assignments)
    (sublist : columns.Sublist (Assignment.columns ids picked)) (id : Int64) :
    Asks session.database (Question.Issued fits true) lease
      (update session lease planned.mapping columns id)
      fun _ log => log = updateLog session.dialect planned.mapping columns id := by
  unfold update updateLog
  cases empty : columns.isEmpty with
  | true => exact asks_pure rfl
  | false =>
      refine asks_bind (asks_execute
        (fit.update_conforms session.dialect chosen sublist id) fun _ => rfl) ?_
      intro affected log same
      subst same
      exact asks_pure rfl

private theorem asks_completeAll {inserted : List (Waiting × Written)}
    (fit : ∀ entry ∈ inserted, entry.1.planned.Fit fits) (ids : Ids) :
    Asks session.database (Question.Issued fits true) lease (completeAll session lease ids inserted)
      (Completed session.dialect ids inserted) := by
  induction inserted with
  | nil => exact asks_pure .nil
  | cons entry rest ih =>
      obtain ⟨waiting, written⟩ := entry
      unfold completeAll
      refine asks_bind (asks_update (fit _ List.mem_cons_self) List.filter_sublist
        (List.Sublist.refl _) written.id) ?_
      intro _ log same
      subst same
      refine asks_bind (ih fun other member => fit other (List.mem_cons_of_mem _ member)) ?_
      intro later laterLog completed
      refine asks_pure ?_
      rw [List.append_nil]
      exact .cons completed

theorem asks_fetchRow {writes : Bool} {mapping : Mapping} (isFit : fits mapping) (key : Key)
    {gives : Option Row → List Event → Prop} (without : key.id = none → gives none [])
    (found : ∀ id rows, key.id = some id →
      gives rows.head? [.answered (Statement.selectById session.dialect mapping id) rows]) :
    Asks session.database (Question.Issued fits writes) lease (fetchRow session lease mapping key)
      gives := by
  unfold fetchRow
  cases keyed : key.id with
  | none => exact asks_pure (without keyed)
  | some id =>
      refine asks_bind (asks_query (.selectById session.dialect id isFit) fun rows => rfl) ?_
      intro rows log same
      subst same
      exact asks_pure (found id rows keyed)

private theorem asks_rowBefore {content : Instance} (isFit : fits content.mapping) :
    Asks session.database (Question.Issued fits true) lease (rowBefore session lease content)
      (RowBefore session.dialect content) := by
  unfold rowBefore
  cases held : content.row with
  | some row => exact asks_pure (.held held)
  | none =>
      have asksFetch : Asks session.database (Question.Issued fits true) lease
          (fetchRow session lease content.mapping content.key) fun fetched log =>
            ∀ row, fetched = some row → RowBefore session.dialect content row log :=
        asks_fetchRow isFit content.key (fun _ row missing => by cases missing)
          fun id rows keyed row found => .fetched held keyed found
      refine asks_bind asksFetch ?_
      intro fetched log before
      cases fetched with
      | none => exact asks_throw
      | some row =>
          refine asks_pure ?_
          rw [List.append_nil]
          exact before row rfl

private theorem asks_updateAll {plan : List PlannedNode}
    (fit : ∀ planned ∈ plan, planned.content.needsWrite = true → planned.Fit fits)
    (ids : Ids) :
    Asks session.database (Question.Issued fits true) lease (updateAll session lease ids plan)
      (Updated session.dialect ids plan) := by
  induction plan with
  | nil => exact asks_pure .nil
  | cons planned rest ih =>
      have asksRest := ih fun other member => fit other (List.mem_cons_of_mem planned member)
      unfold updateAll
      split
      · rename_i id dirty keyed
        have fitHere : planned.Fit fits :=
          fit planned List.mem_cons_self (by simp [Instance.needsWrite, dirty])
        refine asks_bind (asks_rowBefore fitHere.fits) ?_
        intro old fetchLog before
        refine asks_bind (asks_update fitHere (List.Sublist.refl _) List.filter_sublist id) ?_
        intro _ log same
        subst same
        refine asks_bind asksRest fun later laterLog updated => asks_pure ?_
        rw [List.append_nil, ← List.append_assoc]
        exact .changed dirty keyed before updated
      · rename_i other
        refine asksRest.weaken fun later log updated => .skipped ?_ updated
        rintro ⟨dirty, hasId⟩
        obtain ⟨id, keyed⟩ := Option.isSome_iff_exists.mp hasId
        exact other id dirty keyed

/-- The whole work of a save: when it succeeds, the plan has been carried out. -/
theorem asks_writeAll {plan : List PlannedNode}
    (fit : ∀ planned ∈ plan, planned.content.needsWrite = true → planned.Fit fits) :
    Asks session.database (Question.Issued fits true) lease (writeAll session lease plan)
      fun written log => ∃ writing : Writing session.dialect plan,
        written = writing.written ∧ log = writing.log := by
  unfold writeAll
  refine asks_bind (asks_drawIds plan) ?_
  intro drawn drawLog draws
  have fitWaiting : ∀ waiting ∈ (Schedule.ofPlan
      ((plan.filterMap PlannedNode.id? ++ drawn).map Prod.fst) plan).insertions,
      waiting.planned.Fit fits := by
    intro waiting member
    obtain ⟨isPlanned, isNew⟩ := List.mem_filter.mp (Schedule.planned_of_mem member)
    have transient : waiting.planned.content.state = .transient := of_decide_eq_true isNew
    exact fit _ isPlanned (by simp [Instance.needsWrite, transient])
  refine asks_bind (asks_insertAll fitWaiting _) ?_
  rintro ⟨inserted, known⟩ insertLog inserts
  by_cases free : (Schedule.ofPlan
      ((plan.filterMap PlannedNode.id? ++ drawn).map Prod.fst) plan).stuck = []
  case neg =>
    have asksStuck : Asks session.database (Question.Issued fits true) lease
        (throw (.integrity (.referenceCycle ((Schedule.ofPlan
          ((plan.filterMap PlannedNode.id? ++ drawn).map Prod.fst) plan).circle plan))) :
          Operation World PUnit) fun _ _ => False := asks_throw
    simp only [List.isEmpty_eq_false_iff.mpr free, Bool.not_false, ↓reduceIte]
    exact asks_bind asksStuck fun _ _ impossible => impossible.elim
  simp only [free, List.isEmpty_nil, Bool.not_true, Bool.false_eq_true, ↓reduceIte]
  have fitInserted : ∀ entry ∈ inserted, entry.1.planned.Fit fits := by
    intro entry member
    exact fitWaiting _ (inserts.waiting ▸ List.mem_map_of_mem member)
  refine asks_bind (asks_completeAll fitInserted known) ?_
  intro completed completeLog completes
  refine asks_bind (asks_updateAll fit known) ?_
  intro changed changeLog changes
  refine asks_pure ?_
  refine ⟨⟨drawn, inserted, known, completed, changed, drawLog, insertLog, completeLog,
    changeLog, draws, free, inserts, completes, changes⟩, rfl, ?_⟩
  simp [Writing.log]

end Store

end EntityStore
