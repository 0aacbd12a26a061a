/-
What is shown and what a database holds. If all rows that are shown before a task agree with
the contents then, those that the effects of the task leave to be shown agree with the
contents after it. A save must know of every changed instance no row or the current one, and
no other changed instance of the same row.
-/

import EntityStore.Proofs.CachedRows
import EntityStore.Proofs.KeyedRows
import EntityStore.Proofs.Queries
import EntityStore.Proofs.Stages

set_option autoImplicit false

namespace EntityStore

namespace Layout

def Separates (layout : Layout) (registered : Mapping → Prop) : Prop :=
  ∀ first second, registered first → registered second →
    layout.tableOf first = layout.tableOf second → first = second

def Held (layout : Layout) (registered : Mapping → Prop) (contents : Contents) (key : Key)
    (row : Row) : Prop :=
  ∃ mapping id fields, registered mapping ∧ key = Key.withId mapping.entity id ∧
    contents.row (layout.tableOf mapping, id) = some fields ∧ layout.Agrees mapping row fields

def Reflects (layout : Layout) (registered : Mapping → Prop) (contents : Contents)
    (shown : Showing) : Prop :=
  ∀ key row, shown key row → layout.Held registered contents key row

variable {layout : Layout} {registered : Mapping → Prop} {before after contents : Contents}
  {shown : Showing}

theorem Separates.mono {fewer : Mapping → Prop} (separates : layout.Separates registered)
    (sub : ∀ mapping, fewer mapping → registered mapping) : layout.Separates fewer :=
  fun first second isFirst isSecond => separates first second (sub first isFirst)
    (sub second isSecond)

theorem Held.keep {key : Key} {row : Row} (held : layout.Held registered before key row)
    (kept : ∀ mapping id, registered mapping → key = Key.withId mapping.entity id →
      before.row (layout.tableOf mapping, id) ≠ none →
      after.row (layout.tableOf mapping, id) = before.row (layout.tableOf mapping, id)) :
    layout.Held registered after key row := by
  obtain ⟨mapping, id, fields, isRegistered, rfl, found, agrees⟩ := held
  refine ⟨mapping, id, fields, isRegistered, rfl, ?_, agrees⟩
  rw [kept mapping id isRegistered rfl (by simp [found]), found]

theorem Separates.address_ne (separates : layout.Separates registered) {first second : Mapping}
    {firstId secondId : Int64} (isFirst : registered first) (isSecond : registered second)
    (different : Key.withId first.entity firstId ≠ Key.withId second.entity secondId) :
    (layout.tableOf first, firstId) ≠ (layout.tableOf second, secondId) := by
  intro same
  obtain rfl := separates first second isFirst isSecond (congrArg Prod.fst same)
  obtain rfl : firstId = secondId := congrArg Prod.snd same
  exact different rfl

/-- A row with columns set agrees with the one in which those were written that differ. -/
theorem Agrees.update {mapping : Mapping} (wellFormed : mapping.WellFormed) {old : Row}
    {fields : Fields} (agrees : layout.Agrees mapping old fields)
    {columns : List (String × Value)} (distinct : Row.Distinct columns)
    (known : ∀ entry ∈ columns, entry.1 ∈ mapping.columns) :
    layout.Agrees mapping (old.update columns)
      (layout.write (changedColumns old columns) fields) := by
  intro column member
  obtain ⟨value, found, agree⟩ := agrees column member
  by_cases isSet : ∃ entry ∈ columns, Text.lower entry.1 = Text.lower column
  · obtain ⟨entry, isEntry, same⟩ := isSet
    obtain rfl : entry.1 = column :=
      List.inj_on_of_nodup_map wellFormed.distinctColumns (known entry isEntry) member same
    refine ⟨entry.2, Row.get?_update_of_mem old distinct isEntry, ?_⟩
    rcases layout.write_changedColumns distinct fields isEntry with
      stored | ⟨unchanged, other, isOld, isSame⟩
    · exact .of_stored stored
    · rw [found] at isOld
      cases isOld
      rw [unchanged]
      exact agree.of_same isSame
  · have apart : ∀ entry ∈ columns, Text.lower entry.1 ≠ Text.lower column :=
      fun entry isEntry same => isSet ⟨entry, isEntry, same⟩
    refine ⟨value, ?_, ?_⟩
    · rw [Row.get?_update_of_lower_ne old columns fun entry isEntry => (apart entry isEntry).symm,
        found]
    · rw [Layout.write_of_not_mem]
      · exact agree
      · intro entry isChanged same
        exact apart entry (mem_changedColumns.mp isChanged).1 (layout.lower_of_column same)

end Layout

/-! ### Saves -/

/-- What holds of the plan of a graph: its instances are different ones, those that are
written are fit, and every column of a new one is planned. -/
structure Task.SavesWhole (registered : Mapping → Prop) (plan : List PlannedNode) : Prop where
  distinct : plan.Nodup
  fit : ∀ planned ∈ plan, planned.content.needsWrite = true → planned.Fit registered
  whole : ∀ planned ∈ plan, planned.isNew = true →
    ∀ column ∈ planned.mapping.properties.filterMap Property.column?,
      ∃ assignment ∈ planned.assignments, assignment.column = column

structure Task.SavesCurrent (layout : Layout) (contents : Contents) (plan : List PlannedNode) :
    Prop where
  current : ∀ planned ∈ plan, planned.content.state = .dirty → ∀ row id,
    planned.content.row = some row → planned.content.key.id = some id →
    ∃ fields, contents.row (layout.address planned id) = some fields ∧
      layout.Agrees planned.mapping row fields
  sole : ∀ first ∈ plan, ∀ second ∈ plan, ∀ address,
    first.Touches layout address → second.Touches layout address → first = second

variable {layout : Layout} {registered : Mapping → Prop} {dialect : Dialect} {shown : Showing}

theorem Task.SavesCurrent.agrees {plan : List PlannedNode} {planned : PlannedNode} {id : Int64}
    {contents : Contents} {old : Row} (careful : Task.SavesCurrent layout contents plan)
    (member : planned ∈ plan) (dirty : planned.content.state = .dirty)
    (keyed : planned.content.key.id = some id)
    (isOld : OldRow layout.Answers dialect planned id
      (contents.row (layout.address planned id)) (layout.address planned id) old) :
    ∃ fields, contents.row (layout.address planned id) = some fields ∧
      layout.Agrees planned.mapping old fields := by
  cases isOld with
  | held isRow => exact careful.current planned member dirty old id isRow keyed
  | fetched _ first truthful same =>
      rcases Layout.answers_selectById truthful with ⟨_, rfl⟩ | ⟨fields, row, found, rfl, shown⟩
      · cases first
      · cases first
        exact ⟨fields, same.symm.trans found, .of_shows shown⟩

theorem Task.SavesCurrent.rest {planned : PlannedNode} {rest : List PlannedNode} {id : Int64}
    {before : Contents} (careful : Task.SavesCurrent layout before (planned :: rest))
    (fresh : planned ∉ rest) (touches : planned.Touches layout (layout.address planned id))
    (edit : Fields → Fields) :
    Task.SavesCurrent layout (before.change (layout.tableOf planned.mapping) id edit) rest := by
  refine ⟨fun other member dirty row otherId isRow keyed => ?_, fun first isFirst second isSecond =>
    careful.sole first (List.mem_cons_of_mem planned isFirst) second
      (List.mem_cons_of_mem planned isSecond)⟩
  obtain ⟨fields, found, agrees⟩ :=
    careful.current other (List.mem_cons_of_mem planned member) dirty row otherId isRow keyed
  have apart : layout.address other otherId ≠ layout.address planned id := by
    intro equal
    have isSame := careful.sole other (List.mem_cons_of_mem planned member) planned
      List.mem_cons_self _ ⟨dirty, otherId, keyed, equal⟩ touches
    exact fresh (isSame ▸ member)
  exact ⟨fields, (before.row_change_of_ne edit apart).trans found, agrees⟩

theorem Updated.reflects {ids : Ids} {plan : List PlannedNode} {changed : List Written}
    {log : List Event} (updates : Updated dialect ids plan changed log) {before after : Ledger}
    (replays : Ledger.Replays layout layout.Answers before log after)
    (separates : layout.Separates registered) (distinct : plan.Nodup)
    (fit : ∀ planned ∈ plan, planned.content.state = .dirty → planned.Fit registered)
    (careful : Task.SavesCurrent layout before.contents plan)
    (reflects : layout.Reflects registered before.contents shown) :
    layout.Reflects registered after.contents
      (alterAll (changed.map fun one => .put one.key one.row) shown) := by
  -- The induction is on the changed instances in order: each is the only one of its row, so that
  -- the others know theirs as before.
  induction updates generalizing before shown with
  | nil =>
      cases replays
      exact reflects
  | @skipped planned rest _ _ _ _ ih =>
      refine ih replays (List.nodup_cons.mp distinct).2
        (fun other member => fit other (List.mem_cons_of_mem planned member)) ⟨?_, ?_⟩ reflects
      · exact fun other member => careful.current other (List.mem_cons_of_mem planned member)
      · exact fun first isFirst second isSecond =>
          careful.sole first (List.mem_cons_of_mem planned isFirst) second
            (List.mem_cons_of_mem planned isSecond)
  | @changed planned rest id old later fetchLog log dirty keyed isBefore _ ih =>
      obtain ⟨fresh, distinctRest⟩ := List.nodup_cons.mp distinct
      have fitHere := fit planned List.mem_cons_self dirty
      rw [List.append_assoc] at replays
      obtain ⟨isOld, replaysUpdate⟩ := isBefore.oldRow keyed replays (layout.address planned id)
      obtain ⟨between, same, replaysLater⟩ := replays_updateLog replaysUpdate
      obtain ⟨fields, isThere, agrees⟩ := careful.agrees List.mem_cons_self dirty keyed isOld
      refine ih replaysLater distinctRest
        (fun other member => fit other (List.mem_cons_of_mem planned member)) ?_ ?_
      · rw [same]
        exact careful.rest fresh ⟨dirty, id, keyed, rfl⟩ _
      · intro key row isShown
        rw [same]
        rcases isShown with ⟨rfl, rfl⟩ | ⟨different, was⟩
        · refine ⟨planned.mapping, id, _, fitHere.fits, rfl,
            (before.contents.row_change_self _ _).trans (congrArg (Option.map _) isThere),
            agrees.update fitHere.tidy.wellFormed
              (fitHere.tidy.distinct_map (List.Sublist.refl _) _) ?_⟩
          intro entry member
          obtain ⟨assignment, isAssignment, rfl⟩ := List.mem_map.mp member
          exact List.mem_cons_of_mem _ (fitHere.tidy.mem_columns isAssignment)
        · refine (reflects key row was).keep ?_
          rintro mapping otherId isRegistered rfl _
          -- A key that differs stands for another row, and this one is not changed.
          exact before.contents.row_change_of_ne _
            (separates.address_ne isRegistered fitHere.fits (different rfl))

namespace Writing

variable {plan : List PlannedNode} {writing : Writing dialect plan}

/-- What was inserted is held once the insertions are complete. -/
theorem held_of_completed {before settled : Contents}
    (settles : writing.Settled layout before settled)
    (sound : Task.SavesWhole registered plan) {one : Written}
    (isCompleted : one ∈ writing.completed) : layout.Held registered settled one.key one.row := by
  obtain ⟨entry, isInserted, same, sameId, gives⟩ := writing.gives_of_completed
    (fun planned member needed => (sound.fit planned member needed).tidy) isCompleted
  obtain ⟨isPlanned, isNew⟩ := writing.planned_of_inserted isInserted
  obtain ⟨fields, present, holds⟩ := settles.holds entry isInserted
  rw [← same] at isPlanned isNew present holds
  rw [← sameId] at present holds
  have transient : one.planned.content.state = .transient := of_decide_eq_true isNew
  have needed : one.planned.content.needsWrite = true := by simp [Instance.needsWrite, transient]
  refine ⟨one.planned.mapping, one.id, fields, (sound.fit _ isPlanned needed).fits, rfl, present,
    ?_⟩
  intro column member
  rcases List.mem_cons.mp member with rfl | isProperty
  · refine ⟨_, gives.id, Or.inl ?_⟩
    rw [holds.id]
    exact .refl _
  · obtain ⟨assignment, isAssignment, rfl⟩ := sound.whole _ isPlanned isNew column isProperty
    exact ⟨_, gives.assigned assignment isAssignment,
      .of_stored (holds.assigned assignment isAssignment)⟩

private theorem reflects_completed {before settled : Contents}
    (settles : writing.Settled layout before settled)
    (sound : Task.SavesWhole registered plan)
    (reflects : layout.Reflects registered before shown) :
    layout.Reflects registered settled
      (alterAll (writing.completed.map fun one => .put one.key one.row) shown) := by
  intro key row isShown
  rcases alterAll_puts isShown with ⟨one, isCompleted, rfl, rfl⟩ | ⟨was, _⟩
  · exact held_of_completed settles sound isCompleted
  · refine (reflects key row was).keep fun mapping id _ _ present => ?_
    refine settles.frame _ fun entry isInserted same => present ?_
    rw [← same]
    exact settles.absent entry isInserted

/-- The insertions leave the rows of changed instances. -/
theorem savesCurrent_settled {before settled : Contents}
    (settles : writing.Settled layout before settled)
    (careful : Task.SavesCurrent layout before plan) : Task.SavesCurrent layout settled plan := by
  refine ⟨fun planned member dirty row id isRow keyed => ?_, careful.sole⟩
  obtain ⟨fields, found, agrees⟩ := careful.current planned member dirty row id isRow keyed
  refine ⟨fields, ?_, agrees⟩
  rw [settles.frame _ fun entry isInserted same => ?_, found]
  have absent := settles.absent entry isInserted
  rw [same, found] at absent
  cases absent

/-- A save of instances that know current rows, each the only changed one of its row. -/
theorem reflects (writing : Writing dialect plan) {before after : Ledger}
    (replays : Ledger.Replays layout layout.Answers before writing.log after)
    (separates : layout.Separates registered) (sound : Task.SavesWhole registered plan)
    (careful : Task.SavesCurrent layout before.contents plan)
    (reflects : layout.Reflects registered before.contents shown) :
    layout.Reflects registered after.contents
      ((WriteSet.ofWritten writing.written).alter shown) := by
  obtain ⟨settled, settles, replaysChange⟩ := writing.exists_settled
    (fun planned member needed => (sound.fit planned member needed).tidy) replays
  unfold WriteSet.alter
  rw [WriteSet.effects_ofWritten, Writing.written, List.map_append, alterAll_append]
  exact writing.changes.reflects replaysChange separates sound.distinct
    (fun planned member dirty => sound.fit planned member (by simp [Instance.needsWrite, dirty]))
    (savesCurrent_settled settles careful) (reflects_completed settles sound reflects)

end Writing

/-! ### Tasks -/

def Task.Sound (registered : Mapping → Prop) : Task → Prop
  | save plan => Task.SavesWhole registered plan
  | removal content =>
      registered content.mapping ∧ content.key.entityType = content.mapping.entity
  | _ => True

theorem Task.Sound.mono {registered more : Mapping → Prop} {task : Task}
    (wider : ∀ mapping, registered mapping → more mapping) (sound : task.Sound registered) :
    task.Sound more := by
  cases task with
  | save plan =>
      refine ⟨sound.distinct, fun planned member needed => ?_, sound.whole⟩
      have fit := sound.fit planned member needed
      exact ⟨fit.tidy, wider _ fit.fits⟩
  | removal content => exact ⟨wider _ sound.1, sound.2⟩
  | _ => exact trivial

/-- What has to be seen to before a task: no table is dropped, and what is saved knows
current rows. -/
def Task.Careful (layout : Layout) (contents : Contents) : Task → Prop
  | save plan => Task.SavesCurrent layout contents plan
  | drop => False
  | _ => True

/-- A log keeps the contents whose statements do. -/
theorem Ledger.Replays.contents_eq {honest : Contents → Statement → List Row → Prop}
    {before after : Ledger} {log : List Event}
    (replays : Ledger.Replays layout honest before log after)
    (keeps : ∀ statement, .executed statement ∈ log → ∀ earlier later generated,
      layout.Executes statement earlier later generated → later = earlier) :
    after.contents = before.contents := by
  induction replays with
  | nil ledger => rfl
  | @cons _ _ _ event log step _ ih =>
      have later := ih fun statement member => keeps statement (List.mem_cons_of_mem event member)
      cases step with
      | executed executes => exact later.trans (keeps _ List.mem_cons_self _ _ _ executes)
      | answered _ => exact later
      | generated => exact later
      | lookedUp _ _ => exact later

theorem Event.Creates.keeps {statement : Statement}
    (creates : (Event.executed statement).Creates) {before after : Contents}
    {generated : Option Int64} (executes : layout.Executes statement before after generated) :
    after = before := by
  unfold Layout.Executes at executes
  rcases creates statement rfl with ⟨_, _, _, same⟩ | ⟨_, same⟩
  · rw [same] at executes
    exact executes.1
  · rw [same] at executes
    exact executes.1

/-- What was read is shown as it is kept, under the ids of its keys. -/
theorem Fetched.shows {entries : List (Key × Row)} {log : List Event}
    (fetched : Fetched dialect registered entries log) {before after : Ledger}
    (replays : Ledger.Replays layout layout.Answers before log after)
    (fits : ∀ mapping, registered mapping → layout.Fits mapping)
    (keyed : layout.Keyed before.contents) :
    ∀ entry ∈ entries, ∃ mapping id fields, registered mapping ∧
      entry.1 = Key.withId mapping.entity id ∧
      before.contents.row (layout.tableOf mapping, id) = some fields ∧
      layout.Shows mapping.columns fields entry.2 := by
  cases fetched with
  | nothing => exact fun _ impossible => by cases impossible
  | missing _ _ _ => exact fun _ impossible => by cases impossible
  | @row mapping id _ row isRegistered first =>
      obtain _ | ⟨step, _⟩ := replays
      obtain _ | truthful := step
      intro entry member
      rw [List.mem_singleton.mp member]
      rcases Layout.answers_selectById truthful with ⟨_, rfl⟩ | ⟨fields, _, found, rfl, shows⟩
      · cases first
      · cases first
        exact ⟨mapping, id, fields, isRegistered, rfl, found, shows⟩
  | @selected query _ _ rows _ isRegistered hydrated =>
      obtain _ | ⟨step, _⟩ := replays
      obtain _ | truthful := step
      have fit := fits _ isRegistered
      intro entry member
      obtain ⟨row, isRow, hydrates⟩ := Mapping.hydrateAll_ok fit.wellFormed hydrated entry member
      obtain ⟨id, isId, isKey⟩ := hydrates.key
      obtain ⟨other, fields, found, shows⟩ := truthful row isRow
      -- The row in which the answer was found is the one under the id that it shows.
      obtain rfl : other = id := by
        have shown := shows query.root.id.column List.mem_cons_self
        rw [isId, fit.keyed, keyed _ _ _ found] at shown
        cases shown
        rfl
      exact ⟨query.root, other, fields, isRegistered, isKey, found, hydrates.shows shows⟩

theorem Fetched.held {entries : List (Key × Row)} {log : List Event}
    (fetched : Fetched dialect registered entries log) {before after : Ledger}
    (replays : Ledger.Replays layout layout.Answers before log after)
    (fits : ∀ mapping, registered mapping → layout.Fits mapping)
    (keyed : layout.Keyed before.contents) :
    after.contents = before.contents ∧
      ∀ entry ∈ entries, layout.Held registered before.contents entry.1 entry.2 := by
  refine ⟨replays.contents_eq fun statement member => ?_, fun entry member => ?_⟩
  · cases fetched <;> simp at member
  · obtain ⟨mapping, id, fields, isRegistered, isKey, found, shows⟩ :=
      fetched.shows replays fits keyed entry member
    exact ⟨mapping, id, fields, isRegistered, isKey, found, .of_shows shows⟩

/-- A removal takes one row away. -/
theorem RowKnown.contents_eq {honest : Contents → Statement → List Row → Prop}
    {content : Instance} {id : Int64} {row : Option Row} {log : List Event}
    (known : RowKnown dialect content id row log) {before after : Ledger}
    (replays : Ledger.Replays layout honest before
      (log ++ [.executed (Statement.delete dialect content.mapping id)]) after) :
    after.contents = before.contents.set (layout.tableOf content.mapping) id none := by
  obtain ⟨between, replaysKnown, replaysDelete⟩ := replays.split
  have same : between.contents = before.contents := by
    refine replaysKnown.contents_eq fun statement member => ?_
    cases known <;> simp at member
  obtain _ | ⟨step, replaysNothing⟩ := replaysDelete
  cases replaysNothing
  obtain ⟨executes⟩ := step
  obtain ⟨rfl, _⟩ := Layout.executes_delete.mp executes
  rw [same]

/-- What is shown after a task is held, if what was shown before is. -/
theorem Task.Gives.reflects {task : Task} {writes : WriteSet} {log : List Event}
    (gives : task.Gives dialect registered writes log) {before after : Ledger}
    (replays : Ledger.Replays layout layout.Answers before log after)
    (fits : ∀ mapping, registered mapping → layout.Fits mapping)
    (separates : layout.Separates registered) (keyed : layout.Keyed before.contents)
    (sound : task.Sound registered) (careful : task.Careful layout before.contents)
    (reflects : layout.Reflects registered before.contents shown) :
    layout.Reflects registered after.contents (writes.alter shown) := by
  cases gives with
  | @read entries log fetched =>
      obtain ⟨same, held⟩ := fetched.held replays fits keyed
      intro key row isShown
      rw [same]
      rcases alterAll_fills isShown with isRead | was
      · exact held _ isRead
      · exact reflects key row was
  | sync creates =>
      rw [replays.contents_eq fun statement member _ _ _ =>
        (creates (.executed statement) member).keeps]
      exact reflects
  | drop _ => exact careful.elim
  | save writing => exact writing.reflects replays separates sound careful reflects
  | @removal content id row log isId known =>
      obtain ⟨isRegistered, isEntity⟩ := sound
      -- What is still shown has another key than the instance, so its row is not the deleted one.
      have isKey : content.key = Key.withId content.mapping.entity id := by
        rw [← isEntity, Key.withId, ← isId]
      unfold WriteSet.alter
      rw [WriteSet.effects_ofRemoval, known.contents_eq replays]
      rintro key row ⟨different, was⟩
      refine (reflects key row was).keep fun mapping other isOther isSame _ => ?_
      subst isSame
      rw [isKey] at different
      have apart := separates.address_ne isOther isRegistered different
      exact before.contents.set_of_ne _ fun both => apart (Prod.ext both.1 both.2)

end EntityStore
