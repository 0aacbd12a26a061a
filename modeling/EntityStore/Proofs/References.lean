/-
References between rows. A row refers to an owner if the column of a relation holds the id of
this owner. Where a save or a removal changes to which owners rows refer, it notes the keys of
all of them, those before and those afterwards, if what it writes knows the references that its
rows have in the database.
-/

import Mathlib.Data.List.Pairwise
import EntityStore.Proofs.LastingWrites

set_option autoImplicit false

namespace EntityStore

def Value.IsLink (value : Value) : Prop := value = .null ∨ ∃ id, value = .integer id

namespace Mapping

variable {mapping : Mapping} {relation : ObjectRelation}

theorem mem_objectRelations :
    relation ∈ mapping.objectRelations ↔ .object relation ∈ mapping.properties := by
  unfold objectRelations
  rw [List.mem_filterMap]
  constructor
  · rintro ⟨property, declared, same⟩
    cases property <;> cases same
    exact declared
  · exact fun declared => ⟨_, declared, rfl⟩

theorem column_mem_of_relation (declared : relation ∈ mapping.objectRelations) :
    relation.column ∈ mapping.columns :=
  List.mem_cons_of_mem _ (List.mem_filterMap.mpr ⟨_, mem_objectRelations.mp declared, rfl⟩)

theorem WellFormed.eq_of_column?_eq (wellFormed : mapping.WellFormed) {first second : Property}
    (isFirst : first ∈ mapping.properties) (isSecond : second ∈ mapping.properties)
    {column : String} (ofFirst : first.column? = some column)
    (ofSecond : second.column? = some column) : first = second := by
  have distinct : (mapping.properties.filterMap Property.column?).Nodup :=
    (List.nodup_cons.mp (List.Nodup.of_map _ wellFormed.distinctColumns)).2
  rw [List.Nodup, List.pairwise_filterMap] at distinct
  have symmetric : Std.Symm fun first second : Property => ∀ column, first.column? = some column →
      ∀ other, second.column? = some other → column ≠ other :=
    ⟨fun _ _ differ column isColumn other isOther => (differ other isOther column isColumn).symm⟩
  by_contra apart
  exact distinct.forall isFirst isSecond apart column ofFirst column ofSecond rfl

end Mapping

/-! ### What rows refer to -/

namespace Layout

def Refers (layout : Layout) (contents : Contents) (mapping : Mapping)
    (relation : ObjectRelation) (id owner : Int64) : Prop :=
  ∃ fields, contents.row (layout.tableOf mapping, id) = some fields ∧
    (fields (layout.column relation.column)).integer? = some owner

/-- All owners that the row under an id refers to are among the keys. -/
def Noted (layout : Layout) (keys : List Key) (contents : Contents) (mapping : Mapping)
    (id : Int64) : Prop :=
  ∀ relation ∈ mapping.objectRelations, ∀ owner,
    layout.Refers contents mapping relation id owner → Key.withId relation.target owner ∈ keys

def Linked (layout : Layout) (contents : Contents) (mapping : Mapping) (id : Int64) : Prop :=
  ∀ relation ∈ mapping.objectRelations, ∀ fields,
    contents.row (layout.tableOf mapping, id) = some fields →
    (fields (layout.column relation.column)).IsLink

def Related (layout : Layout) (registered : Mapping → Prop) (contents : Contents) : Prop :=
  ∀ mapping id, registered mapping → layout.Linked contents mapping id

structure Tracks (layout : Layout) (registered : Mapping → Prop) (keys : List Key)
    (before after : Contents) : Prop where
  refers : ∀ mapping, registered mapping → ∀ relation ∈ mapping.objectRelations, ∀ id owner,
    Key.withId relation.target owner ∉ keys →
    (layout.Refers after mapping relation id owner ↔
      layout.Refers before mapping relation id owner)
  related : layout.Related registered after

/-- An instance that knows a row knows to which owners the row refers in the contents. -/
def Recalls (layout : Layout) (contents : Contents) (content : Instance) : Prop :=
  ∀ row id, content.row = some row → content.key.id = some id →
    ∀ relation ∈ content.mapping.objectRelations, ∀ owner,
      layout.Refers contents content.mapping relation id owner →
      (row.get? relation.column).bind Value.integer? = some owner

section Rows

variable {layout : Layout} {registered : Mapping → Prop} {keys : List Key}
  {before between after contents : Contents} {mapping : Mapping} {id : Int64}

private theorem isLink_stored (nulls : layout.stored .null = .null) {value : Value}
    (link : value.IsLink) : (layout.stored value).IsLink := by
  rcases link with rfl | ⟨id, rfl⟩
  · exact Or.inl nulls
  · exact Or.inr ⟨id, layout.stored_integer id⟩

private theorem integer?_stored (nulls : layout.stored .null = .null) {value : Value}
    (link : value.IsLink) : (layout.stored value).integer? = value.integer? := by
  rcases link with rfl | ⟨id, rfl⟩
  · rw [nulls]
  · rw [layout.stored_integer]

private theorem noted_of_absent (absent : contents.row (layout.tableOf mapping, id) = none) :
    layout.Noted keys contents mapping id := by
  rintro relation _ owner ⟨fields, found, _⟩
  rw [absent] at found
  cases found

private theorem linked_of_absent (absent : contents.row (layout.tableOf mapping, id) = none) :
    layout.Linked contents mapping id := by
  intro relation _ fields found
  rw [absent] at found
  cases found

theorem Recalls.noted {content : Instance} (recalls : layout.Recalls contents content)
    {row : Row} (held : content.row = some row) (keyed : content.key.id = some id)
    (targets : ∀ key, content.mapping.Targets row key → key ∈ keys) :
    layout.Noted keys contents content.mapping id :=
  fun relation declared owner refers => targets _
    ⟨relation, declared, owner, recalls row id held keyed relation declared owner refers, rfl⟩

private theorem noted_of_shows {row : Row} {fields : Fields}
    (found : contents.row (layout.tableOf mapping, id) = some fields)
    (shown : layout.Shows mapping.columns fields row)
    (targets : ∀ key, mapping.Targets row key → key ∈ keys) :
    layout.Noted keys contents mapping id := by
  rintro relation declared owner ⟨other, isOther, refers⟩
  obtain rfl := Option.some.inj (found.symm.trans isOther)
  refine targets _ ⟨relation, declared, owner, ?_, rfl⟩
  rw [shown _ (Mapping.column_mem_of_relation declared)]
  exact refers

/-! ### Contents that are tracked -/

theorem Tracks.refl (related : layout.Related registered before) :
    layout.Tracks registered keys before before :=
  ⟨fun _ _ _ _ _ _ _ => Iff.rfl, related⟩

theorem Tracks.trans (first : layout.Tracks registered keys before between)
    (second : layout.Tracks registered keys between after) :
    layout.Tracks registered keys before after :=
  ⟨fun mapping isRegistered relation declared id owner unnoted =>
    (second.refers mapping isRegistered relation declared id owner unnoted).trans
      (first.refers mapping isRegistered relation declared id owner unnoted), second.related⟩

theorem Tracks.noted (tracks : layout.Tracks registered keys before after)
    (isRegistered : registered mapping) (noted : layout.Noted keys before mapping id) :
    layout.Noted keys after mapping id := by
  intro relation declared owner refers
  by_contra unnoted
  refine unnoted (noted relation declared owner ?_)
  exact (tracks.refers mapping isRegistered relation declared id owner unnoted).mp refers

private theorem tracks_of_rows (related : layout.Related registered before)
    (rows : ∀ mapping id, registered mapping →
      after.row (layout.tableOf mapping, id) = before.row (layout.tableOf mapping, id) ∨
        (layout.Noted keys before mapping id ∧ layout.Noted keys after mapping id ∧
          layout.Linked after mapping id)) : layout.Tracks registered keys before after := by
  constructor
  · intro mapping isRegistered relation declared id owner unnoted
    rcases rows mapping id isRegistered with same | ⟨noted, notedAfter, _⟩
    · unfold Refers
      rw [same]
    · exact ⟨fun refers => absurd (notedAfter relation declared owner refers) unnoted,
        fun refers => absurd (noted relation declared owner refers) unnoted⟩
  · intro mapping id isRegistered
    rcases rows mapping id isRegistered with same | ⟨_, _, linked⟩
    · unfold Linked
      rw [same]
      exact related mapping id isRegistered
    · exact linked

private theorem tracks_of_row (separates : layout.Separates registered)
    (isRegistered : registered mapping) (related : layout.Related registered before)
    (frame : ∀ address, address ≠ (layout.tableOf mapping, id) →
      after.row address = before.row address)
    (noted : layout.Noted keys before mapping id) (notedAfter : layout.Noted keys after mapping id)
    (linked : layout.Linked after mapping id) : layout.Tracks registered keys before after := by
  refine tracks_of_rows related fun other otherId isOther => ?_
  by_cases same : (layout.tableOf other, otherId) = (layout.tableOf mapping, id)
  · obtain rfl := separates other mapping isOther isRegistered (congrArg Prod.fst same)
    obtain rfl : otherId = id := congrArg Prod.snd same
    exact Or.inr ⟨noted, notedAfter, linked⟩
  · exact Or.inl (frame _ same)

/-! ### Rows that are written -/

private theorem write_changed_cases (wellFormed : mapping.WellFormed) (old : Row) (fields : Fields)
    {columns : List (String × Value)} (distinct : Row.Distinct columns)
    (known : ∀ entry ∈ columns, entry.1 ∈ mapping.columns) {column : String}
    (member : column ∈ mapping.columns) :
    (∃ value, (column, value) ∈ columns ∧
      layout.write (changedColumns old columns) fields (layout.column column)
        = layout.stored value) ∨
    layout.write (changedColumns old columns) fields (layout.column column)
      = fields (layout.column column) := by
  by_cases isSet : ∃ entry ∈ columns, entry.1 = column
  · obtain ⟨⟨_, value⟩, isEntry, rfl⟩ := isSet
    rcases @Layout.write_changedColumns layout old _ distinct fields _ isEntry with
      stored | ⟨unchanged, _⟩
    · exact Or.inl ⟨value, isEntry, stored⟩
    · exact Or.inr unchanged
  · refine Or.inr (Layout.write_of_not_mem fields fun entry isChanged same => isSet ?_)
    have isEntry := (mem_changedColumns.mp isChanged).1
    exact ⟨entry, isEntry, List.inj_on_of_nodup_map wellFormed.distinctColumns
      (known entry isEntry) member (layout.lower_of_column same)⟩

section Updates

variable {columns : List (String × Value)} {old : Row} (nulls : layout.stored .null = .null)
  (wellFormed : mapping.WellFormed) (distinct : Row.Distinct columns)
  (known : ∀ entry ∈ columns, entry.1 ∈ mapping.columns)
  (links : ∀ relation ∈ mapping.objectRelations, ∀ value,
    (relation.column, value) ∈ columns → value.IsLink)
include nulls wellFormed distinct known links

theorem Linked.update (linked : layout.Linked before mapping id) :
    layout.Linked (before.change (layout.tableOf mapping) id
      (layout.write (changedColumns old columns))) mapping id := by
  intro relation declared fields found
  rw [before.row_change_self (layout.tableOf mapping, id)] at found
  obtain ⟨earlier, isEarlier, rfl⟩ := Option.map_eq_some_iff.mp found
  rcases write_changed_cases wellFormed old earlier distinct known
    (Mapping.column_mem_of_relation declared) with ⟨value, isSet, stored⟩ | unchanged
  · rw [stored]
    exact isLink_stored nulls (links relation declared value isSet)
  · rw [unchanged]
    exact linked relation declared earlier isEarlier

theorem Noted.update (noted : layout.Noted keys before mapping id)
    (targets : ∀ key, mapping.Targets (old.update columns) key → key ∈ keys) :
    layout.Noted keys (before.change (layout.tableOf mapping) id
      (layout.write (changedColumns old columns))) mapping id := by
  rintro relation declared owner ⟨fields, found, refers⟩
  rw [before.row_change_self (layout.tableOf mapping, id)] at found
  obtain ⟨earlier, isEarlier, rfl⟩ := Option.map_eq_some_iff.mp found
  rcases write_changed_cases wellFormed old earlier distinct known
    (Mapping.column_mem_of_relation declared) with ⟨value, isSet, stored⟩ | unchanged
  · rw [stored, integer?_stored nulls (links relation declared value isSet)] at refers
    refine targets _ ⟨relation, declared, owner, ?_, rfl⟩
    rw [Row.get?_update_of_mem old distinct isSet]
    exact refers
  · rw [unchanged] at refers
    exact noted relation declared owner ⟨earlier, isEarlier, refers⟩

end Updates

end Rows

end Layout

/-! ### Plans -/

def PlannedNode.Relates (planned : PlannedNode) : Prop :=
  ∀ relation ∈ planned.mapping.objectRelations, ∀ assignment ∈ planned.assignments,
    assignment.column = relation.column → ∀ ids, (assignment.source.resolve ids).IsLink

theorem Graph.isLink_referenceSource (graph : Graph) (assigned : Option PropertyValue)
    (ids : Ids) : ((graph.referenceSource assigned).resolve ids).IsLink := by
  have isLink (place : Nat) : ((Source.idOf place).resolve ids).IsLink := by
    simp only [Source.resolve]
    cases ids.lookup place with
    | none => exact Or.inl rfl
    | some id => exact Or.inr ⟨id, rfl⟩
  unfold referenceSource
  split
  · split
    · exact isLink _
    · exact Or.inl rfl
  · exact Or.inl rfl

theorem Graph.relates_of_plan {dialect : Dialect} {graph : Graph} {planned : PlannedNode}
    (wellFormed : planned.mapping.WellFormed) (member : planned ∈ graph.plan dialect) :
    planned.Relates := by
  intro relation declared assignment isAssignment isColumn ids
  rw [(Graph.mem_plan.mp member).2] at isAssignment
  obtain ⟨_, property, isProperty, assigned⟩ := Graph.mem_assignments.mp isAssignment
  have ofProperty := (Graph.assignment?_eq_some assigned).2
  rw [isColumn] at ofProperty
  obtain rfl := wellFormed.eq_of_column?_eq isProperty (Mapping.mem_objectRelations.mp declared)
    ofProperty rfl
  unfold Graph.assignment? at assigned
  simp only at assigned
  split at assigned
  · cases assigned
  · cases assigned
    exact graph.isLink_referenceSource _ ids

section Saves

variable {layout : Layout} {registered : Mapping → Prop} {dialect : Dialect} {keys : List Key}
  {plan : List PlannedNode}

theorem PlannedNode.Relates.columns {planned : PlannedNode} (relates : planned.Relates)
    (ids : Ids) : ∀ relation ∈ planned.mapping.objectRelations, ∀ value,
      (relation.column, value) ∈ Assignment.columns ids planned.assignments → value.IsLink := by
  intro relation declared value member
  obtain ⟨assignment, isAssignment, same⟩ := List.mem_map.mp member
  obtain ⟨isColumn, rfl⟩ := Prod.mk.inj same
  exact relates relation declared assignment isAssignment isColumn ids

theorem PlannedNode.tracks_update {planned : PlannedNode} {id : Int64} {ids : Ids} {old : Row}
    {before : Contents} (separates : layout.Separates registered)
    (nulls : layout.stored .null = .null) (fit : planned.Fit registered)
    (relates : planned.Relates) (related : layout.Related registered before)
    (noted : layout.Noted keys before planned.mapping id)
    (targets : ∀ key, planned.mapping.Targets
      (old.update (Assignment.columns ids planned.assignments)) key → key ∈ keys) :
    layout.Tracks registered keys before (before.change (layout.tableOf planned.mapping) id
      (layout.write (changedColumns old (Assignment.columns ids planned.assignments)))) := by
  have distinct := fit.tidy.distinct_map (List.Sublist.refl _)
    fun assignment => assignment.source.resolve ids
  have known : ∀ entry ∈ Assignment.columns ids planned.assignments,
      entry.1 ∈ planned.mapping.columns := by
    intro entry member
    obtain ⟨assignment, isAssignment, rfl⟩ := List.mem_map.mp member
    exact List.mem_cons_of_mem _ (fit.tidy.mem_columns isAssignment)
  have links := relates.columns ids
  exact Layout.tracks_of_row separates fit.fits related
    (fun address apart => before.row_change_of_ne _ apart) noted
    (noted.update nulls fit.tidy.wellFormed distinct known links targets)
    (Layout.Linked.update nulls fit.tidy.wellFormed distinct known links
      (related _ _ fit.fits))

theorem Updated.tracks {ids : Ids} {changed : List Written} {log : List Event}
    (updates : Updated dialect ids plan changed log) {start : Contents} {before after : Ledger}
    (replays : Ledger.Replays layout layout.Answers before log after)
    (separates : layout.Separates registered) (nulls : layout.stored .null = .null)
    (fit : ∀ planned ∈ plan, planned.content.state = .dirty → planned.Fit registered)
    (relates : ∀ planned ∈ plan, planned.Relates)
    (recalls : ∀ planned ∈ plan, planned.content.state = .dirty →
      layout.Recalls start planned.content)
    (notes : ∀ one ∈ changed, ∀ key ∈ one.targets, key ∈ keys)
    (tracks : layout.Tracks registered keys start before.contents) :
    layout.Tracks registered keys start after.contents := by
  -- The induction is on the changed instances in order. What an instance knows was current at
  -- first, so its row has no reference by now that is not noted.
  induction updates generalizing before with
  | nil =>
      cases replays
      exact tracks
  | @skipped planned rest _ _ _ _ ih =>
      exact ih replays (fun other member => fit other (List.mem_cons_of_mem planned member))
        (fun other member => relates other (List.mem_cons_of_mem planned member))
        (fun other member => recalls other (List.mem_cons_of_mem planned member)) notes tracks
  | @changed planned rest id old later fetchLog log dirty keyed isBefore _ ih =>
      have fitHere := fit planned List.mem_cons_self dirty
      have noteHere := notes _ List.mem_cons_self
      rw [List.append_assoc] at replays
      obtain ⟨isOld, replaysUpdate⟩ := isBefore.oldRow keyed replays (layout.address planned id)
      obtain ⟨between, same, replaysLater⟩ := replays_updateLog replaysUpdate
      have oldTargets (key : Key) (targets : planned.mapping.Targets old key) : key ∈ keys :=
        noteHere key (Written.mem_targets (Or.inl rfl) targets)
      have noted : layout.Noted keys before.contents planned.mapping id := by
        cases isOld with
        | held isRow =>
            exact tracks.noted fitHere.fits
              ((recalls planned List.mem_cons_self dirty).noted isRow keyed oldTargets)
        | fetched _ first truthful same =>
            rcases Layout.answers_selectById truthful with ⟨_, rfl⟩ | ⟨fields, row, found, rfl, shown⟩
            · cases first
            · cases first
              exact Layout.noted_of_shows (same.symm.trans found) shown oldTargets
      refine ih replaysLater (fun other member => fit other (List.mem_cons_of_mem planned member))
        (fun other member => relates other (List.mem_cons_of_mem planned member))
        (fun other member => recalls other (List.mem_cons_of_mem planned member))
        (fun one member => notes one (List.mem_cons_of_mem _ member)) (tracks.trans ?_)
      rw [same]
      exact PlannedNode.tracks_update separates nulls fitHere (relates planned List.mem_cons_self)
        tracks.related noted fun key targets =>
          noteHere key (Written.mem_targets (Or.inr rfl) targets)

namespace Writing

variable {writing : Writing dialect plan}

/-- The row of a new instance holds what is planned for its relations, and this is noted. -/
theorem tracks_settled {before settled : Contents}
    (settles : writing.Settled layout before settled) (separates : layout.Separates registered)
    (nulls : layout.stored .null = .null) (sound : Task.SavesWhole registered plan)
    (relates : ∀ planned ∈ plan, planned.Relates)
    (notes : ∀ one ∈ writing.completed, ∀ key ∈ one.targets, key ∈ keys)
    (related : layout.Related registered before) :
    layout.Tracks registered keys before settled := by
  have tidy : ∀ planned ∈ plan, planned.content.needsWrite = true → planned.Tidy :=
    fun planned member needed => (sound.fit planned member needed).tidy
  refine Layout.tracks_of_rows related fun mapping id isRegistered => ?_
  by_cases isNew : ∃ entry ∈ writing.inserted,
      layout.address entry.1.planned entry.2.id = (layout.tableOf mapping, id)
  case neg =>
    exact Or.inl (settles.frame _ fun entry isInserted same => isNew ⟨entry, isInserted, same⟩)
  obtain ⟨entry, isInserted, same⟩ := isNew
  obtain ⟨isPlanned, isTransient⟩ := writing.planned_of_inserted isInserted
  have transient : entry.1.planned.content.state = .transient := of_decide_eq_true isTransient
  have needed : entry.1.planned.content.needsWrite = true := by simp [Instance.needsWrite, transient]
  obtain rfl := separates _ mapping (sound.fit _ isPlanned needed).fits isRegistered
    (congrArg Prod.fst same)
  obtain rfl : entry.2.id = id := congrArg Prod.snd same
  obtain ⟨fields, present, holds⟩ := settles.holds entry isInserted
  obtain ⟨one, isCompleted, samePlanned, _⟩ := writing.exists_completed isInserted
  obtain ⟨_, _, _, _, gives⟩ := writing.gives_of_completed tidy isCompleted
  -- every relation of a new instance is planned
  have column (relation : ObjectRelation)
      (declared : relation ∈ entry.1.planned.mapping.objectRelations) :
      ∃ value, value.IsLink ∧ one.row.get? relation.column = some value ∧
        fields (layout.column relation.column) = layout.stored value := by
    obtain ⟨assignment, isAssignment, isColumn⟩ := sound.whole _ isPlanned isTransient
      relation.column (List.mem_filterMap.mpr ⟨_, Mapping.mem_objectRelations.mp declared, rfl⟩)
    refine ⟨_, relates _ isPlanned relation declared assignment isAssignment isColumn writing.known,
      ?_, ?_⟩
    · rw [← isColumn]
      exact gives.assigned assignment (samePlanned ▸ isAssignment)
    · rw [← isColumn]
      exact holds.assigned assignment isAssignment
  refine Or.inr ⟨Layout.noted_of_absent (settles.absent entry isInserted), ?_, ?_⟩
  · rintro relation declared owner ⟨other, found, refers⟩
    obtain rfl := Option.some.inj (present.symm.trans found)
    obtain ⟨value, link, isRow, stored⟩ := column relation declared
    rw [stored, Layout.integer?_stored nulls link] at refers
    refine notes one isCompleted _ (Written.mem_targets (Or.inr rfl)
      ⟨relation, samePlanned ▸ declared, owner, ?_, rfl⟩)
    rw [isRow]
    exact refers
  · intro relation declared other found
    obtain rfl := Option.some.inj (present.symm.trans found)
    obtain ⟨value, link, _, stored⟩ := column relation declared
    rw [stored]
    exact Layout.isLink_stored nulls link

private theorem tracks (writing : Writing dialect plan) {before after : Ledger}
    (replays : Ledger.Replays layout layout.Answers before writing.log after)
    (separates : layout.Separates registered) (nulls : layout.stored .null = .null)
    (sound : Task.SavesWhole registered plan) (relates : ∀ planned ∈ plan, planned.Relates)
    (recalls : ∀ planned ∈ plan, planned.content.state = .dirty →
      layout.Recalls before.contents planned.content)
    (related : layout.Related registered before.contents) :
    layout.Tracks registered (WriteSet.ofWritten writing.written).owners before.contents
      after.contents := by
  have notes (one : Written) (member : one ∈ writing.written) (key : Key)
      (isTarget : key ∈ one.targets) : key ∈ (WriteSet.ofWritten writing.written).owners := by
    refine WriteSet.mem_ofWritten.mpr ⟨?_, one, member, Or.inr isTarget⟩
    unfold Written.targets at isTarget
    obtain ⟨relation, _, isTarget⟩ := List.mem_flatMap.mp isTarget
    obtain ⟨id, _, rfl⟩ := List.mem_map.mp isTarget
    rfl
  obtain ⟨settled, settles, replaysChange⟩ := writing.exists_settled
    (fun planned member needed => (sound.fit planned member needed).tidy) replays
  refine writing.changes.tracks replaysChange separates nulls
    (fun planned member dirty => sound.fit planned member (by simp [Instance.needsWrite, dirty]))
    relates recalls (fun one member => notes one (List.mem_append_right _ member)) ?_
  exact tracks_settled settles separates nulls sound relates
    (fun one member => notes one (List.mem_append_left _ member)) related

end Writing

end Saves

/-! ### Tasks -/

def Task.Relates : Task → Prop
  | save plan => ∀ planned ∈ plan, planned.Relates
  | _ => True

/-- No table is dropped, and what is written knows to which owners its row refers. -/
def Task.Recalls (layout : Layout) (contents : Contents) : Task → Prop
  | save plan => ∀ planned ∈ plan, planned.content.state = .dirty →
      layout.Recalls contents planned.content
  | removal content => layout.Recalls contents content
  | drop => False
  | _ => True

/-- A task notes all owners that are referred to otherwise than before. -/
theorem Task.Gives.tracks {layout : Layout} {dialect : Dialect} {registered known : Mapping → Prop}
    {task : Task} {writes : WriteSet} {log : List Event}
    (gives : task.Gives dialect known writes log) {before after : Ledger}
    (replays : Ledger.Replays layout layout.Answers before log after)
    (separates : layout.Separates registered) (nulls : layout.stored .null = .null)
    (sound : task.Sound registered) (relates : task.Relates)
    (recalls : task.Recalls layout before.contents)
    (related : layout.Related registered before.contents) :
    layout.Tracks registered writes.owners before.contents after.contents := by
  cases gives with
  | read fetched =>
      rw [Task.Gives.unwritten (.read fetched) rfl replays]
      exact .refl related
  | sync creates =>
      have given : Task.sync.Gives dialect known {} log := .sync creates
      rw [given.unwritten rfl replays]
      exact .refl related
  | drop _ => exact recalls.elim
  | save writing => exact writing.tracks replays separates nulls sound relates recalls related
  | @removal content id row log isId isKnown =>
      obtain ⟨isRegistered, _⟩ := sound
      have rows := row_eq_of_removal isKnown replays
      have gone : after.contents.row (layout.tableOf content.mapping, id) = none := by
        rw [rows, if_pos rfl]
      have notes {known : Row} (isRow : row = some known) (key : Key)
          (targets : content.mapping.Targets known key) :
          key ∈ (WriteSet.ofRemoval content.mapping content.key row).owners := by
        have hasId : key.hasId = true := by
          obtain ⟨_, _, _, _, rfl⟩ := targets
          rfl
        exact WriteSet.mem_ofRemoval.mpr
          ⟨hasId, Or.inr ⟨known, isRow, Mapping.mem_targetsOf.mpr targets⟩⟩
      refine Layout.tracks_of_row separates isRegistered related
        (fun address apart => by rw [rows, if_neg apart]) ?_ (Layout.noted_of_absent gone)
        (Layout.linked_of_absent gone)
      cases isKnown with
      | held isRow => exact Layout.Recalls.noted recalls isRow isId (notes rfl)
      | @fetched answer _ =>
          obtain _ | ⟨step, _⟩ := replays
          obtain _ | truthful := step
          rcases Layout.answers_selectById truthful with
            ⟨absent, _⟩ | ⟨fields, known, found, rfl, shown⟩
          · exact Layout.noted_of_absent absent
          · exact Layout.noted_of_shows found shown (notes rfl)

end EntityStore
