/-
Saved values that are read back. What a save writes to a row that it alone writes is what the
row then has, in the database and in the cache. A value that is natural for the type of its
property survives the form in which a dialect writes it, so every instance of the row reads it
as it was assigned.
-/

import EntityStore.Dialect.Shipped
import EntityStore.Proofs.CheckedGraphs
import EntityStore.Proofs.KeyedContents
import EntityStore.Proofs.LastingValues
import EntityStore.Proofs.Refusals
import EntityStore.Proofs.Registries
import EntityStore.Proofs.SettledGraphs

set_option autoImplicit false

namespace EntityStore

/-! ### Natural values -/

namespace Value

def isNaN : Value → Bool
  | float number => number.isNaN
  | _ => false

private theorem same_self {value : Value} (number : value.isNaN = false) :
    value.same value = true := by
  cases value with
  | float content =>
      have isNumber : content.isNaN = false := number
      simp [same, Double.equal, isNumber]
  | _ => exact beq_self_eq_true _

end Value

/-- A value that is a number if it is a float, that its type leaves as it is, and that is a
boolean for booleans only. -/
structure ScalarType.Natural (type : ScalarType) (value : Value) : Prop where
  number : value.isNaN = false
  normal : type.normalize value = value
  boolean : ∀ flag, value = .boolean flag → type = .boolean

theorem Dialect.booleanValue_of_shipped {name : String} {dialect : Dialect}
    (shipped : Dialect.ofName? name = some dialect) :
    dialect.booleanValue = .boolean ∨ dialect.booleanValue = booleanAsNumber := by
  unfold ofName? at shipped
  simp only at shipped
  repeat' split at shipped
  all_goals cases shipped
  · exact Or.inr rfl
  · exact Or.inl rfl
  · exact Or.inr rfl

namespace ScalarType.Natural

variable {name : String} {dialect : Dialect} {type : ScalarType} {value found : Value}
  (natural : type.Natural value) (shipped : Dialect.ofName? name = some dialect)
include natural shipped

private theorem normalize_stored : type.normalize (dialect.stored value) = value := by
  cases value with
  | boolean flag =>
      obtain rfl := natural.boolean flag rfl
      rcases Dialect.booleanValue_of_shipped shipped with plain | number
      · rw [Dialect.stored, plain]
        rfl
      · rw [Dialect.stored, number]
        cases flag <;> rfl
  | _ => exact natural.normal

private theorem same_of_alike (alike : found.Alike (dialect.stored value)) :
    (type.normalize found).same value = true := by
  rcases Value.alike_iff.mp alike with rfl | ⟨first, second, rfl, isStored, same⟩
  · rw [natural.normalize_stored shipped]
    exact Value.same_self natural.number
  · obtain rfl : value = .float second := by
      have normal := natural.normalize_stored shipped
      rw [isStored] at normal
      rw [← normal]
      cases type <;> rfl
    have unchanged : type.normalize (.float first) = .float first := by
      cases type <;> rfl
    rw [unchanged]
    exact same

end ScalarType.Natural

/-! ### Names in another case -/

def Row.respelled (spelling : String → String) (row : Row) : Row :=
  ⟨row.columns.map fun entry => (spelling entry.1, entry.2)⟩

section Spelling

variable {layout : Layout} {spelling : String → String}
  (same : ∀ name, Text.lower (spelling name) = Text.lower name)
include same

theorem Row.distinct_respelled {row : Row} (distinct : Row.Distinct row.columns) :
    Row.Distinct (row.respelled spelling).columns := by
  unfold Row.Distinct Row.respelled at *
  rw [List.map_map]
  simpa only [Function.comp_def, same] using distinct

theorem Layout.Shows.respelled {columns : List String} {fields : Fields} {row : Row}
    (shown : layout.Shows columns fields row) (distinct : Row.Distinct row.columns) :
    layout.Shows columns fields (row.respelled spelling) := by
  intro column isColumn
  obtain ⟨entry, member, sameName, isValue⟩ := Row.exists_of_get? (shown column isColumn)
  rw [← isValue]
  exact Row.get?_eq_some_of_mem (Row.distinct_respelled same distinct)
    (List.mem_map.mpr ⟨entry, member, rfl⟩) ((same entry.1).trans sameName)

/-- A database that answers with the names of the columns in another case answers the same. -/
theorem Layout.Answers.respelled {contents : Contents} {statement : Statement} {rows : List Row}
    (answers : layout.Answers contents statement rows)
    (distinct : ∀ row ∈ rows, Row.Distinct row.columns) :
    layout.Answers contents statement (rows.map (Row.respelled spelling)) := by
  unfold Layout.Answers at answers ⊢
  split at answers
  · obtain ⟨id, isId, answer⟩ := answers
    refine ⟨id, isId, ?_⟩
    split at answer
    · rw [answer]
      rfl
    · obtain ⟨row, rfl, shown⟩ := answer
      exact ⟨_, rfl, shown.respelled same (distinct row List.mem_cons_self)⟩
  · intro row isRow
    obtain ⟨old, isOld, rfl⟩ := List.mem_map.mp isRow
    obtain ⟨id, fields, held, shown⟩ := answers old isOld
    exact ⟨id, fields, held, shown.respelled same (distinct old isOld)⟩
  · trivial

end Spelling

/-! ### Values that are held -/

theorem Layout.Agree.alike_of_written {layout : Layout} {value held : Value}
    (agree : layout.Agree value held) (asWritten : layout.stored value = value) :
    held.Alike value := by
  rcases agree with alike | alike
  · exact alike.symm
  · exact (asWritten ▸ alike).symm

/-! ### What an instance offers -/

/-- The value that an instance has for a property without its row: the assigned one, or the
default if the instance is new. -/
def Instance.offered? (content : Instance) (property : ScalarProperty) : Option Value :=
  match content.pending.lookup property.name with
  | some (.value value) => some value
  | some .cleared => some .null
  | some (.entity _) => none
  | none => if content.isNew then some (property.default.getD .null) else none

/-- An offered value was assigned, or it is what a cleared property or a new instance has. -/
theorem Instance.offered_cases {content : Instance} {property : ScalarProperty} {value : Value}
    (offered : content.offered? property = some value) :
    content.pending.lookup property.name = some (.value value) ∨
      (content.pending.lookup property.name = some .cleared ∧ value = .null) ∨
      (content.pending.lookup property.name = none ∧ content.isNew = true ∧
        value = property.default.getD .null) := by
  unfold offered? at offered
  split at offered <;> rename_i assigned
  · cases offered
    exact Or.inl assigned
  · cases offered
    exact Or.inr (Or.inl ⟨assigned, rfl⟩)
  · cases offered
  · split at offered
    · rename_i isNew
      cases offered
      exact Or.inr (Or.inr ⟨assigned, isNew, rfl⟩)
    · cases offered

theorem Instance.columnValue_of_offered {content : Instance} {property : ScalarProperty}
    {value : Value} (offered : content.offered? property = some value) (dialect : Dialect) :
    property.columnValue dialect (content.pending.lookup property.name) = dialect.stored value := by
  rcases offered_cases offered with assigned | ⟨cleared, rfl⟩ | ⟨unassigned, _, rfl⟩
  · rw [assigned]
    rfl
  · rw [cleared]
    rfl
  · rw [unassigned]
    rfl

/-! ### Rows that are written -/

def PlannedNode.cell (planned : PlannedNode) (known : Ids) (id : Int64)
    (assignment : Assignment) : Cell :=
  ⟨planned.mapping, id, assignment.column, assignment.source.resolve known⟩

section Written

variable {dialect : Dialect} {plan : List PlannedNode} {one : Written} {assignment : Assignment}

theorem Updated.row_assigned {ids : Ids} {changed : List Written} {log : List Event}
    (changes : Updated dialect ids plan changed log)
    (tidy : ∀ planned ∈ plan, planned.content.state = .dirty → planned.Tidy)
    (member : one ∈ changed) (assigned : assignment ∈ one.planned.assignments) :
    one.row.get? assignment.column = some (assignment.source.resolve ids) := by
  induction changes with
  | nil => cases member
  | @skipped planned _ _ _ _ _ ih =>
      exact ih (fun other isOther => tidy other (List.mem_cons_of_mem planned isOther)) member
  | @changed planned _ _ old _ _ _ dirty _ _ _ ih =>
      rcases List.mem_cons.mp member with rfl | isLater
      · exact old.get?_update_of_mem
          ((tidy _ List.mem_cons_self dirty).distinct_map (List.Sublist.refl _) _)
          (List.mem_map.mpr ⟨assignment, assigned, rfl⟩)
      · exact ih (fun other isOther => tidy other (List.mem_cons_of_mem planned isOther)) isLater

theorem Writing.row_assigned (writing : Writing dialect plan)
    (tidy : ∀ planned ∈ plan, planned.content.needsWrite = true → planned.Tidy)
    (member : one ∈ writing.written) (assigned : assignment ∈ one.planned.assignments) :
    one.row.get? assignment.column = some (assignment.source.resolve writing.known) := by
  rcases List.mem_append.mp member with isCompleted | isChanged
  · obtain ⟨_, _, _, _, gives⟩ := writing.gives_of_completed tidy isCompleted
    exact gives.assigned assignment assigned
  · exact writing.changes.row_assigned
      (fun planned isPlanned dirty => tidy planned isPlanned (by simp [Instance.needsWrite, dirty]))
      isChanged assigned

end Written

namespace Store

variable {World : Type} {layout : Layout} {session : Session World}
  {faithful : Faithful layout session.database} {store between after : Store World}
  {root subject : InstanceId} {graph : Graph} {property : ScalarProperty} {value : Value}

private theorem run_read_of_offered (present : (store.instanceAt subject).state ≠ .removed)
    (visible : (store.instanceAt subject).vanished = false)
    (found : (store.instanceAt subject).mapping.property? property.name = some (.scalar property))
    (other : property.name ≠ idProperty)
    (offered : (store.instanceAt subject).offered? property = some value) :
    (read session subject property.name).run store = (.ok value, store) := by
  have usable : (store.instanceAt subject).checkUsable = .ok () := by
    simp [Instance.checkUsable, present, visible]
  have isProperty : (store.instanceAt subject).property property.name = .ok (.scalar property) := by
    unfold Instance.property
    rw [found]
  unfold read
  rw [run_bind, run_get]
  simp only [other, ↓reduceIte, isProperty]
  rw [run_bind, run_settleOutcome]
  simp only
  rw [run_bind, run_settleOutcome, usable]
  simp only [readScalar]
  rw [run_bind, run_get]
  simp only
  rcases Instance.offered_cases offered with assigned | ⟨cleared, rfl⟩ | ⟨unassigned, isNew, rfl⟩
  · rw [assigned]
    rfl
  · rw [cleared]
    rfl
  · rw [unassigned, isNew]
    rfl

private theorem exists_assignment_of_offered {dialect : Dialect} {planned : PlannedNode}
    (member : planned ∈ graph.plan dialect) (needed : planned.content.needsWrite = true)
    (declared : .scalar property ∈ planned.mapping.properties)
    (offered : planned.content.offered? property = some value) :
    ∃ assignment ∈ planned.assignments, assignment.column = property.column ∧
      ∀ ids, assignment.source.resolve ids = dialect.stored value := by
  obtain ⟨_, writes⟩ := Graph.mem_plan.mp member
  refine ⟨⟨property.name, property.column, property.nullable,
    Graph.scalarSource dialect property (planned.content.pending.lookup property.name)⟩, ?_, rfl,
    fun ids => (resolve_scalarSource dialect property _ ids).trans
      (Instance.columnValue_of_offered offered dialect)⟩
  rw [writes]
  refine Graph.mem_assignments.mpr ⟨needed, _, declared, ?_⟩
  unfold Graph.assignment?
  have given : ((planned.content.pending.lookup property.name).isNone &&
      decide (planned.content.state ≠ .transient)) = false := by
    rcases Instance.offered_cases offered with assigned | ⟨cleared, _⟩ | ⟨_, isNew, _⟩
    · rw [assigned]
      rfl
    · rw [cleared]
      rfl
    · simp [show planned.content.state = .transient from of_decide_eq_true isNew]
  exact if_neg (Bool.eq_false_iff.mp given)

/-! ### Rows of one instance -/

/-- An instance that a save writes is the only one that it writes to its row. -/
def Sole (layout : Layout) (store after : Store World) (root subject : InstanceId) : Prop :=
  ∀ other, Reaches store.memory root other → (store.instanceAt other).needsWrite = true →
    layout.tableOf (store.instanceAt other).mapping
      = layout.tableOf (store.instanceAt subject).mapping →
    after.idOf other = after.idOf subject → other = subject

section Inserted

variable {dialect : Dialect} {writing : Writing dialect (graph.plan dialect)}
  {before settled now : Ledger} {planned : PlannedNode} {id : Int64}

private theorem row_of_inserted (settles : writing.Settled layout before.contents settled.contents)
    (replays : Ledger.Replays layout layout.Answers settled writing.changeLog now)
    (member : planned ∈ graph.plan dialect) (isNew : planned.isNew = true)
    (isKnown : writing.known.lookup planned.place = some id)
    (untouched : ∀ other ∈ graph.plan dialect, ¬other.Touches layout (layout.address planned id)) :
    ∃ fields, now.contents.row (layout.address planned id) = some fields ∧
      planned.Holds layout writing.known id fields := by
  obtain ⟨entry, isInserted, rfl⟩ := writing.exists_inserted member isNew
  obtain rfl : id = entry.2.id := by
    rw [(writing.inserts.lookup isInserted).1] at isKnown
    exact (Option.some.inj isKnown).symm
  obtain ⟨fields, present, holds⟩ := settles.holds entry isInserted
  exact ⟨fields, (writing.changes.frame replays untouched).trans present, holds⟩

end Inserted

/-- Whatever else is written to the row of an instance that is alone in its row is written
for this instance. -/
theorem Sole.planned_eq {dialect : Dialect} {planned : PlannedNode}
    (sole : Sole layout store after root planned.node.subject) (sound : store.Sound)
    (inMemory : root < store.memory.size)
    (collected : Graph.collect store.id store.memory root = .ok graph) {known : Ids}
    (final : ∀ planned ∈ graph.plan dialect, ∃ id, known.lookup planned.place = some id ∧
      after.idOf planned.node.subject = some id)
    (isPlanned : planned ∈ graph.plan dialect) {id : Int64}
    (isFinal : after.idOf planned.node.subject = some id) {other : PlannedNode}
    (isOther : other ∈ graph.plan dialect) (needed : other.content.needsWrite = true)
    {otherId : Int64} (isKnown : known.lookup other.place = some otherId)
    (same : layout.address other otherId = layout.address planned id) : other = planned := by
  obtain ⟨finalId, isKnownFinal, otherFinal⟩ := final other isOther
  rw [isKnown] at isKnownFinal
  cases isKnownFinal
  refine planned_eq_of_subject collected isOther isPlanned
    (sole _ (sound.reaches_of_plan inMemory collected isOther) ?_ ?_ ?_)
  · rw [sound.instanceAt_plan collected isOther]
    exact needed
  · rw [sound.instanceAt_plan collected isOther, sound.instanceAt_plan collected isPlanned]
    exact congrArg Prod.fst same
  · rw [otherFinal, isFinal]
    exact congrArg (some ∘ Prod.snd) same

section Alone

variable {dialect : Dialect} {writing : Writing dialect (graph.plan dialect)}
  {before now : Ledger} {planned : PlannedNode} {id : Int64}
  (sound : store.Sound) (inMemory : root < store.memory.size)
  (collected : Graph.collect store.id store.memory root = .ok graph)
  (final : ∀ planned ∈ graph.plan dialect, ∃ id, writing.known.lookup planned.place = some id ∧
    after.idOf planned.node.subject = some id)
  (replays : Ledger.Replays layout layout.Answers before writing.log now)
  (isPlanned : planned ∈ graph.plan dialect)
  (sole : Sole layout store after root planned.node.subject)
  (isKnown : writing.known.lookup planned.place = some id)
include sound inMemory collected final isPlanned sole isKnown

omit replays in
theorem Sole.eq_of_touches {other : PlannedNode} (isOther : other ∈ graph.plan dialect)
    (touches : other.Touches layout (layout.address planned id)) : other = planned := by
  obtain ⟨isFinalId, known, isFinal⟩ := final planned isPlanned
  obtain rfl : isFinalId = id := Option.some.inj (known.symm.trans isKnown)
  obtain ⟨dirty, otherId, keyed, same⟩ := touches
  exact sole.planned_eq sound inMemory collected final isPlanned isFinal isOther
    (by simp [Instance.needsWrite, dirty])
    (writing.known_of_id (Graph.places_plan dialect graph) isOther keyed) same

include replays

theorem Sole.row_of_new (isNew : planned.isNew = true) :
    ∃ fields, now.contents.row (layout.address planned id) = some fields ∧
      planned.Holds layout writing.known id fields := by
  obtain ⟨settled, settles, replaysChange⟩ := writing.exists_settled
    (fun planned member _ => (sound.fit_of_plan collected member).tidy) replays
  refine row_of_inserted settles replaysChange isPlanned isNew isKnown fun other isOther touches => ?_
  have dirty := touches.1
  have transient : planned.content.state = .transient := of_decide_eq_true isNew
  rw [sole.eq_of_touches sound inMemory collected final isPlanned isKnown isOther touches, transient]
    at dirty
  cases dirty

theorem Sole.row_of_changed (dirty : planned.content.state = .dirty)
    (present : planned.content.row = none ∨
      before.contents.row (layout.address planned id) ≠ none) :
    ∃ fields old, before.contents.row (layout.address planned id) = some old ∧
      now.contents.row (layout.address planned id) = some fields ∧
      ∀ assignment ∈ planned.assignments,
        layout.Agree (assignment.source.resolve writing.known)
            (fields (layout.column assignment.column)) ∨
          (planned.content.Knows assignment.column (assignment.source.resolve writing.known) ∧
            fields (layout.column assignment.column) = old (layout.column assignment.column)) := by
  obtain ⟨settled, settles, replaysChange⟩ := writing.exists_settled
    (fun planned member _ => (sound.fit_of_plan collected member).tidy) replays
  obtain ⟨isFinalId, known, isFinal⟩ := final planned isPlanned
  obtain rfl : isFinalId = id := Option.some.inj (known.symm.trans isKnown)
  -- A changed instance has an id, which is the one that is known of it.
  obtain ⟨ownId, keyed⟩ := Option.isSome_iff_exists.mp
    ((sound.of_plan collected isPlanned).2.2.sound.keyed (Or.inr dirty))
  have sameId := writing.known_of_id (Graph.places_plan dialect graph) isPlanned keyed
  obtain rfl : isFinalId = ownId := Option.some.inj (isKnown.symm.trans sameId)
  obtain ⟨fields, isNow, holds⟩ := columns_of_updated settles replaysChange isPlanned
    (sound.fit_of_plan collected isPlanned).tidy dirty keyed present
  -- Nothing is inserted there, so that the row was there before.
  have frame := settles.frame (layout.address planned isFinalId) fun entry isInserted same => by
    obtain ⟨isOther, isNew⟩ := writing.planned_of_inserted isInserted
    have transient : entry.1.planned.content.state = .transient := of_decide_eq_true isNew
    rw [sole.planned_eq sound inMemory collected final isPlanned isFinal isOther
      (by simp [Instance.needsWrite, transient]) (writing.inserts.lookup isInserted).1 same, dirty]
      at transient
    cases transient
  have kept := (writing.changes.rewrites replaysChange (layout.address planned isFinalId)).isSome_eq
  rw [isNow, frame] at kept
  obtain ⟨old, isThere⟩ := Option.isSome_iff_exists.mp kept.symm
  refine ⟨fields, old, isThere, isNow, fun assignment isAssignment => ?_⟩
  refine (holds assignment isAssignment fun other isOther sets => ?_).imp_right ?_
  · exact sole.eq_of_touches sound inMemory collected final isPlanned isKnown isOther sets.1
  · rintro ⟨knows, others, isOld, unchanged⟩
    obtain rfl := Option.some.inj (isThere.symm.trans isOld)
    exact ⟨knows, unchanged⟩

end Alone

/-! ### What a save leaves -/

section Saved

variable {dialect : Dialect} {writing : Writing dialect (graph.plan dialect)}
  {planned : PlannedNode} {id : Int64} {assignment : Assignment} (sound : store.Sound)
  (inMemory : root < store.memory.size)
  (collected : Graph.collect store.id store.memory root = .ok graph)
  (final : ∀ planned ∈ graph.plan dialect, ∃ id, writing.known.lookup planned.place = some id ∧
    after.idOf planned.node.subject = some id)
  (isPlanned : planned ∈ graph.plan dialect)
  (sole : Sole layout store after root planned.node.subject)
  (isKnown : writing.known.lookup planned.place = some id)
include sound inMemory collected final isPlanned sole isKnown

/-- What is written under the key of an instance that is alone in its row is written for it. -/
theorem Sole.eq_of_key {one : Written} (member : one ∈ writing.written)
    (sameKey : one.key = Key.withId planned.mapping.entity id) : one.planned = planned := by
  obtain ⟨isOther, needed⟩ := planned_of_written sound collected member
  obtain ⟨sameEntity, sameId⟩ := Key.mk.inj sameKey
  have sameType : one.planned.mapping = planned.mapping :=
    sound.registry.unique (sound.of_plan collected isOther).2.2.registered
      (sound.of_plan collected isPlanned).2.2.registered sameEntity
  obtain ⟨finalId, known, isFinal⟩ := final planned isPlanned
  obtain rfl : finalId = id := Option.some.inj (known.symm.trans isKnown)
  refine sole.planned_eq sound inMemory collected final isPlanned isFinal isOther needed
    (known_of_written writing member) ?_
  exact Prod.ext (congrArg layout.tableOf sameType) (Option.some.inj sameId)

variable (assigned : assignment ∈ planned.assignments)
include assigned

private theorem shownIn_written (needed : planned.content.needsWrite = true) (shown : Showing) :
    (planned.cell writing.known id assignment).ShownIn
      ((WriteSet.ofWritten writing.written).alter shown) := by
  intro row isShown
  unfold WriteSet.alter at isShown
  rw [WriteSet.effects_ofWritten] at isShown
  rcases alterAll_puts isShown with ⟨one, isWritten, sameKey, rfl⟩ | ⟨_, apart⟩
  · have isOwn : one.planned = planned :=
      sole.eq_of_key sound inMemory collected final isPlanned isKnown isWritten sameKey.symm
    exact ⟨_, writing.row_assigned (fun _ isOther _ => (sound.fit_of_plan collected isOther).tidy)
      isWritten (isOwn ▸ assigned), .refl _⟩
  · obtain ⟨one, isWritten, rfl⟩ := exists_written writing sound collected isPlanned needed
    have isOwn := known_of_written writing isWritten
    rw [isKnown] at isOwn
    exact absurd (congrArg (Key.withId one.planned.mapping.entity) (Option.some.inj isOwn))
      (apart one isWritten)

section Held

variable {before now : Ledger}
  (replays : Ledger.Replays layout layout.Answers before writing.log now)
  (asWritten : layout.stored (assignment.source.resolve writing.known)
    = assignment.source.resolve writing.known)
include replays asWritten

private theorem heldIn_of_new (isNew : planned.isNew = true) :
    (planned.cell writing.known id assignment).HeldIn layout now.contents := by
  obtain ⟨fields, isHeld, holds⟩ :=
    sole.row_of_new sound inMemory collected final replays isPlanned isKnown isNew
  exact ⟨fields, isHeld,
    (Layout.Agree.of_stored (holds.assigned assignment assigned)).alike_of_written asWritten⟩

/-- A column that is not written, as the instance knows that it has the value, has it if what the
instance knows is what is held. -/
theorem heldIn_of_changed (dirty : planned.content.state = .dirty)
    (current : ∀ row, planned.content.row = some row →
      layout.Finds planned.mapping before.contents planned.content.key (some row)) :
    (planned.cell writing.known id assignment).HeldIn layout now.contents := by
  obtain ⟨ownId, keyed⟩ := Option.isSome_iff_exists.mp
    (sound.keyed_of_plan collected isPlanned dirty)
  obtain rfl : ownId = id := Option.some.inj
    ((writing.known_of_id (Graph.places_plan dialect graph) isPlanned keyed).symm.trans isKnown)
  have known (row : Row) (isRow : planned.content.row = some row) : ∃ fields,
      before.contents.row (layout.address planned ownId) = some fields ∧
        layout.Agrees planned.mapping row fields := by
    obtain ⟨_, fields, isId, found, agrees⟩ := current row isRow
    rw [keyed] at isId
    cases isId
    exact ⟨fields, found, agrees⟩
  have present : planned.content.row = none ∨
      before.contents.row (layout.address planned ownId) ≠ none := by
    cases isRow : planned.content.row with
    | none => exact Or.inl rfl
    | some row =>
        obtain ⟨fields, found, _⟩ := known row isRow
        exact Or.inr (by rw [found]; exact nofun)
  obtain ⟨fields, old, isOld, isHeld, writes⟩ := sole.row_of_changed sound inMemory collected
    final replays isPlanned isKnown dirty present
  refine ⟨fields, isHeld, ?_⟩
  rcases writes assignment assigned with agree | ⟨⟨row, value, isRow, isValue, same⟩, unchanged⟩
  · exact agree.alike_of_written asWritten
  · obtain ⟨others, found, agrees⟩ := known row isRow
    obtain rfl : others = old := Option.some.inj (found.symm.trans isOld)
    obtain ⟨other, isOther, agree⟩ := agrees assignment.column
      (List.mem_cons_of_mem _ ((sound.fit_of_plan collected isPlanned).tidy.mem_columns assigned))
    obtain rfl : other = value := Option.some.inj (isOther.symm.trans isValue)
    rw [show (planned.cell writing.known ownId assignment).column = assignment.column from rfl,
      unchanged]
    exact (agree.of_same same).alike_of_written asWritten

/-- Such a row is held with what was assigned, if the instance is new or knows what is held, and
if the database takes the value as it is. -/
theorem heldIn_written (needed : planned.content.needsWrite = true)
    (current : ∀ row, planned.content.row = some row →
      layout.Finds planned.mapping before.contents planned.content.key (some row)) :
    (planned.cell writing.known id assignment).HeldIn layout now.contents := by
  rcases (Bool.or_eq_true _ _).mp needed with isNew | isDirty
  · exact heldIn_of_new sound inMemory collected final isPlanned sole isKnown assigned replays
      asWritten isNew
  · exact heldIn_of_changed sound inMemory collected final isPlanned sole isKnown assigned replays
      asWritten (of_decide_eq_true isDirty) current

end Held

end Saved

structure KeepsWritten {database : Database World} (faithful : Faithful layout database)
    (thread : ThreadId) (planned : PlannedNode) (known : Ids) (id : Int64) (after : Store World) :
    Prop where
  key : (after.instanceAt planned.node.subject).key = Key.withId planned.mapping.entity id
  clean : (after.instanceAt planned.node.subject).state = .clean
  vanished : (after.instanceAt planned.node.subject).vanished = planned.content.vanished
  row : ∃ row, (after.instanceAt planned.node.subject).row = some row ∧
    ∀ assignment ∈ planned.assignments,
      row.get? assignment.column = some (assignment.source.resolve known)
  attests : ∀ assignment ∈ planned.assignments,
    layout.stored (assignment.source.resolve known) = assignment.source.resolve known →
    after.Attests faithful thread (planned.cell known id assignment)

private theorem keepsWritten_of_ends {planned : PlannedNode} {written : List Written}
    (regular : store.Regular) (orderly : store.Orderly faithful)
    (fits : ∀ mapping ∈ store.registry.mappings, layout.Fits mapping)
    (keyed : layout.Keyed (store.view faithful session.thread)) (inMemory : root < store.memory.size)
    (collected : Graph.collect store.id store.memory root = .ok graph)
    (ends : UnitEnds session (Question.Issued (· ∈ store.registry.mappings) true) true
      (WritesPlan session.dialect (graph.plan session.dialect)) store (.ok written) between)
    (settled : (settleAll session written).run between = (.ok (), after))
    (isPlanned : planned ∈ graph.plan session.dialect)
    (needed : planned.content.needsWrite = true)
    (sole : Sole layout store after root planned.node.subject)
    (current : ∀ row, planned.content.row = some row →
      layout.Finds planned.mapping (store.view faithful session.thread) planned.content.key
        (some row)) :
    ∃ (known : Ids) (id : Int64), known.lookup planned.place = some id ∧
      (∀ other ∈ graph.plan session.dialect, ∃ id, known.lookup other.place = some id ∧
        after.idOf other.node.subject = some id) ∧
      KeepsWritten faithful session.thread planned known id after := by
  have sound := regular.sound
  have silent : store.Silent between := ends.read sound
  obtain ⟨_, _, ⟨writing, same, rfl⟩, altered⟩ := ends.altered regular orderly fits
  obtain ⟨rfl, rfl⟩ := Prod.mk.inj same
  have final (other : PlannedNode) (isOther : other ∈ graph.plan session.dialect) :=
    final_id regular collected writing ends.idOf silent.size settled isOther
  obtain ⟨id, isKnown, _⟩ := final planned isPlanned
  obtain ⟨one, isWritten, isOwn⟩ := exists_written writing sound collected isPlanned needed
  obtain ⟨isKey, isClean, isRow⟩ :=
    instanceAt_of_written regular collected writing ends settled isWritten inMemory
  -- The row of the instance is written under the id that the plan knows of it.
  have isId : one.id = id := by
    have known := known_of_written writing isWritten
    rw [isOwn, isKnown] at known
    exact (Option.some.inj known).symm
  have quiet := quiet_settleAll (fun one member => silent.size.symm ▸
    (sound.of_plan collected (writing.planned_mem member)).1) settled
  have extent : between.registry = store.registry := congrArg Prod.fst ends.extent
  refine ⟨writing.known, id, isKnown, final, ?_, ?_, ?_, ⟨one.row, ?_, ?_⟩, ?_⟩
  · rw [← isOwn, isKey, ← isId]
    rfl
  · rw [← isOwn]
    exact isClean
  · rw [← isOwn, settle_of_written regular collected writing ends settled isWritten]
    show (between.instanceAt one.planned.node.subject).vanished = _
    rw [silent.vanished, sound.instanceAt_plan collected (isOwn ▸ isPlanned)]
  · rw [← isOwn]
    exact isRow
  · intro assignment assigned
    exact writing.row_assigned (fun _ isOther _ => (sound.fit_of_plan collected isOther).tidy)
      isWritten (isOwn ▸ assigned)
  · intro assignment assigned asWritten
    obtain ⟨_, _, replays⟩ := altered.replayed
    refine (altered.attests ⟨?_, ?_⟩ keyed ?_ ?_).quiet quiet
    · exact extent ▸ (sound.of_plan collected isPlanned).2.2.registered
    · exact List.mem_cons_of_mem _ ((sound.fit_of_plan collected isPlanned).tidy.mem_columns assigned)
    · exact heldIn_written sound inMemory collected final isPlanned sole isKnown assigned replays
        asWritten needed current
    · exact shownIn_written sound inMemory collected final isPlanned sole isKnown assigned needed

theorem KeepsWritten.anew {planned : PlannedNode} {known : Ids} {id : Int64}
    {assignment : Assignment} {thread : ThreadId} {database : Database World}
    {faithful : Faithful layout database}
    (keeps : KeepsWritten faithful thread planned known id after)
    (visible : planned.content.vanished = false) (assigned : assignment ∈ planned.assignments) :
    after.Anew (planned.cell known id assignment) planned.node.subject := by
  obtain ⟨row, isRow, gives⟩ := keeps.row
  refine ⟨keeps.clean, keeps.vanished.trans visible, keeps.key, fun other isOther => ?_⟩
  obtain rfl : row = other := Option.some.inj (isRow.symm.trans isOther)
  exact ⟨_, gives assignment assigned, .refl _⟩

section Reading

variable {cell : Cell} (regular : store.Regular) (orderly : store.Orderly faithful)
  (fits : ∀ mapping ∈ store.registry.mappings, layout.Fits mapping)
  (attested : store.Attests faithful session.thread cell)
include regular orderly fits attested

/-- An instance made anew reads a value as it was if this is natural for the property and the row
has what the dialect writes for it. -/
theorem Renewed.read_natural {name : String}
    (renewed : store.Renewed session cell.mapping cell.id subject after)
    (shipped : Dialect.ofName? name = some session.dialect)
    (natural : property.type.Natural value) (isValue : cell.value = session.dialect.stored value)
    (isColumn : property.column = cell.column)
    (found : cell.mapping.property? property.name = some (.scalar property))
    (other : property.name ≠ idProperty) :
    Ensures (Store.read session subject property.name) after
      (after.ReadsAs session subject fun result _ => result.same value = true) := by
  obtain ⟨regularAfter, orderlyAfter, fitsAfter, attestedAfter⟩ :=
    renewed.attests regular orderly fits attested
  refine ((renewed.anew regular orderly fits attested).read regularAfter orderlyAfter fitsAfter
    attestedAfter isColumn found other).weaken fun _ _ reads => reads.weaken ?_
  rintro _ ⟨content, alike, rfl⟩
  exact natural.same_of_alike shipped (isValue ▸ alike)

theorem Renewed.readObject {relation : ObjectRelation} {id : Int64} {target : Mapping}
    (renewed : store.Renewed session cell.mapping cell.id subject after)
    (isColumn : relation.column = cell.column) (isId : cell.value = .integer id)
    (found : cell.mapping.property? relation.name = some (.object relation))
    (known : store.registry.mapping? relation.target = some target) :
    Ensures (Store.readObject session subject relation.name) after (after.ReadsAs session subject
      fun result last => ∃ other, result = some other ∧ last.idOf other = some id) := by
  obtain ⟨regularAfter, orderlyAfter, fitsAfter, attestedAfter⟩ :=
    renewed.attests regular orderly fits attested
  have knownAfter : after.registry.mapping? relation.target = some target :=
    renewed.registry regular attested.declared.registered ▸ known
  exact (renewed.anew regular orderly fits attested).readObject regularAfter orderlyAfter fitsAfter
    attestedAfter isColumn isId found knownAfter

end Reading

/-- The instance itself reads the very value that was assigned. -/
theorem KeepsWritten.run_read {planned : PlannedNode} {known : Ids} {id : Int64}
    {assignment : Assignment} {name : String} (regular : after.Regular)
    (keeps : KeepsWritten faithful session.thread planned known id after)
    (visible : planned.content.vanished = false) (assigned : assignment ∈ planned.assignments)
    (attested : after.Attests faithful session.thread (planned.cell known id assignment))
    (shipped : Dialect.ofName? name = some session.dialect)
    (natural : property.type.Natural value)
    (isValue : assignment.source.resolve known = session.dialect.stored value)
    (isColumn : property.column = assignment.column)
    (found : planned.mapping.property? property.name = some (.scalar property))
    (other : property.name ≠ idProperty) :
    (Store.read session planned.node.subject property.name).run after = (.ok value, after) := by
  have anew := keeps.anew visible assigned
  have content := regular.sound.instanceAt (inMemory_of_clean anew.clean)
  obtain ⟨row, isRow, gives⟩ := keeps.row
  rw [Store.run_read anew.clean anew.visible (content.sound.settled anew.clean),
    anew.reading regular attested isColumn found other]
  simp only
  rw [run_bind, run_columnOf_of_known anew.visible isRow,
    show row.get? (planned.cell known id assignment).column = _ from gives assignment assigned,
    isValue]
  show (Except.ok (property.type.normalize (session.dialect.stored value)), after) = _
  rw [natural.normalize_stored shipped]

/-- The instance itself reads its relation as an instance with the id that was assigned. -/
theorem KeepsWritten.run_readObject {planned : PlannedNode} {known : Ids} {id targetId : Int64}
    {assignment : Assignment} {relation : ObjectRelation} {target : Mapping}
    (regular : after.Regular) (orderly : after.Orderly faithful)
    (fits : ∀ mapping ∈ after.registry.mappings, layout.Fits mapping)
    (keeps : KeepsWritten faithful session.thread planned known id after)
    (visible : planned.content.vanished = false) (assigned : assignment ∈ planned.assignments)
    (attested : after.Attests faithful session.thread (planned.cell known id assignment))
    (isId : assignment.source.resolve known = .integer targetId)
    (isColumn : relation.column = assignment.column)
    (found : planned.mapping.property? relation.name = some (.object relation))
    (isTarget : after.registry.mapping? relation.target = some target) :
    ∃ other last, (Store.readObject session planned.node.subject relation.name).run after
      = (.ok (some other), last) ∧ last.idOf other = some targetId := by
  obtain ⟨row, isRow, _⟩ := keeps.row
  have reads := (keeps.anew visible assigned).readObject regular orderly fits attested isColumn isId
    found isTarget
  obtain ⟨_, isOutcome, other, rfl, isId⟩ := reads.exists_of_known isRow
  exact ⟨other, _, Prod.ext isOutcome rfl, isId⟩

end Store

/-! ### Runs -/

theorem Registry.exists_mapping {registry : Registry} {name : String}
    (isName : name ∈ registry.names) : ∃ mapping, registry.mapping? name = some mapping := by
  obtain ⟨mapping, member, rfl⟩ := List.mem_map.mp isName
  exact Option.isSome_iff_exists.mp (List.find?_isSome.mpr ⟨mapping, member, by simp⟩)

/-- What was saved of an instance under an id is read back, before and after the save and, later
on, from whatever other instance of the row: plain values if they are natural and the database
takes them as the dialect writes them, and relations as instances with the ids of their targets.
Only where the row is neither known nor cached may the database fail to give it. -/
structure Store.ReadsBack {World : Type} (layout : Layout) (session : Session World)
    (store after later : Store World) (subject : InstanceId) (id : Int64) : Prop where
  scalar : ∀ property value,
    .scalar property ∈ (store.instanceAt subject).mapping.properties →
    (store.instanceAt subject).offered? property = some value → property.type.Natural value →
    layout.stored (session.dialect.stored value) = session.dialect.stored value →
    (Store.read session subject property.name).run store = (.ok value, store) ∧
      (Store.read session subject property.name).run after = (.ok value, after) ∧
      ∀ fresh final, later.Renewed session (store.instanceAt subject).mapping id fresh final →
        Store.Ensures (Store.read session fresh property.name) final
          (final.ReadsAs session fresh fun result _ => result.same value = true)
  object : ∀ relation target,
    .object relation ∈ (store.instanceAt subject).mapping.properties →
    (store.instanceAt subject).pending.lookup relation.name = some (.entity target) →
    ∃ targetId, after.idOf target = some targetId ∧
      (∃ other last, (Store.readObject session subject relation.name).run after
        = (.ok (some other), last) ∧ last.idOf other = some targetId) ∧
      ∀ fresh final, later.Renewed session (store.instanceAt subject).mapping id fresh final →
        Store.Ensures (Store.readObject session fresh relation.name) final
          (final.ReadsAs session fresh fun result last =>
            ∃ other, result = some other ∧ last.idOf other = some targetId)

namespace Samples

/-- Another instance of Ada's key knows her row, is given a name and refers to Ada, who has been
changed too. -/
def merged : List (ThreadId × Action) := saved ++ [
  (0, .reference "Person" 1), (0, .read 1 "name"), (0, .assign 0 "friend" (.entity 0)),
  (0, .assign 1 "name" (.value (.text "Bo"))), (0, .assign 1 "friend" (.entity 0))]

end Samples

namespace Deployment

variable {World : Type} {layout : Layout} {deployment : Deployment World}
  {faithful : Faithful layout deployment.database}
  {allowed : Store World → ThreadId → Action → Prop} {store after later : Store World}
  {thread : ThreadId} {root subject : InstanceId} {acts : List (Act World)}

section Kept

variable {planned : PlannedNode} {known : Ids} {id : Int64} {assignment : Assignment}
  (regular : after.Regular) (orderly : after.Orderly faithful)
  (fits : ∀ mapping ∈ later.registry.mappings, layout.Fits mapping)
  (run : deployment.Run after acts later) (conserve : ∀ act ∈ acts, act.Conserves thread)
  (keeps : Store.KeepsWritten faithful thread planned known id after)
  (visible : planned.content.vanished = false) (assigned : assignment ∈ planned.assignments)
include regular orderly fits run conserve keeps visible assigned

/-- A value that was written is read as it was by the instance that has written it and later on
by others. -/
theorem scalar_read_back {name : String} {property : ScalarProperty} {value : Value}
    (shipped : Dialect.ofName? name = some deployment.dialect)
    (natural : property.type.Natural value)
    (isValue : assignment.source.resolve known = deployment.dialect.stored value)
    (asWritten : layout.stored (deployment.dialect.stored value) = deployment.dialect.stored value)
    (isColumn : property.column = assignment.column)
    (found : planned.mapping.property? property.name = some (.scalar property))
    (other : property.name ≠ idProperty) :
    (Store.read (deployment.session thread) planned.node.subject property.name).run after
        = (.ok value, after) ∧
      ∀ fresh last, later.Renewed (deployment.session thread) planned.mapping id fresh last →
        Store.Ensures (Store.read (deployment.session thread) fresh property.name) last
          (last.ReadsAs (deployment.session thread) fresh
            fun result _ => result.same value = true) := by
  have attested := keeps.attests assignment assigned (isValue ▸ asWritten)
  have attestedLater := attests_of_run run regular orderly fits conserve attested
  exact ⟨keeps.run_read regular visible assigned attested shipped natural isValue isColumn found
    other, fun fresh last renewed => Store.Renewed.read_natural (run.regular regular)
      (orderly_of_run run regular orderly fits) fits attestedLater renewed shipped natural isValue
      isColumn found other⟩

private theorem object_read_back {relation : ObjectRelation} {target : Mapping} {targetId : Int64}
    (isId : assignment.source.resolve known = .integer targetId)
    (isColumn : relation.column = assignment.column)
    (found : planned.mapping.property? relation.name = some (.object relation))
    (isTarget : after.registry.mapping? relation.target = some target) :
    (∃ other last, (Store.readObject (deployment.session thread) planned.node.subject
        relation.name).run after = (.ok (some other), last) ∧ last.idOf other = some targetId) ∧
      ∀ fresh last, later.Renewed (deployment.session thread) planned.mapping id fresh last →
        Store.Ensures (Store.readObject (deployment.session thread) fresh relation.name) last
          (last.ReadsAs (deployment.session thread) fresh fun result final =>
            ∃ other, result = some other ∧ final.idOf other = some targetId) := by
  have attested := keeps.attests assignment assigned (isId ▸ layout.stored_integer targetId)
  have attestedLater := attests_of_run run regular orderly fits conserve attested
  have grows := run.grows regular
  have regularLater := run.regular regular
  exact ⟨keeps.run_readObject regular orderly (grows.forall_registered fits) visible assigned
    attested isId isColumn found isTarget, fun fresh last renewed =>
      Store.Renewed.readObject regularLater (orderly_of_run run regular orderly fits) fits
        attestedLater renewed isColumn isId found
        (regularLater.sound.registry.mapping?_of_subset grows.registered isTarget)⟩

end Kept

/-- Saved values are read back unchanged: what a save has written of an instance is read before
and after it by the instance, and later on by every other instance of the row that is made by
its id, by a lookup or by a query. The instance is the only one that the save writes to its row,
was not found missing, and knows no row or the one that the database has. In between the thread
reads, assigns, begins, commits and forgets, but writes no rows and takes none back. -/
theorem saved_values_read_back {name : String}
    (shipped : Dialect.ofName? name = some deployment.dialect)
    (rest : faithful.AtRest deployment.world)
    (keyed : layout.Keyed (faithful.published deployment.world))
    (reached : deployment.Reached allowed store)
    (fits : ∀ mapping ∈ later.registry.mappings, layout.Fits mapping)
    (inMemory : root < store.memory.size)
    (saved : (Store.save (deployment.session thread) root).run store = (.ok (), after))
    (reaches : Reaches store.memory root subject)
    (needed : (store.instanceAt subject).needsWrite = true)
    (visible : (store.instanceAt subject).vanished = false)
    (sole : Store.Sole layout store after root subject)
    (current : ∀ row, (store.instanceAt subject).row = some row →
      layout.Finds (store.instanceAt subject).mapping (store.view faithful thread)
        (store.instanceAt subject).key (some row))
    (run : deployment.Run after acts later) (conserve : ∀ act ∈ acts, act.Conserves thread) :
    ∃ id, after.idOf subject = some id ∧
      Store.ReadsBack layout (deployment.session thread) store after later subject id := by
  have regular := reached.regular
  have sound := regular.sound
  have course := (Action.follows_perform regular
    (show (Action.save root).InMemory store.memory.size from inMemory)).of_run saved
  have regularAfter := course.regular regular
  have fitsAfter : ∀ mapping ∈ after.registry.mappings, layout.Fits mapping :=
    (run.grows regularAfter).forall_registered fits
  have fitsBefore : ∀ mapping ∈ store.registry.mappings, layout.Fits mapping :=
    course.grows.forall_registered fitsAfter
  have orderly := reached.orderly rest fitsBefore
  have orderlyAfter := course.orderly regular orderly fitsAfter
  have seen : layout.Keyed (store.view faithful thread) :=
    (reached.keyed rest keyed fitsBefore).view thread
  obtain ⟨graph, _, collected, ends⟩ := Store.save_ok regular saved
  cases ends with
  | unchanged nothing =>
      rw [sound.needsWrite_of_reached inMemory collected reaches needed] at nothing
      cases nothing
  | @written written between after unit settled =>
      obtain ⟨planned, isPlanned, rfl, _⟩ := @Store.exists_planned _ _ deployment.dialect
        ((sound.mem_graph inMemory collected subject).mpr reaches)
      have contentAt := sound.instanceAt_plan collected isPlanned
      obtain ⟨_, present⟩ := Store.own_of_collected collected isPlanned
      have visibleBefore := visible
      rw [contentAt] at needed visible current
      -- From here on the instance knows what it has written, and the store attests to it.
      obtain ⟨known, id, isKnown, final, keeps⟩ := Store.keepsWritten_of_ends regular orderly
        fitsBefore seen inMemory collected unit settled isPlanned needed sole current
      have registered := (sound.of_plan collected isPlanned).2.2.registered
      have formed := sound.registry.mappings _ registered
      refine ⟨id, congrArg Key.id keeps.key, ?_, ?_⟩
      · intro property value declared offered natural asWritten
        have isOffered := offered
        rw [contentAt] at declared isOffered
        have found := Graph.property?_of_mem formed declared
        have other := reached.reserves _ registered _ declared
        obtain ⟨assignment, assigned, isColumn, resolves⟩ :=
          Store.exists_assignment_of_offered isPlanned needed declared isOffered
        obtain ⟨own, others⟩ := scalar_read_back regularAfter orderlyAfter fits run conserve keeps
          visible assigned shipped natural (resolves known) asWritten isColumn.symm found other
        exact ⟨Store.run_read_of_offered (contentAt ▸ present) visibleBefore (contentAt ▸ found) other
          offered, own, contentAt ▸ others⟩
      · intro relation target declared isAssigned
        rw [contentAt] at declared isAssigned
        have found := Graph.property?_of_mem formed declared
        obtain ⟨other, isOther, rfl, _⟩ :=
          Store.planned_target sound inMemory collected isPlanned isAssigned
        obtain ⟨targetId, _, isTarget⟩ := final other isOther
        obtain ⟨assignment, assigned, isColumn, resolves⟩ := Store.exists_assignment sound inMemory
          collected final isPlanned needed (.related declared isAssigned isTarget)
        have isNamed : relation.target ∈ store.registry.names :=
          reached.closed.targets _ registered relation
            (List.mem_filterMap.mpr ⟨_, declared, rfl⟩)
        obtain ⟨type, isType⟩ := Registry.exists_mapping isNamed
        obtain ⟨own, others⟩ := object_read_back regularAfter orderlyAfter fits run conserve keeps
          visible assigned resolves isColumn.symm found
          (regularAfter.sound.registry.mapping?_of_subset course.grows.registered isType)
        exact ⟨targetId, isTarget, own, contentAt ▸ others⟩

set_option maxRecDepth 100000 in
/-- Bo is new and saved with Ada; when the cache has been cleared, another instance of his row
still reads his name. -/
theorem saved_values_read_back_friends : ∃ store after later fresh last : Store Tables.World,
    ∃ id subject, (Store.save (Samples.deployment.session 0) 0).run store = (.ok (), after) ∧
      (store.instanceAt 1).state = .transient ∧ after.idOf 1 = some id ∧
      later.cache.find? (Key.withId "Person" id) = none ∧
      (Store.reference "Person" id).run later = (.ok subject, fresh) ∧
      (Store.read (Samples.deployment.session 0) subject "name").run fresh
        = (.ok (.text "Bo"), last) ∧
      Store.ReadsBack (Tables.layout fun _ => "id") (Samples.deployment.session 0) store after later
        1 id := by
  obtain ⟨store, visited⟩ : ∃ store, Samples.deployment.visited? Samples.friends = some store :=
    Option.isSome_iff_exists.mp (by decide +kernel)
  have facts : ∀ store ∈ Samples.deployment.visited? Samples.friends,
      let saved := (Store.save (Samples.deployment.session 0) 0).run store
      let acts := Samples.deployment.enact [(0, .clearCache)] saved.2
      let later := left saved.2 acts
      let made := (Store.reference "Person" 2).run later
      saved.1.isOk = true ∧ named saved.2 acts = true ∧ (∀ act ∈ acts, act.outcome.isOk = true) ∧
        0 < store.memory.size ∧ (store.instanceAt 1).state = .transient ∧
        (store.instanceAt 1).vanished = false ∧ (store.instanceAt 1).row = none ∧
        1 ∈ (Node.ofMemory store.memory 0).content.targets ∧ saved.2.idOf 1 = some 2 ∧
        (∀ other < store.memory.size, saved.2.idOf other = saved.2.idOf 1 → other = 1) ∧
        (later.cache.find? (Key.withId "Person" 2)).isNone = true ∧ made.1.isOk = true ∧
        made.1.toOption.map (fun subject =>
          ((Store.read (Samples.deployment.session 0) subject "name").run made.2).1.toOption)
          = some (some (.text "Bo")) ∧
        ∀ mapping ∈ later.registry.mappings, (Tables.layout fun _ => "id").column
          mapping.id.column = (Tables.layout fun _ => "id").column "id" := by
    decide +kernel
  obtain ⟨isOk, named, succeed, inMemory, isNew, visible, unread, refers, isTwo, alone, uncached,
    isMade, isBo, keyColumns⟩ := facts store visited
  generalize saved : (Store.save (Samples.deployment.session 0) 0).run store = result
    at isOk named succeed isTwo alone uncached isMade isBo keyColumns
  obtain ⟨outcome | _, after⟩ := result
  · cases isOk
  have run := run_enact named
  generalize left after _ = later at run uncached isMade isBo keyColumns
  generalize made : (Store.reference "Person" 2).run later = result at isMade isBo
  obtain ⟨outcome | subject, fresh⟩ := result
  · cases isMade
  replace isBo : ((Store.read (Samples.deployment.session 0) subject "name").run fresh).1.toOption
      = some (.text "Bo") := Option.some.inj isBo
  generalize reads : (Store.read (Samples.deployment.session 0) subject "name").run fresh = result
    at isBo
  have reached : Samples.deployment.Reached (fun _ _ _ => True) store :=
    reached_visited (fun _ _ _ _ => trivial) visited
  have needed : (store.instanceAt 1).needsWrite = true := by simp [Instance.needsWrite, isNew]
  have sole : Store.Sole (Tables.layout fun _ => "id") store after 0 1 := by
    intro other _ otherNeeded _ sameId
    refine alone other (Store.inMemory_of_present fun removed => ?_) sameId
    simp [Instance.needsWrite, removed] at otherNeeded
  have regularAfter := ((Action.follows_perform reached.regular
    (show (Action.save 0).InMemory _ from inMemory)).of_run saved).regular reached.regular
  have fits : ∀ mapping ∈ later.registry.mappings, (Tables.layout fun _ => "id").Fits mapping :=
    fun mapping member => ⟨(run.regular regularAfter).sound.registry.mappings mapping member,
      keyColumns mapping member⟩
  have conserve : ∀ act ∈ Samples.deployment.enact [(0, .clearCache)] after, act.Conserves 0 := by
    intro act member
    have step := List.mem_singleton.mp (mem_enact member)
    refine ⟨congrArg Prod.fst step, ?_, succeed act member⟩
    rw [show act.action = .clearCache from congrArg Prod.snd step]
    rfl
  have current : ∀ row, (store.instanceAt 1).row = some row →
      (Tables.layout fun _ => "id").Finds (store.instanceAt 1).mapping
        (store.view Samples.faithful 0) (store.instanceAt 1).key (some row) := by
    intro row isRow
    rw [unread] at isRow
    cases isRow
  obtain ⟨id, isId, readsBack⟩ := @saved_values_read_back _ _ _ Samples.faithful _ _ _ later 0 _ 1 _
    "sqlite" rfl (Tables.atRest_empty _ _) (fun _ _ _ impossible => by cases impossible) reached fits
    inMemory saved (.single refers) needed visible sole current run conserve
  obtain rfl : id = 2 := Option.some.inj (isId.symm.trans isTwo)
  obtain ⟨_ | value, last⟩ := result
  · cases isBo
  cases isBo
  exact ⟨store, after, later, fresh, last, 2, subject, saved, isNew, isId,
    Option.isNone_iff_eq_none.mp uncached, made, reads, readsBack⟩

set_option maxRecDepth 100000 in
/-- Two instances of a key are saved together, one of them with another name. The other is written
last and is put into the cache with the name that it knows, so that the name that the database
has is not read back. -/
theorem name_lost_in_cache : ∃ store after : Store Tables.World,
    Samples.deployment.Reached (fun _ _ _ => True) store ∧
      (Store.save (Samples.deployment.session 0) 1).run store = (.ok (), after) ∧
      (store.instanceAt 1).Assigns Dialect.sqlite after.idOf "name" (.text "Bo") ∧
      after.idOf 1 = some 1 ∧
      (Samples.faithful.published after.pool.world "person" 1).map (fun fields => fields "name")
        = some (.text "Bo") ∧
      ∃ subject fresh last, (Store.reference "Person" 1).run after = (.ok subject, fresh) ∧
        (Store.read (Samples.deployment.session 0) subject "name").run fresh
          = (.ok (.text "Ada"), last) := by
  obtain ⟨store, visited⟩ : ∃ store, Samples.deployment.visited? Samples.merged = some store :=
    Option.isSome_iff_exists.mp (by decide +kernel)
  have facts : ∀ store ∈ Samples.deployment.visited? Samples.merged,
      let saved := (Store.save (Samples.deployment.session 0) 1).run store
      let made := (Store.reference "Person" 1).run saved.2
      saved.1.isOk = true ∧ saved.2.idOf 1 = some 1 ∧
        (store.instanceAt 1).pending.lookup "name" = some (.value (.text "Bo")) ∧
        .scalar ⟨"name", .string, "name", true, none, none⟩
          ∈ (store.instanceAt 1).mapping.properties ∧
        (saved.2.pool.world.published.contents "person" 1).map (fun fields => fields "name")
          = some (.text "Bo") ∧
        made.1.isOk = true ∧
        made.1.toOption.map (fun subject =>
          ((Store.read (Samples.deployment.session 0) subject "name").run made.2).1.toOption)
          = some (some (.text "Ada")) := by
    decide +kernel
  obtain ⟨isOk, isOne, assigned, declared, held, isMade, isAda⟩ := facts store visited
  generalize saved : (Store.save (Samples.deployment.session 0) 1).run store = result
    at isOk isOne held isMade isAda
  obtain ⟨outcome | _, after⟩ := result
  · cases isOk
  generalize made : (Store.reference "Person" 1).run after = result at isMade isAda
  obtain ⟨outcome | subject, fresh⟩ := result
  · cases isMade
  replace isAda : ((Store.read (Samples.deployment.session 0) subject "name").run fresh).1.toOption
      = some (.text "Ada") := Option.some.inj isAda
  generalize reads : (Store.read (Samples.deployment.session 0) subject "name").run fresh = result
    at isAda
  obtain ⟨_ | value, last⟩ := result
  · cases isAda
  cases isAda
  exact ⟨store, after, reached_visited (fun _ _ _ _ => trivial) visited, saved,
    .scalar declared assigned, isOne, held, subject, fresh, last, made, reads⟩

end Deployment
end EntityStore
