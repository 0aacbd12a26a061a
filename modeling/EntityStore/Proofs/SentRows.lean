/-
What a save sends. Whether it succeeds or fails at any point, it only executes insertions of
new instances that its root reaches, each with the columns of all its properties in order and
with that of the id exactly where an id is drawn from a sequence, and updates of instances that
it reaches, with some of their columns in order and never without any. Each column is passed the
value of the property that it belongs to. It only asks for the next value of the sequence of a
new instance and for the row of an instance by its id.
-/

import EntityStore.Proofs.PutOffReferences
import EntityStore.Proofs.SentTexts
import EntityStore.Proofs.TableTexts

set_option autoImplicit false

namespace EntityStore

noncomputable def Deed.other? (described : Deed → Prop) : Deed → Option String
  | execute statement =>
      open Classical in if described (.execute statement) then none else some statement.text
  | query statement =>
      open Classical in if described (.query statement) then none else some statement.text
  | _ => none

theorem Deed.picksStatements_other? (described : Deed → Prop) :
    PicksStatements (other? described) := by
  rintro exchange (same | same | same | same | same) <;> rw [same] <;> rfl

theorem Deed.other?_toList {described : Deed → Prop} {deed : Deed} (isDescribed : described deed) :
    (other? described deed).toList = [] := by
  cases deed with
  | execute statement => rw [other?, if_pos isDescribed]; rfl
  | query statement => rw [other?, if_pos isDescribed]; rfl
  | _ => rfl

/-- Where nothing else is picked, all that is sent is as described. -/
theorem described_of_picked {described : Deed → Prop} {calls : List Exchange}
    (nothing : picked (Deed.other? described) calls = []) {call : Exchange} (member : call ∈ calls)
    {statement : Statement}
    (sends : call.deed = .execute statement ∨ call.deed = .query statement) :
    described call.deed := by
  have none' := List.filterMap_eq_nil_iff.mp nothing call member
  by_contra other
  rcases sends with same | same <;> rw [same] at none' other <;>
    exact absurd none' (by simp [Deed.other?, other])

namespace Store

/-- What an instance writes for a property: its own value into the property's column. A relation
is written as null or as an id of the instance that it is assigned. -/
inductive Fills {World : Type} (store : Store World) (dialect : Dialect) (subject : InstanceId) :
    Property → String × Value → Prop where
  | scalar (property : ScalarProperty) :
      Fills store dialect subject (.scalar property) (property.column,
        property.columnValue dialect ((store.instanceAt subject).pending.lookup property.name))
  | empty (relation : ObjectRelation) :
      Fills store dialect subject (.object relation) (relation.column, .null)
  | related {relation : ObjectRelation} {target : InstanceId} (id : Int64) :
      (store.instanceAt subject).pending.lookup relation.name = some (.entity target) →
      Fills store dialect subject (.object relation) (relation.column, .integer id)

theorem Fills.named {World : Type} {store : Store World} {dialect : Dialect} {subject : InstanceId}
    {property : Property} {entry : String × Value}
    (fills : store.Fills dialect subject property entry) : property.column? = some entry.1 := by
  cases fills <;> rfl

/-- The row that is inserted for an instance of a mapping: all columns in table order, but for the
id where none is drawn. -/
structure Inserts {World : Type} (store : Store World) (dialect : Dialect) (subject : InstanceId)
    (mapping : Mapping) (entries : List (String × Value)) : Prop where
  names : entries.map Prod.fst
    = if dialect.drawsIds mapping then mapping.columns else mapping.columns.tail
  key : dialect.drawsIds mapping = true →
    ∃ id, entries.head? = some (mapping.id.column, .integer id)
  values : List.Forall₂ (store.Fills dialect subject) mapping.columnProperties
    (if dialect.drawsIds mapping then entries.tail else entries)

inductive Executes {World : Type} (store : Store World) (dialect : Dialect) (root : InstanceId) :
    Statement → Prop where
  | insertion {subject : InstanceId} {entries : List (String × Value)} :
      store.NewFrom root subject →
      store.Inserts dialect subject (store.instanceAt subject).mapping entries →
      Executes store dialect root
        (Statement.insert dialect (store.instanceAt subject).mapping entries)
  | change {subject : InstanceId} {properties : List Property} {entries : List (String × Value)}
      {id : Int64} :
      Reaches store.memory root subject → entries ≠ [] →
      properties.Sublist (store.instanceAt subject).mapping.columnProperties →
      List.Forall₂ (store.Fills dialect subject) properties entries →
      Executes store dialect root
        (Statement.update dialect (store.instanceAt subject).mapping entries id)

inductive Queries {World : Type} (store : Store World) (dialect : Dialect) (root : InstanceId) :
    Statement → Prop where
  | draw {subject : InstanceId} {sequence : String} {statement : Statement} :
      store.NewFrom root subject →
      (store.instanceAt subject).mapping.id.sequence = some sequence →
      Statement.nextValue? dialect sequence = some statement →
      Queries store dialect root statement
  | row (mapping : Mapping) (id : Int64) :
      Queries store dialect root (Statement.selectById dialect mapping id)

def Saves {World : Type} (store : Store World) (dialect : Dialect) (root : InstanceId) :
    Deed → Prop
  | .execute statement => store.Executes dialect root statement
  | .query statement => store.Queries dialect root statement
  | _ => True

variable {World : Type} {inner : Deployment World} {thread : ThreadId} {lease : LeaseId}
  {described : Deed → Prop}

/-! ### The passes of a save -/

abbrev OnlySends (described : Deed → Prop) (lease : LeaseId) {α : Type}
    (operation : Operation (Traced World) α) (holds : α → Prop) : Prop :=
  Sends (Deed.other? described) lease operation [] holds

private theorem keeps_drawIds {plan : List PlannedNode}
    (draws : ∀ planned ∈ plan, ∀ sequence statement,
      planned.sequence? inner.dialect = some sequence →
      Statement.nextValue? inner.dialect sequence = some statement →
      described (.query statement)) :
    OnlySends described lease (drawIds (inner.traced.session thread) lease plan) fun ids =>
      ids.map Prod.fst = (plan.filter fun planned =>
        (planned.sequence? inner.dialect).isSome).map PlannedNode.place := by
  have keeps (sequence : String) (isDescribed : ∀ statement,
        Statement.nextValue? inner.dialect sequence = some statement →
        described (.query statement)) :
      OnlySends described lease (drawId (inner.traced.session thread) lease sequence)
        fun _ => True := by
    unfold drawId
    dsimp only
    split
    · exact sends_throw
    · rename_i statement next
      have unpicked := Deed.other?_toList (isDescribed statement next)
      refine sends_silent_bind (sends_call unpicked) fun rows _ => ?_
      split
      · exact sends_pure trivial
      · exact sends_throw
  induction plan with
  | nil => exact sends_pure rfl
  | cons planned rest ih =>
      have later := ih fun other member => draws other (List.mem_cons_of_mem planned member)
      unfold drawIds
      cases sequenced : planned.sequence? inner.dialect with
      | none =>
          rw [show planned.sequence? (inner.traced.session thread).dialect = none from sequenced,
            List.filter_cons_of_neg (by simp [sequenced])]
          exact later
      | some sequence =>
          rw [show planned.sequence? (inner.traced.session thread).dialect = some sequence
            from sequenced, List.filter_cons_of_pos (by simp [sequenced])]
          refine sends_silent_bind (keeps sequence fun statement next =>
            draws planned List.mem_cons_self sequence statement sequenced next) fun id _ => ?_
          refine sends_silent_bind later fun ids places => sends_pure ?_
          rw [List.map_cons, List.map_cons, places]

/-- The columns of an insertion only depend on whether the id is known before it. Since places
differ, what is inserted earlier does not matter. -/
theorem keeps_insertAll {known : List Nat} {insertions : List Waiting}
    (inserts : ∀ waiting ∈ insertions, ∀ ids : Ids,
      (waiting.planned.place ∈ ids.map Prod.fst ↔ waiting.planned.place ∈ known) →
      described (.execute
        (Statement.insert inner.dialect waiting.planned.mapping (waiting.columns ids))))
    (apart : (insertions.map fun waiting => waiting.planned.place).Nodup) (ids : Ids)
    (same : ∀ waiting ∈ insertions,
      waiting.planned.place ∈ ids.map Prod.fst ↔ waiting.planned.place ∈ known) :
    OnlySends described lease (insertAll (inner.traced.session thread) lease insertions ids)
      fun result => result.1.map Prod.fst = insertions := by
  induction insertions generalizing ids with
  | nil => exact sends_pure rfl
  | cons waiting rest ih =>
      rw [List.map_cons, List.nodup_cons] at apart
      have isDescribed := inserts waiting List.mem_cons_self ids (same waiting List.mem_cons_self)
      have insertsFirst : OnlySends described lease
          (insert (inner.traced.session thread) lease ids waiting)
          fun written => written.planned = waiting.planned := by
        unfold insert
        dsimp only
        refine sends_silent_bind (sends_call (Deed.other?_toList isDescribed)) fun affected _ => ?_
        split
        · exact sends_pure rfl
        · exact sends_silent_bind (sends_call rfl) fun id _ => sends_pure rfl
      unfold insertAll
      refine sends_silent_bind insertsFirst fun written _ => ?_
      refine sends_silent_bind (ih (fun other member =>
        inserts other (List.mem_cons_of_mem waiting member)) apart.2 _ ?_)
        fun result inserted => sends_pure ?_
      · intro other member
        have different : other.planned.place ≠ waiting.planned.place := by
          intro equal
          exact apart.1 (equal ▸
            List.mem_map_of_mem (f := fun one : Waiting => one.planned.place) member)
        rw [List.map_cons, List.mem_cons, or_iff_right different]
        exact same other (List.mem_cons_of_mem waiting member)
      · rw [List.map_cons, inserted]

private theorem keeps_update {mapping : Mapping} {columns : List (String × Value)} {id : Int64}
    (updates : columns ≠ [] →
      described (.execute (Statement.update inner.dialect mapping columns id))) :
    OnlySends described lease (update (inner.traced.session thread) lease mapping columns id)
      fun _ => True := by
  unfold update
  split
  · rename_i some'
    have unpicked := Deed.other?_toList (updates (by simpa using some'))
    exact sends_silent_bind (sends_call unpicked) fun _ _ => sends_pure trivial
  · exact sends_pure trivial

private theorem keeps_completeAll {ids : Ids} {inserted : List (Waiting × Written)}
    (updates : ∀ entry ∈ inserted, ∀ id, Assignment.columns ids entry.1.postponed ≠ [] →
      described (.execute (Statement.update inner.dialect entry.1.planned.mapping
        (Assignment.columns ids entry.1.postponed) id))) :
    OnlySends described lease (completeAll (inner.traced.session thread) lease ids inserted)
      fun _ => True := by
  induction inserted with
  | nil => exact sends_pure trivial
  | cons entry rest ih =>
      unfold completeAll
      refine sends_silent_bind (keeps_update fun some' =>
        updates entry List.mem_cons_self entry.2.id some') fun _ _ => ?_
      exact sends_silent_bind (ih fun other member =>
        updates other (List.mem_cons_of_mem entry member)) fun _ _ => sends_pure trivial

private theorem keeps_rowBefore (content : Instance)
    (reads : ∀ mapping id, described (.query (Statement.selectById inner.dialect mapping id))) :
    OnlySends described lease (rowBefore (inner.traced.session thread) lease content)
      fun _ => True := by
  have fetches : OnlySends described lease
      (fetchRow (inner.traced.session thread) lease content.mapping content.key)
      fun _ => True := by
    unfold fetchRow
    split
    · exact sends_pure trivial
    · exact sends_silent_bind (sends_call (Deed.other?_toList (reads _ _)))
        fun _ _ => sends_pure trivial
  unfold rowBefore
  split
  · exact sends_pure trivial
  · refine sends_silent_bind fetches fun row _ => ?_
    split
    · exact sends_pure trivial
    · exact sends_throw

private theorem keeps_updateAll {ids : Ids} {plan : List PlannedNode}
    (reads : ∀ mapping id, described (.query (Statement.selectById inner.dialect mapping id)))
    (updates : ∀ planned ∈ plan, ∀ old id,
      changedColumns old (Assignment.columns ids planned.assignments) ≠ [] →
      described (.execute (Statement.update inner.dialect planned.mapping
        (changedColumns old (Assignment.columns ids planned.assignments)) id))) :
    OnlySends described lease (updateAll (inner.traced.session thread) lease ids plan)
      fun _ => True := by
  induction plan with
  | nil => exact sends_pure trivial
  | cons planned rest ih =>
      have later := ih fun other member => updates other (List.mem_cons_of_mem planned member)
      unfold updateAll
      split
      · refine sends_silent_bind (keeps_rowBefore _ reads) fun old _ => ?_
        refine sends_silent_bind (keeps_update fun some' =>
          updates planned List.mem_cons_self old _ some') fun _ _ => ?_
        exact sends_silent_bind later fun _ _ => sends_pure trivial
      · exact later

private theorem apart_of_scheduled {known : List Nat} {plan : List PlannedNode}
    (apart : (plan.map PlannedNode.place).Nodup) :
    ((Schedule.ofPlan known plan).insertions.map fun waiting => waiting.planned.place).Nodup := by
  have complete := (Schedule.build_ordered known
    ((plan.filter PlannedNode.isNew).map fun planned => { planned := planned })).complete
  have scheduled := (complete.map PlannedNode.place).nodup_iff.mpr (by
    rw [List.map_map, List.map_map]
    exact apart.sublist (List.filter_sublist.map _))
  rw [List.map_append, List.map_append, List.map_map] at scheduled
  exact scheduled.of_append_left

private theorem keeps_writeAll {plan : List PlannedNode}
    (apart : (plan.map PlannedNode.place).Nodup) (draws : ∀ planned ∈ plan, ∀ sequence statement,
      planned.sequence? inner.dialect = some sequence →
      Statement.nextValue? inner.dialect sequence = some statement →
      described (.query statement))
    (reads : ∀ mapping id, described (.query (Statement.selectById inner.dialect mapping id)))
    (inserts : ∀ waiting ∈ (scheduleOf inner.dialect plan).insertions, ∀ ids : Ids,
      (waiting.planned.place ∈ ids.map Prod.fst ↔
        waiting.planned.place ∈ placesKnown inner.dialect plan) →
      described (.execute
        (Statement.insert inner.dialect waiting.planned.mapping (waiting.columns ids))))
    (updates : ∀ planned ∈ plan, ∀ ids : Ids, ∀ entries : List (String × Value), ∀ id,
      entries ≠ [] → entries.Sublist (Assignment.columns ids planned.assignments) →
      described (.execute (Statement.update inner.dialect planned.mapping entries id))) :
    OnlySends described lease (writeAll (inner.traced.session thread) lease plan)
      fun _ => True := by
  unfold writeAll
  refine sends_silent_bind (keeps_drawIds draws) fun drawn places => ?_
  have known : (plan.filterMap PlannedNode.id? ++ drawn).map Prod.fst
      = placesKnown inner.dialect plan := by
    rw [List.map_append, places]
    rfl
  dsimp only
  rw [known]
  have isPlanned : ∀ waiting ∈ (scheduleOf inner.dialect plan).insertions,
      waiting.planned ∈ plan :=
    fun waiting member => (List.mem_filter.mp (Schedule.planned_of_mem member)).1
  refine sends_silent_bind (keeps_insertAll inserts (apart_of_scheduled apart) _
    fun waiting _ => by rw [known]) fun ⟨inserted, ids⟩ areInsertions => ?_
  have completes : OnlySends described lease
      (completeAll (inner.traced.session thread) lease ids inserted) fun _ => True := by
    refine keeps_completeAll fun entry member id some' => ?_
    have isInsertion : entry.1 ∈ (scheduleOf inner.dialect plan).insertions :=
      areInsertions ▸ List.mem_map_of_mem member
    exact updates entry.1.planned (isPlanned entry.1 isInsertion) ids _ id some'
      (List.filter_sublist.map _)
  have changes : OnlySends described lease
      (updateAll (inner.traced.session thread) lease ids plan) fun _ => True :=
    keeps_updateAll reads fun planned member old id some' =>
      updates planned member ids _ id some' List.filter_sublist
  have finishes : OnlySends described lease (do
      let completed ← completeAll (inner.traced.session thread) lease ids inserted
      let changed ← updateAll (inner.traced.session thread) lease ids plan
      return completed ++ changed) fun _ => True :=
    sends_silent_bind completes fun _ _ => sends_silent_bind changes fun _ _ => sends_pure trivial
  dsimp only
  split
  · exact sends_throw_bind
  · exact finishes

/-! ### The plan -/

section Plan

variable {store : Store (Traced World)} {root : InstanceId} {graph : Graph} {dialect : Dialect}

private theorem forall₂_filterMap {α β γ : Type} {relates : α → γ → Prop} {choose : α → Option β}
    {image : β → γ} {things : List α} (related : ∀ thing ∈ things, ∀ chosen,
      choose thing = some chosen → relates thing (image chosen)) :
    List.Forall₂ relates (things.filter fun thing => (choose thing).isSome)
      ((things.filterMap choose).map image) := by
  induction things with
  | nil => exact .nil
  | cons thing rest ih =>
      have later := ih fun other member => related other (List.mem_cons_of_mem thing member)
      cases chosen : choose thing with
      | none =>
          rw [List.filter_cons_of_neg (by simp [chosen]), List.filterMap_cons_none chosen]
          exact later
      | some found =>
          rw [List.filter_cons_of_pos (by simp [chosen]), List.filterMap_cons_some chosen,
            List.map_cons]
          exact .cons (related thing List.mem_cons_self found chosen) later

private theorem forall₂_sublist {α β : Type} {relates : α → β → Prop} {things : List α}
    {all some' : List β} (related : List.Forall₂ relates things all) (part : some'.Sublist all) :
    ∃ found, found.Sublist things ∧ List.Forall₂ relates found some' := by
  induction related generalizing some' with
  | nil => exact ⟨[], List.Sublist.slnil, List.sublist_nil.mp part ▸ .nil⟩
  | @cons thing image things images relatesFirst _ ih =>
      cases part with
      | cons _ later =>
          obtain ⟨found, isPart, relatesFound⟩ := ih later
          exact ⟨found, isPart.cons thing, relatesFound⟩
      | cons_cons _ later =>
          obtain ⟨found, isPart, relatesFound⟩ := ih later
          exact ⟨thing :: found, isPart.cons_cons thing, .cons relatesFirst relatesFound⟩

variable (sound : store.Sound) (inMemory : root < store.memory.size)
  (collected : Graph.collect store.id store.memory root = .ok graph)
include sound collected

private theorem mem_placesKnown_of_new {planned : PlannedNode}
    (member : planned ∈ graph.plan dialect)
    (isNew : planned.isNew = true) : planned.place ∈ placesKnown dialect (graph.plan dialect) ↔
      dialect.drawsIds planned.mapping = true := by
  have transient : planned.content.state = .transient := of_decide_eq_true isNew
  have unkeyed := (sound.of_plan collected member).2.2.sound.fresh transient
  rw [mem_placesKnown member, show planned.content.key.id = none from unkeyed]
  unfold PlannedNode.sequence? Dialect.drawsIds
  cases dialect.hasSequences <;> simp [isNew]

private theorem fills_of_assigned {planned : PlannedNode} (member : planned ∈ graph.plan dialect)
    {property : Property} {assignment : Assignment} (ids : Ids)
    (assigned : graph.assignment? dialect planned.content property = some assignment) :
    store.Fills dialect planned.node.subject property
      (assignment.column, assignment.source.resolve ids) := by
  have content := sound.instanceAt_plan collected member
  unfold Graph.assignment? at assigned
  simp only at assigned
  split at assigned
  · cases assigned
  cases property with
  | scalar property =>
      cases assigned
      have fills := @Fills.scalar _ store dialect planned.node.subject property
      rw [content] at fills
      dsimp only
      rw [resolve_scalarSource]
      exact fills
  | object relation =>
      cases assigned
      dsimp only
      unfold Graph.referenceSource
      split
      · rename_i target isTarget
        split
        · rename_i place placed
          unfold Source.resolve
          dsimp only
          cases ids.lookup place with
          | none => exact .empty relation
          | some id => exact .related id (content ▸ isTarget)
        · exact .empty relation
      · exact .empty relation
  | collection relation => cases assigned

private theorem fills_part {planned : PlannedNode} (member : planned ∈ graph.plan dialect)
    {ids : Ids} {entries : List (String × Value)}
    (part : entries.Sublist (Assignment.columns ids planned.assignments)) :
    ∃ properties : List Property, properties.Sublist planned.mapping.columnProperties ∧
      List.Forall₂ (store.Fills dialect planned.node.subject) properties entries := by
  rw [(Graph.mem_plan.mp member).2, Graph.assignments] at part
  split at part
  · obtain ⟨properties, isPart, writes⟩ := forall₂_sublist (forall₂_filterMap
      fun property _ assignment assigned =>
        fills_of_assigned sound collected member ids assigned) part
    refine ⟨properties, isPart.trans ?_, writes⟩
    refine List.monotone_filter_right _ fun property isAssigned => ?_
    obtain ⟨assignment, assigned⟩ := Option.isSome_iff_exists.mp isAssigned
    rw [(Graph.assignment?_eq_some assigned).2]
    rfl
  · rw [List.sublist_nil.mp part]
    exact ⟨[], List.nil_sublist _, .nil⟩

include inMemory

private theorem relation_of_deferred {waiting : Waiting}
    (member : waiting ∈ (scheduleOf dialect (graph.plan dialect)).insertions)
    {property : Property} (declared : property ∈ waiting.planned.mapping.properties)
    (deferred : property.name ∈ waiting.deferred) : ∃ relation, property = .object relation := by
  have isPlanned := (List.mem_filter.mp (Schedule.planned_of_mem member)).1
  have wellFormed := (sound.fit_of_plan collected isPlanned).tidy.wellFormed
  obtain ⟨assignment, isAssignment, named, target, isAwaited, needed, _⟩ :=
    Schedule.ofPlan_putsOff (closed_plan sound inMemory collected) waiting member _ deferred
  obtain ⟨relation, isRelation, _, rfl⟩ :=
    relation_of_assignment sound collected isPlanned isAwaited.1 isAssignment needed
  rw [sound.instanceAt_plan collected isPlanned] at isRelation
  exact ⟨relation, List.inj_on_of_nodup_map wellFormed.distinctNames declared isRelation
    named.symm⟩

private theorem fills_whole {waiting : Waiting}
    (member : waiting ∈ (scheduleOf dialect (graph.plan dialect)).insertions) (ids : Ids) :
    List.Forall₂ (store.Fills dialect waiting.planned.node.subject)
      waiting.planned.mapping.columnProperties
      (waiting.planned.assignments.map fun assignment => (assignment.column,
        if waiting.deferred.contains assignment.property then .null
        else assignment.source.resolve ids)) := by
  obtain ⟨isPlanned, isNew⟩ := List.mem_filter.mp (Schedule.planned_of_mem member)
  have transient : waiting.planned.content.state = .transient := of_decide_eq_true isNew
  have needed : waiting.planned.content.needsWrite = true := by
    simp [Instance.needsWrite, transient]
  have sameProperties : waiting.planned.mapping.columnProperties
      = waiting.planned.mapping.properties.filter fun property =>
        (graph.assignment? dialect waiting.planned.content property).isSome := by
    refine List.filter_congr fun property _ => ?_
    cases property with
    | scalar property => rw [assignment?_scalar isNew]; rfl
    | object relation => rw [assignment?_object isNew]; rfl
    | collection relation =>
        unfold Graph.assignment?
        simp [transient, Property.column?]
  rw [(Graph.mem_plan.mp isPlanned).2, Graph.assignments, if_pos needed, sameProperties]
  refine forall₂_filterMap fun property declared assignment assigned => ?_
  obtain ⟨named, isColumn⟩ := Graph.assignment?_eq_some assigned
  split
  · rename_i deferred
    rw [List.contains_iff_mem, named] at deferred
    obtain ⟨relation, rfl⟩ := relation_of_deferred sound inMemory collected member declared deferred
    rw [← Option.some.inj isColumn]
    exact .empty relation
  · exact fills_of_assigned sound collected isPlanned ids assigned

private theorem executes_insertion {waiting : Waiting}
    (member : waiting ∈ (scheduleOf dialect (graph.plan dialect)).insertions) {ids : Ids}
    (same : waiting.planned.place ∈ ids.map Prod.fst ↔
      waiting.planned.place ∈ placesKnown dialect (graph.plan dialect)) :
    store.Executes dialect root
      (Statement.insert dialect waiting.planned.mapping (waiting.columns ids)) := by
  obtain ⟨isPlanned, isNew⟩ := List.mem_filter.mp (Schedule.planned_of_mem member)
  have isNewFrom := (@newFrom_iff _ _ _ dialect _ sound inMemory collected _).mpr
    ⟨waiting.planned, isPlanned, isNew, rfl⟩
  have fills := fills_whole sound inMemory collected member ids
  have named := @Mapping.names_of_columnProperties _ _ _ Prod.fst _ (fun _ _ => Fills.named) fills
  have drawn : waiting.planned.place ∈ ids.map Prod.fst ↔
      dialect.drawsIds waiting.planned.mapping = true :=
    same.trans (mem_placesKnown_of_new sound collected isPlanned isNew)
  have inserts : store.Inserts dialect waiting.planned.node.subject waiting.planned.mapping
      (waiting.columns ids) := by
    unfold Waiting.columns
    dsimp only
    cases known : ids.lookup waiting.planned.place with
    | some id =>
        have draws := drawn.mp (List.mem_map_of_mem (f := Prod.fst) (mem_of_lookup known))
        refine ⟨?_, fun _ => ⟨id, rfl⟩, ?_⟩
        · rw [if_pos draws, List.map_append, named]
          rfl
        · rw [if_pos draws]
          exact fills
    | none =>
        have drawsNone : ¬dialect.drawsIds waiting.planned.mapping = true := by
          intro draws
          obtain ⟨id, isId⟩ := exists_lookup (drawn.mpr draws)
          rw [known] at isId
          cases isId
        refine ⟨?_, fun draws => absurd draws drawsNone, ?_⟩
        · rw [if_neg drawsNone, List.map_append, named]
          rfl
        · rw [if_neg drawsNone]
          exact fills
  have executes (entries : List (String × Value)) :=
    @Executes.insertion _ store dialect root _ entries isNewFrom
  rw [sound.instanceAt_plan collected isPlanned] at executes
  exact executes _ inserts

private theorem executes_change {planned : PlannedNode} (member : planned ∈ graph.plan dialect)
    {ids : Ids} {entries : List (String × Value)} (some' : entries ≠ [])
    (part : entries.Sublist (Assignment.columns ids planned.assignments)) (id : Int64) :
    store.Executes dialect root (Statement.update dialect planned.mapping entries id) := by
  obtain ⟨properties, isPart, writes⟩ := fills_part sound collected member part
  have changes := @Executes.change _ store dialect root _ properties entries id
    (sound.reaches_of_plan inMemory collected member) some'
  rw [sound.instanceAt_plan collected member] at changes
  exact changes isPart writes

private theorem queries_draw {planned : PlannedNode} (member : planned ∈ graph.plan dialect)
    {sequence : String} {statement : Statement}
    (sequenced : planned.sequence? dialect = some sequence)
    (next : Statement.nextValue? dialect sequence = some statement) :
    store.Queries dialect root statement := by
  unfold PlannedNode.sequence? at sequenced
  split at sequenced
  · rename_i isNew
    have isNewFrom := (@newFrom_iff _ _ _ dialect _ sound inMemory collected _).mpr
      ⟨planned, member, (Bool.and_eq_true_iff.mp isNew).1, rfl⟩
    have draws := @Queries.draw _ store dialect root _ sequence statement isNewFrom
    rw [sound.instanceAt_plan collected member] at draws
    exact draws sequenced next
  · cases sequenced

end Plan

/-- Whatever a save sends before it succeeds or fails are insertions of new instances that its
root reaches and updates of instances that it reaches, and before these the draws of their ids and
the reads of their rows. -/
theorem sent_by_save {store : Store (Traced World)} {root : InstanceId} (regular : store.Regular)
    (inMemory : root < store.memory.size) :
    Ensures (save (inner.traced.session thread) root) store
      (store.Prolongs fun _ calls => ∀ call ∈ calls, ∀ statement,
        call.deed = .execute statement ∨ call.deed = .query statement →
        store.Saves inner.dialect root call.deed) := by
  have sound := regular.sound
  have sends : Ensures (save (inner.traced.session thread) root) store
      (store.Prolongs (Sent (Deed.other? (store.Saves inner.dialect root)) [])) := by
    unfold save
    refine prolongs_ensureOpen_bind (fun _ => .of_error_nil) fun _ => ?_
    refine prolongs_silent_bind (run_get store) rfl ?_
    refine prolongs_still_bind (run_settleOutcome _ store) (fun _ _ => .of_error_nil) ?_
    intro graph collected
    split
    case isTrue =>
      refine sent_bind (sent_unit (Deed.picksStatements_other? _) regular.leased fun lease => ?_)
        fun written between => ?_
      · refine sends_bind_silent
          (keeps_writeAll (Graph.places_plan inner.dialect graph) ?_ ?_ ?_ ?_)
          fun _ _ => sends_pure trivial
        · exact fun planned member sequence statement sequenced next =>
            queries_draw sound inMemory collected member sequenced next
        · exact fun mapping id => Queries.row mapping id
        · exact fun waiting member ids same =>
            executes_insertion sound inMemory collected member same
        · exact fun planned member ids entries id some' part =>
            executes_change sound inMemory collected member some' part id
      · obtain ⟨after, settles⟩ := run_settleAll (inner.traced.session thread) written between
        rw [settles]
        exact pool_settleAll settles
    case isFalse => exact ⟨[], (List.append_nil _).symm, List.prefix_rfl, fun _ _ => rfl⟩
  refine sends.weaken fun outcome after prolongs => prolongs.weaken fun calls sent => ?_
  exact fun call member statement => described_of_picked (List.prefix_nil.mp sent.begins) member

end Store

end EntityStore
