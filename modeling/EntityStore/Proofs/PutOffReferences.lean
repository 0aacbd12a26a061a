/-
Which references a save puts off. While nothing is ready everything that waits is blocked by
something that waits, and so a reference that is put off leads into a circle of new instances
that wait for each other. The instance that puts it off may stand before the circle. It is
inserted with null for that reference and updated in the end; an instance all of whose
references lead into no circle is inserted with all of them and never updated.
-/

import EntityStore.Proofs.MinimalUpdates
import EntityStore.Proofs.ReferenceCircles
import EntityStore.Proofs.References

set_option autoImplicit false

namespace EntityStore

/-! ### Leading into a circle -/

def LeadsIntoCircle {α : Type} (leads : α → α → Prop) (thing : α) : Prop :=
  ∃ other, Relation.ReflTransGen leads thing other ∧ Relation.TransGen leads other other

theorem LeadsIntoCircle.lift {α β : Type} {leads : α → α → Prop} {follows : β → β → Prop}
    {thing : α} (circle : LeadsIntoCircle leads thing) (image : α → β)
    (step : ∀ first second, leads first second → follows (image first) (image second)) :
    LeadsIntoCircle follows (image thing) := by
  obtain ⟨other, before, around⟩ := circle
  exact ⟨image other, before.lift image step, around.lift image step⟩

/-- Where each of finitely many things leads to one of them, each leads into a circle. -/
theorem leadsIntoCircle_of_forall {α : Type} {leads : α → α → Prop} {things : List α}
    (next : ∀ thing ∈ things, ∃ other ∈ things, leads thing other) {start : α}
    (member : start ∈ things) : LeadsIntoCircle leads start := by
  classical
  -- the circle is to be found among what the start leads to
  let beyond (first second : α) : Prop := Relation.ReflTransGen leads start first ∧ leads first second
  let reached := things.filter fun thing => Relation.ReflTransGen leads start thing
  have mem_reached (thing : α) : thing ∈ reached ↔
      thing ∈ things ∧ Relation.ReflTransGen leads start thing := by
    simp [reached]
  have nextReached : ∀ thing ∈ reached, ∃ other ∈ reached, beyond thing other := by
    intro thing isReached
    obtain ⟨isThing, before⟩ := (mem_reached thing).mp isReached
    obtain ⟨other, isOther, leadsOn⟩ := next thing isThing
    exact ⟨other, (mem_reached other).mpr ⟨isOther, before.tail leadsOn⟩, before, leadsOn⟩
  obtain ⟨thing, circle⟩ := exists_transGen_self
    (List.ne_nil_of_mem ((mem_reached start).mpr ⟨member, .refl⟩)) nextReached
  obtain ⟨_, ⟨before, _⟩, _⟩ := Relation.TransGen.head'_iff.mp circle
  exact ⟨thing, before, circle.lift id fun _ _ => And.right⟩

/-! ### What a schedule puts off -/

def PlannedNode.Awaits (known : List Nat) (plan : List PlannedNode)
    (planned other : PlannedNode) : Prop :=
  planned.IsAwaited known plan ∧ other.IsAwaited known plan ∧
    ∃ assignment ∈ planned.assignments, assignment.source.place? = some other.place

def Waiting.PutsOff (known : List Nat) (plan : List PlannedNode) (waiting : Waiting) : Prop :=
  ∀ property ∈ waiting.deferred, ∃ assignment ∈ waiting.planned.assignments,
    assignment.property = property ∧ ∃ other, other.IsAwaited known plan ∧
      assignment.source.place? = some other.place ∧
      LeadsIntoCircle (PlannedNode.Awaits known plan) other

theorem Waiting.exists_blocker {current : List Nat} {waiting : Waiting}
    (unready : waiting.isReady current = false) : ∃ blocker, blocker ∈ waiting.blockers current :=
  List.exists_mem_of_ne_nil _ (List.isEmpty_eq_false_iff.mp unready)

theorem Waiting.mem_blockers {current : List Nat} {waiting : Waiting} {blocker : Assignment} :
    blocker ∈ waiting.blockers current ↔ blocker ∈ waiting.planned.assignments ∧
      blocker.property ∉ waiting.deferred ∧
      ∃ place, blocker.source.place? = some place ∧ place ∉ current := by
  unfold blockers Assignment.isOpen
  rw [List.mem_filter, mem_immediate, Option.any_eq_true, and_assoc]
  simp

namespace Schedule

variable {known current : List Nat} {plan : List PlannedNode}

private theorem mem_of_deferFirst? {waiting eased : List Waiting}
    (found : deferFirst? current waiting = some eased) :
    ∀ one ∈ eased, one ∈ waiting ∨ ∃ before ∈ waiting, before.deferFirst? current = some one := by
  induction waiting generalizing eased with
  | nil => simp [deferFirst?] at found
  | cons head tail ih =>
      unfold deferFirst? at found
      split at found
      · rename_i relaxed foundHead
        cases found
        intro one member
        rcases List.mem_cons.mp member with rfl | isTail
        · exact Or.inr ⟨head, List.mem_cons_self, foundHead⟩
        · exact Or.inl (List.mem_cons_of_mem head isTail)
      · obtain ⟨others, foundOthers, rfl⟩ := Option.map_eq_some_iff.mp found
        intro one member
        rcases List.mem_cons.mp member with rfl | isTail
        · exact Or.inl List.mem_cons_self
        · refine (ih foundOthers one isTail).imp (List.mem_cons_of_mem head) ?_
          rintro ⟨before, isBefore, defers⟩
          exact ⟨before, List.mem_cons_of_mem head isBefore, defers⟩

structure Pending (known : List Nat) (plan : List PlannedNode) (current : List Nat)
    (waiting : List PlannedNode) : Prop where
  known : ∀ place ∈ known, place ∈ current
  planned : ∀ one ∈ waiting, one ∈ plan ∧ one.isNew = true
  remaining : ∀ other ∈ plan, other.isNew = true → other.place ∉ current → other ∈ waiting

namespace Pending

variable {waiting : List Waiting}

private theorem awaited (pending : Pending known plan current (waiting.map Waiting.planned))
    {one : Waiting} (member : one ∈ waiting) (missing : one.planned.place ∉ current) :
    one.planned.IsAwaited known plan := by
  obtain ⟨isPlanned, isNew⟩ := pending.planned _ (List.mem_map_of_mem member)
  exact ⟨isPlanned, isNew, fun isKnown => missing (pending.known _ isKnown)⟩

private theorem of_blocker (closed : Closed known plan)
    (pending : Pending known plan current (waiting.map Waiting.planned)) {one : Waiting}
    (member : one ∈ waiting) {blocker : Assignment} (blocks : blocker ∈ one.blockers current) :
    ∃ other ∈ waiting, other.planned.place ∉ current ∧
      blocker.source.place? = some other.planned.place := by
  obtain ⟨isAssignment, _, place, needed, missing⟩ := Waiting.mem_blockers.mp blocks
  have isPlanned := (pending.planned _ (List.mem_map_of_mem member)).1
  rcases closed _ isPlanned blocker isAssignment place needed with isKnown | found
  · exact absurd (pending.known place isKnown) missing
  · obtain ⟨other, isOther, isNew, rfl⟩ := found
    obtain ⟨waits, isWaiting, rfl⟩ := List.mem_map.mp (pending.remaining other isOther isNew missing)
    exact ⟨waits, isWaiting, missing, needed⟩

private theorem leadsIntoCircle (closed : Closed known plan)
    (pending : Pending known plan current (waiting.map Waiting.planned))
    (noReady : takeReady? current waiting = none) {one : Waiting} (member : one ∈ waiting)
    (missing : one.planned.place ∉ current) :
    LeadsIntoCircle (PlannedNode.Awaits known plan) one.planned := by
  let open' := waiting.filter fun other => !current.contains other.planned.place
  have mem_open (other : Waiting) :
      other ∈ open' ↔ other ∈ waiting ∧ other.planned.place ∉ current := by
    simp [open']
  have next : ∀ planned ∈ open'.map Waiting.planned, ∃ other ∈ open'.map Waiting.planned,
      PlannedNode.Awaits known plan planned other := by
    intro planned isOpen
    obtain ⟨first, isFirst, rfl⟩ := List.mem_map.mp isOpen
    obtain ⟨isWaiting, unknown⟩ := (mem_open first).mp isFirst
    obtain ⟨blocker, blocks⟩ :=
      Waiting.exists_blocker (isReady_of_takeReady? noReady first isWaiting)
    obtain ⟨other, isOther, otherMissing, needed⟩ := pending.of_blocker closed isWaiting blocks
    exact ⟨_, List.mem_map_of_mem ((mem_open other).mpr ⟨isOther, otherMissing⟩),
      pending.awaited isWaiting unknown, pending.awaited isOther otherMissing, blocker,
      (Waiting.mem_blockers.mp blocks).1, needed⟩
  exact leadsIntoCircle_of_forall next
    (List.mem_map_of_mem ((mem_open one).mpr ⟨member, missing⟩))

private theorem putsOff_of_defer (closed : Closed known plan)
    (pending : Pending known plan current (waiting.map Waiting.planned))
    (noReady : takeReady? current waiting = none) {before relaxed : Waiting}
    (member : before ∈ waiting) (defers : before.deferFirst? current = some relaxed)
    (putsOff : before.PutsOff known plan) : relaxed.PutsOff known plan := by
  obtain ⟨blocker, found, rfl⟩ := Option.map_eq_some_iff.mp defers
  have blocks := List.mem_of_find?_eq_some found
  intro property deferred
  rcases List.mem_append.mp deferred with isOld | isLast
  · exact putsOff property isOld
  · obtain ⟨other, isOther, missing, needed⟩ := pending.of_blocker closed member blocks
    exact ⟨blocker, (Waiting.mem_blockers.mp blocks).1, (List.mem_singleton.mp isLast).symm,
      other.planned, pending.awaited isOther missing, needed,
      pending.leadsIntoCircle closed noReady isOther missing⟩

private theorem taken {next : Waiting} {rest : List Waiting}
    (pending : Pending known plan current (waiting.map Waiting.planned))
    (perm : (next :: rest).Perm waiting) :
    Pending known plan (next.planned.place :: current) (rest.map Waiting.planned) := by
  have same (planned : PlannedNode) : planned ∈ waiting.map Waiting.planned ↔
      planned = next.planned ∨ planned ∈ rest.map Waiting.planned := by
    rw [← (perm.map Waiting.planned).mem_iff, List.map_cons, List.mem_cons]
  refine ⟨fun place isKnown => List.mem_cons_of_mem _ (pending.known place isKnown),
    fun one member => pending.planned one ((same one).mpr (Or.inr member)), ?_⟩
  intro other isOther isNew missing
  rw [List.mem_cons, not_or] at missing
  refine ((same other).mp (pending.remaining other isOther isNew missing.2)).resolve_left ?_
  exact fun isNext => missing.1 (congrArg _ isNext)

end Pending

private theorem build_putsOff (closed : Closed known plan) (current : List Nat)
    (waiting : List Waiting) (pending : Pending known plan current (waiting.map Waiting.planned))
    (putsOff : ∀ one ∈ waiting, one.PutsOff known plan) :
    ∀ one ∈ (build current waiting).insertions, one.PutsOff known plan := by
  -- The induction follows the schedule: something is inserted as it is, or one more relation of
  -- something that waits is put off.
  induction current, waiting using build.induct with
  | case1 current waiting next rest found ih =>
      have perm := (takeReady?_ok found).2
      rw [build_of_ready found]
      refine List.forall_mem_cons.mpr ⟨putsOff next (perm.mem_iff.mp List.mem_cons_self), ?_⟩
      exact ih (pending.taken perm) fun one member =>
        putsOff one (perm.mem_iff.mp (List.mem_cons_of_mem next member))
  | case2 current waiting noReady eased found ih =>
      rw [build_of_eased noReady found]
      refine ih ((deferFirst?_ok found).1 ▸ pending) fun one member => ?_
      rcases mem_of_deferFirst? found one member with isOld | ⟨before, isBefore, defers⟩
      · exact putsOff one isOld
      · exact pending.putsOff_of_defer closed noReady isBefore defers (putsOff before isBefore)
  | case3 current waiting noReady noEased =>
      rw [build_of_stuck noReady noEased]
      exact fun _ impossible => absurd impossible List.not_mem_nil

theorem ofPlan_putsOff (closed : Closed known plan) :
    ∀ one ∈ (ofPlan known plan).insertions, one.PutsOff known plan := by
  refine build_putsOff closed known _ ?_ ?_
  · rw [List.map_map, show (plan.filter PlannedNode.isNew).map
      (Waiting.planned ∘ fun planned => { planned := planned }) = plan.filter PlannedNode.isNew
      from List.map_id' _]
    exact ⟨fun _ isKnown => isKnown, fun _ => List.mem_filter.mp,
      fun _ isOther isNew _ => List.mem_filter.mpr ⟨isOther, isNew⟩⟩
  · intro one member property impossible
    obtain ⟨planned, _, rfl⟩ := List.mem_map.mp member
    cases impossible

end Schedule

/-- The ids that are drawn are those of the new instances whose types have a sequence. -/
theorem Drawn.places {dialect : Dialect} {plan : List PlannedNode} {ids : Ids} {log : List Event}
    (drawn : Drawn dialect plan ids log) : ids.map Prod.fst
      = (plan.filter fun planned => (planned.sequence? dialect).isSome).map PlannedNode.place := by
  induction drawn with
  | nil => rfl
  | without none' _ ih => rw [ih, List.filter_cons_of_neg (by simp [none'])]
  | drawn sequenced _ _ ih =>
      rw [List.filter_cons_of_pos (by simp [sequenced]), List.map_cons, List.map_cons, ih]

theorem Drawn.answered {dialect : Dialect} {plan : List PlannedNode} {ids : Ids}
    {log : List Event} (drawn : Drawn dialect plan ids log) :
    ∀ event ∈ log, ∃ statement rows, event = .answered statement rows := by
  induction drawn with
  | nil => exact fun _ impossible => absurd impossible List.not_mem_nil
  | without _ _ ih => exact ih
  | drawn _ _ _ ih => exact List.forall_mem_cons.mpr ⟨⟨_, _, rfl⟩, ih⟩

theorem Writing.places {dialect : Dialect} {plan : List PlannedNode}
    (writing : Writing dialect plan) : writing.ids.map Prod.fst = Store.placesKnown dialect plan := by
  unfold Writing.ids Store.placesKnown
  rw [List.map_append, writing.draws.places]

/-! ### Insertions -/

structure Insertion where
  subject : InstanceId
  /-- The instance before the save. -/
  content : Instance
  id : Int64
  /-- The columns that are inserted. -/
  columns : List (String × Value)
  /-- What was asked to know the id afterwards. -/
  asked : List Event
  /-- The columns that are set once everything is inserted. -/
  putOff : List (String × Value)

namespace Insertion

def log (dialect : Dialect) (insertion : Insertion) : List Event :=
  .executed (Statement.insert dialect insertion.content.mapping insertion.columns)
    :: insertion.asked

def laterLog (dialect : Dialect) (insertion : Insertion) : List Event :=
  updateLog dialect insertion.content.mapping insertion.putOff insertion.id

structure CarriesOut (known : Ids) (insertion : Insertion) (entry : Waiting × Written) : Prop where
  subject : insertion.subject = entry.1.planned.node.subject
  content : insertion.content = entry.1.planned.content
  id : insertion.id = entry.2.id
  columns : ∃ ids, insertion.columns = entry.1.columns ids ∧
    entry.1.isReady (ids.map Prod.fst) = true ∧
    ∀ place id, ids.lookup place = some id → known.lookup place = some id
  asked : ∀ event ∈ insertion.asked, event = .generated insertion.id
  putOff : insertion.putOff = Assignment.columns known entry.1.postponed

private theorem updatedRow?_log {dialect : Dialect} {insertion : Insertion}
    (asked : ∀ event ∈ insertion.asked, event = .generated insertion.id) :
    ∀ event ∈ insertion.log dialect, event.updatedRow? = none := by
  refine List.forall_mem_cons.mpr ⟨rfl, fun event isAsked => ?_⟩
  rw [asked event isAsked]
  rfl

end Insertion

theorem Inserted.exists_insertions {dialect : Dialect} {ids known : Ids} {waiting : List Waiting}
    {inserted : List (Waiting × Written)} {log : List Event}
    (inserts : Inserted dialect ids waiting inserted known log)
    (ordered : Schedule.InOrder (ids.map Prod.fst) waiting) :
    ∃ insertions : List Insertion, log = insertions.flatMap (Insertion.log dialect) ∧
      List.Forall₂ (Insertion.CarriesOut known) insertions inserted := by
  -- The induction is on the insertions, each of which is ready in its turn.
  induction inserts with
  | nil ids => exact ⟨[], rfl, .nil⟩
  | @known ids known waiting rest id inserted log found later ih =>
      cases ordered with
      | cons ready orderedRest =>
      have extended : Inserted dialect ids (waiting :: rest) _ known _ := .known found later
      obtain ⟨insertions, rfl, carried⟩ := ih orderedRest
      exact ⟨⟨_, _, id, waiting.columns ids, [], _⟩ :: insertions, rfl,
        .cons ⟨rfl, rfl, rfl, ⟨ids, rfl, ready, fun _ _ => extended.keeps⟩, by simp, rfl⟩ carried⟩
  | @generated ids known waiting rest id inserted log missing later ih =>
      cases ordered with
      | cons ready orderedRest =>
      have extended : Inserted dialect ids (waiting :: rest) _ known _ := .generated missing later
      obtain ⟨insertions, rfl, carried⟩ := ih orderedRest
      exact ⟨⟨_, _, id, waiting.columns ids, [.generated id], _⟩ :: insertions, rfl,
        .cons ⟨rfl, rfl, rfl, ⟨ids, rfl, ready, fun _ _ => extended.keeps⟩, by simp, rfl⟩ carried⟩

theorem Completed.log_eq {dialect : Dialect} {known : Ids} {inserted : List (Waiting × Written)}
    {completed : List Written} {log : List Event}
    (completes : Completed dialect known inserted completed log) {insertions : List Insertion}
    (carried : List.Forall₂ (Insertion.CarriesOut known) insertions inserted) :
    log = insertions.flatMap (Insertion.laterLog dialect) := by
  induction completes generalizing insertions with
  | nil =>
      cases carried
      rfl
  | @cons waiting written rest later log _ ih =>
      cases carried with
      | @cons insertion _ insertions _ carries others =>
      rw [List.flatMap_cons, ← ih others, Insertion.laterLog, carries.content, carries.id,
        carries.putOff]
      rfl

theorem Writing.exists_insertions {dialect : Dialect} {plan : List PlannedNode}
    (writing : Writing dialect plan) : ∃ insertions : List Insertion,
      writing.insertLog = insertions.flatMap (Insertion.log dialect) ∧
      writing.completeLog = insertions.flatMap (Insertion.laterLog dialect) ∧
      insertions.map Insertion.subject
        = writing.inserted.map (fun entry => entry.1.planned.node.subject) ∧
      ∀ insertion ∈ insertions, ∃ entry ∈ writing.inserted,
        insertion.CarriesOut writing.known entry := by
  obtain ⟨insertions, isLog, carried⟩ :=
    writing.inserts.exists_insertions (Schedule.inOrder_ofPlan _ plan)
  refine ⟨insertions, isLog, writing.completes.log_eq carried, ?_, fun insertion member => ?_⟩
  · rw [← List.forall₂_eq_eq_eq, List.forall₂_map_left_iff, List.forall₂_map_right_iff]
    exact carried.imp fun _ _ carries => carries.subject
  · obtain ⟨place, inRange, rfl⟩ := List.getElem_of_mem member
    have inRange' : place < writing.inserted.length := carried.length_eq ▸ inRange
    exact ⟨_, List.getElem_mem inRange', carried.get inRange inRange'⟩

/-! ### Saves -/

namespace Store

variable {World : Type} {session : Session World} {store after : Store World}
  {root : InstanceId} {graph : Graph} {dialect : Dialect}

def Assigns (store : Store World) (subject : InstanceId) (relation : ObjectRelation)
    (target : InstanceId) : Prop :=
  .object relation ∈ (store.instanceAt subject).mapping.properties ∧
    (store.instanceAt subject).pending.lookup relation.name = some (.entity target)

/-- The first instance is assigned the second one, and neither has an id before it is
inserted. -/
def Awaits (store : Store World) (dialect : Dialect) (root subject target : InstanceId) : Prop :=
  store.Awaited dialect root subject ∧ store.Awaited dialect root target ∧
    ∃ relation, store.Assigns subject relation target

/-- The two instances follow each other on a circle of instances that wait for each other. -/
def OnCircle (store : Store World) (dialect : Dialect) (root subject target : InstanceId) : Prop :=
  store.Awaits dialect root subject target ∧
    Relation.ReflTransGen (store.Awaits dialect root) target subject

def EntersNoCircle (store : Store World) (dialect : Dialect) (root : InstanceId) : Prop :=
  ∀ subject relation target, store.NewFrom root subject → store.Assigns subject relation target →
    LeadsIntoCircle (store.Awaits dialect root) target → store.OnCircle dialect root subject target

/-- What is put off for an instance are ids of instances that lead into a circle; the ids of all
others that it refers to are inserted with it. -/
structure PutsOff (dialect : Dialect) (store after : Store World) (root : InstanceId)
    (insertion : Insertion) : Prop where
  found : insertion.content = store.instanceAt insertion.subject
  id : after.idOf insertion.subject = some insertion.id
  asked : ∀ event ∈ insertion.asked, event = .generated insertion.id
  putOff : ∀ entry ∈ insertion.putOff, ∃ relation target id,
    store.Assigns insertion.subject relation target ∧ relation.nullable = true ∧
      after.idOf target = some id ∧ entry = (relation.column, .integer id) ∧
      (relation.column, .null) ∈ insertion.columns ∧
      LeadsIntoCircle (store.Awaits dialect root) target
  inserted : ∀ relation target, store.Assigns insertion.subject relation target →
    relation.column ∉ insertion.putOff.map Prod.fst →
    ∃ id, after.idOf target = some id ∧ (relation.column, .integer id) ∈ insertion.columns

section Plans

variable (sound : store.Sound) (inMemory : root < store.memory.size)
  (collected : Graph.collect store.id store.memory root = .ok graph)
include sound inMemory collected

private theorem leadsIntoCircle_of_planned {planned : PlannedNode}
    (circle : LeadsIntoCircle (PlannedNode.Awaits
      (placesKnown dialect (graph.plan dialect)) (graph.plan dialect)) planned) :
    LeadsIntoCircle (store.Awaits dialect root) planned.node.subject := by
  refine circle.lift (fun one => one.node.subject) fun first second awaits => ?_
  obtain ⟨firstAwaited, secondAwaited, assignment, isAssignment, needed⟩ := awaits
  obtain ⟨relation, declared, assigned, _⟩ := relation_of_assignment sound collected
    firstAwaited.1 secondAwaited.1 isAssignment needed
  exact ⟨(isAwaited_iff sound inMemory collected firstAwaited.1).mp firstAwaited,
    (isAwaited_iff sound inMemory collected secondAwaited.1).mp secondAwaited, relation,
    declared, assigned⟩

private theorem putsOff_of_carriesOut (writing : Writing dialect (graph.plan dialect))
    (final : ∀ planned ∈ graph.plan dialect, ∃ id,
      writing.known.lookup planned.place = some id ∧ after.idOf planned.node.subject = some id)
    {insertion : Insertion} {entry : Waiting × Written} (member : entry ∈ writing.inserted)
    (carries : insertion.CarriesOut writing.known entry) :
    PutsOff dialect store after root insertion := by
  obtain ⟨isPlanned, isNew⟩ := writing.planned_of_inserted member
  have isInsertion : entry.1 ∈ writing.schedule.insertions := by
    rw [← writing.waiting_eq]
    exact List.mem_map_of_mem member
  have content := sound.instanceAt_plan collected isPlanned
  have tidy := (sound.fit_of_plan collected isPlanned).tidy
  obtain ⟨columns, isColumns, ready, keeps⟩ := carries.columns
  have distinct := tidy.names.nodup tidy.wellFormed.distinctNames
  have same : insertion.content = store.instanceAt insertion.subject := by
    rw [carries.content, carries.subject, content]
  refine ⟨same, ?_, carries.asked, ?_, ?_⟩
  · rw [carries.subject, carries.id]
    exact (newFrom_of_inserted sound inMemory collected final member).2
  · intro column isPutOff
    rw [carries.putOff] at isPutOff
    obtain ⟨assignment, isPostponed, rfl⟩ := List.mem_map.mp isPutOff
    obtain ⟨isAssignment, deferred⟩ := Waiting.mem_postponed.mp isPostponed
    have putsOff := @Schedule.ofPlan_putsOff (writing.ids.map Prod.fst) (graph.plan dialect)
      (writing.places ▸ closed_plan sound inMemory collected) entry.1 isInsertion
    obtain ⟨other, isOther, named, target, isAwaited, needed, circle⟩ :=
      putsOff assignment.property deferred
    obtain rfl := List.inj_on_of_nodup_map distinct isOther isAssignment named
    obtain ⟨relation, declared, assigned, rfl⟩ :=
      relation_of_assignment sound collected isPlanned isAwaited.1 isAssignment needed
    obtain ⟨id, isKnown, isFinal⟩ := final target isAwaited.1
    refine ⟨relation, target.node.subject, id, ?_, ?_, isFinal, ?_, ?_, ?_⟩
    · exact carries.subject ▸ ⟨declared, assigned⟩
    · exact (Schedule.lenient_ofPlan isInsertion).nullable tidy isAssignment deferred
    · simp [Source.resolve, isKnown]
    · rw [isColumns]
      exact Waiting.postponed_mem_columns columns isAssignment deferred
    · exact leadsIntoCircle_of_planned sound inMemory collected (writing.places ▸ circle)
  · intro relation target assigns immediate
    rw [carries.subject] at assigns
    unfold Assigns at assigns
    rw [content] at assigns
    obtain ⟨declared, assigned⟩ := assigns
    obtain ⟨other, isOther, rfl, isAssignment⟩ :=
      exists_reference sound inMemory collected isPlanned isNew declared assigned
    have notDeferred : relation.name ∉ entry.1.deferred := by
      intro deferred
      refine immediate ?_
      rw [carries.putOff, Assignment.columns, List.map_map]
      exact List.mem_map.mpr ⟨_, Waiting.mem_postponed.mpr ⟨isAssignment, deferred⟩, rfl⟩
    rw [isColumns]
    exact (inserted_of_immediate final keeps ready isOther isAssignment notDeferred).2

end Plans

/-- What a save asks for: ids for new instances, their insertions, what was put off for them, and
the changes of others. -/
def saveLog (dialect : Dialect) (draws : List Event) (insertions : List Insertion)
    (revisions : List Revision) : List Event :=
  draws ++ insertions.flatMap (Insertion.log dialect)
    ++ insertions.flatMap (Insertion.laterLog dialect)
    ++ revisions.flatMap (Revision.log · dialect)

def AloneInRow (store after : Store World) (root subject : InstanceId) : Prop :=
  ∀ other, Reaches store.memory root other → (store.instanceAt other).needsWrite = true →
    Statement.tableOf (store.instanceAt other).mapping
      = Statement.tableOf (store.instanceAt subject).mapping →
    after.idOf other = after.idOf subject → other = subject

/-- How a save writes the new instances that its root reaches: by one insertion each, and by an
update if something was put off. -/
structure InsertsOnce (dialect : Dialect) (store after : Store World) (root : InstanceId)
    (draws : List Event) (insertions : List Insertion) (revisions : List Revision) : Prop where
  answered : ∀ event ∈ draws, ∃ statement rows, event = .answered statement rows
  distinct : (insertions.map Insertion.subject).Nodup
  members : ∀ subject, subject ∈ insertions.map Insertion.subject ↔ store.NewFrom root subject
  revised : ∀ revision ∈ revisions, (store.instanceAt revision.subject).state = .dirty
  putsOff : ∀ insertion ∈ insertions, PutsOff dialect store after root insertion
  updated_iff : ∀ insertion ∈ insertions, AloneInRow store after root insertion.subject →
    ((∃ event ∈ saveLog dialect draws insertions revisions, event.updatedRow?
        = some (Statement.tableOf insertion.content.mapping, .integer insertion.id)) ↔
      insertion.putOff ≠ [])

theorem PutsOff.eq_nil {insertion : Insertion} (putsOff : PutsOff dialect store after root insertion)
    (free : ∀ relation target, store.Assigns insertion.subject relation target →
      ¬LeadsIntoCircle (store.Awaits dialect root) target) : insertion.putOff = [] := by
  refine List.eq_nil_iff_forall_not_mem.mpr fun entry isPutOff => ?_
  obtain ⟨relation, target, _, assigns, _, _, _, _, circle⟩ := putsOff.putOff entry isPutOff
  exact free relation target assigns circle

section Plans

variable (sound : store.Sound) (inMemory : root < store.memory.size)
  (collected : Graph.collect store.id store.memory root = .ok graph)
include sound inMemory collected

private theorem idOf_of_keyed (writing : Writing dialect (graph.plan dialect))
    (final : ∀ planned ∈ graph.plan dialect, ∃ id,
      writing.known.lookup planned.place = some id ∧ after.idOf planned.node.subject = some id)
    {subject : InstanceId} (reaches : Reaches store.memory root subject) {id : Int64}
    (keyed : store.idOf subject = some id) : after.idOf subject = some id := by
  obtain ⟨planned, isPlanned, rfl, _⟩ :=
    @exists_planned _ _ dialect ((sound.mem_graph inMemory collected _).mpr reaches)
  obtain ⟨known, isKnown, isFinal⟩ := final planned isPlanned
  unfold idOf at keyed
  rw [sound.instanceAt_plan collected isPlanned] at keyed
  rw [writing.known_of_id (Graph.places_plan dialect graph) isPlanned keyed] at isKnown
  exact isFinal.trans isKnown.symm

private theorem insertsOnce_of_writing (writing : Writing dialect (graph.plan dialect))
    (final : ∀ planned ∈ graph.plan dialect, ∃ id,
      writing.known.lookup planned.place = some id ∧ after.idOf planned.node.subject = some id)
    {effects : List CacheEffect} {revisions : List Revision}
    (revises : Revises dialect store after root
      (writing.drawLog ++ writing.insertLog ++ writing.completeLog) effects revisions) :
    ∃ insertions : List Insertion,
      writing.insertLog = insertions.flatMap (Insertion.log dialect) ∧
      writing.completeLog = insertions.flatMap (Insertion.laterLog dialect) ∧
      InsertsOnce dialect store after root writing.drawLog insertions revisions := by
  obtain ⟨insertions, isLog, isLater, subjects, carried⟩ := writing.exists_insertions
  have putsOff : ∀ insertion ∈ insertions, PutsOff dialect store after root insertion := by
    intro insertion member
    obtain ⟨entry, isEntry, carries⟩ := carried insertion member
    exact putsOff_of_carriesOut sound inMemory collected writing final isEntry carries
  have distinct : (insertions.map Insertion.subject).Nodup :=
    subjects ▸ nodup_inserted collected writing
  have members (subject : InstanceId) :
      subject ∈ insertions.map Insertion.subject ↔ store.NewFrom root subject :=
    subjects ▸ mem_inserted_iff sound inMemory collected writing
  have dirty : ∀ revision ∈ revisions, Reaches store.memory root revision.subject ∧
      (store.instanceAt revision.subject).state = .dirty := fun revision member =>
    (revises.members revision.subject).mp (List.mem_map_of_mem member)
  refine ⟨insertions, isLog, isLater, writing.draws.answered, distinct, members,
    fun revision member => (dirty revision member).2, putsOff, fun insertion member alone => ?_⟩
  have isNew := (members insertion.subject).mp (List.mem_map_of_mem member)
  have found := (putsOff insertion member).found
  have isFinal := (putsOff insertion member).id
  constructor
  · rintro ⟨event, isEvent, updates⟩
    unfold saveLog at isEvent
    rcases List.mem_append.mp isEvent with isEarlier | isRevision
    rcases List.mem_append.mp isEarlier with isEarlier | isCompletion
    rcases List.mem_append.mp isEarlier with isDraw | isInsertion
    · rw [writing.draws.updatedRow? event isDraw] at updates
      cases updates
    · obtain ⟨other, isOther, isEvent⟩ := List.mem_flatMap.mp isInsertion
      rw [Insertion.updatedRow?_log (putsOff other isOther).asked event isEvent] at updates
      cases updates
    · -- Another instance that is completed in this row would have to be this one.
      obtain ⟨other, isOther, isEvent⟩ := List.mem_flatMap.mp isCompletion
      have otherNew := (members other.subject).mp (List.mem_map_of_mem isOther)
      rw [updatedRow?_updateLog isEvent, (putsOff other isOther).found, found] at updates
      obtain ⟨table, id⟩ := Prod.mk.inj (Option.some.inj updates)
      have same := alone other.subject otherNew.1 (by simp [Instance.needsWrite, otherNew.2]) table
        (by rw [(putsOff other isOther).id, isFinal, Value.integer.inj id])
      rw [← List.inj_on_of_nodup_map distinct isOther member same]
      exact (mem_updateLog.mp isEvent).1
    · -- What is revised is not new.
      obtain ⟨revision, isOne, isEvent⟩ := List.mem_flatMap.mp isRevision
      have minimal := revises.minimal revision isOne
      obtain ⟨isRow, _⟩ := Revision.updatedRow?_log minimal isEvent updates
      obtain ⟨table, id⟩ := Prod.mk.inj isRow
      obtain ⟨reaches, isDirty⟩ := dirty revision isOne
      have content := revises.found revision isOne
      rw [found, content] at table
      have otherFinal := idOf_of_keyed sound inMemory collected writing final reaches
        (content ▸ minimal.keyed)
      have same := alone revision.subject reaches (by simp [Instance.needsWrite, isDirty])
        table.symm (by rw [otherFinal, isFinal, Value.integer.inj id])
      rw [same, isNew.2] at isDirty
      cases isDirty
  · intro some'
    refine ⟨_, ?_, updatedRow?_update dialect insertion.content.mapping insertion.putOff
      insertion.id⟩
    refine List.mem_append_left _ (List.mem_append_right _ ?_)
    exact List.mem_flatMap.mpr ⟨insertion, member, mem_updateLog.mpr ⟨some', rfl⟩⟩

end Plans

/-- A save that succeeds inserts each new instance that its root reaches once. What it puts off
refers to instances that lead into a circle; if no new instance refers to a circle from outside,
it lies on the circle, and what is on no circle is not updated. -/
theorem save_puts_off_circles {inner : Deployment World}
    {allowed : Store (Journaled World) → ThreadId → Action → Prop}
    {store after : Store (Journaled World)} {thread : ThreadId} {root : InstanceId}
    (reached : inner.journaled.Reached allowed store) (inMemory : root < store.memory.size)
    (saved : (save (inner.journaled.session thread) root).run store = (.ok (), after)) :
    ∃ connection draws insertions revisions, after.pool.world.journal
        = store.pool.world.journal
          ++ (saveLog inner.dialect draws insertions revisions).map (Prod.mk connection) ∧
      InsertsOnce inner.dialect store after root draws insertions revisions ∧
      (store.EntersNoCircle inner.dialect root → ∀ insertion ∈ insertions,
        (∀ entry ∈ insertion.putOff, ∃ relation target, entry.1 = relation.column ∧
          store.Assigns insertion.subject relation target ∧
          store.OnCircle inner.dialect root insertion.subject target) ∧
        ((∀ target, ¬store.OnCircle inner.dialect root insertion.subject target) →
          insertion.putOff = [])) := by
  have regular := reached.regular
  have sound := regular.sound
  obtain ⟨connection, draws, insertions, revisions, journal, inserts⟩ : ∃ connection draws
      insertions revisions, after.pool.world.journal = store.pool.world.journal
        ++ (saveLog inner.dialect draws insertions revisions).map (Prod.mk connection) ∧
      InsertsOnce inner.dialect store after root draws insertions revisions := by
    obtain ⟨graph, _, collected, ends⟩ := save_ok regular saved
    cases ends with
    | unchanged nothing =>
        have none' (subject : InstanceId) : ¬store.NewFrom root subject := by
          rintro ⟨reaches, transient⟩
          have needed := sound.needsWrite_of_reached inMemory collected reaches
            (by simp [Instance.needsWrite, transient])
          rw [nothing] at needed
          cases needed
        refine ⟨0, [], [], [], (List.append_nil _).symm, ?_, List.nodup_nil, ?_, ?_, ?_, ?_⟩
        · exact fun _ impossible => absurd impossible List.not_mem_nil
        · exact fun subject => iff_of_false List.not_mem_nil (none' subject)
        all_goals exact fun _ impossible => absurd impossible List.not_mem_nil
    | @written written between after unit settled =>
        obtain ⟨connection, log, writes, ⟨writing, same, rfl⟩, grown⟩ :=
          @UnitEnds.journal _ _ inner.database _ rfl _ _ _ _ _ _ unit
        obtain rfl : written = writing.written := congrArg Prod.fst same
        have sameSize : between.memory.size = store.memory.size := congrArg Prod.snd unit.extent
        have final := fun planned member => @final_id _ _ _ _ _ _ _ regular collected writing
          (fun other => unit.idOf other) sameSize settled planned member
        obtain ⟨revisions, isChange, revises⟩ :=
          revises_of_writing regular inMemory collected writing final sameSize settled
        obtain ⟨insertions, isLog, isLater, inserts⟩ :=
          insertsOnce_of_writing sound inMemory collected writing final revises
        refine ⟨connection, _, insertions, revisions, ?_, inserts⟩
        rw [pool_settleAll settled, grown, Writing.log, isLog, isLater, isChange, saveLog,
          List.append_assoc, List.append_assoc]
        rfl
  refine ⟨connection, draws, insertions, revisions, journal, inserts, fun enters insertion member => ?_⟩
  have isNew := (inserts.members insertion.subject).mp (List.mem_map_of_mem member)
  have putsOff := inserts.putsOff insertion member
  constructor
  · intro entry isPutOff
    obtain ⟨relation, target, _, assigns, _, _, rfl, _, circle⟩ := putsOff.putOff entry isPutOff
    exact ⟨relation, target, rfl, assigns, enters _ _ _ isNew assigns circle⟩
  · intro none'
    exact putsOff.eq_nil fun relation target assigns circle =>
      none' target (enters _ _ _ isNew assigns circle)

set_option maxRecDepth 100000 in
/-- Two people who are each other's friends are on a circle, and nobody else refers to it. The
friend of the first is put off: her row is updated. -/
theorem save_puts_off_circles_friends : ∃ store after : Store (Journaled Tables.World),
    (save (Samples.deployment.journaled.session 0) 0).run store = (.ok (), after) ∧
      store.EntersNoCircle Dialect.sqlite 0 ∧
      ∃ connection draws insertions revisions, after.pool.world.journal
          = store.pool.world.journal
            ++ (saveLog Dialect.sqlite draws insertions revisions).map (Prod.mk connection) ∧
        InsertsOnce Dialect.sqlite store after 0 draws insertions revisions ∧
        ∃ insertion ∈ insertions, insertion.subject = 0 ∧ insertion.putOff ≠ [] ∧
          store.OnCircle Dialect.sqlite 0 0 1 := by
  obtain ⟨store, visited⟩ : ∃ store,
      Samples.deployment.journaled.visited? Samples.friends = some store :=
    Option.isSome_iff_exists.mp (by decide +kernel)
  have facts : ∀ store ∈ Samples.deployment.journaled.visited? Samples.friends,
      let result := (save (Samples.deployment.journaled.session 0) 0).run store
      result.1.isOk = true ∧ result.2.idOf 0 = some 1 ∧ result.2.idOf 1 = some 2 ∧
        0 < store.memory.size ∧
        (Graph.collect store.id store.memory 0).toOption.map Graph.subjects = some [0, 1] ∧
        (∀ subject ∈ [0, 1], (store.instanceAt subject).state = .transient ∧
          (store.instanceAt subject).mapping.objectRelations.map ObjectRelation.name
            = ["friend"]) ∧
        (store.instanceAt 0).pending = [("name", .value (.text "Ada")), ("friend", .entity 1)] ∧
        (store.instanceAt 1).pending = [("name", .value (.text "Bo")), ("friend", .entity 0)] ∧
        (result.2.pool.world.journal.drop store.pool.world.journal.length).any (fun entry =>
          entry.2.updatedRow? = some (Statement.tableOf (store.instanceAt 0).mapping,
            .integer 1)) = true := by
    decide +kernel
  have reached := Deployment.reached_visited (fun _ _ _ _ => trivial) visited
  obtain ⟨isOk, idFirst, idSecond, inMemory, subjects, people, ofFirst, ofSecond, updates⟩ :=
    facts store visited
  generalize ran : (save (Samples.deployment.journaled.session 0) 0).run store = result
    at isOk idFirst idSecond updates
  obtain ⟨outcome | _, after⟩ := result
  · cases isOk
  obtain ⟨graph, collected, isGraph⟩ := Option.map_eq_some_iff.mp subjects
  have members (other : InstanceId) : Reaches store.memory 0 other ↔ other ∈ [0, 1] := by
    rw [← isGraph, reached.regular.sound.mem_graph inMemory (toOption_eq_some.mp collected)]
  have awaited (subject : InstanceId) (member : subject ∈ [0, 1]) :
      store.Awaited Dialect.sqlite 0 subject :=
    ⟨⟨(members subject).mpr member, (people subject member).1⟩, fun ⟨sequences, _⟩ => by cases sequences⟩
  have awaits (subject target : InstanceId) (member : subject ∈ [0, 1]) (isTarget : target ∈ [0, 1])
      (friend : (store.instanceAt subject).pending.lookup "friend" = some (.entity target)) :
      store.Awaits Dialect.sqlite 0 subject target := by
    have declares : "friend" ∈ (store.instanceAt subject).mapping.objectRelations.map
        ObjectRelation.name := by
      rw [(people subject member).2]
      exact List.mem_singleton_self _
    obtain ⟨relation, declared, named⟩ := List.mem_map.mp declares
    exact ⟨awaited subject member, awaited target isTarget, relation,
      Mapping.mem_objectRelations.mp declared, named ▸ friend⟩
  have forth := awaits 0 1 (by simp) (by simp) (by rw [ofFirst]; rfl)
  have back := awaits 1 0 (by simp) (by simp) (by rw [ofSecond]; rfl)
  have enters : store.EntersNoCircle Dialect.sqlite 0 := by
    rintro subject relation target isNew ⟨_, assigned⟩ _
    have isPending := mem_of_lookup assigned
    rcases List.mem_pair.mp ((members subject).mp isNew.1) with rfl | rfl
    · rw [ofFirst] at isPending
      obtain ⟨_, rfl⟩ : relation.name = "friend" ∧ target = 1 := by simpa using isPending
      exact ⟨forth, .single back⟩
    · rw [ofSecond] at isPending
      obtain ⟨_, rfl⟩ : relation.name = "friend" ∧ target = 0 := by simpa using isPending
      exact ⟨back, .single forth⟩
  obtain ⟨connection, draws, insertions, revisions, journal, inserts, _⟩ :=
    save_puts_off_circles reached inMemory ran
  refine ⟨store, after, ran, enters, connection, draws, insertions, revisions, journal, inserts, ?_⟩
  obtain ⟨insertion, member, isFirst⟩ := List.mem_map.mp
    ((inserts.members 0).mpr ⟨.refl, (people 0 (by simp)).1⟩)
  have putsOff := inserts.putsOff insertion member
  have id := putsOff.id
  have found := putsOff.found
  rw [isFirst] at id found
  have isOne : insertion.id = 1 := Option.some.inj (id.symm.trans idFirst)
  refine ⟨insertion, member, isFirst, (inserts.updated_iff insertion member ?_).mp ?_, forth,
    .single back⟩
  · rw [isFirst]
    intro other reaches _ _ same
    rcases List.mem_pair.mp ((members other).mp reaches) with rfl | rfl
    · rfl
    · rw [show after.idOf 1 = some 2 from idSecond, show after.idOf 0 = some 1 from idFirst] at same
      exact absurd same (by decide)
  · obtain ⟨entry, isEntry, updated⟩ := List.any_eq_true.mp updates
    rw [show (Except.ok _, after).2 = after from rfl, journal, List.drop_left] at isEntry
    obtain ⟨event, isEvent, rfl⟩ := List.mem_map.mp isEntry
    exact ⟨event, isEvent, by rw [found, isOne]; exact of_decide_eq_true updated⟩

end Store
end EntityStore
