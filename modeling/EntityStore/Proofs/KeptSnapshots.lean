/-
What operations do to snapshots. Everything that does not save, remove or close a
transaction takes none: the transactions stay as they are, unless a unit fails inside the
thread's own one, which is then put back.
-/

import EntityStore.Proofs.InstanceSnapshots

set_option autoImplicit false

namespace EntityStore
namespace Store

variable {World α β : Type} {session : Session World} {store between after : Store World}

structure Passes (store after : Store World) : Prop where
  kept : store.Kept after
  spares : store.Spares after

inductive Passed (thread : ThreadId) (store : Store World) :
    Except Error α → Store World → Prop where
  | kept {outcome : Except Error α} {after : Store World} : store.Passes after →
      Passed thread store outcome after
  | aborted {error : Error} {kept : List (InstanceId × Snapshot)} {after : Store World} :
      PutsBack thread kept store after → Passed thread store (.error error) after

def Read (thread : ThreadId) (store : Store World) : Except Error α → Store World → Prop
  | .ok _, after => store.Silent after
  | .error error, after => Passed thread store (.error error : Except Error α) after

theorem Silent.passes (silent : store.Silent after) : store.Passes after :=
  ⟨silent.kept, silent.spares⟩

theorem Passes.refl (store : Store World) : store.Passes store := (Silent.refl store).passes

theorem Passes.trans (first : store.Passes between) (second : between.Passes after) :
    store.Passes after :=
  ⟨first.kept.trans second.kept, first.spares.trans second.spares⟩

theorem passes_of_same (transactions : after.transactions = store.transactions)
    (memory : after.memory = store.memory) : store.Passes after :=
  Silent.passes (silent_of_same transactions memory)

theorem Silent.putsBack {thread : ThreadId} {kept : List (InstanceId × Snapshot)}
    (silent : store.Silent between) (puts : PutsBack thread kept between after) :
    PutsBack thread kept store after := by
  refine ⟨?_, puts.ended, fun other different => ?_, ?_, fun subject => ?_, fun subject => ?_⟩
  · rw [← silent.kept]
    exact puts.inside
  · rw [puts.others other different, silent.kept]
  · rw [puts.size, silent.size]
  · rw [puts.look, silent.look]
  · rw [puts.vanished, silent.vanished]

theorem Passed.of_error {thread : ThreadId} {error : Error}
    (passed : Passed thread store (.error error : Except Error α) after) :
    Passed thread store (.error error : Except Error β) after := by
  cases passed with
  | kept kept => exact .kept kept
  | aborted puts => exact .aborted puts

theorem Silent.passed {thread : ThreadId} {outcome : Except Error α}
    (silent : store.Silent between) (passed : Passed thread between outcome after) :
    Passed thread store outcome after := by
  cases passed with
  | kept passes => exact .kept (silent.passes.trans passes)
  | aborted puts => exact .aborted (silent.putsBack puts)

theorem Silent.read {thread : ThreadId} {outcome : Except Error α}
    (silent : store.Silent between) (read : Read thread between outcome after) :
    Read thread store outcome after := by
  cases outcome with
  | ok result => exact Silent.trans silent read
  | error error => exact silent.passed read

theorem Read.passed {thread : ThreadId} {outcome : Except Error α}
    (read : Read thread store outcome after) : Passed thread store outcome after := by
  cases outcome with
  | ok result => exact .kept (Silent.passes read)
  | error error => exact read

/-! ### Units -/

theorem silent_written (writes : WriteSet) (generation : Nat) (store : Store World) :
    store.Silent (store.written writes generation) := by
  have applied : store.Silent { store with cache := writes.apply generation store.cache } :=
    silent_of_same rfl rfl
  exact applied.trans (silent_invalidateOwners writes.owners _)

theorem silent_recordWrites (thread : ThreadId) (writes : WriteSet) (store : Store World) :
    store.Silent (recordWrites thread writes store) := by
  have evicts : store.Silent
      { store with cache := writes.withoutFills.evictTouched store.cache } :=
    silent_of_same rfl rfl
  have invalidates := evicts.trans (silent_invalidateOwners writes.withoutFills.owners _)
  unfold recordWrites
  dsimp only
  split
  · exact invalidates
  · rename_i transaction inside
    refine invalidates.trans ⟨fun other => ?_, rfl, fun _ => rfl, fun _ => rfl⟩
    by_cases own : other = thread
    · subst own
      rw [snapshots_setTransaction_self, snapshots_of_inside inside]
    · rw [snapshots_setTransaction_of_ne _ _ own]

theorem UnitEnds.read {issued : Question → Prop} {transactional : Bool}
    {gives : α × WriteSet → List Event → Prop} {outcome : Except Error α} (sound : store.Sound)
    (ends : UnitEnds session issued transactional gives store outcome after) :
    Read session.thread store outcome after := by
  cases ends with
  | closed _ => exact .kept (.refl store)
  | @recorded _ _ world _ _ writes _ _ _ _ _ =>
      have worked : store.Silent (store.withWorld world) := silent_of_same rfl rfl
      exact worked.trans (silent_recordWrites session.thread writes _)
  | @aborted transaction _ _ world _ _ _ _ inside _ _ _ =>
      exact .aborted (@putsBack_of_restored _ _ _ sound _ _ inside
        ((store.withWorld world).dropTransaction session.thread) rfl rfl (silent_of_same rfl rfl))
  | unconnected _ _ _ => exact .kept (passes_of_same rfl rfl)
  | @applied pool lease _ world _ writes _ _ _ _ _ =>
      have worked : store.Silent { store with pool := { pool with world := world } } :=
        silent_of_same rfl rfl
      exact (worked.trans (silent_written writes store.cache.generation _)).trans
        (silent_of_same rfl rfl)
  | failed _ _ _ _ _ => exact .kept (passes_of_same rfl rfl)

/-! ### Rules -/

def KeepsSnapshots (operation : Operation World α) : Prop :=
  ∀ store : Store World, store.Passes (operation.run store).2

private theorem keeps_pure (result : α) : KeepsSnapshots (pure result : Operation World α) :=
  fun store => .refl store

private theorem keeps_throw (error : Error) : KeepsSnapshots (throw error : Operation World α) :=
  fun store => .refl store

private theorem keeps_modify {change : Store World → Store World}
    (transactions : ∀ store, (change store).transactions = store.transactions)
    (memory : ∀ store, (change store).memory = store.memory) :
    KeepsSnapshots (modify change : Operation World Unit) :=
  fun store => passes_of_same (transactions store) (memory store)

private theorem keeps_get : KeepsSnapshots (get : Operation World (Store World)) :=
  fun store => .refl store

private theorem keeps_settleOutcome (outcome : Except Error α) :
    KeepsSnapshots (settleOutcome outcome : Operation World α) := by
  intro store
  rw [run_settleOutcome]
  exact .refl store

private theorem keeps_bind {operation : Operation World α} {next : α → Operation World β}
    (first : KeepsSnapshots operation) (later : ∀ result, KeepsSnapshots (next result)) :
    KeepsSnapshots (operation >>= next) := by
  intro store
  have passes := first store
  rw [run_bind]
  rcases ran : operation.run store with ⟨outcome, between⟩
  rw [ran] at passes
  cases outcome with
  | ok result => exact passes.trans (later result between)
  | error error => exact passes

private theorem keeps_throw_bind (error : Error) (next : α → Operation World β) :
    KeepsSnapshots (throw error >>= next) :=
  fun store => .refl store

private theorem keeps_ensureOpen : KeepsSnapshots (ensureOpen : Operation World Unit) := by
  intro store
  rw [run_ensureOpen]
  split <;> exact .refl store

private theorem spares_addInstance (content : Instance) (store : Store World) :
    store.Spares (store.addInstance content).2 := by
  refine ⟨by simp [addInstance], fun subject inMemory _ => ?_⟩
  rw [instanceAt_addInstance, if_neg (Nat.ne_of_lt inMemory)]
  exact .refl _

private theorem keeps_remember (content : Instance) :
    KeepsSnapshots (remember content : Operation World InstanceId) :=
  fun store => ⟨kept_of_transactions rfl, spares_addInstance content store⟩

private theorem spares_modifyInstance {edit : Instance → Instance} {subject : InstanceId}
    (stays : (store.instanceAt subject).Complete →
      (store.instanceAt subject).Stays (edit (store.instanceAt subject))) :
    store.Spares (store.modifyInstance edit subject) := by
  refine ⟨Nat.le_of_eq (size_modifyInstance store edit subject).symm, fun other _ complete => ?_⟩
  rw [instanceAt_modifyInstance]
  split
  · rename_i both
    obtain rfl := both.1
    exact stays complete
  · exact .refl _

private theorem keeps_change (subject : InstanceId) {edit : Instance → Instance}
    (stays : ∀ content : Instance, content.Stays (edit content)) :
    KeepsSnapshots (change subject edit : Operation World Unit) :=
  fun _ => ⟨kept_of_transactions rfl, spares_modifyInstance fun _ => stays _⟩

private theorem keeps_entityType (entity : String) :
    KeepsSnapshots (entityType entity : Operation World Mapping) := by
  intro store
  obtain ⟨outcome, ran, _⟩ := run_entityType entity store
  rw [ran]
  exact .refl store

theorem KeepsSnapshots.passes {operation : Operation World α}
    (keeps : KeepsSnapshots operation) (thread : ThreadId) (store : Store World) :
    Ensures operation store (Passed thread store) :=
  .kept (keeps store)

private theorem passes_bind_read {operation : Operation World α} {next : α → Operation World β}
    {thread : ThreadId} (first : Ensures operation store (Read thread store))
    (later : ∀ result between, store.Silent between →
      Ensures (next result) between (Passed thread between)) :
    Ensures (operation >>= next) store (Passed thread store) := by
  apply ensures_bind
  refine first.weaken fun outcome between read => ?_
  cases outcome with
  | error error => exact Passed.of_error read
  | ok result =>
      exact (later result between read).weaken fun _ _ passed => Silent.passed read passed

private theorem passes_bind_keeps {operation : Operation World α} {next : α → Operation World β}
    {thread : ThreadId} (first : Ensures operation store (Passed thread store))
    (later : ∀ result, KeepsSnapshots (next result)) :
    Ensures (operation >>= next) store (Passed thread store) := by
  apply ensures_bind
  refine first.weaken fun outcome between passed => ?_
  cases outcome with
  | error error => exact Passed.of_error passed
  | ok result =>
      cases passed with
      | kept kept => exact .kept (kept.trans (later result between))

private theorem passes_bind_same {operation : Operation World α} {next : α → Operation World β}
    {thread : ThreadId} {outcome : Except Error α} (ran : operation.run store = (outcome, store))
    (later : ∀ result, outcome = .ok result →
      Ensures (next result) store (Passed thread store)) :
    Ensures (operation >>= next) store (Passed thread store) := by
  apply ensures_bind
  unfold Ensures
  rw [ran]
  cases outcome with
  | error error => exact .kept (.refl store)
  | ok result => exact later result rfl

private theorem passes_get_bind {next : Store World → Operation World β} {thread : ThreadId}
    (later : Ensures (next store) store (Passed thread store)) :
    Ensures (get >>= next) store (Passed thread store) := by
  refine passes_bind_same (run_get store) ?_
  rintro _ ⟨⟩
  exact later

theorem read_unit {issued : Question → Prop} {transactional : Bool} {work : Work World α}
    {gives : α × WriteSet → List Event → Prop} (regular : store.Regular)
    (asks : ∀ lease, Asks session.database issued lease (work lease) gives) :
    Ensures (unit session transactional work) store (Read session.thread store) :=
  (ensures_unit asks fun _ inside => regular.leased.connection inside).weaken
    fun _ _ ends => ends.read regular.sound

private theorem passes_unit {issued : Question → Prop} {transactional : Bool} {work : Work World α}
    {gives : α × WriteSet → List Event → Prop} (regular : store.Regular)
    (asks : ∀ lease, Asks session.database issued lease (work lease) gives) :
    Ensures (unit session transactional work) store (Passed session.thread store) :=
  (read_unit regular asks).weaken fun _ _ read => read.passed

/-! ### Memory -/

private theorem keeps_define (batch : List Definition) :
    KeepsSnapshots (define batch : Operation World (List Mapping)) := by
  unfold define
  refine keeps_bind keeps_ensureOpen fun _ => ?_
  intro store
  rw [run_bind, run_get]
  simp only
  rw [run_bind, run_settleOutcome]
  cases store.registry.define batch with
  | error error => exact .refl store
  | ok extended => exact passes_of_same rfl rfl

private theorem keeps_reference (entity : String) (id : Int64) :
    KeepsSnapshots (reference entity id : Operation World InstanceId) :=
  keeps_bind (keeps_entityType entity) fun _ => keeps_bind keeps_get fun _ => keeps_remember _

private theorem stays_assign (content : Instance) (name : String) (value : PropertyValue) :
    content.Stays (content.assign name value) := by
  refine ⟨rfl, rfl, fun removed => ?_⟩
  unfold Instance.assign
  simp [removed]

private theorem keeps_assign (subject : InstanceId) (name : String) (value : PropertyValue) :
    KeepsSnapshots (assign subject name value : Operation World Unit) := by
  unfold assign
  refine keeps_bind keeps_get fun store => ?_
  dsimp only
  split
  · exact keeps_throw_bind _ _
  refine keeps_bind (keeps_settleOutcome _) fun property => ?_
  split
  · exact keeps_throw _
  split
  · exact keeps_throw_bind _ _
  · exact keeps_change subject fun content => stays_assign content name value

private theorem keeps_assignAll (subject : InstanceId) (values : List (String × PropertyValue)) :
    KeepsSnapshots (assignAll subject values : Operation World Unit) := by
  induction values with
  | nil => exact keeps_pure ()
  | cons entry rest ih => exact keeps_bind (keeps_assign subject entry.1 entry.2) fun _ => ih

private theorem keeps_createInstance (mapping : Mapping) (values : List (String × PropertyValue)) :
    KeepsSnapshots (createInstance mapping values : Operation World InstanceId) := by
  unfold createInstance
  refine keeps_bind keeps_get fun _ => keeps_bind (keeps_remember _) fun subject => ?_
  exact keeps_bind (keeps_assignAll subject values) fun _ => keeps_pure subject

private theorem keeps_rememberLoaded (mapping : Mapping) (entries : List (Key × Row)) :
    KeepsSnapshots (rememberLoaded mapping entries : Operation World (List InstanceId)) := by
  induction entries with
  | nil => exact keeps_pure []
  | cons entry rest ih =>
      unfold rememberLoaded
      refine keeps_bind keeps_get fun _ => keeps_bind (keeps_remember _) fun _ => ?_
      exact keeps_bind ih fun _ => keeps_pure _

/-! ### Tables -/

private theorem passes_sync (regular : store.Regular) :
    Ensures (sync session) store (Passed session.thread store) := by
  unfold sync
  refine passes_get_bind ?_
  dsimp only
  exact passes_unit regular fun lease => asks_sync fun _ member => member

private theorem passes_drop (regular : store.Regular) :
    Ensures (drop session) store (Passed session.thread store) := by
  unfold drop
  refine passes_get_bind ?_
  dsimp only
  have asks (lease : LeaseId) := @asks_drop _ session (· ∈ store.registry.mappings) lease
    store.registry.mappings.reverse
  refine passes_bind_keeps (passes_unit regular asks) fun names => ?_
  exact keeps_bind (keeps_modify (fun _ => rfl) fun _ => rfl) fun _ => keeps_pure names

/-! ### Queries and rows -/

private theorem passes_run {prepared : Query} (regular : store.Regular)
    (fit : prepared.root ∈ store.registry.mappings) (parameters : Parameters) (page : Page) :
    Ensures (run session prepared parameters page) store (Passed session.thread store) := by
  unfold run
  dsimp only
  refine passes_bind_same (run_settleOutcome _ _) fun values _ => ?_
  obtain ⟨found, ran, _⟩ := run_entityType prepared.root.entity store
  refine passes_bind_same ran fun mapping _ => ?_
  have asks (lease : LeaseId) := @asks_selection _ session lease (· ∈ store.registry.mappings)
    prepared fit page values
  exact passes_bind_keeps (passes_unit regular asks) fun entries =>
    keeps_rememberLoaded mapping entries

theorem asks_load {fits : Mapping → Prop} {mapping : Mapping} {lease : LeaseId}
    (fit : fits mapping) (key : Key) :
    Asks session.database (Question.Issued fits false) lease (do
      let row ← fetchRow session lease mapping key
      return (row, WriteSet.ofFills (row.toList.map fun content => (key, content))))
      fun _ _ => True := by
  have fetches : Asks session.database (Question.Issued fits false) lease
      (fetchRow session lease mapping key) fun _ _ => True :=
    asks_fetchRow fit key (fun _ => trivial) fun _ _ _ => trivial
  exact asks_bind fetches fun _ _ _ => asks_pure trivial

/-- A row comes from the cache or from a unit that reads. -/
theorem read_loadRow {mapping : Mapping} (regular : store.Regular)
    (registered : mapping ∈ store.registry.mappings) (key : Key) :
    Ensures (loadRow session mapping key) store (Read session.thread store) := by
  have looked : store.Silent { store with cache := (store.cache.get key).2 } :=
    silent_of_same rfl rfl
  have regularLooked := regular.looked key
  unfold loadRow Ensures
  rw [run_bind, run_ensureOpen]
  cases isOpen : store.isOpen with
  | false => exact .kept (.refl store)
  | true =>
      simp only [↓reduceIte]
      rw [run_bind, run_cachedRow]
      dsimp only
      cases (store.cache.get key).1 with
      | some row => exact looked
      | none =>
          have asks (lease : LeaseId) := @asks_load _ session (· ∈ store.registry.mappings)
            mapping lease registered key
          exact looked.read (read_unit regularLooked asks)

private theorem passes_find {mapping : Mapping} (regular : store.Regular)
    (registered : mapping ∈ store.registry.mappings) (id : Int64) :
    Ensures (find session mapping id) store (Passed session.thread store) := by
  have loads := (@read_loadRow _ session store mapping regular registered
    (Key.withId mapping.entity id)).weaken fun _ _ read => read.passed
  unfold find
  refine passes_bind_keeps loads fun found => ?_
  cases found with
  | none => exact keeps_pure _
  | some row => exact keeps_bind keeps_get fun _ => keeps_bind (keeps_remember _) fun _ => keeps_pure _

private theorem passes_rowOf {subject : InstanceId} (regular : store.Regular)
    (inMemory : subject < store.memory.size)
    (present : (store.instanceAt subject).state ≠ .removed) :
    Ensures (rowOf session subject) store (Passed session.thread store) := by
  have registered := (regular.sound.instanceAt inMemory).registered
  unfold rowOf
  refine passes_get_bind ?_
  dsimp only
  split
  · exact (keeps_throw _).passes _ _
  split
  · exact (keeps_pure _).passes _ _
  rename_i unread
  refine passes_bind_read (read_loadRow regular registered _) fun found between silent => ?_
  have changes (edit : Instance → Instance) :
      Ensures (change subject edit) between (Passed session.thread between) := by
    refine .kept ⟨kept_of_transactions rfl, spares_modifyInstance fun complete => ?_⟩
    have look := silent.look subject
    rcases complete with known | removed
    · rw [show (between.instanceAt subject).row = _ from congrArg Snapshot.row look] at known
      rw [show (store.look subject).row = none from unread] at known
      cases known
    · rw [show (between.instanceAt subject).state = _ from congrArg Snapshot.state look] at removed
      exact absurd removed present
  cases found with
  | some row => exact passes_bind_keeps (changes _) fun _ => keeps_pure _
  | none => exact passes_bind_keeps (changes _) fun _ => keeps_throw _

/-! ### Properties -/

theorem present_of_usable {content : Instance} {result : Unit}
    (usable : content.checkUsable = .ok result) : content.state ≠ .removed := by
  intro removed
  unfold Instance.checkUsable at usable
  rw [if_pos removed] at usable
  cases usable

section Properties

variable {subject : InstanceId} (regular : store.Regular)
  (inMemory : subject < store.memory.size)

include regular inMemory

section Present

variable (present : (store.instanceAt subject).state ≠ .removed)

include present

private theorem passes_columnOf (column : String) :
    Ensures (columnOf session subject column) store (Passed session.thread store) :=
  passes_bind_keeps (passes_rowOf regular inMemory present) fun _ => keeps_pure _

private theorem passes_readScalar (property : ScalarProperty) :
    Ensures (readScalar session subject property) store (Passed session.thread store) := by
  unfold readScalar
  refine passes_get_bind ?_
  dsimp only
  split
  · exact (keeps_pure _).passes _ _
  · exact (keeps_pure _).passes _ _
  · exact (keeps_throw _).passes _ _
  · split
    · exact (keeps_pure _).passes _ _
    · exact passes_bind_keeps (passes_columnOf regular inMemory present _) fun _ => keeps_pure _

private theorem passes_readReference (relation : ObjectRelation) :
    Ensures (readReference session subject relation) store (Passed session.thread store) := by
  unfold readReference
  refine passes_get_bind ?_
  dsimp only
  split
  · exact (keeps_pure _).passes _ _
  · exact (keeps_pure _).passes _ _
  · exact (keeps_pure _).passes _ _
  · split
    · exact (keeps_pure _).passes _ _
    · exact passes_columnOf regular inMemory present _

end Present

private theorem passes_read (name : String) :
    Ensures (read session subject name) store (Passed session.thread store) := by
  unfold read
  refine passes_get_bind ?_
  dsimp only
  split
  · exact passes_get_bind ((keeps_pure _).passes _ _)
  refine passes_bind_same (run_settleOutcome _ _) fun property _ => ?_
  refine passes_bind_same (run_settleOutcome _ _) fun _ usable => ?_
  have present := present_of_usable usable
  cases property with
  | collection relation => exact (keeps_throw _).passes _ _
  | scalar property => exact passes_readScalar regular inMemory present property
  | object relation => exact passes_readReference regular inMemory present relation

private theorem passes_readObject (name : String) :
    Ensures (readObject session subject name) store (Passed session.thread store) := by
  unfold readObject
  refine passes_get_bind ?_
  dsimp only
  refine passes_bind_same (run_settleOutcome _ _) fun property _ => ?_
  cases property with
  | collection relation => exact (keeps_throw _).passes _ _
  | scalar property => exact (keeps_throw _).passes _ _
  | object relation =>
      refine passes_bind_same (run_settleOutcome _ _) fun _ usable => ?_
      have present := present_of_usable usable
      split
      · exact (keeps_pure _).passes _ _
      · exact (keeps_pure _).passes _ _
      · exact (keeps_pure _).passes _ _
      · exact (keeps_throw _).passes _ _
      · split
        · exact (keeps_pure _).passes _ _
        · refine passes_bind_keeps (passes_columnOf regular inMemory present _) fun value => ?_
          split
          · exact keeps_pure _
          · exact keeps_bind (keeps_reference _ _) fun _ => keeps_pure _

omit inMemory in
private theorem passes_readCollection (name : String) :
    Ensures (readCollection session subject name) store (Passed session.thread store) := by
  unfold readCollection
  refine passes_get_bind ?_
  dsimp only
  refine passes_bind_same (run_settleOutcome _ _) fun property _ => ?_
  cases property with
  | scalar property => exact (keeps_throw _).passes _ _
  | object relation => exact (keeps_throw _).passes _ _
  | collection relation =>
      refine passes_bind_same (run_settleOutcome _ _) fun _ _ => ?_
      split
      · exact (keeps_pure _).passes _ _
      · exact (keeps_pure _).passes _ _
      · obtain ⟨outcome, ran, known⟩ := run_prepare relation.query store
        refine passes_bind_same ran fun prepared ok => ?_
        refine passes_bind_keeps (passes_run regular (known prepared ok) _ _) fun members => ?_
        refine keeps_bind (keeps_change _ fun _ => ⟨rfl, rfl, fun removed => removed⟩) fun _ => ?_
        exact keeps_bind (keeps_modify (fun _ => rfl) fun _ => rfl) fun _ => keeps_pure _

end Properties

end Store

namespace Action

variable {World : Type} {session : Session World} {store : Store World}

def passing : Action → Bool
  | save _ | remove _ | begin | commit | rollback | close => false
  | _ => true

theorem passes_perform {action : Action} (regular : store.Regular)
    (inMemory : action.InMemory store.memory.size) (reads : action.passing = true) :
    Store.Ensures (action.perform session) store (Store.Passed session.thread store) := by
  have returns {α : Type} (_ : α) : Store.KeepsSnapshots (pure () : Operation World Unit) :=
    Store.keeps_pure ()
  cases action with
  | define batch => exact (Store.keeps_bind (Store.keeps_define batch) returns).passes _ _
  | sync => exact Store.passes_bind_keeps (Store.passes_sync regular) returns
  | drop => exact Store.passes_bind_keeps (Store.passes_drop regular) returns
  | create entity values =>
      refine Store.KeepsSnapshots.passes (Store.keeps_bind (Store.keeps_entityType entity) ?_) _ _
      exact fun mapping => Store.keeps_bind (Store.keeps_createInstance mapping values) returns
  | reference entity id =>
      exact (Store.keeps_bind (Store.keeps_reference entity id) returns).passes _ _
  | find entity id =>
      obtain ⟨outcome, ran, found⟩ := Store.run_entityType entity store
      refine Store.passes_bind_same ran fun mapping ok => ?_
      exact Store.passes_bind_keeps (Store.passes_find regular (found mapping ok).1 id) returns
  | query text parameters page =>
      obtain ⟨outcome, ran, known⟩ := Store.run_prepare text store
      refine Store.passes_bind_same ran fun prepared ok => ?_
      exact Store.passes_bind_keeps
        (Store.passes_run regular (known prepared ok) parameters page) returns
  | read subject name =>
      exact Store.passes_bind_keeps (Store.passes_read regular inMemory name) returns
  | readObject subject name =>
      exact Store.passes_bind_keeps (Store.passes_readObject regular inMemory name) returns
  | readCollection subject name =>
      exact Store.passes_bind_keeps (Store.passes_readCollection regular name) returns
  | assign subject name value => exact (Store.keeps_assign subject name value).passes _ _
  | forgetCollections subject =>
      refine Store.KeepsSnapshots.passes (Store.keeps_change subject ?_) _ _
      exact fun _ => ⟨rfl, rfl, fun removed => removed⟩
  | clearCache => exact .kept (Store.passes_of_same rfl rfl)
  | save subject => cases reads
  | remove subject => cases reads
  | begin => cases reads
  | commit => cases reads
  | rollback => cases reads
  | close => cases reads

end Action
end EntityStore
