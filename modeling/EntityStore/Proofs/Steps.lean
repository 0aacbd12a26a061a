/-
Operations step by step. Where a course of stages says of memory no more than that it was
changed, a path says how: instances are made, assigned to, loaded, settled or withdrawn, one
at a time, and each of these steps says what it finds. What all steps keep, every operation
keeps.
-/

import EntityStore.Proofs.Gathering
import EntityStore.Proofs.Snapshots

set_option autoImplicit false

namespace EntityStore

inductive Instance.Made (registry : Registry) (store : StoreId) : Instance → Prop where
  | transient {mapping : Mapping} : mapping ∈ registry.mappings →
      Made registry store (Instance.transient store mapping)
  | stored {mapping : Mapping} (id : Int64) (row : Option Row) : mapping ∈ registry.mappings →
      Made registry store
        { store := store, mapping := mapping, key := Key.withId mapping.entity id,
          state := .clean, row := row }

def Instance.Stored (content : Instance) : Prop :=
  content.state = .clean ∨ content.state = .dirty

theorem Instance.Stored.present {content : Instance} (stored : content.Stored) :
    content.state ≠ .removed := by
  rcases stored with clean | dirty
  · rw [clean]
    decide
  · rw [dirty]
    decide

structure Instance.Unread (content : Instance) : Prop where
  stored : content.Stored
  row : content.row = none

namespace Store

variable {World α β : Type}

inductive Edit (thread : ThreadId) (store : Store World) : Store World → Prop where
  | defined {batch : List Definition} {mappings : List Mapping} {registry : Registry} :
      store.registry.define batch = .ok (mappings, registry) →
      Edit thread store { store with registry := registry }
  | added {content : Instance} : content.Made store.registry store.id →
      Edit thread store (store.addInstance content).2
  | assigned {subject : InstanceId} (name : String) {value : PropertyValue} :
      (store.instanceAt subject).state ≠ .removed →
      (∀ target, value = .entity target → target < store.memory.size) →
      Edit thread store (store.modifyInstance (fun content => content.assign name value) subject)
  | loaded {subject : InstanceId} (row : Row) : (store.instanceAt subject).Unread →
      Edit thread store
        (store.modifyInstance (fun content => { content with row := some row }) subject)
  | missed {subject : InstanceId} : (store.instanceAt subject).Unread →
      Edit thread store
        (store.modifyInstance (fun content => { content with vanished := true }) subject)
  | collected {subject : InstanceId} {id : Int64} (name : String) (members : List InstanceId) :
      (store.instanceAt subject).state ≠ .removed →
      (store.instanceAt subject).key.id = some id →
      Edit thread store (registerOwner (store.instanceAt subject).key subject
        (store.modifyInstance (fun content =>
          { content with collections := Row.place name members content.collections }) subject))
  | forgot (subject : InstanceId) :
      Edit thread store
        (store.modifyInstance (fun content => { content with collections := [] }) subject)
  | settled {subject : InstanceId} (id : Int64) (row : Row) :
      (store.instanceAt subject).state ≠ .removed →
      Edit thread store ((store.rememberInTransaction thread subject).modifyInstance
        (fun content => content.settle id row) subject)
  | withdrawn {subject : InstanceId} : (store.instanceAt subject).state ≠ .removed →
      Edit thread store
        ((store.rememberInTransaction thread subject).modifyInstance Instance.withdraw subject)

inductive Step (session : Session World) (poses : Task → Prop) (clears : Prop)
    (store : Store World) : Bool → Store World → Prop where
  | edited {after : Store World} : Edit session.thread store after →
      Step session poses clears store true after
  | looked (key : Key) :
      Step session poses clears store true { store with cache := (store.cache.get key).2 }
  | cleared : clears →
      Step session poses clears store true { store with cache := store.cache.clear }
  | unit {α : Type} {task : Task} {transactional : Bool} {outcome : Except Error α}
      {after : Store World} : task = .read ∨ poses task →
      UnitEnds session (Question.Issued (· ∈ store.registry.mappings) transactional) transactional
        (fun result log =>
          task.Gives session.dialect (· ∈ store.registry.mappings) result.2 log)
        store outcome after →
      Step session poses clears store outcome.isOk after
  | began {outcome : Except Error Unit} {after : Store World} : poses .begin →
      BeginEnds session store outcome after → Step session poses clears store outcome.isOk after
  | committed {outcome : Except Error Unit} {after : Store World} : poses .commit →
      CommitEnds session store outcome after → Step session poses clears store outcome.isOk after
  | rolledBack {outcome : Except Error Unit} {after : Store World} : poses .rollback →
      RollbackEnds session store outcome after →
      Step session poses clears store outcome.isOk after
  | closed {after : Store World} : poses .close → CloseEnds session store after →
      Step session poses clears store true after

inductive Path (session : Session World) (poses : Task → Prop) (clears : Prop) :
    Store World → Bool → Store World → Prop where
  | ended (ok : Bool) (store : Store World) : Path session poses clears store ok store
  | failed {store after : Store World} : Step session poses clears store false after →
      Path session poses clears store false after
  | went {store between after : Store World} {ok : Bool} :
      Step session poses clears store true between → Path session poses clears between ok after →
      Path session poses clears store ok after

variable {session : Session World} {poses : Task → Prop} {clears : Prop} {ok : Bool}
  {store between after : Store World}

theorem Path.one (step : Step session poses clears store ok after) :
    Path session poses clears store ok after := by
  cases ok with
  | true => exact .went step (.ended true after)
  | false => exact .failed step

theorem Path.append (first : Path session poses clears store true between)
    (second : Path session poses clears between ok after) :
    Path session poses clears store ok after := by
  generalize succeeded : true = flag at first
  induction first with
  | ended => exact second
  | failed _ => cases succeeded
  | went step _ ih => exact .went step (ih second succeeded)

/-- What every step keeps, paths keep. -/
theorem Path.invariant (keeps : Store World → Prop)
    (path : Path session poses clears store ok after) (initial : keeps store)
    (preserved : ∀ {first second : Store World} {ok : Bool},
      Step session poses clears first ok second → keeps first → keeps second) : keeps after := by
  induction path with
  | ended => exact initial
  | failed step => exact preserved step initial
  | went step _ ih => exact ih (preserved step initial)

/-! ### Steps are stages -/

theorem inMemory_of_present {subject : InstanceId}
    (present : (store.instanceAt subject).state ≠ .removed) : subject < store.memory.size := by
  rw [← Nat.not_le]
  intro beyond
  refine present ?_
  rw [instanceAt_of_size_le beyond]
  rfl

theorem Made.sound {content : Instance} (made : content.Made store.registry store.id) :
    content.Sound store.registry store.memory.size := by
  cases made with
  | transient registered => exact Instance.sound_transient registered store.id _
  | stored id row registered => exact Instance.sound_loaded registered store.id id row _

theorem Edit.quiet {thread : ThreadId} (edit : Edit thread store after) :
    store.Quiet after := by
  cases edit with
  | defined defines => exact quiet_define defines
  | added made => exact quiet_addInstance (Made.sound made)
  | assigned name present known =>
      exact quiet_modifyInstance (fun _ => rfl) fun _ _ sound => sound.assign name known
  | loaded row unread =>
      exact quiet_modifyInstance (fun _ => rfl) fun _ _ sound => sound.of_same rfl rfl rfl rfl
  | missed unread =>
      exact quiet_modifyInstance (fun _ => rfl) fun _ _ sound => sound.of_same rfl rfl rfl rfl
  | @collected subject id name members present keyed =>
      have placed : store.Quiet (store.modifyInstance (fun content =>
          { content with collections := Row.place name members content.collections }) subject) :=
        quiet_modifyInstance (fun _ => rfl) fun _ _ sound => sound.of_same rfl rfl rfl rfl
      exact placed.trans (quiet_registerOwner _ _ _)
  | forgot subject =>
      exact quiet_modifyInstance (fun _ => rfl) fun _ _ sound => sound.of_same rfl rfl rfl rfl
  | settled id row present =>
      exact (quiet_rememberInTransaction _ (inMemory_of_present present)).trans
        (quiet_modifyInstance (fun _ => rfl) fun _ _ sound => sound.settle id row)
  | withdrawn present =>
      exact (quiet_rememberInTransaction _ (inMemory_of_present present)).trans
        (quiet_modifyInstance (fun _ => rfl) fun _ _ sound => sound.withdraw)

theorem Step.stage (step : Step session poses clears store ok after) :
    Stage session poses store ok after := by
  cases step with
  | edited edit => exact .quiet edit.quiet
  | looked key => exact .looked key
  | cleared _ => exact .cleared
  | unit posed ends => exact .unit posed ends
  | began posed ends => exact .began posed ends
  | committed posed ends => exact .committed posed ends
  | rolledBack posed ends => exact .rolledBack posed ends
  | closed posed ends => exact .closed posed ends

theorem Path.regular (path : Path session poses clears store ok after)
    (regular : store.Regular) : after.Regular :=
  path.invariant Regular regular fun step => step.stage.regular

theorem Path.grows (path : Path session poses clears store ok after) : store.Grows after :=
  path.invariant store.Grows (.of_extent rfl) fun step grows => grows.trans step.stage.grows

def Becomes (registry later : Registry) : Prop :=
  later = registry ∨ ∃ batch mappings, registry.define batch = .ok (mappings, later)

theorem Edit.registry {thread : ThreadId} (edit : Edit thread store after) :
    Becomes store.registry after.registry := by
  cases edit with
  | defined defines => exact Or.inr ⟨_, _, defines⟩
  | settled _ _ _ => exact Or.inl (congrArg Prod.fst (extent_rememberInTransaction _ _ store))
  | withdrawn _ => exact Or.inl (congrArg Prod.fst (extent_rememberInTransaction _ _ store))
  | _ => exact Or.inl rfl

theorem Step.registry (step : Step session poses clears store ok after) :
    Becomes store.registry after.registry := by
  cases step with
  | edited edit => exact edit.registry
  | looked key => exact Or.inl rfl
  | cleared _ => exact Or.inl rfl
  | unit _ ends => exact Or.inl (congrArg Prod.fst ends.extent)
  | began _ ends => cases ends <;> exact Or.inl rfl
  | committed _ ends => exact Or.inl (congrArg Prod.fst ends.extent)
  | rolledBack _ ends => exact Or.inl (congrArg Prod.fst ends.extent)
  | closed _ ends => exact Or.inl (congrArg Prod.fst ends.extent)

/-! ### Operations that tread a path -/

def Treads (session : Session World) (poses : Task → Prop) (clears : Prop)
    (operation : Operation World α) (store : Store World) : Prop :=
  Ensures operation store fun outcome after =>
    Path session poses clears store outcome.isOk after

section Rules

variable {operation : Operation World α} {next : α → Operation World β}

private theorem treads_of_same {outcome : Except Error α}
    (ran : operation.run store = (outcome, store)) :
    Treads session poses clears operation store := by
  unfold Treads Ensures
  rw [ran]
  exact .ended _ store

private theorem treads_pure (result : α) : Treads session poses clears (pure result) store :=
  treads_of_same rfl

private theorem treads_throw (error : Error) :
    Treads session poses clears (throw error : Operation World α) store := treads_of_same rfl

private theorem treads_bind_same {outcome : Except Error α}
    (ran : operation.run store = (outcome, store))
    (later : ∀ result, outcome = .ok result → Treads session poses clears (next result) store) :
    Treads session poses clears (operation >>= next) store := by
  apply ensures_bind
  unfold Ensures
  rw [ran]
  cases outcome with
  | ok result => exact later result rfl
  | error error => exact .ended false store

private theorem treads_bind (first : Treads session poses clears operation store)
    (later : ∀ result between, operation.run store = (.ok result, between) →
      Path session poses clears store true between →
      Treads session poses clears (next result) between) :
    Treads session poses clears (operation >>= next) store := by
  apply ensures_bind
  unfold Treads Ensures at first
  unfold Ensures
  rcases ran : operation.run store with ⟨outcome, between⟩
  rw [ran] at first
  cases outcome with
  | ok result => exact (later result between ran first).weaken fun _ _ second => first.append second
  | error error => exact first

private theorem treads_get_bind {next : Store World → Operation World β}
    (later : Treads session poses clears (next store) store) :
    Treads session poses clears (get >>= next) store :=
  treads_bind_same (run_get store) fun result same => by
    cases same
    exact later

private theorem treads_ensureOpen_bind {next : Unit → Operation World β}
    (later : Treads session poses clears (next ()) store) :
    Treads session poses clears (ensureOpen >>= next) store := by
  have ran := run_ensureOpen store
  cases isOpen : store.isOpen with
  | true =>
      rw [isOpen] at ran
      exact treads_bind_same ran fun _ _ => later
  | false =>
      rw [isOpen] at ran
      exact treads_bind_same ran fun _ impossible => (by cases impossible)

private theorem treads_settleOutcome_bind {outcome : Except Error α}
    (later : ∀ result, outcome = .ok result → Treads session poses clears (next result) store) :
    Treads session poses clears (settleOutcome outcome >>= next) store :=
  treads_bind_same (run_settleOutcome outcome store) later

private theorem treads_entityType_bind {entity : String} {next : Mapping → Operation World β}
    (later : ∀ mapping ∈ store.registry.mappings, mapping.entity = entity →
      Treads session poses clears (next mapping) store) :
    Treads session poses clears (entityType entity >>= next) store := by
  obtain ⟨outcome, ran, found⟩ := run_entityType entity store
  exact treads_bind_same ran fun mapping same =>
    later mapping (found mapping same).1 (found mapping same).2

private theorem treads_prepare_bind {text : String} {next : Query → Operation World β}
    (later : ∀ prepared, prepared.root ∈ store.registry.mappings →
      Treads session poses clears (next prepared) store) :
    Treads session poses clears (prepare text >>= next) store := by
  obtain ⟨outcome, ran, known⟩ := run_prepare text store
  exact treads_bind_same ran fun prepared same => later prepared (known prepared same)

private theorem treads_edit {change : Store World → Store World}
    (edit : Edit session.thread store (change store)) :
    Treads session poses clears (modify change : Operation World Unit) store :=
  .one (.edited edit)

private theorem treads_edits {first second : Store World → Store World} {next : Operation World β}
    (edit : Edit session.thread store (second (first store)))
    (later : Treads session poses clears next (second (first store))) :
    Treads session poses clears (modify first >>= fun _ => modify second >>= fun _ => next)
      store := by
  exact Path.went (.edited edit) later

private theorem treads_done {finish : α → β}
    (first : Treads session poses clears operation store) :
    Treads session poses clears (operation >>= fun result => pure (finish result)) store :=
  treads_bind first fun _ _ _ _ => treads_pure _

private theorem treads_unit {task : Task} {transactional : Bool} {work : Work World α}
    (regular : store.Regular) (posed : task = .read ∨ poses task)
    (asks : ∀ lease, Asks session.database
      (Question.Issued (· ∈ store.registry.mappings) transactional) lease (work lease)
      fun result log => task.Gives session.dialect (· ∈ store.registry.mappings) result.2 log) :
    Treads session poses clears (unit session transactional work) store :=
  (ensures_unit asks fun _ inside => regular.leased.connection inside).weaken
    fun _ _ ends => .one (.unit posed ends)

end Rules

/-! ### Types and new instances -/

private theorem treads_define (batch : List Definition) :
    Treads session poses clears (define batch) store := by
  unfold define
  refine treads_ensureOpen_bind (treads_get_bind (treads_settleOutcome_bind ?_))
  rintro ⟨mappings, registry⟩ defined
  exact treads_bind (.one (.edited (.defined defined))) fun _ _ _ _ => treads_pure _

private theorem treads_remember {content : Instance} (made : content.Made store.registry store.id) :
    Treads session poses clears (remember content) store :=
  .one (.edited (.added made))

private theorem treads_reference (entity : String) (id : Int64) :
    Treads session poses clears (reference entity id) store := by
  unfold reference
  refine treads_entityType_bind fun mapping registered _ => treads_get_bind ?_
  exact treads_remember (.stored id none registered)

private theorem treads_assign (subject : InstanceId) (name : String) {value : PropertyValue}
    (known : ∀ target, value = .entity target → target < store.memory.size) :
    Treads session poses clears (assign subject name value) store := by
  unfold assign
  refine treads_get_bind ?_
  dsimp only
  split
  · exact treads_bind_same rfl fun _ impossible => by cases impossible
  refine treads_settleOutcome_bind fun property _ => ?_
  split
  · exact treads_throw _
  · split
    · exact treads_bind_same rfl fun _ impossible => by cases impossible
    · rename_i present
      exact treads_edit (.assigned name present known)

private theorem treads_assignAll (subject : InstanceId) {values : List (String × PropertyValue)}
    (known : ∀ entry ∈ values, ∀ target, entry.2 = .entity target → target < store.memory.size) :
    Treads session poses clears (assignAll subject values) store := by
  induction values generalizing store with
  | nil => exact treads_pure ()
  | cons entry rest ih =>
      unfold assignAll
      refine treads_bind (treads_assign subject entry.1
        (known entry List.mem_cons_self)) fun _ between _ path => ih ?_
      intro other member target same
      exact Nat.lt_of_lt_of_le (known other (List.mem_cons_of_mem entry member) target same)
        path.grows.size

private theorem treads_createInstance {mapping : Mapping}
    (registered : mapping ∈ store.registry.mappings) {values : List (String × PropertyValue)}
    (known : ∀ entry ∈ values, ∀ target, entry.2 = .entity target → target < store.memory.size) :
    Treads session poses clears (createInstance mapping values) store := by
  unfold createInstance
  refine treads_get_bind ?_
  refine treads_bind (treads_remember (.transient registered)) fun subject between _ path => ?_
  refine treads_done (treads_assignAll subject fun entry member target same => ?_)
  exact Nat.lt_of_lt_of_le (known entry member target same) path.grows.size

private theorem treads_rememberLoaded {mapping : Mapping} {entries : List (Key × Row)}
    (registered : mapping ∈ store.registry.mappings)
    (keyed : ∀ entry ∈ entries, ∃ id, entry.1 = Key.withId mapping.entity id) :
    Treads session poses clears (rememberLoaded mapping entries) store := by
  induction entries generalizing store with
  | nil => exact treads_pure []
  | cons entry rest ih =>
      obtain ⟨id, same⟩ := keyed entry List.mem_cons_self
      have made : (Instance.loaded store.id mapping entry.1 entry.2).Made store.registry
          store.id := by
        rw [same]
        exact .stored id (some entry.2) registered
      unfold rememberLoaded
      refine treads_get_bind (treads_bind (treads_remember made) fun _ between _ path => ?_)
      exact treads_done (ih (path.grows.registered mapping registered)
        fun other member => keyed other (List.mem_cons_of_mem entry member))

/-! ### Reading -/

private theorem stored_of_present {content : Instance} (present : content.state ≠ .removed)
    (old : ¬content.isNew = true) : content.Stored := by
  have notTransient : content.state ≠ .transient := fun new => old (decide_eq_true new)
  unfold Instance.Stored
  cases state : content.state with
  | transient => exact absurd state notTransient
  | clean => exact Or.inl rfl
  | dirty => exact Or.inr rfl
  | removed => exact absurd state present

section Reading

variable (regular : store.Regular)

include regular

private theorem treads_run {prepared : Query} (fit : prepared.root ∈ store.registry.mappings)
    (parameters : Parameters) (page : Page) :
    Treads session poses clears (run session prepared parameters page) store := by
  have wellFormed := regular.sound.registry.mappings _ fit
  unfold run
  dsimp only
  refine treads_settleOutcome_bind fun values _ => ?_
  refine treads_entityType_bind fun mapping registered named => ?_
  have asks : ∀ lease, Asks session.database
      (Question.Issued (· ∈ store.registry.mappings) false) lease _ _ :=
    fun lease => asks_selection fit page values
  refine treads_bind (treads_unit regular (Or.inl rfl) fun lease => (asks lease).weaken ?_) ?_
  · rintro ⟨entries, writes⟩ log ⟨same, _, fetched⟩
    rw [show writes = WriteSet.ofFills entries from same]
    exact .read fetched
  · intro entries between ran path
    obtain ⟨_, _, _, ⟨rows, hydrated, _⟩, _⟩ := gives_of_unit regular asks ran
    refine treads_rememberLoaded (path.grows.registered mapping registered) ?_
    intro entry member
    obtain ⟨_, _, hydrates⟩ := Mapping.hydrateAll_ok wellFormed hydrated entry member
    obtain ⟨id, _, same⟩ := hydrates.key
    exact ⟨id, named ▸ same⟩

private theorem treads_loadRow {mapping : Mapping} {key : Key}
    (registered : mapping ∈ store.registry.mappings) (named : key.entityType = mapping.entity) :
    Treads session poses clears (loadRow session mapping key) store := by
  have looks : Path session poses clears store true
      { store with cache := (store.cache.get key).2 } := .one (.looked key)
  unfold loadRow
  refine treads_ensureOpen_bind (treads_bind looks fun found between _ path => ?_)
  cases found with
  | some row => exact treads_pure _
  | none =>
      refine treads_unit (path.regular regular) (Or.inl rfl) fun lease => ?_
      exact asks_loading (path.grows.registered mapping registered) named

private theorem treads_find {mapping : Mapping} (registered : mapping ∈ store.registry.mappings)
    (id : Int64) : Treads session poses clears (find session mapping id) store := by
  unfold find
  refine treads_bind (treads_loadRow regular registered rfl) fun found between _ path => ?_
  cases found with
  | none => exact treads_pure _
  | some row =>
      refine treads_get_bind (treads_done (treads_remember ?_))
      exact .stored id none (path.grows.registered mapping registered)

variable {subject : InstanceId}

private theorem treads_rowOf (stored : (store.instanceAt subject).Stored) :
    Treads session poses clears (rowOf session subject) store := by
  have sound := regular.sound.instanceAt (inMemory_of_present stored.present)
  unfold rowOf
  refine treads_get_bind ?_
  dsimp only
  split
  · exact treads_throw _
  split
  · exact treads_pure _
  rename_i unread
  refine treads_bind (treads_loadRow regular sound.registered sound.sound.entity) ?_
  intro found between ran _
  have silent : store.Silent between := (read_loadRow regular sound.registered _).of_run ran
  have stillUnread : (between.instanceAt subject).Unread := by
    have look := silent.look subject
    refine ⟨?_, (congrArg Snapshot.row look).trans unread⟩
    unfold Instance.Stored
    rwa [show (between.instanceAt subject).state = _ from congrArg Snapshot.state look]
  cases found with
  | some row => exact treads_done (treads_edit (.loaded row stillUnread))
  | none => exact treads_bind (treads_edit (.missed stillUnread)) fun _ _ _ _ => treads_throw _

private theorem treads_columnOf (stored : (store.instanceAt subject).Stored) (column : String) :
    Treads session poses clears (columnOf session subject column) store :=
  treads_done (treads_rowOf regular stored)

private theorem treads_readScalar (present : (store.instanceAt subject).state ≠ .removed)
    (property : ScalarProperty) :
    Treads session poses clears (readScalar session subject property) store := by
  unfold readScalar
  refine treads_get_bind ?_
  dsimp only
  split
  · exact treads_pure _
  · exact treads_pure _
  · exact treads_throw _
  · split
    · exact treads_pure _
    · rename_i notNew
      exact treads_done (treads_columnOf regular (stored_of_present present notNew) _)

private theorem treads_readReference (present : (store.instanceAt subject).state ≠ .removed)
    (relation : ObjectRelation) :
    Treads session poses clears (readReference session subject relation) store := by
  unfold readReference
  refine treads_get_bind ?_
  dsimp only
  split
  · exact treads_pure _
  · exact treads_pure _
  · exact treads_pure _
  · split
    · exact treads_pure _
    · rename_i notNew
      exact treads_columnOf regular (stored_of_present present notNew) _

private theorem treads_read (name : String) :
    Treads session poses clears (read session subject name) store := by
  unfold read
  refine treads_get_bind ?_
  dsimp only
  split
  · exact treads_get_bind (treads_pure _)
  refine treads_settleOutcome_bind fun property _ => treads_settleOutcome_bind fun _ usable => ?_
  have present := present_of_usable usable
  cases property with
  | collection relation => exact treads_throw _
  | scalar property => exact treads_readScalar regular present property
  | object relation => exact treads_readReference regular present relation

private theorem treads_readObject (name : String) :
    Treads session poses clears (readObject session subject name) store := by
  unfold readObject
  refine treads_get_bind ?_
  dsimp only
  refine treads_settleOutcome_bind fun property _ => ?_
  cases property with
  | collection relation => exact treads_throw _
  | scalar property => exact treads_throw _
  | object relation =>
      refine treads_settleOutcome_bind fun _ usable => ?_
      split
      · exact treads_pure _
      · exact treads_pure _
      · exact treads_pure _
      · exact treads_throw _
      · split
        · exact treads_pure _
        · rename_i notNew
          have stored := stored_of_present (present_of_usable usable) notNew
          refine treads_bind (treads_columnOf regular stored _) fun value _ _ _ => ?_
          split
          · exact treads_pure _
          · exact treads_done (treads_reference _ _)

private theorem treads_readCollection (name : String) :
    Treads session poses clears (readCollection session subject name) store := by
  unfold readCollection
  refine treads_get_bind ?_
  dsimp only
  refine treads_settleOutcome_bind fun property _ => ?_
  cases property with
  | scalar property => exact treads_throw _
  | object relation => exact treads_throw _
  | collection relation =>
      refine treads_settleOutcome_bind fun _ usable => ?_
      split
      · exact treads_pure _
      · exact treads_pure _
      · rename_i id _ keyed
        have present := present_of_usable usable
        refine treads_prepare_bind fun prepared fit => ?_
        refine treads_bind (treads_run regular fit _ _) fun members between ran _ => ?_
        have look := look_of_run regular fit (inMemory_of_present present) ran
        have isKey : (between.instanceAt subject).key = (store.instanceAt subject).key :=
          congrArg Snapshot.key look
        have collects : Edit session.thread between (registerOwner (store.instanceAt subject).key
            subject (between.modifyInstance (fun content => { content with
              collections := Row.place name members content.collections }) subject)) := by
          rw [← isKey]
          refine .collected name members ?_ (isKey.symm ▸ keyed)
          rwa [show (between.instanceAt subject).state = _ from congrArg Snapshot.state look]
        exact treads_edits collects (treads_pure members)

end Reading

/-! ### Writing -/

private theorem treads_settleAll {written : List Written}
    (present : ∀ one ∈ written,
      (store.instanceAt one.planned.node.subject).state ≠ .removed) :
    Treads session poses clears (settleAll session written) store := by
  induction written generalizing store with
  | nil => exact treads_pure ()
  | cons one rest ih =>
      unfold settleAll
      refine treads_edits (.settled one.id one.row (present one List.mem_cons_self)) (ih ?_)
      intro other member
      rw [instanceAt_modifyInstance]
      split
      · exact fun impossible => by cases impossible
      · rw [instanceAt_rememberInTransaction]
        exact present other (List.mem_cons_of_mem one member)

private theorem treads_withdraw {subject : InstanceId}
    (present : (store.instanceAt subject).state ≠ .removed) :
    Treads session poses clears (withdraw session subject) store :=
  .one (.edited (.withdrawn present))

theorem Sound.present_of_written (sound : store.Sound) {dialect : Dialect} {root : InstanceId}
    {graph : Graph} (collected : Graph.collect store.id store.memory root = .ok graph)
    (writing : Writing dialect (graph.plan dialect)) {one : Written}
    (member : one ∈ writing.written) :
    (store.instanceAt one.planned.node.subject).state ≠ .removed := by
  rw [sound.instanceAt_plan collected (writing.planned_mem member)]
  intro removed
  rcases List.mem_append.mp member with isCompleted | isChanged
  · have isNew : one.planned.content.state = .transient :=
      of_decide_eq_true (writing.isNew_of_completed isCompleted)
    rw [removed] at isNew
    cases isNew
  · have dirty := (writing.changes.of_changed isChanged).2.1
    rw [removed] at dirty
    cases dirty

private theorem treads_save (regular : store.Regular) {subject : InstanceId} :
    Treads session (store.SavesPlan session subject) clears (save session subject) store := by
  unfold save
  refine treads_ensureOpen_bind (treads_get_bind ?_)
  refine treads_settleOutcome_bind fun graph collected => ?_
  split
  case isFalse => exact treads_pure ()
  have fit : ∀ planned ∈ graph.plan session.dialect, planned.content.needsWrite = true →
      planned.Fit (· ∈ store.registry.mappings) :=
    fun planned member _ => regular.sound.fit_of_plan collected member
  have asks : ∀ lease, Asks session.database
      (Question.Issued (· ∈ store.registry.mappings) true) lease _ _ := fun _ => asks_save fit
  refine treads_bind (treads_unit regular (Or.inr ⟨graph, collected, rfl⟩) fun lease =>
    (asks lease).weaken ?_) ?_
  · rintro _ _ ⟨writing, rfl, rfl⟩
    exact .save writing
  · intro written between ran _
    obtain ⟨_, _, writing, same, _⟩ := gives_of_unit regular asks ran
    obtain rfl : written = writing.written := congrArg Prod.fst same
    have silent : store.Silent between := (read_unit regular asks).of_run ran
    refine treads_settleAll fun one member => ?_
    rw [show (between.instanceAt one.planned.node.subject).state = _ from
      congrArg Snapshot.state (silent.look one.planned.node.subject)]
    exact regular.sound.present_of_written collected writing member

private theorem treads_remove {subject : InstanceId} (regular : store.Regular)
    (inMemory : subject < store.memory.size) :
    Treads session (fun task => task = .removal (store.instanceAt subject)) clears
      (remove session subject) store := by
  have registered := (regular.sound.instanceAt inMemory).registered
  unfold remove
  refine treads_ensureOpen_bind (treads_get_bind ?_)
  dsimp only
  split
  · exact treads_throw _
  · rename_i new
    exact treads_withdraw fun removed => by rw [new] at removed; cases removed
  · exact treads_throw _
  · rename_i id keyed present _
    have asks (lease : LeaseId) := @asks_removal _ session lease
      (· ∈ store.registry.mappings) (store.instanceAt subject) registered id keyed
    have deletes : Treads session (fun task => task = .removal (store.instanceAt subject)) clears
        (deleteRow session (store.instanceAt subject) id) store :=
      treads_unit regular (Or.inr rfl) asks
    refine treads_bind deletes fun _ between ran _ => treads_withdraw ?_
    have silent : store.Silent between := (read_unit regular asks).of_run ran
    rwa [show (between.instanceAt subject).state = _ from congrArg Snapshot.state
      (silent.look subject)]

/-! ### Tables -/

private theorem treads_sync (regular : store.Regular) :
    Treads session (fun task => task = .sync) clears (sync session) store := by
  unfold sync
  refine treads_get_bind ?_
  have posed : Task.sync = .read ∨ Task.sync = .sync := Or.inr rfl
  exact treads_unit regular posed fun lease => asks_sync fun _ member => member

private theorem treads_drop (regular : store.Regular) (may : clears) :
    Treads session (fun task => task = .drop) clears (drop session) store := by
  unfold drop
  refine treads_get_bind ?_
  have posed : Task.drop = .read ∨ Task.drop = .drop := Or.inr rfl
  refine treads_bind (treads_unit regular posed fun lease => asks_drop _) fun _ _ _ _ => ?_
  exact treads_bind (.one (.cleared may)) fun _ _ _ _ => treads_pure _

end Store

/-! ### Actions -/

namespace Action

variable {World : Type} {session : Session World} {store : Store World}

def Clears (action : Action) : Prop := action = .drop ∨ action = .clearCache

theorem treads_perform {action : Action} (regular : store.Regular)
    (inMemory : action.InMemory store.memory.size) :
    Store.Treads session (action.Poses session store) action.Clears (action.perform session)
      store := by
  cases action with
  | define batch => exact Store.treads_done (Store.treads_define batch)
  | sync => exact Store.treads_done (Store.treads_sync regular)
  | drop => exact Store.treads_done (Store.treads_drop regular (Or.inl rfl))
  | create entity values =>
      exact Store.treads_entityType_bind fun _ registered _ =>
        Store.treads_done (Store.treads_createInstance registered inMemory)
  | reference entity id => exact Store.treads_done (Store.treads_reference entity id)
  | find entity id =>
      exact Store.treads_entityType_bind fun _ registered _ =>
        Store.treads_done (Store.treads_find regular registered id)
  | query text parameters page =>
      exact Store.treads_prepare_bind fun _ fit =>
        Store.treads_done (Store.treads_run regular fit parameters page)
  | read subject name => exact Store.treads_done (Store.treads_read regular name)
  | readObject subject name => exact Store.treads_done (Store.treads_readObject regular name)
  | readCollection subject name =>
      exact Store.treads_done (Store.treads_readCollection regular name)
  | assign subject name value => exact Store.treads_assign subject name inMemory.2
  | forgetCollections subject => exact Store.treads_edit (.forgot subject)
  | save subject => exact Store.treads_save regular
  | remove subject => exact Store.treads_remove regular inMemory
  | begin =>
      exact (Store.ensures_beginTransaction session store).weaken
        fun _ _ ends => .one (.began rfl ends)
  | commit =>
      exact (Store.ensures_commitTransaction fun _ inside =>
        regular.leased.connection inside).weaken fun _ _ ends => .one (.committed rfl ends)
  | rollback =>
      exact (Store.ensures_rollbackTransaction fun _ inside =>
        regular.leased.connection inside).weaken fun _ _ ends => .one (.rolledBack rfl ends)
  | clearCache => exact Store.Path.one (.cleared (Or.inr rfl))
  | close =>
      obtain ⟨after, ends, ran⟩ := Store.run_close session store
      unfold Store.Treads Store.Ensures
      rw [show (Action.close.perform session).run store = (.ok (), after) from ran]
      exact .one (.closed rfl ends)

end Action

/-! ### Acts -/

namespace Deployment

variable {World : Type} {deployment : Deployment World}

/-- What holds of the new store and is kept by every step, holds of every store. -/
theorem Reached.invariant {allowed : Store World → ThreadId → Action → Prop} {store : Store World}
    (reached : deployment.Reached allowed store) (keeps : Store World → Prop)
    (initial : ∀ {store : Store World} {world : World},
      Store.create deployment.database deployment.config deployment.store #[] deployment.world
        = (.ok store, world) → keeps store)
    (preserved : ∀ {first second : Store World} {thread : ThreadId} {poses : Task → Prop}
      {clears : Prop} {ok : Bool}, first.Regular →
      Store.Step (deployment.session thread) poses clears first ok second →
      keeps first → keeps second) : keeps store := by
  induction reached with
  | created created => exact initial created
  | acted reached _ inMemory ran ih =>
      have path := (Action.treads_perform reached.regular inMemory).of_run ran
      exact (path.invariant (fun store => store.Regular ∧ keeps store) ⟨reached.regular, ih⟩
        fun step kept => ⟨step.stage.regular kept.1, preserved kept.1 step kept.2⟩).2

end Deployment
end EntityStore
