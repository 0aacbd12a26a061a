/-
Operations as courses of stages: definitions, instances in memory, queries and the
properties of instances. None of them does more in the database than to read.
-/

import EntityStore.Proofs.Queries
import EntityStore.Proofs.Stages
import EntityStore.Store.Properties

set_option autoImplicit false

namespace EntityStore
namespace Store

variable {World α β : Type} {session : Session World} {poses : Task → Prop}
  {store : Store World}

/-! ### Changes in memory -/

theorem quiet_modifyInstance {edit : Instance → Instance} {subject : InstanceId}
    (same : ∀ content, (edit content).mapping = content.mapping)
    (keeps : ∀ content : Instance, store.memory[subject]? = some content →
      content.Sound store.registry store.memory.size →
      (edit content).Sound store.registry store.memory.size) :
    store.Quiet (store.modifyInstance edit subject) := by
  refine ⟨rfl, rfl, rfl, fun _ => rfl, fun _ member => member,
    Nat.le_of_eq (size_modifyInstance store edit subject).symm, fun regular => ⟨?_, ?_⟩⟩
  · exact regular.sound.modifyInstance same fun content found =>
      keeps content found (regular.sound.memory subject content found)
  · exact regular.leased.transfer_same rfl rfl

theorem quiet_addInstance {content : Instance}
    (fresh : content.Sound store.registry store.memory.size) :
    store.Quiet (store.addInstance content).2 :=
  ⟨rfl, rfl, rfl, fun _ => rfl, fun _ member => member, by simp [addInstance], fun regular =>
    ⟨regular.sound.addInstance fresh, regular.leased.transfer_same rfl rfl⟩⟩

theorem quiet_registerOwner (key : Key) (subject : InstanceId) (store : Store World) :
    store.Quiet (store.registerOwner key subject) :=
  ⟨rfl, rfl, rfl, fun _ => rfl, fun _ member => member, Nat.le_refl _, fun regular =>
    ⟨regular.sound.transfer_same rfl rfl rfl, regular.leased.transfer_same rfl rfl⟩⟩

/-- Snapshots are no part of what the database and the cache are about. -/
theorem quiet_rememberInTransaction (thread : ThreadId) {subject : InstanceId}
    (inMemory : subject < store.memory.size) :
    store.Quiet (store.rememberInTransaction thread subject) := by
  cases inside : store.transaction? thread with
  | none =>
      have same : store.rememberInTransaction thread subject = store := by
        unfold rememberInTransaction
        rw [inside]
      rw [same]
      exact .refl store
  | some transaction =>
      have same : store.rememberInTransaction thread subject = store.setTransaction thread
          (transaction.keepSnapshot subject (Snapshot.ofInstance (store.instanceAt subject))) := by
        unfold rememberInTransaction
        rw [inside]
      have core : (transaction.keepSnapshot subject
          (Snapshot.ofInstance (store.instanceAt subject))).core = transaction.core := by
        unfold Transaction.keepSnapshot
        split <;> rfl
      refine ⟨by rw [same]; rfl, by rw [same]; rfl, by rw [same]; rfl, fun other => ?_,
        by rw [same]; exact fun _ member => member, by rw [same]; exact Nat.le_refl _, fun regular =>
          ⟨regular.sound.rememberInTransaction thread inMemory, ?_⟩⟩
      · rw [same]
        by_cases here : other = thread
        · subst here
          rw [transaction?_setTransaction_self, inside, Option.map_some, core, Option.map_some]
        · rw [transaction?_setTransaction_of_ne _ _ here]
      · rw [same]
        exact regular.leased.replaceTransaction inside (congrArg Prod.fst core)

private theorem follows_remember {content : Instance}
    (fresh : content.Sound store.registry store.memory.size) :
    Follows session poses (remember content) store :=
  Course.one (.quiet (quiet_addInstance fresh))

private theorem follows_change {edit : Instance → Instance} {subject : InstanceId}
    (same : ∀ content, (edit content).mapping = content.mapping)
    (keeps : ∀ content : Instance, store.memory[subject]? = some content →
      content.Sound store.registry store.memory.size →
      (edit content).Sound store.registry store.memory.size) :
    Follows session poses (change subject edit) store :=
  follows_modify (quiet_modifyInstance same keeps)

private theorem follows_change_of_same {edit : Instance → Instance} {subject : InstanceId}
    (same : ∀ content, (edit content).mapping = content.mapping ∧
      (edit content).key = content.key ∧ (edit content).state = content.state ∧
      (edit content).pending = content.pending) :
    Follows session poses (change subject edit) store :=
  follows_change (fun content => (same content).1) fun content _ sound => by
    obtain ⟨mapping, key, state, pending⟩ := same content
    exact sound.of_same mapping key state pending

/-! ### Types -/

theorem quiet_define {batch : List Definition} {mappings : List Mapping} {registry : Registry}
    (defined : store.registry.define batch = .ok (mappings, registry)) :
    store.Quiet { store with registry := registry } := by
  have defines := Registry.define_ok defined
  refine ⟨rfl, rfl, rfl, fun _ => rfl, fun _ => defines.kept, Nat.le_refl _, fun regular => ⟨?_, ?_⟩⟩
  · exact ⟨defines.wellFormed regular.sound.registry,
      fun subject content found =>
        (regular.sound.memory subject content found).grow (fun _ => defines.kept) (Nat.le_refl _),
      regular.sound.snapshots⟩
  · exact regular.leased.transfer_same rfl rfl

theorem follows_define (batch : List Definition) :
    Follows session poses (define batch) store := by
  unfold define
  refine follows_ensureOpen_bind fun _ => follows_get_bind ?_
  refine follows_bind_same (run_settleOutcome _ _) ?_
  rintro ⟨mappings, registry⟩ defined
  exact follows_bind (Course.one (.quiet (quiet_define defined))) fun _ _ _ _ => follows_pure _

theorem run_entityType (entity : String) (store : Store World) :
    ∃ outcome, (entityType entity).run store = (outcome, store) ∧
      ∀ mapping, outcome = .ok mapping →
        mapping ∈ store.registry.mappings ∧ mapping.entity = entity := by
  unfold entityType
  rw [run_bind, run_get]
  simp only
  cases found : store.mapping? entity with
  | none => exact ⟨_, rfl, fun _ impossible => by cases impossible⟩
  | some mapping =>
      refine ⟨.ok mapping, rfl, ?_⟩
      intro other same
      cases same
      exact Registry.mem_of_mapping? found

theorem follows_entityType_bind {entity : String} {next : Mapping → Operation World β}
    (later : ∀ mapping, mapping ∈ store.registry.mappings → mapping.entity = entity →
      Follows session poses (next mapping) store) :
    Follows session poses (entityType entity >>= next) store := by
  obtain ⟨outcome, ran, found⟩ := run_entityType entity store
  exact follows_bind_same ran fun mapping same =>
    later mapping (found mapping same).1 (found mapping same).2

theorem follows_reference (entity : String) (id : Int64) :
    Follows session poses (reference entity id) store := by
  unfold reference
  refine follows_entityType_bind fun mapping registered _ => follows_get_bind ?_
  exact follows_remember (Instance.sound_loaded registered _ id none _)

/-! ### New instances and assignments -/

theorem follows_assign (subject : InstanceId) (name : String) {value : PropertyValue}
    (known : ∀ target, value = .entity target → target < store.memory.size) :
    Follows session poses (assign subject name value) store := by
  have changes : Follows session poses
      (change subject fun current => current.assign name value) store :=
    follows_change (fun _ => rfl) fun _ _ sound => sound.assign name known
  unfold assign
  refine follows_get_bind ?_
  dsimp only
  split
  · exact follows_bind_same rfl fun _ impossible => by cases impossible
  refine follows_bind_same (run_settleOutcome _ _) fun property _ => ?_
  split
  · exact follows_throw _
  · split
    · exact follows_bind_same rfl fun _ impossible => by cases impossible
    · exact changes

private theorem follows_assignAll (subject : InstanceId) {values : List (String × PropertyValue)}
    (known : ∀ entry ∈ values, ∀ target, entry.2 = .entity target → target < store.memory.size) :
    Follows session poses (assignAll subject values) store := by
  induction values generalizing store poses with
  | nil => exact follows_pure ()
  | cons entry rest ih =>
      unfold assignAll
      refine follows_bind (follows_assign subject entry.1
        (known entry List.mem_cons_self)) fun _ between _ course => ih ?_
      intro other member target same
      exact Nat.lt_of_lt_of_le (known other (List.mem_cons_of_mem entry member) target same)
        course.grows.size

theorem follows_createInstance {mapping : Mapping} (registered : mapping ∈ store.registry.mappings)
    {values : List (String × PropertyValue)}
    (known : ∀ entry ∈ values, ∀ target, entry.2 = .entity target → target < store.memory.size) :
    Follows session poses (createInstance mapping values) store := by
  unfold createInstance
  refine follows_get_bind ?_
  refine follows_bind (follows_remember (Instance.sound_transient registered _ _)) ?_
  intro subject between _ course
  refine follows_bind (follows_assignAll subject fun entry member target same =>
    Nat.lt_of_lt_of_le (known entry member target same) course.grows.size) ?_
  exact fun _ _ _ _ => follows_pure subject

/-! ### Units that read -/

theorem follows_unit {task : Task} {transactional : Bool} {work : Work World α}
    (regular : store.Regular) (posed : task = .read ∨ poses task)
    (asks : ∀ lease, Asks session.database
      (Question.Issued (· ∈ store.registry.mappings) transactional) lease (work lease)
      fun result log => task.Gives session.dialect (· ∈ store.registry.mappings) result.2 log) :
    Follows session poses (unit session transactional work) store :=
  (ensures_unit asks fun _ inside => regular.leased.connection inside).weaken
    fun _ _ ends => .one (.unit posed ends)

theorem gives_of_unit {transactional : Bool} {work : Work World α} {issued : Question → Prop}
    {gives : α × WriteSet → List Event → Prop} {result : α} {after : Store World}
    (regular : store.Regular)
    (asks : ∀ lease, Asks session.database issued lease (work lease) gives)
    (ran : (unit session transactional work).run store = (.ok result, after)) :
    ∃ writes log, gives (result, writes) log := by
  have ends : UnitEnds session issued transactional gives store (.ok result) after :=
    (ensures_unit asks fun _ inside => regular.leased.connection inside).of_run ran
  cases ends with
  | recorded _ _ _ _ given => exact ⟨_, _, given⟩
  | applied _ _ _ _ bracketed =>
      cases bracketed with
      | done _ given => exact ⟨_, _, given⟩
      | committed _ _ given _ => exact ⟨_, _, given⟩

theorem asks_selection {lease : LeaseId} {fits : Mapping → Prop} {prepared : Query}
    (fit : fits prepared.root) (page : Page) (values : List Value) :
    Asks session.database (Question.Issued fits false) lease (do
      let rows ← query session lease (Statement.select session.dialect prepared page values)
      let entries ← settleOutcome (prepared.root.hydrateAll rows)
      return (entries, WriteSet.ofFills entries))
      fun result log => result.2 = WriteSet.ofFills result.1 ∧
        (∃ rows, prepared.root.hydrateAll rows = .ok result.1 ∧
          log = [.answered (Statement.select session.dialect prepared page values) rows]) ∧
        Fetched session.dialect fits result.1 log := by
  refine asks_bind (asks_query (.select session.dialect page values fit) fun rows => rfl) ?_
  intro rows log same
  subst same
  have asksEntries : Asks session.database (Question.Issued fits false) lease
      (settleOutcome (prepared.root.hydrateAll rows)) fun entries later =>
        later = [] ∧ prepared.root.hydrateAll rows = .ok entries :=
    asks_settleOutcome fun entries hydrated => ⟨rfl, hydrated⟩
  refine asks_bind asksEntries ?_
  rintro entries later ⟨rfl, hydrated⟩
  exact asks_pure ⟨rfl, ⟨rows, hydrated, rfl⟩, .selected page values fit hydrated⟩

private theorem follows_rememberLoaded {mapping : Mapping} {entries : List (Key × Row)}
    (registered : mapping ∈ store.registry.mappings)
    (keyed : ∀ entry ∈ entries, ∃ id, entry.1 = Key.withId mapping.entity id) :
    Follows session poses (rememberLoaded mapping entries) store := by
  induction entries generalizing store poses with
  | nil => exact follows_pure []
  | cons entry rest ih =>
      obtain ⟨id, same⟩ := keyed entry List.mem_cons_self
      have fresh : (Instance.loaded store.id mapping entry.1 entry.2).Sound store.registry
          store.memory.size := by
        rw [same]
        exact Instance.sound_loaded registered _ id (some entry.2) _
      unfold rememberLoaded
      refine follows_get_bind ?_
      refine follows_bind (follows_remember fresh) fun _ between _ course => ?_
      refine follows_bind (ih (course.grows.registered mapping registered)
        fun other member => keyed other (List.mem_cons_of_mem entry member)) ?_
      exact fun _ _ _ _ => follows_pure _

theorem follows_run {prepared : Query} (regular : store.Regular)
    (fit : prepared.root ∈ store.registry.mappings) (parameters : Parameters) (page : Page) :
    Follows session poses (run session prepared parameters page) store := by
  have wellFormed := regular.sound.registry.mappings _ fit
  unfold run
  dsimp only
  refine follows_bind_same (run_settleOutcome _ _) fun values _ => ?_
  refine follows_entityType_bind fun mapping registered named => ?_
  have asks : ∀ lease, Asks session.database
      (Question.Issued (· ∈ store.registry.mappings) false) lease _ _ :=
    fun lease => asks_selection fit page values
  refine follows_bind (follows_unit regular (Or.inl rfl) fun lease =>
    (asks lease).weaken ?_) ?_
  · rintro ⟨entries, writes⟩ log ⟨same, _, fetched⟩
    rw [show writes = WriteSet.ofFills entries from same]
    exact .read fetched
  · intro entries between ran course
    obtain ⟨_, _, _, ⟨rows, hydrated, _⟩, _⟩ := gives_of_unit regular asks ran
    refine follows_rememberLoaded (course.grows.registered mapping registered) ?_
    intro entry member
    obtain ⟨_, _, hydrates⟩ := Mapping.hydrateAll_ok wellFormed hydrated entry member
    obtain ⟨id, _, same⟩ := hydrates.key
    exact ⟨id, named ▸ same⟩

theorem run_prepare (text : String) (store : Store World) :
    ∃ outcome, (prepare text).run store = (outcome, store) ∧
      ∀ prepared, outcome = .ok prepared → prepared.root ∈ store.registry.mappings := by
  unfold prepare
  rw [run_bind, run_ensureOpen]
  cases isOpen : store.isOpen with
  | false => exact ⟨_, rfl, fun _ impossible => by cases impossible⟩
  | true =>
      simp only [↓reduceIte]
      rw [run_bind, run_get]
      simp only
      rw [run_settleOutcome]
      refine ⟨_, rfl, ?_⟩
      intro prepared ok
      cases parsed : Query.parse store.registry.mapping? text with
      | error fault =>
          rw [parsed] at ok
          cases ok
      | ok query =>
          rw [parsed] at ok
          cases ok
          obtain ⟨name, found⟩ := Query.parse_ok parsed
          exact (Registry.mem_of_mapping? found).1

theorem follows_prepare_bind {text : String} {next : Query → Operation World β}
    (later : ∀ prepared, prepared.root ∈ store.registry.mappings →
      Follows session poses (next prepared) store) :
    Follows session poses (prepare text >>= next) store := by
  obtain ⟨outcome, ran, known⟩ := run_prepare text store
  exact follows_bind_same ran fun prepared same => later prepared (known prepared same)

/-! ### Rows -/

theorem asks_loading {fits : Mapping → Prop} {lease : LeaseId} {mapping : Mapping} {key : Key}
    (fit : fits mapping) (named : key.entityType = mapping.entity) :
    Asks session.database (Question.Issued fits false) lease (do
      let row ← fetchRow session lease mapping key
      return (row, WriteSet.ofFills (row.toList.map fun content => (key, content))))
      fun result log => Task.read.Gives session.dialect fits result.2 log := by
  have asksFetch : Asks session.database (Question.Issued fits false) lease
      (fetchRow session lease mapping key) fun row log =>
        Fetched session.dialect fits (row.toList.map fun content => (key, content)) log := by
    refine asks_fetchRow fit key (fun _ => .nothing) fun id rows keyed => ?_
    have same : key = Key.withId mapping.entity id := by
      rw [← named, Key.withId, ← keyed]
    cases first : rows.head? with
    | none => exact .missing id fit first
    | some row =>
        rw [same]
        exact .row id fit first
  refine asks_bind asksFetch fun row log fetched => asks_pure ?_
  rw [List.append_nil]
  exact .read fetched

theorem run_cachedRow (key : Key) (store : Store World) :
    (cachedRow key).run store
      = (.ok (store.cache.get key).1, { store with cache := (store.cache.get key).2 }) := rfl

theorem Regular.looked (regular : store.Regular) (key : Key) :
    Store.Regular { store with cache := (store.cache.get key).2 } :=
  ⟨regular.sound.transfer_same rfl rfl rfl, regular.leased.transfer_same rfl rfl⟩

private theorem follows_loadRow {mapping : Mapping} {key : Key} (regular : store.Regular)
    (registered : mapping ∈ store.registry.mappings) (named : key.entityType = mapping.entity) :
    Follows session poses (loadRow session mapping key) store := by
  have looks : Course session poses store true
      { store with cache := (store.cache.get key).2 } := .one (.looked key)
  unfold loadRow
  refine follows_ensureOpen_bind fun _ => ?_
  refine follows_bind looks fun found between ran course => ?_
  cases found with
  | some row => exact follows_pure _
  | none =>
      refine follows_unit (course.regular regular) (Or.inl rfl) fun lease => ?_
      exact asks_loading (course.grows.registered mapping registered) named

theorem Sound.instanceAt (sound : store.Sound) {subject : InstanceId}
    (inMemory : subject < store.memory.size) :
    (store.instanceAt subject).Sound store.registry store.memory.size := by
  have found : store.memory[subject]? = some store.memory[subject] :=
    Array.getElem?_eq_getElem inMemory
  rw [instanceAt_eq found]
  exact sound.memory subject _ found

theorem follows_find {mapping : Mapping} (regular : store.Regular)
    (registered : mapping ∈ store.registry.mappings) (id : Int64) :
    Follows session poses (find session mapping id) store := by
  unfold find
  refine follows_bind (follows_loadRow regular registered rfl) fun found between _ course => ?_
  cases found with
  | none => exact follows_pure _
  | some row =>
      refine follows_get_bind ?_
      refine follows_bind (follows_remember
        (Instance.sound_loaded (course.grows.registered mapping registered) _ id none _)) ?_
      exact fun _ _ _ _ => follows_pure _

private theorem follows_rowOf {subject : InstanceId} (regular : store.Regular)
    (inMemory : subject < store.memory.size) :
    Follows session poses (rowOf session subject) store := by
  have sound := regular.sound.instanceAt inMemory
  unfold rowOf
  refine follows_get_bind ?_
  dsimp only
  split
  · exact follows_throw _
  split
  · exact follows_pure _
  refine follows_bind (follows_loadRow regular sound.registered sound.sound.entity) ?_
  intro found between _ _
  cases found with
  | some row =>
      refine follows_bind (follows_change_of_same fun _ => ⟨rfl, rfl, rfl, rfl⟩) ?_
      exact fun _ _ _ _ => follows_pure _
  | none =>
      refine follows_bind (follows_change_of_same fun _ => ⟨rfl, rfl, rfl, rfl⟩) ?_
      exact fun _ _ _ _ => follows_throw _

/-! ### Properties -/

section Properties

variable {subject : InstanceId} (regular : store.Regular)
  (inMemory : subject < store.memory.size)

include regular inMemory

theorem follows_columnOf (column : String) :
    Follows session poses (columnOf session subject column) store :=
  follows_bind (follows_rowOf regular inMemory) fun _ _ _ _ => follows_pure _

private theorem follows_readScalar (property : ScalarProperty) :
    Follows session poses (readScalar session subject property) store := by
  unfold readScalar
  refine follows_get_bind ?_
  dsimp only
  split
  · exact follows_pure _
  · exact follows_pure _
  · exact follows_throw _
  · split
    · exact follows_pure _
    · exact follows_bind (follows_columnOf regular inMemory _) fun _ _ _ _ => follows_pure _

private theorem follows_readReference (relation : ObjectRelation) :
    Follows session poses (readReference session subject relation) store := by
  unfold readReference
  refine follows_get_bind ?_
  dsimp only
  split
  · exact follows_pure _
  · exact follows_pure _
  · exact follows_pure _
  · split
    · exact follows_pure _
    · exact follows_columnOf regular inMemory _

theorem follows_read (name : String) :
    Follows session poses (read session subject name) store := by
  unfold read
  refine follows_get_bind ?_
  dsimp only
  split
  · exact follows_get_bind (follows_pure _)
  refine follows_bind_same (run_settleOutcome _ _) fun property _ => ?_
  refine follows_bind_same (run_settleOutcome _ _) fun _ _ => ?_
  cases property with
  | collection relation => exact follows_throw _
  | scalar property => exact follows_readScalar regular inMemory property
  | object relation => exact follows_readReference regular inMemory relation

theorem follows_readObject (name : String) :
    Follows session poses (readObject session subject name) store := by
  unfold readObject
  refine follows_get_bind ?_
  dsimp only
  refine follows_bind_same (run_settleOutcome _ _) fun property _ => ?_
  cases property with
  | collection relation => exact follows_throw _
  | scalar property => exact follows_throw _
  | object relation =>
      refine follows_bind_same (run_settleOutcome _ _) fun _ _ => ?_
      split
      · exact follows_pure _
      · exact follows_pure _
      · exact follows_pure _
      · exact follows_throw _
      · split
        · exact follows_pure _
        · refine follows_bind (follows_columnOf regular inMemory _) fun value _ _ _ => ?_
          split
          · exact follows_pure _
          · exact follows_bind (follows_reference _ _) fun _ _ _ _ => follows_pure _

omit inMemory in
theorem follows_readCollection (name : String) :
    Follows session poses (readCollection session subject name) store := by
  unfold readCollection
  refine follows_get_bind ?_
  dsimp only
  refine follows_bind_same (run_settleOutcome _ _) fun property _ => ?_
  cases property with
  | scalar property => exact follows_throw _
  | object relation => exact follows_throw _
  | collection relation =>
      refine follows_bind_same (run_settleOutcome _ _) fun _ _ => ?_
      split
      · exact follows_pure _
      · exact follows_pure _
      · refine follows_prepare_bind fun prepared fit => ?_
        refine follows_bind (follows_run regular fit _ _) fun members _ _ _ => ?_
        refine follows_bind (follows_change_of_same fun _ => ⟨rfl, rfl, rfl, rfl⟩) ?_
        intro _ between _ _
        refine follows_bind (follows_modify (quiet_registerOwner _ _ between)) ?_
        exact fun _ _ _ _ => follows_pure _

end Properties

theorem follows_forgetCollections (subject : InstanceId) :
    Follows session poses (forgetCollections subject) store :=
  follows_change_of_same fun _ => ⟨rfl, rfl, rfl, rfl⟩

end Store
end EntityStore
