/-
What a store can be asked to do, and the stores that are reached in this way. Saving,
removing, and creating and dropping tables are courses whose first stage is their task;
so are the boundaries of transactions. Every store that is reached is regular.
-/

import EntityStore.Proofs.Courses
import EntityStore.Proofs.Graphs

set_option autoImplicit false

namespace EntityStore

/-! ### Plans of regular stores -/

theorem Updated.of_changed {dialect : Dialect} {ids : Ids} {plan : List PlannedNode}
    {changed : List Written} {log : List Event}
    (changes : Updated dialect ids plan changed log) {written : Written}
    (member : written ∈ changed) :
    written.planned ∈ plan ∧ written.planned.content.state = .dirty ∧
      written.planned.content.key.id = some written.id := by
  induction changes with
  | nil => cases member
  | skipped _ _ ih =>
      obtain ⟨isPlanned, facts⟩ := ih member
      exact ⟨List.mem_cons_of_mem _ isPlanned, facts⟩
  | changed dirty keyed _ _ ih =>
      rcases List.mem_cons.mp member with rfl | isLater
      · exact ⟨List.mem_cons_self, dirty, keyed⟩
      · obtain ⟨isPlanned, facts⟩ := ih isLater
        exact ⟨List.mem_cons_of_mem _ isPlanned, facts⟩

theorem Writing.planned_mem {dialect : Dialect} {plan : List PlannedNode}
    (writing : Writing dialect plan) {written : Written} (member : written ∈ writing.written) :
    written.planned ∈ plan := by
  rcases List.mem_append.mp member with isNew | isChanged
  · rw [writing.completes.eq_map] at isNew
    obtain ⟨entry, isInserted, rfl⟩ := List.mem_map.mp isNew
    have same : entry.2.planned = entry.1.planned := (writing.inserts.lookup isInserted).2
    show entry.2.planned ∈ plan
    rw [same]
    exact (writing.planned_of_inserted isInserted).1
  · exact (writing.changes.of_changed isChanged).1

namespace Store

variable {World α β : Type} {session : Session World} {poses : Task → Prop}
  {store : Store World}

theorem Sound.of_plan (sound : store.Sound) {dialect : Dialect} {subject : InstanceId}
    {graph : Graph} (collected : Graph.collect store.id store.memory subject = .ok graph)
    {planned : PlannedNode} (member : planned ∈ graph.plan dialect) :
    planned.node.subject < store.memory.size ∧
      store.memory[planned.node.subject]? = some planned.content ∧
      planned.content.Sound store.registry store.memory.size := by
  have facts := Graph.collect_ok collected
  obtain ⟨isNode, _⟩ := Graph.mem_plan.mp member
  have nodeMember := List.mem_of_getElem? isNode
  have bound := facts.inMemory _ nodeMember
  have found : store.memory[planned.node.subject]? = some planned.content := by
    unfold PlannedNode.content
    rw [facts.found _ nodeMember]
    simp [Node.ofMemory, bound]
  exact ⟨bound, found, sound.memory _ _ found⟩

theorem Sound.fit_of_plan (sound : store.Sound) {dialect : Dialect} {subject : InstanceId}
    {graph : Graph} (collected : Graph.collect store.id store.memory subject = .ok graph)
    {planned : PlannedNode} (member : planned ∈ graph.plan dialect) :
    planned.Fit (· ∈ store.registry.mappings) := by
  have registered := (sound.of_plan collected member).2.2.registered
  obtain ⟨_, writes⟩ := Graph.mem_plan.mp member
  refine ⟨⟨sound.registry.mappings _ registered, ?_, ?_⟩, registered⟩
  · rw [writes]
    exact Graph.columns_of_assignments dialect graph planned.content
  · rw [writes]
    exact Graph.names_of_assignments dialect graph planned.content

/-! ### Saving -/

theorem asks_save {lease : LeaseId} {fits : Mapping → Prop} {plan : List PlannedNode}
    (fit : ∀ planned ∈ plan, planned.content.needsWrite = true → planned.Fit fits) :
    Asks session.database (Question.Issued fits true) lease (do
      let written ← writeAll session lease plan
      return (written, WriteSet.ofWritten written))
      fun result log => ∃ writing : Writing session.dialect plan,
        result = (writing.written, WriteSet.ofWritten writing.written) ∧ log = writing.log := by
  refine asks_bind (asks_writeAll fit) ?_
  rintro written log ⟨writing, rfl, rfl⟩
  exact asks_pure ⟨writing, rfl, by rw [List.append_nil]⟩

theorem follows_settleAll {written : List Written}
    (inMemory : ∀ one ∈ written, one.planned.node.subject < store.memory.size) :
    Follows session poses (settleAll session written) store := by
  induction written generalizing store poses with
  | nil => exact follows_pure ()
  | cons one rest ih =>
      unfold settleAll
      dsimp only
      refine follows_bind (follows_modify (quiet_rememberInTransaction session.thread
        (inMemory one List.mem_cons_self))) fun _ noted _ courseNoted => ?_
      have settles : noted.Quiet (noted.modifyInstance
          (fun content => content.settle one.id one.row) one.planned.node.subject) :=
        quiet_modifyInstance (fun _ => rfl) fun _ _ sound => sound.settle one.id one.row
      refine follows_bind (follows_modify settles) fun _ settled _ courseSettled => ih ?_
      intro other member
      exact Nat.lt_of_lt_of_le (inMemory other (List.mem_cons_of_mem one member))
        (Nat.le_trans courseNoted.grows.size courseSettled.grows.size)

def SavesPlan (store : Store World) (session : Session World) (subject : InstanceId)
    (task : Task) : Prop :=
  ∃ graph, Graph.collect store.id store.memory subject = .ok graph ∧
    task = .save (graph.plan session.dialect)

private theorem follows_save (regular : store.Regular) (subject : InstanceId) :
    Follows session (store.SavesPlan session subject) (save session subject) store := by
  unfold save
  refine follows_ensureOpen_bind fun _ => follows_get_bind ?_
  refine follows_bind_same (run_settleOutcome _ _) fun graph collected => ?_
  split
  case isFalse => exact follows_pure ()
  have fit : ∀ planned ∈ graph.plan session.dialect, planned.content.needsWrite = true →
      planned.Fit (· ∈ store.registry.mappings) :=
    fun planned member _ => regular.sound.fit_of_plan collected member
  have asks : ∀ lease, Asks session.database
      (Question.Issued (· ∈ store.registry.mappings) true) lease _ _ := fun _ => asks_save fit
  refine follows_bind (follows_unit regular (Or.inr ⟨graph, collected, rfl⟩) fun lease =>
    (asks lease).weaken ?_) ?_
  · rintro _ _ ⟨writing, rfl, rfl⟩
    exact .save writing
  · intro written between ran course
    obtain ⟨_, _, writing, same, _⟩ := gives_of_unit regular asks ran
    obtain rfl : written = writing.written := congrArg Prod.fst same
    refine follows_settleAll fun one member => ?_
    exact Nat.lt_of_lt_of_le (regular.sound.of_plan collected (writing.planned_mem member)).1
      course.grows.size

/-! ### Removing -/

theorem follows_withdraw {subject : InstanceId} (inMemory : subject < store.memory.size) :
    Follows session poses (withdraw session subject) store := by
  unfold withdraw
  refine follows_bind (follows_modify
    (quiet_rememberInTransaction session.thread inMemory)) fun _ noted _ _ => ?_
  exact follows_modify (quiet_modifyInstance (fun _ => rfl) fun _ _ sound => sound.withdraw)

theorem asks_removal {lease : LeaseId} {fits : Mapping → Prop} {content : Instance}
    (fit : fits content.mapping) {id : Int64} (keyed : content.key.id = some id) :
    Asks session.database (Question.Issued fits true) lease (do
      let row ← match content.row with
        | some row => pure (some row)
        | none => fetchRow session lease content.mapping content.key
      let _ ← execute session lease (Statement.delete session.dialect content.mapping id)
      return ((), WriteSet.ofRemoval content.mapping content.key row))
      fun result log => (Task.removal content).Gives session.dialect fits result.2 log := by
  have asksDelete (row : Option Row) (log : List Event)
      (known : RowKnown session.dialect content id row log) :
      Asks session.database (Question.Issued fits true) lease (do
        let _ ← execute session lease (Statement.delete session.dialect content.mapping id)
        return ((), WriteSet.ofRemoval content.mapping content.key row))
        fun result later => (Task.removal content).Gives session.dialect fits result.2
          (log ++ later) := by
    refine asks_bind (asks_execute (.delete session.dialect id fit) fun _ => rfl) ?_
    intro affected later same
    subst same
    refine asks_pure ?_
    rw [List.append_nil]
    exact .removal keyed known
  split
  · rename_i row held
    exact asks_bind (asks_pure (.held held)) asksDelete
  · rename_i missing
    refine asks_bind (asks_fetchRow fit content.key ?_ ?_) asksDelete
    · intro unkeyed
      rw [keyed] at unkeyed
      cases unkeyed
    · intro other rows same
      rw [keyed] at same
      cases same
      exact .fetched missing

private theorem follows_deleteRow {content : Instance} (regular : store.Regular)
    (registered : content.mapping ∈ store.registry.mappings) {id : Int64}
    (keyed : content.key.id = some id) :
    Follows session (fun task => task = .removal content) (deleteRow session content id) store := by
  unfold deleteRow
  have posed : Task.removal content = .read ∨ Task.removal content = .removal content := Or.inr rfl
  exact follows_unit regular posed fun lease => asks_removal registered keyed

private theorem follows_remove {subject : InstanceId} (regular : store.Regular)
    (inMemory : subject < store.memory.size) :
    Follows session (fun task => task = .removal (store.instanceAt subject))
      (remove session subject) store := by
  have registered := (regular.sound.instanceAt inMemory).registered
  unfold remove
  refine follows_ensureOpen_bind fun _ => follows_get_bind ?_
  dsimp only
  split
  · exact follows_throw _
  · exact follows_withdraw inMemory
  · exact follows_throw _
  · rename_i id keyed _ _
    refine follows_bind (follows_deleteRow regular registered keyed) fun _ between _ course => ?_
    exact follows_withdraw (Nat.lt_of_lt_of_le inMemory course.grows.size)

/-! ### Tables -/

section Tables

variable {fits : Mapping → Prop} {lease : LeaseId} {writes : Bool}

private theorem asks_defaultSchema :
    Asks session.database (Question.Issued fits writes) lease (defaultSchema session lease)
      fun _ log => ∀ event ∈ log, event.Creates := by
  unfold defaultSchema
  cases asked : Statement.defaultSchema? session.dialect with
  | none => exact asks_pure fun _ member => (by cases member)
  | some statement =>
      have isDefault : statement.request = .defaultSchema := by
        obtain ⟨text, _, rfl⟩ := Option.map_eq_some_iff.mp asked
        rfl
      refine asks_bind (asks_query (.defaultSchema isDefault) fun rows => rfl) ?_
      intro rows log same
      subst same
      refine asks_pure ?_
      intro event member statement same
      rw [List.append_nil, List.mem_singleton] at member
      rw [member] at same
      cases same

private theorem asks_executeAll {statements : List Statement}
    (conforms : ∀ statement ∈ statements, statement.Conforms fits) :
    Asks session.database (Question.Issued fits true) lease (executeAll session lease statements)
      fun _ log => log = statements.map .executed := by
  induction statements with
  | nil => exact asks_pure rfl
  | cons statement rest ih =>
      unfold executeAll
      refine asks_bind (asks_execute (conforms statement List.mem_cons_self) fun _ => rfl) ?_
      intro affected log same
      subst same
      refine (ih fun other member => conforms other (List.mem_cons_of_mem _ member)).weaken ?_
      rintro _ log rfl
      rfl

private theorem creation_ok {dialect : Dialect} {mapping : Mapping} (fit : fits mapping)
    {statements : List Statement}
    (created : Statement.creation dialect mapping = .ok statements) :
    ∀ statement ∈ statements, statement.Conforms fits ∧ (Event.executed statement).Creates := by
  unfold Statement.creation at created
  simp only [bind, Except.bind, pure, Except.pure] at created
  split at created
  · cases created
  rename_i table made
  cases created
  intro statement member
  rcases List.mem_cons.mp member with rfl | isSequence
  · refine ⟨.createTable dialect fit made, ?_⟩
    intro other same
    cases same
    exact Or.inl ⟨_, _, _, Statement.request_of_createTable made⟩
  · have isCreation : ∃ sequence, statement.request = .createSequence sequence := by
      have found := Option.mem_toList.mp isSequence
      unfold Statement.createSequence? at found
      obtain ⟨sequence, _, found⟩ := Option.bind_eq_some_iff.mp found
      obtain ⟨text, _, found⟩ := Option.bind_eq_some_iff.mp found
      cases found
      exact ⟨_, rfl⟩
    obtain ⟨sequence, isRequest⟩ := isCreation
    refine ⟨.createSequence sequence isRequest, ?_⟩
    intro other same
    cases same
    exact Or.inr ⟨sequence, isRequest⟩

private theorem asks_createMissing (default : Option String) {mappings : List Mapping}
    (fit : ∀ mapping ∈ mappings, fits mapping) :
    Asks session.database (Question.Issued fits true) lease
      (createMissing session lease default mappings)
      fun _ log => ∀ event ∈ log, event.Creates := by
  induction mappings with
  | nil => exact asks_pure fun _ member => (by cases member)
  | cons mapping rest ih =>
      have asksRest := ih fun other member => fit other (List.mem_cons_of_mem mapping member)
      have looked (found : Bool) (table : QualifiedName) :
          (Event.lookedUp table found).Creates := fun _ impossible => (by cases impossible)
      have asksLookUp : Asks session.database (Question.Issued fits true) lease
          (tableExists session lease default mapping) fun found log =>
            log = [.lookedUp ⟨mapping.schema <|> default, mapping.table⟩ found] :=
        asks_tableExists fun _ => rfl
      have asksStatements : Asks session.database (Question.Issued fits true) lease
          (settleOutcome ((Statement.creation session.dialect mapping).mapError
            (Error.mapping session.dialect.name))) fun statements log =>
              Statement.creation session.dialect mapping = .ok statements ∧ log = [] := by
        exact asks_settleOutcome fun statements ok => ⟨mapError_eq_ok.mp ok, rfl⟩
      unfold createMissing
      refine asks_bind asksLookUp ?_
      intro found log same
      subst same
      cases found with
      | true =>
          refine asksRest.weaken fun names later creates event member => ?_
          rcases List.mem_cons.mp member with rfl | isLater
          · exact looked true _
          · exact creates event isLater
      | false =>
          simp only [Bool.false_eq_true, ↓reduceIte]
          refine asks_bind asksStatements ?_
          rintro statements _ ⟨created, rfl⟩
          have facts := creation_ok (fit mapping List.mem_cons_self) created
          refine asks_bind (asks_executeAll fun statement member => (facts statement member).1) ?_
          rintro _ _ rfl
          refine asks_bind asksRest fun names later creates => asks_pure ?_
          intro event member
          simp only [List.append_nil, List.nil_append, List.mem_append, List.mem_map,
            List.mem_cons, List.not_mem_nil, or_false] at member
          rcases member with rfl | ⟨statement, isStatement, rfl⟩ | isLater
          · exact looked false _
          · exact (facts statement isStatement).2
          · exact creates event isLater

private theorem asks_dropExisting (default : Option String) (mappings : List Mapping) :
    Asks session.database (Question.Issued fits true) lease
      (dropExisting session lease default mappings) fun _ _ => True := by
  induction mappings with
  | nil => exact asks_pure trivial
  | cons mapping rest ih =>
      have asksLookUp : Asks session.database (Question.Issued fits true) lease
          (tableExists session lease default mapping) fun _ _ => True :=
        asks_tableExists fun _ => trivial
      unfold dropExisting
      refine asks_bind asksLookUp ?_
      intro found log _
      cases found with
      | false => exact ih
      | true =>
          refine asks_bind (asks_executeAll fun statement member => ?_) ?_
          · rcases List.mem_cons.mp member with rfl | isSequence
            · exact .dropTable mapping
            · have found := Option.mem_toList.mp isSequence
              unfold Statement.dropSequence? at found
              obtain ⟨sequence, _, found⟩ := Option.bind_eq_some_iff.mp found
              obtain ⟨text, _, found⟩ := Option.bind_eq_some_iff.mp found
              cases found
              exact .dropSequence _ rfl
          · exact fun _ _ _ => asks_bind ih fun _ _ _ => asks_pure trivial

theorem asks_sync {mappings : List Mapping} (fit : ∀ mapping ∈ mappings, fits mapping) :
    Asks session.database (Question.Issued fits true) lease (do
      let default ← defaultSchema session lease
      let names ← createMissing session lease default mappings
      return (names, ({} : WriteSet)))
      fun result log => Task.sync.Gives session.dialect fits result.2 log := by
  refine asks_bind asks_defaultSchema fun default log createsFirst => ?_
  refine asks_bind (asks_createMissing default fit) ?_
  refine fun names later creates => asks_pure (.sync ?_)
  intro event member
  simp only [List.append_nil, List.mem_append] at member
  rcases member with isFirst | isLater
  · exact createsFirst event isFirst
  · exact creates event isLater

theorem asks_drop (mappings : List Mapping) :
    Asks session.database (Question.Issued fits true) lease (do
      let default ← defaultSchema session lease
      let names ← dropExisting session lease default mappings
      return (names, ({} : WriteSet)))
      fun result log => Task.drop.Gives session.dialect fits result.2 log := by
  refine asks_bind asks_defaultSchema fun default log _ => ?_
  exact asks_bind (asks_dropExisting default _) fun _ _ _ => asks_pure (.drop _)

end Tables

theorem follows_sync (regular : store.Regular) :
    Follows session (fun task => task = .sync) (sync session) store := by
  unfold sync
  refine follows_get_bind ?_
  dsimp only
  have posed : Task.sync = .read ∨ Task.sync = .sync := Or.inr rfl
  exact follows_unit regular posed fun lease => asks_sync fun _ member => member

theorem follows_drop (regular : store.Regular) :
    Follows session (fun task => task = .drop) (drop session) store := by
  unfold drop
  refine follows_get_bind ?_
  dsimp only
  have posed : Task.drop = .read ∨ Task.drop = .drop := Or.inr rfl
  refine follows_bind (follows_unit regular posed fun lease => asks_drop _) ?_
  intro names between _ _
  exact follows_bind (Course.one .cleared) fun _ _ _ _ => follows_pure names

end Store

/-! ### Actions -/

inductive Action where
  | define (batch : List Definition)
  | sync
  | drop
  | create (entity : String) (values : List (String × PropertyValue))
  | reference (entity : String) (id : Int64)
  | find (entity : String) (id : Int64)
  | query (text : String) (parameters : Parameters) (page : Page)
  | read (subject : InstanceId) (name : String)
  | readObject (subject : InstanceId) (name : String)
  | readCollection (subject : InstanceId) (name : String)
  | assign (subject : InstanceId) (name : String) (value : PropertyValue)
  | forgetCollections (subject : InstanceId)
  | save (subject : InstanceId)
  | remove (subject : InstanceId)
  | begin
  | commit
  | rollback
  | clearCache
  | close

namespace Action

variable {World : Type}

/-- Does what is asked for; results are of no interest here. -/
def perform (session : Session World) : Action → Operation World Unit
  | define batch => do let _ ← Store.define batch
  | sync => do let _ ← Store.sync session
  | drop => do let _ ← Store.drop session
  | create entity values => do
      let _ ← Store.createInstance (← Store.entityType entity) values
  | reference entity id => do let _ ← Store.reference entity id
  | find entity id => do let _ ← Store.find session (← Store.entityType entity) id
  | query text parameters page => do
      let _ ← Store.run session (← Store.prepare text) parameters page
  | read subject name => do let _ ← Store.read session subject name
  | readObject subject name => do let _ ← Store.readObject session subject name
  | readCollection subject name => do let _ ← Store.readCollection session subject name
  | assign subject name value => Store.assign subject name value
  | forgetCollections subject => Store.forgetCollections subject
  | save subject => Store.save session subject
  | remove subject => Store.remove session subject
  | begin => Store.beginTransaction session
  | commit => Store.commitTransaction session
  | rollback => Store.rollbackTransaction session
  | clearCache => Store.clearCache
  | close => Store.close session

def InMemory (size : Nat) : Action → Prop
  | create _ values => ∀ entry ∈ values, ∀ target, entry.2 = .entity target → target < size
  | read subject _ | readObject subject _ | readCollection subject _ => subject < size
  | assign subject _ value =>
      subject < size ∧ ∀ target, value = .entity target → target < size
  | forgetCollections subject | save subject | remove subject => subject < size
  | _ => True

def Poses (session : Session World) (store : Store World) : Action → Task → Prop
  | sync, task => task = .sync
  | drop, task => task = .drop
  | save subject, task => store.SavesPlan session subject task
  | remove subject, task => task = .removal (store.instanceAt subject)
  | begin, task => task = .begin
  | commit, task => task = .commit
  | rollback, task => task = .rollback
  | close, task => task = .close
  | _, _ => False

variable {session : Session World} {store : Store World}

/-- Every action is a course whose first stage is its task. -/
theorem follows_perform {action : Action} (regular : store.Regular)
    (inMemory : action.InMemory store.memory.size) :
    Store.Follows session (action.Poses session store) (action.perform session) store := by
  have returns {α : Type} : ∀ (_ : α) (between : Store World), Store.Follows session
      Store.onlyReads (pure ()) between := fun _ _ => Store.follows_pure ()
  cases action with
  | define batch => exact Store.follows_bind (Store.follows_define batch) fun _ _ _ _ => returns () _
  | sync => exact Store.follows_bind (Store.follows_sync regular) fun _ _ _ _ => returns () _
  | drop => exact Store.follows_bind (Store.follows_drop regular) fun _ _ _ _ => returns () _
  | create entity values =>
      exact Store.follows_entityType_bind fun _ registered _ => Store.follows_bind
        (Store.follows_createInstance registered inMemory) fun _ _ _ _ => returns () _
  | reference entity id =>
      exact Store.follows_bind (Store.follows_reference entity id) fun _ _ _ _ => returns () _
  | find entity id =>
      exact Store.follows_entityType_bind fun _ registered _ => Store.follows_bind
        (Store.follows_find regular registered id) fun _ _ _ _ => returns () _
  | query text parameters page =>
      exact Store.follows_prepare_bind fun _ fit => Store.follows_bind
        (Store.follows_run regular fit parameters page) fun _ _ _ _ => returns () _
  | read subject name =>
      exact Store.follows_bind (Store.follows_read regular inMemory name) fun _ _ _ _ => returns () _
  | readObject subject name =>
      exact Store.follows_bind (Store.follows_readObject regular inMemory name)
        fun _ _ _ _ => returns () _
  | readCollection subject name =>
      exact Store.follows_bind (Store.follows_readCollection regular name)
        fun _ _ _ _ => returns () _
  | assign subject name value => exact Store.follows_assign subject name inMemory.2
  | forgetCollections subject => exact Store.follows_forgetCollections subject
  | save subject => exact Store.follows_save regular subject
  | remove subject => exact Store.follows_remove regular inMemory
  | begin =>
      exact (Store.ensures_beginTransaction session store).weaken
        fun _ _ ends => .one (.began rfl ends)
  | commit =>
      exact (Store.ensures_commitTransaction fun _ inside =>
        regular.leased.connection inside).weaken fun _ _ ends => .one (.committed rfl ends)
  | rollback =>
      exact (Store.ensures_rollbackTransaction fun _ inside =>
        regular.leased.connection inside).weaken fun _ _ ends => .one (.rolledBack rfl ends)
  | clearCache => exact Store.Course.one .cleared
  | close =>
      obtain ⟨after, ends, ran⟩ := Store.run_close session store
      unfold Store.Follows Store.Ensures
      rw [show (Action.close.perform session).run store = (.ok (), after) from ran]
      exact .one (.closed rfl ends)

end Action

structure Deployment (World : Type) where
  database : Database World
  dialect : Dialect
  config : StoreConfig
  store : StoreId
  /-- The world in which the store is opened. -/
  world : World

namespace Deployment

variable {World : Type}

def session (deployment : Deployment World) (thread : ThreadId) : Session World where
  database := deployment.database
  dialect := deployment.dialect
  thread := thread

/-- The stores that are reached from the new one by actions that are allowed, whatever
becomes of them. -/
inductive Reached (deployment : Deployment World)
    (allowed : Store World → ThreadId → Action → Prop) : Store World → Prop where
  | created {store : Store World} {world : World} :
      Store.create deployment.database deployment.config deployment.store #[] deployment.world
        = (.ok store, world) →
      Reached deployment allowed store
  | acted {store after : Store World} {thread : ThreadId} {action : Action}
      {outcome : Except Error Unit} : Reached deployment allowed store →
      allowed store thread action → action.InMemory store.memory.size →
      (action.perform (deployment.session thread)).run store = (outcome, after) →
      Reached deployment allowed after

variable {deployment : Deployment World} {allowed : Store World → ThreadId → Action → Prop}
  {store : Store World}

theorem create_ok {world : World}
    (created : Store.create deployment.database deployment.config deployment.store #[]
      deployment.world = (.ok store, world)) :
    ∃ pool, Pool.create deployment.database deployment.config.pool 0 deployment.world
        = (.ok (), pool) ∧ store = {
          id := deployment.store
          config := deployment.config
          cache := Cache.empty deployment.config.cache
          pool := pool
          memory := #[] } := by
  unfold Store.create at created
  split at created
  · cases created
  · rename_i pool made
    cases created
    exact ⟨pool, made, rfl⟩

theorem Reached.regular (reached : deployment.Reached allowed store) : store.Regular := by
  induction reached with
  | created created =>
      obtain ⟨pool, made, rfl⟩ := create_ok created
      obtain ⟨numbered, _⟩ := Pool.numbered_create made
      refine ⟨⟨Registry.wellFormed_empty, ?_, ?_⟩, numbered, List.nodup_nil, ?_⟩
      · intro subject content found
        simp at found
      · intro entry member
        cases member
      · intro lease member
        cases member
  | acted _ _ inMemory ran ih => exact ((Action.follows_perform ih inMemory).of_run ran).regular ih

end Deployment

end EntityStore
