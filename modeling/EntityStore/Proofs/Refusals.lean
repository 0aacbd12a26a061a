/-
The life of an instance. It keeps to its states whatever fails, its id and its removal are
for good unless the transaction that brought them is aborted, and once it is removed nothing
can be done with it.
-/

import EntityStore.Proofs.Consistency
import EntityStore.Proofs.Retaining

set_option autoImplicit false

namespace EntityStore

/-! ### Names of properties -/

def Registry.Reserves (registry : Registry) : Prop :=
  ∀ mapping ∈ registry.mappings, ∀ property ∈ mapping.properties, property.name ≠ idProperty

theorem Registry.Defines.reserves {registry extended : Registry} {batch : List Definition}
    {mappings : List Mapping} (defines : registry.Defines batch mappings extended)
    (reserves : registry.Reserves) : extended.Reserves := by
  intro mapping member
  rw [defines.extended] at member
  rcases List.mem_append.mp member with isOld | isNew
  · exact reserves mapping isOld
  · obtain ⟨_, _, built⟩ := Mapping.mem_buildAll defines.built isNew
    exact Mapping.name_ne_of_buildProperties (Mapping.build_parts built).2

theorem Deployment.Reached.reserves {World : Type} {deployment : Deployment World}
    {allowed : Store World → ThreadId → Action → Prop} {store : Store World}
    (reached : deployment.Reached allowed store) : store.registry.Reserves := by
  refine reached.invariant (fun store => store.registry.Reserves) ?_ ?_
  · intro store world created
    obtain ⟨pool, _, rfl⟩ := create_ok created
    exact fun _ impossible => nomatch impossible
  · intro first second _ _ _ _ _ step reserves
    rcases step.registry with same | ⟨_, _, defined⟩
    · exact same ▸ reserves
    · exact (Registry.define_ok defined).reserves reserves

namespace Store

variable {World α β : Type} {session : Session World} {store : Store World}

/-! ### Operations that are refused -/

def Refuses (operation : Operation World α) (store : Store World) : Prop :=
  ∃ error, operation.run store = (.error error, store)

private theorem refuses_throw (error : Error) :
    Refuses (throw error : Operation World α) store := ⟨error, rfl⟩

private theorem refuses_settleOutcome (error : Error) :
    Refuses (settleOutcome (.error error) : Operation World α) store := ⟨error, rfl⟩

section Binding

variable {operation : Operation World α} {next : α → Operation World β}

private theorem refuses_bind (refuses : Refuses operation store) :
    Refuses (operation >>= next) store := by
  obtain ⟨error, ran⟩ := refuses
  exact ⟨error, by rw [run_bind, ran]⟩

private theorem refuses_bind_same {outcome : Except Error α}
    (ran : operation.run store = (outcome, store))
    (later : ∀ result, outcome = .ok result → Refuses (next result) store) :
    Refuses (operation >>= next) store := by
  cases outcome with
  | error error => exact refuses_bind ⟨error, ran⟩
  | ok result =>
      obtain ⟨error, refused⟩ := later result rfl
      exact ⟨error, by rw [run_bind, ran]; exact refused⟩

private theorem refuses_get_bind {next : Store World → Operation World β}
    (later : Refuses (next store) store) : Refuses (get >>= next) store :=
  refuses_bind_same (run_get store) fun _ same => by
    cases same
    exact later

private theorem refuses_ensureOpen_bind {next : Unit → Operation World β}
    (later : Refuses (next ()) store) : Refuses (ensureOpen >>= next) store := by
  have ran := run_ensureOpen store
  cases isOpen : store.isOpen with
  | true =>
      rw [isOpen] at ran
      exact refuses_bind_same ran fun _ _ => later
  | false =>
      rw [isOpen] at ran
      exact refuses_bind ⟨_, ran⟩

end Binding

section Removed

variable {subject : InstanceId} (removed : (store.instanceAt subject).state = .removed)
include removed

private theorem refuses_checkUsable :
    Refuses (settleOutcome (store.instanceAt subject).checkUsable : Operation World Unit) store := by
  unfold Instance.checkUsable
  rw [if_pos removed]
  exact refuses_settleOutcome _

private theorem refuses_read {name : String} (apart : name ≠ idProperty) :
    Refuses (read session subject name) store := by
  unfold read
  refine refuses_get_bind ?_
  dsimp only
  rw [if_neg apart]
  refine refuses_bind_same (run_settleOutcome _ _) fun property _ => ?_
  exact refuses_bind (refuses_checkUsable removed)

private theorem refuses_readObject (name : String) :
    Refuses (readObject session subject name) store := by
  unfold readObject
  refine refuses_get_bind (refuses_bind_same (run_settleOutcome _ _) fun property _ => ?_)
  cases property with
  | scalar property => exact refuses_throw _
  | object relation => exact refuses_bind (refuses_checkUsable removed)
  | collection relation => exact refuses_throw _

private theorem refuses_readCollection (name : String) :
    Refuses (readCollection session subject name) store := by
  unfold readCollection
  refine refuses_get_bind (refuses_bind_same (run_settleOutcome _ _) fun property _ => ?_)
  cases property with
  | scalar property => exact refuses_throw _
  | object relation => exact refuses_throw _
  | collection relation => exact refuses_bind (refuses_checkUsable removed)

private theorem refuses_assign (name : String) (value : PropertyValue) :
    Refuses (assign subject name value) store := by
  unfold assign
  refine refuses_get_bind ?_
  dsimp only
  split
  · exact refuses_bind (refuses_throw _)
  refine refuses_bind_same (run_settleOutcome _ _) fun property _ => ?_
  split
  · exact refuses_throw _
  · exact refuses_bind (refuses_throw _)

private theorem not_collected (sound : store.Sound) (inMemory : subject < store.memory.size)
    {graph : Graph} : Graph.collect store.id store.memory subject ≠ .ok graph := by
  intro collected
  have facts := Graph.collect_ok collected
  obtain ⟨node, isNode, same⟩ := Graph.mem_subjects.mp
    ((sound.mem_graph inMemory collected subject).mpr .refl)
  have content : node.content = store.instanceAt subject := by
    rw [facts.found node isNode, same]
    rfl
  have checked := facts.checked node isNode
  unfold Node.check at checked
  dsimp only at checked
  rw [content, if_pos removed] at checked
  split at checked <;> cases checked

private theorem refuses_save (sound : store.Sound) (inMemory : subject < store.memory.size) :
    Refuses (save session subject) store := by
  unfold save
  refine refuses_ensureOpen_bind (refuses_get_bind ?_)
  refine refuses_bind_same (run_settleOutcome _ _) fun graph collected => ?_
  exact absurd collected (not_collected removed sound inMemory)

private theorem refuses_remove : Refuses (remove session subject) store := by
  unfold remove
  refine refuses_ensureOpen_bind (refuses_get_bind ?_)
  dsimp only
  rw [removed]
  exact refuses_throw _

end Removed

structure RefusesAll (session : Session World) (subject : InstanceId) (store : Store World) :
    Prop where
  read : ∀ property ∈ (store.instanceAt subject).mapping.properties,
    Refuses (Store.read session subject property.name) store
  readObject : ∀ name, Refuses (Store.readObject session subject name) store
  readCollection : ∀ name, Refuses (Store.readCollection session subject name) store
  assign : ∀ name value, Refuses (Store.assign subject name value) store
  clear : ∀ name, Refuses (Store.clear subject name) store
  save : Refuses (Store.save session subject) store
  remove : Refuses (Store.remove session subject) store

private theorem refusesAll_of_removed {subject : InstanceId} (session : Session World)
    (sound : store.Sound) (reserves : store.registry.Reserves)
    (inMemory : subject < store.memory.size)
    (removed : (store.instanceAt subject).state = .removed) :
    RefusesAll session subject store where
  read property member :=
    refuses_read removed (reserves _ (sound.instanceAt inMemory).registered property member)
  readObject := refuses_readObject removed
  readCollection := refuses_readCollection removed
  assign := refuses_assign removed
  clear name := refuses_assign removed name .cleared
  save := refuses_save removed sound inMemory
  remove := refuses_remove removed

end Store

/-! ### Lives -/

namespace Deployment

variable {World : Type} {deployment : Deployment World} {created after : Store World}
  {world : World} {thread : ThreadId} {acts : List (Act World)}

/-- Whatever one thread does with a new store and whatever fails, instances are as their
states say. Only the abort of the transaction that brought a removal or an id takes it away,
no id gives way to another one, and a removed instance refuses everything. -/
theorem instances_follow_lifecycle
    (opened : Store.create deployment.database deployment.config deployment.store #[]
      deployment.world = (.ok created, world))
    (run : deployment.Run created acts after)
    (alone : ∀ act ∈ acts, act.thread = thread ∧ act.action ≠ .close) :
    (∀ subject, (after.instanceAt subject).Consistent) ∧
    (∀ earlier act later subject, acts = earlier ++ act :: later →
      subject < (left created earlier).memory.size →
        (((left created earlier).look subject).state = .removed →
          (act.after.look subject).state ≠ .removed →
          Undoes thread (fun store => (store.look subject).state = .removed) earlier act) ∧
        (((left created earlier).look subject).key.hasId = true →
          (act.after.look subject).key.hasId = false →
          Undoes thread (fun store => (store.look subject).key.hasId = true) earlier act) ∧
        ∀ id other, (left created earlier).idOf subject = some id →
          act.after.idOf subject = some other → other = id) ∧
    ∀ subject, subject < after.memory.size → (after.instanceAt subject).state = .removed →
      Store.RefusesAll (deployment.session thread) subject after := by
  have isNew : deployment.Reached (fun _ _ _ => True) created := .created opened
  have reached := run.reached (fun _ _ _ => trivial) isNew
  have outside : created.inTransaction thread = false := by
    obtain ⟨pool, _, rfl⟩ := create_ok opened
    rfl
  refine ⟨reached.consistent.memory, ?_, fun subject inMemory removed => ?_⟩
  · rintro earlier act later subject rfl inMemory
    refine ⟨fun removed present => ?_, fun known unknown => ?_, fun id other known found => ?_⟩
    · exact run.undoes isNew.regular outside alone inMemory
        (fun snapshot => snapshot.state = .removed)
        (fun persists held => persists.removed held) removed present
    · refine run.undoes isNew.regular outside alone inMemory
        (fun snapshot => snapshot.key.hasId = true) (fun persists held => ?_) known
        (Bool.not_eq_true _ ▸ unknown)
      obtain ⟨id, isId⟩ := Option.isSome_iff_exists.mp held
      exact Option.isSome_iff_exists.mpr ⟨id, persists.id id isId⟩
    · exact run.id_eq isNew.regular outside alone inMemory known found
  · exact Store.refusesAll_of_removed _ reached.regular.sound reached.reserves inMemory removed

set_option maxRecDepth 100000 in
/-- Ada is saved and removed in a transaction, and refuses to be saved; when the transaction is
rolled back she is new again. -/
theorem instances_follow_lifecycle_ada : ∃ created removing after : Store Tables.World,
    ∃ world acts, ∃ act : Act Tables.World,
    Store.create Samples.deployment.database Samples.deployment.config Samples.deployment.store #[]
        Samples.deployment.world = (.ok created, world) ∧
      Samples.deployment.Run created acts removing ∧
      Samples.deployment.Run created (acts ++ [act]) after ∧
      acts.map (fun act => (act.thread, act.action)) = Samples.withdrawn ∧ act.action = .rollback ∧
      Store.Refuses (Store.save (Samples.deployment.session 0) 0) removing ∧
      (after.look 0).state = .transient ∧
      Undoes 0 (fun store => (store.look 0).state = .removed) acts act ∧
      Undoes 0 (fun store => (store.look 0).key.hasId = true) acts act := by
  have facts : ∀ created ∈ (Store.create Samples.deployment.database Samples.deployment.config
        Samples.deployment.store #[] Samples.deployment.world).1.toOption,
      let acts := Samples.deployment.enact Samples.withdrawn created
      let ended := left created (Samples.deployment.enact (Samples.withdrawn ++ [(0, .rollback)])
        created)
      named created acts = true ∧ 0 < (left created acts).memory.size ∧
        ((left created acts).look 0).state = .removed ∧
        ((left created acts).look 0).key.hasId = true ∧
        (ended.look 0).state = .transient ∧ (ended.look 0).key.hasId = false := by
    decide +kernel
  obtain ⟨created, opens⟩ : ∃ created, (Store.create Samples.deployment.database
      Samples.deployment.config Samples.deployment.store #[]
      Samples.deployment.world).1.toOption = some created :=
    Option.isSome_iff_exists.mp (by decide +kernel)
  obtain ⟨names, inMemory, removed, keyed, new, unkeyed⟩ := facts created opens
  have opened : Store.create Samples.deployment.database Samples.deployment.config
      Samples.deployment.store #[] Samples.deployment.world = (.ok created, _) :=
    Prod.ext (toOption_eq_some.mp opens) rfl
  have alone : ∀ step ∈ Samples.withdrawn ++ [(0, .rollback)], step.1 = 0 ∧ step.2 ≠ .close := by
    simp [Samples.withdrawn, Samples.settled, Samples.person]
  have run := run_enact names
  have whole : Samples.deployment.Run created
      (Samples.deployment.enact (Samples.withdrawn ++ [(0, .rollback)]) created) _ :=
    run_enact (by rw [enact_append, named_append, names]; rfl)
  have during := (instances_follow_lifecycle opened run fun act member =>
    alone _ (List.mem_append_left _ (mem_enact member))).2.2 0 inMemory removed
  have split : Samples.deployment.enact (Samples.withdrawn ++ [(0, .rollback)]) created = _ ++ [_] :=
    enact_append Samples.withdrawn [(0, .rollback)] created
  obtain ⟨mourned, forgotten, _⟩ := (instances_follow_lifecycle opened whole fun act member =>
    alone _ (mem_enact member)).2.1 _ _ [] 0 split inMemory
  refine ⟨created, _, _, _, _, _, opened, run, split ▸ whole, steps_enact _ created, rfl,
    during.save, new, mourned removed fun impossible => ?_, forgotten keyed unkeyed⟩
  cases impossible.symm.trans new

end Deployment
end EntityStore
