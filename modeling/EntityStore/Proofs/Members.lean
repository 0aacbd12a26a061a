/-
The members of collections that instances hold. No transactions are begun and no tables dropped,
and what is written knows to which owners its row refers. Then every collection by the inverse
of a relation that an instance holds has the members that its query would give.
-/

import EntityStore.Proofs.Bracketing
import EntityStore.Proofs.Collecting
import EntityStore.Proofs.Publishing
import EntityStore.Proofs.Retaining

set_option autoImplicit false

namespace EntityStore

theorem Key.eq_withId {key : Key} {entity : String} {id : Int64} (named : key.entityType = entity)
    (keyed : key.id = some id) : key = Key.withId entity id := by
  cases key
  cases named
  cases keyed
  rfl

/-! ### Acts that know references -/

namespace Action

variable {World : Type} {layout : Layout} {database : Database World} {session : Session World}
  {store : Store World} {action : Action} {task : Task}

/-- No table is dropped and no transaction begins, and what is written knows to which owners
its row refers. -/
def Recalls (faithful : Faithful layout database) (store : Store World) : Action → Prop
  | save root => ∀ subject, Reaches store.memory root subject →
      (store.instanceAt subject).state = .dirty →
      layout.Recalls (faithful.published store.pool.world) (store.instanceAt subject)
  | remove subject =>
      layout.Recalls (faithful.published store.pool.world) (store.instanceAt subject)
  | drop | begin => False
  | _ => True

/-- Instances that are written without having been read know nothing that could be wrong. -/
theorem recalls_of_unread {faithful : Faithful layout database} {root : InstanceId}
    (unread : ∀ content ∈ store.memory.toList, content.state = .dirty → content.row.isNone = true) :
    (Action.save root).Recalls faithful store := by
  intro subject _ dirty row _ held
  have inMemory : subject < store.memory.size := by
    by_contra beyond
    rw [Store.instanceAt_of_size_le (Nat.le_of_not_lt beyond)] at dirty
    cases dirty
  have found : store.memory[subject]? = some store.memory[subject] :=
    Array.getElem?_eq_getElem inMemory
  rw [Store.instanceAt_eq found] at dirty held
  have none := unread _ (Array.mem_toList_iff.mpr (Array.getElem_mem inMemory)) dirty
  rw [held] at none
  cases none

private theorem recalls_of_poses {faithful : Faithful layout database} (sound : store.Sound)
    (inMemory : action.InMemory store.memory.size) (recalls : action.Recalls faithful store)
    (posed : action.Poses session store task) :
    task.Recalls layout (faithful.published store.pool.world) := by
  cases action with
  | save root =>
      obtain ⟨graph, collected, rfl⟩ := posed
      intro planned member dirty
      have same := sound.instanceAt_plan collected member
      rw [← same] at dirty ⊢
      exact recalls _ (sound.reaches_of_plan inMemory collected member) dirty
  | remove subject =>
      cases posed
      exact recalls
  | drop | begin => exact recalls.elim
  | sync | commit | rollback | close =>
      cases posed
      exact trivial
  | _ => exact posed.elim

private theorem relates_of_poses (sound : store.Sound) (posed : action.Poses session store task) :
    task.Relates := by
  cases action with
  | save root =>
      obtain ⟨graph, collected, rfl⟩ := posed
      exact fun planned member =>
        Graph.relates_of_plan (sound.fit_of_plan collected member).tidy.wellFormed member
  | remove | drop | begin | sync | commit | rollback | close =>
      cases posed
      exact trivial
  | _ => exact posed.elim

end Action

/-! ### Members -/

namespace Store

variable {World : Type} {layout : Layout} {session : Session World}
  {faithful : Faithful layout session.database} {store after : Store World}
  {registered : Mapping → Prop} {subject : InstanceId} {name : String} {members : List InstanceId}

/-- The members are those of a collection of the instance: if its query is the inverse of a
relation to the type of the instance, they have the keys of the rows that refer to it. -/
def HasMembers {database : Database World} (faithful : Faithful layout database)
    (store : Store World) (subject : InstanceId) (name : String) (members : List InstanceId) :
    Prop :=
  ∃ collection owner query,
    (store.instanceAt subject).mapping.property? name = some (.collection collection) ∧
    (store.instanceAt subject).key.id = some owner ∧
    Query.parse store.registry.mapping? collection.query = .ok query ∧
    ∀ relation parameter, query.Inverts relation parameter →
      relation.target = (store.instanceAt subject).mapping.entity →
      ∃ ids, layout.Selects (faithful.published store.pool.world) query.root relation.column
          (.integer owner) ids ∧
        store.keysOf members = ids.map (Key.withId query.root.entity)

structure Gathered {database : Database World} (faithful : Faithful layout database)
    (registered : Mapping → Prop) (store : Store World) : Prop where
  outside : ∀ thread, store.transaction? thread = none
  keyed : layout.Keyed (faithful.published store.pool.world)
  related : layout.Related registered (faithful.published store.pool.world)
  members : ∀ subject name members,
    (store.instanceAt subject).collections.lookup name = some members →
    store.HasMembers faithful subject name members

/-! ### Members that stay -/

theorem Persists.mapping_eq (persists : store.Persists after) (grows : store.Grows after)
    (sound : store.Sound) (soundAfter : after.Sound) (inMemory : subject < store.memory.size) :
    (after.instanceAt subject).mapping = (store.instanceAt subject).mapping := by
  have before := sound.instanceAt inMemory
  have later := soundAfter.instanceAt (Nat.lt_of_lt_of_le inMemory persists.size)
  refine soundAfter.registry.unique later.registered (grows.registered _ before.registered) ?_
  calc (after.instanceAt subject).mapping.entity
      = (after.instanceAt subject).key.entityType := later.sound.entity.symm
    _ = (store.instanceAt subject).key.entityType := (persists.instances subject inMemory).entity
    _ = (store.instanceAt subject).mapping.entity := before.sound.entity

theorem Persists.keysOf_eq (persists : store.Persists after) {entity : String} {ids : List Int64}
    (keys : store.keysOf members = ids.map (Key.withId entity)) :
    after.keysOf members = ids.map (Key.withId entity) := by
  rw [← keys]
  refine List.map_congr_left fun member isMember => ?_
  have isKey : (store.instanceAt member).key ∈ ids.map (Key.withId entity) :=
    keys ▸ List.mem_map_of_mem isMember
  obtain ⟨id, _, isKey⟩ := List.mem_map.mp isKey
  have keyed : (store.instanceAt member).key.id = some id := congrArg Key.id isKey.symm
  have kept := persists.instances member (Deployment.inMemory_of_idOf keyed)
  rw [← isKey]
  exact Key.eq_withId (kept.entity.trans (congrArg Key.entityType isKey.symm)) (kept.id id keyed)

section Lasting

variable {collection : CollectionRelation} {owner : Int64} {query : Query}
  (persists : store.Persists after) (grows : store.Grows after) (sound : store.Sound)
  (soundAfter : after.Sound)
include persists grows sound soundAfter

/-- What is said of a collection can be said with the instance and the types as they were. -/
theorem hasMembers_of_persists
    (declared : (store.instanceAt subject).mapping.property? name = some (.collection collection))
    (isOwner : (store.instanceAt subject).key.id = some owner)
    (parsed : Query.parse store.registry.mapping? collection.query = .ok query)
    (current : ∀ relation parameter, query.Inverts relation parameter →
      relation.target = (store.instanceAt subject).mapping.entity →
      ∃ ids, layout.Selects (faithful.published after.pool.world) query.root relation.column
          (.integer owner) ids ∧
        after.keysOf members = ids.map (Key.withId query.root.entity)) :
    after.HasMembers faithful subject name members := by
  have inMemory := Deployment.inMemory_of_idOf isOwner
  have same := persists.mapping_eq grows sound soundAfter inMemory
  refine ⟨collection, owner, query, same ▸ declared,
    (persists.instances subject inMemory).id owner isOwner,
    Query.parse_mono (fun _ _ => soundAfter.registry.mapping?_of_subset grows.registered) parsed, ?_⟩
  rw [same]
  exact current

/-- Members stay those of a collection that an instance holds on to: its owner is none of those
to which rows refer otherwise than before. -/
theorem HasMembers.kept {keys : List Key} (has : store.HasMembers faithful subject name members)
    (isRegistered : ∀ mapping ∈ store.registry.mappings, registered mapping)
    (related : layout.Related registered (faithful.published store.pool.world))
    (tracks : layout.Tracks registered keys (faithful.published store.pool.world)
      (faithful.published after.pool.world))
    (disowns : after.Disowns keys) (held : (after.instanceAt subject).collections ≠ []) :
    after.HasMembers faithful subject name members := by
  obtain ⟨collection, owner, query, declared, isOwner, parsed, current⟩ := has
  obtain ⟨root, isRoot⟩ := Query.parse_ok parsed
  have rootRegistered := isRegistered _ (Registry.mem_of_mapping? isRoot).1
  refine hasMembers_of_persists persists grows sound soundAfter declared isOwner parsed ?_
  intro relation parameter inverts own
  obtain ⟨ids, selects, same⟩ := current relation parameter inverts own
  have inMemory := Deployment.inMemory_of_idOf isOwner
  have kept := persists.instances subject inMemory
  have isKey : (after.instanceAt subject).key = Key.withId relation.target owner := by
    refine Key.eq_withId (kept.entity.trans ?_) (kept.id owner isOwner)
    exact (sound.instanceAt inMemory).sound.entity.trans own.symm
  have unnoted : Key.withId relation.target owner ∉ keys :=
    fun noted => disowns _ noted subject ⟨held, isKey⟩
  exact ⟨ids, selects.refers inverts.declared (fun id => related _ id rootRegistered)
    (fun id => tracks.related _ id rootRegistered)
    (fun id => tracks.refers _ rootRegistered relation inverts.declared id owner unnoted),
    persists.keysOf_eq same⟩

end Lasting

/-! ### Acts -/

private theorem persists_of_outside {action : Action} {outcome : Except Error Unit}
    (regular : store.Regular) (inMemory : action.InMemory store.memory.size)
    (outside : ∀ thread, store.transaction? thread = none)
    (ran : (action.perform session).run store = (outcome, after)) : store.Persists after := by
  by_cases closes : action = .close
  · subst closes
    obtain ⟨closed, ends, ranClose⟩ := run_close session store
    obtain rfl : closed = after := congrArg Prod.snd (ranClose.symm.trans ran)
    have memory : closed.memory = store.memory := by
      cases ends with
      | again _ => rfl
      | closed _ abandoned =>
          rw [show store.transactions = [] from transactions_eq_nil outside] at abandoned
          cases abandoned
          rfl
    refine ⟨Nat.le_of_eq (congrArg Array.size memory).symm, fun subject _ => ?_⟩
    rw [instanceAt_of_memory memory]
    exact .refl _
  · rcases Action.persists_or_aborts regular inMemory ran closes with persists | ⟨_, inside, _⟩
    · exact persists
    · unfold inTransaction at inside
      rw [outside session.thread] at inside
      cases inside

/-- A collection that is held after an act was held before, or the act has read it. -/
theorem held_of_act {action : Action} {outcome : Except Error Unit} (regular : store.Regular)
    (inMemory : action.InMemory store.memory.size)
    (ran : (action.perform session).run store = (outcome, after))
    (held : (after.instanceAt subject).collections.lookup name = some members) :
    (store.instanceAt subject).collections.lookup name = some members ∨
      ∃ other found, action = .readCollection subject other ∧
        (readCollection session subject other).run store = (.ok found, after) := by
  have gathers := (Action.gathers_perform regular inMemory).of_run ran
  by_cases collects : outcome.isOk = true ∧ action.Collects subject
  · obtain ⟨isOk, other, rfl⟩ := collects
    cases outcome with
    | error error => cases isOk
    | ok result =>
        obtain ⟨found, _, ranRead, ran⟩ := run_bind_eq_ok.mp ran
        cases ran
        exact Or.inr ⟨other, found, rfl, ranRead⟩
  · rcases gathers.holds subject collects with none | same
    · rw [none] at held
      cases held
    · exact Or.inl (same ▸ held)

theorem Gathered.act {action : Action} {outcome : Except Error Unit}
    (gathered : store.Gathered faithful registered) (regular : store.Regular)
    (orderly : store.Orderly faithful) (knows : store.KnowsOwners)
    (fits : ∀ mapping ∈ after.registry.mappings, layout.Fits mapping)
    (isRegistered : ∀ mapping ∈ after.registry.mappings, registered mapping)
    (separates : layout.Separates registered) (nulls : layout.stored .null = .null)
    (full : faithful.AnswersInFull) (inMemory : action.InMemory store.memory.size)
    (recalls : action.Recalls faithful store)
    (ran : (action.perform session).run store = (outcome, after)) :
    after.Gathered faithful registered := by
  have course := (Action.follows_perform regular inMemory).of_run ran
  have soundAfter := (course.regular regular).sound
  have fitsBefore : ∀ mapping ∈ store.registry.mappings, layout.Fits mapping :=
    course.grows.forall_registered fits
  have registeredBefore : ∀ mapping ∈ store.registry.mappings, registered mapping :=
    course.grows.forall_registered isRegistered
  have begins : action ≠ .begin := by
    rintro rfl
    exact recalls
  have keeps : action ≠ .drop := by
    rintro rfl
    exact recalls
  have outside := fun thread => (course.retains (fun posed =>
    begins (Deployment.poses_begin posed)) thread).outside (gathered.outside thread)
  have publishes := Action.publishes regular orderly fits (gathered.outside session.thread) knows
    inMemory keeps ran
  obtain ⟨keys, tracks, disowns⟩ := publishes.tracks separates nulls
    (fun task posed => (Action.sound_of_poses regular.sound inMemory posed).mono registeredBefore)
    (fun task => Action.relates_of_poses regular.sound)
    (fun task => Action.recalls_of_poses regular.sound inMemory recalls) gathered.related
  have persists := persists_of_outside regular inMemory gathered.outside ran
  refine ⟨outside, publishes.keyed gathered.keyed, tracks.related, fun subject name members held => ?_⟩
  have kept (before : (store.instanceAt subject).collections.lookup name = some members) :
      after.HasMembers faithful subject name members := by
    refine (gathered.members subject name members before).kept persists course.grows regular.sound
      soundAfter registeredBefore gathered.related tracks disowns fun none => ?_
    rw [none] at held
    cases held
  rcases held_of_act regular inMemory ran held with before | ⟨other, found, rfl, ranRead⟩
  · exact kept before
  rcases held_of_readCollection regular ranRead held with
    before | ⟨relation, id, query, between, declared, isOwner, parsed, ranQuery, same⟩
  · exact kept before
  refine hasMembers_of_persists persists course.grows regular.sound soundAfter declared isOwner
    parsed fun relation parameter inverts _ => ?_
  obtain ⟨root, isRoot⟩ := Query.parse_ok parsed
  obtain ⟨ids, selects, keys⟩ := keys_of_run regular orderly fitsBefore
    (Registry.mem_of_mapping? isRoot).1 (gathered.outside session.thread) full gathered.keyed
    inverts ranQuery
  rw [publishes.published fun _ impossible => impossible]
  exact ⟨ids, selects, same.trans keys⟩

end Store

/-! ### Runs -/

namespace Samples

/-- Bo is saved as a friend of Ada, and her friends are read. Another instance of his key makes
him his own friend instead, and his friends are read. -/
def moved : List (ThreadId × Action) := acquainted ++ [
  (0, .create "Person" [("name", .value (.text "Bo")), ("friend", .entity 0)]),
  (0, .save 1), (0, .readCollection 0 "friends"),
  (0, .reference "Person" 2), (0, .assign 3 "friend" (.entity 1)), (0, .save 3),
  (0, .readCollection 1 "friends")]

end Samples

namespace Deployment

variable {World : Type} {layout : Layout} {deployment : Deployment World}
  {faithful : Faithful layout deployment.database} {store : Store World}

def Knowingly (faithful : Faithful layout deployment.database) (store : Store World)
    (_ : ThreadId) (action : Action) : Prop :=
  action.Recalls faithful store

theorem Reached.gathered {registered : Mapping → Prop}
    (rest : faithful.AtRest deployment.world)
    (keyed : layout.Keyed (faithful.published deployment.world))
    (related : layout.Related registered (faithful.published deployment.world))
    (nulls : layout.stored .null = .null) (full : faithful.AnswersInFull)
    (reached : deployment.Reached (Knowingly faithful) store)
    (isRegistered : ∀ mapping ∈ store.registry.mappings, registered mapping)
    (fits : ∀ mapping, registered mapping → layout.Fits mapping)
    (separates : layout.Separates registered) : store.Gathered faithful registered := by
  induction reached with
  | created created =>
      obtain ⟨pool, made, rfl⟩ := create_ok created
      obtain ⟨_, same⟩ := Faithful.same_create rest.valid made
      have published : faithful.published pool.world = faithful.published deployment.world :=
        same.published
      exact ⟨fun _ => rfl, published.symm ▸ keyed, published.symm ▸ related,
        fun _ _ _ impossible => by cases impossible⟩
  | @acted store after thread action outcome reached recalls inMemory ran ih =>
      have course := (Action.follows_perform reached.regular inMemory).of_run ran
      have registeredBefore : ∀ mapping ∈ store.registry.mappings, registered mapping :=
        course.grows.forall_registered isRegistered
      exact @Store.Gathered.act _ _ (deployment.session thread) faithful _ _ _ _ _
        (ih registeredBefore) reached.regular
        (reached.orderly rest fun mapping member => fits mapping (registeredBefore mapping member))
        reached.knowsOwners (fun mapping member => fits mapping (isRegistered mapping member))
        isRegistered separates nulls full inMemory recalls ran

/-- Every collection that an instance holds, if its query is the inverse of a relation to the
type of the instance, has exactly the members that the query gives on the database: one for
each row that refers to the instance. No tables are dropped and no transactions begun, and
what is written knows to which owners its row refers. -/
theorem collections_reflect_database (rest : faithful.AtRest deployment.world)
    (keyed : layout.Keyed (faithful.published deployment.world))
    (related : layout.Related (· ∈ store.registry.mappings)
      (faithful.published deployment.world))
    (nulls : layout.stored .null = .null) (full : faithful.AnswersInFull)
    (reached : deployment.Reached (Knowingly faithful) store)
    (fits : ∀ mapping ∈ store.registry.mappings, layout.Fits mapping)
    (separates : layout.Separates (· ∈ store.registry.mappings))
    {subject : InstanceId} {name : String} {members : List InstanceId}
    (held : (store.instanceAt subject).collections.lookup name = some members) :
    ∃ collection owner query,
      (store.instanceAt subject).mapping.property? name = some (.collection collection) ∧
      (store.instanceAt subject).key.id = some owner ∧
      Query.parse store.registry.mapping? collection.query = .ok query ∧
      ∀ relation parameter, query.Inverts relation parameter →
        relation.target = (store.instanceAt subject).mapping.entity →
        ∃ ids, layout.Selects (faithful.published store.pool.world) query.root relation.column
            (.integer owner) ids ∧
          store.keysOf members = ids.map (Key.withId query.root.entity) :=
  (reached.gathered rest keyed related nulls full (fun _ member => member) fits separates).members
    subject name members held

set_option maxRecDepth 100000 in
/-- Bo, who was Ada's friend when her friends were read, has become his own: now his friends are
what the database has for him, and that is Bo himself. -/
theorem collections_reflect_database_moved : ∃ store members query relation,
    Samples.deployment.Reached (Knowingly Samples.faithful) store ∧
      (store.instanceAt 1).collections.lookup "friends" = some members ∧
      Query.Inverts query relation "id" ∧
      store.keysOf members = [Key.withId "Person" 2] ∧
      ∃ ids, (Tables.layout fun _ => "id").Selects
          (Samples.faithful.published store.pool.world) query.root relation.column
          (.integer 2) ids ∧
        store.keysOf members = ids.map (Key.withId query.root.entity) := by
  -- Whatever has been changed when something is saved has not been read.
  have unread : ∀ count ∈ [3, 5, 9],
      ∀ store ∈ Samples.deployment.visited? (Samples.moved.take count),
      ∀ content ∈ store.memory.toList, content.state = .dirty → content.row.isNone = true := by
    decide +kernel
  obtain ⟨store, visited, facts⟩ := (Option.any_eq_true _ _).mp (show
      (Samples.deployment.visited? Samples.moved).any (fun store => decide (
        (store.instanceAt 1).collections.lookup "friends" = some [4] ∧
        store.keysOf [4] = [Key.withId "Person" 2] ∧ (store.instanceAt 1).key.id = some 2 ∧
        (store.instanceAt 1).mapping.property? "friends"
          = some (.collection ⟨"friends", "from Person where Person.friend = :id", "id"⟩) ∧
        (store.instanceAt 1).mapping.entity = "Person" ∧
        (∀ query ∈ (Query.parse store.registry.mapping?
            "from Person where Person.friend = :id").toOption,
          (⟨"friend", "friend", "Person", true⟩ : ObjectRelation) ∈ query.root.objectRelations ∧
            query.joins = [] ∧ query.predicate = some (.compare (.column ⟨0, "friend"⟩) .equal
              (.bound (.named "id")))) ∧
        (∀ mapping ∈ store.registry.mappings, (Tables.layout fun _ => "id").column
          mapping.id.column = (Tables.layout fun _ => "id").column "id") ∧
        ∀ first ∈ store.registry.mappings, ∀ second ∈ store.registry.mappings,
          first = second)) = true by decide +kernel)
  obtain ⟨held, keys, isOwner, declared, own, inverts, keyColumns, single⟩ :=
    of_decide_eq_true facts
  have created (store : Store Tables.World)
      (visited : Samples.deployment.visited? (Samples.moved.take 3) = some store) :
      Samples.deployment.Reached (Knowingly Samples.faithful) store := by
    refine reached_visited (fun store thread action member => ?_) visited
    simp only [Samples.moved, Samples.acquainted, List.take, List.cons_append, List.mem_cons,
      List.not_mem_nil, or_false, Prod.mk.injEq] at member
    rcases member with ⟨_, rfl⟩ | ⟨_, rfl⟩ | ⟨_, rfl⟩ <;> exact trivial
  have saved := @reached_snoc _ _ _ _ 0 (.save 0) created fun store visited =>
    Action.recalls_of_unread (unread 3 (by decide) store visited)
  have joined := @reached_snoc _ _ _ _ 0 (.create "Person"
    [("name", .value (.text "Bo")), ("friend", .entity 0)]) saved fun _ _ => trivial
  have savedBo := @reached_snoc _ _ _ _ 0 (.save 1) joined fun store visited =>
    Action.recalls_of_unread (unread 5 (by decide) store visited)
  have read := @reached_snoc _ _ _ _ 0 (.readCollection 0 "friends") savedBo fun _ _ => trivial
  have referred := @reached_snoc _ _ _ _ 0 (.reference "Person" 2) read fun _ _ => trivial
  have assigned := @reached_snoc _ _ _ _ 0 (.assign 3 "friend" (.entity 1)) referred
    fun _ _ => trivial
  have moved := @reached_snoc _ _ _ _ 0 (.save 3) assigned fun store visited =>
    Action.recalls_of_unread (unread 9 (by decide) store visited)
  have reached : Samples.deployment.Reached (Knowingly Samples.faithful) store :=
    @reached_snoc _ _ _ _ 0 (.readCollection 1 "friends") moved (fun _ _ => trivial) store visited
  obtain ⟨collection, owner, query, isDeclared, isId, parsed, current⟩ :=
    collections_reflect_database (Tables.atRest_empty _ _)
      (fun _ _ _ impossible => by cases impossible)
      (fun _ _ _ _ _ _ impossible => by cases impossible) rfl (Tables.answersInFull _ _) reached
      (fun mapping member =>
        ⟨reached.regular.sound.registry.mappings mapping member, keyColumns mapping member⟩)
      (fun first second isFirst isSecond _ => single first isFirst second isSecond) held
  rw [declared] at isDeclared
  cases isDeclared
  obtain rfl : 2 = owner := Option.some.inj (isOwner.symm.trans isId)
  obtain ⟨isRelation, alone, predicate⟩ := inverts query (by rw [parsed]; rfl)
  have isInverse : query.Inverts ⟨"friend", "friend", "Person", true⟩ "id" :=
    ⟨isRelation, alone, predicate⟩
  exact ⟨store, [4], query, _, reached, held, isInverse, keys, current _ _ isInverse own.symm⟩

end Deployment
end EntityStore
