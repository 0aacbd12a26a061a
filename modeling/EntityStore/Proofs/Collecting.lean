/-
Reading a collection. What a query asks for is answered from what the thread sees, outside of
transactions from what is published; so the members of a collection that has just been read
there are the instances that its query selects.
-/

import EntityStore.Proofs.Coherence
import EntityStore.Proofs.Gathering
import EntityStore.Proofs.InverseQueries

set_option autoImplicit false

namespace EntityStore

/-! ### Answers -/

theorem Database.query_of_answered {World : Type} {database : Database World}
    {connection : ConnectionId} {question : Question} {world after : World}
    {statement : Statement} {rows : List Row}
    (answer : database.ask connection question world = (.ok (.answered statement rows), after)) :
    (database.query connection statement world).1 = .ok rows := by
  rcases Database.ask_ok answer with
    ⟨_, _, same⟩ | ⟨_, _, _, same, given⟩ | ⟨_, _, same⟩ | ⟨_, _, _, same⟩ <;> cases same
  exact given

/-- Work that only reads has each of its answers from a world that is as it was at first. -/
theorem Faithful.exists_query_of_asked {World : Type} {layout : Layout}
    {database : Database World} {faithful : Faithful layout database}
    {connection : ConnectionId} {world after : World} {log : List Event}
    (asked : Asked database (Question.Issued layout.Fits false) connection world log after)
    (valid : faithful.Valid world) {statement : Statement} {rows : List Row}
    (member : .answered statement rows ∈ log) :
    ∃ moment, faithful.Valid moment ∧ faithful.Same world moment ∧
      (database.query connection statement moment).1 = .ok rows := by
  induction asked with
  | done world => cases member
  | answered issued answer _ ih =>
      rcases List.mem_cons.mp member with rfl | isLater
      · exact ⟨_, valid, .refl _, Database.query_of_answered answer⟩
      have first := @hasRead_ask _ _ _ faithful connection _ _ issued valid
      rw [answer] at first
      obtain ⟨moment, validMoment, same, answered⟩ := ih first.valid isLater
      exact ⟨moment, validMoment, first.same.trans same, answered⟩
  | refused issued answer _ ih =>
      have first := @hasRead_ask _ _ _ faithful connection _ _ issued valid
      rw [answer] at first
      obtain ⟨moment, validMoment, same, answered⟩ := ih first.valid member
      exact ⟨moment, validMoment, first.same.trans same, answered⟩

namespace Store

variable {World : Type} {layout : Layout} {session : Session World}
  {faithful : Faithful layout session.database} {store after : Store World} {query : Query}
  {members : List InstanceId}

def keysOf (store : Store World) (subjects : List InstanceId) : List Key :=
  subjects.map fun subject => (store.instanceAt subject).key

/-! ### Queries -/

/-- What was read is remembered as it was read. -/
theorem instances_rememberLoaded {mapping : Mapping} {entries : List (Key × Row)}
    (ran : (rememberLoaded mapping entries).run store = (.ok members, after)) :
    members.map after.instanceAt
      = entries.map fun entry => Instance.loaded store.id mapping entry.1 entry.2 := by
  induction entries generalizing store members with
  | nil =>
      cases ran
      rfl
  | cons entry rest ih =>
      obtain ⟨later, rfl, ranRest⟩ := rememberLoaded_cons_ok ran
      have isNew : after.instanceAt store.memory.size
          = Instance.loaded store.id mapping entry.1 entry.2 := by
        rw [instanceAt_rememberLoaded (Nat.lt_of_lt_of_eq (Nat.lt_succ_self _)
          (Array.size_push _).symm) ranRest]
        rw [instanceAt_addInstance, if_pos rfl]
      rw [List.map_cons, List.map_cons, ih ranRest, isNew]
      rfl

private theorem keys_rememberLoaded {mapping : Mapping} {entries : List (Key × Row)}
    (ran : (rememberLoaded mapping entries).run store = (.ok members, after)) :
    after.keysOf members = entries.map Prod.fst := by
  have keys := congrArg (List.map Instance.key) (instances_rememberLoaded ran)
  rw [List.map_map, List.map_map] at keys
  exact keys

section Answers

variable (regular : store.Regular) (orderly : store.Orderly faithful)
  (fits : ∀ mapping ∈ store.registry.mappings, layout.Fits mapping)
  (fit : query.root ∈ store.registry.mappings)
include regular orderly fits fit

/-- What a query reads is the answer to it where what the thread sees is seen. -/
theorem answered_of_run {parameters : Parameters} {page : Page}
    (ran : (run session query parameters page).run store = (.ok members, after)) :
    ∃ values connection moment rows entries,
      (query.compile session.dialect).bind parameters session.dialect = .ok values ∧
      faithful.Valid moment ∧
      faithful.seen moment connection = store.view faithful session.thread ∧
      (session.database.query connection
        (Statement.select session.dialect query page values) moment).1 = .ok rows ∧
      query.root.hydrateAll rows = .ok entries ∧
      after.keysOf members = entries.map Prod.fst := by
  obtain ⟨values, _, entries, worked, bound, ranUnit, ran⟩ := run_ok ran
  have asks (lease : LeaseId) := @asks_selection _ session lease (· ∈ store.registry.mappings)
    query fit page values
  have ends := (ensures_unit asks fun _ inside => regular.leased.connection inside).of_run ranUnit
  cases ends with
  | @recorded _ connection _ _ _ _ _ inside held asked given =>
      obtain ⟨_, ⟨rows, hydrated, rfl⟩, _⟩ := given
      obtain ⟨moment, validMoment, same, answered⟩ :=
        Faithful.exists_query_of_asked (asked_fits fits asked) orderly.valid List.mem_cons_self
      refine ⟨values, connection, moment, rows, entries, bound, validMoment, ?_, answered,
        hydrated, keys_rememberLoaded ran⟩
      rw [same.seen, view_of_serving (serving_eq_some inside held)]
  | @applied pool lease connection world _ writes _ outside acquired held bracketed =>
      cases bracketed with
      | done asked given =>
          obtain ⟨_, ⟨rows, hydrated, rfl⟩, _⟩ := given
          obtain ⟨valid, same, isOutside, _⟩ := acquired_outside regular orderly acquired held
          obtain ⟨moment, validMoment, sameMoment, answered⟩ :=
            Faithful.exists_query_of_asked (asked_fits fits asked) valid List.mem_cons_self
          refine ⟨values, connection, moment, rows, entries, bound, validMoment, ?_, answered,
            hydrated, keys_rememberLoaded ran⟩
          rw [sameMoment.seen, Perspective.seen_of_outside isOutside, same.published,
            view_of_outside outside]

/-- The instances that an inverse query gives outside of transactions have the keys of those
that refer to the owner in what is published. -/
theorem keys_of_run {relation : ObjectRelation} {parameter name : String} {owner : Int64}
    (outside : store.transaction? session.thread = none) (full : faithful.AnswersInFull)
    (keyed : layout.Keyed (faithful.published store.pool.world))
    (inverts : query.Inverts relation parameter)
    (ran : (run session query (.named [(name, .integer owner)]) {}).run store
      = (.ok members, after)) :
    ∃ ids, layout.Selects (faithful.published store.pool.world) query.root relation.column
        (.integer owner) ids ∧
      after.keysOf members = ids.map (Key.withId query.root.entity) := by
  obtain ⟨values, connection, moment, rows, entries, bound, valid, seen, answered, hydrated,
    keys⟩ := answered_of_run regular orderly fits fit ran
  obtain rfl := inverts.values bound
  have alone : query.scope = [query.root] := by
    unfold Query.scope
    rw [inverts.alone]
    rfl
  have fitsScope : ∀ mapping ∈ query.scope, layout.Fits mapping := by
    intro mapping member
    rw [alone] at member
    exact List.mem_singleton.mp member ▸ fits _ fit
  obtain ⟨source, lists, rfl⟩ := full connection moment session.dialect query [.integer owner]
    rows valid fitsScope answered
  have listsRoot := lists query.root (alone ▸ List.mem_singleton_self _)
  rw [seen, view_of_outside outside] at listsRoot
  rw [List.map_singleton, layout.stored_integer] at hydrated
  obtain ⟨ids, selects, same⟩ := inverts.keys (fits _ fit) keyed listsRoot hydrated
  exact ⟨ids, selects, keys.trans same⟩

end Answers

/-! ### Collections -/

def collected (key : Key) (subject : InstanceId) (name : String) (members : List InstanceId)
    (store : Store World) : Store World :=
  registerOwner key subject (store.modifyInstance (fun content =>
    { content with collections := Row.place name members content.collections }) subject)

private theorem instanceAt_collected (key : Key) (subject : InstanceId) (name : String)
    (members : List InstanceId) (store : Store World) (other : InstanceId) :
    (store.collected key subject name members).instanceAt other
      = if other = subject ∧ other < store.memory.size then { store.instanceAt other with
          collections := Row.place name members (store.instanceAt other).collections }
        else store.instanceAt other :=
  instanceAt_modifyInstance store (fun content =>
    { content with collections := Row.place name members content.collections }) subject other

private theorem key_collected (key : Key) (subject : InstanceId) (name : String)
    (members : List InstanceId) (store : Store World) (other : InstanceId) :
    ((store.collected key subject name members).instanceAt other).key
      = (store.instanceAt other).key := by
  rw [instanceAt_collected]
  split <;> rfl

private theorem collections_collected (key : Key) (subject : InstanceId) (name : String)
    (members : List InstanceId) (store : Store World) (other : InstanceId) :
    ((store.collected key subject name members).instanceAt other).collections
      = if other = subject ∧ other < store.memory.size
        then Row.place name members (store.instanceAt other).collections
        else (store.instanceAt other).collections := by
  rw [instanceAt_collected]
  split <;> rfl

theorem prepare_ok {text : String} (ran : (prepare text).run store = (.ok query, after)) :
    after = store ∧ Query.parse store.registry.mapping? text = .ok query := by
  unfold prepare at ran
  obtain ⟨_, ran⟩ := run_ensureOpen_bind_eq_ok.mp ran
  obtain ⟨_, _, got, ran⟩ := run_bind_eq_ok.mp ran
  cases got
  rw [run_settleOutcome] at ran
  cases parsed : Query.parse store.registry.mapping? text with
  | error fault =>
      rw [parsed] at ran
      cases ran
  | ok found =>
      rw [parsed] at ran
      cases ran
      exact ⟨rfl, rfl⟩

private theorem readCollection_ok {subject : InstanceId} {name : String}
    (ran : (readCollection session subject name).run store = (.ok members, after)) :
    after = store ∨ ∃ relation id query between,
      (store.instanceAt subject).mapping.property? name = some (.collection relation) ∧
      (store.instanceAt subject).key.id = some id ∧
      Query.parse store.registry.mapping? relation.query = .ok query ∧
      (run session query (.named [(relation.placeholder, .integer id)]) {}).run store
        = (.ok members, between) ∧
      after = between.collected (store.instanceAt subject).key subject name members := by
  unfold readCollection at ran
  obtain ⟨_, _, got, ran⟩ := run_bind_eq_ok.mp ran
  cases got
  obtain ⟨property, isProperty, ran⟩ := run_settleOutcome_bind_eq_ok.mp ran
  cases property with
  | scalar property => cases ran
  | object relation => cases ran
  | collection relation =>
      obtain ⟨_, _, ran⟩ := run_settleOutcome_bind_eq_ok.mp ran
      split at ran
      · cases ran
        exact Or.inl rfl
      · cases ran
        exact Or.inl rfl
      rename_i id _ keyed
      obtain ⟨query, between, prepared, ran⟩ := run_bind_eq_ok.mp ran
      obtain ⟨rfl, parsed⟩ := prepare_ok prepared
      obtain ⟨_, between, ranQuery, ran⟩ := run_bind_eq_ok.mp ran
      cases ran
      refine Or.inr ⟨relation, id, query, between, ?_, keyed, parsed, ranQuery, rfl⟩
      unfold Instance.property at isProperty
      split at isProperty
      · cases isProperty
        assumption
      · cases isProperty

/-- A collection that is held when one was read was held before, or it is the one that its
query gave. -/
theorem held_of_readCollection {subject : InstanceId} {name other : String}
    {found : List InstanceId} (regular : store.Regular)
    (ran : (readCollection session subject name).run store = (.ok found, after))
    (held : (after.instanceAt subject).collections.lookup other = some members) :
    (store.instanceAt subject).collections.lookup other = some members ∨
      ∃ relation id query between,
        (store.instanceAt subject).mapping.property? other = some (.collection relation) ∧
        (store.instanceAt subject).key.id = some id ∧
        Query.parse store.registry.mapping? relation.query = .ok query ∧
        (run session query (.named [(relation.placeholder, .integer id)]) {}).run store
          = (.ok members, between) ∧
        after.keysOf members = between.keysOf members := by
  rcases readCollection_ok ran with
    rfl | ⟨relation, id, query, between, declared, keyed, parsed, ranQuery, rfl⟩
  · exact Or.inl held
  obtain ⟨root, isRoot⟩ := Query.parse_ok parsed
  have sheds : store.Sheds between :=
    (discreet_run regular (Registry.mem_of_mapping? isRoot).1 _ _).of_run ranQuery
  have still (heldBetween : (between.instanceAt subject).collections.lookup other = some members) :
      (store.instanceAt subject).collections.lookup other = some members := by
    rcases sheds.holds subject with none | kept
    · rw [none] at heldBetween
      cases heldBetween
    · rwa [kept] at heldBetween
  rw [collections_collected] at held
  split at held
  case isFalse => exact Or.inl (still held)
  by_cases isName : other = name
  · subst isName
    rw [Row.lookup_place_self] at held
    cases held
    refine Or.inr ⟨relation, id, query, between, declared, keyed, parsed, ranQuery, ?_⟩
    exact List.map_congr_left fun one _ => key_collected _ _ _ _ between one
  · rw [Row.lookup_place_of_ne _ _ isName] at held
    exact Or.inl (still held)

end Store

end EntityStore
