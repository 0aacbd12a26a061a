/-
A transaction sees its own writes. As long as it lasts, its thread looks the row of a key up on
the connection of the transaction and finds it as it has last written it, whatever other threads
do meanwhile; but for one thing: another thread may load the published row into the cache, which
is asked first.
-/

import EntityStore.Proofs.LastingWrites

set_option autoImplicit false

namespace EntityStore
namespace Store

variable {World α : Type} {session : Session World} {store : Store World} {mapping : Mapping}
  {id : Int64} {connection : ConnectionId}

/-! ### Lookups -/

private theorem run_unit_inside {transactional : Bool} {work : Work World α}
    {transaction : Transaction} (isOpen : store.isOpen = true)
    (inside : store.transaction? session.thread = some transaction) :
    ((unit session transactional work).run store).1
      = ((work transaction.lease).run store).1.map Prod.fst := by
  unfold unit
  rw [run_bind, run_ensureOpen, isOpen]
  simp only [↓reduceIte]
  rw [run_bind, run_get]
  simp only [inside]
  unfold unitInside
  rw [run_bind, run_attempt]
  rcases (work transaction.lease).run store with ⟨outcome | result, between⟩
  · simp only
    rw [run_bind, run_modify]
    simp only
    unfold rollbackQuietly
    rw [run_bind, run_bind, run_attempt]
    rfl
  · rfl

private theorem run_fetchRow {lease : LeaseId}
    (held : store.pool.leased.lookup lease = some connection) :
    ((fetchRow session lease mapping (Key.withId mapping.entity id)).run store).1 =
      ((session.database.query connection (Statement.selectById session.dialect mapping id)
        store.pool.world).1.mapError Error.ofDatabase).map List.head? := by
  unfold fetchRow Key.withId
  simp only
  unfold query
  rw [run_bind, run_call_held held]
  rcases session.database.query connection (Statement.selectById session.dialect mapping id)
    store.pool.world with ⟨outcome | rows, world⟩ <;> rfl

/-- Inside of a transaction a row that is not in the cache is looked up on the connection of
the transaction. -/
theorem run_loadRow_inside (isOpen : store.isOpen = true)
    (missing : store.cache.find? (Key.withId mapping.entity id) = none)
    (serves : store.serving session.thread = some connection) :
    ((loadRow session mapping (Key.withId mapping.entity id)).run store).1 =
      ((session.database.query connection (Statement.selectById session.dialect mapping id)
        store.pool.world).1.mapError Error.ofDatabase).map List.head? := by
  obtain ⟨transaction, inside, held⟩ := exists_of_serving serves
  have looked : (cachedRow (Key.withId mapping.entity id)).run store = (.ok none, store) := by
    unfold cachedRow Cache.get
    rw [run_bind, run_get]
    simp only [missing]
    rfl
  unfold loadRow
  rw [run_bind, run_ensureOpen, isOpen]
  simp only [↓reduceIte]
  rw [run_bind, looked]
  simp only
  rw [run_unit_inside isOpen inside, run_bind, ← run_fetchRow held]
  rcases (fetchRow session transaction.lease mapping (Key.withId mapping.entity id)).run store
    with ⟨outcome | row, between⟩ <;> rfl

structure Yields (session : Session World) (mapping : Mapping) (id : Int64) (store : Store World)
    (found : Except Error (Option Row)) : Prop where
  finds : ((find session mapping id).run store).1.map Option.isSome = found.map Option.isSome
  loads : ∀ subject, (store.instanceAt subject).mapping = mapping →
    (store.instanceAt subject).key = Key.withId mapping.entity id →
    (store.instanceAt subject).row = none → (store.instanceAt subject).vanished = false →
    ((rowOf session subject).run store).1 = found.bind fun row =>
      match row with
      | some row => .ok row
      | none => .error (.notFound (Key.withId mapping.entity id))

private theorem yields_loadRow (session : Session World) (mapping : Mapping) (id : Int64)
    (store : Store World) : Yields session mapping id store
      ((loadRow session mapping (Key.withId mapping.entity id)).run store).1 := by
  constructor
  · unfold find
    rw [run_bind]
    rcases (loadRow session mapping (Key.withId mapping.entity id)).run store
      with ⟨outcome | (_ | row), between⟩ <;> rfl
  · intro subject isMapping isKey unread present
    unfold rowOf
    rw [run_bind, run_get]
    simp only [isMapping, isKey, unread, present, Bool.false_eq_true, ↓reduceIte]
    rw [run_bind]
    rcases (loadRow session mapping (Key.withId mapping.entity id)).run store
      with ⟨outcome | (_ | row), between⟩ <;> rfl

/-- A thread in a transaction finds a row under a key, or nothing if there is none, unless the
database refuses the query on the connection of the transaction. -/
inductive Finds (layout : Layout) (session : Session World) (mapping : Mapping) (id : Int64)
    (store : Store World) : Option Fields → Prop where
  | refused {connection : ConnectionId} {fault : DatabaseError} (held : Option Fields) :
      store.serving session.thread = some connection →
      (session.database.query connection (Statement.selectById session.dialect mapping id)
        store.pool.world).1 = .error fault →
      Yields session mapping id store (.error (.ofDatabase fault)) →
      Finds layout session mapping id store held
  | missing : Yields session mapping id store (.ok none) → Finds layout session mapping id store none
  | found {fields : Fields} {row : Row} : layout.Shows mapping.columns fields row →
      Yields session mapping id store (.ok (some row)) →
      Finds layout session mapping id store (some fields)

private theorem finds_of_missing {layout : Layout} {faithful : Faithful layout session.database}
    (valid : faithful.Valid store.pool.world) (fits : layout.Fits mapping)
    (isOpen : store.isOpen = true)
    (missing : store.cache.find? (Key.withId mapping.entity id) = none)
    (serves : store.serving session.thread = some connection) :
    Finds layout session mapping id store
      (store.view faithful session.thread (layout.tableOf mapping) id) := by
  have loads := run_loadRow_inside isOpen missing serves
  have yields := yields_loadRow session mapping id store
  rw [loads] at yields
  obtain ⟨_, _, answers⟩ := faithful.query connection store.pool.world
    (Statement.selectById session.dialect mapping id) valid (.selectById session.dialect id fits)
  rw [view_of_serving serves]
  cases answer : (session.database.query connection
      (Statement.selectById session.dialect mapping id) store.pool.world).1 with
  | error fault =>
      rw [answer] at yields
      exact .refused _ serves answer yields
  | ok rows =>
      rw [answer] at yields
      rcases Layout.answers_selectById (answers rows answer) with
        ⟨none, rfl⟩ | ⟨fields, row, held, rfl, shown⟩
      · rw [none]
        exact .missing yields
      · rw [held]
        exact .found shown yields

end Store

namespace Deployment

variable {World : Type} {layout : Layout} {deployment : Deployment World}
  {faithful : Faithful layout deployment.database} {thread : ThreadId}

/-! ### Writes -/

section Writes

variable {store : Store World} {act : Act World} {subject : InstanceId} {mapping : Mapping}
  {id : Int64} {connection : ConnectionId}

structure Wrote (layout : Layout) (deployment : Deployment World)
    (faithful : Faithful layout deployment.database) (thread : ThreadId) (store : Store World)
    (act : Act World) (subject : InstanceId) (mapping : Mapping) (id : Int64) : Prop where
  removed : ∀ other, act.action = .remove other →
    act.after.view faithful thread (layout.tableOf mapping) id = none
  saved : ∀ root, act.action = .save root →
    Store.Writes layout deployment.dialect store act.after root (store.view faithful thread)
      (act.after.view faithful thread) subject id

private theorem lt_of_settles {action : Action} (inMemory : action.InMemory store.memory.size)
    (settles : action.Settles store subject) : subject < store.memory.size := by
  cases action with
  | save root =>
      by_contra outside
      have absent : store.instanceAt subject = Instance.absent := by
        unfold Store.instanceAt Store.instance?
        rw [Array.getElem?_eq_none (Nat.not_lt.mp outside)]
        rfl
      have needed := settles.2
      rw [absent] at needed
      cases needed
  | remove other =>
      obtain rfl : subject = other := settles
      exact inMemory
  | _ => exact settles.elim

private theorem isOpen_of_settles {session : Session World} {action : Action} {after : Store World}
    (regular : store.Regular) (settles : action.Settles store subject)
    (ran : (action.perform session).run store = (.ok (), after)) : store.isOpen = true := by
  cases action with
  | save root =>
      obtain ⟨_, isOpen, _⟩ := Store.save_ok regular ran
      exact isOpen
  | remove other => exact (Store.run_ensureOpen_bind_eq_ok.mp ran).1
  | _ => exact settles.elim

/-- An act that wrote under a key leaves it out of the cache, and a transaction that has
changes to show for it. -/
theorem wrote_of_act (regular : store.Regular) (orderly : store.Orderly faithful)
    (fits : ∀ mapping ∈ store.registry.mappings, layout.Fits mapping)
    (inMemory : act.action.InMemory store.memory.size)
    (ran : (act.action.perform (deployment.session act.thread)).run store
      = (act.outcome, act.after))
    (serves : store.serving thread = some connection) (lasts : act.after.serving thread ≠ none)
    (writes : act.Writes thread store subject mapping id)
    (changing : ∀ root, act.action = .save root → (∀ other, Reaches store.memory root other →
      (store.instanceAt other).state ≠ .transient) → act.after.Changing faithful thread) :
    store.isOpen = true ∧ act.after.Changing faithful thread ∧
      act.after.cache.find? (Key.withId mapping.entity id) = none ∧
      Wrote layout deployment faithful thread store act subject mapping id := by
  obtain ⟨other, action, outcome, after⟩ := act
  obtain ⟨⟨rfl, isOk, settles⟩, rfl, keyed⟩ := writes
  cases outcome with
  | error error => cases isOk
  | ok _ =>
      refine ⟨isOpen_of_settles regular settles ran, ?_⟩
      cases action with
      | save root =>
          have saved := (@Store.save_lasts _ (deployment.session other) _ _ root regular
            serves).of_run ran lasts
          obtain ⟨inserts, rows⟩ := saved.wrote regular.sound orderly fits serves inMemory settles
            keyed
          refine ⟨?_, saved.hides regular.sound inMemory settles keyed, ?_, ?_⟩
          · by_cases new : ∃ one, Reaches store.memory root one ∧
              (store.instanceAt one).state = .transient
            · exact inserts new
            · exact changing root rfl fun one reaches isNew => new ⟨one, reaches, isNew⟩
          · rintro _ ⟨⟩
          · rintro _ ⟨⟩
            exact rows
      | remove removed =>
          obtain rfl : subject = removed := settles
          have ended := (@Store.removal_lasts _ (deployment.session other) _ _ subject regular
            inMemory serves).of_run ran lasts
          obtain ⟨changes, gone⟩ := ended.wrote orderly fits serves keyed
          refine ⟨changes, ended.hides regular.sound inMemory keyed, fun _ _ => gone, ?_⟩
          rintro _ ⟨⟩
      | _ => exact settles.elim

end Writes

/-! ### Runs -/

/-- A thread has saved or removed an instance in its transaction and does not write its row
again; if all that the save found to write was known already, something else must have been
changed. As long as the transaction lasts, and unless another thread has brought the row into
the cache since, every lookup and every lazy load of the key by the thread finds the row as the
write has left it: none if it was removed, and what was assigned if it was saved. -/
theorem own_writes_found {allowed : Store World → ThreadId → Action → Prop}
    {store closing : Store World} {write : Act World} {later : List (Act World)}
    {subject : InstanceId} {mapping : Mapping} {id : Int64}
    (rest : faithful.AtRest deployment.world) (reached : deployment.Reached allowed store)
    (inside : store.inTransaction thread = true)
    (run : deployment.Run store (write :: later) closing)
    (fits : ∀ mapping ∈ closing.registry.mappings, layout.Fits mapping)
    (stays : ∀ act ∈ write :: later, act.after.inTransaction thread = true)
    (writes : write.Writes thread store subject mapping id)
    (changing : ∀ root, write.action = .save root → (∀ other, Reaches store.memory root other →
      (store.instanceAt other).state ≠ .transient) → write.after.Changing faithful thread)
    (unwritten : Unwritten layout thread (layout.tableOf mapping, id) write.after later)
    (unfilled : (∃ act ∈ later, act.thread ≠ thread ∧
        act.after.cache.find? (Key.withId mapping.entity id) ≠ none) →
      closing.cache.find? (Key.withId mapping.entity id) = none) :
    Store.Finds layout (deployment.session thread) mapping id closing
        (write.after.view faithful thread (layout.tableOf mapping) id) ∧
      Wrote layout deployment faithful thread store write subject mapping id := by
  have regular := reached.regular
  have grows := run.grows regular
  have fitsBefore : ∀ mapping ∈ store.registry.mappings, layout.Fits mapping :=
    fun mapping member => fits mapping (grows.registered mapping member)
  have orderly := reached.orderly rest fitsBefore
  obtain ⟨connection, serves⟩ :=
    Option.ne_none_iff_exists'.mp (serving_of_inTransaction regular inside)
  cases run with
  | @cons _ between _ other action outcome _ inMemory ran runLater =>
      have course := (Action.follows_perform regular inMemory).of_run ran
      have regularBetween := course.regular regular
      have fitsBetween : ∀ mapping ∈ between.registry.mappings, layout.Fits mapping :=
        fun mapping member => fits mapping ((runLater.grows regularBetween).registered mapping member)
      have orderlyBetween := orderly_of_act regular orderly fitsBetween inMemory ran
      have lasts := serving_of_inTransaction regularBetween (stays _ List.mem_cons_self)
      obtain ⟨isOpen, changes, hidden, wrote⟩ := wrote_of_act regular orderly fitsBefore inMemory
        ran serves lasts writes changing
      have stillOpen := @Store.Course.isOpen _ _ (deployment.session other) _ _ _ _ _ _ course
        regular orderly fitsBetween lasts isOpen
      have still := stillHolds_of_run runLater regularBetween orderlyBetween fits
        (fun act member => stays act (List.mem_cons_of_mem _ member)) unwritten ⟨changes, rfl⟩
        stillOpen
      have missing : closing.cache.find? (Key.withId mapping.entity id) = none := by
        by_cases filled : ∃ act ∈ later, act.thread ≠ thread ∧
          act.after.cache.find? (Key.withId mapping.entity id) ≠ none
        · exact unfilled filled
        · refine still.hidden _ hidden fun act member apart => ?_
          by_contra present
          exact filled ⟨act, member, apart, present⟩
      have registered := (regular.sound.instanceAt (lt_of_settles inMemory writes.settles.2.2)).registered
      rw [writes.mapping] at registered
      obtain ⟨served, _, servesClosing, _⟩ := still.holds.changing
      have finds := @Store.finds_of_missing _ (deployment.session thread) closing mapping id served
        _ faithful (orderly_of_run runLater regularBetween orderlyBetween fits).valid
        (fitsBefore mapping registered) still.isOpen missing servesClosing
      have held : closing.view faithful thread (layout.tableOf mapping) id
        = between.view faithful thread (layout.tableOf mapping) id := still.holds.row
      refine ⟨?_, wrote⟩
      rw [← held]
      exact finds

end Deployment

namespace Samples

/-- Ada is saved and is given another name in a transaction. -/
def rechristened : List (ThreadId × Action) :=
  saved ++ [(0, .begin), (0, .assign 0 "name" (.value (.text "Bo")))]

/-- She is saved under it. Another thread looks her up and so brings her published row into the
cache, which is emptied again. -/
def lookedUp : List (ThreadId × Action) :=
  [(0, .save 0), (1, .find "Person" 1), (0, .clearCache), (0, .reference "Person" 1)]

end Samples

namespace Deployment

set_option maxRecDepth 100000 in
/-- In the transaction she is found by her new name. -/
theorem own_writes_found_renamed :
    ∃ store closing : Store Tables.World, ∃ write later mapping fields,
      Samples.deployment.Reached (fun _ _ _ => True) store ∧ store.inTransaction 0 = true ∧
      Samples.deployment.Run store (write :: later) closing ∧
      write.Writes 0 store 0 mapping 1 ∧
      (∃ act ∈ later, act.thread ≠ 0 ∧
        act.after.cache.find? (Key.withId mapping.entity 1) ≠ none) ∧
      fields "name" = .text "Bo" ∧
      Store.Finds (Tables.layout fun _ => "id") (Samples.deployment.session 0) mapping 1 closing
        (some fields) := by
  obtain ⟨store, visited⟩ : ∃ store,
      Samples.deployment.visited? Samples.rechristened = some store :=
    Option.isSome_iff_exists.mp (by decide +kernel)
  have facts : ∀ store ∈ Samples.deployment.visited? Samples.rechristened,
      let acts := Samples.deployment.enact Samples.lookedUp store
      let saved := left store (acts.take 1)
      let mapping := (store.instanceAt 0).mapping
      store.inTransaction 0 = true ∧ named store acts = true ∧
        (∀ act ∈ acts, act.outcome.isOk = true ∧ act.after.inTransaction 0 = true) ∧
        (∀ act ∈ acts.tail, act.thread = 0 → act.action.writesRows = false) ∧
        (store.instanceAt 0).needsWrite = true ∧ saved.idOf 0 = some 1 ∧
        (saved.serving 0).any (fun connection =>
          (Samples.faithful.standing saved.pool.world connection).isWriting) = true ∧
        (∃ act ∈ acts.tail, act.thread ≠ 0 ∧
          act.after.cache.find? (Key.withId mapping.entity 1) ≠ none) ∧
        (left store acts).cache.find? (Key.withId mapping.entity 1) = none ∧
        (saved.view Samples.faithful 0 ((Tables.layout fun _ => "id").tableOf mapping) 1).map
          (fun fields => fields "name") = some (.text "Bo") ∧
        ∀ mapping ∈ (left store acts).registry.mappings, (Tables.layout fun _ => "id").column
          mapping.id.column = (Tables.layout fun _ => "id").column "id" := by
    decide +kernel
  obtain ⟨inside, inMemory, acted, free, needed, keyed, writing, filled, missing, renamed, columns⟩ :=
    facts store visited
  have reached := reached_visited (fun _ _ _ _ => trivial) visited
  have run := run_enact inMemory
  obtain ⟨fields, held, isName⟩ := Option.map_eq_some_iff.mp renamed
  have writes : Act.Writes _ 0 store 0 (store.instanceAt 0).mapping 1 :=
    ⟨⟨rfl, (acted _ List.mem_cons_self).1, .refl, needed⟩, rfl, keyed⟩
  have found := @own_writes_found _ _ _ Samples.faithful 0 _ _ _ _ _ _ _ _
    (Tables.atRest_empty _ _) reached inside run
    (fun mapping member =>
      ⟨(run.regular reached.regular).sound.registry.mappings mapping member, columns mapping member⟩)
    (fun act member => (acted act member).2) writes
    (fun _ _ _ => Store.changing_of_isWriting writing)
    (unwritten_of_free _ free) (fun _ => missing)
  refine ⟨store, _, _, _, _, fields, reached, inside, run, writes, filled, isName, ?_⟩
  rw [← held]
  exact found.1

end Deployment
end EntityStore
