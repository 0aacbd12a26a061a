/-
How instances come by their rows. An operation that writes none leaves what its thread sees, and
an instance gains a row by it only where this was read: it is shown by the cache, or it is held
in what the thread sees.
-/

import EntityStore.Proofs.Coherence
import EntityStore.Proofs.Retaining
import EntityStore.Proofs.Unpublished

set_option autoImplicit false

namespace EntityStore

/-! ### What loading finds -/

inductive Sought (dialect : Dialect) (mapping : Mapping) (key : Key) :
    Option Row → List Event → Prop where
  | unkeyed : key.id = none → Sought dialect mapping key none []
  | asked (id : Int64) (rows : List Row) : key.id = some id →
      Sought dialect mapping key rows.head?
        [.answered (Statement.selectById dialect mapping id) rows]

/-- What is found of a key agrees with the row that is held under it; if nothing is found, none
is held. -/
def Layout.Finds (layout : Layout) (mapping : Mapping) (contents : Contents) (key : Key) :
    Option Row → Prop
  | some row => ∃ id fields, key.id = some id ∧
      contents.row (layout.tableOf mapping, id) = some fields ∧ layout.Agrees mapping row fields
  | none => ∀ id, key.id = some id → contents.row (layout.tableOf mapping, id) = none

theorem Sought.finds {layout : Layout} {dialect : Dialect} {mapping : Mapping} {key : Key}
    {found : Option Row} {log : List Event} (sought : Sought dialect mapping key found log)
    {before after : Ledger} (replays : Ledger.Replays layout layout.Answers before log after) :
    layout.Finds mapping before.contents key found := by
  cases sought with
  | unkeyed without =>
      intro id isId
      rw [without] at isId
      cases isId
  | asked id rows isId =>
      obtain _ | ⟨step, _⟩ := replays
      obtain _ | truthful := step
      rcases Layout.answers_selectById truthful with
        ⟨missing, rfl⟩ | ⟨fields, row, held, rfl, shows⟩
      · intro other isOther
        rw [isId] at isOther
        cases isOther
        exact missing
      · exact ⟨id, fields, isId, held, .of_shows shows⟩

/-- What is held under the key of a type is what is found of it. -/
theorem Layout.Held.finds {layout : Layout} {registry : Registry} (sound : registry.WellFormed)
    {contents : Contents} {mapping : Mapping} {key : Key} {row : Row}
    (registered : mapping ∈ registry.mappings) (named : key.entityType = mapping.entity)
    (held : layout.Held (· ∈ registry.mappings) contents key row) :
    layout.Finds mapping contents key (some row) := by
  obtain ⟨other, id, fields, isRegistered, rfl, found, agrees⟩ := held
  obtain rfl : other = mapping := sound.unique isRegistered registered named
  exact ⟨id, fields, rfl, found, agrees⟩

theorem Layout.Finds.held {layout : Layout} {registered : Mapping → Prop} {contents : Contents}
    {mapping : Mapping} {key : Key} {row : Row} (isRegistered : registered mapping)
    (named : key.entityType = mapping.entity)
    (finds : layout.Finds mapping contents key (some row)) :
    layout.Held registered contents key row := by
  obtain ⟨id, fields, isId, found, agrees⟩ := finds
  exact ⟨mapping, id, fields, isRegistered, by rw [← named, Key.withId, ← isId], found, agrees⟩

theorem Cache.shows_of_get {cache : Cache} {key : Key} {row : Row}
    (got : (cache.get key).1 = some row) : cache.Shows key row :=
  (cache.get_eq_find? key).symm.trans got

namespace Store

variable {World α β : Type} {layout : Layout} {session : Session World}
  {faithful : Faithful layout session.database} {store between after : Store World}
  {subject : InstanceId} {given : Showing} {mapping : Mapping} {key : Key}

/-! ### Rows of instances -/

def HasRow (store : Store World) : Showing := fun key row =>
  ∃ subject, (store.instanceAt subject).key = key ∧ (store.instanceAt subject).row = some row

structure Gains (faithful : Faithful layout session.database) (given : Showing)
    (store after : Store World) : Prop where
  inside : after.inTransaction session.thread = store.inTransaction session.thread
  sees : after.view faithful session.thread = store.view faithful session.thread
  rows : ∀ key row, after.HasRow key row → store.HasRow key row ∨ given key row

theorem Gains.refl (store : Store World) : Gains faithful given store store :=
  ⟨rfl, rfl, fun _ _ => Or.inl⟩

theorem Gains.trans (first : Gains faithful given store between)
    (second : Gains faithful given between after) : Gains faithful given store after := by
  refine ⟨second.inside.trans first.inside, second.sees.trans first.sees, fun key row has => ?_⟩
  rcases second.rows key row has with before | isGiven
  · exact first.rows key row before
  · exact Or.inr isGiven

theorem rows_of_looks (looks : ∀ subject, after.look subject = store.look subject) (key : Key)
    (row : Row) (has : after.HasRow key row) : store.HasRow key row ∨ given key row := by
  obtain ⟨subject, isKey, isRow⟩ := has
  exact Or.inl ⟨subject, (congrArg Snapshot.key (looks subject)).symm.trans isKey,
    (congrArg Snapshot.row (looks subject)).symm.trans isRow⟩

private theorem rows_of_memory (same : after.memory = store.memory) (key : Key) (row : Row)
    (has : after.HasRow key row) : store.HasRow key row ∨ given key row :=
  rows_of_looks (fun subject => congrArg Snapshot.ofInstance (instanceAt_of_memory same subject))
    key row has

private theorem gains_modifyInstance {edit : Instance → Instance}
    (edited : ∀ row, (edit (store.instanceAt subject)).row = some row →
      (edit (store.instanceAt subject)).key = (store.instanceAt subject).key ∧
        (store.instanceAt subject).row = some row ∨
      given (edit (store.instanceAt subject)).key row) :
    Gains faithful given store (store.modifyInstance edit subject) := by
  refine ⟨rfl, rfl, ?_⟩
  rintro key row ⟨other, isKey, isRow⟩
  rw [instanceAt_modifyInstance] at isKey isRow
  split at isKey
  · rename_i both
    rw [if_pos both, both.1] at isRow
    rw [both.1] at isKey
    rcases edited row isRow with ⟨sameKey, before⟩ | isGiven
    · exact Or.inl ⟨subject, sameKey.symm.trans isKey, before⟩
    · exact Or.inr (isKey ▸ isGiven)
  · rename_i apart
    rw [if_neg apart] at isRow
    exact Or.inl ⟨other, isKey, isRow⟩

private theorem gains_addInstance {content : Instance}
    (made : ∀ row, content.row = some row → given content.key row) :
    Gains faithful given store (store.addInstance content).2 := by
  refine ⟨rfl, rfl, ?_⟩
  rintro key row ⟨other, isKey, isRow⟩
  rw [instanceAt_addInstance] at isKey isRow
  split at isKey
  · rename_i new
    rw [if_pos new] at isRow
    exact Or.inr (isKey ▸ made row isRow)
  · rename_i old
    rw [if_neg old] at isRow
    exact Or.inl ⟨other, isKey, isRow⟩

/-! ### Rules -/

def GainsOrAborts (faithful : Faithful layout session.database) (given : Showing)
    (store : Store World) (ok : Bool) (after : Store World) : Prop :=
  Gains faithful given store after ∨ (ok = false ∧
    store.inTransaction session.thread = true ∧ after.inTransaction session.thread = false)

def Gaining (faithful : Faithful layout session.database) (given : Showing)
    (operation : Operation World α) (store : Store World) : Prop :=
  Ensures operation store fun outcome after =>
    GainsOrAborts faithful given store outcome.isOk after

section Rules

variable {operation : Operation World α} {next : α → Operation World β}

private theorem gaining_of_same {outcome : Except Error α}
    (ran : operation.run store = (outcome, store)) : Gaining faithful given operation store := by
  unfold Gaining Ensures
  rw [ran]
  exact Or.inl (.refl store)

private theorem gaining_pure (result : α) : Gaining faithful given (pure result) store :=
  gaining_of_same rfl

private theorem gaining_throw (error : Error) :
    Gaining faithful given (throw error : Operation World α) store := gaining_of_same rfl

private theorem gaining_bind (first : Gaining faithful given operation store)
    (later : ∀ result between, operation.run store = (.ok result, between) →
      Gaining faithful given (next result) between) :
    Gaining faithful given (operation >>= next) store := by
  apply ensures_bind
  unfold Gaining Ensures at first
  unfold Ensures
  rcases ran : operation.run store with ⟨outcome, between⟩
  rw [ran] at first
  cases outcome with
  | error error => exact first
  | ok result =>
      obtain gains | ⟨impossible, _⟩ := first
      · show Ensures (next result) between fun outcome after =>
          GainsOrAborts faithful given store outcome.isOk after
        refine (later result between ran).weaken fun outcome after second => ?_
        obtain gainsLater | ⟨failed, inside, ended⟩ := second
        · exact Or.inl (gains.trans gainsLater)
        · exact Or.inr ⟨failed, gains.inside.symm.trans inside, ended⟩
      · cases impossible

private theorem gaining_bind_same {outcome : Except Error α}
    (ran : operation.run store = (outcome, store))
    (later : ∀ result, outcome = .ok result → Gaining faithful given (next result) store) :
    Gaining faithful given (operation >>= next) store := by
  refine gaining_bind (gaining_of_same ran) fun result between ranToo => ?_
  obtain rfl : outcome = .ok result := congrArg Prod.fst (ran.symm.trans ranToo)
  obtain rfl : store = between := congrArg Prod.snd (ran.symm.trans ranToo)
  exact later result rfl

private theorem gaining_get_bind {next : Store World → Operation World β}
    (later : Gaining faithful given (next store) store) :
    Gaining faithful given (get >>= next) store := by
  refine gaining_bind_same (run_get store) ?_
  rintro _ ⟨⟩
  exact later

private theorem gaining_settleOutcome_bind {outcome : Except Error α}
    (later : ∀ result, outcome = .ok result → Gaining faithful given (next result) store) :
    Gaining faithful given (settleOutcome outcome >>= next) store :=
  gaining_bind_same (run_settleOutcome outcome store) later

private theorem gaining_entityType_bind {entity : String} {next : Mapping → Operation World β}
    (later : ∀ mapping ∈ store.registry.mappings, Gaining faithful given (next mapping) store) :
    Gaining faithful given (entityType entity >>= next) store := by
  obtain ⟨outcome, ran, found⟩ := run_entityType entity store
  exact gaining_bind_same ran fun mapping same => later mapping (found mapping same).1

private theorem gaining_remember {content : Instance}
    (made : ∀ row, content.row = some row → given content.key row) :
    Gaining faithful given (remember content) store :=
  Or.inl (gains_addInstance made)

private theorem gaining_change {edit : Instance → Instance}
    (key : ∀ content, (edit content).key = content.key)
    (row : ∀ content, (edit content).row = content.row) :
    Gaining faithful given (change subject edit) store :=
  Or.inl (gains_modifyInstance fun _ has => Or.inl ⟨key _, (row _).symm.trans has⟩)

end Rules

/-! ### Units -/

structure Altered (faithful : Faithful layout session.database) (writes : WriteSet)
    (log : List Event) (store after : Store World) : Prop where
  conforms : ∀ statement, .executed statement ∈ log → statement.Conforms layout.Fits
  replayed : layout.Replayed (store.view faithful session.thread) log
    (after.view faithful session.thread)
  cached : ∀ key row, after.cache.Shows key row → writes.alter store.cache.Shows key row
  owed : ∀ key row, (after.owed session.thread).alter after.cache.Shows key row →
    writes.alter ((store.owed session.thread).alter store.cache.Shows) key row

section Units

variable {transactional : Bool} (regular : store.Regular) (orderly : store.Orderly faithful)
  (fits : ∀ mapping ∈ store.registry.mappings, layout.Fits mapping)
include regular orderly fits

/-- A unit that succeeds makes of what its thread sees what its log says, and of what is shown,
now and after a commit, no more than its writes leave to be shown. -/
theorem UnitEnds.altered {gives : α × WriteSet → List Event → Prop} {result : α}
    (ends : UnitEnds session (Question.Issued (· ∈ store.registry.mappings) transactional)
      transactional gives store (.ok result) after) :
    ∃ writes log, gives (result, writes) log ∧ Altered faithful writes log store after := by
  cases ends with
  | @recorded transaction connection world log _ writes _ inside held asked given =>
      have serves := serving_eq_some inside held
      have works := Faithful.hasWorked_of_asked (asked_fits fits asked) orderly.valid
        (orderly.not_outside serves)
      have servesAfter : (recordWrites session.thread writes (store.withWorld world)).serving
          session.thread = some connection :=
        (serving_recordWrites session.thread session.thread writes _).trans serves
      refine ⟨writes, log, given, (asked_fits fits asked).conforms, ?_, ?_, ?_⟩
      · rw [view_of_serving serves, view_of_serving servesAfter, pool_recordWrites]
        exact ⟨_, _, works.replays⟩
      · intro key row isShown
        rw [cache_recordWrites] at isShown
        exact Cache.alter_of_evictTouched isShown
      · exact fun key row => @alter_recordWrites _ _ (store.withWorld world) _ inside writes key row
  | @applied pool lease connection world _ writes _ outside acquired held bracketed =>
      obtain ⟨log, ⟨given, conforms⟩, published⟩ := published_of_applied regular orderly fits
        acquired held bracketed.conforming (pool_written writes store.cache.generation
          { store with pool := { pool with world := world } })
      have outsideAfter : ((Store.written writes store.cache.generation
          { store with pool := { pool with world := world } }).released session
            lease).transaction? session.thread = none :=
        (congrArg (List.lookup session.thread) (transactions_written _ _ _)).trans outside
      have cached (key : Key) (row : Row) := @shows_written _
        { store with pool := { pool with world := world } } writes store.cache.generation key row
      have even := @even_of_outside _ _ _ faithful _ _ outside
      have evenAfter := @even_of_outside _ _ _ faithful _ _ outsideAfter
      refine ⟨writes, log, given, fun statement member => (conforms statement member).weaken fits,
        ?_, cached, ?_⟩
      · rw [view_of_outside outside, view_of_outside outsideAfter]
        exact published.replayed
      · rw [even.owed, evenAfter.owed]
        exact cached

theorem UnitEnds.replayed {gives : α × WriteSet → List Event → Prop} {result : α}
    (ends : UnitEnds session (Question.Issued (· ∈ store.registry.mappings) transactional)
      transactional gives store (.ok result) after) :
    ∃ writes log, gives (result, writes) log ∧
      (∀ statement, .executed statement ∈ log → statement.Conforms layout.Fits) ∧
      layout.Replayed (store.view faithful session.thread) log
        (after.view faithful session.thread) := by
  obtain ⟨writes, log, given, altered⟩ := ends.altered regular orderly fits
  exact ⟨writes, log, given, altered.conforms, altered.replayed⟩

/-- A unit that fails leaves what its thread sees, or it ends the transaction of the thread. -/
theorem UnitEnds.gains_of_error {gives : α × WriteSet → List Event → Prop} {error : Error}
    (ends : UnitEnds session (Question.Issued (· ∈ store.registry.mappings) transactional)
      transactional gives store (.error error) after) :
    GainsOrAborts faithful given store false after := by
  cases ends with
  | closed _ => exact Or.inl (.refl store)
  | aborted _ inside _ _ _ =>
      exact Or.inr ⟨rfl, inTransaction_of_inside inside,
        inTransaction_of_dropped store (transactions_restoreInstances _ _)⟩
  | unconnected _ outside acquired =>
      refine Or.inl ⟨rfl, ?_, rows_of_memory rfl⟩
      rw [view_of_outside outside, view_of_outside (by exact outside)]
      exact (Faithful.same_acquire orderly.valid acquired).2.published
  | failed _ outside acquired held bracketed =>
      refine Or.inl ⟨rfl, ?_, rows_of_memory rfl⟩
      rw [view_of_outside outside, view_of_outside (by exact outside)]
      exact (confined_of_failed regular orderly fits acquired held bracketed).1.published

theorem UnitEnds.gainsOrAborts {task : Task} {outcome : Except Error α}
    (free : task.writesRows = false)
    (ends : UnitEnds session (Question.Issued (· ∈ store.registry.mappings) transactional)
      transactional (fun result log =>
        task.Gives session.dialect (· ∈ store.registry.mappings) result.2 log)
      store outcome after) :
    GainsOrAborts faithful given store outcome.isOk after := by
  cases outcome with
  | error error => exact ends.gains_of_error regular orderly fits
  | ok result =>
      obtain ⟨writes, log, gives, _, _, _, replays⟩ := ends.replayed regular orderly fits
      have silent : store.Silent after := ends.read regular.sound
      exact Or.inl ⟨silent.inTransaction _, gives.unwritten free replays, rows_of_looks silent.look⟩

private theorem gaining_unit {task : Task} {work : Work World α} (free : task.writesRows = false)
    (asks : ∀ lease, Asks session.database
      (Question.Issued (· ∈ store.registry.mappings) transactional) lease (work lease)
      fun result log => task.Gives session.dialect (· ∈ store.registry.mappings) result.2 log) :
    Gaining faithful given (unit session transactional work) store :=
  (ensures_unit asks fun _ inside => regular.leased.connection inside).weaken
    fun _ _ ends => ends.gainsOrAborts regular orderly fits free

end Units

/-! ### Memory -/

private theorem gaining_ensureOpen_bind {next : Unit → Operation World β}
    (later : Gaining faithful given (next ()) store) :
    Gaining faithful given (ensureOpen >>= next) store := by
  have ran := run_ensureOpen store
  split at ran
  · exact gaining_bind_same ran fun _ _ => later
  · exact gaining_bind_same ran fun _ impossible => by cases impossible

private theorem gaining_define (batch : List Definition) :
    Gaining faithful given (define batch : Operation World (List Mapping)) store := by
  unfold define
  refine gaining_ensureOpen_bind (gaining_get_bind (gaining_settleOutcome_bind fun _ _ => ?_))
  exact gaining_bind (Or.inl ⟨rfl, rfl, rows_of_memory rfl⟩) fun _ _ _ => gaining_pure _

private theorem gaining_reference (entity : String) (id : Int64) :
    Gaining faithful given (reference entity id : Operation World InstanceId) store :=
  gaining_entityType_bind fun _ _ => gaining_get_bind
    (gaining_remember fun _ impossible => by cases impossible)

private theorem gaining_assign (subject : InstanceId) (name : String) (value : PropertyValue) :
    Gaining faithful given (assign subject name value) store := by
  unfold assign
  refine gaining_get_bind ?_
  dsimp only
  split
  · exact gaining_throw _
  refine gaining_settleOutcome_bind fun property _ => ?_
  split
  · exact gaining_throw _
  split
  · exact gaining_throw _
  · exact gaining_change (fun _ => rfl) fun _ => rfl

private theorem gaining_assignAll (subject : InstanceId) (values : List (String × PropertyValue)) :
    Gaining faithful given (assignAll subject values) store := by
  induction values generalizing store with
  | nil => exact gaining_pure ()
  | cons entry rest ih =>
      exact gaining_bind (gaining_assign subject entry.1 entry.2) fun _ _ _ => ih

private theorem gaining_createInstance (mapping : Mapping)
    (values : List (String × PropertyValue)) :
    Gaining faithful given (createInstance mapping values) store := by
  unfold createInstance
  refine gaining_get_bind (gaining_bind (gaining_remember ?_) fun subject _ _ => ?_)
  · exact fun _ impossible => by cases impossible
  · exact gaining_bind (gaining_assignAll subject values) fun _ _ _ => gaining_pure subject

private theorem gaining_rememberLoaded {entries : List (Key × Row)}
    (isGiven : ∀ entry ∈ entries, given entry.1 entry.2) :
    Gaining faithful given (rememberLoaded mapping entries) store := by
  induction entries generalizing store with
  | nil => exact gaining_pure []
  | cons entry rest ih =>
      unfold rememberLoaded
      refine gaining_get_bind (gaining_bind (gaining_remember ?_) fun _ _ _ => ?_)
      · rintro row ⟨⟩
        exact isGiven entry List.mem_cons_self
      · refine gaining_bind (ih fun other member => ?_) fun _ _ _ => gaining_pure _
        exact isGiven other (List.mem_cons_of_mem entry member)

/-! ### Loading -/

theorem asks_sought {fits : Mapping → Prop} {lease : LeaseId} (fit : fits mapping) (key : Key) :
    Asks session.database (Question.Issued fits false) lease (do
      let row ← fetchRow session lease mapping key
      return (row, WriteSet.ofFills (row.toList.map fun content => (key, content))))
      fun result log => Sought session.dialect mapping key result.1 log := by
  have asksFetch : Asks session.database (Question.Issued fits false) lease
      (fetchRow session lease mapping key) (Sought session.dialect mapping key) :=
    asks_fetchRow fit key .unkeyed fun id rows isId => .asked id rows isId
  refine asks_bind asksFetch fun row log sought => asks_pure ?_
  rw [List.append_nil]
  exact sought

/-- How looking for the row of a key ends: it is taken from the cache, or else looked for in
what the thread sees, unless the store is closed or the database cannot be asked. -/
inductive LoadEnds (faithful : Faithful layout session.database) (mapping : Mapping) (key : Key)
    (store : Store World) : Except Error (Option Row) → Prop where
  | closed (error : Error) : store.isOpen = false →
      LoadEnds faithful mapping key store (.error error)
  | cached {row : Row} : store.cache.Shows key row →
      LoadEnds faithful mapping key store (.ok (some row))
  | refused (error : Error) : store.cache.find? key = none →
      LoadEnds faithful mapping key store (.error error)
  | sought {found : Option Row} {log : List Event} {contents : Contents} :
      store.cache.find? key = none → Sought session.dialect mapping key found log →
      layout.Replayed (store.view faithful session.thread) log contents →
      LoadEnds faithful mapping key store (.ok found)

theorem ends_loadRow (regular : store.Regular) (orderly : store.Orderly faithful)
    (fits : ∀ mapping ∈ store.registry.mappings, layout.Fits mapping)
    (registered : mapping ∈ store.registry.mappings) :
    Ensures (loadRow session mapping key) store fun outcome _ =>
      LoadEnds faithful mapping key store outcome := by
  unfold loadRow Ensures
  rw [run_bind, run_ensureOpen]
  cases isOpen : store.isOpen with
  | false => exact .closed _ isOpen
  | true =>
      simp only [↓reduceIte]
      rw [run_bind, run_cachedRow]
      dsimp only
      cases looked : (store.cache.get key).1 with
      | some row => exact .cached (Cache.shows_of_get looked)
      | none =>
          have missing : store.cache.find? key = none := (Cache.get_eq_find? _ key).symm.trans looked
          have orderlyLooked : Store.Orderly faithful
              { store with cache := (store.cache.get key).2 } := ⟨orderly.valid, orderly.inside⟩
          have asks (lease : LeaseId) := @asks_sought _ session mapping
            (· ∈ store.registry.mappings) lease registered key
          show Ensures _ _ fun outcome _ => LoadEnds faithful mapping key store outcome
          refine (ensures_unit asks fun _ inside =>
            (regular.looked key).leased.connection inside).weaken fun outcome _ ends => ?_
          cases outcome with
          | error error => exact .refused error missing
          | ok found =>
              obtain ⟨_, _, sought, _, replayed⟩ :=
                UnitEnds.replayed (regular.looked key) orderlyLooked fits ends
              exact .sought missing sought replayed

/-- A row is found in the cache, where it is current, or in what the thread sees. -/
theorem finds_loadRow (regular : store.Regular) (orderly : store.Orderly faithful)
    (fits : ∀ mapping ∈ store.registry.mappings, layout.Fits mapping)
    (registered : mapping ∈ store.registry.mappings)
    (cached : ∀ row, store.cache.Shows key row →
      layout.Finds mapping (store.view faithful session.thread) key (some row)) :
    Ensures (loadRow session mapping key) store fun outcome _ => ∀ found, outcome = .ok found →
      layout.Finds mapping (store.view faithful session.thread) key found := by
  refine (ends_loadRow regular orderly fits registered).weaken fun outcome _ ends found isOk => ?_
  cases ends with
  | closed _ _ => cases isOk
  | refused _ _ => cases isOk
  | cached isShown =>
      cases isOk
      exact cached _ isShown
  | sought _ sought replayed =>
      cases isOk
      obtain ⟨_, _, replays⟩ := replayed
      exact sought.finds replays

/-! ### Reading -/

structure Supplies (session : Session World) (given : Showing) (store : Store World) : Prop where
  loads : ∀ {mapping key row between}, mapping ∈ store.registry.mappings →
    key.entityType = mapping.entity →
    (loadRow session mapping key).run store = (.ok (some row), between) → given key row
  selects : ∀ {prepared page values entries between}, prepared.root ∈ store.registry.mappings →
    (unit session false fun lease => do
      let rows ← query session lease (Statement.select session.dialect prepared page values)
      let entries ← settleOutcome (prepared.root.hydrateAll rows)
      return (entries, WriteSet.ofFills entries)).run store = (.ok entries, between) →
    ∀ entry ∈ entries, given entry.1 entry.2

/-- What is read is held in what the thread sees, as what the cache shows is. -/
theorem supplies_held (regular : store.Regular) (orderly : store.Orderly faithful)
    (fits : ∀ mapping ∈ store.registry.mappings, layout.Fits mapping)
    (cached : layout.Backs (· ∈ store.registry.mappings) (store.view faithful session.thread)
      store.cache.Shows) :
    store.Supplies session
      (layout.Held (· ∈ store.registry.mappings) (store.view faithful session.thread)) where
  loads registered named ran :=
    ((finds_loadRow regular orderly fits registered fun row isShown =>
      (cached.reflects _ row isShown).finds regular.sound.registry registered named).of_run ran
        _ rfl).held registered named
  selects {prepared page values entries between} fit ran := by
    have asks (lease : LeaseId) := @asks_selection _ session lease (· ∈ store.registry.mappings)
      prepared fit page values
    have ends := (ensures_unit asks fun _ inside => regular.leased.connection inside).of_run ran
    obtain ⟨_, _, ⟨_, _, fetched⟩, _, _, _, replays⟩ := ends.replayed regular orderly fits
    exact (fetched.held replays fits cached.keyed).2

section Reading

variable (regular : store.Regular) (orderly : store.Orderly faithful)
  (fits : ∀ mapping ∈ store.registry.mappings, layout.Fits mapping)
include regular orderly fits

theorem gaining_loadRow (registered : mapping ∈ store.registry.mappings)
    (named : key.entityType = mapping.entity) :
    Gaining faithful given (loadRow session mapping key) store := by
  have looked : GainsOrAborts faithful given store true
      { store with cache := (store.cache.get key).2 } := Or.inl ⟨rfl, rfl, rows_of_memory rfl⟩
  unfold loadRow
  refine gaining_ensureOpen_bind (gaining_bind looked fun found between ran => ?_)
  cases found with
  | some row => exact gaining_pure _
  | none =>
      obtain rfl : { store with cache := (store.cache.get key).2 } = between :=
        congrArg Prod.snd ran
      have free : Task.read.writesRows = false := rfl
      have orderlyLooked : Store.Orderly faithful { store with cache := (store.cache.get key).2 } :=
        ⟨orderly.valid, orderly.inside⟩
      exact gaining_unit (regular.looked key) orderlyLooked fits free fun _ =>
        asks_loading registered named

variable (supplies : store.Supplies session given)
include supplies

private theorem gaining_run {prepared : Query} (fit : prepared.root ∈ store.registry.mappings)
    (parameters : Parameters) (page : Page) :
    Gaining faithful given (run session prepared parameters page) store := by
  unfold run
  refine gaining_settleOutcome_bind fun values _ => gaining_entityType_bind fun mapping _ => ?_
  have asks : ∀ lease, Asks session.database
      (Question.Issued (· ∈ store.registry.mappings) false) lease _ _ :=
    fun lease => asks_selection fit page values
  have free : Task.read.writesRows = false := rfl
  refine gaining_bind (gaining_unit regular orderly fits free fun lease =>
    (asks lease).weaken ?_) fun entries _ ran => gaining_rememberLoaded (supplies.selects fit ran)
  rintro ⟨entries, writes⟩ log ⟨same, _, fetched⟩
  rw [show writes = WriteSet.ofFills entries from same]
  exact .read fetched

omit supplies in
private theorem gaining_find (registered : mapping ∈ store.registry.mappings) (id : Int64) :
    Gaining faithful given (find session mapping id) store := by
  unfold find
  refine gaining_bind (gaining_loadRow regular orderly fits registered rfl) fun found _ _ => ?_
  cases found with
  | none => exact gaining_pure _
  | some row =>
      refine gaining_get_bind (gaining_bind (gaining_remember ?_) fun _ _ _ => gaining_pure _)
      exact fun _ impossible => by cases impossible

variable (inMemory : subject < store.memory.size)
include inMemory

private theorem gaining_rowOf : Gaining faithful given (rowOf session subject) store := by
  have sound := regular.sound.instanceAt inMemory
  unfold rowOf
  refine gaining_get_bind ?_
  dsimp only
  split
  · exact gaining_throw _
  split
  · exact gaining_pure _
  refine gaining_bind (gaining_loadRow regular orderly fits sound.registered sound.sound.entity)
    fun found between ran => ?_
  cases found with
  | none =>
      exact gaining_bind (gaining_change (fun _ => rfl) fun _ => rfl) fun _ _ _ => gaining_throw _
  | some row =>
      have kept : Gaining faithful given
          (change subject fun content => { content with row := some row }) between :=
        Or.inl (@gains_modifyInstance _ _ _ faithful between subject given
          (fun content => { content with row := some row }) ?_)
      · exact gaining_bind kept fun _ _ _ => gaining_pure _
      rintro _ ⟨⟩
      have silent : store.Silent between := (read_loadRow regular sound.registered _).of_run ran
      have isKey : (between.instanceAt subject).key = (store.instanceAt subject).key :=
        congrArg Snapshot.key (silent.look subject)
      exact Or.inr (isKey ▸ supplies.loads sound.registered sound.sound.entity ran)

private theorem gaining_columnOf (column : String) :
    Gaining faithful given (columnOf session subject column) store :=
  gaining_bind (gaining_rowOf regular orderly fits supplies inMemory) fun _ _ _ => gaining_pure _

private theorem gaining_read (name : String) :
    Gaining faithful given (read session subject name) store := by
  unfold read
  refine gaining_get_bind ?_
  dsimp only
  split
  · exact gaining_get_bind (gaining_pure _)
  refine gaining_settleOutcome_bind fun property _ => gaining_settleOutcome_bind fun _ _ => ?_
  cases property with
  | collection relation => exact gaining_throw _
  | scalar property =>
      unfold readScalar
      refine gaining_get_bind ?_
      dsimp only
      split
      · exact gaining_pure _
      · exact gaining_pure _
      · exact gaining_throw _
      · split
        · exact gaining_pure _
        · exact gaining_bind (gaining_columnOf regular orderly fits supplies inMemory _)
            fun _ _ _ => gaining_pure _
  | object relation =>
      unfold readReference
      refine gaining_get_bind ?_
      dsimp only
      split
      · exact gaining_pure _
      · exact gaining_pure _
      · exact gaining_pure _
      · split
        · exact gaining_pure _
        · exact gaining_columnOf regular orderly fits supplies inMemory _

private theorem gaining_readObject (name : String) :
    Gaining faithful given (readObject session subject name) store := by
  unfold readObject
  refine gaining_get_bind ?_
  dsimp only
  refine gaining_settleOutcome_bind fun property _ => ?_
  cases property with
  | collection relation => exact gaining_throw _
  | scalar property => exact gaining_throw _
  | object relation =>
      refine gaining_settleOutcome_bind fun _ _ => ?_
      split
      · exact gaining_pure _
      · exact gaining_pure _
      · exact gaining_pure _
      · exact gaining_throw _
      · split
        · exact gaining_pure _
        · refine gaining_bind (gaining_columnOf regular orderly fits supplies inMemory _)
            fun value _ _ => ?_
          split
          · exact gaining_pure _
          · exact gaining_bind (gaining_reference _ _) fun _ _ _ => gaining_pure _

omit inMemory in
private theorem gaining_readCollection (name : String) :
    Gaining faithful given (readCollection session subject name) store := by
  unfold readCollection
  refine gaining_get_bind ?_
  dsimp only
  refine gaining_settleOutcome_bind fun property _ => ?_
  cases property with
  | scalar property => exact gaining_throw _
  | object relation => exact gaining_throw _
  | collection relation =>
      refine gaining_settleOutcome_bind fun _ _ => ?_
      split
      · exact gaining_pure _
      · exact gaining_pure _
      · obtain ⟨_, ran, known⟩ := run_prepare relation.query store
        refine gaining_bind_same ran fun prepared ok => ?_
        refine gaining_bind (gaining_run regular orderly fits supplies (known prepared ok) _ _)
          fun members _ _ => ?_
        refine gaining_bind (gaining_change (fun _ => rfl) fun _ => rfl) fun _ _ _ => ?_
        exact gaining_bind (Or.inl ⟨rfl, rfl, rows_of_memory rfl⟩) fun _ _ _ => gaining_pure _

omit supplies inMemory in
private theorem gaining_sync : Gaining faithful given (sync session) store := by
  unfold sync
  refine gaining_get_bind ?_
  dsimp only
  have posed : Task.sync.writesRows = false := rfl
  exact gaining_unit regular orderly fits posed fun lease => asks_sync fun _ member => member

end Reading

end Store

def Action.looksOnly : Action → Bool
  | save _ | remove _ | drop | begin | commit | rollback | close => false
  | _ => true

namespace Action

variable {World : Type} {layout : Layout} {session : Session World}
  {faithful : Faithful layout session.database} {store : Store World} {given : Showing}

theorem gaining_perform {action : Action} (regular : store.Regular)
    (orderly : store.Orderly faithful)
    (fits : ∀ mapping ∈ store.registry.mappings, layout.Fits mapping)
    (supplies : store.Supplies session given) (inMemory : action.InMemory store.memory.size)
    (looks : action.looksOnly = true) :
    Store.Gaining faithful given (action.perform session) store := by
  cases action with
  | define batch =>
      exact Store.gaining_bind (Store.gaining_define batch) fun _ _ _ => Store.gaining_pure ()
  | sync =>
      exact Store.gaining_bind (Store.gaining_sync regular orderly fits)
        fun _ _ _ => Store.gaining_pure ()
  | create entity values =>
      exact Store.gaining_entityType_bind fun mapping _ =>
        Store.gaining_bind (Store.gaining_createInstance mapping values)
          fun _ _ _ => Store.gaining_pure ()
  | reference entity id =>
      exact Store.gaining_bind (Store.gaining_reference entity id)
        fun _ _ _ => Store.gaining_pure ()
  | find entity id =>
      exact Store.gaining_entityType_bind fun _ registered =>
        Store.gaining_bind (Store.gaining_find regular orderly fits registered id)
          fun _ _ _ => Store.gaining_pure ()
  | query text parameters page =>
      obtain ⟨_, ran, known⟩ := Store.run_prepare text store
      exact Store.gaining_bind_same ran fun prepared ok =>
        Store.gaining_bind (Store.gaining_run regular orderly fits supplies (known prepared ok)
          parameters page) fun _ _ _ => Store.gaining_pure ()
  | read subject name =>
      exact Store.gaining_bind (Store.gaining_read regular orderly fits supplies inMemory name)
        fun _ _ _ => Store.gaining_pure ()
  | readObject subject name =>
      exact Store.gaining_bind
        (Store.gaining_readObject regular orderly fits supplies inMemory name)
        fun _ _ _ => Store.gaining_pure ()
  | readCollection subject name =>
      exact Store.gaining_bind (Store.gaining_readCollection regular orderly fits supplies name)
        fun _ _ _ => Store.gaining_pure ()
  | assign subject name value => exact Store.gaining_assign subject name value
  | forgetCollections subject => exact Store.gaining_change (fun _ => rfl) fun _ => rfl
  | clearCache => exact Or.inl ⟨rfl, rfl, Store.rows_of_memory rfl⟩
  | save | remove | drop | begin | commit | rollback | close => cases looks

end Action
end EntityStore
