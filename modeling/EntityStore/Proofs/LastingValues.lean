/-
Values that stay in their rows. A store attests to a value in a column of a row if the row is
held with it in what a thread sees and the cache shows it with nothing else, now and after a
commit. It goes on doing so while the thread writes no rows and takes none back, and whatever
instance of the row is then made anew reads the value.
-/

import EntityStore.Proofs.Collecting
import EntityStore.Proofs.SharedKeys

set_option autoImplicit false

namespace EntityStore

structure Cell where
  mapping : Mapping
  id : Int64
  column : String
  value : Value

namespace Cell

def key (cell : Cell) : Key := Key.withId cell.mapping.entity cell.id

def In (cell : Cell) (row : Row) : Prop :=
  ∃ found, row.get? cell.column = some found ∧ found.Alike cell.value

def HeldIn (cell : Cell) (layout : Layout) (contents : Contents) : Prop :=
  ∃ fields, contents.row (layout.tableOf cell.mapping, cell.id) = some fields ∧
    (fields (layout.column cell.column)).Alike cell.value

def ShownIn (cell : Cell) (shown : Showing) : Prop := ∀ row, shown cell.key row → cell.In row

variable {cell : Cell} {layout : Layout} {registered : Mapping → Prop}

theorem ShownIn.mono {shown fewer : Showing} (shownIn : cell.ShownIn shown)
    (le : ∀ key row, fewer key row → shown key row) : cell.ShownIn fewer :=
  fun row isShown => shownIn row (le cell.key row isShown)

theorem HeldIn.in_of_shows {contents : Contents} (held : cell.HeldIn layout contents)
    (declared : cell.column ∈ cell.mapping.columns) {fields : Fields} {row : Row}
    (found : contents.row (layout.tableOf cell.mapping, cell.id) = some fields)
    (shows : layout.Shows cell.mapping.columns fields row) : cell.In row := by
  obtain ⟨others, isThere, alike⟩ := held
  obtain rfl : fields = others := Option.some.inj (found.symm.trans isThere)
  exact ⟨_, shows cell.column declared, alike⟩

structure Declared (cell : Cell) (registry : Registry) : Prop where
  registered : cell.mapping ∈ registry.mappings
  column : cell.column ∈ cell.mapping.columns

theorem Declared.eq_of_key {registry : Registry} (declared : cell.Declared registry)
    (formed : registry.WellFormed) {mapping : Mapping} {id : Int64}
    (isRegistered : mapping ∈ registry.mappings)
    (same : Key.withId mapping.entity id = cell.key) : mapping = cell.mapping ∧ id = cell.id := by
  obtain ⟨sameEntity, sameId⟩ := Key.mk.inj same
  exact ⟨formed.unique isRegistered declared.registered sameEntity, Option.some.inj sameId⟩

end Cell

/-! ### What a task leaves -/

theorem Sought.exists_in {layout : Layout} {dialect : Dialect} {registry : Registry} {cell : Cell}
    {found : Option Row} {log : List Event} {before after : Ledger}
    (sought : Sought dialect cell.mapping cell.key found log)
    (declared : cell.Declared registry) (held : cell.HeldIn layout before.contents)
    (replays : Ledger.Replays layout layout.Answers before log after) :
    ∃ row, found = some row ∧ cell.In row := by
  cases sought with
  | unkeyed without => cases without
  | asked id rows isId =>
      cases isId
      obtain _ | ⟨step, _⟩ := replays
      obtain _ | truthful := step
      rcases Layout.answers_selectById truthful with ⟨missing, _⟩ | ⟨fields, row, isHeld, rfl, shows⟩
      · obtain ⟨_, present, _⟩ := held
        exact nomatch missing.symm.trans present
      · exact ⟨row, rfl, held.in_of_shows declared.column isHeld shows⟩

section Tasks

variable {layout : Layout} {dialect : Dialect} {registry : Registry} {cell : Cell}
  {before after : Ledger} (formed : registry.WellFormed) (declared : cell.Declared registry)
  (fits : ∀ mapping ∈ registry.mappings, layout.Fits mapping)
  (keyed : layout.Keyed before.contents) (held : cell.HeldIn layout before.contents)
include formed declared fits keyed held

theorem Fetched.in_of_mem {entries : List (Key × Row)} {log : List Event}
    (fetched : Fetched dialect (· ∈ registry.mappings) entries log)
    (replays : Ledger.Replays layout layout.Answers before log after) {row : Row}
    (member : (cell.key, row) ∈ entries) : cell.In row := by
  obtain ⟨mapping, id, fields, isRegistered, isKey, found, shows⟩ :=
    fetched.shows replays fits keyed _ member
  obtain ⟨rfl, rfl⟩ := declared.eq_of_key formed isRegistered isKey.symm
  exact held.in_of_shows declared.column found shows

theorem Task.Gives.shownIn {task : Task} {writes : WriteSet} {log : List Event} {shown : Showing}
    (gives : task.Gives dialect (· ∈ registry.mappings) writes log)
    (free : task.writesRows = false)
    (replays : Ledger.Replays layout layout.Answers before log after)
    (shownIn : cell.ShownIn shown) : cell.ShownIn (writes.alter shown) := by
  cases gives with
  | read fetched =>
      intro row isShown
      rcases alterAll_fills isShown with isRead | was
      · exact fetched.in_of_mem formed declared fits keyed held replays isRead
      · exact shownIn row was
  | sync _ => exact shownIn
  | drop _ => cases free
  | save _ => cases free
  | removal _ _ => cases free

end Tasks

/-! ### Stores that attest to a value -/

def Task.conserves : Task → Bool
  | read | sync | begin | commit => true
  | _ => false

theorem Task.writesRows_of_conserves {task : Task} (conserves : task.conserves = true) :
    task.writesRows = false := by
  cases task <;> first | rfl | cases conserves

namespace Store

variable {World : Type} {layout : Layout} {session : Session World}
  {faithful : Faithful layout session.database} {poses : Task → Prop} {cell : Cell}
  {store between after : Store World} {ok : Bool}

/-- The row of a cell is held with its value in what a thread sees, and so is what the cache
shows of it and what it would show after a commit. -/
structure Attests {database : Database World} (faithful : Faithful layout database)
    (thread : ThreadId) (cell : Cell) (store : Store World) : Prop where
  declared : cell.Declared store.registry
  keyed : layout.Keyed (store.view faithful thread)
  held : cell.HeldIn layout (store.view faithful thread)
  cached : cell.ShownIn store.cache.Shows
  owed : cell.ShownIn ((store.owed thread).alter store.cache.Shows)

theorem Attests.quiet {database : Database World} {faithful : Faithful layout database}
    {thread : ThreadId} (attests : store.Attests faithful thread cell) (quiet : store.Quiet after) :
    after.Attests faithful thread cell := by
  refine ⟨⟨quiet.registered _ attests.declared.registered, attests.declared.column⟩, ?_, ?_, ?_, ?_⟩
  · exact quiet.view ▸ attests.keyed
  · exact quiet.view ▸ attests.held
  · exact quiet.cache ▸ attests.cached
  · rw [quiet.owed, quiet.cache]
    exact attests.owed

/-- A unit attests to what it leaves the row with and puts in its place. -/
theorem Altered.attests {writes : WriteSet} {log : List Event}
    (altered : Altered faithful writes log store after) (declared : cell.Declared after.registry)
    (keyed : layout.Keyed (store.view faithful session.thread))
    (held : cell.HeldIn layout (after.view faithful session.thread))
    (shown : ∀ shown, cell.ShownIn (writes.alter shown)) :
    after.Attests faithful session.thread cell := by
  obtain ⟨_, _, replays⟩ := altered.replayed
  exact ⟨declared, Layout.Keyed.replays keyed altered.conforms replays, held,
    (shown _).mono altered.cached, (shown _).mono altered.owed⟩

section Stages

variable (regular : store.Regular) (orderly : store.Orderly faithful)
  (fits : ∀ mapping ∈ store.registry.mappings, layout.Fits mapping)
  (conserves : ∀ task, poses task → task.conserves = true)
include regular orderly fits conserves

omit fits conserves in
private theorem view_of_begins {outcome : Except Error Unit}
    (ends : BeginEnds session store outcome after) :
    after.view faithful session.thread = store.view faithful session.thread := by
  rcases even_of_begins regular orderly ends with rfl | ⟨outside, published, even⟩
  · rfl
  · rw [even.view, published, view_of_outside outside]

/-- Where a stage succeeds that writes nothing and takes nothing back, the thread sees what it
saw. -/
theorem Stage.sees (stage : Stage session poses store true after) :
    after.view faithful session.thread = store.view faithful session.thread := by
  generalize succeeded : true = flag at stage
  cases stage with
  | quiet quiet => exact quiet.view
  | looked key => rfl
  | cleared => rfl
  | @unit _ task _ outcome _ posed ends =>
      have free : task.writesRows = false :=
        Task.writesRows_of_conserves (posed.elim (fun isRead => isRead ▸ rfl) (conserves task))
      have gains : GainsOrAborts faithful (fun _ _ => True) store outcome.isOk after :=
        ends.gainsOrAborts regular orderly fits free
      obtain gained | ⟨failed, _⟩ := gains
      · exact gained.sees
      · exact nomatch succeeded.trans failed
  | began _ ends => exact view_of_begins regular orderly ends
  | @committed outcome _ _ ends =>
      cases outcome with
      | error error => cases succeeded
      | ok _ =>
          obtain ⟨even, published⟩ := even_of_commits orderly ends
          exact even.view.trans published
  | rolledBack posed _ => exact nomatch conserves _ posed
  | closed posed _ => exact nomatch conserves _ posed

omit orderly in
theorem Moves.attests (moves : Moves faithful poses store after)
    (registered : ∀ mapping ∈ store.registry.mappings, mapping ∈ after.registry.mappings)
    (sees : after.view faithful session.thread = store.view faithful session.thread)
    (attests : store.Attests faithful session.thread cell) :
    after.Attests faithful session.thread cell := by
  have declared : cell.Declared after.registry :=
    ⟨registered _ attests.declared.registered, attests.declared.column⟩
  have formed := regular.sound.registry
  have free {task : Task} (posed : task = .read ∨ poses task) : task.writesRows = false :=
    Task.writesRows_of_conserves (posed.elim (fun isRead => isRead ▸ rfl) (conserves task))
  -- Where nothing is owed, what is cached is what a commit would leave.
  have evened (even : after.Even faithful session.thread)
      (cached : cell.ShownIn after.cache.Shows) : after.Attests faithful session.thread cell := by
    refine ⟨declared, sees ▸ attests.keyed, sees ▸ attests.held, cached, ?_⟩
    rw [even.owed]
    exact cached
  cases moves with
  | idle shows _ _ owed =>
      refine ⟨declared, sees ▸ attests.keyed, sees ▸ attests.held, attests.cached.mono shows, ?_⟩
      rw [owed]
      exact attests.owed.mono fun _ _ => alterAll_mono shows
  | evened shows _ even => exact evened even (attests.cached.mono shows)
  | committed even _ shows => exact evened even (attests.owed.mono shows)
  | applied posed gives _ even evenAfter replayed shows =>
      obtain ⟨_, _, replays⟩ := replayed
      refine evened evenAfter (Cell.ShownIn.mono ?_ shows)
      exact gives.shownIn formed attests.declared fits (even.view ▸ attests.keyed)
        (even.view ▸ attests.held) (free posed) replays attests.cached
  | recorded posed gives _ _ replayed shows showsOwed =>
      obtain ⟨_, _, replays⟩ := replayed
      refine ⟨declared, sees ▸ attests.keyed, sees ▸ attests.held, attests.cached.mono shows,
        Cell.ShownIn.mono ?_ showsOwed⟩
      exact gives.shownIn formed attests.declared fits attests.keyed attests.held (free posed)
        replays attests.owed

end Stages

theorem Course.attests (course : Course session poses store ok after) (succeeded : ok = true)
    (regular : store.Regular) (orderly : store.Orderly faithful)
    (fits : ∀ mapping ∈ after.registry.mappings, layout.Fits mapping)
    (conserves : ∀ task, poses task → task.conserves = true)
    (attests : store.Attests faithful session.thread cell) :
    after.Attests faithful session.thread cell := by
  induction course with
  | ended => exact attests
  | failed _ => cases succeeded
  | went stage rest ih =>
      have fitsBetween := rest.grows.forall_registered fits
      have fitsBefore := stage.grows.forall_registered fitsBetween
      have orderlyBetween := (stage.turn regular orderly fitsBefore).orderly orderly regular.leased
      have attestsBetween := (stage.moves regular orderly fitsBefore).attests regular fitsBefore
        conserves stage.grows.registered (stage.sees regular orderly fitsBefore conserves) attests
      exact ih succeeded (stage.regular regular) orderlyBetween fits
        (fun _ impossible => impossible.elim) attestsBetween

end Store

/-! ### Runs -/

def Action.conserves : Action → Bool
  | save _ | remove _ | drop | rollback | close => false
  | _ => true

theorem Action.conserves_of_poses {World : Type} {session : Session World} {store : Store World}
    {action : Action} (conserves : action.conserves = true) :
    ∀ task, action.Poses session store task → task.conserves = true := by
  intro task posed
  cases action with
  | sync | begin | commit =>
      cases posed
      rfl
  | save _ | remove _ | drop | rollback | close => cases conserves
  | _ => exact posed.elim

structure Act.Conserves {World : Type} (act : Act World) (thread : ThreadId) : Prop where
  own : act.thread = thread
  conserves : act.action.conserves = true
  succeeded : act.outcome.isOk = true

theorem Deployment.attests_of_run {World : Type} {layout : Layout} {deployment : Deployment World}
    {faithful : Faithful layout deployment.database} {thread : ThreadId} {cell : Cell}
    {opened closing : Store World} {acts : List (Act World)}
    (run : deployment.Run opened acts closing) (regular : opened.Regular)
    (orderly : opened.Orderly faithful)
    (fits : ∀ mapping ∈ closing.registry.mappings, layout.Fits mapping)
    (conserve : ∀ act ∈ acts, act.Conserves thread)
    (attests : opened.Attests faithful thread cell) : closing.Attests faithful thread cell := by
  induction run with
  | nil store => exact attests
  | @cons store between after other action outcome rest inMemory ran later ih =>
      obtain ⟨rfl, conserves, succeeded⟩ := conserve _ List.mem_cons_self
      have course := (Action.follows_perform regular inMemory).of_run ran
      have regularBetween := course.regular regular
      have fitsBetween : ∀ mapping ∈ between.registry.mappings, layout.Fits mapping :=
        (later.grows regularBetween).forall_registered fits
      exact ih regularBetween (orderly_of_act regular orderly fitsBetween inMemory ran) fits
        (fun act member => conserve act (List.mem_cons_of_mem _ member))
        (course.attests succeeded regular orderly fitsBetween
          (Action.conserves_of_poses conserves) attests)

/-! ### Instances that are made anew -/

namespace Store

variable {World : Type} {layout : Layout} {session : Session World}
  {faithful : Faithful layout session.database} {cell : Cell} {store after : Store World}
  {subject : InstanceId}

inductive Renewed (session : Session World) (mapping : Mapping) (id : Int64)
    (store : Store World) : InstanceId → Store World → Prop where
  | referenced {subject : InstanceId} {after : Store World} :
      (reference mapping.entity id).run store = (.ok subject, after) →
      Renewed session mapping id store subject after
  | found {subject : InstanceId} {after : Store World} :
      (find session mapping id).run store = (.ok (some subject), after) →
      Renewed session mapping id store subject after
  | queried {query : Query} {parameters : Parameters} {page : Page}
      {members : List InstanceId} {subject : InstanceId} {after : Store World} :
      query.root ∈ store.registry.mappings →
      (run session query parameters page).run store = (.ok members, after) →
      subject ∈ members → (after.instanceAt subject).key = Key.withId mapping.entity id →
      Renewed session mapping id store subject after

structure Anew (cell : Cell) (store : Store World) (subject : InstanceId) : Prop where
  clean : (store.instanceAt subject).state = .clean
  visible : (store.instanceAt subject).vanished = false
  key : (store.instanceAt subject).key = cell.key
  row : ∀ row, (store.instanceAt subject).row = some row → cell.In row

private theorem reference_ok {entity : String} {id : Int64}
    (ran : (reference entity id).run store = (.ok subject, after)) :
    ∃ mapping, store.registry.mapping? entity = some mapping ∧ subject = store.memory.size ∧
      after = (store.addInstance (Instance.reference store.id mapping id)).2 := by
  unfold reference entityType at ran
  rw [bind_assoc, run_bind, run_get] at ran
  simp only at ran
  cases known : store.registry.mapping? entity with
  | none =>
      rw [show store.mapping? entity = none from known] at ran
      cases ran
  | some mapping =>
      rw [show store.mapping? entity = some mapping from known] at ran
      cases ran
      exact ⟨mapping, rfl, rfl, rfl⟩

private theorem find_ok {mapping : Mapping} {id : Int64}
    (ran : (find session mapping id).run store = (.ok (some subject), after)) :
    ∃ row between, (loadRow session mapping (Key.withId mapping.entity id)).run store
        = (.ok (some row), between) ∧ subject = between.memory.size ∧
      after = (between.addInstance (Instance.reference between.id mapping id)).2 := by
  obtain ⟨found, between, loaded, ran⟩ := run_bind_eq_ok.mp ran
  cases found with
  | none => cases ran
  | some row =>
      cases ran
      exact ⟨row, between, loaded, rfl, rfl⟩

private theorem registry_rememberLoaded {mapping : Mapping} {entries : List (Key × Row)}
    {members : List InstanceId}
    (ran : (rememberLoaded mapping entries).run store = (.ok members, after)) :
    after.registry = store.registry := by
  induction entries generalizing store members with
  | nil =>
      cases ran
      rfl
  | cons entry rest ih =>
      obtain ⟨_, rfl, ranRest⟩ := rememberLoaded_cons_ok ran
      have defined := ih ranRest
      exact defined

/-- Making another instance defines no types. -/
theorem Renewed.registry {mapping : Mapping} {id : Int64} (regular : store.Regular)
    (registered : mapping ∈ store.registry.mappings)
    (renewed : Renewed session mapping id store subject after) :
    after.registry = store.registry := by
  cases renewed with
  | referenced ran =>
      obtain ⟨_, _, _, rfl⟩ := reference_ok ran
      rfl
  | found ran =>
      obtain ⟨_, between, loaded, _, rfl⟩ := find_ok ran
      exact congrArg Prod.fst ((extent_loadRow regular registered).of_run loaded)
  | @queried query _ page _ _ _ fit ran _ _ =>
      obtain ⟨values, _, _, between, _, ranUnit, ran⟩ := run_ok ran
      have asks (lease : LeaseId) := @asks_selection _ session lease (· ∈ store.registry.mappings)
        query fit page values
      have ends :=
        (ensures_unit asks fun _ inside => regular.leased.connection inside).of_run ranUnit
      exact (registry_rememberLoaded ran).trans (congrArg Prod.fst ends.extent)

theorem Renewed.course {poses : Task → Prop} {mapping : Mapping} {id : Int64}
    (regular : store.Regular) (registered : mapping ∈ store.registry.mappings)
    (renewed : Renewed session mapping id store subject after) :
    Course session poses store true after := by
  cases renewed with
  | referenced ran => exact (follows_reference _ _).of_run ran
  | found ran => exact (follows_find regular registered id).of_run ran
  | queried fit ran _ _ => exact (follows_run regular fit _ _).of_run ran

private theorem anew_of_added {id : StoreId} (store : Store World) :
    Anew cell (store.addInstance (Instance.reference id cell.mapping cell.id)).2
      store.memory.size := by
  have isNew : (store.addInstance (Instance.reference id cell.mapping cell.id)).2.instanceAt
      store.memory.size = Instance.reference id cell.mapping cell.id := by
    rw [instanceAt_addInstance, if_pos rfl]
  refine ⟨?_, ?_, ?_, ?_⟩ <;> rw [isNew]
  · rfl
  · rfl
  · rfl
  · exact nofun

section Making

variable (regular : store.Regular) (orderly : store.Orderly faithful)
  (fits : ∀ mapping ∈ store.registry.mappings, layout.Fits mapping)
  (attested : store.Attests faithful session.thread cell)
include regular orderly fits attested

private theorem anew_of_run {query : Query} {parameters : Parameters} {page : Page}
    {members : List InstanceId} (fit : query.root ∈ store.registry.mappings)
    (ran : (run session query parameters page).run store = (.ok members, after))
    (member : subject ∈ members) (isKey : (after.instanceAt subject).key = cell.key) :
    after.Anew cell subject := by
  obtain ⟨values, mapping, entries, between, _, ranUnit, ran⟩ := run_ok ran
  have asks (lease : LeaseId) := @asks_selection _ session lease (· ∈ store.registry.mappings)
    query fit page values
  have ends := (ensures_unit asks fun _ inside => regular.leased.connection inside).of_run ranUnit
  obtain ⟨_, _, ⟨_, _, fetched⟩, _, _, _, replays⟩ := ends.replayed regular orderly fits
  have isMade : after.instanceAt subject ∈ members.map after.instanceAt :=
    List.mem_map_of_mem member
  rw [instances_rememberLoaded ran] at isMade
  obtain ⟨entry, isEntry, made⟩ := List.mem_map.mp isMade
  have keyOfEntry : entry.1 = cell.key := by
    rw [← isKey, ← made]
    rfl
  refine ⟨?_, ?_, isKey, fun row isRow => ?_⟩
  · rw [← made]; rfl
  · rw [← made]; rfl
  · rw [← made] at isRow
    obtain rfl : entry.2 = row := Option.some.inj isRow
    exact fetched.in_of_mem regular.sound.registry attested.declared fits attested.keyed attested.held
      replays (keyOfEntry ▸ isEntry)

theorem Renewed.anew (renewed : Renewed session cell.mapping cell.id store subject after) :
    after.Anew cell subject := by
  cases renewed with
  | referenced ran =>
      obtain ⟨mapping, known, rfl, rfl⟩ := reference_ok ran
      obtain ⟨isRegistered, named⟩ := Registry.mem_of_mapping? known
      obtain rfl : mapping = cell.mapping :=
        regular.sound.registry.unique isRegistered attested.declared.registered named
      exact anew_of_added store
  | found ran =>
      obtain ⟨_, between, _, rfl, rfl⟩ := find_ok ran
      exact anew_of_added between
  | queried fit ran member isKey =>
      exact anew_of_run regular orderly fits attested fit ran member isKey

/-- The store after another instance was made still attests to the value. -/
theorem Renewed.attests (renewed : Renewed session cell.mapping cell.id store subject after) :
    after.Regular ∧ after.Orderly faithful ∧
      (∀ mapping ∈ after.registry.mappings, layout.Fits mapping) ∧
      after.Attests faithful session.thread cell := by
  have registered := attested.declared.registered
  have course : Course session onlyReads store true after := renewed.course regular registered
  have fitsAfter : ∀ mapping ∈ after.registry.mappings, layout.Fits mapping :=
    renewed.registry regular registered ▸ fits
  exact ⟨course.regular regular, course.orderly regular orderly fitsAfter, fitsAfter,
    course.attests rfl regular orderly fitsAfter (fun _ impossible => impossible.elim) attested⟩

end Making

/-! ### Reading -/

/-- The row of an instance cannot be loaded; if the store is open, it is not in the cache
either. -/
structure Unavailable (session : Session World) (store : Store World) (subject : InstanceId)
    (error : Error) : Prop where
  unloadable : store.Unloadable session subject error
  missing : store.isOpen = true → store.cache.find? (store.instanceAt subject).key = none

inductive ReadsAs {α : Type} (session : Session World) (store : Store World)
    (subject : InstanceId) (expected : α → Store World → Prop) :
    Except Error α → Store World → Prop where
  | read {result : α} {after : Store World} : expected result after →
      ReadsAs session store subject expected (.ok result) after
  | unavailable {error : Error} {after : Store World} : store.Unavailable session subject error →
      ReadsAs session store subject expected (.error error) after

theorem ReadsAs.weaken {α : Type} {expected wanted : α → Store World → Prop}
    {outcome : Except Error α} (reads : store.ReadsAs session subject expected outcome after)
    (weaker : ∀ result, expected result after → wanted result after) :
    store.ReadsAs session subject wanted outcome after := by
  cases reads with
  | read isExpected => exact .read (weaker _ isExpected)
  | unavailable refused => exact .unavailable refused

/-- The row of an instance that knows one is available. -/
theorem ReadsAs.exists_of_known {α : Type} {expected : α → Store World → Prop}
    {outcome : Except Error α} {row : Row} (known : (store.instanceAt subject).row = some row)
    (reads : store.ReadsAs session subject expected outcome after) :
    ∃ result, outcome = .ok result ∧ expected result after := by
  cases reads with
  | read isExpected => exact ⟨_, rfl, isExpected⟩
  | unavailable refused => exact nomatch refused.unloadable.1.symm.trans known

private theorem readsAs_bind {α β : Type} {operation : Operation World α}
    {next : α → Operation World β}
    {expected : α → Store World → Prop} {wanted : β → Store World → Prop}
    (first : Ensures operation store (store.ReadsAs session subject expected))
    (later : ∀ result between, operation.run store = (.ok result, between) →
      expected result between →
      Ensures (next result) between (store.ReadsAs session subject wanted)) :
    Ensures (operation >>= next) store (store.ReadsAs session subject wanted) := by
  apply ensures_bind
  unfold Ensures at first ⊢
  rcases ran : operation.run store with ⟨outcome, between⟩
  rw [ran] at first
  cases first with
  | read isExpected => exact later _ _ ran isExpected
  | unavailable refused => exact .unavailable refused

section Known

variable {row : Row} (visible : (store.instanceAt subject).vanished = false)
  (known : (store.instanceAt subject).row = some row)
include visible known

private theorem run_rowOf_of_known : (rowOf session subject).run store = (.ok row, store) := by
  unfold rowOf
  rw [run_bind, run_get]
  simp only [visible, known, Bool.false_eq_true, ↓reduceIte]
  rfl

theorem run_columnOf_of_known (column : String) :
    (columnOf session subject column).run store = (.ok ((row.get? column).getD .null), store) := by
  unfold columnOf
  rw [run_bind, run_rowOf_of_known visible known]
  rfl

end Known

private theorem run_reference {entity : String} {mapping : Mapping}
    (known : store.registry.mapping? entity = some mapping) (id : Int64) :
    (reference entity id).run store = (.ok store.memory.size,
      (store.addInstance (Instance.reference store.id mapping id)).2) := by
  unfold reference entityType
  rw [bind_assoc, run_bind, run_get]
  simp only
  rw [show store.mapping? entity = some mapping from known]
  rfl

private theorem run_readObject {name : String} {relation : ObjectRelation}
    (clean : (store.instanceAt subject).state = .clean)
    (visible : (store.instanceAt subject).vanished = false)
    (settled : (store.instanceAt subject).pending = [])
    (found : (store.instanceAt subject).mapping.property? name = some (.object relation)) :
    (readObject session subject name).run store = (do
      match (← columnOf session subject relation.column).integer? with
      | none => return none
      | some id => return some (← reference relation.target id) :
        Operation World (Option InstanceId)).run store := by
  have usable : (store.instanceAt subject).checkUsable = .ok () := by
    simp [Instance.checkUsable, clean, visible]
  have old : (store.instanceAt subject).isNew = false := by
    simp [Instance.isNew, clean]
  have property : (store.instanceAt subject).property name = .ok (.object relation) := by
    unfold Instance.property
    rw [found]
  unfold readObject
  rw [run_bind, run_get]
  simp only [property]
  rw [run_bind, run_settleOutcome]
  simp only
  rw [run_bind, run_settleOutcome, usable]
  simp only
  rw [settled, old]
  rfl

section Reading

variable (regular : store.Regular) (orderly : store.Orderly faithful)
  (fits : ∀ mapping ∈ store.registry.mappings, layout.Fits mapping)
  (attested : store.Attests faithful session.thread cell) (anew : store.Anew cell subject)
include regular orderly fits attested anew

omit orderly fits in
theorem Anew.mapping : (store.instanceAt subject).mapping = cell.mapping := by
  have content := regular.sound.instanceAt (inMemory_of_clean anew.clean)
  refine regular.sound.registry.unique content.registered attested.declared.registered ?_
  exact content.sound.entity.symm.trans (congrArg Key.entityType anew.key)

theorem Anew.rowOf : Ensures (rowOf session subject) store
    (store.ReadsAs session subject fun row _ => cell.In row) := by
  unfold Ensures
  cases known : (store.instanceAt subject).row with
  | some row =>
      rw [run_rowOf_of_known anew.visible known]
      exact .read (anew.row row known)
  | none =>
      have isMapping := anew.mapping regular attested
      have registered := attested.declared.registered
      unfold Store.rowOf
      rw [run_bind, run_get]
      simp only [anew.visible, known, Bool.false_eq_true, ↓reduceIte]
      rw [run_bind]
      generalize ran : (loadRow session (store.instanceAt subject).mapping
        (store.instanceAt subject).key).run store = result
      obtain ⟨outcome, between⟩ := result
      have ends : LoadEnds faithful (store.instanceAt subject).mapping
          (store.instanceAt subject).key store outcome :=
        (ends_loadRow regular orderly fits (isMapping ▸ registered)).of_run ran
      cases ends with
      | closed error isClosed =>
          refine .unavailable ⟨⟨known, between, ran⟩, fun isOpen => ?_⟩
          exact nomatch isClosed.symm.trans isOpen
      | refused error missing => exact .unavailable ⟨⟨known, between, ran⟩, fun _ => missing⟩
      | @cached row isShown => exact .read (attested.cached row (anew.key ▸ isShown))
      | @sought found log contents missing sought replayed =>
          rw [isMapping, anew.key] at sought
          obtain ⟨_, _, replays⟩ := replayed
          obtain ⟨row, rfl, isIn⟩ := sought.exists_in attested.declared attested.held replays
          exact .read isIn

theorem Anew.columnOf : Ensures (columnOf session subject cell.column) store
    (store.ReadsAs session subject fun found _ => found.Alike cell.value) := by
  refine readsAs_bind (anew.rowOf regular orderly fits attested) fun row _ _ isIn => ?_
  obtain ⟨found, isFound, alike⟩ := isIn
  rw [isFound]
  exact .read alike

omit orderly fits in
theorem Anew.reading {property : ScalarProperty} (isColumn : property.column = cell.column)
    (found : cell.mapping.property? property.name = some (.scalar property))
    (other : property.name ≠ idProperty) :
    (store.instanceAt subject).mapping.reading (store.instanceAt subject).key property.name
      = .column cell.column property.type.normalize := by
  unfold Mapping.reading
  rw [if_neg other, anew.mapping regular attested, found, ← isColumn]

/-- A scalar property is read as the form of the value that is natural for its type. -/
theorem Anew.read {property : ScalarProperty} (isColumn : property.column = cell.column)
    (found : cell.mapping.property? property.name = some (.scalar property))
    (other : property.name ≠ idProperty) :
    Ensures (read session subject property.name) store (store.ReadsAs session subject
      fun result _ => ∃ found : Value, found.Alike cell.value ∧
        result = property.type.normalize found) := by
  have content := regular.sound.instanceAt (inMemory_of_clean anew.clean)
  unfold Ensures
  rw [run_read anew.clean anew.visible (content.sound.settled anew.clean),
    anew.reading regular attested isColumn found other]
  exact readsAs_bind (anew.columnOf regular orderly fits attested) fun value _ _ alike =>
    .read ⟨value, alike, rfl⟩

/-- If the value is an id, a relation is read as an instance that has it. -/
theorem Anew.readObject {relation : ObjectRelation} {id : Int64}
    (isColumn : relation.column = cell.column) (isId : cell.value = .integer id)
    (found : cell.mapping.property? relation.name = some (.object relation))
    {target : Mapping} (known : store.registry.mapping? relation.target = some target) :
    Ensures (readObject session subject relation.name) store (store.ReadsAs session subject
      fun result after => ∃ other, result = some other ∧ after.idOf other = some id) := by
  have isMapping := anew.mapping regular attested
  have inMemory := inMemory_of_clean anew.clean
  have content := regular.sound.instanceAt inMemory
  unfold Ensures
  rw [run_readObject anew.clean anew.visible (content.sound.settled anew.clean) (isMapping ▸ found),
    isColumn]
  refine readsAs_bind (anew.columnOf regular orderly fits attested) fun value between ran alike => ?_
  have course : Course session onlyReads store true between :=
    (follows_columnOf regular inMemory cell.column).of_run ran
  have still : between.registry.mapping? relation.target = some target :=
    (course.regular regular).sound.registry.mapping?_of_subset course.grows.registered known
  obtain rfl : value = .integer id := by
    rw [isId] at alike
    rcases Value.alike_iff.mp alike with same | ⟨_, _, _, impossible, _⟩
    · exact same
    · cases impossible
  unfold Ensures
  simp only [Value.integer?]
  rw [run_bind, run_reference still]
  refine .read ⟨_, rfl, ?_⟩
  show ((between.addInstance _).2.instanceAt _).key.id = _
  rw [instanceAt_addInstance, if_pos rfl]
  rfl

end Reading

end Store
end EntityStore
