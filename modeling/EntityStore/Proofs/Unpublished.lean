/-
Changes that are not published yet. What the open transaction of a thread has made of a row
it goes on seeing, for as long as the transaction lasts and its thread does not write the row
again: what other threads do happens on other connections.
-/

import EntityStore.Proofs.Forgetting

set_option autoImplicit false

namespace EntityStore

/-! ### Rows that are not written -/

def Task.writesRows : Task → Bool
  | save _ | removal _ | drop => true
  | _ => false

section Tasks

variable {layout : Layout} {honest : Contents → Statement → List Row → Prop} {dialect : Dialect}
  {registered : Mapping → Prop} {before after : Ledger}

theorem Task.Gives.unwritten {task : Task} {writes : WriteSet} {log : List Event}
    (gives : task.Gives dialect registered writes log) (free : task.writesRows = false)
    (replays : Ledger.Replays layout honest before log after) :
    after.contents = before.contents := by
  apply replays.contents_eq
  intro statement member _ _ _
  cases gives with
  | read fetched => cases fetched <;> simp at member
  | sync creates => exact (creates _ member).keeps
  | drop _ => cases free
  | save _ => cases free
  | removal _ _ => cases free

end Tasks

def Standing.isWriting : Standing → Bool
  | writing _ => true
  | _ => false

namespace Store

variable {World α : Type} {layout : Layout}

/-! ### Rows that a transaction sees -/

section Rows

variable {database : Database World} {faithful : Faithful layout database} {thread : ThreadId}
  {store after : Store World} {connection : ConnectionId} {address : String × Int64}
  {row : Option Fields}

def Changing (faithful : Faithful layout database) (thread : ThreadId) (store : Store World) :
    Prop :=
  ∃ connection contents, store.serving thread = some connection ∧
    faithful.standing store.pool.world connection = .writing contents

theorem changing_of_isWriting
    (writing : (store.serving thread).any (fun connection =>
      (faithful.standing store.pool.world connection).isWriting) = true) :
    store.Changing faithful thread := by
  obtain ⟨connection, serves, stands⟩ := (Option.any_eq_true _ _).mp writing
  cases own : faithful.standing store.pool.world connection with
  | writing contents => exact ⟨connection, contents, serves, own⟩
  | outside | reading => rw [own] at stands; cases stands

structure Holds (faithful : Faithful layout database) (thread : ThreadId)
    (address : String × Int64) (row : Option Fields) (store : Store World) : Prop where
  changing : store.Changing faithful thread
  row : (store.view faithful thread).row address = row

theorem Holds.of_standing (holds : store.Holds faithful thread address row)
    (serves : store.serving thread = some connection)
    (servesAfter : after.serving thread = some connection)
    (standing : faithful.standing after.pool.world connection
      = faithful.standing store.pool.world connection) :
    after.Holds faithful thread address row := by
  obtain ⟨other, contents, servesOther, writing⟩ := holds.changing
  obtain rfl := Option.some.inj (servesOther.symm.trans serves)
  have writingAfter := standing.trans writing
  refine ⟨⟨other, contents, servesAfter, writingAfter⟩, ?_⟩
  rw [← holds.row, view_of_serving servesAfter, view_of_serving serves,
    Perspective.seen_of_writing writingAfter, Perspective.seen_of_writing writing]

/-- Work in a transaction leaves it changing if it has been, or if something was executed. -/
theorem changing_of_worked {log : List Event}
    (worked : faithful.HasWorked connection store.pool.world log after.pool.world)
    (serves : store.serving thread = some connection)
    (servesAfter : after.serving thread = some connection)
    (cause : store.Changing faithful thread ∨ ∃ event ∈ log, ¬event.Reads) :
    after.Changing faithful thread := by
  cases stands : faithful.standing after.pool.world connection with
  | outside => exact absurd stands worked.inside
  | writing contents => exact ⟨connection, contents, servesAfter, stands⟩
  | reading =>
      obtain ⟨wasReading, reads⟩ := worked.untouched stands
      rcases cause with ⟨other, contents, servesOther, writing⟩ | ⟨event, member, executed⟩
      · obtain rfl := Option.some.inj (servesOther.symm.trans serves)
        rw [wasReading] at writing
        cases writing
      · exact absurd (reads event member) executed

/-- What a log makes of what the thread sees. -/
theorem replays_of_worked {log : List Event}
    (worked : faithful.HasWorked connection store.pool.world log after.pool.world)
    (serves : store.serving thread = some connection)
    (servesAfter : after.serving thread = some connection) :
    ∃ first last, Ledger.Replays layout layout.Answers ⟨store.view faithful thread, first⟩ log
      ⟨after.view faithful thread, last⟩ := by
  rw [view_of_serving serves, view_of_serving servesAfter]
  exact ⟨_, _, worked.replays⟩

/-- Work in a transaction keeps a row that its log keeps. -/
theorem Holds.of_worked {log : List Event} (holds : store.Holds faithful thread address row)
    (worked : faithful.HasWorked connection store.pool.world log after.pool.world)
    (serves : store.serving thread = some connection)
    (servesAfter : after.serving thread = some connection)
    (keeps : ∀ before later : Ledger, Ledger.Replays layout layout.Answers before log later →
      later.contents.row address = before.contents.row address) :
    after.Holds faithful thread address row := by
  obtain ⟨first, last, replays⟩ := replays_of_worked worked serves servesAfter
  exact ⟨changing_of_worked worked serves servesAfter (Or.inl holds.changing),
    (keeps _ _ replays).trans holds.row⟩

/-- A turn of another thread happens on another connection, unless it closes the store. -/
theorem Turn.stands {other : ThreadId} {poses : Task → Prop} {ok : Bool}
    (turn : Turn faithful other poses store ok after) (orderly : store.Orderly faithful)
    (leased : store.Leased) (apart : other ≠ thread)
    (serves : store.serving thread = some connection) (lasts : after.serving thread ≠ none) :
    after.serving thread = some connection ∧ faithful.standing after.pool.world connection
      = faithful.standing store.pool.world connection := by
  have isOther {changed : ConnectionId} (unserved : ∀ thread, store.serving thread ≠ some changed) :
      connection ≠ changed := fun same => unserved thread (same ▸ serves)
  have different {changed : ConnectionId} (served : store.serving other = some changed) :
      connection ≠ changed := by
    rintro rfl
    exact apart (serving_inj leased served serves)
  have others {changed : Option ConnectionId} (serving : ∀ any, after.serving any =
      if any = other then changed else store.serving any) :
      after.serving thread = some connection := by
    rw [serving, if_neg apart.symm, serves]
  cases turn with
  | still world serving => exact ⟨(serving thread).trans serves, by rw [world]⟩
  | upkeep _ _ same serving => exact ⟨(serving thread).trans serves, same.standing connection⟩
  | failed _ unserved confined _ serving =>
      exact ⟨(serving thread).trans serves, confined.besides.standing _ (isOther unserved)⟩
  | published _ unserved published _ serving =>
      exact ⟨(serving thread).trans serves, published.besides.standing _ (isOther unserved)⟩
  | worked served asked serving =>
      have worked := Faithful.hasWorked_of_asked asked orderly.valid (orderly.not_outside served)
      exact ⟨(serving thread).trans serves, worked.besides.standing _ (different served)⟩
  | begun _ _ _ unserved confined _ serving =>
      exact ⟨others serving, confined.besides.standing _ (isOther unserved)⟩
  | committed _ _ served _ kept _ _ serving =>
      exact ⟨others serving, kept.standing _ (different served)⟩
  | ended _ served confined _ serving =>
      exact ⟨others serving, confined.besides.standing _ (different served)⟩
  | closed _ _ _ _ _ serving => exact absurd (serving thread) lasts

end Rows

/-! ### The thread of the transaction -/

section Own

variable {session : Session World} {faithful : Faithful layout session.database}
  {poses : Task → Prop} {ok : Bool} {store between after : Store World}
  {connection : ConnectionId} {address : String × Int64} {row : Option Fields}

private theorem serving_of_dropped
    (dropped : after.transactions = (store.dropTransaction session.thread).transactions) :
    after.serving session.thread = none := by
  refine serving_eq_none ?_
  unfold transaction?
  rw [dropped]
  exact transaction?_dropTransaction_self store session.thread

private theorem inside_of_serving (serves : store.serving session.thread = some connection) :
    store.transaction? session.thread ≠ none := by
  intro outside
  rw [serving_eq_none outside] at serves
  cases serves

theorem showsOnly_of_evicted {writes : WriteSet}
    (cache : after.cache = writes.evictTouched store.cache) : store.ShowsOnly after := by
  intro key row isShown
  rw [cache] at isShown
  exact Cache.shows_evictTouched isShown

theorem Orderly.worked (orderly : store.Orderly faithful)
    (fits : ∀ mapping ∈ store.registry.mappings, layout.Fits mapping)
    (serves : store.serving session.thread = some connection) {transactional : Bool}
    {world : World} {log : List Event}
    (asked : Asked session.database
      (Question.Issued (· ∈ store.registry.mappings) transactional) connection store.pool.world
      log world) : faithful.HasWorked connection store.pool.world log world :=
  Faithful.hasWorked_of_asked (asked_fits fits asked) orderly.valid (orderly.not_outside serves)

inductive UnitLasts {α : Type} (session : Session World) (issued : Question → Prop)
    (gives : α × WriteSet → List Event → Prop) (connection : ConnectionId)
    (store : Store World) : Except Error α → Store World → Prop where
  | refused (error : Error) : UnitLasts session issued gives connection store (.error error) store
  | worked {result : α} {writes : WriteSet} {log : List Event} {after : Store World} :
      gives (result, writes) log →
      Asked session.database issued connection store.pool.world log after.pool.world →
      after.serving session.thread = some connection →
      after.cache = writes.withoutFills.evictTouched store.cache →
      UnitLasts session issued gives connection store (.ok result) after

theorem UnitEnds.lasts {issued : Question → Prop} {transactional : Bool}
    {gives : α × WriteSet → List Event → Prop} {outcome : Except Error α}
    (ends : UnitEnds session issued transactional gives store outcome after)
    (serves : store.serving session.thread = some connection)
    (lasts : after.serving session.thread ≠ none) :
    UnitLasts session issued gives connection store outcome after := by
  cases ends with
  | closed _ => exact .refused _
  | @recorded transaction other world _ _ writes _ inside held asked given =>
      obtain rfl := Option.some.inj ((serving_eq_some inside held).symm.trans serves)
      refine .worked given ?_ ?_ ?_
      · rw [pool_recordWrites]
        exact asked
      · exact (serving_recordWrites _ _ writes (store.withWorld world)).trans serves
      · exact cache_recordWrites _ writes (store.withWorld world)
  | aborted _ _ _ _ _ =>
      exact (lasts (serving_of_dropped (transactions_restoreInstances _ _))).elim
  | unconnected _ outside _ => exact absurd outside (inside_of_serving serves)
  | applied _ outside _ _ _ => exact absurd outside (inside_of_serving serves)
  | failed _ outside _ _ _ => exact absurd outside (inside_of_serving serves)

inductive StageLasts (session : Session World) (poses : Task → Prop) (connection : ConnectionId)
    (store after : Store World) : Prop where
  | still : after.pool.world = store.pool.world →
      after.serving session.thread = some connection → store.ShowsOnly after →
      StageLasts session poses connection store after
  | worked {task : Task} {transactional : Bool} {writes : WriteSet} {log : List Event} :
      task = .read ∨ poses task →
      task.Gives session.dialect (· ∈ store.registry.mappings) writes log →
      Asked session.database (Question.Issued (· ∈ store.registry.mappings) transactional)
        connection store.pool.world log after.pool.world →
      after.serving session.thread = some connection → store.ShowsOnly after →
      StageLasts session poses connection store after

theorem Stage.lasts (stage : Stage session poses store ok after)
    (serves : store.serving session.thread = some connection)
    (lasts : after.serving session.thread ≠ none) :
    StageLasts session poses connection store after := by
  have same : StageLasts session poses connection store store :=
    .still rfl serves (showsOnly_of_same rfl)
  cases stage with
  | quiet quiet =>
      exact .still (by rw [quiet.pool]) ((serving_of_quiet quiet _).trans serves)
        (showsOnly_of_same quiet.cache)
  | looked key => exact .still rfl serves fun _ _ => Cache.shows_get
  | cleared =>
      exact .still rfl serves fun key row isShown => (Cache.not_shows_clear _ _ _ isShown).elim
  | unit posed ends =>
      cases ends.lasts serves lasts with
      | refused error => exact same
      | worked given asked still cache =>
          exact .worked posed given asked still (showsOnly_of_evicted cache)
  | began _ ends =>
      cases ends with
      | closed _ => exact same
      | alreadyOpen _ _ => exact same
      | unconnected _ outside _ => exact absurd outside (inside_of_serving serves)
      | begun _ outside _ _ _ => exact absurd outside (inside_of_serving serves)
      | refused _ outside _ _ _ => exact absurd outside (inside_of_serving serves)
  | committed _ ends =>
      cases ends with
      | closed _ => exact same
      | notOpen _ _ => exact same
      | committed _ _ _ _ => exact (lasts (serving_of_dropped (transactions_written _ _ _))).elim
      | refused _ _ _ _ _ =>
          exact (lasts (serving_of_dropped (transactions_rolledBack _ _ _))).elim
  | rolledBack _ ends =>
      cases ends with
      | closed _ => exact same
      | notOpen _ _ => exact same
      | rolledBack _ _ _ _ =>
          exact (lasts (serving_of_dropped (transactions_rolledBack _ _ _))).elim
  | closed _ ends =>
      cases ends with
      | again _ => exact same
      | closed _ abandoned =>
          have ended := congrArg (List.lookup session.thread) abandoned.transactions
          exact (lasts (serving_eq_none ended)).elim

theorem StageLasts.shows (stays : StageLasts session poses connection store after) :
    store.ShowsOnly after := by
  cases stays with
  | still _ _ shows => exact shows
  | worked _ _ _ _ shows => exact shows

theorem StageLasts.holds (stays : StageLasts session poses connection store after)
    (orderly : store.Orderly faithful)
    (fits : ∀ mapping ∈ store.registry.mappings, layout.Fits mapping)
    (free : ∀ task, poses task → task.writesRows = false)
    (serves : store.serving session.thread = some connection)
    (holds : store.Holds faithful session.thread address row) :
    after.Holds faithful session.thread address row := by
  cases stays with
  | still world still _ => exact holds.of_standing serves still (by rw [world])
  | @worked task _ _ _ posed gives asked still _ =>
      have unwritten : task.writesRows = false := by
        rcases posed with rfl | posed
        · rfl
        · exact free task posed
      have worked := orderly.worked fits serves asked
      refine holds.of_worked worked serves still fun before later replays => ?_
      rw [gives.unwritten unwritten replays]

theorem Course.serving_of_lasts {thread : ThreadId}
    (course : Course session onlyReads store ok after) (regular : store.Regular)
    (orderly : store.Orderly faithful)
    (fits : ∀ mapping ∈ after.registry.mappings, layout.Fits mapping)
    (lasts : after.serving thread ≠ none) : store.serving thread ≠ none := fun outside =>
  lasts (course.outside (fun _ impossible => impossible.elim) regular orderly fits outside)

theorem Course.kept {thread : ThreadId} {keeps : Store World → Prop}
    (course : Course session poses store ok after)
    (step : ∀ {store after : Store World} {ok : Bool}, Stage session poses store ok after →
      store.Regular → store.Orderly faithful →
      (∀ mapping ∈ store.registry.mappings, layout.Fits mapping) →
      after.serving thread ≠ none → keeps store → keeps after)
    (regular : store.Regular) (orderly : store.Orderly faithful)
    (fits : ∀ mapping ∈ after.registry.mappings, layout.Fits mapping)
    (lasts : after.serving thread ≠ none) (holds : keeps store) : keeps after := by
  induction course with
  | ended => exact holds
  | failed stage =>
      exact step stage regular orderly (stage.grows.forall_registered fits) lasts holds
  | @went _ store between after _ stage rest ih =>
      have fitsBetween : ∀ mapping ∈ between.registry.mappings, layout.Fits mapping :=
        rest.grows.forall_registered fits
      have fitsBefore : ∀ mapping ∈ store.registry.mappings, layout.Fits mapping :=
        fun mapping member => fitsBetween mapping (stage.grows.registered mapping member)
      have regularBetween := stage.regular regular
      have orderlyBetween :=
        (stage.turn regular orderly fitsBefore).orderly orderly regular.leased
      have lastsBetween := rest.serving_of_lasts regularBetween orderlyBetween fits lasts
      exact ih (fun later => step later.weaken) regularBetween orderlyBetween fits lasts
        (step stage regular orderly fitsBefore lastsBetween holds)

/-! ### The store stays open -/

theorem UnitEnds.isOpen {issued : Question → Prop} {transactional : Bool}
    {gives : α × WriteSet → List Event → Prop} {outcome : Except Error α}
    (ends : UnitEnds session issued transactional gives store outcome after) :
    after.isOpen = store.isOpen := by
  cases ends with
  | closed _ => rfl
  | recorded _ _ _ _ _ => exact isOpen_recordWrites _ _ _
  | aborted _ _ _ _ _ => exact isOpen_restoreInstances _ _
  | unconnected _ _ _ => rfl
  | applied _ _ _ _ _ => exact isOpen_written _ _ _
  | failed _ _ _ _ _ => rfl

theorem Stage.isOpen (stage : Stage session poses store ok after) :
    after.isOpen = store.isOpen ∨ ∀ thread, after.serving thread = none := by
  cases stage with
  | quiet quiet => exact Or.inl quiet.isOpen
  | looked key => exact Or.inl rfl
  | cleared => exact Or.inl rfl
  | unit _ ends => exact Or.inl ends.isOpen
  | began _ ends =>
      cases ends <;> exact Or.inl rfl
  | committed _ ends =>
      cases ends with
      | committed _ _ _ _ => exact Or.inl (isOpen_written _ _ _)
      | refused _ _ _ _ _ =>
          exact Or.inl ((isOpen_invalidateOwners _ _).trans (isOpen_restoreInstances _ _))
      | _ => exact Or.inl rfl
  | rolledBack _ ends =>
      cases ends with
      | rolledBack _ _ _ _ =>
          exact Or.inl ((isOpen_invalidateOwners _ _).trans (isOpen_restoreInstances _ _))
      | _ => exact Or.inl rfl
  | closed _ ends =>
      cases ends with
      | again _ => exact Or.inl rfl
      | closed _ abandoned =>
          exact Or.inr fun thread =>
            serving_eq_none (congrArg (List.lookup thread) abandoned.transactions)

/-- A store that is found open stays open while a transaction lasts. -/
theorem Course.isOpen {thread : ThreadId} (course : Course session poses store ok after)
    (regular : store.Regular) (orderly : store.Orderly faithful)
    (fits : ∀ mapping ∈ after.registry.mappings, layout.Fits mapping)
    (lasts : after.serving thread ≠ none) (isOpen : store.isOpen = true) :
    after.isOpen = true := by
  refine @Course.kept _ _ _ _ _ _ _ _ _ (fun store => store.isOpen = true) course
    (fun stage _ _ _ still wasOpen => ?_) regular orderly fits lasts isOpen
  rcases stage.isOpen with same | ended
  · exact same.trans wasOpen
  · exact absurd (ended thread) still

/-- What a thread does in its transaction without writing rows keeps every row. -/
theorem Course.holds (course : Course session poses store ok after) (regular : store.Regular)
    (orderly : store.Orderly faithful)
    (fits : ∀ mapping ∈ after.registry.mappings, layout.Fits mapping)
    (free : ∀ task, poses task → task.writesRows = false)
    (lasts : after.serving session.thread ≠ none)
    (holds : store.Holds faithful session.thread address row) :
    after.Holds faithful session.thread address row ∧ store.ShowsOnly after := by
  refine @Course.kept _ _ _ _ _ _ _ _ _ (fun between =>
    between.Holds faithful session.thread address row ∧ store.ShowsOnly between) course
    (fun stage _ orderly fits still kept => ?_) regular orderly fits lasts
    ⟨holds, showsOnly_of_same rfl⟩
  obtain ⟨connection, _, serves, _⟩ := kept.1.changing
  have stays := stage.lasts serves still
  exact ⟨stays.holds orderly fits free serves kept.1,
    fun key row isShown => kept.2 key row (stays.shows key row isShown)⟩

/-- What another thread does while a transaction lasts keeps every row. -/
theorem Course.holds_beside {thread : ThreadId} (course : Course session poses store ok after)
    (regular : store.Regular) (orderly : store.Orderly faithful)
    (fits : ∀ mapping ∈ after.registry.mappings, layout.Fits mapping)
    (apart : session.thread ≠ thread) (lasts : after.serving thread ≠ none)
    (holds : store.Holds faithful thread address row) :
    after.Holds faithful thread address row := by
  refine @Course.kept _ _ _ _ _ _ _ _ _ (fun store =>
    store.Holds faithful thread address row) course
    (fun stage regular orderly fits still kept => ?_) regular orderly fits lasts holds
  obtain ⟨connection, _, serves, _⟩ := kept.changing
  obtain ⟨servesAfter, standing⟩ :=
    (stage.turn regular orderly fits).stands orderly regular.leased apart serves still
  exact kept.of_standing serves servesAfter standing

end Own
end Store
end EntityStore
