/-
Collections are forgotten when what they list may have changed. A save or a removal inside
a transaction notes the owners that it affects, and nobody holds collections as one of them
afterwards until one is read again; nor does anybody when the transaction is rolled back or
cannot be committed.
-/

import EntityStore.Proofs.AffectedOwners
import EntityStore.Proofs.Coherence
import EntityStore.Proofs.Gathering

set_option autoImplicit false

namespace EntityStore

namespace Store

variable {World α : Type} {session : Session World} {store between after : Store World}
  {thread : ThreadId} {poses : Task → Prop} {ok : Bool}

structure Retains (thread : ThreadId) (store after : Store World) : Prop where
  outside : store.transaction? thread = none → after.transaction? thread = none
  noted : after.transaction? thread = none ∨
    ∀ key ∈ (store.owed thread).owners, key ∈ (after.owed thread).owners

theorem Retains.trans (first : store.Retains thread between)
    (second : between.Retains thread after) : store.Retains thread after := by
  refine ⟨fun outside => second.outside (first.outside outside), ?_⟩
  rcases first.noted with ended | kept
  · exact Or.inl (second.outside ended)
  · rcases second.noted with ended | still
    · exact Or.inl ended
    · exact Or.inr fun key member => still key (kept key member)

theorem Retains.owed (retains : store.Retains thread after) (still : after.inTransaction thread = true)
    {key : Key} (noted : key ∈ (store.owed thread).owners) : key ∈ (after.owed thread).owners := by
  rcases retains.noted with ended | kept
  · unfold inTransaction at still
    rw [ended] at still
    cases still
  · exact kept key noted

private theorem retains_of_core (same : (after.transaction? thread).map Transaction.core
      = (store.transaction? thread).map Transaction.core) : store.Retains thread after := by
  have sameWrites : (after.transaction? thread).map Transaction.writes
      = (store.transaction? thread).map Transaction.writes := by
    have mapped := congrArg (Option.map Prod.snd) same
    rw [Option.map_map, Option.map_map] at mapped
    exact mapped
  refine ⟨fun outside => ?_, Or.inr fun key member => ?_⟩
  · rw [outside] at same
    exact Option.map_eq_none_iff.mp same
  · unfold owed at member ⊢
    rw [sameWrites]
    exact member

private theorem retains_of_same (same : after.transaction? thread = store.transaction? thread) :
    store.Retains thread after :=
  retains_of_core (congrArg _ same)

private theorem retains_of_dropped {other : ThreadId}
    (dropped : after.transactions = (store.dropTransaction other).transactions) :
    store.Retains thread after := by
  have same : after.transaction? thread = (store.dropTransaction other).transaction? thread := by
    unfold transaction?
    rw [dropped]
  by_cases own : thread = other
  · have ended : after.transaction? thread = none := by
      rw [same, own, transaction?_dropTransaction_self]
    exact ⟨fun _ => ended, Or.inl ended⟩
  · refine retains_of_same ?_
    rw [same, transaction?_dropTransaction_of_ne store own]

private theorem transaction?_recordWrites_of_ne {other : ThreadId} (different : other ≠ thread)
    (writes : WriteSet) (store : Store World) :
    (recordWrites thread writes store).transaction? other = store.transaction? other := by
  have kept : (Store.invalidateOwners writes.withoutFills.owners
      { store with cache := writes.withoutFills.evictTouched store.cache }).transaction? other
        = store.transaction? other := transaction?_of_frame (frame_invalidateOwners _ _) other
  unfold recordWrites
  dsimp only
  split
  · exact kept
  · exact (transaction?_setTransaction_of_ne _ _ different).trans kept

theorem UnitEnds.retains {issued : Question → Prop} {transactional : Bool}
    {gives : α × WriteSet → List Event → Prop} {outcome : Except Error α}
    (ends : UnitEnds session issued transactional gives store outcome after) (thread : ThreadId) :
    store.Retains thread after := by
  cases ends with
  | closed _ => exact retains_of_same rfl
  | @recorded transaction _ world _ _ writes _ inside _ _ _ =>
      by_cases own : thread = session.thread
      · subst own
        refine ⟨fun outside => ?_, Or.inr fun key member => ?_⟩
        · rw [inside] at outside
          cases outside
        · rw [owed_of_inside inside] at member
          rw [owed_recordWrites (show (store.withWorld world).transaction? session.thread = _
            from inside)]
          exact WriteSet.mem_append.mpr (Or.inl member)
      · exact retains_of_same (transaction?_recordWrites_of_ne own writes _)
  | aborted _ _ _ _ _ => exact retains_of_dropped (transactions_restoreInstances _ _)
  | unconnected _ _ _ => exact retains_of_same rfl
  | applied _ _ _ _ _ =>
      refine retains_of_same ?_
      exact congrArg (List.lookup thread) (transactions_written _ _ _)
  | failed _ _ _ _ _ => exact retains_of_same rfl

theorem Stage.retains (stage : Stage session poses store ok after) (plain : ¬poses .begin)
    (thread : ThreadId) : store.Retains thread after := by
  cases stage with
  | quiet quiet => exact retains_of_core (quiet.transactions thread)
  | looked key => exact retains_of_same rfl
  | cleared => exact retains_of_same rfl
  | unit _ ends => exact ends.retains thread
  | began posed _ => exact absurd posed plain
  | committed _ ends =>
      cases ends with
      | closed _ => exact retains_of_same rfl
      | notOpen _ _ => exact retains_of_same rfl
      | committed _ _ _ _ => exact retains_of_dropped (transactions_written _ _ _)
      | refused _ _ _ _ _ => exact retains_of_dropped (transactions_rolledBack _ _ _)
  | rolledBack _ ends =>
      cases ends with
      | closed _ => exact retains_of_same rfl
      | notOpen _ _ => exact retains_of_same rfl
      | rolledBack _ _ _ _ => exact retains_of_dropped (transactions_rolledBack _ _ _)
  | closed _ ends =>
      cases ends with
      | again _ => exact retains_of_same rfl
      | closed _ abandoned =>
          have ended := congrArg (List.lookup thread) abandoned.transactions
          exact ⟨fun _ => ended, Or.inl ended⟩

theorem Course.retains (course : Course session poses store ok after) (plain : ¬poses .begin)
    (thread : ThreadId) : store.Retains thread after := by
  induction course with
  | ended => exact retains_of_same rfl
  | failed stage => exact stage.retains plain thread
  | went stage _ ih => exact (stage.retains plain thread).trans (ih fun posed => posed)

theorem BeginEnds.noted {outcome : Except Error Unit} (ends : BeginEnds session store outcome after)
    (thread : ThreadId) : ∀ key ∈ (store.owed thread).owners, key ∈ (after.owed thread).owners := by
  intro key member
  cases ends with
  | closed _ => exact member
  | alreadyOpen _ _ => exact member
  | unconnected _ _ _ => exact member
  | begun _ outside _ _ _ =>
      by_cases own : thread = session.thread
      · unfold owed at member
        rw [own, outside] at member
        cases member
      · unfold owed at member ⊢
        rw [transaction?_setTransaction_of_ne _ _ own]
        exact member
  | refused _ _ _ _ _ => exact member

/-! ### The end of a transaction -/

private theorem disowns_restored {transaction : Transaction} (world : World) (lease : LeaseId)
    (isOpen : store.isOpen = true) (knows : store.KnowsOwners) :
    Disowns transaction.writes.owners
      ((invalidateOwners transaction.writes.owners (restoreInstances transaction
        ((store.dropTransaction session.thread).withWorld world))).released session lease) := by
  have dropped : store.Sheds ((store.dropTransaction session.thread).withWorld world) :=
    sheds_of_same rfl rfl rfl
  intro key member subject owns
  exact (sheds_rolledBack dropped isOpen).2 knows key member subject ⟨owns.held, owns.key⟩

/-- A commit that is refused leaves nobody who holds collections as an owner that the
transaction has affected. -/
theorem CommitEnds.forgets {outcome : Except Error Unit}
    (ends : CommitEnds session store outcome after) (refused : outcome.isOk = false)
    (inside : store.inTransaction session.thread = true)
    (ended : after.inTransaction session.thread = false) (knows : store.KnowsOwners) :
    after.Disowns (store.owed session.thread).owners := by
  cases ends with
  | closed _ =>
      rw [inside] at ended
      cases ended
  | notOpen _ _ =>
      rw [inside] at ended
      cases ended
  | committed _ _ _ _ => cases refused
  | @refused _ _ _ world _ _ isOpen isInside _ _ _ =>
      rw [owed_of_inside isInside]
      exact disowns_restored world _ isOpen knows

theorem RollbackEnds.forgets {outcome : Except Error Unit}
    (ends : RollbackEnds session store outcome after)
    (inside : store.inTransaction session.thread = true)
    (ended : after.inTransaction session.thread = false) (knows : store.KnowsOwners) :
    after.Disowns (store.owed session.thread).owners := by
  cases ends with
  | closed _ =>
      rw [inside] at ended
      cases ended
  | notOpen _ _ =>
      rw [inside] at ended
      cases ended
  | @rolledBack _ _ world _ isOpen isInside _ _ =>
      rw [owed_of_inside isInside]
      exact disowns_restored world _ isOpen knows

/-! ### What is noted -/

/-- A unit that succeeds inside a transaction notes the owners of its writes, and nobody
holds collections as one of them afterwards. -/
theorem UnitEnds.noted {issued : Question → Prop} {transactional : Bool}
    {gives : α × WriteSet → List Event → Prop} {result : α}
    (ends : UnitEnds session issued transactional gives store (.ok result) after)
    (inside : store.inTransaction session.thread = true) (knows : store.KnowsOwners) :
    ∃ connection log writes, gives (result, writes) log ∧
      Asked session.database issued connection store.pool.world log after.pool.world ∧
      after.Disowns writes.owners ∧
      ∀ key ∈ writes.owners, key.hasId = true → key ∈ (after.owed session.thread).owners := by
  cases ends with
  | @recorded transaction connection world log _ writes isOpen isInside _ asked given =>
      have worked : store.Sheds (store.withWorld world) := sheds_of_same rfl rfl rfl
      refine ⟨connection, log, writes, given, ?_, ?_, fun key member hasId => ?_⟩
      · rw [pool_recordWrites]
        exact asked
      · exact disowns_recordWrites (worked.knows knows) isOpen _ _
      · rw [owed_recordWrites (show (store.withWorld world).transaction? session.thread = _
          from isInside)]
        exact WriteSet.mem_append.mpr (Or.inr ⟨member, hasId⟩)
  | applied _ outside _ _ _ =>
      unfold inTransaction at inside
      rw [outside] at inside
      cases inside

/-- What is noted stays noted, and what was forgotten stays forgotten, while instances are
settled. -/
theorem noted_of_follows {operation : Operation World α} {result : α} {keys : List Key} {key : Key}
    (follows : Follows session (fun _ => False) operation store) (discreet : Discreet operation store)
    (ran : operation.run store = (.ok result, after)) (knows : store.KnowsOwners)
    (still : after.inTransaction session.thread = true) (disowns : store.Disowns keys)
    (member : key ∈ keys) (noted : key ∈ (store.owed session.thread).owners) :
    key ∈ (after.owed session.thread).owners ∧ ∀ subject, ¬after.Owns subject key := by
  have retains := (follows.of_run ran).retains (fun impossible => impossible) session.thread
  have sheds : store.Sheds after := discreet.of_run ran
  exact ⟨retains.owed still noted, disowns.sheds knows sheds key member⟩

/-- How a removal that succeeds ends: a new instance has no row, and any other has an id under
which its row is deleted. -/
theorem remove_ok {subject : InstanceId} (regular : store.Regular)
    (inMemory : subject < store.memory.size)
    (ran : (remove session subject).run store = (.ok (), after)) :
    ∃ between, (withdraw session subject).run between = (.ok (), after) ∧
      (((store.instanceAt subject).state = .transient ∧ between = store) ∨
        UnitEnds session (Question.Issued (· ∈ store.registry.mappings) true) true
          (fun result log => (Task.removal (store.instanceAt subject)).Gives session.dialect
            (· ∈ store.registry.mappings) result.2 log) store (.ok ()) between) := by
  have registered := (regular.sound.instanceAt inMemory).registered
  unfold remove at ran
  obtain ⟨_, ran⟩ := run_ensureOpen_bind_eq_ok.mp ran
  obtain ⟨_, _, got, ran⟩ := run_bind_eq_ok.mp ran
  cases got
  dsimp only at ran
  split at ran
  · cases ran
  · rename_i isNew
    exact ⟨_, ran, Or.inl ⟨isNew, rfl⟩⟩
  · cases ran
  · rename_i id keyed _ _
    obtain ⟨_, between, ranUnit, ranWithdraw⟩ := run_bind_eq_ok.mp ran
    refine ⟨between, ranWithdraw, Or.inr ?_⟩
    exact (ensures_unit (fun _ => asks_removal registered keyed) fun _ inside =>
      regular.leased.connection inside).of_run ranUnit

theorem look_withdraw {subject : InstanceId} (inMemory : subject < store.memory.size)
    (ran : (withdraw session subject).run store = (.ok (), after)) :
    after.look subject = Snapshot.ofInstance (store.instanceAt subject).withdraw := by
  cases ran
  rw [look_modifyInstance, size_rememberInTransaction, if_pos ⟨rfl, inMemory⟩,
    instanceAt_rememberInTransaction]

theorem pool_withdraw {subject : InstanceId}
    (ran : (withdraw session subject).run store = (.ok (), after)) : after.pool = store.pool := by
  cases ran
  unfold modifyInstance rememberInTransaction
  split <;> rfl

end Store

/-! ### Acts -/

namespace Deployment

variable {World : Type} {inner : Deployment World} {store after : Store (Journaled World)}
  {thread : ThreadId} {outcome : Except Error Unit} {key : Key}

private theorem logOf_of_pool {act : Act (Journaled World)} (same : act.after.pool = store.pool) :
    logOf store act = [] := by
  unfold logOf
  rw [same, List.drop_length]
  rfl

section Acts

variable (regular : store.Regular) (knows : store.KnowsOwners)
  (inside : store.inTransaction thread = true) (still : after.inTransaction thread = true)
  (hasId : key.hasId = true)
include regular knows inside still hasId

private theorem noted_of_save {root : InstanceId} (inMemory : root < store.memory.size)
    (ran : (Store.save (inner.journaled.session thread) root).run store = (.ok (), after))
    (affects : (Action.save root).Affects store after
      (logOf store ⟨thread, .save root, .ok (), after⟩) key) :
    key ∈ (after.owed thread).owners ∧ ∀ subject, ¬after.Owns subject key := by
  have sound := regular.sound
  obtain ⟨graph, _, collected, ends⟩ := Store.save_ok regular ran
  cases ends with
  | unchanged nothing =>
      -- Nothing was changed, so nothing is affected.
      have settles (subject : InstanceId) : ¬(Action.save root).Settles store subject := by
        rintro ⟨reaches, needed⟩
        rw [sound.needsWrite_of_reached inMemory collected reaches needed] at nothing
        cases nothing
      rw [@logOf_of_pool _ store ⟨thread, .save root, .ok (), store⟩ rfl] at affects
      cases affects with
      | settled impossible => exact absurd impossible (settles _)
      | known impossible _ _ _ => exact absurd impossible (settles _)
      | fetched impossible _ _ =>
          rw [show fetches [] = [] from rfl, List.zip_nil_right] at impossible
          cases impossible
      | now impossible _ _ => exact absurd impossible (settles _)
  | @written written between _ unit settled =>
      have silent : store.Silent between := unit.read sound
      obtain ⟨connection, log, writes, ⟨writing, same, rfl⟩, asked, disowns, noted⟩ :=
        unit.noted inside knows
      cases same
      rw [← Store.pool_settleAll settled] at asked
      rw [@logOf_eq _ inner connection store ⟨thread, .save root, .ok (), after⟩ _ _ asked] at affects
      have member := Store.mem_owners_of_save regular inMemory collected writing unit.idOf silent
        settled affects hasId
      refine Store.noted_of_follows (Store.follows_settleAll fun one isWritten => ?_)
        (Store.discreet_settleAll _) settled (unit.sheds.knows knows) still disowns member
        (noted key member hasId)
      exact silent.size ▸ (sound.of_plan collected (writing.planned_mem isWritten)).1

private theorem noted_of_removal {subject : InstanceId} (inMemory : subject < store.memory.size)
    (ran : (Store.remove (inner.journaled.session thread) subject).run store = (.ok (), after))
    (affects : (Action.remove subject).Affects store after
      (logOf store ⟨thread, .remove subject, .ok (), after⟩) key) :
    key ∈ (after.owed thread).owners ∧ ∀ other, ¬after.Owns other key := by
  have sound := regular.sound
  obtain ⟨between, withdrawn, ⟨isNew, rfl⟩ | unit⟩ := Store.remove_ok regular inMemory ran
  · -- A new instance has neither an id nor a row.
    rw [@logOf_of_pool _ between ⟨thread, .remove subject, .ok (), after⟩
      (Store.pool_withdraw withdrawn)] at affects
    have look := Store.look_withdraw inMemory withdrawn
    have fresh := (sound.instanceAt inMemory).sound.fresh isNew
    cases affects with
    | settled settles =>
        obtain rfl := settles
        have isKey : (after.instanceAt _).key = (between.instanceAt _).key :=
          congrArg Snapshot.key look
        unfold Key.hasId at hasId
        rw [isKey, show (between.instanceAt _).key.id = none from fresh] at hasId
        cases hasId
    | known settles notNew _ _ =>
        obtain rfl := settles
        exact absurd isNew notNew
    | fetched impossible _ _ =>
        rw [show fetches [] = [] from rfl, List.zip_nil_right] at impossible
        cases impossible
    | now settles isRow _ =>
        obtain rfl := settles
        rw [show (after.instanceAt _).row = none from congrArg Snapshot.row look] at isRow
        cases isRow
  · have silent : store.Silent between := unit.read sound
    obtain ⟨connection, log, writes, given, asked, disowns, noted⟩ := unit.noted inside knows
    rw [← Store.pool_withdraw withdrawn] at asked
    rw [@logOf_eq _ inner connection store ⟨thread, .remove subject, .ok (), after⟩ _ _ asked]
      at affects
    have inMemoryStill : subject < between.memory.size := silent.size ▸ inMemory
    have look := Store.look_withdraw inMemoryStill withdrawn
    have sameKey : (between.instanceAt subject).key = (store.instanceAt subject).key :=
      congrArg Snapshot.key (silent.look subject)
    cases given with
    | removal keyed known =>
        have member := Store.mem_owners_of_removal keyed known
          (look.trans (congrArg (fun key => Snapshot.mk key .removed none []) sameKey)) affects hasId
        exact Store.noted_of_follows (Store.follows_withdraw inMemoryStill)
          (Store.discreet_withdraw subject) withdrawn (unit.sheds.knows knows) still disowns member
          (noted key member hasId)

/-- An act that affects an owner inside a transaction notes it, and nobody holds collections
as this owner any more. -/
theorem noted_of_act {action : Action} (inMemory : action.InMemory store.memory.size)
    (ran : (action.perform (inner.journaled.session thread)).run store = (outcome, after))
    (affects : Act.Affects ⟨thread, action, outcome, after⟩ thread store key) :
    key ∈ (after.owed thread).owners ∧ ∀ subject, ¬after.Owns subject key := by
  obtain ⟨_, isOk, affects⟩ := affects
  cases outcome with
  | error error => cases isOk
  | ok result =>
      cases action with
      | save root => exact noted_of_save regular knows inside still hasId inMemory ran affects
      | remove subject => exact noted_of_removal regular knows inside still hasId inMemory ran affects
      | _ =>
          cases affects with
          | settled impossible => cases impossible
          | known impossible _ _ _ => cases impossible
          | fetched impossible _ _ => cases impossible
          | now impossible _ _ => cases impossible

end Acts

theorem poses_begin {session : Session World} {store : Store World} {action : Action}
    (posed : action.Poses session store .begin) : action = .begin := by
  cases action with
  | begin => rfl
  | save root =>
      obtain ⟨_, _, impossible⟩ := posed
      cases impossible
  | _ => cases posed

/-- Whatever a transaction has noted stays noted as long as it lasts. -/
theorem owed_of_act {deployment : Deployment World} {store after : Store World} {other : ThreadId}
    {action : Action} (regular : store.Regular) (inMemory : action.InMemory store.memory.size)
    (ran : (action.perform (deployment.session other)).run store = (outcome, after))
    (still : after.inTransaction thread = true) (noted : key ∈ (store.owed thread).owners) :
    key ∈ (after.owed thread).owners := by
  by_cases begins : action = .begin
  · subst begins
    exact ((Store.ensures_beginTransaction (deployment.session other) store).of_run ran).noted
      thread key noted
  · have course := (Action.follows_perform regular inMemory).of_run ran
    exact (course.retains (fun posed => begins (poses_begin posed)) thread).owed still noted

/-! ### Runs -/

section Runs

variable {deployment : Deployment World} {opened closing after : Store World} {acts : List (Act World)}

theorem owed_of_run (run : deployment.Run opened acts closing) (regular : opened.Regular)
    (stays : ∀ act ∈ acts, act.after.inTransaction thread = true)
    (noted : key ∈ (opened.owed thread).owners) : key ∈ (closing.owed thread).owners := by
  induction run with
  | nil store => exact noted
  | cons inMemory ran _ ih =>
      have course := (Action.follows_perform regular inMemory).of_run ran
      exact ih (course.regular regular)
        (fun act member => stays act (List.mem_cons_of_mem _ member))
        (owed_of_act regular inMemory ran (stays _ List.mem_cons_self) noted)

private theorem inTransaction_left (inside : opened.inTransaction thread = true)
    (stays : ∀ act ∈ acts, act.after.inTransaction thread = true) :
    (left opened acts).inTransaction thread = true := by
  induction acts generalizing opened with
  | nil => exact inside
  | cons act rest ih =>
      exact ih (stays act List.mem_cons_self) fun other member =>
        stays other (List.mem_cons_of_mem _ member)

section End

variable {action : Action} (regular : closing.Regular) (knows : closing.KnowsOwners)
  (inMemory : action.InMemory closing.memory.size)
  (ran : (action.perform (deployment.session thread)).run closing = (outcome, after))
  (inside : closing.inTransaction thread = true) (ended : after.inTransaction thread = false)
include regular inMemory ran inside ended

private theorem collects_nothing (subject : InstanceId) :
    ¬(outcome.isOk = true ∧ action.Collects subject) := by
  rintro ⟨isOk, name, rfl⟩
  have passed := (Action.passes_perform regular inMemory rfl).of_run ran
  rw [Store.inTransaction_eq] at inside ended
  cases passed with
  | kept passes =>
      rw [passes.kept, inside] at ended
      cases ended
  | aborted _ => cases isOk

include knows

private theorem owns_before_end {subject : InstanceId} (owns : after.Owns subject key) :
    closing.Owns subject key := by
  have gathers := (Action.gathers_perform regular inMemory).of_run ran
  exact (gathers.owns knows subject key owns).resolve_right
    (collects_nothing regular inMemory ran inside ended subject)

/-- To roll a transaction back, or to fail to commit it, forgets the collections of all the
owners that it has affected. -/
theorem disowns_of_end (uncommitted : ¬(action = .commit ∧ outcome.isOk = true))
    (called : action = .commit ∨ action = .rollback) :
    after.Disowns (closing.owed thread).owners := by
  rcases called with rfl | rfl
  · have refused : outcome.isOk = false :=
      Bool.not_eq_true _ ▸ fun isOk => uncommitted ⟨rfl, isOk⟩
    exact ((Store.ensures_commitTransaction fun _ isInside =>
      regular.leased.connection isInside).of_run ran).forgets refused inside ended knows
  · exact ((Store.ensures_rollbackTransaction fun _ isInside =>
      regular.leased.connection isInside).of_run ran).forgets inside ended knows

end End

end Runs

end Deployment

namespace Samples

def circle : List Definition := [("Person", ({} : MappingSpec)
  |>.withProperty "name" (.bare "string")
  |>.withProperty "friend" (.detailed (PropertyOptions.object "Person"))
  |>.withProperty "friends" (.detailed (.collection "from Person where Person.friend = :id")))]

def acquainted : List (ThreadId × Action) := [
  (0, .define circle), (0, .sync), (0, person "Ada"), (0, .save 0)]

/-- Bo is saved as a friend of Ada, and her friends are read; then there is something whose
type has no table. -/
def befriended : List (ThreadId × Action) := [
  (0, .create "Person" [("name", .value (.text "Bo")), ("friend", .entity 0)]),
  (0, .save 1), (0, .readCollection 0 "friends"),
  (0, .define [("Ghost", ({} : MappingSpec).withProperty "name" (.bare "string"))]),
  (0, .create "Ghost" [])]

end Samples

namespace Deployment

variable {World : Type} {inner : Deployment World} {opened closing after : Store (Journaled World)}
  {thread : ThreadId} {outcome : Except Error Unit} {key : Key} {acts : List (Act (Journaled World))}

/-- An explicit transaction ends without being committed. If it is rolled back or cannot be
committed, no instance holds collections any more as an owner that a save or a removal in it
has affected. If an operation in it fails, nothing more is forgotten: whoever holds such
collections has read them in the transaction after the save or the removal. -/
theorem aborted_forgets {allowed : Store (Journaled World) → ThreadId → Action → Prop}
    {store : Store (Journaled World)} {action : Action} {earlier later : List (Act (Journaled World))}
    {act : Act (Journaled World)} {subject : InstanceId}
    (reached : inner.journaled.Reached allowed store)
    (begun : (Store.beginTransaction (inner.journaled.session thread)).run store = (.ok (), opened))
    (run : inner.journaled.Run opened acts closing)
    (stays : ∀ act ∈ acts, act.after.inTransaction thread = true)
    (inMemory : action.InMemory closing.memory.size)
    (ran : (action.perform (inner.journaled.session thread)).run closing = (outcome, after))
    (ended : after.inTransaction thread = false)
    (uncommitted : ¬(action = .commit ∧ outcome.isOk = true))
    (split : acts = earlier ++ act :: later)
    (affects : act.Affects thread (left opened earlier) key) (owns : after.Owns subject key) :
    (action ≠ .commit ∧ action ≠ .rollback) ∧
      ∃ first read last, later = first ++ read :: last ∧ read.action.Collects subject ∧
        ¬(left act.after first).Owns subject key ∧ read.after.Owns subject key := by
  obtain ⟨regular, empty⟩ := begun_with reached.regular begun
  have begins : opened.inTransaction thread = true := by
    rw [Store.inTransaction_eq, empty]
    rfl
  have sheds : store.Sheds opened :=
    ((Store.ensures_beginTransaction (inner.journaled.session thread) store).of_run begun).sheds
  have knows : opened.KnowsOwners := sheds.knows reached.knowsOwners
  have inside : closing.inTransaction thread = true := by
    rw [← run.left_eq]
    exact inTransaction_left begins stays
  have knowsClosing := run.knowsOwners regular knows
  have held := owns_before_end (run.regular regular) knowsClosing inMemory ran inside ended owns
  have hasId := knowsClosing.keyed subject key held
  -- The run up to the act that affects the owner, this act, and the run after it.
  subst split
  obtain ⟨runEarlier, runAct⟩ := run.split
  have regularEarlier := runEarlier.regular regular
  have knowsEarlier := runEarlier.knowsOwners regular knows
  have insideEarlier := inTransaction_left begins fun other member =>
    stays other (List.mem_append_left _ member)
  have still := stays act (List.mem_append_right _ List.mem_cons_self)
  have staysLater : ∀ other ∈ later, other.after.inTransaction thread = true :=
    fun other member => stays other (List.mem_append_right _ (List.mem_cons_of_mem _ member))
  cases runAct with
  | @cons _ between _ other _ _ _ actInMemory ranAct runLater =>
      obtain rfl : other = thread := affects.1
      obtain ⟨noted, forgotten⟩ := noted_of_act regularEarlier knowsEarlier insideEarlier still
        hasId actInMemory ranAct affects
      have regularBetween :=
        ((Action.follows_perform regularEarlier actInMemory).of_run ranAct).regular regularEarlier
      have knowsBetween :=
        ((Action.gathers_perform regularEarlier actInMemory).of_run ranAct).knows knowsEarlier
      have owed := owed_of_run runLater regularBetween staysLater noted
      refine ⟨not_or.mp fun called => ?_, ?_⟩
      · exact disowns_of_end (run.regular regular) knowsClosing inMemory ran inside ended
          uncommitted called key owed subject owns
      · obtain before | ⟨first, read, last, split, facts⟩ :=
          runLater.owns regularBetween knowsBetween held
        · exact absurd before (forgotten subject)
        · exact ⟨first, read, last, split, facts⟩

set_option maxRecDepth 100000 in
/-- Bo is saved as a friend of Ada, and her friends are read. After the transaction is rolled
back nobody holds her friends any more; if it ends by a save that fails, Ada still does, and
she has read them after Bo was saved. -/
theorem aborted_forgets_friends :
    ∃ store opened closing rolledBack failed : Store (Journaled Tables.World),
    ∃ before save read last, ∃ error,
      (Store.beginTransaction (Samples.deployment.journaled.session 0)).run store
        = (.ok (), opened) ∧
      Samples.deployment.journaled.Run opened (before ++ save :: read :: last) closing ∧
      save.Affects 0 (left opened before) ⟨"Person", some 1⟩ ∧
      closing.Owns 0 ⟨"Person", some 1⟩ ∧
      (Store.rollbackTransaction (Samples.deployment.journaled.session 0)).run closing
        = (.ok (), rolledBack) ∧
      (∀ subject, ¬rolledBack.Owns subject ⟨"Person", some 1⟩) ∧
      (Store.save (Samples.deployment.journaled.session 0) 3).run closing
        = (.error error, failed) ∧
      failed.Owns 0 ⟨"Person", some 1⟩ ∧ failed.inTransaction 0 = false ∧
      ∃ first other rest, read :: last = first ++ other :: rest ∧ other.action.Collects 0 := by
  obtain ⟨store, visited⟩ : ∃ store,
      Samples.deployment.journaled.visited? Samples.acquainted = some store :=
    Option.isSome_iff_exists.mp (by decide +kernel)
  have facts : ∀ store ∈ Samples.deployment.journaled.visited? Samples.acquainted,
      let begun := (Store.beginTransaction (Samples.deployment.journaled.session 0)).run store
      let acts := Samples.deployment.journaled.enact Samples.befriended begun.2
      let before := left begun.2 (acts.take 1)
      let saved := left begun.2 (acts.take 2)
      let closing := left begun.2 acts
      let rolledBack :=
        (Store.rollbackTransaction (Samples.deployment.journaled.session 0)).run closing
      let failed := (Store.save (Samples.deployment.journaled.session 0) 3).run closing
      begun.1.isOk = true ∧ named begun.2 acts = true ∧ rolledBack.1.isOk = true ∧
        failed.1.isOk = false ∧
        (∀ act ∈ acts, act.outcome.isOk = true ∧ act.after.inTransaction 0 = true) ∧
        rolledBack.2.inTransaction 0 = false ∧ failed.2.inTransaction 0 = false ∧
        3 < closing.memory.size ∧ (before.instanceAt 1).needsWrite = true ∧
        (∃ row ∈ (saved.instanceAt 1).row,
          (⟨"Person", some 1⟩ : Key) ∈ (before.instanceAt 1).mapping.targetsOf row) ∧
        ((closing.instanceAt 0).collections ≠ [] ∧
          (closing.instanceAt 0).key = ⟨"Person", some 1⟩) ∧
        (failed.2.instanceAt 0).collections ≠ [] ∧
        (failed.2.instanceAt 0).key = ⟨"Person", some 1⟩ := by
    decide +kernel
  obtain ⟨isOk, inMemory, rolled, fails, acted, ended, lost, present, needed,
    ⟨row, isRow, refers⟩, held, kept⟩ := facts store visited
  have reached := reached_visited (fun _ _ _ _ => trivial) visited
  generalize begun : (Store.beginTransaction (Samples.deployment.journaled.session 0)).run store
    = result at isOk inMemory rolled fails acted ended lost present needed isRow refers held kept
  obtain ⟨outcome | _, opened⟩ := result
  · cases isOk
  generalize ranRolled : (Store.rollbackTransaction
    (Samples.deployment.journaled.session 0)).run (left opened _) = result at rolled ended
  obtain ⟨outcome | _, rolledBack⟩ := result
  · cases rolled
  generalize ranFailed : (Store.save (Samples.deployment.journaled.session 0) 3).run
    (left opened _) = result at fails lost kept
  obtain ⟨error | _, failed⟩ := result
  rotate_left
  · cases fails
  have run := run_enact inMemory
  have stays := fun act member => (acted act member).2
  have split : Samples.deployment.journaled.enact Samples.befriended opened
      = (Samples.deployment.journaled.enact Samples.befriended opened).take 1 ++ _ :: _ :: _ := rfl
  have affects : Act.Affects _ 0 (left opened
      ((Samples.deployment.journaled.enact Samples.befriended opened).take 1)) ⟨"Person", some 1⟩ :=
    ⟨rfl, (acted _ (List.mem_cons_of_mem _ List.mem_cons_self)).1,
      .now ⟨.refl, needed⟩ isRow (Mapping.mem_targetsOf.mp refers)⟩
  refine ⟨store, opened, _, rolledBack, failed, _, _, _, _, error, begun, split ▸ run, affects,
    ⟨held.1, held.2⟩, ranRolled, fun subject owns => ?_, ranFailed, ⟨kept.1, kept.2⟩, lost, ?_⟩
  · have forgets := @aborted_forgets _ _ _ _ _ _ _ _ _ _ _ .rollback _ _ _ subject reached begun run
      stays trivial ranRolled ended (by rintro ⟨⟨⟩, _⟩) split affects owns
    exact forgets.1.2 rfl
  · obtain ⟨_, first, other, rest, isRead, collects, _⟩ :=
      @aborted_forgets _ _ _ _ _ _ _ _ _ _ _ (.save 3) _ _ _ 0 reached begun run stays present
        ranFailed lost (by rintro ⟨⟨⟩, _⟩) split affects ⟨kept.1, kept.2⟩
    exact ⟨first, other, rest, isRead, collects⟩

end Deployment
end EntityStore
