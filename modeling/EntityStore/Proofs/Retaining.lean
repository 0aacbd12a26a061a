/-
An id is for good, and so is a removal, as long as the transaction that they came about in
is not aborted. Every act of a thread leaves them, or it ends the thread's transaction
without committing it; then what is lost is what that very transaction has brought.
-/

import EntityStore.Proofs.PuttingBack
import EntityStore.Proofs.Steps
import EntityStore.Proofs.Transactions

set_option autoImplicit false

namespace EntityStore

structure Instance.Persists (content later : Instance) : Prop where
  removed : content.state = .removed → later.state = .removed
  id : ∀ id, content.key.id = some id → later.key.id = some id
  entity : later.key.entityType = content.key.entityType

namespace Instance.Persists

variable {first second third content : Instance}

theorem refl (content : Instance) : content.Persists content :=
  ⟨fun removed => removed, fun _ known => known, rfl⟩

private theorem trans (earlier : first.Persists second) (later : second.Persists third) :
    first.Persists third :=
  ⟨fun removed => later.removed (earlier.removed removed),
    fun id known => later.id id (earlier.id id known), later.entity.trans earlier.entity⟩

private theorem of_same (state : second.state = first.state) (key : second.key = first.key) :
    first.Persists second :=
  ⟨fun removed => state.trans removed, fun _ known => (congrArg Key.id key).trans known,
    congrArg Key.entityType key⟩

private theorem assign (present : content.state ≠ .removed) (name : String)
    (value : PropertyValue) :
    content.Persists (content.assign name value) :=
  ⟨fun removed => absurd removed present, fun _ known => known, rfl⟩

private theorem settle (present : content.state ≠ .removed) (id : Int64) (row : Row) :
    content.Persists (content.settle id row) where
  removed removed := absurd removed present
  id _ known := by
    have keyed : content.key.hasId = true := by
      unfold Key.hasId
      rw [known]
      rfl
    unfold Instance.settle
    rw [if_pos keyed]
    exact known
  entity := by
    unfold Instance.settle
    dsimp only
    split <;> rfl

private theorem withdraw (content : Instance) : content.Persists content.withdraw :=
  ⟨fun _ => rfl, fun _ known => known, rfl⟩

end Instance.Persists

namespace Store

variable {World α : Type} {session : Session World} {store between after : Store World}
  {poses : Task → Prop} {clears : Prop} {ok : Bool} {thread : ThreadId}

structure Persists (store after : Store World) : Prop where
  size : store.memory.size ≤ after.memory.size
  instances : ∀ subject, subject < store.memory.size →
    (store.instanceAt subject).Persists (after.instanceAt subject)

theorem Persists.refl (store : Store World) : store.Persists store :=
  ⟨Nat.le_refl _, fun _ _ => .refl _⟩

theorem Persists.trans (first : store.Persists between) (second : between.Persists after) :
    store.Persists after :=
  ⟨Nat.le_trans first.size second.size, fun subject inMemory =>
    (first.instances subject inMemory).trans
      (second.instances subject (Nat.lt_of_lt_of_le inMemory first.size))⟩

theorem Silent.persists (silent : store.Silent after) : store.Persists after :=
  ⟨Nat.le_of_eq silent.size.symm, fun subject _ =>
    .of_same (congrArg Snapshot.state (silent.look subject))
      (congrArg Snapshot.key (silent.look subject))⟩

theorem Silent.inTransaction (silent : store.Silent after) (thread : ThreadId) :
    after.inTransaction thread = store.inTransaction thread := by
  rw [inTransaction_eq, inTransaction_eq, silent.kept thread]

private theorem persists_modifyInstance {edit : Instance → Instance} {subject : InstanceId}
    (persists : (store.instanceAt subject).Persists (edit (store.instanceAt subject))) :
    store.Persists (store.modifyInstance edit subject) := by
  refine ⟨Nat.le_of_eq (size_modifyInstance store edit subject).symm, fun other _ => ?_⟩
  rw [instanceAt_modifyInstance]
  split
  · rename_i both
    exact both.1 ▸ persists
  · exact .refl _

private theorem persists_rememberInTransaction (thread : ThreadId) (subject : InstanceId)
    (store : Store World) : store.Persists (store.rememberInTransaction thread subject) := by
  refine ⟨Nat.le_of_eq (size_rememberInTransaction thread subject store).symm, fun other _ => ?_⟩
  rw [instanceAt_rememberInTransaction]
  exact .refl _

theorem Edit.persists (edit : Edit thread store after) : store.Persists after := by
  cases edit with
  | defined _ => exact ⟨Nat.le_refl _, fun _ _ => .refl _⟩
  | added _ =>
      refine ⟨by simp [addInstance], fun subject inMemory => ?_⟩
      rw [instanceAt_addInstance, if_neg (Nat.ne_of_lt inMemory)]
      exact .refl _
  | assigned name present _ => exact persists_modifyInstance (.assign present name _)
  | loaded row _ => exact persists_modifyInstance (.of_same rfl rfl)
  | missed _ => exact persists_modifyInstance (.of_same rfl rfl)
  | @collected subject _ name members _ _ =>
      have placed : store.Persists (store.modifyInstance (fun content => { content with
          collections := Row.place name members content.collections }) subject) :=
        persists_modifyInstance (.of_same rfl rfl)
      exact ⟨placed.size, placed.instances⟩
  | forgot subject => exact persists_modifyInstance (.of_same rfl rfl)
  | settled id row present =>
      refine (persists_rememberInTransaction _ _ store).trans (persists_modifyInstance ?_)
      rw [instanceAt_rememberInTransaction]
      exact .settle present id row
  | withdrawn present =>
      exact (persists_rememberInTransaction _ _ store).trans
        (persists_modifyInstance (.withdraw _))

/-! ### Operations -/

def PersistsOrAborts (thread : ThreadId) (store : Store World) (ok : Bool) (after : Store World) :
    Prop :=
  (after.inTransaction thread = store.inTransaction thread ∧ store.Persists after) ∨
    (ok = false ∧ store.inTransaction thread = true ∧ after.inTransaction thread = false)

theorem Silent.persistsOrAborts (silent : store.Silent after) :
    PersistsOrAborts thread store ok after :=
  Or.inl ⟨silent.inTransaction thread, silent.persists⟩

theorem inTransaction_of_dropped (store : Store World) {dropped : Store World}
    (same : dropped.transactions = (store.dropTransaction thread).transactions) :
    dropped.inTransaction thread = false := by
  have gone : dropped.transaction? thread = none := by
    rw [transaction?, same]
    exact transaction?_dropTransaction_self store thread
  unfold inTransaction
  rw [gone]
  rfl

theorem inTransaction_of_inside {transaction : Transaction}
    (inside : store.transaction? thread = some transaction) :
    store.inTransaction thread = true := by
  unfold inTransaction
  rw [inside]
  rfl

theorem UnitEnds.persistsOrAborts {issued : Question → Prop} {transactional : Bool}
    {gives : α × WriteSet → List Event → Prop} {outcome : Except Error α} (sound : store.Sound)
    (ends : UnitEnds session issued transactional gives store outcome after) :
    PersistsOrAborts session.thread store outcome.isOk after := by
  cases outcome with
  | ok result =>
      have silent : store.Silent after := ends.read sound
      exact silent.persistsOrAborts
  | error error =>
      cases ends with
      | closed _ => exact (Silent.refl store).persistsOrAborts
      | aborted _ inside _ _ _ =>
          refine Or.inr ⟨rfl, inTransaction_of_inside inside,
        inTransaction_of_dropped store ?_⟩
          exact transactions_restoreInstances _ _
      | unconnected _ _ _ => exact Silent.persistsOrAborts (silent_of_same rfl rfl)
      | failed _ _ _ _ _ => exact Silent.persistsOrAborts (silent_of_same rfl rfl)

theorem Edit.inTransaction (edit : Edit thread store after) (other : ThreadId) :
    after.inTransaction other = store.inTransaction other := by
  have same := congrArg Option.isSome (edit.quiet.transactions other)
  rwa [Option.isSome_map, Option.isSome_map] at same

section Inner

variable (inner : ∀ task, poses task → task.bounds = false)
include inner

theorem Step.persistsOrAborts (step : Step session poses clears store ok after)
    (regular : store.Regular) : PersistsOrAborts session.thread store ok after := by
  cases step with
  | edited edit => exact Or.inl ⟨edit.inTransaction _, edit.persists⟩
  | looked key => exact Silent.persistsOrAborts (silent_of_same rfl rfl)
  | cleared _ => exact Silent.persistsOrAborts (silent_of_same rfl rfl)
  | unit _ ends => exact ends.persistsOrAborts regular.sound
  | began posed _ => exact nomatch inner _ posed
  | committed posed _ => exact nomatch inner _ posed
  | rolledBack posed _ => exact nomatch inner _ posed
  | closed posed _ => exact nomatch inner _ posed

theorem Path.persistsOrAborts (path : Path session poses clears store ok after)
    (regular : store.Regular) : PersistsOrAborts session.thread store ok after := by
  induction path with
  | ended ok store => exact (Silent.refl store).persistsOrAborts
  | failed step => exact step.persistsOrAborts inner regular
  | went step _ ih =>
      obtain ⟨same, persists⟩ | ⟨impossible, _⟩ := step.persistsOrAborts inner regular
      · obtain ⟨later, persistsLater⟩ | ⟨failed, inside, ended⟩ :=
          ih (step.stage.regular regular)
        · exact Or.inl ⟨later.trans same, persists.trans persistsLater⟩
        · exact Or.inr ⟨failed, same.symm.trans inside, ended⟩
      · cases impossible

end Inner

/-! ### Boundaries -/

theorem CommitEnds.eq_of_outside {outcome : Except Error Unit}
    (ends : CommitEnds session store outcome after)
    (outside : store.transaction? session.thread = none) : after = store := by
  cases ends with
  | closed _ => rfl
  | notOpen _ _ => rfl
  | committed _ inside _ _ => exact nomatch outside.symm.trans inside
  | refused _ inside _ _ _ => exact nomatch outside.symm.trans inside

theorem RollbackEnds.eq_of_outside {outcome : Except Error Unit}
    (ends : RollbackEnds session store outcome after)
    (outside : store.transaction? session.thread = none) : after = store := by
  cases ends with
  | closed _ => rfl
  | notOpen _ _ => rfl
  | rolledBack _ inside _ _ => exact nomatch outside.symm.trans inside

theorem BeginEnds.persists {outcome : Except Error Unit}
    (ends : BeginEnds session store outcome after) : store.Persists after := by
  cases ends <;> exact ⟨Nat.le_refl _, fun _ _ => .refl _⟩

theorem CommitEnds.persists {outcome : Except Error Unit}
    (ends : CommitEnds session store outcome after) :
    store.Persists after ∨ (outcome.isOk = false ∧ store.inTransaction session.thread = true ∧
      after.inTransaction session.thread = false) := by
  cases ends with
  | closed _ => exact Or.inl (.refl store)
  | notOpen _ _ => exact Or.inl (.refl store)
  | @committed transaction _ world _ _ _ _ =>
      have dropped : store.Persists ((store.dropTransaction session.thread).withWorld world) :=
        ⟨Nat.le_refl _, fun _ _ => .refl _⟩
      have written := dropped.trans
        (silent_written transaction.writes store.cache.generation _).persists
      exact Or.inl ⟨written.size, written.instances⟩
  | refused _ inside _ _ _ =>
      refine Or.inr ⟨rfl, inTransaction_of_inside inside,
        inTransaction_of_dropped store ?_⟩
      exact transactions_rolledBack _ _ _

theorem RollbackEnds.persists {outcome : Except Error Unit}
    (ends : RollbackEnds session store outcome after) :
    store.Persists after ∨ (store.inTransaction session.thread = true ∧
      after.inTransaction session.thread = false) := by
  cases ends with
  | closed _ => exact Or.inl (.refl store)
  | notOpen _ _ => exact Or.inl (.refl store)
  | rolledBack _ inside _ _ =>
      refine Or.inr ⟨inTransaction_of_inside inside,
        inTransaction_of_dropped store ?_⟩
      exact transactions_rolledBack _ _ _

end Store

/-! ### Acts -/

namespace Action

variable {World : Type} {session : Session World} {store after : Store World} {action : Action}
  {outcome : Except Error Unit}

/-- An act of a thread leaves ids and removals, or it ends the thread's transaction without
committing it. -/
theorem persists_or_aborts (regular : store.Regular) (inMemory : action.InMemory store.memory.size)
    (ran : (action.perform session).run store = (outcome, after)) (stays : action ≠ .close) :
    store.Persists after ∨ ((action = .rollback ∨ outcome.isOk = false) ∧
      store.inTransaction session.thread = true ∧ after.inTransaction session.thread = false) := by
  have leased := fun transaction inside => regular.leased.connection
    (show store.transaction? session.thread = some transaction from inside)
  cases bounds : action.boundary? with
  | none =>
      have path := (treads_perform regular inMemory).of_run ran
      obtain ⟨_, persists⟩ | ⟨failed, ends⟩ :=
        path.persistsOrAborts (works_of_boundary? bounds) regular
      · exact Or.inl persists
      · exact Or.inr ⟨Or.inr failed, ends⟩
  | some task =>
      cases action with
      | begin => exact Or.inl ((Store.ensures_beginTransaction session store).of_run ran).persists
      | commit =>
          obtain persists | ⟨failed, ends⟩ :=
            ((Store.ensures_commitTransaction leased).of_run ran).persists
          · exact Or.inl persists
          · exact Or.inr ⟨Or.inr failed, ends⟩
      | rollback =>
          exact ((Store.ensures_rollbackTransaction leased).of_run ran).persists.imp_right
            fun ends => ⟨Or.inl rfl, ends⟩
      | close => exact absurd rfl stays
      | _ => cases bounds

/-- A thread is in a transaction after an act but not before only if the act has begun it. -/
theorem begins_of_inTransaction (regular : store.Regular)
    (inMemory : action.InMemory store.memory.size)
    (ran : (action.perform session).run store = (outcome, after))
    (outside : store.inTransaction session.thread = false)
    (inside : after.inTransaction session.thread = true) :
    action = .begin ∧ outcome.isOk = true := by
  rw [Store.inTransaction_eq] at outside
  obtain ⟨_, begins, rfl⟩ := ((leaves_perform regular inMemory).of_run ran).begins
    (Option.isNone_iff_eq_none.mp (Option.isSome_eq_false_iff.mp outside)) inside
  exact ⟨begins, rfl⟩

/-- Where a thread's transaction ends without being committed, its snapshots are put back. -/
theorem putsBack_of_ended {kept : List (InstanceId × Snapshot)} (regular : store.Regular)
    (inMemory : action.InMemory store.memory.size)
    (ran : (action.perform session).run store = (outcome, after)) (stays : action ≠ .close)
    (aborts : action = .rollback ∨ outcome.isOk = false)
    (inside : store.snapshots session.thread = some kept)
    (ended : after.inTransaction session.thread = false) :
    Store.PutsBack session.thread kept store after := by
  rw [Store.inTransaction_eq] at ended
  cases (leaves_perform regular inMemory).of_run ran with
  | kept passes _ =>
      rw [passes.kept session.thread, inside] at ended
      cases ended
  | settled notes =>
      obtain ⟨more, still, _⟩ := notes.inside kept inside
      rw [still] at ended
      cases ended
  | putBack _ puts =>
      cases puts.inside.symm.trans inside
      exact puts
  | begun _ outside _ _ _ =>
      rw [inside] at outside
      cases outside
  | committed commits _ _ _ =>
      rcases aborts with rollsBack | failed
      · exact nomatch commits.symm.trans rollsBack
      · cases failed
  | closed closes _ => exact absurd closes stays

end Action

/-! ### Runs -/

namespace Deployment

variable {World : Type} {deployment : Deployment World} {store opened closing after : Store World}
  {thread : ThreadId} {acts : List (Act World)}

/-- What does not hold at first and holds at last has come about in some act and has lasted
since. -/
theorem Run.exists_last_change (run : deployment.Run store acts after)
    (holds : Store World → Prop) (before : ¬holds store) (now : holds after) :
    ∃ first cause rest, acts = first ++ cause :: rest ∧ ¬holds (left store first) ∧
      holds cause.after ∧ ∀ act ∈ rest, holds act.after := by
  have either : ((∀ act ∈ acts, holds act.after) ∧ holds store) ∨
      ∃ first cause rest, acts = first ++ cause :: rest ∧ ¬holds (left store first) ∧
        holds cause.after ∧ ∀ act ∈ rest, holds act.after := by
    clear before
    induction run with
    | nil store => exact Or.inl ⟨fun _ impossible => (by cases impossible), now⟩
    | @cons store between after other action outcome rest _ _ _ ih =>
        rcases ih now with ⟨always, held⟩ | ⟨first, cause, later, rfl, changes⟩
        · by_cases holds store
          · refine Or.inl ⟨fun act member => ?_, by assumption⟩
            rcases List.mem_cons.mp member with rfl | isLater
            · exact held
            · exact always act isLater
          · exact Or.inr ⟨[], _, rest, rfl, by assumption, held, always⟩
        · exact Or.inr ⟨_ :: first, cause, later, rfl, changes⟩
  rcases either with ⟨_, held⟩ | change
  · exact absurd held before
  · exact change

private theorem exists_left_of_firstSettled {subject : InstanceId} {store moment : Store World}
    (first : FirstSettled thread subject store acts moment) :
    ∃ earlier rest, acts = earlier ++ rest ∧ moment = left store earlier := by
  induction first with
  | @now store act rest _ => exact ⟨[], act :: rest, rfl, rfl⟩
  | @later store moment act rest _ _ ih =>
      obtain ⟨earlier, others, rfl, same⟩ := ih
      exact ⟨act :: earlier, others, rfl, same⟩

/-- As long as its transaction goes on, the acts of a thread leave ids and removals. -/
theorem Run.persists (run : deployment.Run store acts after) (regular : store.Regular)
    (alone : ∀ act ∈ acts, act.thread = thread ∧ act.action ≠ .close)
    (stays : ∀ act ∈ acts, act.after.inTransaction thread = true) : store.Persists after := by
  induction run with
  | nil store => exact .refl store
  | @cons store between after other action outcome rest inMemory ran _ ih =>
      obtain ⟨rfl, open'⟩ := alone _ List.mem_cons_self
      have later := ih (((Action.follows_perform regular inMemory).of_run ran).regular regular)
        (fun act member => alone act (List.mem_cons_of_mem _ member))
        fun act member => stays act (List.mem_cons_of_mem _ member)
      rcases Action.persists_or_aborts regular inMemory ran open' with persists | ⟨_, _, ended⟩
      · exact persists.trans later
      · exact nomatch (stays _ List.mem_cons_self).symm.trans ended

structure Inside (thread : ThreadId) (acts : List (Act World)) (opening : Act World)
    (inner : List (Act World)) : Prop where
  split : ∃ before, acts = before ++ opening :: inner
  begins : opening.action = .begin ∧ opening.outcome.isOk = true
  stays : ∀ act ∈ opening :: inner, act.after.inTransaction thread = true

section Alone

variable (run : deployment.Run store acts closing) (regular : store.Regular)
  (outside : store.inTransaction thread = false)
  (alone : ∀ act ∈ acts, act.thread = thread ∧ act.action ≠ .close)
include run regular outside alone

theorem Run.inside (within : closing.inTransaction thread = true) :
    ∃ opening inner, Inside thread acts opening inner ∧ opening.after.Regular ∧
      deployment.Run opening.after inner closing ∧ opening.after.snapshots thread = some [] := by
  obtain ⟨before, opening, inner, rfl, apart, begun, stays⟩ :=
    run.exists_last_change (fun store => store.inTransaction thread = true)
      (fun impossible => nomatch outside.symm.trans impossible) within
  obtain ⟨runBefore, runLater⟩ := run.split
  have regularBefore := runBefore.regular regular
  cases runLater with
  | cons inMemory ran runInner =>
      obtain rfl := (alone _ (List.mem_append_right _ List.mem_cons_self)).1
      obtain ⟨rfl, succeeded⟩ := Action.begins_of_inTransaction regularBefore inMemory ran
        (Bool.not_eq_true _ ▸ apart) begun
      refine ⟨_, inner, ⟨⟨before, rfl⟩, ⟨rfl, succeeded⟩, fun act member => ?_⟩, ?_, runInner, ?_⟩
      · rcases List.mem_cons.mp member with rfl | isInner
        · exact begun
        · exact stays act isInner
      · exact ((Action.follows_perform regularBefore inMemory).of_run ran).regular regularBefore
      · cases (Store.ensures_beginTransaction _ _).of_run ran with
        | begun _ _ _ _ _ => exact Store.snapshots_setTransaction_self _ _ _
        | closed _ => cases succeeded
        | alreadyOpen _ _ => cases succeeded
        | unconnected _ _ _ => cases succeeded
        | refused _ _ _ _ _ => cases succeeded

/-- An act leaves ids and removals, or it aborts the transaction in which the thread is: then
an instance looks as before the act, or as at some earlier moment of that transaction. -/
theorem Run.persists_or_puts_back {action : Action} {outcome : Except Error Unit}
    (inMemory : action.InMemory closing.memory.size)
    (ran : (action.perform (deployment.session thread)).run closing = (outcome, after))
    (open' : action ≠ .close) :
    closing.Persists after ∨ ((action = .rollback ∨ outcome.isOk = false) ∧
      after.inTransaction thread = false ∧
      ∃ opening inner, Inside thread acts opening inner ∧
        ∀ subject, after.look subject = closing.look subject ∨
          ∃ first rest, inner = first ++ rest ∧
            deployment.Run (left opening.after first) rest closing ∧
            (left opening.after first).Persists closing ∧
            after.look subject = (left opening.after first).look subject) := by
  have regularClosing := run.regular regular
  obtain persists | ⟨aborts, within, ended⟩ :=
    Action.persists_or_aborts regularClosing inMemory ran open'
  · exact Or.inl persists
  obtain ⟨opening, inner, isInside, regularOpened, runInner, fresh⟩ :=
    run.inside regular outside alone within
  obtain ⟨more, isMore, noted⟩ := noted_of_run runInner regularOpened
    (fun act member => isInside.stays act (List.mem_cons_of_mem _ member)) fresh
  have puts := Action.putsBack_of_ended regularClosing inMemory ran open' aborts isMore ended
  refine Or.inr ⟨aborts, ended, opening, inner, isInside, fun subject => ?_⟩
  rw [puts.look subject]
  by_cases settled : ∃ moment, FirstSettled thread subject opening.after inner moment
  · obtain ⟨moment, first⟩ := settled
    obtain ⟨earlier, rest, rfl, rfl⟩ := exists_left_of_firstSettled first
    obtain ⟨runEarlier, runRest⟩ := runInner.split
    obtain ⟨before, rfl⟩ := isInside.split
    have among : ∀ act ∈ rest, act ∈ opening :: (earlier ++ rest) := fun act member =>
      List.mem_cons_of_mem opening (List.mem_append_right earlier member)
    have persists := runRest.persists (runEarlier.regular regularOpened)
      (fun act member => alone act (List.mem_append_right before (among act member)))
      fun act member => isInside.stays act (among act member)
    refine Or.inr ⟨earlier, rest, rfl, runRest, persists, ?_⟩
    rw [noted.first subject _ rfl first, Option.getD_some]
  · refine Or.inl ?_
    rw [noted.free subject rfl fun moment first => settled ⟨moment, first⟩, Option.getD_none]

end Alone

inductive Undoes (thread : ThreadId) (holds : Store World → Prop) :
    List (Act World) → Act World → Prop where
  | aborted {acts first rest : List (Act World)} {opening cause act : Act World} :
      Inside thread acts opening (first ++ cause :: rest) →
      ¬holds (left opening.after first) → holds cause.after →
      act.action = .rollback ∨ act.outcome.isOk = false →
      act.after.inTransaction thread = false →
      Undoes thread holds acts act

theorem Run.acted {earlier later : List (Act World)} {act : Act World}
    (run : deployment.Run store (earlier ++ act :: later) after) :
    deployment.Run store earlier (left store earlier) ∧
      act.action.InMemory (left store earlier).memory.size ∧
      (act.action.perform (deployment.session act.thread)).run (left store earlier)
        = (act.outcome, act.after) := by
  obtain ⟨runEarlier, runLater⟩ := run.split
  cases runLater with
  | cons inMemory ran _ => exact ⟨runEarlier, inMemory, ran⟩

private theorem idOf_of_look {subject : InstanceId}
    (same : after.look subject = store.look subject) :
    after.idOf subject = store.idOf subject :=
  congrArg (fun snapshot => snapshot.key.id) same

/-- Only what is in memory has an id. -/
theorem inMemory_of_idOf {subject : InstanceId} {id : Int64}
    (known : store.idOf subject = some id) : subject < store.memory.size := by
  rw [← Nat.not_le]
  intro beyond
  rw [Store.idOf, Store.instanceAt_of_size_le beyond] at known
  cases known

section Lasting

variable {created : Store World} {earlier later : List (Act World)} {act : Act World}
  (run : deployment.Run created (earlier ++ act :: later) after) (regular : created.Regular)
  (outside : created.inTransaction thread = false)
  (alone : ∀ other ∈ earlier ++ act :: later, other.thread = thread ∧ other.action ≠ .close)
  {subject : InstanceId} (inMemory : subject < (left created earlier).memory.size)
include run regular outside alone inMemory

/-- What an act takes from an instance that keeps it otherwise, it takes by aborting the
transaction in which the instance came to have it. -/
theorem Run.undoes (holds : Snapshot → Prop)
    (lasting : ∀ {content late : Instance}, content.Persists late →
      holds (Snapshot.ofInstance content) → holds (Snapshot.ofInstance late))
    (held : holds ((left created earlier).look subject))
    (lost : ¬holds (act.after.look subject)) :
    Undoes thread (fun store => holds (store.look subject)) earlier act := by
  obtain ⟨runEarlier, named, ran⟩ := run.acted
  obtain ⟨rfl, open'⟩ := alone act (List.mem_append_right _ List.mem_cons_self)
  obtain persists | ⟨aborts, ended, opening, inner, isInside, looks⟩ :=
    runEarlier.persists_or_puts_back regular outside
      (fun other member => alone other (List.mem_append_left _ member)) named ran open'
  · exact absurd (lasting (persists.instances subject inMemory) held) lost
  rcases looks subject with same | ⟨first, rest, rfl, runRest, _, same⟩
  · exact absurd (same ▸ held) lost
  · have before : ¬holds ((left opening.after first).look subject) := same ▸ lost
    obtain ⟨more, cause, others, rfl, notYet, now, _⟩ :=
      runRest.exists_last_change (fun store => holds (store.look subject)) before held
    rw [← List.append_assoc] at isInside
    refine .aborted isInside ?_ now aborts ended
    rwa [left_append]

/-- An id never gives way to another one. -/
theorem Run.id_eq {id other : Int64}
    (known : (left created earlier).idOf subject = some id)
    (found : act.after.idOf subject = some other) : other = id := by
  obtain ⟨runEarlier, named, ran⟩ := run.acted
  obtain ⟨rfl, open'⟩ := alone act (List.mem_append_right _ List.mem_cons_self)
  have later : (left created earlier).idOf subject = some other := by
    obtain persists | ⟨_, _, opening, inner, _, looks⟩ :=
      runEarlier.persists_or_puts_back regular outside
        (fun other member => alone other (List.mem_append_left _ member)) named ran open'
    · exact known.trans (((persists.instances subject inMemory).id id known).symm.trans found)
    rcases looks subject with same | ⟨first, rest, rfl, _, persists, same⟩
    · exact (idOf_of_look same).symm.trans found
    · have before := (idOf_of_look same).symm.trans found
      exact (persists.instances subject (inMemory_of_idOf before)).id other before
  exact Option.some.inj (later.symm.trans known)

end Lasting

end Deployment

end EntityStore
