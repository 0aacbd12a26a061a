/-
What operations publish that are done outside of transactions. They publish nothing, or they do
the one task that they are for; then nobody holds collections any more as one of the owners that
this task has noted.
-/

import EntityStore.Proofs.Coherence
import EntityStore.Proofs.Forgetting
import EntityStore.Proofs.References

set_option autoImplicit false

namespace EntityStore
namespace Store

variable {World α β : Type} {layout : Layout} {session : Session World}
  {faithful : Faithful layout session.database} {poses : Task → Prop} {ok : Bool}
  {store between after : Store World}

inductive Publishes (faithful : Faithful layout session.database) (poses : Task → Prop)
    (store after : Store World) : Prop where
  | nothing : faithful.published after.pool.world = faithful.published store.pool.world →
      Publishes faithful poses store after
  | task {task : Task} {writes : WriteSet} {log : List Event} : poses task →
      task.Gives session.dialect (· ∈ store.registry.mappings) writes log →
      (∀ statement, .executed statement ∈ log → statement.Conforms layout.Fits) →
      layout.Replayed (faithful.published store.pool.world) log
        (faithful.published after.pool.world) →
      after.Disowns writes.owners → Publishes faithful poses store after

theorem Publishes.settled (publishes : Publishes faithful poses store between)
    (knows : between.KnowsOwners) (pool : after.pool = between.pool) (sheds : between.Sheds after) :
    Publishes faithful poses store after := by
  cases publishes with
  | nothing published => exact .nothing (by rw [pool, published])
  | task posed gives conforms replayed disowns =>
      exact .task posed gives conforms (by rw [pool]; exact replayed) (disowns.sheds knows sheds)

/-- Where there is no task, nothing is published. -/
theorem Publishes.published (publishes : Publishes faithful poses store after)
    (idle : ∀ task, ¬poses task) :
    faithful.published after.pool.world = faithful.published store.pool.world := by
  cases publishes with
  | nothing published => exact published
  | task posed _ _ _ _ => exact absurd posed (idle _)

theorem Publishes.keyed (publishes : Publishes faithful poses store after)
    (keyed : layout.Keyed (faithful.published store.pool.world)) :
    layout.Keyed (faithful.published after.pool.world) := by
  cases publishes with
  | nothing published =>
      rw [published]
      exact keyed
  | task _ _ conforms replayed _ =>
      obtain ⟨_, _, replays⟩ := replayed
      exact keyed.replays conforms replays

/-- Rows have gone on referring to all owners but some, and nobody holds collections as one of
those. -/
theorem Publishes.tracks {registered : Mapping → Prop}
    (publishes : Publishes faithful poses store after) (separates : layout.Separates registered)
    (nulls : layout.stored .null = .null) (sound : ∀ task, poses task → task.Sound registered)
    (relates : ∀ task, poses task → task.Relates)
    (recalls : ∀ task, poses task → task.Recalls layout (faithful.published store.pool.world))
    (related : layout.Related registered (faithful.published store.pool.world)) :
    ∃ keys, layout.Tracks registered keys (faithful.published store.pool.world)
        (faithful.published after.pool.world) ∧ after.Disowns keys := by
  cases publishes with
  | nothing published =>
      rw [published]
      exact ⟨[], .refl related, fun _ impossible => by cases impossible⟩
  | task posed gives _ replayed disowns =>
      obtain ⟨_, _, replays⟩ := replayed
      exact ⟨_, gives.tracks replays separates nulls (sound _ posed) (relates _ posed)
        (recalls _ posed) related, disowns⟩

/-! ### Stages that write no rows -/

def Level (faithful : Faithful layout session.database) (store : Store World) : Prop :=
  store.view faithful session.thread = faithful.published store.pool.world

/-- Where no rows are written, nothing is published, and the thread still sees it all. -/
theorem Moves.level (moves : Moves faithful poses store after)
    (free : ∀ task, poses task → task.writesRows = false) (level : store.Level faithful) :
    after.Level faithful ∧
      faithful.published after.pool.world = faithful.published store.pool.world := by
  have unwritten {task : Task} (posed : task = .read ∨ poses task) : task.writesRows = false := by
    rcases posed with rfl | posed
    · rfl
    · exact free task posed
  unfold Level at level ⊢
  cases moves with
  | idle _ published view _ => exact ⟨by rw [view, level, published], published⟩
  | evened _ published even => exact ⟨even.view, published⟩
  | committed even published _ => exact ⟨even.view, published.trans level⟩
  | applied posed gives _ _ even replayed _ =>
      obtain ⟨_, _, replays⟩ := replayed
      exact ⟨even.view, gives.unwritten (unwritten posed) replays⟩
  | recorded posed gives _ published replayed _ _ =>
      obtain ⟨_, _, replays⟩ := replayed
      have same := gives.unwritten (unwritten posed) replays
      exact ⟨same.trans (level.trans published.symm), published⟩

theorem Course.level (course : Course session poses store ok after) (regular : store.Regular)
    (orderly : store.Orderly faithful)
    (fits : ∀ mapping ∈ after.registry.mappings, layout.Fits mapping)
    (free : ∀ task, poses task → task.writesRows = false) (level : store.Level faithful) :
    faithful.published after.pool.world = faithful.published store.pool.world := by
  -- The induction is on the stages, each of which publishes nothing.
  induction course with
  | ended => rfl
  | failed stage =>
      have fitsBefore := stage.grows.forall_registered fits
      exact ((stage.moves regular orderly fitsBefore).level free level).2
  | went stage rest ih =>
      have fitsBefore := stage.grows.forall_registered (rest.grows.forall_registered fits)
      obtain ⟨levelBetween, same⟩ := (stage.moves regular orderly fitsBefore).level free level
      refine (ih (stage.regular regular)
        ((stage.turn regular orderly fitsBefore).orderly orderly regular.leased) fits
        (fun _ impossible => impossible.elim) levelBetween).trans same

/-! ### Units -/

theorem UnitEnds.publishes {task : Task} {transactional : Bool} {outcome : Except Error α}
    (ends : UnitEnds session (Question.Issued (· ∈ store.registry.mappings) transactional)
      transactional (fun result log =>
        task.Gives session.dialect (· ∈ store.registry.mappings) result.2 log)
      store outcome after)
    (posed : poses task) (regular : store.Regular) (orderly : store.Orderly faithful)
    (fits : ∀ mapping ∈ store.registry.mappings, layout.Fits mapping)
    (outside : store.transaction? session.thread = none) (knows : store.KnowsOwners) :
    Publishes faithful poses store after := by
  cases ends with
  | closed _ => exact .nothing rfl
  | recorded _ inside _ _ _ => exact nomatch outside.symm.trans inside
  | aborted _ inside _ _ _ => exact nomatch outside.symm.trans inside
  | unconnected _ _ acquired =>
      exact .nothing (Faithful.same_acquire orderly.valid acquired).2.published
  | @applied pool lease connection world result writes isOpen _ acquired held bracketed =>
      obtain ⟨log, ⟨gives, conforms⟩, published⟩ := published_of_applied regular orderly fits
        acquired held bracketed.conforming (pool_written writes store.cache.generation
          { store with pool := { pool with world := world } })
      have worked : store.Sheds ({ store with
          pool := { pool with world := world }
          cache := writes.apply store.cache.generation store.cache } : Store World) :=
        sheds_of_same rfl rfl rfl
      have disowns := disowns_invalidateOwners (worked.knows knows) isOpen writes.owners
      exact .task posed gives (fun statement member => (conforms statement member).weaken fits)
        published.replayed fun key member subject owns =>
          disowns key member subject ⟨owns.held, owns.key⟩
  | failed _ _ acquired held bracketed =>
      exact .nothing (confined_of_failed regular orderly fits acquired held bracketed).1.published

/-! ### Operations -/

def Publishing (faithful : Faithful layout session.database) (poses : Task → Prop)
    (operation : Operation World α) (store : Store World) : Prop :=
  Ensures operation store fun _ after => Publishes faithful poses store after

private theorem publishing_of_same {operation : Operation World α} {outcome : Except Error α}
    (ran : operation.run store = (outcome, store)) : Publishing faithful poses operation store := by
  unfold Publishing Ensures
  rw [ran]
  exact .nothing rfl

private theorem publishing_bind_same {operation : Operation World α} {next : α → Operation World β}
    {outcome : Except Error α} (ran : operation.run store = (outcome, store))
    (later : ∀ result, outcome = .ok result → Publishing faithful poses (next result) store) :
    Publishing faithful poses (operation >>= next) store := by
  apply ensures_bind
  unfold Ensures
  rw [ran]
  cases outcome with
  | ok result => exact later result rfl
  | error error => exact .nothing rfl

private theorem publishing_ensureOpen_bind {next : Unit → Operation World β}
    (later : Publishing faithful poses (next ()) store) :
    Publishing faithful poses (ensureOpen >>= next) store := by
  have ran := run_ensureOpen store
  cases isOpen : store.isOpen with
  | true =>
      rw [isOpen] at ran
      exact publishing_bind_same ran fun _ _ => later
  | false =>
      rw [isOpen] at ran
      exact publishing_bind_same ran fun _ impossible => by cases impossible

private theorem publishing_bind {operation : Operation World α} {next : α → Operation World β}
    (discreet : Discreet operation store) (knows : store.KnowsOwners)
    (first : Publishing faithful poses operation store)
    (later : ∀ result between, Discreet (next result) between ∧
      Ensures (next result) between fun _ after => after.pool = between.pool) :
    Publishing faithful poses (operation >>= next) store := by
  apply ensures_bind
  unfold Publishing at first
  unfold Discreet at discreet
  unfold Ensures at first discreet ⊢
  generalize operation.run store = ended at first discreet ⊢
  obtain ⟨outcome, between⟩ := ended
  cases outcome with
  | ok result =>
      obtain ⟨sheds, pool⟩ := later result between
      exact first.settled (discreet.knows knows) pool sheds
  | error error => exact first

section Writing

variable (regular : store.Regular) (orderly : store.Orderly faithful)
  (fits : ∀ mapping ∈ store.registry.mappings, layout.Fits mapping)
  (outside : store.transaction? session.thread = none) (knows : store.KnowsOwners)
include regular orderly fits outside knows

private theorem publishing_unit {task : Task} {transactional : Bool} {work : Work World α}
    (posed : poses task)
    (asks : ∀ lease, Asks session.database
      (Question.Issued (· ∈ store.registry.mappings) transactional) lease (work lease)
      fun result log => task.Gives session.dialect (· ∈ store.registry.mappings) result.2 log) :
    Publishing faithful poses (unit session transactional work) store :=
  (ensures_unit asks fun _ inside => regular.leased.connection inside).weaken
    fun _ _ ends => ends.publishes posed regular orderly fits outside knows

private theorem publishing_save (subject : InstanceId) :
    Publishing faithful (store.SavesPlan session subject) (save session subject) store := by
  unfold save
  refine publishing_ensureOpen_bind (publishing_bind_same (run_get store) ?_)
  rintro _ ⟨⟩
  refine publishing_bind_same (run_settleOutcome _ store) fun graph collected => ?_
  split
  case isFalse => exact publishing_of_same rfl
  have fit : ∀ planned ∈ graph.plan session.dialect, planned.content.needsWrite = true →
      planned.Fit (· ∈ store.registry.mappings) :=
    fun planned member _ => regular.sound.fit_of_plan collected member
  have asks : ∀ lease, Asks session.database
      (Question.Issued (· ∈ store.registry.mappings) true) lease _ _ := fun _ => asks_save fit
  refine publishing_bind (discreet_unit regular asks) knows
    (publishing_unit regular orderly fits outside knows ⟨graph, collected, rfl⟩ fun lease =>
      (asks lease).weaken ?_) fun written between => ⟨discreet_settleAll written, ?_⟩
  · rintro _ _ ⟨writing, rfl, rfl⟩
    exact .save writing
  · obtain ⟨_, settled⟩ := run_settleAll session written between
    unfold Ensures
    rw [settled]
    exact pool_settleAll settled

private theorem publishing_remove {subject : InstanceId} (inMemory : subject < store.memory.size) :
    Publishing faithful (fun task => task = .removal (store.instanceAt subject))
      (remove session subject) store := by
  have registered := (regular.sound.instanceAt inMemory).registered
  have withdraws (between : Store World) : Discreet (withdraw session subject) between ∧
      Ensures (withdraw session subject) between fun _ after => after.pool = between.pool :=
    ⟨discreet_withdraw subject, pool_withdraw rfl⟩
  unfold remove
  refine publishing_ensureOpen_bind (publishing_bind_same (run_get store) ?_)
  rintro _ ⟨⟩
  dsimp only
  split
  · exact publishing_of_same rfl
  · obtain ⟨_, pool⟩ := withdraws store
    exact .nothing (congrArg (fun pool => faithful.published pool.world) pool)
  · exact publishing_of_same rfl
  · rename_i id keyed _ _
    have asks (lease : LeaseId) := @asks_removal _ session lease
      (· ∈ store.registry.mappings) (store.instanceAt subject) registered id keyed
    exact publishing_bind (discreet_unit regular asks) knows
      (publishing_unit regular orderly fits outside knows rfl asks) fun _ => withdraws

end Writing

end Store

/-! ### Acts -/

/-- An act outside of transactions publishes nothing, or it does its task. -/
theorem Action.publishes {World : Type} {layout : Layout} {session : Session World}
    {faithful : Faithful layout session.database} {store after : Store World} {action : Action}
    {outcome : Except Error Unit} (regular : store.Regular) (orderly : store.Orderly faithful)
    (fits : ∀ mapping ∈ after.registry.mappings, layout.Fits mapping)
    (outside : store.transaction? session.thread = none) (knows : store.KnowsOwners)
    (inMemory : action.InMemory store.memory.size) (keeps : action ≠ .drop)
    (ran : (action.perform session).run store = (outcome, after)) :
    Store.Publishes faithful (action.Poses session store) store after := by
  have course := (Action.follows_perform regular inMemory).of_run ran
  have fitsBefore : ∀ mapping ∈ store.registry.mappings, layout.Fits mapping :=
    course.grows.forall_registered fits
  cases writes : action.writesRows with
  | false =>
      exact .nothing (@Store.Course.level _ _ session _ _ _ _ _ course regular orderly fits
        (Action.unwritten_of_poses writes) (Store.even_of_outside outside).view)
  | true =>
      cases action with
      | save subject =>
          exact (@Store.publishing_save _ _ session _ _ regular orderly fitsBefore outside knows
            subject).of_run ran
      | remove subject =>
          exact (@Store.publishing_remove _ _ session _ _ regular orderly fitsBefore outside knows
            _ inMemory).of_run ran
      | drop => exact absurd rfl keeps
      | _ => cases writes

end EntityStore
