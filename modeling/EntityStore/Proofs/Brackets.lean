/-
What pools and units of work do to a faithful database. Connections that are opened,
checked or given back publish nothing; work between begin and commit publishes what its
log says, and work that fails publishes nothing.
-/

import EntityStore.Proofs.Faithful
import EntityStore.Proofs.Units

set_option autoImplicit false

namespace EntityStore

def Layout.Replayed (layout : Layout) (before : Contents) (log : List Event)
    (after : Contents) : Prop :=
  ∃ start final, Ledger.Replays layout layout.Answers ⟨before, start⟩ log ⟨after, final⟩

namespace Faithful

variable {World : Type} {layout : Layout} {database : Database World}
  {faithful : Faithful layout database} {connection : ConnectionId} {first second third : World}

structure Confined (faithful : Faithful layout database) (connection : ConnectionId)
    (before after : World) : Prop where
  valid : faithful.Valid after
  published : faithful.published after = faithful.published before
  besides : faithful.Besides connection before after

theorem Confined.trans (confined : faithful.Confined connection first second)
    (later : faithful.Confined connection second third) :
    faithful.Confined connection first third :=
  ⟨later.valid, later.published.trans confined.published, confined.besides.trans later.besides⟩

theorem Confined.of_same (valid : faithful.Valid second) (same : faithful.Same first second) :
    faithful.Confined connection first second :=
  ⟨valid, same.published, same.besides connection⟩

theorem HasWorked.confined {log : List Event}
    (worked : faithful.HasWorked connection first log second) :
    faithful.Confined connection first second := ⟨worked.valid, worked.published, worked.besides⟩

theorem HasRead.confined {log : List Event}
    (read : faithful.HasRead connection first log second) :
    faithful.Confined connection first second := .of_same read.valid read.same

theorem confined_rollback {outcome : Except DatabaseError Unit} (valid : faithful.Valid first)
    (rolledBack : database.rollback connection first = (outcome, second)) :
    faithful.Confined connection first second := by
  obtain ⟨validAfter, published, besides⟩ := faithful.rollback connection first valid
  rw [rolledBack] at validAfter published besides
  exact ⟨validAfter, published, besides⟩

/-! ### Pools -/

private theorem same_connect {outcome : Except DatabaseError Unit} (valid : faithful.Valid first)
    (connected : database.connect connection first = (outcome, second)) :
    faithful.Valid second ∧ faithful.Same first second := by
  have facts := faithful.connect connection first valid
  rw [connected] at facts
  exact facts

theorem same_acquire {pool after : Pool World} {outcome : Except Error LeaseId}
    (valid : faithful.Valid pool.world) (acquired : pool.acquire database = (outcome, after)) :
    faithful.Valid after.world ∧ faithful.Same pool.world after.world := by
  have ends := Pool.acquires database pool
  rw [acquired] at ends
  cases ends with
  | refused answer => exact same_connect valid answer
  | opened _ _ _ answer => exact same_connect valid answer
  | _ => exact ⟨valid, .refl _⟩

private theorem same_replenishes {now : Nat} {pool after : Pool World}
    (valid : faithful.Valid pool.world) (ends : Pool.Replenishes database now pool after) :
    faithful.Valid after.world ∧ faithful.Same pool.world after.world := by
  cases ends with
  | kept => exact ⟨valid, .refl _⟩
  | refused answer => exact same_connect valid answer
  | opened _ answer => exact same_connect valid answer

private theorem same_addIdles {now count : Nat} {pool after : Pool World}
    (valid : faithful.Valid pool.world)
    (added : Pool.addIdles database now count pool = (.ok (), after)) :
    faithful.Valid after.world ∧ faithful.Same pool.world after.world := by
  induction count generalizing pool with
  | zero =>
      cases added
      exact ⟨valid, .refl _⟩
  | succ count ih =>
      unfold Pool.addIdles at added
      split at added
      · cases added
      rename_i between first
      obtain ⟨world, connected, rfl⟩ := Pool.addIdle_ok first
      obtain ⟨validBetween, same⟩ := same_connect valid connected
      obtain ⟨validAfter, sameAfter⟩ := ih validBetween added
      exact ⟨validAfter, same.trans sameAfter⟩

theorem same_create {config : PoolConfig} {now : Nat} {world : World} {pool : Pool World}
    (valid : faithful.Valid world)
    (created : Pool.create database config now world = (.ok (), pool)) :
    faithful.Valid pool.world ∧ faithful.Same world pool.world := by
  unfold Pool.create at created
  simp only at created
  split at created
  · cases created
  rename_i after added
  cases created
  have validEmpty : faithful.Valid
      ({ config := config.normalized, world := world } : Pool World).world := valid
  exact same_addIdles validEmpty added

/-- A lease that is given back leaves its connection outside of any transaction. -/
theorem confined_release {pool : Pool World} {lease : LeaseId}
    (valid : faithful.Valid pool.world) (held : pool.leased.lookup lease = some connection)
    (now : Nat) :
    faithful.Confined connection pool.world (pool.release database now lease).world ∧
      faithful.standing (pool.release database now lease).world connection = .outside := by
  have ends := Pool.releases database now lease pool
  revert ends
  generalize pool.release database now lease = after
  intro ends
  cases ends with
  | unknown missing =>
      rw [held] at missing
      cases missing
  | @returned other world holds _ answer =>
      rw [held] at holds
      cases holds
      obtain ⟨validAfter, same, outside⟩ := faithful.isValid connection pool.world valid
      rw [answer] at validAfter same outside
      exact ⟨.of_same validAfter same, (same.standing connection).trans (outside rfl)⟩
  | @discarded other checked _ holds checks made =>
      rw [held] at holds
      cases holds
      have checkedSame : faithful.Valid checked ∧ faithful.Same pool.world checked := by
        rcases checks with ⟨_, rfl⟩ | ⟨_, answer⟩
        · exact ⟨valid, .refl _⟩
        · obtain ⟨validAfter, same, _⟩ := faithful.isValid connection pool.world valid
          rw [answer] at validAfter same
          exact ⟨validAfter, same⟩
      obtain ⟨validClosed, published, besides, outside⟩ :=
        faithful.close connection checked checkedSame.1
      obtain ⟨validAfter, same⟩ := same_replenishes validClosed made
      have closed : faithful.Confined connection checked (database.close connection checked).2 :=
        ⟨validClosed, published, besides⟩
      exact ⟨((Confined.of_same checkedSame.1 checkedSame.2).trans closed).trans
        (.of_same validAfter same), (same.standing connection).trans outside⟩

/-- Closing connections leaves none of those inside that were outside, and publishes
nothing. -/
theorem closedWorld_outside {connections : List ConnectionId} {world : World}
    (valid : faithful.Valid world)
    (outside : ∀ connection, faithful.standing world connection = .outside) :
    let after := Pool.closedWorld database connections world
    faithful.Valid after ∧ faithful.published after = faithful.published world ∧
      ∀ connection, faithful.standing after connection = .outside := by
  induction connections generalizing world with
  | nil => exact ⟨valid, rfl, outside⟩
  | cons connection rest ih =>
      obtain ⟨validClosed, published, besides, freed⟩ := faithful.close connection world valid
      obtain ⟨validAfter, publishedAfter, outsideAfter⟩ := ih validClosed fun other => by
        by_cases same : other = connection
        · exact same ▸ freed
        · exact (besides.standing other same).trans (outside other)
      exact ⟨validAfter, publishedAfter.trans published, outsideAfter⟩

/-! ### Brackets -/

structure HasPublished (faithful : Faithful layout database) (connection : ConnectionId)
    (before : World) (log : List Event) (after : World) : Prop where
  valid : faithful.Valid after
  besides : faithful.Besides connection before after
  outside : faithful.standing after connection = .outside
  replayed : layout.Replayed (faithful.published before) log (faithful.published after)
  /-- While another connection has unpublished changes, nothing is published. -/
  locked : ∀ other contents, other ≠ connection →
    faithful.standing before other = .writing contents →
    faithful.published after = faithful.published before

theorem HasPublished.after {log : List Event}
    (published : faithful.HasPublished connection second log third)
    (same : faithful.Same first second) :
    faithful.HasPublished connection first log third := by
  refine ⟨published.valid, (same.besides connection).trans published.besides, published.outside,
    same.published ▸ published.replayed, fun other contents apart writing => ?_⟩
  rw [← same.published]
  exact published.locked other contents apart ((same.standing other).trans writing)

theorem HasPublished.before {log : List Event}
    (published : faithful.HasPublished connection first log second)
    (confined : faithful.Confined connection second third)
    (outside : faithful.standing third connection = .outside) :
    faithful.HasPublished connection first log third := by
  refine ⟨confined.valid, published.besides.trans confined.besides, outside,
    confined.published ▸ published.replayed, fun other contents apart writing => ?_⟩
  rw [confined.published]
  exact published.locked other contents apart writing

variable {α : Type} {gives : α × WriteSet → List Event → Prop} {transactional : Bool}

private theorem hasPublished_of_commit {begun worked : World} {log : List Event}
    (valid : faithful.Valid first) (outside : faithful.standing first connection = .outside)
    (begins : database.begin connection first = (.ok (), begun))
    (works : faithful.HasWorked connection begun log worked)
    (commits : database.commit connection worked = (.ok (), second)) :
    faithful.HasPublished connection first log second := by
  obtain ⟨_, published, besides, reading⟩ := faithful.begin connection first valid outside
  rw [begins] at published besides reading
  obtain ⟨validAfter, besidesAfter, publishes, outsideAfter⟩ := by
    have facts := faithful.commit connection worked works.valid works.inside
    rw [commits] at facts
    exact facts
  refine ⟨validAfter, besides.trans (works.besides.trans besidesAfter), outsideAfter, ?_, ?_⟩
  · have replays := works.replays
    unfold Perspective.ledger at replays
    rw [Perspective.seen_of_reading reading, published] at replays
    rw [publishes]
    exact ⟨_, _, replays⟩
  · intro other contents apart writing
    have stillWriting : faithful.standing worked other = .writing contents := by
      rw [works.besides.standing other apart, besides.standing other apart]
      exact writing
    rw [publishes, ← published, ← works.published]
    cases stands : faithful.standing worked connection with
    | outside => exact absurd stands works.inside
    | reading => exact Perspective.seen_of_reading stands
    | writing own =>
        exact absurd (faithful.single worked other connection works.valid stillWriting stands) apart

/-- Work that succeeds publishes what its log says. -/
theorem hasPublished_of_bracketed {result : α × WriteSet} (valid : faithful.Valid first)
    (outside : faithful.standing first connection = .outside)
    (bracketed : Bracketed database (Question.Issued layout.Fits transactional) connection gives
      transactional first (.ok result) second) :
    ∃ log, gives result log ∧ faithful.HasPublished connection first log second ∧
      (transactional = false → faithful.HasRead connection first log second) := by
  cases bracketed with
  | @done _ _ log _ asked given =>
      have read := hasRead_of_asked asked valid
      refine ⟨log, given, ⟨read.valid, read.same.besides connection, ?_, ?_, ?_⟩, fun _ => read⟩
      · exact (read.same.standing connection).trans outside
      · have replays := read.replays
        unfold Perspective.ledger at replays
        rw [Perspective.seen_of_outside outside] at replays
        rw [read.same.published]
        exact ⟨_, _, replays⟩
      · exact fun _ _ _ _ => read.same.published
  | @committed _ begun worked _ log _ begins asked given commits =>
      obtain ⟨validBegun, _, _, reading⟩ := faithful.begin connection first valid outside
      rw [begins] at validBegun reading
      have inside : faithful.standing begun connection ≠ .outside := by
        rw [reading]
        intro impossible
        cases impossible
      exact ⟨log, given, hasPublished_of_commit valid outside begins
        (hasWorked_of_asked asked validBegun inside) commits, fun impossible => by cases impossible⟩

theorem confined_of_bracketed {error : Error} (valid : faithful.Valid first)
    (outside : faithful.standing first connection = .outside)
    (bracketed : Bracketed database (Question.Issued layout.Fits transactional) connection gives
      transactional first (.error error) second) :
    faithful.Confined connection first second := by
  have begins {outcome : Except DatabaseError Unit} {begun : World}
      (answer : database.begin connection first = (outcome, begun)) :
      faithful.Confined connection first begun := by
    obtain ⟨validBegun, published, besides, _⟩ := faithful.begin connection first valid outside
    rw [answer] at validBegun published besides
    exact ⟨validBegun, published, besides⟩
  have works {begun worked : World} {log : List Event}
      (answer : database.begin connection first = (.ok (), begun))
      (asked : Asked database (Question.Issued layout.Fits transactional) connection begun log
        worked) : faithful.HasWorked connection begun log worked := by
    obtain ⟨validBegun, _, _, reading⟩ := faithful.begin connection first valid outside
    rw [answer] at validBegun reading
    refine hasWorked_of_asked asked validBegun ?_
    rw [reading]
    intro impossible
    cases impossible
  cases bracketed with
  | undone asked => exact (hasRead_of_asked asked valid).confined
  | notBegun answer => exact begins answer
  | failed answer asked rolledBack =>
      have worked := works answer asked
      exact ((begins answer).trans worked.confined).trans
        (confined_rollback worked.valid rolledBack)
  | notCommitted answer asked refused rolledBack =>
      have worked := works answer asked
      have facts := faithful.commit connection _ worked.valid worked.inside
      rw [refused] at facts
      have confined : faithful.Confined connection _ _ := ⟨facts.1, facts.2.2, facts.2.1⟩
      exact (((begins answer).trans worked.confined).trans confined).trans
        (confined_rollback confined.valid rolledBack)

end Faithful

end EntityStore
