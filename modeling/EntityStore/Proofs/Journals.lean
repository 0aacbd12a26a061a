/-
Databases that keep a journal: everything that a connection executed or answered, in
order. The journal of a save that succeeds ends with the log of its work, and the ids of
the instances afterwards are those that became known in it.
-/

import EntityStore.Proofs.Actions
import EntityStore.Proofs.Faithful

set_option autoImplicit false

namespace EntityStore

structure Journaled (World : Type) where
  world : World
  journal : List (ConnectionId × Event) := []

namespace Journaled

variable {World α : Type}

def inside (request : Call World α) : Call (Journaled World) α := fun journaled =>
  let (outcome, after) := request journaled.world
  (outcome, { journaled with world := after })

def noting (connection : ConnectionId) (event : α → Event) (request : Call World α) :
    Call (Journaled World) α := fun journaled =>
  match request journaled.world with
  | (.ok result, after) =>
      (.ok result, ⟨after, journaled.journal ++ [(connection, event result)]⟩)
  | (.error fault, after) => (.error fault, ⟨after, journaled.journal⟩)

def database (inner : Database World) : Database (Journaled World) where
  description := inner.description
  connect connection := inside (inner.connect connection)
  execute connection statement :=
    noting connection (fun _ => .executed statement) (inner.execute connection statement)
  query connection statement :=
    noting connection (.answered statement) (inner.query connection statement)
  lastInsertId connection := noting connection .generated (inner.lastInsertId connection)
  begin connection := inside (inner.begin connection)
  commit connection := inside (inner.commit connection)
  rollback connection := inside (inner.rollback connection)
  inTransaction connection journaled := inner.inTransaction connection journaled.world
  isValid connection journaled :=
    let (valid, after) := inner.isValid connection journaled.world
    (valid, { journaled with world := after })
  tableExists connection table :=
    noting connection (.lookedUp table) (inner.tableExists connection table)
  close connection := inside (inner.close connection)

variable {inner : Database World} {issued : Question → Prop} {connection : ConnectionId}

private theorem journal_noting (connection : ConnectionId) (event : α → Event)
    (request : Call World α) (journaled : Journaled World) :
    (noting connection event request journaled).2.journal = journaled.journal ++
      (((noting connection event request journaled).1.map event).toOption.map
        (Prod.mk connection)).toList := by
  unfold noting
  rcases request journaled.world with ⟨outcome, after⟩
  cases outcome with
  | ok result => rfl
  | error fault => exact (List.append_nil _).symm

private theorem journal_ask (connection : ConnectionId) (question : Question)
    (journaled : Journaled World) :
    ((database inner).ask connection question journaled).2.journal = journaled.journal ++
      (((database inner).ask connection question journaled).1.toOption.map
        (Prod.mk connection)).toList := by
  cases question <;> exact journal_noting connection _ _ journaled

theorem journal_asked {journaled after : Journaled World} {log : List Event}
    (asked : Asked (database inner) issued connection journaled log after) :
    after.journal = journaled.journal ++ log.map (Prod.mk connection) := by
  induction asked with
  | done world => exact (List.append_nil _).symm
  | @answered world between after question event log _ answer _ ih =>
      have noted := @journal_ask _ inner connection question world
      rw [answer] at noted
      rw [ih, noted, List.append_assoc]
      rfl
  | @refused world between after question fault log _ answer _ ih =>
      have noted := @journal_ask _ inner connection question world
      rw [answer] at noted
      rw [ih, noted, List.append_assoc]
      rfl

private theorem journal_acquire (pool : Pool (Journaled World)) :
    (pool.acquire (database inner)).2.world.journal = pool.world.journal :=
  Pool.view_acquire (fun _ _ => rfl) pool

private theorem journal_release (now : Nat) (lease : LeaseId) (pool : Pool (Journaled World)) :
    (pool.release (database inner) now lease).world.journal = pool.world.journal :=
  Pool.view_release (fun _ _ => rfl) (fun _ _ => rfl) (fun _ _ => rfl) now lease pool

end Journaled

namespace Store

variable {World : Type}

/-- A unit that succeeds adds the log of its work to the journal, and nothing else. -/
theorem UnitEnds.journal {α : Type} {inner : Database World}
    {session : Session (Journaled World)}
    (journaled : session.database = Journaled.database inner) {issued : Question → Prop}
    {transactional : Bool} {gives : α × WriteSet → List Event → Prop}
    {store after : Store (Journaled World)} {result : α}
    (ends : UnitEnds session issued transactional gives store (.ok result) after) :
    ∃ connection log writes, gives (result, writes) log ∧
      after.pool.world.journal
        = store.pool.world.journal ++ log.map (Prod.mk connection) := by
  cases ends with
  | @recorded transaction connection world log _ writes _ _ _ asked given =>
      refine ⟨connection, log, writes, given, ?_⟩
      rw [pool_recordWrites]
      rw [journaled] at asked
      exact Journaled.journal_asked asked
  | @applied pool lease connection world _ writes _ _ acquired _ bracketed =>
      have acquires : pool.world.journal = store.pool.world.journal := by
        have kept := @Journaled.journal_acquire _ inner store.pool
        rw [← journaled, acquired] at kept
        exact kept
      have released : ∀ other : Store (Journaled World),
          (other.released session lease).pool.world.journal = other.pool.world.journal := by
        intro other
        have kept := @Journaled.journal_release _ inner other.clock lease other.pool
        rw [← journaled] at kept
        exact kept
      rw [journaled] at bracketed
      rw [released, pool_written]
      cases bracketed with
      | @done _ _ log _ asked given =>
          refine ⟨connection, log, writes, given, ?_⟩
          rw [← acquires]
          exact Journaled.journal_asked asked
      | @committed _ begun worked _ log _ begins asked given commits =>
          refine ⟨connection, log, writes, given, ?_⟩
          have began : begun.journal = pool.world.journal :=
            congrArg (fun pair => Journaled.journal pair.2) begins.symm
          have committed : world.journal = worked.journal :=
            congrArg (fun pair => Journaled.journal pair.2) commits.symm
          rw [← acquires, ← began]
          exact committed.trans (Journaled.journal_asked asked)

end Store

def Deployment.journaled {World : Type} (deployment : Deployment World) :
    Deployment (Journaled World) where
  database := Journaled.database deployment.database
  dialect := deployment.dialect
  config := deployment.config
  store := deployment.store
  world := { world := deployment.world }

/-! ### Faithful journals -/

section Faithful

variable {World α : Type}

def Perspective.journaled (view : Perspective World) : Perspective (Journaled World) where
  published journaled := view.published journaled.world
  standing journaled := view.standing journaled.world
  lastId journaled := view.lastId journaled.world

theorem Perspective.Same.journaled {view : Perspective World} {before after : Journaled World}
    (same : view.Same before.world after.world) : view.journaled.Same before after :=
  ⟨same.published, same.standing, same.lastId⟩

theorem Perspective.Besides.journaled {view : Perspective World} {connection : ConnectionId}
    {before after : Journaled World}
    (besides : view.Besides connection before.world after.world) :
    view.journaled.Besides connection before after :=
  ⟨besides.standing, besides.lastId⟩

namespace Journaled

private theorem outcome_noting (connection : ConnectionId) (event : α → Event)
    (request : Call World α) (journaled : Journaled World) :
    (noting connection event request journaled).1 = (request journaled.world).1 := by
  unfold noting
  rcases request journaled.world with ⟨outcome, after⟩
  cases outcome <;> rfl

private theorem world_noting (connection : ConnectionId) (event : α → Event)
    (request : Call World α) (journaled : Journaled World) :
    (noting connection event request journaled).2.world = (request journaled.world).2 := by
  unfold noting
  rcases request journaled.world with ⟨outcome, after⟩
  cases outcome <;> rfl

end Journaled

def Faithful.journaled {layout : Layout} {inner : Database World}
    (faithful : Faithful layout inner) : Faithful layout (Journaled.database inner) where
  toPerspective := faithful.toPerspective.journaled
  Valid journaled := faithful.Valid journaled.world
  single journaled := faithful.single journaled.world
  connect connection journaled valid := by
    obtain ⟨validAfter, same⟩ := faithful.connect connection journaled.world valid
    exact ⟨validAfter, same.journaled⟩
  isValid connection journaled valid := by
    obtain ⟨validAfter, same, outside⟩ := faithful.isValid connection journaled.world valid
    exact ⟨validAfter, same.journaled, outside⟩
  close connection journaled valid := by
    obtain ⟨validAfter, published, besides, outside⟩ :=
      faithful.close connection journaled.world valid
    exact ⟨validAfter, published, besides.journaled, outside⟩
  begin connection journaled valid outside := by
    obtain ⟨validAfter, published, besides, standing⟩ :=
      faithful.begin connection journaled.world valid outside
    exact ⟨validAfter, published, besides.journaled, standing⟩
  commit connection journaled valid inside := by
    obtain ⟨validAfter, besides, ends⟩ := faithful.commit connection journaled.world valid inside
    exact ⟨validAfter, besides.journaled, ends⟩
  rollback connection journaled valid := by
    obtain ⟨validAfter, published, besides⟩ := faithful.rollback connection journaled.world valid
    exact ⟨validAfter, published, besides.journaled⟩
  execute connection journaled statement valid inside conforms := by
    obtain ⟨validAfter, published, besides, effect⟩ :=
      faithful.execute connection journaled.world statement valid inside conforms
    have world := Journaled.world_noting connection (fun _ => .executed statement)
      (inner.execute connection statement) journaled
    have outcome := Journaled.outcome_noting connection (fun _ => .executed statement)
      (inner.execute connection statement) journaled
    rw [← world] at validAfter published besides effect
    rw [← outcome] at effect
    refine ⟨validAfter, published, besides.journaled, ?_⟩
    show match (Journaled.noting connection (fun _ => Event.executed statement)
      (inner.execute connection statement) journaled).1 with
      | .ok _ => _
      | .error _ => _
    cases answer : (Journaled.noting connection (fun _ => Event.executed statement)
      (inner.execute connection statement) journaled).1 with
    | ok affected =>
        rw [answer] at effect
        exact effect
    | error fault =>
        rw [answer] at effect
        exact effect.journaled
  query connection journaled statement valid conforms := by
    obtain ⟨validAfter, same, answers⟩ :=
      faithful.query connection journaled.world statement valid conforms
    rw [← Journaled.world_noting connection (.answered statement)] at validAfter same
    refine ⟨validAfter, same.journaled, fun rows answer => answers rows ?_⟩
    rw [← Journaled.outcome_noting connection (.answered statement)]
    exact answer
  lastInsertId connection journaled valid := by
    obtain ⟨validAfter, same, answers⟩ := faithful.lastInsertId connection journaled.world valid
    rw [← Journaled.world_noting connection .generated] at validAfter same
    refine ⟨validAfter, same.journaled, fun id answer => answers id ?_⟩
    rw [← Journaled.outcome_noting connection .generated]
    exact answer
  tableExists connection journaled table valid := by
    obtain ⟨validAfter, same⟩ := faithful.tableExists connection journaled.world table valid
    rw [← Journaled.world_noting connection (.lookedUp table)] at validAfter same
    exact ⟨validAfter, same.journaled⟩

end Faithful

end EntityStore
