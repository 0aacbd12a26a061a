/-
Databases that keep a trace: every call on a connection in order, with what it was for and
how it was answered, those that were refused included. Each way in which the store uses a
connection adds calls of its own kind to the trace.
-/

import EntityStore.Proofs.Actions

set_option autoImplicit false

namespace EntityStore

inductive Deed where
  | connect
  | execute (statement : Statement)
  | query (statement : Statement)
  | lastInsertId
  | begin
  | commit
  | rollback
  | tableExists (table : QualifiedName)
  | close

def Deed.query? : Deed → Option Statement
  | query statement => some statement
  | _ => none

/-- A call on a connection. The answer has the rows of a query, and none otherwise. -/
structure Exchange where
  connection : ConnectionId
  deed : Deed
  answer : Except DatabaseError (List Row)

def Question.deed : Question → Deed
  | execute statement => .execute statement
  | query statement => .query statement
  | lastInsertId => .lastInsertId
  | tableExists table => .tableExists table

def Exchange.Asks (connection : ConnectionId) (exchange : Exchange) : Prop :=
  exchange.connection = connection ∧ ∃ question : Question, exchange.deed = question.deed

structure Traced (World : Type) where
  world : World
  trace : List Exchange := []

namespace Traced

variable {World α : Type}

def tracing (connection : ConnectionId) (deed : Deed) (rows : α → List Row)
    (request : Call World α) : Call (Traced World) α := fun traced =>
  let (outcome, after) := request traced.world
  (outcome, ⟨after, traced.trace ++ [⟨connection, deed, outcome.map rows⟩]⟩)

def noRows (_ : α) : List Row := []

/-- The database that keeps a trace. To ask whether a connection is fit is no call that
can be refused, and is not traced. -/
def database (inner : Database World) : Database (Traced World) where
  description := inner.description
  connect connection := tracing connection .connect noRows (inner.connect connection)
  execute connection statement :=
    tracing connection (.execute statement) noRows (inner.execute connection statement)
  query connection statement :=
    tracing connection (.query statement) id (inner.query connection statement)
  lastInsertId connection :=
    tracing connection .lastInsertId noRows (inner.lastInsertId connection)
  begin connection := tracing connection .begin noRows (inner.begin connection)
  commit connection := tracing connection .commit noRows (inner.commit connection)
  rollback connection := tracing connection .rollback noRows (inner.rollback connection)
  inTransaction connection traced := inner.inTransaction connection traced.world
  isValid connection traced :=
    let (valid, after) := inner.isValid connection traced.world
    (valid, { traced with world := after })
  tableExists connection table :=
    tracing connection (.tableExists table) noRows (inner.tableExists connection table)
  close connection := tracing connection .close noRows (inner.close connection)

variable {inner : Database World} {issued : Question → Prop} {connection : ConnectionId}

theorem trace_of_tracing {deed : Deed} {rows : α → List Row} {request : Call World α}
    {traced after : Traced World} {outcome : Except DatabaseError α}
    (ended : tracing connection deed rows request traced = (outcome, after)) :
    after.trace = traced.trace ++ [⟨connection, deed, outcome.map rows⟩] := by
  cases ended
  rfl

theorem trace_of_isValid {traced after : Traced World} {valid : Bool}
    (ended : (database inner).isValid connection traced = (valid, after)) :
    after.trace = traced.trace := by
  obtain ⟨_, rfl⟩ := Prod.mk.inj ended
  rfl

private theorem trace_ask (connection : ConnectionId) (question : Question)
    (traced : Traced World) :
    ∃ answer, ((database inner).ask connection question traced).2.trace
      = traced.trace ++ [⟨connection, question.deed, answer⟩] := by
  cases question <;> exact ⟨_, rfl⟩

theorem trace_asked {traced after : Traced World} {log : List Event}
    (asked : Asked (database inner) issued connection traced log after) :
    ∃ calls, after.trace = traced.trace ++ calls ∧ ∀ call ∈ calls, call.Asks connection := by
  -- one question more, in front of those that follow
  have step : ∀ {before between after : Traced World} {question : Question}
      {outcome : Except DatabaseError Event},
      (database inner).ask connection question before = (outcome, between) →
      (∃ calls, after.trace = between.trace ++ calls ∧ ∀ call ∈ calls, call.Asks connection) →
      ∃ calls, after.trace = before.trace ++ calls ∧ ∀ call ∈ calls, call.Asks connection := by
    rintro before between after question outcome answered ⟨calls, later, asks⟩
    obtain ⟨answer, first⟩ := @trace_ask _ inner connection question before
    rw [answered] at first
    refine ⟨⟨connection, question.deed, answer⟩ :: calls, ?_, ?_⟩
    · rw [later, first, List.append_assoc]
      rfl
    · intro call member
      rcases List.mem_cons.mp member with rfl | isLater
      · exact ⟨rfl, question, rfl⟩
      · exact asks call isLater
  induction asked with
  | done world => exact ⟨[], (List.append_nil _).symm, fun _ member => by cases member⟩
  | answered _ answer _ ih => exact step answer ih
  | refused _ answer _ ih => exact step answer ih

/-! ### Pools -/

/-- Acquiring adds at most the opening of a connection to the trace. -/
theorem trace_acquire (pool : Pool (Traced World)) :
    ∃ calls, (pool.acquire (database inner)).2.world.trace = pool.world.trace ++ calls ∧
      ∀ call ∈ calls, call.deed = .connect := by
  have none : ∃ calls, pool.world.trace = pool.world.trace ++ calls ∧
      ∀ call ∈ calls, call.deed = .connect :=
    ⟨[], (List.append_nil _).symm, fun _ member => by cases member⟩
  have acquires := Pool.acquires (database inner) pool
  generalize pool.acquire (database inner) = ended at acquires
  obtain ⟨outcome, after⟩ := ended
  cases acquires with
  | closed _ => exact none
  | reused _ _ => exact none
  | exhausted _ _ _ => exact none
  | refused connects =>
      refine ⟨_, trace_of_tracing connects, fun call member => ?_⟩
      rw [List.mem_singleton.mp member]
  | opened _ _ _ connects =>
      refine ⟨_, trace_of_tracing connects, fun call member => ?_⟩
      rw [List.mem_singleton.mp member]

private theorem trace_replenishes {now : Nat} {pool after : Pool (Traced World)}
    (ends : Pool.Replenishes (database inner) now pool after) :
    ∃ calls, after.world.trace = pool.world.trace ++ calls ∧
      ∀ call ∈ calls, call.deed = .connect := by
  cases ends with
  | kept => exact ⟨[], (List.append_nil _).symm, fun _ member => by cases member⟩
  | refused connects =>
      refine ⟨_, trace_of_tracing connects, fun call member => ?_⟩
      rw [List.mem_singleton.mp member]
  | opened _ connects =>
      refine ⟨_, trace_of_tracing connects, fun call member => ?_⟩
      rw [List.mem_singleton.mp member]

/-- A connection that is discarded is closed, and at most another one is opened. -/
theorem trace_discarded {now : Nat} {pool discarded after : Pool (Traced World)}
    {checked : Traced World}
    (isUnfit : pool.isClosed = true ∧ checked = pool.world ∨
      pool.isClosed = false ∧ (database inner).isValid connection pool.world = (false, checked))
    (closed : discarded.world = ((database inner).close connection checked).2)
    (replenishes : Pool.Replenishes (database inner) now discarded after) :
    ∃ answer opening, after.world.trace
        = pool.world.trace ++ ⟨connection, .close, answer⟩ :: opening ∧
      ∀ call ∈ opening, call.deed = .connect := by
  have same : checked.trace = pool.world.trace := by
    rcases isUnfit with ⟨_, rfl⟩ | ⟨_, unfit⟩
    · rfl
    · exact trace_of_isValid unfit
  obtain ⟨opening, grown, opens⟩ := trace_replenishes replenishes
  rcases closes : (database inner).close connection checked with ⟨outcome, world⟩
  rw [closed, closes, trace_of_tracing closes, same, List.append_assoc] at grown
  exact ⟨_, opening, grown, opens⟩

/-- Giving a lease back adds at most the closing of its connection and the opening of
another one. -/
theorem trace_releases {now : Nat} {lease : LeaseId} {pool after : Pool (Traced World)}
    (held : pool.leased.lookup lease = some connection)
    (ends : Pool.Releases (database inner) now lease pool after) :
    ∃ calls, after.world.trace = pool.world.trace ++ calls ∧ ∀ call ∈ calls,
      call.deed = .connect ∨ (call.deed = .close ∧ call.connection = connection) := by
  cases ends with
  | unknown missing =>
      rw [held] at missing
      cases missing
  | returned _ _ valid =>
      exact ⟨[], by simpa using trace_of_isValid valid, fun _ member => by cases member⟩
  | discarded heldOther isUnfit replenishes =>
      obtain rfl := Option.some.inj (held.symm.trans heldOther)
      obtain ⟨answer, opening, grown, opens⟩ := trace_discarded isUnfit rfl replenishes
      refine ⟨_, grown, fun call member => ?_⟩
      rcases List.mem_cons.mp member with rfl | isOpening
      · exact Or.inr ⟨rfl, rfl⟩
      · exact Or.inl (opens call isOpening)

end Traced

def Deployment.traced {World : Type} (deployment : Deployment World) :
    Deployment (Traced World) where
  database := Traced.database deployment.database
  dialect := deployment.dialect
  config := deployment.config
  store := deployment.store
  world := { world := deployment.world }

end EntityStore
