/-
Work on a connection. The work of a unit only asks: it makes calls on the connection of
its lease, changes nothing of the store but the world behind the pool, and leaves a log
of what was done. The rules say what a piece of work asks for, and what its log is when
it succeeds.
-/

import EntityStore.Proofs.Operations
import EntityStore.Proofs.Replays

set_option autoImplicit false

namespace EntityStore

inductive Question where
  | execute (statement : Statement)
  | query (statement : Statement)
  | lastInsertId
  | tableExists (table : QualifiedName)

/-- The questions of a unit: its statements conform, and only a unit that writes has
any executed. -/
inductive Question.Issued (fits : Mapping → Prop) (writes : Bool) : Question → Prop where
  | execute {statement : Statement} : writes = true → statement.Conforms fits →
      Issued fits writes (.execute statement)
  | query {statement : Statement} : statement.Conforms fits →
      Issued fits writes (.query statement)
  | lastInsertId : Issued fits writes .lastInsertId
  | tableExists (table : QualifiedName) : Issued fits writes (.tableExists table)

def Database.ask {World : Type} (database : Database World) (connection : ConnectionId) :
    Question → Call World Event
  | .execute statement => fun world =>
      let (outcome, after) := database.execute connection statement world
      (outcome.map fun _ => .executed statement, after)
  | .query statement => fun world =>
      let (outcome, after) := database.query connection statement world
      (outcome.map (.answered statement), after)
  | .lastInsertId => fun world =>
      let (outcome, after) := database.lastInsertId connection world
      (outcome.map .generated, after)
  | .tableExists table => fun world =>
      let (outcome, after) := database.tableExists connection table world
      (outcome.map (.lookedUp table), after)

/-- Every event tells what was asked, and an answer what the database gave. -/
theorem Database.ask_ok {World : Type} {database : Database World} {connection : ConnectionId}
    {question : Question} {event : Event} {world after : World}
    (answer : database.ask connection question world = (.ok event, after)) :
    (∃ statement, question = .execute statement ∧ event = .executed statement) ∨
      (∃ statement rows, question = .query statement ∧ event = .answered statement rows ∧
        (database.query connection statement world).1 = .ok rows) ∨
      (∃ id, question = .lastInsertId ∧ event = .generated id) ∨
      ∃ table found, question = .tableExists table ∧ event = .lookedUp table found := by
  have noted {α : Type} {outcome : Except DatabaseError α} {note : α → Event}
      (mapped : outcome.map note = .ok event) : ∃ result, outcome = .ok result ∧ event = note result := by
    cases outcome with
    | error fault => cases mapped
    | ok result =>
        cases mapped
        exact ⟨result, rfl, rfl⟩
  have outcome := congrArg Prod.fst answer
  cases question with
  | execute statement =>
      obtain ⟨_, _, same⟩ := noted outcome
      exact Or.inl ⟨statement, rfl, same⟩
  | query statement =>
      obtain ⟨rows, given, same⟩ := noted outcome
      exact Or.inr (Or.inl ⟨statement, rows, rfl, same, given⟩)
  | lastInsertId =>
      obtain ⟨id, _, same⟩ := noted outcome
      exact Or.inr (Or.inr (Or.inl ⟨id, rfl, same⟩))
  | tableExists table =>
      obtain ⟨found, _, same⟩ := noted outcome
      exact Or.inr (Or.inr (Or.inr ⟨table, found, rfl, same⟩))

/-- A connection was asked one thing after another; the log holds what it did, and
nothing for what it refused. -/
inductive Asked {World : Type} (database : Database World) (issued : Question → Prop)
    (connection : ConnectionId) : World → List Event → World → Prop where
  | done (world : World) : Asked database issued connection world [] world
  | answered {world between after : World} {question : Question} {event : Event}
      {log : List Event} :
      issued question → database.ask connection question world = (.ok event, between) →
      Asked database issued connection between log after →
      Asked database issued connection world (event :: log) after
  | refused {world between after : World} {question : Question} {fault : DatabaseError}
      {log : List Event} :
      issued question → database.ask connection question world = (.error fault, between) →
      Asked database issued connection between log after →
      Asked database issued connection world log after

namespace Asked

variable {World : Type} {database : Database World} {issued : Question → Prop}
  {connection : ConnectionId}

theorem append {world between after : World} {first second : List Event}
    (askedFirst : Asked database issued connection world first between)
    (askedSecond : Asked database issued connection between second after) :
    Asked database issued connection world (first ++ second) after := by
  induction askedFirst with
  | done world => exact askedSecond
  | answered fits answer later ih => exact .answered fits answer (ih askedSecond)
  | refused fits answer later ih => exact .refused fits answer (ih askedSecond)

private theorem one {world after : World} {question : Question} {event : Event}
    (fits : issued question)
    (answer : database.ask connection question world = (.ok event, after)) :
    Asked database issued connection world [event] after :=
  .answered fits answer (.done after)

private theorem none {world after : World} {question : Question} {fault : DatabaseError}
    (fits : issued question)
    (answer : database.ask connection question world = (.error fault, after)) :
    Asked database issued connection world [] after :=
  .refused fits answer (.done after)

end Asked

namespace Store

variable {World : Type} {α β : Type}

def withWorld (store : Store World) (world : World) : Store World :=
  { store with pool := { store.pool with world := world } }

@[simp] theorem withWorld_withWorld (store : Store World) (first second : World) :
    (store.withWorld first).withWorld second = store.withWorld second := rfl

/-- The operation only asks the connection of the lease; when it succeeds, its result and
its log are as `gives` says. -/
def Asks (database : Database World) (issued : Question → Prop) (lease : LeaseId)
    (operation : Operation World α) (gives : α → List Event → Prop) : Prop :=
  ∀ (store : Store World) (connection : ConnectionId),
    store.pool.leased.lookup lease = some connection →
    ∃ outcome world log, operation.run store = (outcome, store.withWorld world) ∧
      Asked database issued connection store.pool.world log world ∧
      ∀ result, outcome = .ok result → gives result log

variable {database : Database World} {issued : Question → Prop} {lease : LeaseId}

theorem Asks.weaken {operation : Operation World α} {strong weak : α → List Event → Prop}
    (asks : Asks database issued lease operation strong)
    (weaker : ∀ result log, strong result log → weak result log) :
    Asks database issued lease operation weak := by
  intro store connection held
  obtain ⟨outcome, world, log, ran, asked, given⟩ := asks store connection held
  exact ⟨outcome, world, log, ran, asked, fun result ok => weaker result log (given result ok)⟩

theorem asks_pure {result : α} {gives : α → List Event → Prop} (given : gives result []) :
    Asks database issued lease (pure result) gives := by
  intro store connection held
  refine ⟨.ok result, store.pool.world, [], rfl, .done _, ?_⟩
  intro other same
  cases same
  exact given

theorem asks_throw {error : Error} {gives : α → List Event → Prop} :
    Asks database issued lease (throw error) gives := by
  intro store connection held
  refine ⟨.error error, store.pool.world, [], rfl, .done _, ?_⟩
  intro other same
  cases same

theorem asks_settleOutcome {outcome : Except Error α} {gives : α → List Event → Prop}
    (given : ∀ result, outcome = .ok result → gives result []) :
    Asks database issued lease (settleOutcome outcome) gives := by
  cases outcome with
  | ok result => exact asks_pure (given result rfl)
  | error error => exact asks_throw

/-- The rule for sequences: the logs of both parts stand one after the other. -/
theorem asks_bind {operation : Operation World α} {next : α → Operation World β}
    {first : α → List Event → Prop} {gives : β → List Event → Prop}
    (asksFirst : Asks database issued lease operation first)
    (asksNext : ∀ result log, first result log →
      Asks database issued lease (next result) fun final later => gives final (log ++ later)) :
    Asks database issued lease (operation >>= next) gives := by
  intro store connection held
  obtain ⟨outcome, between, log, ran, asked, given⟩ := asksFirst store connection held
  cases outcome with
  | error error =>
      refine ⟨.error error, between, log, ?_, asked, ?_⟩
      · rw [run_bind, ran]
      · intro result same
        cases same
  | ok result =>
      obtain ⟨outcome', world, later, ran', asked', given'⟩ :=
        asksNext result log (given result rfl) (store.withWorld between) connection held
      refine ⟨outcome', world, log ++ later, ?_, asked.append asked', given'⟩
      rw [run_bind, ran]
      exact ran'

/-! ### Single calls -/

private theorem asks_call {request : ConnectionId → Call World α} (question : Question)
    {toEvent : α → Event} {gives : α → List Event → Prop} (fits : issued question)
    (isQuestion : ∀ connection world, database.ask connection question world =
      ((request connection world).1.map toEvent, (request connection world).2))
    (given : ∀ result, gives result [toEvent result]) :
    Asks database issued lease (call lease request) gives := by
  intro store connection held
  have answer := isQuestion connection store.pool.world
  have ran := run_call lease request store
  simp only [Pool.callLease, held, Pool.call] at ran
  cases outcome : (request connection store.pool.world).1 with
  | ok result =>
      rw [outcome] at answer ran
      refine ⟨.ok result, _, [toEvent result], ran, .one fits answer, ?_⟩
      intro other same
      cases same
      exact given result
  | error fault =>
      rw [outcome] at answer ran
      refine ⟨.error (.ofDatabase fault), _, [], ran, .none fits answer, ?_⟩
      intro other same
      cases same

variable {session : Session World} {fits : Mapping → Prop} {writes : Bool}

theorem asks_execute {statement : Statement} {gives : Nat → List Event → Prop}
    (conforms : statement.Conforms fits)
    (given : ∀ affected, gives affected [.executed statement]) :
    Asks session.database (Question.Issued fits true) lease (execute session lease statement) gives :=
  asks_call (.execute statement) (.execute rfl conforms) (fun _ _ => rfl) given

theorem asks_query {statement : Statement} {gives : List Row → List Event → Prop}
    (conforms : statement.Conforms fits)
    (given : ∀ rows, gives rows [.answered statement rows]) :
    Asks session.database (Question.Issued fits writes) lease (query session lease statement) gives :=
  asks_call (.query statement) (.query conforms) (fun _ _ => rfl) given

theorem asks_lastInsertId {gives : Int64 → List Event → Prop}
    (given : ∀ id, gives id [.generated id]) :
    Asks session.database (Question.Issued fits writes) lease
      (call lease session.database.lastInsertId) gives :=
  asks_call .lastInsertId .lastInsertId (fun _ _ => rfl) given

theorem asks_tableExists {table : QualifiedName} {gives : Bool → List Event → Prop}
    (given : ∀ found, gives found [.lookedUp table found]) :
    Asks session.database (Question.Issued fits writes) lease
      (call lease fun connection => session.database.tableExists connection table) gives :=
  asks_call (.tableExists table) (.tableExists table) (fun _ _ => rfl) given

end Store

end EntityStore
