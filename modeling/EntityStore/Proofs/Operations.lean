/-
How operations run. Each way of putting operations together has one rule for its
outcome and the store it leaves, and one rule for what it ensures whatever the outcome
is. Everything that is proved about longer operations goes through these rules.
-/

import EntityStore.Store.Basic

set_option autoImplicit false

namespace EntityStore
namespace Store

variable {World : Type} {α β : Type}

/-! ### Runs -/

theorem run_throw (error : Error) (store : Store World) :
    (throw error : Operation World α).run store = (.error error, store) := rfl

theorem run_get (store : Store World) :
    (get : Operation World (Store World)).run store = (.ok store, store) := rfl

theorem run_set (next store : Store World) :
    (set next : Operation World Unit).run store = (.ok (), next) := rfl

theorem run_modify (change : Store World → Store World) (store : Store World) :
    (modify change : Operation World Unit).run store = (.ok (), change store) := rfl

theorem run_attempt (operation : Operation World α) (store : Store World) :
    (attempt operation).run store = (.ok (operation.run store).1, (operation.run store).2) := rfl

theorem run_settleOutcome (outcome : Except Error α) (store : Store World) :
    (settleOutcome outcome).run store = (outcome, store) := by
  cases outcome <;> rfl

/-- What follows an operation runs on what it leaves, unless it fails. -/
theorem run_bind (operation : Operation World α) (next : α → Operation World β)
    (store : Store World) :
    (operation >>= next).run store =
      match operation.run store with
      | (.ok result, after) => (next result).run after
      | (.error error, after) => (.error error, after) := by
  rw [ExceptT.run_bind]
  show StateT.bind operation.run _ store = _
  unfold StateT.bind
  generalize operation.run store = ended
  rcases ended with ⟨outcome, after⟩
  cases outcome <;> rfl

/-- A sequence succeeds exactly when both parts do, one after the other. -/
theorem run_bind_eq_ok {operation : Operation World α} {next : α → Operation World β}
    {store final : Store World} {result : β} :
    (operation >>= next).run store = (.ok result, final) ↔
      ∃ first between, operation.run store = (.ok first, between) ∧
        (next first).run between = (.ok result, final) := by
  rw [run_bind]
  rcases operation.run store with ⟨outcome, after⟩
  cases outcome with
  | ok first =>
      constructor
      · intro finished
        exact ⟨first, after, rfl, finished⟩
      · rintro ⟨first', between, same, finished⟩
        cases same
        exact finished
  | error error =>
      constructor
      · intro finished
        cases finished
      · rintro ⟨first', between, same, finished⟩
        cases same

/-- How a call on a lease runs: only the world behind the pool may change. -/
theorem run_call (lease : LeaseId) (request : ConnectionId → Call World α)
    (store : Store World) :
    (call lease request).run store =
      ((store.pool.callLease lease request).1.mapError Error.ofDatabase,
        { store with pool := (store.pool.callLease lease request).2 }) := by
  unfold call
  rw [run_bind, run_get]
  simp only
  rw [run_bind, run_set]
  simp only
  rw [run_settleOutcome]

/-! ### What an operation ensures -/

/-- Run on the store, the operation ends with an outcome and a store of which `holds`
is true. -/
def Ensures (operation : Operation World α) (store : Store World)
    (holds : Except Error α → Store World → Prop) : Prop :=
  holds (operation.run store).1 (operation.run store).2

theorem Ensures.weaken {operation : Operation World α} {store : Store World}
    {strong weak : Except Error α → Store World → Prop}
    (ensured : Ensures operation store strong)
    (weaker : ∀ outcome after, strong outcome after → weak outcome after) :
    Ensures operation store weak :=
  weaker _ _ ensured

theorem Ensures.of_run {operation : Operation World α} {store after : Store World}
    {outcome : Except Error α} {holds : Except Error α → Store World → Prop}
    (ensured : Ensures operation store holds)
    (ended : operation.run store = (outcome, after)) : holds outcome after := by
  unfold Ensures at ensured
  rw [ended] at ensured
  exact ensured

theorem ensures_bind {operation : Operation World α} {next : α → Operation World β}
    {store : Store World} {holds : Except Error β → Store World → Prop}
    (ensured : Ensures operation store fun outcome between =>
      match outcome with
      | .ok result => Ensures (next result) between holds
      | .error error => holds (.error error) between) :
    Ensures (operation >>= next) store holds := by
  unfold Ensures at *
  rw [run_bind]
  revert ensured
  rcases operation.run store with ⟨outcome, after⟩
  intro ensured
  cases outcome with
  | ok result => exact ensured
  | error error => exact ensured

end Store
end EntityStore
