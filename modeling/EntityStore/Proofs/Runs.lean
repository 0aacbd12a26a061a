/-
Runs of a store: acts of threads that follow one another, each with what came of it and
the store that it left. Steps that are given can be taken one after the other, which makes
a run of them as long as they name instances that are there.
-/

import EntityStore.Proofs.Actions
import EntityStore.Proofs.FaithfulTables
import EntityStore.Samples
import EntityStore.TestStore

set_option autoImplicit false

namespace EntityStore

theorem toOption_eq_some {ε α : Type} {outcome : Except ε α} {result : α} :
    outcome.toOption = some result ↔ outcome = .ok result := by
  cases outcome <;> simp [Except.toOption]

theorem PropertyValue.mem_entity? {value : PropertyValue} {target : InstanceId} :
    target ∈ value.entity? ↔ value = .entity target := by
  cases value <;> simp [entity?]

theorem PropertyValue.forall_entity? {value : PropertyValue} {size : Nat} :
    (∀ target ∈ value.entity?, target < size) ↔ ∀ target, value = .entity target → target < size :=
  forall_congr' fun _ => by rw [mem_entity?]

instance (size : Nat) (value : PropertyValue) :
    Decidable (∀ target, value = .entity target → target < size) :=
  decidable_of_iff _ PropertyValue.forall_entity?

instance Action.decidableInMemory (size : Nat) : (action : Action) →
    Decidable (action.InMemory size)
  | create _ values => inferInstanceAs (Decidable (∀ entry ∈ values,
      ∀ target, entry.2 = .entity target → target < size))
  | assign subject _ value => inferInstanceAs (Decidable (subject < size ∧
      ∀ target, value = .entity target → target < size))
  | read subject _ | readObject subject _ | readCollection subject _ | forgetCollections subject
  | save subject | remove subject => inferInstanceAs (Decidable (subject < size))
  | define _ | sync | drop | reference _ _ | find _ _ | query _ _ _ | begin | commit | rollback
  | clearCache | close => inferInstanceAs (Decidable True)

structure Act (World : Type) where
  thread : ThreadId
  action : Action
  outcome : Except Error Unit
  after : Store World

namespace Deployment

variable {World : Type}

inductive Run (deployment : Deployment World) :
    Store World → List (Act World) → Store World → Prop where
  | nil (store : Store World) : Run deployment store [] store
  | cons {store between after : Store World} {thread : ThreadId} {action : Action}
      {outcome : Except Error Unit} {rest : List (Act World)} :
      action.InMemory store.memory.size →
      (action.perform (deployment.session thread)).run store = (outcome, between) →
      Run deployment between rest after →
      Run deployment store (⟨thread, action, outcome, between⟩ :: rest) after

def enact (deployment : Deployment World) : List (ThreadId × Action) → Store World →
    List (Act World)
  | [], _ => []
  | (thread, action) :: rest, store =>
      let (outcome, between) := (action.perform (deployment.session thread)).run store
      ⟨thread, action, outcome, between⟩ :: deployment.enact rest between

def left : Store World → List (Act World) → Store World
  | store, [] => store
  | _, act :: rest => left act.after rest

def named : Store World → List (Act World) → Bool
  | _, [] => true
  | store, act :: rest => decide (act.action.InMemory store.memory.size) && named act.after rest

variable {deployment : Deployment World} {allowed : Store World → ThreadId → Action → Prop}
  {store between after : Store World} {acts : List (Act World)}

theorem run_enact {steps : List (ThreadId × Action)}
    (inMemory : named store (deployment.enact steps store) = true) :
    deployment.Run store (deployment.enact steps store)
      (left store (deployment.enact steps store)) := by
  induction steps generalizing store with
  | nil => exact .nil store
  | cons step rest ih =>
      obtain ⟨names, later⟩ := (Bool.and_eq_true _ _).mp inMemory
      exact .cons (of_decide_eq_true names) rfl (ih later)

theorem steps_enact (steps : List (ThreadId × Action)) (store : Store World) :
    (deployment.enact steps store).map (fun act => (act.thread, act.action)) = steps := by
  induction steps generalizing store with
  | nil => rfl
  | cons step rest ih => exact congrArg (List.cons step) (ih _)

theorem mem_enact {steps : List (ThreadId × Action)} {store : Store World} {act : Act World}
    (member : act ∈ deployment.enact steps store) : (act.thread, act.action) ∈ steps := by
  have isStep := List.mem_map_of_mem (f := fun act => (act.thread, act.action)) member
  rwa [steps_enact] at isStep

theorem Run.left_eq (run : deployment.Run store acts after) : left store acts = after := by
  induction run with
  | nil store => rfl
  | cons _ _ _ ih => exact ih

theorem Run.split {earlier later : List (Act World)}
    (run : deployment.Run store (earlier ++ later) after) :
    deployment.Run store earlier (left store earlier) ∧
      deployment.Run (left store earlier) later after := by
  induction earlier generalizing store with
  | nil => exact ⟨.nil store, run⟩
  | cons act rest ih =>
      cases run with
      | cons inMemory ran runRest =>
          obtain ⟨first, second⟩ := ih runRest
          exact ⟨.cons inMemory ran first, second⟩

/-- The store that steps lead to from the new one, if they name instances that are there. -/
def visited? (deployment : Deployment World) (steps : List (ThreadId × Action)) :
    Option (Store World) :=
  match (Store.create deployment.database deployment.config deployment.store #[]
    deployment.world).1 with
  | .ok store =>
      if named store (deployment.enact steps store) then
        some (left store (deployment.enact steps store))
      else none
  | .error _ => none

/-- A run leads from stores that are reached to others, if its actions are always allowed. -/
theorem Run.reached (run : deployment.Run store acts after)
    (always : ∀ store, ∀ act ∈ acts, allowed store act.thread act.action)
    (reached : deployment.Reached allowed store) : deployment.Reached allowed after := by
  induction run with
  | nil store => exact reached
  | cons inMemory ran _ ih =>
      exact ih (fun store act member => always store act (List.mem_cons_of_mem _ member))
        (.acted reached (always _ _ List.mem_cons_self) inMemory ran)

theorem Run.regular (run : deployment.Run store acts after) (regular : store.Regular) :
    after.Regular := by
  induction run with
  | nil store => exact regular
  | cons inMemory ran _ ih =>
      exact ih (((Action.follows_perform regular inMemory).of_run ran).regular regular)

theorem Run.grows (run : deployment.Run store acts after) (regular : store.Regular) :
    store.Grows after := by
  induction run with
  | nil store => exact .of_extent rfl
  | cons inMemory ran _ ih =>
      have course := (Action.follows_perform regular inMemory).of_run ran
      exact course.grows.trans (ih (course.regular regular))

theorem reached_visited {steps : List (ThreadId × Action)}
    (always : ∀ store thread action, (thread, action) ∈ steps → allowed store thread action)
    (visited : deployment.visited? steps = some store) : deployment.Reached allowed store := by
  unfold visited? at visited
  split at visited
  · rename_i opened creates
    split at visited
    · rename_i inMemory
      cases visited
      exact (run_enact inMemory).reached (fun store _ member => always store _ _ (mem_enact member))
        (.created (Prod.ext creates rfl))
    · cases visited
  · cases visited

theorem enact_append (steps more : List (ThreadId × Action)) (store : Store World) :
    deployment.enact (steps ++ more) store =
      deployment.enact steps store ++
        deployment.enact more (left store (deployment.enact steps store)) := by
  induction steps generalizing store with
  | nil => rfl
  | cons step rest ih => exact congrArg (List.cons _) (ih _)

theorem left_append (store : Store World) (acts more : List (Act World)) :
    left store (acts ++ more) = left (left store acts) more := by
  induction acts generalizing store with
  | nil => rfl
  | cons act rest ih => exact ih _

theorem named_append (store : Store World) (acts more : List (Act World)) :
    named store (acts ++ more) = (named store acts && named (left store acts) more) := by
  induction acts generalizing store with
  | nil => rfl
  | cons act rest ih =>
      rw [List.cons_append, named, named, left, ih, Bool.and_assoc]

private theorem visited?_snoc {steps : List (ThreadId × Action)} {thread : ThreadId}
    {action : Action} (visited : deployment.visited? (steps ++ [(thread, action)]) = some after) :
    ∃ store, deployment.visited? steps = some store ∧ action.InMemory store.memory.size ∧
      ((action.perform (deployment.session thread)).run store).2 = after := by
  unfold visited? at visited ⊢
  split at visited
  · rename_i opened _
    split at visited
    · rename_i inMemory
      cases visited
      rw [enact_append, named_append, Bool.and_eq_true] at inMemory
      rw [enact_append, left_append]
      refine ⟨_, if_pos inMemory.1, ?_, rfl⟩
      exact of_decide_eq_true ((Bool.and_eq_true _ _).mp inMemory.2).1
    · cases visited
  · cases visited

/-- One step more is taken where it is allowed. -/
theorem reached_snoc {steps : List (ThreadId × Action)} {thread : ThreadId} {action : Action}
    (reached : ∀ store, deployment.visited? steps = some store → deployment.Reached allowed store)
    (allows : ∀ store, deployment.visited? steps = some store → allowed store thread action)
    (after : Store World) (visited : deployment.visited? (steps ++ [(thread, action)]) = some after) :
    deployment.Reached allowed after := by
  obtain ⟨store, isStore, inMemory, rfl⟩ := visited?_snoc visited
  exact .acted (reached store isStore) (allows store isStore) inMemory rfl

end Deployment

/-! ### A sample -/

namespace Samples

def people : List Definition := [("Person", ({} : MappingSpec)
  |>.withProperty "name" (.bare "string")
  |>.withProperty "friend" (.detailed (PropertyOptions.object "Person")))]

/-- A store is opened over tables in memory of which there are none yet. -/
def deployment : Deployment Tables.World where
  database := TestStore.tablesDatabase
  dialect := Dialect.sqlite
  config := TestStore.config
  store := 0
  world := {}

def faithful : Faithful (Tables.layout fun _ => "id") deployment.database :=
  Tables.faithful (fun _ => "id") "sqlite:test.db"

/-- What a thread does to have a table of people. -/
def settled (thread : ThreadId) : List (ThreadId × Action) :=
  [(thread, .define people), (thread, .sync)]

def person (name : String) : Action := .create "Person" [("name", .value (.text name))]

def friends : List (ThreadId × Action) := settled 0 ++ [
  (0, person "Ada"),
  (0, .create "Person" [("name", .value (.text "Bo")), ("friend", .entity 0)]),
  (0, .assign 0 "friend" (.entity 1))]

def renamed : List (ThreadId × Action) :=
  [(0, person "Ada"), (0, .save 0), (0, .assign 0 "name" (.value (.text "Bo"))), (0, .save 0)]

def saved : List (ThreadId × Action) := settled 0 ++ [(0, person "Ada"), (0, .save 0)]

def withdrawn : List (ThreadId × Action) := settled 0 ++ [
  (0, .begin), (0, person "Ada"), (0, .save 0), (0, .remove 0)]

def replaced : List (ThreadId × Action) := [
  (0, .assign 0 "name" (.value (.text "Bo"))), (0, .save 0), (0, person "Cy"), (0, .save 1),
  (0, .remove 0)]

/-- Ada is given another name and saved; another instance of her key reads it. -/
def overheard : List (ThreadId × Action) := [
  (0, .assign 0 "name" (.value (.text "Bo"))), (0, .save 0),
  (0, .reference "Person" 1), (0, .read 1 "name")]

/-- Ada is saved; another instance of her key is given another name and not yet saved. -/
def twofold : List (ThreadId × Action) := settled 0 ++ [
  (0, person "Ada"), (0, .save 0),
  (0, .reference "Person" 1), (0, .assign 1 "name" (.value (.text "Bo")))]

/-- That instance is saved too, and Ada is given the name that she has had. -/
def stale : List (ThreadId × Action) := twofold ++ [
  (0, .save 1), (0, .assign 0 "name" (.value (.text "Ada")))]

/-- Ada is new, and so is something whose type has no table. -/
def haunted : List (ThreadId × Action) := settled 0 ++ [
  (0, .define [("Ghost", ({} : MappingSpec).withProperty "name" (.bare "string"))]),
  (0, .create "Ghost" []),
  (0, person "Ada")]

end Samples

end EntityStore
