/-
Whoever holds collections is found. Between the operations of threads, connections are checked
out and given back, the pool is maintained, other clients write, time passes, and instances that
nobody uses any more drop out of the table of owners. Through all of it an open store lists
every holder of collections under the key that it has now, so that invalidating this key makes
it forget them.
-/

import EntityStore.Proofs.Forgetting

set_option autoImplicit false

namespace EntityStore
namespace Store

variable {World : Type} {database : Database World} {store after : Store World}
  {subject : InstanceId} {keys : List Key}

/-! ### Instances that are gone -/

def sweep (gone : InstanceId → Bool) (store : Store World) : Store World :=
  { store with owners :=
      store.owners.map fun entry => (entry.1, entry.2.filter fun subject => !gone subject) }

private theorem regular_sweep (regular : store.Regular) (gone : InstanceId → Bool) :
    (store.sweep gone).Regular :=
  ⟨regular.sound.transfer_same rfl rfl rfl, regular.leased.transfer_same rfl rfl⟩

private theorem lists_sweep {gone : InstanceId → Bool} {key : Key} (lists : store.Lists key subject)
    (stays : gone subject = false) : (store.sweep gone).Lists key subject := by
  obtain ⟨members, found, isMember⟩ := lists
  refine ⟨members.filter fun other => !gone other, ?_, ?_⟩
  · have swept := lookup_map_content
      (fun _ members => members.filter fun other => !gone other) store.owners key
    rw [found] at swept
    exact swept
  · exact List.mem_filter.mpr ⟨isMember, by rw [stays]; rfl⟩

private theorem sheds_sweep {gone : InstanceId → Bool}
    (none : ∀ subject, gone subject = true → (store.instanceAt subject).collections = []) :
    store.Sheds (store.sweep gone) := by
  have memory : (store.sweep gone).memory = store.memory := rfl
  refine sheds_of_owns rfl (fun _ _ _ => (owns_of_memory memory).mp)
    (fun _ _ subject key owns lists => lists_sweep lists ?_) (holdsStill_of_memory memory)
  have holds := (owns_of_memory memory).mp owns
  cases isGone : gone subject with
  | false => rfl
  | true => exact absurd (none subject isGone) holds.held

/-! ### What happens beside the operations -/

/-- Something happens that is no operation of a thread on the store. -/
inductive Tends (database : Database World) (store : Store World) : Store World → Prop where
  /-- Other clients and calls on connections that were checked out may change the world. -/
  | changed (world : World) : Tends database store (store.withWorld world)
  | checkedOut {outcome : Except Error LeaseId} {pool : Pool World} :
      store.pool.acquire database = (outcome, pool) → Tends database store { store with pool := pool }
  /-- The lease of a transaction is not given back as long as it is open. -/
  | givenBack (session : Session World) {lease : LeaseId} : lease ∉ store.leases →
      Tends database store (store.released session lease)
  | maintained : Tends database store
      { store with pool := store.pool.maintain database store.clock }
  | passed (now : Nat) : Tends database store { store with clock := now }
  /-- The cache can be used by itself. -/
  | cached (cache : Cache) : Tends database store { store with cache := cache }

theorem Tends.regular (tends : store.Tends database after) (regular : store.Regular) :
    after.Regular := by
  cases tends with
  | changed world => exact regular.withWorld world
  | checkedOut acquired => exact regular.acquire acquired
  | givenBack session free => exact regular.released free
  | maintained =>
      refine ⟨regular.sound.transfer_same rfl rfl rfl, regular.leased.numbered.maintain database _,
        regular.leased.distinct, fun lease member => ?_⟩
      -- Maintenance closes idle connections alone.
      rw [Pool.maintain_eq]
      exact regular.leased.held lease member
  | passed _ => exact ⟨regular.sound.transfer_same rfl rfl rfl, regular.leased.transfer_same rfl rfl⟩
  | cached _ => exact ⟨regular.sound.transfer_same rfl rfl rfl, regular.leased.transfer_same rfl rfl⟩

theorem Tends.sheds (tends : store.Tends database after) : store.Sheds after := by
  cases tends <;> exact sheds_of_same rfl rfl rfl

/-! ### Forgetting -/

private theorem instanceAt_invalidateOwners (knows : store.KnowsOwners)
    (isOpen : store.isOpen = true) (bound : (store.instanceAt subject).key ∈ keys) :
    (store.invalidateOwners keys).instanceAt subject
      = { store.instanceAt subject with collections := [] } := by
  have key : ((store.invalidateOwners keys).instanceAt subject).key
      = (store.instanceAt subject).key := part_invalidateOwners Instance.key (fun _ => rfl) _ _ _
  have none : ((store.invalidateOwners keys).instanceAt subject).collections = [] := by
    by_contra held
    exact disowns_invalidateOwners knows isOpen keys _ bound subject ⟨held, key⟩
  calc (store.invalidateOwners keys).instanceAt subject
      = { (store.invalidateOwners keys).instanceAt subject with collections := [] } := by
        rw [← none]
    _ = { store.instanceAt subject with collections := [] } :=
        part_invalidateOwners (fun content => { content with collections := [] })
          (fun _ => rfl) keys store subject

end Store

namespace Samples

/-- There are three instances of Ada, and Bo becomes her friend in a transaction that is rolled
back. Then he is saved again, all of them read their friends, and one of Ada's instances is not
used any more. -/
def reread : List (ThreadId × Action) := acquainted ++ [
  (0, .reference "Person" 1), (0, .reference "Person" 1),
  (0, .readCollection 0 "friends"), (0, .readCollection 1 "friends"), (0, .begin),
  (0, .create "Person" [("name", .value (.text "Bo")), ("friend", .entity 0)]), (0, .save 3),
  (0, .readCollection 3 "friends"), (0, .readCollection 0 "friends"), (0, .rollback),
  (0, .save 3), (0, .readCollection 0 "friends"), (0, .readCollection 1 "friends"),
  (0, .readCollection 2 "friends"), (0, .readCollection 3 "friends"), (0, .forgetCollections 2)]

def holders : List (InstanceId × Int64) := [(0, 1), (1, 1), (3, 2)]

end Samples

/-! ### Everything that is done -/

namespace Deployment

variable {World α : Type} {deployment : Deployment World} {store after : Store World}
  {allowed : Store World → ThreadId → Action → Prop} {thread : ThreadId} {action : Action}

/-- The stores that are reached from the new one by operations, whatever becomes of them, by
invalidations, and by what happens beside the operations. -/
inductive Handled (deployment : Deployment World) : Store World → Prop where
  | created {store : Store World} {world : World} :
      Store.create deployment.database deployment.config deployment.store #[] deployment.world
        = (.ok store, world) →
      Handled deployment store
  | acted {store after : Store World} {thread : ThreadId} {action : Action}
      {outcome : Except Error Unit} : Handled deployment store →
      action.InMemory store.memory.size →
      (action.perform (deployment.session thread)).run store = (outcome, after) →
      Handled deployment after
  | invalidated {store : Store World} (keys : List Key) : Handled deployment store →
      Handled deployment (store.invalidateOwners keys)
  /-- What an instance holds is gone with it: it has forgotten its collections before. -/
  | swept {store : Store World} {gone : InstanceId → Bool} : Handled deployment store →
      (∀ subject, gone subject = true → (store.instanceAt subject).collections = []) →
      Handled deployment (store.sweep gone)
  | tended {store after : Store World} : Handled deployment store →
      store.Tends deployment.database after → Handled deployment after

theorem Reached.handled (reached : deployment.Reached allowed store) :
    deployment.Handled store := by
  induction reached with
  | created created => exact .created created
  | acted _ _ inMemory ran ih => exact .acted ih inMemory ran

theorem Handled.perform (handled : deployment.Handled store)
    (inMemory : action.InMemory store.memory.size) :
    deployment.Handled ((action.perform (deployment.session thread)).run store).2 :=
  .acted handled inMemory rfl

/-- Operations in a transaction of their own are operations between its ends. -/
theorem Handled.transaction {body : Operation World α} (handled : deployment.Handled store)
    (inside : ∀ between, deployment.Handled between → deployment.Handled (body.run between).2) :
    deployment.Handled
      ((Store.transaction (deployment.session thread) body).run store).2 := by
  have begins : deployment.Handled
      ((Store.beginTransaction (deployment.session thread)).run store).2 :=
    @Handled.perform _ _ _ thread .begin handled trivial
  rcases begun : (Store.beginTransaction (deployment.session thread)).run store
    with ⟨error | _, opened⟩
  · -- A transaction that is not begun is not worked in.
    rw [begun] at begins
    unfold Store.transaction
    rw [Store.run_bind, begun]
    exact begins
  rw [begun] at begins
  have closes := inside opened begins
  rcases ran : body.run opened with ⟨outcome, closing⟩
  rw [ran] at closes
  rw [Store.run_transaction begun ran]
  cases outcome with
  | ok result =>
      rw [Store.run_conclude_ok]
      exact @Handled.perform _ _ _ thread .commit closes trivial
  | error error =>
      rw [Store.run_conclude_error]
      dsimp only
      split
      · exact @Handled.perform _ _ _ thread .rollback closes trivial
      · exact closes

theorem Handled.regular (handled : deployment.Handled store) : store.Regular := by
  induction handled with
  | created created =>
      have reached : deployment.Reached (fun _ _ _ => True) _ := .created created
      exact reached.regular
  | acted _ inMemory ran ih => exact ((Action.follows_perform ih inMemory).of_run ran).regular ih
  | invalidated keys _ ih => exact ih.invalidateOwners keys
  | swept _ _ ih => exact Store.regular_sweep ih _
  | tended _ tends ih => exact tends.regular ih

theorem Handled.knowsOwners (handled : deployment.Handled store) : store.KnowsOwners := by
  induction handled with
  | created created =>
      have reached : deployment.Reached (fun _ _ _ => True) _ := .created created
      exact reached.knowsOwners
  | acted handled inMemory ran ih =>
      exact ((Action.gathers_perform handled.regular inMemory).of_run ran).knows ih
  | invalidated keys _ ih => exact (Store.sheds_invalidateOwners keys _).knows ih
  | swept _ none ih => exact (Store.sheds_sweep none).knows ih
  | tended _ tends ih => exact tends.sheds.knows ih

/-- Every instance that holds collections in an open store has an id and is listed under the key
that it has now. So if this key is invalidated, the instance forgets its collections and nothing
else, whatever was done before. -/
theorem holders_listed (handled : deployment.Handled store) (isOpen : store.isOpen = true) :
    (∀ subject, (store.instanceAt subject).collections ≠ [] →
      (store.instanceAt subject).key.hasId = true ∧
        store.Lists (store.instanceAt subject).key subject) ∧
    ∀ keys subject, (store.instanceAt subject).key ∈ keys →
      (store.invalidateOwners keys).instanceAt subject
        = { store.instanceAt subject with collections := [] } := by
  have knows := handled.knowsOwners
  refine ⟨fun subject held => ⟨?_, ?_⟩, fun keys subject bound => ?_⟩
  · exact knows.keyed subject _ ⟨held, rfl⟩
  · exact knows.lists isOpen subject _ ⟨held, rfl⟩
  · exact Store.instanceAt_invalidateOwners knows isOpen bound

set_option maxRecDepth 100000 in
/-- Two instances of Ada hold her friends, and Bo, who has lost an id and got one again, holds
his own. All are listed; when Ada's key is invalidated, both of hers forget and he does not. -/
theorem holders_listed_twins : ∃ store, Samples.deployment.Handled store ∧ store.isOpen = true ∧
    (∀ holder ∈ Samples.holders,
      (store.instanceAt holder.1).key = Key.withId "Person" holder.2 ∧
      (store.instanceAt holder.1).collections ≠ [] ∧
      store.Lists (Key.withId "Person" holder.2) holder.1) ∧
    (∀ subject ∈ [0, 1], (store.invalidateOwners [Key.withId "Person" 1]).instanceAt subject
      = { store.instanceAt subject with collections := [] }) ∧
    ((store.invalidateOwners [Key.withId "Person" 1]).instanceAt 3).collections ≠ [] := by
  obtain ⟨store, visited, facts⟩ := (Option.any_eq_true _ _).mp (show
      (Samples.deployment.visited? Samples.reread).any (fun store => decide (
        store.isOpen = true ∧ (store.instanceAt 2).collections = [] ∧
        (∀ holder ∈ Samples.holders,
          (store.instanceAt holder.1).key = Key.withId "Person" holder.2 ∧
          (store.instanceAt holder.1).collections ≠ []) ∧
        (((store.sweep (· == 2)).invalidateOwners [Key.withId "Person" 1]).instanceAt
          3).collections ≠ [])) = true by decide +kernel)
  obtain ⟨isOpen, none, holds, keeps⟩ := of_decide_eq_true facts
  have reached : Samples.deployment.Reached (fun _ _ _ => True) store :=
    reached_visited (fun _ _ _ _ => trivial) visited
  have handled : Samples.deployment.Handled (store.sweep (· == 2)) :=
    .swept reached.handled fun subject isGone => (beq_iff_eq.mp isGone) ▸ none
  obtain ⟨listed, forgets⟩ := holders_listed handled isOpen
  refine ⟨store.sweep (· == 2), handled, isOpen, fun holder member => ?_,
    fun subject member => ?_, keeps⟩
  · obtain ⟨isKey, held⟩ := holds holder member
    exact ⟨isKey, held, isKey ▸ (listed holder.1 held).2⟩
  · have isAda : (store.instanceAt subject).key = Key.withId "Person" 1 := by
      rcases List.mem_pair.mp member with rfl | rfl
      · exact (holds (0, 1) (by decide)).1
      · exact (holds (1, 1) (by decide)).1
    exact forgets _ subject (List.mem_singleton.mpr isAda)

end Deployment
end EntityStore
