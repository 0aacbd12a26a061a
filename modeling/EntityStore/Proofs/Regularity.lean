/-
What holds of a store between operations: its registry and memory are sound, its pool is
numbered, and every open transaction has a lease of its own that the pool knows. Every
way in which a unit or a transaction ends keeps all of it.
-/

import EntityStore.Proofs.Boundaries
import EntityStore.Proofs.Lifecycle

set_option autoImplicit false

namespace EntityStore
namespace Store

variable {World : Type}

def leases (store : Store World) : List LeaseId :=
  store.transactions.map fun entry => entry.2.lease

structure Leased (store : Store World) : Prop where
  numbered : store.pool.Numbered
  distinct : store.leases.Nodup
  held : ∀ lease ∈ store.leases, ∃ connection,
    store.pool.leased.lookup lease = some connection

structure Regular (store : Store World) : Prop where
  sound : store.Sound
  leased : store.Leased

theorem mem_of_transaction {store : Store World} {thread : ThreadId} {transaction : Transaction}
    (inside : store.transaction? thread = some transaction) :
    (thread, transaction) ∈ store.transactions := mem_of_lookup inside

theorem lease_mem {store : Store World} {thread : ThreadId} {transaction : Transaction}
    (inside : store.transaction? thread = some transaction) :
    transaction.lease ∈ store.leases :=
  List.mem_map.mpr ⟨_, mem_of_transaction inside, rfl⟩

/-! ### Changes that leave the transactions alone -/

/-- Pool, transactions, registry and cache, and whether the store is open: all but memory
and owners. -/
def frame (store : Store World) :
    Pool World × List (ThreadId × Transaction) × Registry × Cache × Bool :=
  (store.pool, store.transactions, store.registry, store.cache, store.isOpen)

private theorem frame_foldl_modifyInstance {α : Type} (edit : α → Instance → Instance)
    (subject : α → InstanceId) (contents : List α) (store : Store World) :
    (contents.foldl (fun current content =>
      current.modifyInstance (edit content) (subject content)) store).frame = store.frame := by
  induction contents generalizing store with
  | nil => rfl
  | cons content rest ih => exact ih _

theorem frame_restoreInstances (transaction : Transaction) (store : Store World) :
    (restoreInstances transaction store).frame = store.frame :=
  frame_foldl_modifyInstance (fun entry : InstanceId × Snapshot => entry.2.restore)
    (fun entry => entry.1) _ store

theorem frame_invalidateOwners (keys : List Key) (store : Store World) :
    (store.invalidateOwners keys).frame = store.frame :=
  frame_foldl_modifyInstance (fun _ content => { content with collections := [] })
    (fun subject => subject) _ store

theorem frame_written (writes : WriteSet) (generation : Nat) (store : Store World) :
    (store.written writes generation).frame
      = (store.pool, store.transactions, store.registry, writes.apply generation store.cache,
          store.isOpen) :=
  frame_invalidateOwners _ _

theorem pool_restoreInstances (transaction : Transaction) (store : Store World) :
    (restoreInstances transaction store).pool = store.pool :=
  congrArg (fun frame => frame.1) (frame_restoreInstances transaction store)

theorem pool_invalidateOwners (keys : List Key) (store : Store World) :
    (store.invalidateOwners keys).pool = store.pool :=
  congrArg (fun frame => frame.1) (frame_invalidateOwners keys store)

theorem pool_recordWrites (thread : ThreadId) (writes : WriteSet) (store : Store World) :
    (recordWrites thread writes store).pool = store.pool := by
  unfold recordWrites
  simp only
  split <;> exact pool_invalidateOwners _ _

theorem pool_written (writes : WriteSet) (generation : Nat) (store : Store World) :
    (store.written writes generation).pool = store.pool :=
  congrArg (fun frame => frame.1) (frame_written writes generation store)

theorem isOpen_invalidateOwners (keys : List Key) (store : Store World) :
    (store.invalidateOwners keys).isOpen = store.isOpen :=
  congrArg (fun frame => frame.2.2.2.2) (frame_invalidateOwners keys store)

theorem isOpen_written (writes : WriteSet) (generation : Nat) (store : Store World) :
    (store.written writes generation).isOpen = store.isOpen :=
  isOpen_invalidateOwners writes.owners _

theorem isOpen_recordWrites (thread : ThreadId) (writes : WriteSet) (store : Store World) :
    (recordWrites thread writes store).isOpen = store.isOpen := by
  unfold recordWrites
  dsimp only
  split <;> exact isOpen_invalidateOwners _ _

section Parts

variable {first second : Store World}

theorem pool_eq_of_frame (same : first.frame = second.frame) : first.pool = second.pool :=
  congrArg (fun frame => frame.1) same

theorem transactions_eq_of_frame (same : first.frame = second.frame) :
    first.transactions = second.transactions :=
  congrArg (fun frame => frame.2.1) same

theorem cache_eq_of_frame (same : first.frame = second.frame) : first.cache = second.cache :=
  congrArg (fun frame => frame.2.2.2.1) same

end Parts

/-! ### The transaction of a thread -/

@[simp] theorem transaction?_dropTransaction_self (store : Store World) (thread : ThreadId) :
    (store.dropTransaction thread).transaction? thread = none :=
  lookup_withoutName_self store.transactions thread

theorem transaction?_dropTransaction_of_ne (store : Store World) {thread other : ThreadId}
    (different : other ≠ thread) :
    (store.dropTransaction thread).transaction? other = store.transaction? other :=
  lookup_withoutName_of_ne store.transactions different

@[simp] theorem transaction?_setTransaction_self (store : Store World) (thread : ThreadId)
    (transaction : Transaction) :
    (store.setTransaction thread transaction).transaction? thread = some transaction := by
  show (withoutName thread store.transactions ++ [(thread, transaction)]).lookup thread = _
  rw [List.lookup_append, lookup_withoutName_self]
  simp

theorem transaction?_setTransaction_of_ne (store : Store World) {thread other : ThreadId}
    (transaction : Transaction) (different : other ≠ thread) :
    (store.setTransaction thread transaction).transaction? other = store.transaction? other := by
  show (withoutName thread store.transactions ++ [(thread, transaction)]).lookup other = _
  rw [List.lookup_append, lookup_withoutName_of_ne _ different, List.lookup_cons,
    beq_eq_false_iff_ne.mpr different]
  exact Option.or_none

theorem transaction?_of_frame {first second : Store World} (same : first.frame = second.frame)
    (thread : ThreadId) : first.transaction? thread = second.transaction? thread := by
  unfold transaction?
  rw [transactions_eq_of_frame same]

namespace Leased

variable {store after : Store World}

private theorem transfer (leased : store.Leased) (numbered : after.pool.Numbered)
    (fewer : after.leases.Subperm store.leases)
    (held : ∀ lease ∈ after.leases, ∀ connection,
      store.pool.leased.lookup lease = some connection →
      after.pool.leased.lookup lease = some connection) : after.Leased := by
  refine ⟨numbered, ?_, ?_⟩
  · obtain ⟨picked, perm, sublist⟩ := fewer
    exact perm.nodup_iff.mp (sublist.nodup leased.distinct)
  · intro lease member
    obtain ⟨connection, found⟩ := leased.held lease (fewer.subset member)
    exact ⟨connection, held lease member connection found⟩

theorem transfer_same (leased : store.Leased) (leases : after.leases = store.leases)
    (pool : after.pool = store.pool) : after.Leased := by
  refine leased.transfer (pool ▸ leased.numbered) (leases ▸ List.Subperm.refl _) ?_
  intro lease _ connection found
  rw [pool]
  exact found

private theorem withWorld (leased : store.Leased) (world : World) :
    (store.withWorld world).Leased :=
  leased.transfer ⟨leased.numbered.leases, leased.numbered.handedOut,
    leased.numbered.connections, leased.numbered.created⟩ (List.Subperm.refl _)
    fun _ _ _ found => found

theorem connection (leased : store.Leased) {thread : ThreadId} {transaction : Transaction}
    (inside : store.transaction? thread = some transaction) :
    ∃ connection, store.pool.leased.lookup transaction.lease = some connection :=
  leased.held _ (lease_mem inside)

theorem acquire (leased : store.Leased) (database : Database World) {pool : Pool World}
    {outcome : Except Error LeaseId} (acquired : store.pool.acquire database = (outcome, pool)) :
    ({ store with pool := pool } : Store World).Leased := by
  have same : (store.pool.acquire database).2 = pool := by rw [acquired]
  subst same
  exact leased.transfer (leased.numbered.acquire database) (List.Subperm.refl _)
    fun _ _ _ found => Pool.lookup_acquire found database

theorem acquired_not_mem (leased : store.Leased) {database : Database World}
    {pool : Pool World} {lease : LeaseId}
    (acquired : store.pool.acquire database = (.ok lease, pool)) : lease ∉ store.leases := by
  intro member
  obtain ⟨connection, found⟩ := leased.held lease member
  have below := leased.numbered.handedOut _ (mem_of_lookup found)
  rw [(Pool.leased_of_acquire acquired).1] at below
  exact Nat.lt_irrefl _ below

private theorem released (leased : store.Leased) (session : Session World) {lease : LeaseId}
    (free : lease ∉ store.leases) : (store.released session lease).Leased := by
  refine leased.transfer (leased.numbered.release _ _ _) (List.Subperm.refl _) ?_
  intro other member connection found
  have different : other ≠ lease := fun same => free (same ▸ member)
  exact (Pool.lookup_release different _ _ _).trans found

private theorem dropTransaction (leased : store.Leased) (thread : ThreadId) :
    (store.dropTransaction thread).Leased :=
  leased.transfer leased.numbered (List.filter_sublist.map _).subperm fun _ _ _ found => found

theorem dropped_not_mem (leased : store.Leased) {thread : ThreadId} {transaction : Transaction}
    (inside : store.transaction? thread = some transaction) :
    transaction.lease ∉ (store.dropTransaction thread).leases := by
  intro member
  obtain ⟨entry, entryMember, same⟩ := List.mem_map.mp member
  obtain ⟨isOpen, isOther⟩ := List.mem_filter.mp entryMember
  have equal := List.inj_on_of_nodup_map leased.distinct isOpen (mem_of_transaction inside) same
  rw [equal] at isOther
  simp at isOther

private theorem setTransaction (leased : store.Leased) {thread : ThreadId}
    {transaction : Transaction} (free : transaction.lease ∉ (store.dropTransaction thread).leases)
    {connection : ConnectionId}
    (held : store.pool.leased.lookup transaction.lease = some connection) :
    (store.setTransaction thread transaction).Leased := by
  have dropped := leased.dropTransaction thread
  have same : (store.setTransaction thread transaction).leases
      = (store.dropTransaction thread).leases ++ [transaction.lease] := by
    simp only [leases, Store.setTransaction, Store.dropTransaction, List.map_append, List.map_cons,
      List.map_nil]
  refine ⟨leased.numbered, ?_, ?_⟩
  · rw [same, List.nodup_append]
    refine ⟨dropped.distinct, by simp, ?_⟩
    intro lease member other isNew equal
    rw [List.mem_singleton.mp isNew] at equal
    exact free (equal ▸ member)
  · intro lease member
    rw [same] at member
    rcases List.mem_append.mp member with isOther | isNew
    · exact dropped.held lease isOther
    · rw [List.mem_singleton.mp isNew]
      exact ⟨connection, held⟩

/-- A thread's transaction may be put in the place of itself with the same lease. -/
theorem replaceTransaction (leased : store.Leased) {thread : ThreadId}
    {transaction changed : Transaction} (inside : store.transaction? thread = some transaction)
    (same : changed.lease = transaction.lease) :
    (store.setTransaction thread changed).Leased := by
  obtain ⟨connection, held⟩ := leased.connection inside
  exact leased.setTransaction (same ▸ leased.dropped_not_mem inside) (same ▸ held)

end Leased

theorem Leased.of_frame {store after : Store World} (leased : store.Leased)
    (same : after.frame = store.frame) : after.Leased := by
  refine leased.transfer_same ?_ (pool_eq_of_frame same)
  unfold leases
  rw [transactions_eq_of_frame same]

/-! ### The ends of units -/

private theorem leases_of_frame {first second : Store World} (same : first.frame = second.frame) :
    first.leases = second.leases := by
  unfold leases
  rw [transactions_eq_of_frame same]

theorem Leased.recordWrites {store : Store World} (leased : store.Leased) (thread : ThreadId)
    (writes : WriteSet) : (Store.recordWrites thread writes store).Leased := by
  have evicted : ({ store with cache := writes.withoutFills.evictTouched store.cache } :
      Store World).Leased := leased.transfer_same rfl rfl
  have invalidated := evicted.of_frame (frame_invalidateOwners writes.withoutFills.owners _)
  unfold Store.recordWrites
  simp only
  split
  · exact invalidated
  · rename_i transaction inside
    exact invalidated.replaceTransaction inside rfl

theorem Sound.written {store : Store World} (sound : store.Sound) (writes : WriteSet)
    (generation : Nat) : (Store.written writes generation store).Sound := by
  have applied : ({ store with cache := writes.apply generation store.cache } :
      Store World).Sound := sound.transfer_same rfl rfl rfl
  exact applied.invalidateOwners _

theorem Leased.written {store : Store World} (leased : store.Leased) (writes : WriteSet)
    (generation : Nat) : (Store.written writes generation store).Leased := by
  have applied : ({ store with cache := writes.apply generation store.cache } :
      Store World).Leased := leased.transfer_same rfl rfl
  exact applied.of_frame (frame_invalidateOwners writes.owners _)

theorem leases_written (writes : WriteSet) (generation : Nat) (store : Store World) :
    (store.written writes generation).leases = store.leases := by
  unfold leases
  rw [show (store.written writes generation).transactions = store.transactions from
    congrArg (fun frame => frame.2.1) (frame_written writes generation store)]

/-! ### Types and instances stay -/

/-- The registry, and how many instances there are. -/
def extent (store : Store World) : Registry × Nat := (store.registry, store.memory.size)

section Extents

variable {store after : Store World} {session : Session World}

private theorem extent_foldl_modifyInstance {α : Type} (edit : α → Instance → Instance)
    (subject : α → InstanceId) (contents : List α) (store : Store World) :
    (contents.foldl (fun current content =>
      current.modifyInstance (edit content) (subject content)) store).extent = store.extent := by
  induction contents generalizing store with
  | nil => rfl
  | cons content rest ih =>
      rw [List.foldl_cons, ih]
      unfold extent
      rw [size_modifyInstance]
      rfl

theorem extent_restoreInstances (transaction : Transaction) (store : Store World) :
    (restoreInstances transaction store).extent = store.extent :=
  extent_foldl_modifyInstance (fun entry : InstanceId × Snapshot => entry.2.restore)
    (fun entry => entry.1) _ store

theorem extent_invalidateOwners (keys : List Key) (store : Store World) :
    (store.invalidateOwners keys).extent = store.extent :=
  extent_foldl_modifyInstance (fun _ content => { content with collections := [] })
    (fun subject => subject) _ store

theorem extent_recordWrites (thread : ThreadId) (writes : WriteSet) (store : Store World) :
    (recordWrites thread writes store).extent = store.extent := by
  unfold recordWrites
  simp only
  split <;> exact extent_invalidateOwners _ _

theorem extent_rememberInTransaction (thread : ThreadId) (subject : InstanceId)
    (store : Store World) :
    (store.rememberInTransaction thread subject).extent = store.extent := by
  unfold rememberInTransaction
  split <;> rfl

theorem extent_written (writes : WriteSet) (generation : Nat) (store : Store World) :
    (store.written writes generation).extent = store.extent :=
  extent_invalidateOwners _ _

theorem UnitEnds.extent {α : Type} {issued : Question → Prop} {transactional : Bool}
    {gives : α × WriteSet → List Event → Prop} {outcome : Except Error α}
    (ends : UnitEnds session issued transactional gives store outcome after) :
    after.extent = store.extent := by
  cases ends with
  | recorded _ _ _ _ _ => exact extent_recordWrites _ _ _
  | aborted _ _ _ _ _ => exact extent_restoreInstances _ _
  | applied _ _ _ _ _ => exact extent_written _ _ _
  | _ => rfl

private theorem extent_rolledBack (transaction : Transaction) (keys : List Key)
    (store : Store World) :
    (Store.invalidateOwners keys (restoreInstances transaction store)).extent = store.extent :=
  (extent_invalidateOwners keys _).trans (extent_restoreInstances transaction store)

theorem CommitEnds.extent {outcome : Except Error Unit}
    (ends : CommitEnds session store outcome after) : after.extent = store.extent := by
  cases ends with
  | committed _ _ _ _ => exact extent_written _ _ _
  | refused _ _ _ _ _ => exact extent_rolledBack _ _ _
  | _ => rfl

theorem RollbackEnds.extent {outcome : Except Error Unit}
    (ends : RollbackEnds session store outcome after) : after.extent = store.extent := by
  cases ends with
  | rolledBack _ _ _ _ => exact extent_rolledBack _ _ _
  | _ => rfl

theorem Abandoned.extent {transactions : List Transaction}
    (abandoned : Abandoned session transactions store after) : after.extent = store.extent := by
  induction abandoned with
  | nil store => rfl
  | cons _ _ ih => exact ih.trans (extent_restoreInstances _ _)

theorem CloseEnds.extent (ends : CloseEnds session store after) : after.extent = store.extent := by
  cases ends with
  | again _ => rfl
  | closed _ abandoned => exact abandoned.extent

end Extents

namespace Regular

variable {store after : Store World} {session : Session World}

theorem withWorld (regular : store.Regular) (world : World) : (store.withWorld world).Regular :=
  ⟨regular.sound.transfer_same rfl rfl rfl, regular.leased.withWorld world⟩

theorem acquire (regular : store.Regular) {database : Database World} {pool : Pool World}
    {outcome : Except Error LeaseId} (acquired : store.pool.acquire database = (outcome, pool)) :
    ({ store with pool := pool } : Store World).Regular :=
  ⟨regular.sound.transfer_same rfl rfl rfl, regular.leased.acquire database acquired⟩

theorem released (regular : store.Regular) {lease : LeaseId} (free : lease ∉ store.leases) :
    (store.released session lease).Regular :=
  ⟨regular.sound.transfer_same rfl rfl rfl, regular.leased.released session free⟩

private theorem restored (regular : store.Regular) {thread : ThreadId} {transaction : Transaction}
    (inside : store.transaction? thread = some transaction) (world : World) :
    (restoreInstances transaction
      ((store.dropTransaction thread).withWorld world)).Regular ∧
    transaction.lease ∉ (restoreInstances transaction
      ((store.dropTransaction thread).withWorld world)).leases := by
  have dropped : ((store.dropTransaction thread).withWorld world).Regular :=
    ⟨(regular.sound.dropTransaction thread).transfer_same rfl rfl rfl,
      (regular.leased.dropTransaction thread).withWorld world⟩
  have frame := frame_restoreInstances transaction
    ((store.dropTransaction thread).withWorld world)
  refine ⟨⟨dropped.sound.restoreInstances
    (regular.sound.snapshots _ (mem_of_transaction inside)), dropped.leased.of_frame frame⟩, ?_⟩
  rw [leases_of_frame frame]
  exact regular.leased.dropped_not_mem inside

private theorem worked (regular : store.Regular) {database : Database World} {pool : Pool World}
    {lease : LeaseId} (acquired : store.pool.acquire database = (.ok lease, pool))
    (world : World) :
    ({ store with pool := { pool with world := world } } : Store World).Regular ∧
      lease ∉ store.leases :=
  ⟨(regular.acquire acquired).withWorld world, regular.leased.acquired_not_mem acquired⟩

theorem unit {α : Type} {issued : Question → Prop} {transactional : Bool}
    {gives : α × WriteSet → List Event → Prop} {outcome : Except Error α}
    (regular : store.Regular)
    (ends : UnitEnds session issued transactional gives store outcome after) : after.Regular := by
  cases ends with
  | closed _ => exact regular
  | recorded _ _ _ _ _ =>
      exact ⟨(regular.withWorld _).sound.recordWrites _ _,
        (regular.withWorld _).leased.recordWrites _ _⟩
  | aborted _ inside _ _ _ =>
      obtain ⟨restored, free⟩ := regular.restored inside _
      exact restored.released free
  | unconnected _ _ acquired => exact regular.acquire acquired
  | @applied pool lease connection world result writes _ _ acquired _ _ =>
      obtain ⟨worked, free⟩ := regular.worked acquired world
      have written : (Store.written writes store.cache.generation
          { store with pool := { pool with world := world } }).Regular :=
        ⟨worked.sound.written _ _, worked.leased.written _ _⟩
      refine written.released ?_
      rw [leases_written]
      exact free
  | failed _ _ acquired _ _ =>
      obtain ⟨worked, free⟩ := regular.worked acquired _
      exact worked.released free

/-! ### The ends of transactions -/

theorem begins {outcome : Except Error Unit} (regular : store.Regular)
    (ends : BeginEnds session store outcome after) : after.Regular := by
  cases ends with
  | closed _ => exact regular
  | alreadyOpen _ _ => exact regular
  | unconnected _ _ acquired => exact regular.acquire acquired
  | begun _ outside acquired held _ =>
      obtain ⟨worked, free⟩ := regular.worked acquired _
      refine ⟨worked.sound.setTransaction _ fun entry member => (by cases member), ?_⟩
      refine worked.leased.setTransaction ?_ held
      intro member
      exact free ((List.filter_sublist.map _).subset member)
  | refused _ _ acquired _ _ =>
      obtain ⟨worked, free⟩ := regular.worked acquired _
      exact worked.released free

theorem invalidateOwners (regular : store.Regular) (keys : List Key) :
    (store.invalidateOwners keys).Regular :=
  ⟨regular.sound.invalidateOwners keys,
    regular.leased.of_frame (frame_invalidateOwners keys store)⟩

/-- A transaction that was rolled back has its snapshots put back and its lease
returned; the collections that it may have changed are forgotten. -/
theorem rolledBack (regular : store.Regular) {thread : ThreadId} {transaction : Transaction}
    (inside : store.transaction? thread = some transaction) (world : World) (keys : List Key) :
    ((Store.invalidateOwners keys (restoreInstances transaction
      ((store.dropTransaction thread).withWorld world))).released session
        transaction.lease).Regular := by
  obtain ⟨restored, free⟩ := regular.restored inside world
  refine (restored.invalidateOwners keys).released ?_
  rw [leases_of_frame (frame_invalidateOwners keys _)]
  exact free

theorem commits {outcome : Except Error Unit} (regular : store.Regular)
    (ends : CommitEnds session store outcome after) : after.Regular := by
  cases ends with
  | closed _ => exact regular
  | notOpen _ _ => exact regular
  | @committed transaction connection world _ inside _ _ =>
      have dropped : ((store.dropTransaction session.thread).withWorld world).Regular :=
        ⟨(regular.sound.dropTransaction _).transfer_same rfl rfl rfl,
          (regular.leased.dropTransaction _).withWorld _⟩
      have written : (Store.written transaction.writes store.cache.generation
          ((store.dropTransaction session.thread).withWorld world)).Regular :=
        ⟨dropped.sound.written _ _, dropped.leased.written _ _⟩
      refine written.released ?_
      rw [leases_written]
      exact regular.leased.dropped_not_mem inside
  | refused _ inside _ _ _ => exact regular.rolledBack inside _ _

theorem rollsBack {outcome : Except Error Unit} (regular : store.Regular)
    (ends : RollbackEnds session store outcome after) : after.Regular := by
  cases ends with
  | closed _ => exact regular
  | notOpen _ _ => exact regular
  | rolledBack _ inside _ _ => exact regular.rolledBack inside _ _

private theorem abandons {transactions : List Transaction} (regular : store.Regular)
    (none : store.transactions = [])
    (kept : ∀ transaction ∈ transactions, ∀ entry ∈ transaction.snapshots,
      Keeps store.types entry)
    (abandoned : Abandoned session transactions store after) :
    after.Regular ∧ after.transactions = [] := by
  induction abandoned with
  | nil store => exact ⟨regular, none⟩
  | @cons transaction rest store after world reverts later ih =>
      have frame := frame_restoreInstances transaction (store.withWorld world)
      have restored : (Store.restoreInstances transaction (store.withWorld world)).Regular :=
        ⟨(regular.withWorld world).sound.restoreInstances (kept transaction List.mem_cons_self),
          (regular.withWorld world).leased.of_frame frame⟩
      have noneAfter : (Store.restoreInstances transaction
          (store.withWorld world)).transactions = [] := by
        rw [transactions_eq_of_frame frame]
        exact none
      refine ih (restored.released ?_) noneAfter ?_
      · unfold leases
        rw [noneAfter]
        exact List.not_mem_nil
      · intro other member entry isKept
        have same : ((Store.restoreInstances transaction (store.withWorld world)).released session
            transaction.lease).types = store.types :=
          Sound.types_restoreInstances transaction (store.withWorld world)
        rw [same]
        exact kept other (List.mem_cons_of_mem _ member) entry isKept

theorem abandonsAll {between : Store World} (regular : store.Regular)
    (abandoned : Abandoned session (store.transactions.map Prod.snd)
      { store with isOpen := false, transactions := [] } between) :
    between.Regular ∧ between.transactions = [] := by
  have emptied : ({ store with isOpen := false, transactions := [] } : Store World).Regular :=
    ⟨regular.sound.transfer rfl rfl fun entry member => (by cases member),
      regular.leased.transfer regular.leased.numbered (List.nil_subperm)
        fun lease member => (by cases member)⟩
  refine emptied.abandons rfl ?_ abandoned
  intro transaction member
  obtain ⟨entry, entryMember, rfl⟩ := List.mem_map.mp member
  exact regular.sound.snapshots entry entryMember

theorem closes (regular : store.Regular) (ends : CloseEnds session store after) :
    after.Regular := by
  cases ends with
  | again _ => exact regular
  | @closed between _ abandoned =>
      obtain ⟨left, none⟩ := regular.abandonsAll abandoned
      refine ⟨left.sound.transfer_same rfl rfl rfl,
        left.leased.transfer (left.leased.numbered.shutdown _) (List.Subperm.refl _) ?_⟩
      intro lease member
      unfold leases at member
      rw [show (between.shut session).transactions = [] from none] at member
      cases member

end Regular

end Store
end EntityStore
