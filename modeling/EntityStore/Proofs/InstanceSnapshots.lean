/-
How instances look, and the snapshots that transactions keep of that. Reading leaves both
alone, and a unit that fails inside a transaction puts back what its snapshots say; no
operation that only reads or edits memory takes a snapshot.
-/

import EntityStore.Proofs.Runs
import EntityStore.Proofs.Settling

set_option autoImplicit false

namespace EntityStore

/-- There is nothing to be read for an instance that has a row or is removed. -/
def Instance.Complete (content : Instance) : Prop :=
  content.row.isSome = true ∨ content.state = .removed

structure Instance.Stays (content later : Instance) : Prop where
  row : later.row = content.row
  vanished : later.vanished = content.vanished
  removed : content.state = .removed → later.state = .removed

namespace Instance.Stays

variable {first second third : Instance}

theorem refl (content : Instance) : content.Stays content := ⟨rfl, rfl, id⟩

private theorem trans (stays : first.Stays second) (later : second.Stays third) :
    first.Stays third :=
  ⟨later.row.trans stays.row, later.vanished.trans stays.vanished,
    fun removed => later.removed (stays.removed removed)⟩

theorem complete (stays : first.Stays second) (complete : first.Complete) : second.Complete := by
  rcases complete with known | removed
  · exact Or.inl (by rw [stays.row, known])
  · exact Or.inr (stays.removed removed)

end Instance.Stays

namespace Store

variable {World : Type}

def look (store : Store World) (subject : InstanceId) : Snapshot :=
  Snapshot.ofInstance (store.instanceAt subject)

def snapshots (store : Store World) (thread : ThreadId) : Option (List (InstanceId × Snapshot)) :=
  (store.transaction? thread).map Transaction.snapshots

def Kept (store after : Store World) : Prop :=
  ∀ thread, after.snapshots thread = store.snapshots thread

structure Spares (store after : Store World) : Prop where
  size : store.memory.size ≤ after.memory.size
  stays : ∀ subject, subject < store.memory.size → (store.instanceAt subject).Complete →
    (store.instanceAt subject).Stays (after.instanceAt subject)

structure Silent (store after : Store World) : Prop where
  kept : store.Kept after
  size : after.memory.size = store.memory.size
  look : ∀ subject, after.look subject = store.look subject
  vanished : ∀ subject, (after.instanceAt subject).vanished = (store.instanceAt subject).vanished

structure PutsBack (thread : ThreadId) (kept : List (InstanceId × Snapshot))
    (store after : Store World) : Prop where
  inside : store.snapshots thread = some kept
  ended : after.snapshots thread = none
  others : ∀ other, other ≠ thread → after.snapshots other = store.snapshots other
  size : after.memory.size = store.memory.size
  look : ∀ subject, after.look subject = (kept.lookup subject).getD (store.look subject)
  vanished : ∀ subject, (after.instanceAt subject).vanished = (store.instanceAt subject).vanished

section Parts

variable {store between after : Store World}

theorem Kept.refl (store : Store World) : store.Kept store := fun _ => rfl

theorem Kept.trans (first : store.Kept between) (second : between.Kept after) :
    store.Kept after :=
  fun thread => (second thread).trans (first thread)

theorem Spares.trans (first : store.Spares between) (second : between.Spares after) :
    store.Spares after := by
  refine ⟨Nat.le_trans first.size second.size, fun subject inMemory complete => ?_⟩
  have stays := first.stays subject inMemory complete
  exact stays.trans (second.stays subject (Nat.lt_of_lt_of_le inMemory first.size)
    (stays.complete complete))

theorem Silent.refl (store : Store World) : store.Silent store :=
  ⟨.refl store, rfl, fun _ => rfl, fun _ => rfl⟩

theorem Silent.trans (first : store.Silent between) (second : between.Silent after) :
    store.Silent after :=
  ⟨first.kept.trans second.kept, second.size.trans first.size,
    fun subject => (second.look subject).trans (first.look subject),
    fun subject => (second.vanished subject).trans (first.vanished subject)⟩

theorem stays_of_look {subject : InstanceId} (look : after.look subject = store.look subject)
    (vanished : (after.instanceAt subject).vanished = (store.instanceAt subject).vanished) :
    (store.instanceAt subject).Stays (after.instanceAt subject) := by
  have state : (after.instanceAt subject).state = (store.instanceAt subject).state :=
    congrArg Snapshot.state look
  exact ⟨congrArg Snapshot.row look, vanished, fun removed => state.trans removed⟩

theorem Silent.spares (silent : store.Silent after) : store.Spares after :=
  ⟨Nat.le_of_eq silent.size.symm, fun subject _ _ =>
    stays_of_look (silent.look subject) (silent.vanished subject)⟩

theorem kept_of_transactions (same : after.transactions = store.transactions) :
    store.Kept after := by
  intro thread
  unfold snapshots transaction?
  rw [same]

theorem silent_of_same (transactions : after.transactions = store.transactions)
    (memory : after.memory = store.memory) : store.Silent after := by
  have same (subject : InstanceId) : after.instanceAt subject = store.instanceAt subject := by
    unfold instanceAt instance?
    rw [memory]
  exact ⟨kept_of_transactions transactions, congrArg Array.size memory,
    fun subject => congrArg Snapshot.ofInstance (same subject),
    fun subject => congrArg Instance.vanished (same subject)⟩

theorem look_modifyInstance (store : Store World) (edit : Instance → Instance)
    (subject other : InstanceId) :
    (store.modifyInstance edit subject).look other =
      if other = subject ∧ other < store.memory.size then
        Snapshot.ofInstance (edit (store.instanceAt other))
      else store.look other := by
  unfold look
  rw [instanceAt_modifyInstance]
  split <;> rfl

theorem silent_invalidateOwners (keys : List Key) (store : Store World) :
    store.Silent (store.invalidateOwners keys) :=
  ⟨kept_of_transactions (transactions_eq_of_frame (frame_invalidateOwners keys store)),
    congrArg Prod.snd (extent_invalidateOwners keys store),
    part_invalidateOwners Snapshot.ofInstance (fun _ => rfl) keys store,
    part_invalidateOwners Instance.vanished (fun _ => rfl) keys store⟩

theorem look_restoreInstances {transaction : Transaction}
    (inMemory : ∀ entry ∈ transaction.snapshots, entry.1 < store.memory.size)
    (subject : InstanceId) :
    (restoreInstances transaction store).look subject =
      (transaction.snapshots.lookup subject).getD (store.look subject) := by
  unfold restoreInstances
  rw [List.foldl_reverse]
  obtain ⟨lease, writes, snapshots⟩ := transaction
  simp only at inMemory ⊢
  have size : ∀ entries : List (InstanceId × Snapshot), (entries.foldr (fun entry current =>
      current.modifyInstance entry.2.restore entry.1) store).memory.size = store.memory.size := by
    intro entries
    induction entries with
    | nil => rfl
    | cons entry rest ih => rw [List.foldr_cons, size_modifyInstance, ih]
  induction snapshots with
  | nil => rfl
  | cons entry rest ih =>
      have later := ih fun other member => inMemory other (List.mem_cons_of_mem entry member)
      rw [List.foldr_cons, look_modifyInstance, size, List.lookup_cons]
      by_cases same : subject = entry.1
      · rw [if_pos ⟨same, same ▸ inMemory entry List.mem_cons_self⟩]
        simp only [same, BEq.rfl]
        rfl
      · have apart : (subject == entry.1) = false := by simpa using same
        rw [if_neg fun both => same both.1, apart]
        exact later

/-- No snapshot says that a row was found missing. -/
theorem vanished_restoreInstances (transaction : Transaction) (store : Store World)
    (subject : InstanceId) : ((restoreInstances transaction store).instanceAt subject).vanished
      = (store.instanceAt subject).vanished := by
  unfold restoreInstances
  induction transaction.snapshots.reverse generalizing store with
  | nil => rfl
  | cons entry rest ih =>
      rw [List.foldl_cons, ih, instanceAt_modifyInstance]
      split <;> rfl

theorem snapshots_dropTransaction_self (store : Store World) (thread : ThreadId) :
    (store.dropTransaction thread).snapshots thread = none := by
  unfold snapshots
  rw [transaction?_dropTransaction_self]
  rfl

theorem snapshots_dropTransaction_of_ne (store : Store World) {thread other : ThreadId}
    (different : other ≠ thread) :
    (store.dropTransaction thread).snapshots other = store.snapshots other := by
  unfold snapshots
  rw [transaction?_dropTransaction_of_ne store different]

theorem snapshots_setTransaction_self (store : Store World) (thread : ThreadId)
    (transaction : Transaction) :
    (store.setTransaction thread transaction).snapshots thread = some transaction.snapshots := by
  unfold snapshots
  rw [transaction?_setTransaction_self]
  rfl

theorem snapshots_setTransaction_of_ne (store : Store World) {thread other : ThreadId}
    (transaction : Transaction) (different : other ≠ thread) :
    (store.setTransaction thread transaction).snapshots other = store.snapshots other := by
  unfold snapshots
  rw [transaction?_setTransaction_of_ne store transaction different]

theorem snapshots_of_inside {thread : ThreadId} {transaction : Transaction}
    (inside : store.transaction? thread = some transaction) :
    store.snapshots thread = some transaction.snapshots := by
  unfold snapshots
  rw [inside]
  rfl

/-- Snapshots are of instances in memory. -/
theorem Sound.inMemory (sound : store.Sound) {thread : ThreadId} {transaction : Transaction}
    (inside : (thread, transaction) ∈ store.transactions) :
    ∀ entry ∈ transaction.snapshots, entry.1 < store.memory.size := by
  intro entry member
  obtain ⟨mapping, found, _⟩ := sound.snapshots _ inside entry member
  obtain ⟨bound, _⟩ := Array.getElem?_eq_some_iff.mp found
  simpa [types] using bound

/-- The end of a transaction that is not committed. -/
theorem putsBack_of_restored (sound : store.Sound) {thread : ThreadId}
    {transaction : Transaction} (inside : store.transaction? thread = some transaction)
    {dropped : Store World} (taken : dropped.transactions = (store.dropTransaction thread).transactions)
    (memory : dropped.memory = store.memory)
    (later : (restoreInstances transaction dropped).Silent after) :
    PutsBack thread transaction.snapshots store after := by
  have restored : dropped.Kept (restoreInstances transaction dropped) :=
    kept_of_transactions (transactions_eq_of_frame (frame_restoreInstances transaction dropped))
  have keeps : (store.dropTransaction thread).Kept after :=
    ((kept_of_transactions taken).trans restored).trans later.kept
  have instances (subject : InstanceId) : dropped.instanceAt subject = store.instanceAt subject := by
    unfold instanceAt instance?
    rw [memory]
  refine ⟨snapshots_of_inside inside, ?_, fun other different => ?_, ?_, fun subject => ?_,
    fun subject => ?_⟩
  · rw [keeps, snapshots_dropTransaction_self]
  · rw [keeps, snapshots_dropTransaction_of_ne store different]
  · have size : (restoreInstances transaction dropped).memory.size = dropped.memory.size :=
      congrArg Prod.snd (extent_restoreInstances transaction dropped)
    rw [later.size, size, memory]
  · rw [later.look, look_restoreInstances (memory ▸ sound.inMemory (mem_of_transaction inside))]
    unfold look
    rw [instances]
  · rw [later.vanished, vanished_restoreInstances, instances]

end Parts

end Store
end EntityStore
