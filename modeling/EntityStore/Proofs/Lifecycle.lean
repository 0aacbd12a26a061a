/-
What holds of the instances in memory whatever the store does: an instance is of a
registered type, a new one has no id, one that was read or saved has one, and assigned
values refer to instances in memory. Snapshots look like instances did, so that putting
them back keeps all of this.
-/

import EntityStore.Proofs.KnownIds
import EntityStore.Store.Remove

set_option autoImplicit false

namespace EntityStore

structure Snapshot.Sound (mapping : Mapping) (size : Nat) (snapshot : Snapshot) : Prop where
  entity : snapshot.key.entityType = mapping.entity
  fresh : snapshot.state = .transient → snapshot.key.id = none
  keyed : snapshot.state = .clean ∨ snapshot.state = .dirty → snapshot.key.id.isSome = true
  settled : snapshot.state = .clean → snapshot.pending = []
  targets : ∀ entry ∈ snapshot.pending, ∀ target, entry.2 = .entity target → target < size

structure Instance.Sound (registry : Registry) (size : Nat) (content : Instance) : Prop where
  registered : content.mapping ∈ registry.mappings
  sound : (Snapshot.ofInstance content).Sound content.mapping size

theorem Snapshot.Sound.grow {mapping : Mapping} {size larger : Nat} {snapshot : Snapshot}
    (sound : snapshot.Sound mapping size) (grown : size ≤ larger) :
    snapshot.Sound mapping larger :=
  { sound with
    targets := fun entry member target same =>
      Nat.lt_of_lt_of_le (sound.targets entry member target same) grown }

namespace Instance

variable {registry : Registry} {size : Nat} {content : Instance}

theorem Sound.grow {extended : Registry} {larger : Nat} (sound : content.Sound registry size)
    (kept : ∀ mapping ∈ registry.mappings, mapping ∈ extended.mappings)
    (grown : size ≤ larger) : content.Sound extended larger :=
  ⟨kept _ sound.registered, sound.sound.grow grown⟩

/-! ### Instances that are made -/

theorem sound_transient {mapping : Mapping} (registered : mapping ∈ registry.mappings)
    (store : StoreId) (size : Nat) : (transient store mapping).Sound registry size := by
  refine ⟨registered, rfl, fun _ => rfl, ?_, fun _ => rfl, ?_⟩
  · rintro (impossible | impossible) <;> cases impossible
  · intro entry member
    cases member

theorem sound_loaded {mapping : Mapping} (registered : mapping ∈ registry.mappings)
    (store : StoreId) (id : Int64) (row : Option Row) (size : Nat) :
    ({ store := store, mapping := mapping, key := Key.withId mapping.entity id,
       state := .clean, row := row } : Instance).Sound registry size := by
  refine ⟨registered, rfl, ?_, fun _ => rfl, fun _ => rfl, ?_⟩
  · intro impossible
    cases impossible
  · intro entry member
    cases member

/-! ### Instances that change -/

private theorem mem_place_pending {property : String} {value : PropertyValue}
    {pending : List (String × PropertyValue)} {entry : String × PropertyValue}
    (member : entry ∈ Row.place property value pending) :
    entry = (property, value) ∨ entry ∈ pending := by
  induction pending with
  | nil => exact Or.inl (List.mem_singleton.mp member)
  | cons head tail ih =>
      unfold Row.place at member
      split at member
      · rcases List.mem_cons.mp member with isNew | isOld
        · exact Or.inl isNew
        · exact Or.inr (List.mem_cons_of_mem head isOld)
      · rcases List.mem_cons.mp member with rfl | isLater
        · exact Or.inr List.mem_cons_self
        · exact (ih isLater).imp id (List.mem_cons_of_mem head)

theorem Sound.assign (sound : content.Sound registry size) (property : String)
    {value : PropertyValue} (known : ∀ target, value = .entity target → target < size) :
    (content.assign property value).Sound registry size := by
  obtain ⟨registered, entity, fresh, keyed, settled, targets⟩ := sound
  refine ⟨registered, entity, ?_, ?_, ?_, ?_⟩
  · intro isTransient
    apply fresh
    revert isTransient
    simp only [Snapshot.ofInstance, Instance.assign]
    split
    · intro impossible
      cases impossible
    · exact id
  · simp only [Snapshot.ofInstance, Instance.assign]
    split
    · rename_i clean
      exact fun _ => keyed (Or.inl clean)
    · exact keyed
  · simp only [Snapshot.ofInstance, Instance.assign]
    split
    · intro impossible
      cases impossible
    · rename_i notClean
      exact fun clean => absurd clean notClean
  · intro entry member target same
    rcases mem_place_pending member with rfl | isOld
    · exact known target same
    · exact targets entry isOld target same

theorem Sound.settle (sound : content.Sound registry size) (id : Int64) (row : Row) :
    (content.settle id row).Sound registry size := by
  refine ⟨sound.registered, ?_, ?_, ?_, fun _ => rfl, ?_⟩
  · simp only [Snapshot.ofInstance, Instance.settle]
    split
    · exact sound.sound.entity
    · exact sound.sound.entity
  · intro impossible
    cases impossible
  · intro _
    simp only [Snapshot.ofInstance, Instance.settle]
    split
    · rename_i hasId
      exact hasId
    · rfl
  · intro entry member
    cases member

theorem Sound.withdraw (sound : content.Sound registry size) :
    content.withdraw.Sound registry size := by
  refine ⟨sound.registered, sound.sound.entity, ?_, ?_, ?_, ?_⟩
  · intro impossible
    cases impossible
  · rintro (impossible | impossible) <;> cases impossible
  · intro impossible
    cases impossible
  · intro entry member
    cases member

theorem Sound.restore {snapshot : Snapshot} (sound : content.Sound registry size)
    (kept : snapshot.Sound content.mapping size) :
    (snapshot.restore content).Sound registry size :=
  ⟨sound.registered, kept.entity, kept.fresh, kept.keyed, kept.settled, kept.targets⟩

/-- Rows, collections and the note that a row is missing are of no consequence. -/
theorem Sound.of_same {edited : Instance} (sound : content.Sound registry size)
    (mapping : edited.mapping = content.mapping) (key : edited.key = content.key)
    (state : edited.state = content.state) (pending : edited.pending = content.pending) :
    edited.Sound registry size := by
  refine ⟨mapping ▸ sound.registered, ?_⟩
  have same : (Snapshot.ofInstance edited).Sound content.mapping size := by
    obtain ⟨_, entity, fresh, keyed, settled, targets⟩ := sound
    refine ⟨?_, ?_, ?_, ?_, ?_⟩ <;>
      simp only [Snapshot.ofInstance, key, state, pending] <;> assumption
  exact mapping ▸ same

end Instance

namespace Store

variable {World : Type}

def types (store : Store World) : Array Mapping := store.memory.map Instance.mapping

def Keeps (types : Array Mapping) (entry : InstanceId × Snapshot) : Prop :=
  ∃ mapping, types[entry.1]? = some mapping ∧ entry.2.Sound mapping types.size

structure Sound (store : Store World) : Prop where
  registry : store.registry.WellFormed
  memory : ∀ (subject : InstanceId) (content : Instance),
    store.memory[subject]? = some content → content.Sound store.registry store.memory.size
  snapshots : ∀ entry ∈ store.transactions, ∀ kept ∈ entry.2.snapshots, Keeps store.types kept

theorem instanceAt_eq {store : Store World} {subject : InstanceId} {content : Instance}
    (found : store.memory[subject]? = some content) : store.instanceAt subject = content := by
  unfold instanceAt instance?
  rw [found]
  rfl

theorem getElem?_modifyInstance (store : Store World) (edit : Instance → Instance)
    (subject other : InstanceId) :
    (store.modifyInstance edit subject).memory[other]? =
      (store.memory[other]?).map fun content =>
        if other = subject then edit content else content := by
  unfold modifyInstance
  simp only [Array.getElem?_setIfInBounds]
  by_cases same : subject = other
  · subst same
    cases found : store.memory[subject]? with
    | none =>
        have outside : ¬subject < store.memory.size :=
          Nat.not_lt.mpr (Array.getElem?_eq_none_iff.mp found)
        simp [outside]
    | some content =>
        obtain ⟨bound, _⟩ := Array.getElem?_eq_some_iff.mp found
        simp [bound, instanceAt_eq found]
  · have apart : other ≠ subject := fun equal => same equal.symm
    rw [if_neg same]
    cases store.memory[other]? <;> simp [apart]

theorem instanceAt_of_size_le {store : Store World} {subject : InstanceId}
    (beyond : store.memory.size ≤ subject) : store.instanceAt subject = Instance.absent := by
  unfold instanceAt instance?
  rw [Array.getElem?_eq_none beyond]
  rfl

theorem instanceAt_addInstance (content : Instance) (store : Store World) (subject : InstanceId) :
    (store.addInstance content).2.instanceAt subject
      = if subject = store.memory.size then content else store.instanceAt subject := by
  unfold instanceAt instance? addInstance
  rw [Array.getElem?_push]
  split <;> rfl

theorem size_modifyInstance (store : Store World) (edit : Instance → Instance)
    (subject : InstanceId) :
    (store.modifyInstance edit subject).memory.size = store.memory.size :=
  Array.size_setIfInBounds

private theorem types_modifyInstance {edit : Instance → Instance}
    (same : ∀ content, (edit content).mapping = content.mapping) (subject : InstanceId)
    (store : Store World) : (store.modifyInstance edit subject).types = store.types := by
  apply Array.ext_getElem?
  intro other
  unfold types
  rw [Array.getElem?_map, Array.getElem?_map, getElem?_modifyInstance, Option.map_map]
  congr 1
  funext content
  simp only [Function.comp_apply]
  split
  · exact same content
  · rfl

namespace Sound

variable {store after : Store World}

/-- Only the registry, memory and the snapshots matter. -/
theorem transfer (sound : store.Sound) (registry : after.registry = store.registry)
    (memory : after.memory = store.memory)
    (snapshots : ∀ entry ∈ after.transactions, ∀ kept ∈ entry.2.snapshots,
      ∃ other ∈ store.transactions, kept ∈ other.2.snapshots) : after.Sound := by
  refine ⟨registry ▸ sound.registry, ?_, ?_⟩
  · rw [registry, memory]
    exact sound.memory
  · intro entry member kept isKept
    obtain ⟨other, otherMember, otherKept⟩ := snapshots entry member kept isKept
    unfold types
    rw [memory]
    exact sound.snapshots other otherMember kept otherKept

theorem transfer_same (sound : store.Sound) (registry : after.registry = store.registry)
    (memory : after.memory = store.memory) (transactions : after.transactions = store.transactions) :
    after.Sound :=
  sound.transfer registry memory fun entry member _ isKept =>
    ⟨entry, transactions ▸ member, isKept⟩

private theorem fewerTransactions (sound : store.Sound)
    {fewer : List (ThreadId × Transaction)} (included : ∀ entry ∈ fewer, entry ∈ store.transactions) :
    ({ store with transactions := fewer } : Store World).Sound :=
  sound.transfer rfl rfl fun entry member _ isKept => ⟨entry, included entry member, isKept⟩

theorem dropTransaction (sound : store.Sound) (thread : ThreadId) :
    (store.dropTransaction thread).Sound :=
  sound.fewerTransactions fun _ member => (List.mem_filter.mp member).1

/-- A transaction that is put in the place of another one has sound snapshots. -/
theorem setTransaction (sound : store.Sound) (thread : ThreadId) {transaction : Transaction}
    (kept : ∀ entry ∈ transaction.snapshots, Keeps store.types entry) :
    (store.setTransaction thread transaction).Sound := by
  refine ⟨sound.registry, sound.memory, ?_⟩
  intro entry member
  rcases List.mem_append.mp member with isOther | isNew
  · exact sound.snapshots entry (List.mem_filter.mp isOther).1
  · rw [List.mem_singleton.mp isNew]
    exact kept

/-! ### Memory -/

theorem modifyInstance (sound : store.Sound) {edit : Instance → Instance}
    (same : ∀ content, (edit content).mapping = content.mapping) {subject : InstanceId}
    (keeps : ∀ content, store.memory[subject]? = some content →
      (edit content).Sound store.registry store.memory.size) :
    (store.modifyInstance edit subject).Sound := by
  refine ⟨sound.registry, ?_, ?_⟩
  · intro other content found
    rw [getElem?_modifyInstance] at found
    obtain ⟨old, foundOld, rfl⟩ := Option.map_eq_some_iff.mp found
    rw [size_modifyInstance]
    split
    · rename_i here
      exact keeps old (here ▸ foundOld)
    · exact sound.memory other old foundOld
  · rw [types_modifyInstance same]
    exact sound.snapshots

theorem addInstance (sound : store.Sound) {content : Instance}
    (fresh : content.Sound store.registry store.memory.size) :
    (store.addInstance content).2.Sound := by
  have grown : store.memory.size ≤ (store.addInstance content).2.memory.size := by
    simp [Store.addInstance]
  refine ⟨sound.registry, ?_, ?_⟩
  · intro subject other found
    simp only [Store.addInstance, Array.getElem?_push] at found
    split at found
    · cases found
      exact fresh.grow (fun _ member => member) grown
    · exact (sound.memory subject other found).grow (fun _ member => member) grown
  · intro entry member kept isKept
    obtain ⟨mapping, found, keptSound⟩ := sound.snapshots entry member kept isKept
    obtain ⟨bound, _⟩ := Array.getElem?_eq_some_iff.mp found
    have extended : (store.addInstance content).2.types = store.types.push content.mapping := by
      simp [Store.addInstance, types]
    refine ⟨mapping, ?_, keptSound.grow (by simp [extended])⟩
    rw [extended, Array.getElem?_push, if_neg (Nat.ne_of_lt bound)]
    exact found

private theorem forgetCollections (sound : store.Sound) (subject : InstanceId) :
    (store.modifyInstance (fun content => { content with collections := [] }) subject).Sound :=
  sound.modifyInstance (by intro _; rfl) fun content found =>
    (sound.memory subject content found).of_same rfl rfl rfl rfl

theorem invalidateOwners (sound : store.Sound) (keys : List Key) :
    (store.invalidateOwners keys).Sound := by
  have cleared : ∀ (affected : List InstanceId) (current : Store World), current.Sound →
      (affected.foldl (fun current subject => current.modifyInstance
        (fun content => { content with collections := [] }) subject) current).Sound := by
    intro affected
    induction affected with
    | nil => exact fun current soundCurrent => soundCurrent
    | cons subject rest ih =>
        exact fun current soundCurrent => ih _ (soundCurrent.forgetCollections subject)
  exact (cleared _ store sound).transfer_same rfl rfl rfl

theorem types_restoreInstances (transaction : Transaction) (store : Store World) :
    (Store.restoreInstances transaction store).types = store.types := by
  unfold Store.restoreInstances
  induction transaction.snapshots.reverse generalizing store with
  | nil => rfl
  | cons entry rest ih => rw [List.foldl_cons, ih, types_modifyInstance (by intro _; rfl)]

theorem restoreInstances (sound : store.Sound) {transaction : Transaction}
    (kept : ∀ entry ∈ transaction.snapshots, Keeps store.types entry) :
    (Store.restoreInstances transaction store).Sound := by
  have keptReversed : ∀ entry ∈ transaction.snapshots.reverse, Keeps store.types entry :=
    fun entry member => kept entry (List.mem_reverse.mp member)
  unfold Store.restoreInstances
  clear kept
  -- The types in memory stay, so that the snapshots left over stay sound.
  generalize transaction.snapshots.reverse = snapshots at keptReversed ⊢
  induction snapshots generalizing store with
  | nil => exact sound
  | cons entry rest ih =>
      obtain ⟨mapping, found, keptSound⟩ := keptReversed entry List.mem_cons_self
      rw [List.foldl_cons]
      refine ih (sound.modifyInstance (by intro _; rfl) fun content foundContent => ?_) ?_
      · have same : content.mapping = mapping := by
          simpa [types, foundContent] using found
        apply (sound.memory entry.1 content foundContent).restore
        rw [same]
        simpa [types] using keptSound
      · intro other member
        rw [types_modifyInstance (by intro _; rfl)]
        exact keptReversed other (List.mem_cons_of_mem entry member)

/-! ### Transactions -/

theorem recordWrites (sound : store.Sound) (thread : ThreadId) (writes : WriteSet) :
    (Store.recordWrites thread writes store).Sound := by
  have evicted : ({ store with cache := writes.withoutFills.evictTouched store.cache } :
      Store World).Sound := sound.transfer_same rfl rfl rfl
  have invalidated := evicted.invalidateOwners writes.withoutFills.owners
  unfold Store.recordWrites
  simp only
  split
  · exact invalidated
  · rename_i transaction found
    exact invalidated.setTransaction thread
      (invalidated.snapshots _ (mem_of_lookup found))

theorem rememberInTransaction (sound : store.Sound) (thread : ThreadId) {subject : InstanceId}
    (inMemory : subject < store.memory.size) :
    (Store.rememberInTransaction thread subject store).Sound := by
  unfold Store.rememberInTransaction
  split
  · exact sound
  · rename_i transaction found
    apply sound.setTransaction
    unfold Transaction.keepSnapshot
    split
    · exact sound.snapshots _ (mem_of_lookup found)
    · intro entry member
      rcases List.mem_append.mp member with isOld | isNew
      · exact sound.snapshots _ (mem_of_lookup found) entry isOld
      · rw [List.mem_singleton.mp isNew]
        have found : store.memory[subject]? = some store.memory[subject] :=
          Array.getElem?_eq_getElem inMemory
        refine ⟨store.memory[subject].mapping, by simp [types, found], ?_⟩
        rw [instanceAt_eq found]
        simpa [types] using (sound.memory subject _ found).sound

end Sound
end Store
end EntityStore
