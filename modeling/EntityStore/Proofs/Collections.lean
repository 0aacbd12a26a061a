/-
Collections that instances hold. Whoever holds collections has an id, and as long as the
store is open it is listed under its key, so that a write which affects this key finds it.
Units of work and the boundaries of transactions make nobody hold any.
-/

import EntityStore.Proofs.Orderly
import EntityStore.Proofs.Settling

set_option autoImplicit false

namespace EntityStore

/-- An edit forgets the collections of an instance, or leaves them and the key that they
were read under. -/
def Instance.Sheds (content edited : Instance) : Prop :=
  edited.collections = [] ∨ (edited.collections = content.collections ∧
    (content.key.hasId = true → edited.key = content.key))

theorem Instance.Sheds.of_same {content edited : Instance}
    (collections : edited.collections = content.collections) (key : edited.key = content.key) :
    content.Sheds edited :=
  Or.inr ⟨collections, fun _ => key⟩

theorem Instance.sheds_settle (content : Instance) (id : Int64) (row : Row) :
    content.Sheds (content.settle id row) := by
  refine Or.inr ⟨rfl, fun hasId => ?_⟩
  unfold settle
  exact if_pos hasId

namespace Store

variable {World α β : Type} {session : Session World} {store between after : Store World}
  {subject : InstanceId} {key : Key} {keys : List Key}

structure Owns (store : Store World) (subject : InstanceId) (key : Key) : Prop where
  held : (store.instanceAt subject).collections ≠ []
  key : (store.instanceAt subject).key = key

/-- The instance is listed among the owners with this key. -/
def Lists (store : Store World) (key : Key) (subject : InstanceId) : Prop :=
  ∃ members, store.owners.lookup key = some members ∧ subject ∈ members

structure KnowsOwners (store : Store World) : Prop where
  keyed : ∀ subject key, store.Owns subject key → key.hasId = true
  lists : store.isOpen = true → ∀ subject key, store.Owns subject key → store.Lists key subject

def HoldsStill (store after : Store World) (subject : InstanceId) : Prop :=
  (after.instanceAt subject).collections = [] ∨
    (after.instanceAt subject).collections = (store.instanceAt subject).collections

structure Sheds (store after : Store World) : Prop where
  knows : store.KnowsOwners → after.KnowsOwners
  owns : store.KnowsOwners → ∀ subject key, after.Owns subject key → store.Owns subject key
  holds : ∀ subject, store.HoldsStill after subject

structure Gathers (who : InstanceId → Prop) (store after : Store World) : Prop where
  knows : store.KnowsOwners → after.KnowsOwners
  owns : store.KnowsOwners → ∀ subject key, after.Owns subject key →
    store.Owns subject key ∨ who subject
  holds : ∀ subject, ¬who subject → store.HoldsStill after subject

def Disowns (keys : List Key) (store : Store World) : Prop :=
  ∀ key ∈ keys, ∀ subject, ¬store.Owns subject key

/-! ### Changes of a store -/

theorem HoldsStill.trans (first : store.HoldsStill between subject)
    (second : between.HoldsStill after subject) : store.HoldsStill after subject := by
  rcases second with none | same
  · exact Or.inl none
  · unfold HoldsStill
    rw [same]
    exact first

theorem instanceAt_of_memory (memory : after.memory = store.memory) (subject : InstanceId) :
    after.instanceAt subject = store.instanceAt subject := by
  unfold instanceAt instance?
  rw [memory]

theorem holdsStill_of_memory (memory : after.memory = store.memory) (subject : InstanceId) :
    store.HoldsStill after subject :=
  Or.inr (congrArg Instance.collections (instanceAt_of_memory memory subject))

theorem Sheds.refl (store : Store World) : store.Sheds store :=
  ⟨fun knows => knows, fun _ _ _ owns => owns, fun _ => Or.inr rfl⟩

theorem Sheds.trans (first : store.Sheds between) (second : between.Sheds after) :
    store.Sheds after :=
  ⟨fun knows => second.knows (first.knows knows),
    fun knows subject key owns =>
      first.owns knows subject key (second.owns (first.knows knows) subject key owns),
    fun subject => (first.holds subject).trans (second.holds subject)⟩

theorem Sheds.gathers (sheds : store.Sheds after) (who : InstanceId → Prop) :
    Gathers who store after :=
  ⟨sheds.knows, fun knows subject key owns => Or.inl (sheds.owns knows subject key owns),
    fun subject _ => sheds.holds subject⟩

theorem Gathers.mono {who more : InstanceId → Prop} (gathers : Gathers who store after)
    (wider : ∀ subject, who subject → more subject) : Gathers more store after :=
  ⟨gathers.knows, fun knows subject key owns =>
    (gathers.owns knows subject key owns).imp_right (wider subject),
    fun subject apart => gathers.holds subject fun isWho => apart (wider subject isWho)⟩

theorem Sheds.trans_gathers {who : InstanceId → Prop} (sheds : store.Sheds between)
    (gathers : Gathers who between after) : Gathers who store after :=
  ⟨fun knows => gathers.knows (sheds.knows knows), fun knows subject key owns =>
    (gathers.owns (sheds.knows knows) subject key owns).imp_left
      (sheds.owns knows subject key),
    fun subject apart => (sheds.holds subject).trans (gathers.holds subject apart)⟩

theorem Disowns.sheds (disowns : store.Disowns keys) (knows : store.KnowsOwners)
    (sheds : store.Sheds after) : after.Disowns keys :=
  fun key member subject owns => disowns key member subject (sheds.owns knows subject key owns)

/-- Fewer own, and those who still do are still listed. -/
theorem sheds_of_owns (isOpen : after.isOpen = store.isOpen)
    (owns : store.KnowsOwners → ∀ subject key, after.Owns subject key → store.Owns subject key)
    (lists : store.KnowsOwners → store.isOpen = true → ∀ subject key, after.Owns subject key →
      store.Lists key subject → after.Lists key subject)
    (holds : ∀ subject, store.HoldsStill after subject) : store.Sheds after := by
  refine ⟨fun knows => ⟨fun subject key held => ?_, fun opened subject key held => ?_⟩, owns, holds⟩
  · exact knows.keyed subject key (owns knows subject key held)
  · rw [isOpen] at opened
    exact lists knows opened subject key held
      (knows.lists opened subject key (owns knows subject key held))

theorem owns_of_memory (memory : after.memory = store.memory) :
    after.Owns subject key ↔ store.Owns subject key := by
  have same := instanceAt_of_memory memory subject
  constructor
  · exact fun owns => ⟨same ▸ owns.held, same ▸ owns.key⟩
  · exact fun owns => ⟨same ▸ owns.held, same ▸ owns.key⟩

theorem sheds_of_same (isOpen : after.isOpen = store.isOpen) (memory : after.memory = store.memory)
    (owners : after.owners = store.owners) : store.Sheds after := by
  refine sheds_of_owns isOpen (fun _ _ _ => (owns_of_memory memory).mp)
    (fun _ _ _ _ _ lists => ?_) (holdsStill_of_memory memory)
  unfold Lists
  rw [owners]
  exact lists

private theorem sheds_of_closed (isOpen : after.isOpen = false)
    (memory : after.memory = store.memory) : store.Sheds after := by
  refine ⟨fun knows => ⟨fun subject key owns => ?_, fun opened => ?_⟩, fun _ _ _ =>
    (owns_of_memory memory).mp, holdsStill_of_memory memory⟩
  · exact knows.keyed subject key ((owns_of_memory memory).mp owns)
  · rw [isOpen] at opened
    cases opened

/-! ### Edits -/

theorem sheds_modifyInstance {edit : Instance → Instance}
    (edits : (store.instanceAt subject).Sheds (edit (store.instanceAt subject))) :
    store.Sheds (store.modifyInstance edit subject) := by
  refine sheds_of_owns rfl (fun knows other key owns => ?_) (fun _ _ _ _ _ lists => lists)
    fun other => ?_
  case refine_2 =>
    unfold HoldsStill
    rw [instanceAt_modifyInstance]
    split
    · rename_i edited
      exact edited.1 ▸ edits.imp_right And.left
    · exact Or.inr rfl
  obtain ⟨held, isKey⟩ := owns
  rw [instanceAt_modifyInstance] at held isKey
  by_cases edited : other = subject ∧ other < store.memory.size
  · rw [if_pos edited] at held isKey
    obtain ⟨rfl, _⟩ := edited
    rcases edits with forgotten | ⟨same, keyed⟩
    · exact absurd forgotten held
    · rw [same] at held
      have hasId := knows.keyed other _ ⟨held, rfl⟩
      exact ⟨held, (keyed hasId).symm.trans isKey⟩
  · rw [if_neg edited] at held isKey
    exact ⟨held, isKey⟩

theorem sheds_addInstance {content : Instance} (none : content.collections = [])
    (store : Store World) : store.Sheds (store.addInstance content).2 := by
  refine sheds_of_owns rfl (fun _ other key owns => ?_) (fun _ _ _ _ _ lists => lists)
    fun other => ?_
  case refine_2 =>
    unfold HoldsStill
    rw [instanceAt_addInstance]
    split
    · exact Or.inl none
    · exact Or.inr rfl
  obtain ⟨held, isKey⟩ := owns
  rw [instanceAt_addInstance] at held isKey
  by_cases isNew : other = store.memory.size
  · rw [if_pos isNew] at held
    exact absurd none held
  · rw [if_neg isNew] at held isKey
    exact ⟨held, isKey⟩

private theorem sheds_restoreInstances (transaction : Transaction) (store : Store World) :
    store.Sheds (restoreInstances transaction store) := by
  unfold restoreInstances
  induction transaction.snapshots.reverse generalizing store with
  | nil => exact .refl store
  | cons entry rest ih =>
      rw [List.foldl_cons]
      exact (sheds_modifyInstance (Or.inl rfl)).trans (ih _)

/-! ### Forgetting the collections of owners -/

private theorem collections_cleared (affected : List InstanceId) (store : Store World)
    (subject : InstanceId) :
    ((affected.foldl (fun current other => current.modifyInstance
      (fun content => { content with collections := [] }) other) store).instanceAt
        subject).collections
      = if subject ∈ affected then [] else (store.instanceAt subject).collections := by
  induction affected generalizing store with
  | nil => rfl
  | cons other rest ih =>
      rw [List.foldl_cons, ih, instanceAt_modifyInstance]
      by_cases later : subject ∈ rest
      · rw [if_pos later, if_pos (List.mem_cons_of_mem other later)]
      by_cases same : subject = other
      · have isAffected : subject ∈ other :: rest := same ▸ List.mem_cons_self
        rw [if_neg later, if_pos isAffected]
        by_cases inMemory : subject < store.memory.size
        · rw [if_pos ⟨same, inMemory⟩]
        · -- What is not in memory has no collections.
          rw [if_neg fun both => inMemory both.2]
          unfold instanceAt instance?
          rw [Array.getElem?_eq_none (Nat.le_of_not_lt inMemory)]
          rfl
      · have unaffected : subject ∉ other :: rest :=
          fun member => (List.mem_cons.mp member).elim same later
        rw [if_neg later, if_neg fun both => same both.1, if_neg unaffected]

private theorem collections_invalidateOwners (keys : List Key) (store : Store World)
    (subject : InstanceId) :
    ((store.invalidateOwners keys).instanceAt subject).collections
      = if subject ∈ (store.owners.filter fun entry => keys.contains entry.1).flatMap Prod.snd
        then [] else (store.instanceAt subject).collections :=
  collections_cleared _ store subject

private theorem owns_of_invalidateOwners (owns : (store.invalidateOwners keys).Owns subject key) :
    store.Owns subject key := by
  obtain ⟨held, isKey⟩ := owns
  rw [collections_invalidateOwners] at held
  rw [part_invalidateOwners Instance.key fun _ => rfl] at isKey
  split at held
  · exact absurd rfl held
  · exact ⟨held, isKey⟩

/-- Whoever is listed under one of the keys holds nothing any more. -/
theorem disowns_invalidateOwners (knows : store.KnowsOwners) (isOpen : store.isOpen = true)
    (keys : List Key) : (store.invalidateOwners keys).Disowns keys := by
  intro key member subject owns
  obtain ⟨members, found, isMember⟩ :=
    knows.lists isOpen subject key (owns_of_invalidateOwners owns)
  have held := owns.held
  rw [collections_invalidateOwners, if_pos] at held
  · exact held rfl
  · refine List.mem_flatMap.mpr ⟨(key, members), List.mem_filter.mpr ⟨?_, ?_⟩, isMember⟩
    · exact mem_of_lookup found
    · exact List.contains_iff_mem.mpr member

private theorem owners_invalidateOwners (keys : List Key) (store : Store World) :
    (store.invalidateOwners keys).owners
      = store.owners.filter fun entry => !keys.contains entry.1 := by
  have cleared (affected : List InstanceId) (current : Store World) :
      (affected.foldl (fun current subject => current.modifyInstance
        (fun content => { content with collections := [] }) subject) current).owners
          = current.owners := by
    induction affected generalizing current with
    | nil => rfl
    | cons other rest ih => exact ih _
  unfold invalidateOwners
  simp only [cleared]

theorem sheds_invalidateOwners (keys : List Key) (store : Store World) :
    store.Sheds (store.invalidateOwners keys) := by
  refine sheds_of_owns (isOpen_invalidateOwners keys store)
    (fun _ _ _ => owns_of_invalidateOwners) (fun knows isOpen subject key owns lists => ?_)
    fun subject => ?_
  case refine_2 =>
    unfold HoldsStill
    rw [collections_invalidateOwners]
    split
    · exact Or.inl rfl
    · exact Or.inr rfl
  have kept : (!keys.contains key) = true := by
    rw [Bool.not_eq_true', ← Bool.not_eq_true, List.contains_iff_mem]
    exact fun member => disowns_invalidateOwners knows isOpen keys key member subject owns
  obtain ⟨members, found, isMember⟩ := lists
  refine ⟨members, ?_, isMember⟩
  rw [owners_invalidateOwners]
  exact (@lookup_filter_of_kept _ _ _ _ (fun other => !keys.contains other) _ kept _).trans found

/-! ### Units and transactions -/

private theorem sheds_recordWrites (thread : ThreadId) (writes : WriteSet) (store : Store World) :
    store.Sheds (recordWrites thread writes store) := by
  have evicts : store.Sheds { store with cache := writes.withoutFills.evictTouched store.cache } :=
    sheds_of_same rfl rfl rfl
  have invalidates := evicts.trans (sheds_invalidateOwners writes.withoutFills.owners _)
  unfold recordWrites
  dsimp only
  split
  · exact invalidates
  · exact invalidates.trans (sheds_of_same rfl rfl rfl)

theorem disowns_recordWrites (knows : store.KnowsOwners) (isOpen : store.isOpen = true)
    (thread : ThreadId) (writes : WriteSet) :
    (recordWrites thread writes store).Disowns writes.owners := by
  have evicts : store.Sheds { store with cache := writes.withoutFills.evictTouched store.cache } :=
    sheds_of_same rfl rfl rfl
  have disowns : Disowns writes.owners (Store.invalidateOwners writes.withoutFills.owners
      { store with cache := writes.withoutFills.evictTouched store.cache }) :=
    disowns_invalidateOwners (evicts.knows knows) isOpen writes.owners
  unfold recordWrites
  dsimp only
  split
  · exact disowns
  · intro key member subject owns
    exact disowns key member subject ⟨owns.held, owns.key⟩

private theorem sheds_written (writes : WriteSet) (generation : Nat) (store : Store World) :
    store.Sheds (store.written writes generation) := by
  have applies : store.Sheds { store with cache := writes.apply generation store.cache } :=
    sheds_of_same rfl rfl rfl
  exact applies.trans (sheds_invalidateOwners writes.owners _)

theorem UnitEnds.sheds {issued : Question → Prop} {transactional : Bool}
    {gives : α × WriteSet → List Event → Prop} {outcome : Except Error α}
    (ends : UnitEnds session issued transactional gives store outcome after) :
    store.Sheds after := by
  cases ends with
  | closed _ => exact .refl store
  | @recorded _ _ world _ _ writes _ _ _ _ _ =>
      have worked : store.Sheds (store.withWorld world) := sheds_of_same rfl rfl rfl
      exact worked.trans (sheds_recordWrites _ _ _)
  | @aborted transaction _ _ world _ _ _ _ _ _ _ _ =>
      have dropped : store.Sheds ((store.withWorld world).dropTransaction session.thread) :=
        sheds_of_same rfl rfl rfl
      exact (dropped.trans (sheds_restoreInstances transaction _)).trans (sheds_of_same rfl rfl rfl)
  | unconnected _ _ _ => exact sheds_of_same rfl rfl rfl
  | @applied pool _ _ world _ writes _ _ _ _ _ =>
      have worked : store.Sheds { store with pool := { pool with world := world } } :=
        sheds_of_same rfl rfl rfl
      exact (worked.trans (sheds_written writes _ _)).trans (sheds_of_same rfl rfl rfl)
  | failed _ _ _ _ _ => exact sheds_of_same rfl rfl rfl

theorem BeginEnds.sheds {outcome : Except Error Unit} (ends : BeginEnds session store outcome after) :
    store.Sheds after := by
  cases ends with
  | closed _ => exact .refl store
  | alreadyOpen _ _ => exact .refl store
  | unconnected _ _ _ => exact sheds_of_same rfl rfl rfl
  | begun _ _ _ _ _ => exact sheds_of_same rfl rfl rfl
  | refused _ _ _ _ _ => exact sheds_of_same rfl rfl rfl

/-- Where a transaction is not committed, nobody holds collections any more as an owner that
it has affected. -/
theorem sheds_rolledBack {transaction : Transaction} {dropped : Store World}
    (dropping : store.Sheds dropped) (isOpen : dropped.isOpen = true) :
    store.Sheds (invalidateOwners transaction.writes.owners (restoreInstances transaction dropped)) ∧
      (store.KnowsOwners → Disowns transaction.writes.owners
        (invalidateOwners transaction.writes.owners (restoreInstances transaction dropped))) := by
  have restored := dropping.trans (sheds_restoreInstances transaction dropped)
  refine ⟨restored.trans (sheds_invalidateOwners _ _), fun knows => ?_⟩
  refine disowns_invalidateOwners (restored.knows knows) ?_ _
  rw [isOpen_restoreInstances]
  exact isOpen

theorem CommitEnds.sheds {outcome : Except Error Unit}
    (ends : CommitEnds session store outcome after) : store.Sheds after := by
  cases ends with
  | closed _ => exact .refl store
  | notOpen _ _ => exact .refl store
  | @committed transaction _ world _ _ _ _ =>
      have dropped : store.Sheds ((store.dropTransaction session.thread).withWorld world) :=
        sheds_of_same rfl rfl rfl
      exact (dropped.trans (sheds_written transaction.writes _ _)).trans (sheds_of_same rfl rfl rfl)
  | @refused transaction _ _ world _ _ isOpen _ _ _ _ =>
      have dropped : store.Sheds ((store.dropTransaction session.thread).withWorld world) :=
        sheds_of_same rfl rfl rfl
      exact (sheds_rolledBack dropped isOpen).1.trans (sheds_of_same rfl rfl rfl)

theorem RollbackEnds.sheds {outcome : Except Error Unit}
    (ends : RollbackEnds session store outcome after) : store.Sheds after := by
  cases ends with
  | closed _ => exact .refl store
  | notOpen _ _ => exact .refl store
  | @rolledBack transaction _ world _ isOpen _ _ _ =>
      have dropped : store.Sheds ((store.dropTransaction session.thread).withWorld world) :=
        sheds_of_same rfl rfl rfl
      exact (sheds_rolledBack dropped isOpen).1.trans (sheds_of_same rfl rfl rfl)

theorem Abandoned.sheds {transactions : List Transaction}
    (abandoned : Abandoned session transactions store after) : store.Sheds after := by
  induction abandoned with
  | nil store => exact .refl store
  | @cons transaction _ store _ world _ _ ih =>
      have worked : store.Sheds (store.withWorld world) := sheds_of_same rfl rfl rfl
      have restored := worked.trans (sheds_restoreInstances transaction _)
      have released : Sheds (restoreInstances transaction (store.withWorld world))
          ((restoreInstances transaction (store.withWorld world)).released session
            transaction.lease) := sheds_of_same rfl rfl rfl
      exact (restored.trans released).trans ih

theorem CloseEnds.sheds (ends : CloseEnds session store after) : store.Sheds after := by
  cases ends with
  | again _ => exact .refl store
  | @closed between _ abandoned =>
      have closes : store.Sheds { store with isOpen := false, transactions := [] } :=
        sheds_of_closed rfl rfl
      have isClosed : between.isOpen = false := isOpen_abandoned abandoned
      exact (closes.trans abandoned.sheds).trans (sheds_of_closed isClosed rfl)

end Store
end EntityStore
