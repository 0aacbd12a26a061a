/-
What the state of an instance says about the rest of it. A new instance has neither id nor
row; a stored one has an id, and assigned values exactly if it is dirty; a removed one holds
nothing. Every step of an operation keeps this, for the instances in memory and for the
snapshots that transactions hold of them.
-/

import EntityStore.Proofs.Steps

set_option autoImplicit false

namespace EntityStore

structure Snapshot.Consistent (snapshot : Snapshot) : Prop where
  transient : snapshot.state = .transient → snapshot.key.id = none ∧ snapshot.row = none
  clean : snapshot.state = .clean → snapshot.key.id.isSome = true ∧ snapshot.pending = []
  dirty : snapshot.state = .dirty → snapshot.key.id.isSome = true ∧ snapshot.pending ≠ []
  removed : snapshot.state = .removed → snapshot.row = none ∧ snapshot.pending = []

structure Instance.Consistent (content : Instance) : Prop where
  look : (Snapshot.ofInstance content).Consistent
  collections : content.state = .removed → content.collections = []

namespace Snapshot.Consistent

variable {snapshot : Snapshot}

private theorem of_transient (state : snapshot.state = .transient)
    (unkeyed : snapshot.key.id = none) (rowless : snapshot.row = none) : snapshot.Consistent := by
  refine ⟨fun _ => ⟨unkeyed, rowless⟩, ?_, ?_, ?_⟩ <;>
    · intro other
      rw [state] at other
      cases other

private theorem of_clean (state : snapshot.state = .clean) (keyed : snapshot.key.id.isSome = true)
    (settled : snapshot.pending = []) : snapshot.Consistent := by
  refine ⟨?_, fun _ => ⟨keyed, settled⟩, ?_, ?_⟩ <;>
    · intro other
      rw [state] at other
      cases other

private theorem of_dirty (state : snapshot.state = .dirty) (keyed : snapshot.key.id.isSome = true)
    (assigned : snapshot.pending ≠ []) : snapshot.Consistent := by
  refine ⟨?_, ?_, fun _ => ⟨keyed, assigned⟩, ?_⟩ <;>
    · intro other
      rw [state] at other
      cases other

private theorem of_removed (state : snapshot.state = .removed) (rowless : snapshot.row = none)
    (settled : snapshot.pending = []) : snapshot.Consistent := by
  refine ⟨?_, ?_, ?_, fun _ => ⟨rowless, settled⟩⟩ <;>
    · intro other
      rw [state] at other
      cases other

end Snapshot.Consistent

/-! ### Edits of one instance -/

namespace Instance.Consistent

variable {content : Instance}

private theorem of_present (present : content.state ≠ .removed)
    (look : (Snapshot.ofInstance content).Consistent) : content.Consistent :=
  ⟨look, fun removed => absurd removed present⟩

private theorem absent : Instance.absent.Consistent :=
  ⟨.of_removed rfl rfl rfl, fun _ => rfl⟩

private theorem made {registry : Registry} {store : StoreId} (made : content.Made registry store) :
    content.Consistent := by
  cases made with
  | transient _ => exact ⟨.of_transient rfl rfl rfl, fun _ => rfl⟩
  | stored id row _ => exact ⟨.of_clean rfl rfl rfl, fun _ => rfl⟩

private theorem assign (consistent : content.Consistent) (present : content.state ≠ .removed)
    (name : String) (value : PropertyValue) : (content.assign name value).Consistent := by
  have assigned : (content.assign name value).pending ≠ [] := Row.place_ne_nil name value _
  cases state : content.state with
  | removed => exact absurd state present
  | transient =>
      have still : (content.assign name value).state = .transient := by
        simp only [Instance.assign, state, reduceCtorEq, ↓reduceIte]
      obtain ⟨unkeyed, rowless⟩ := consistent.look.transient state
      refine .of_present ?_ (.of_transient still unkeyed rowless)
      rw [still]
      decide
  | clean =>
      have now : (content.assign name value).state = .dirty := by
        simp only [Instance.assign, state, ↓reduceIte]
      refine .of_present ?_ (.of_dirty now (consistent.look.clean state).1 assigned)
      rw [now]
      decide
  | dirty =>
      have still : (content.assign name value).state = .dirty := by
        simp only [Instance.assign, state, reduceCtorEq, ↓reduceIte]
      refine .of_present ?_ (.of_dirty still (consistent.look.dirty state).1 assigned)
      rw [still]
      decide

private theorem loaded (consistent : content.Consistent) (stored : content.Stored) (row : Row) :
    ({ content with row := some row } : Instance).Consistent := by
  refine .of_present stored.present ?_
  rcases stored with clean | dirty
  · exact .of_clean clean (consistent.look.clean clean).1 (consistent.look.clean clean).2
  · exact .of_dirty dirty (consistent.look.dirty dirty).1 (consistent.look.dirty dirty).2

private theorem gathered (consistent : content.Consistent) (present : content.state ≠ .removed)
    (collections : List (String × List InstanceId)) :
    ({ content with collections := collections } : Instance).Consistent :=
  .of_present present consistent.look

private theorem forgot (consistent : content.Consistent) :
    ({ content with collections := [] } : Instance).Consistent :=
  ⟨consistent.look, fun _ => rfl⟩

private theorem settle (content : Instance) (id : Int64) (row : Row) :
    (content.settle id row).Consistent := by
  refine .of_present (by rintro ⟨⟩) (.of_clean rfl ?_ rfl)
  simp only [Snapshot.ofInstance, Instance.settle]
  split
  · assumption
  · rfl

private theorem withdraw (content : Instance) : content.withdraw.Consistent :=
  ⟨.of_removed rfl rfl rfl, fun _ => rfl⟩

private theorem restore {snapshot : Snapshot} (consistent : snapshot.Consistent)
    (content : Instance) :
    (snapshot.restore content).Consistent :=
  ⟨consistent, fun _ => rfl⟩

end Instance.Consistent

namespace Store

variable {World α : Type} {session : Session World} {store after : Store World}

structure Consistent (store : Store World) : Prop where
  memory : ∀ subject, (store.instanceAt subject).Consistent
  snapshots : ∀ entry ∈ store.transactions, ∀ kept ∈ entry.2.snapshots,
    kept.2.Consistent ∧ kept.2.state ≠ .removed

namespace Consistent

private theorem transfer (consistent : store.Consistent) (memory : after.memory = store.memory)
    (transactions : ∀ entry ∈ after.transactions, ∀ kept ∈ entry.2.snapshots,
      ∃ other ∈ store.transactions, kept ∈ other.2.snapshots) : after.Consistent where
  memory subject := by
    rw [show after.instanceAt subject = store.instanceAt subject from by
      rw [instanceAt, instance?, memory]; rfl]
    exact consistent.memory subject
  snapshots entry member kept isKept := by
    obtain ⟨other, isOther, among⟩ := transactions entry member kept isKept
    exact consistent.snapshots other isOther kept among

private theorem transfer_same (consistent : store.Consistent) (memory : after.memory = store.memory)
    (transactions : after.transactions = store.transactions) : after.Consistent :=
  consistent.transfer memory fun entry member _ isKept => ⟨entry, transactions ▸ member, isKept⟩

private theorem withWorld (consistent : store.Consistent) (world : World) :
    (store.withWorld world).Consistent :=
  consistent.transfer_same rfl rfl

private theorem fewerTransactions (consistent : store.Consistent)
    (memory : after.memory = store.memory)
    (fewer : ∀ entry ∈ after.transactions, entry ∈ store.transactions) : after.Consistent :=
  consistent.transfer memory fun entry member _ isKept => ⟨entry, fewer entry member, isKept⟩

private theorem modifyInstance (consistent : store.Consistent) {edit : Instance → Instance}
    {subject : InstanceId} (edits : (edit (store.instanceAt subject)).Consistent) :
    (store.modifyInstance edit subject).Consistent where
  memory other := by
    rw [instanceAt_modifyInstance]
    split
    · rename_i both
      exact both.1 ▸ edits
    · exact consistent.memory other
  snapshots := consistent.snapshots

private theorem addInstance (consistent : store.Consistent) {content : Instance}
    (fresh : content.Consistent) : (store.addInstance content).2.Consistent where
  memory other := by
    rw [instanceAt_addInstance]
    split
    · exact fresh
    · exact consistent.memory other
  snapshots := consistent.snapshots

private theorem invalidateOwners (consistent : store.Consistent) (keys : List Key) :
    (store.invalidateOwners keys).Consistent := by
  have cleared : ∀ (affected : List InstanceId) (current : Store World), current.Consistent →
      (affected.foldl (fun current subject => current.modifyInstance
        (fun content => { content with collections := [] }) subject) current).Consistent := by
    intro affected
    induction affected with
    | nil => exact fun current kept => kept
    | cons subject rest ih =>
        exact fun current kept => ih _ (kept.modifyInstance (kept.memory subject).forgot)
  exact (cleared _ store consistent).transfer_same rfl rfl

private theorem restoreInstances (consistent : store.Consistent) {transaction : Transaction}
    (kept : ∀ entry ∈ transaction.snapshots, entry.2.Consistent) :
    (Store.restoreInstances transaction store).Consistent := by
  have keptReversed : ∀ entry ∈ transaction.snapshots.reverse, entry.2.Consistent :=
    fun entry member => kept entry (List.mem_reverse.mp member)
  unfold Store.restoreInstances
  clear kept
  generalize transaction.snapshots.reverse = snapshots at keptReversed ⊢
  induction snapshots generalizing store with
  | nil => exact consistent
  | cons entry rest ih =>
      rw [List.foldl_cons]
      exact ih (consistent.modifyInstance (.restore (keptReversed entry List.mem_cons_self) _))
        fun other member => keptReversed other (List.mem_cons_of_mem entry member)

private theorem setTransaction (consistent : store.Consistent) (thread : ThreadId)
    {transaction : Transaction}
    (kept : ∀ entry ∈ transaction.snapshots, entry.2.Consistent ∧ entry.2.state ≠ .removed) :
    (store.setTransaction thread transaction).Consistent where
  memory := consistent.memory
  snapshots entry member := by
    rcases List.mem_append.mp member with old | new
    · exact consistent.snapshots entry (List.mem_of_mem_filter old)
    · rw [List.mem_singleton.mp new]
      exact kept

private theorem dropTransaction (consistent : store.Consistent) (thread : ThreadId) :
    (store.dropTransaction thread).Consistent :=
  consistent.fewerTransactions rfl fun _ member => List.mem_of_mem_filter member

private theorem rememberInTransaction (consistent : store.Consistent) (thread : ThreadId)
    {subject : InstanceId} (present : (store.instanceAt subject).state ≠ .removed) :
    (store.rememberInTransaction thread subject).Consistent := by
  unfold Store.rememberInTransaction
  split
  · exact consistent
  · rename_i transaction inside
    have before := consistent.snapshots _ (mem_of_transaction inside)
    refine consistent.setTransaction thread fun entry member => ?_
    unfold Transaction.keepSnapshot at member
    split at member
    · exact before entry member
    · rcases List.mem_append.mp member with old | new
      · exact before entry old
      · rw [List.mem_singleton.mp new]
        exact ⟨(consistent.memory subject).look, present⟩

private theorem recordWrites (consistent : store.Consistent) (thread : ThreadId)
    (writes : WriteSet) : (Store.recordWrites thread writes store).Consistent := by
  have evicted : ({ store with cache := writes.withoutFills.evictTouched store.cache } :
      Store World).Consistent := consistent.transfer_same rfl rfl
  have invalidated := evicted.invalidateOwners writes.withoutFills.owners
  unfold Store.recordWrites
  simp only
  split
  · exact invalidated
  · rename_i transaction inside
    exact invalidated.setTransaction thread
      (invalidated.snapshots _ (mem_of_transaction inside))

end Consistent

/-! ### Units and transactions -/

theorem UnitEnds.consistent {issued : Question → Prop} {transactional : Bool}
    {gives : α × WriteSet → List Event → Prop} {outcome : Except Error α}
    (ends : UnitEnds session issued transactional gives store outcome after)
    (consistent : store.Consistent) : after.Consistent := by
  cases ends with
  | closed _ => exact consistent
  | recorded _ _ _ _ _ => exact (consistent.withWorld _).recordWrites _ _
  | @aborted _ _ _ world _ _ _ _ inside _ _ _ =>
      have dropped := (consistent.withWorld world).dropTransaction session.thread
      have restored := dropped.restoreInstances
        fun entry member => (consistent.snapshots _ (mem_of_transaction inside) entry member).1
      exact restored.transfer_same rfl rfl
  | unconnected _ _ _ => exact consistent.transfer_same rfl rfl
  | applied _ _ _ _ _ =>
      refine Consistent.transfer_same (Consistent.invalidateOwners ?_ _) rfl rfl
      exact consistent.transfer_same rfl rfl
  | failed _ _ _ _ _ => exact consistent.transfer_same rfl rfl

theorem BeginEnds.consistent {outcome : Except Error Unit}
    (ends : BeginEnds session store outcome after) (consistent : store.Consistent) :
    after.Consistent := by
  cases ends with
  | closed _ => exact consistent
  | alreadyOpen _ _ => exact consistent
  | unconnected _ _ _ => exact consistent.transfer_same rfl rfl
  | begun _ _ _ _ _ =>
      refine Consistent.transfer_same (consistent.setTransaction session.thread ?_) rfl rfl
      intro entry member
      cases member
  | refused _ _ _ _ _ => exact consistent.transfer_same rfl rfl

theorem Consistent.rolledBack (consistent : store.Consistent) {transaction : Transaction}
    (inside : store.transaction? session.thread = some transaction) (world : World) :
    ((Store.invalidateOwners transaction.writes.owners (Store.restoreInstances transaction
      ((store.dropTransaction session.thread).withWorld world))).released session
        transaction.lease).Consistent := by
  have dropped : ((store.dropTransaction session.thread).withWorld world).Consistent :=
    (consistent.dropTransaction _).withWorld world
  have restored := dropped.restoreInstances fun entry member =>
    (consistent.snapshots _ (mem_of_transaction inside) entry member).1
  exact (restored.invalidateOwners _).transfer_same rfl rfl

theorem CommitEnds.consistent {outcome : Except Error Unit}
    (ends : CommitEnds session store outcome after) (consistent : store.Consistent) :
    after.Consistent := by
  cases ends with
  | closed _ => exact consistent
  | notOpen _ _ => exact consistent
  | committed _ _ _ _ =>
      refine Consistent.transfer_same (Consistent.invalidateOwners ?_ _) rfl rfl
      exact (consistent.dropTransaction session.thread).transfer_same rfl rfl
  | refused _ inside _ _ _ => exact consistent.rolledBack inside _

theorem RollbackEnds.consistent {outcome : Except Error Unit}
    (ends : RollbackEnds session store outcome after) (consistent : store.Consistent) :
    after.Consistent := by
  cases ends with
  | closed _ => exact consistent
  | notOpen _ _ => exact consistent
  | rolledBack _ inside _ _ => exact consistent.rolledBack inside _

theorem Abandoned.consistent {transactions : List Transaction}
    (abandoned : Abandoned session transactions store after) (consistent : store.Consistent)
    (kept : ∀ transaction ∈ transactions, ∀ entry ∈ transaction.snapshots,
      entry.2.Consistent) : after.Consistent := by
  induction abandoned with
  | nil => exact consistent
  | cons _ _ ih =>
      refine ih ?_ fun other member => kept other (List.mem_cons_of_mem _ member)
      refine Consistent.transfer_same (Consistent.restoreInstances ?_
        (kept _ List.mem_cons_self)) rfl rfl
      exact consistent.transfer_same rfl rfl

theorem CloseEnds.consistent (ends : CloseEnds session store after)
    (consistent : store.Consistent) : after.Consistent := by
  cases ends with
  | again _ => exact consistent
  | closed _ abandoned =>
      refine Consistent.transfer_same (abandoned.consistent ?_ ?_) rfl rfl
      · exact consistent.fewerTransactions rfl fun entry member => by cases member
      · intro transaction member entry isKept
        obtain ⟨opened, isOpened, rfl⟩ := List.mem_map.mp member
        exact (consistent.snapshots opened isOpened entry isKept).1

/-! ### Steps -/

theorem Edit.consistent {thread : ThreadId} (edit : Edit thread store after)
    (consistent : store.Consistent) : after.Consistent := by
  cases edit with
  | defined _ => exact consistent.transfer_same rfl rfl
  | added made => exact consistent.addInstance (.made made)
  | assigned name present _ =>
      exact consistent.modifyInstance ((consistent.memory _).assign present name _)
  | loaded row unread =>
      exact consistent.modifyInstance ((consistent.memory _).loaded unread.stored row)
  | @missed subject _ =>
      have before := consistent.memory subject
      exact consistent.modifyInstance ⟨before.look, before.collections⟩
  | @collected subject id name members present _ =>
      have gathered := (consistent.memory subject).gathered present
        (Row.place name members (store.instanceAt subject).collections)
      have placed : (store.modifyInstance (fun content => { content with
          collections := Row.place name members content.collections }) subject).Consistent :=
        consistent.modifyInstance gathered
      exact placed.transfer_same rfl rfl
  | forgot subject => exact consistent.modifyInstance (consistent.memory subject).forgot
  | settled id row present =>
      exact (consistent.rememberInTransaction thread present).modifyInstance (.settle _ id row)
  | withdrawn present =>
      exact (consistent.rememberInTransaction thread present).modifyInstance (.withdraw _)

theorem Step.consistent {poses : Task → Prop} {clears : Prop} {ok : Bool}
    (step : Step session poses clears store ok after) (consistent : store.Consistent) :
    after.Consistent := by
  cases step with
  | edited edit => exact edit.consistent consistent
  | looked key => exact consistent.transfer_same rfl rfl
  | cleared _ => exact consistent.transfer_same rfl rfl
  | unit _ ends => exact ends.consistent consistent
  | began _ ends => exact ends.consistent consistent
  | committed _ ends => exact ends.consistent consistent
  | rolledBack _ ends => exact ends.consistent consistent
  | closed _ ends => exact ends.consistent consistent

end Store

/-- Whatever threads do and whatever fails, instances are as their states say. -/
theorem Deployment.Reached.consistent {World : Type} {deployment : Deployment World}
    {allowed : Store World → ThreadId → Action → Prop} {store : Store World}
    (reached : deployment.Reached allowed store) : store.Consistent := by
  refine reached.invariant Store.Consistent ?_ fun _ step consistent => step.consistent consistent
  intro store world created
  obtain ⟨pool, _, rfl⟩ := create_ok created
  exact ⟨fun _ => .absent, fun _ impossible => by cases impossible⟩

end EntityStore
