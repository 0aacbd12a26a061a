/-
Instances are put back when a transaction is aborted. However it goes on and however it
ends without being committed, every instance that it has saved or removed then looks as it
did just before the first time, and no other instance is changed. Closing the store aborts
the transactions of all threads one after the other; of an instance that several of them
have saved or removed, it is the last of these that tells how it looks. Here they are gone
through as they are listed, but nothing is said below that depends on the order.
-/

import EntityStore.Proofs.Steps

set_option autoImplicit false

namespace EntityStore

namespace Store

variable {World : Type} {session : Session World} {store between after : Store World}

/-! ### Closing -/

theorem Abandoned.transactions {transactions : List Transaction}
    (abandoned : Abandoned session transactions store after) :
    after.transactions = store.transactions := by
  induction abandoned with
  | nil store => rfl
  | @cons transaction _ store _ world _ _ ih =>
      have same := transactions_eq_of_frame
        (frame_restoreInstances transaction (store.withWorld world))
      exact ih.trans same

theorem CloseEnds.ended (ends : CloseEnds session store after) :
    after = store ∨ ∀ thread, after.snapshots thread = none := by
  cases ends with
  | again _ => exact Or.inl rfl
  | @closed between _ abandoned =>
      refine Or.inr fun thread => ?_
      have none : (between.shut session).transactions = [] := abandoned.transactions
      unfold snapshots transaction?
      rw [none]
      rfl

theorem Abandoned.split {first second : List Transaction}
    (abandoned : Abandoned session (first ++ second) store after) :
    ∃ between, Abandoned session first store between ∧ Abandoned session second between after := by
  induction first generalizing store with
  | nil => exact ⟨store, .nil store, abandoned⟩
  | cons transaction rest ih =>
      cases abandoned with
      | cons reverts later =>
          obtain ⟨between, abandonedFirst, abandonedSecond⟩ := ih later
          exact ⟨between, .cons reverts abandonedFirst, abandonedSecond⟩

theorem Abandoned.look_one {transaction : Transaction}
    (abandoned : Abandoned session [transaction] store after)
    (inMemory : ∀ entry ∈ transaction.snapshots, entry.1 < store.memory.size)
    (subject : InstanceId) :
    after.look subject = (transaction.snapshots.lookup subject).getD (store.look subject) := by
  cases abandoned with
  | @cons _ _ _ _ world _ later =>
      cases later
      exact @look_restoreInstances _ (store.withWorld world) transaction inMemory subject

/-- Of several transactions that have a snapshot of an instance, the last one tells how it
looks when all are abandoned. -/
theorem Abandoned.look_cases {transactions : List Transaction}
    (abandoned : Abandoned session transactions store after)
    (inMemory : ∀ transaction ∈ transactions, ∀ entry ∈ transaction.snapshots,
      entry.1 < store.memory.size) (subject : InstanceId) :
    ((∀ transaction ∈ transactions, transaction.snapshots.lookup subject = none) ∧
        after.look subject = store.look subject) ∨
      ∃ transaction ∈ transactions,
        transaction.snapshots.lookup subject = some (after.look subject) := by
  induction transactions generalizing store with
  | nil =>
      cases abandoned
      exact Or.inl ⟨List.forall_mem_nil _, rfl⟩
  | cons transaction rest ih =>
      obtain ⟨between, first, later⟩ := @Abandoned.split _ _ _ _ [transaction] rest abandoned
      have size : between.memory.size = store.memory.size := congrArg Prod.snd first.extent
      have looks := first.look_one (inMemory transaction List.mem_cons_self) subject
      rcases ih later fun other member => size ▸ inMemory other (List.mem_cons_of_mem _ member)
        with ⟨free, same⟩ | ⟨other, member, found⟩
      · cases found : transaction.snapshots.lookup subject with
        | none =>
            rw [found] at looks
            exact Or.inl ⟨List.forall_mem_cons.mpr ⟨found, free⟩, same.trans looks⟩
        | some snapshot =>
            rw [found] at looks
            refine Or.inr ⟨transaction, List.mem_cons_self, ?_⟩
            rw [same, looks]
            exact found
      · exact Or.inr ⟨other, List.mem_cons_of_mem _ member, found⟩

theorem Abandoned.look_of_free {transactions : List Transaction}
    (abandoned : Abandoned session transactions store after)
    (inMemory : ∀ transaction ∈ transactions, ∀ entry ∈ transaction.snapshots,
      entry.1 < store.memory.size)
    {subject : InstanceId}
    (free : ∀ transaction ∈ transactions, transaction.snapshots.lookup subject = none) :
    after.look subject = store.look subject := by
  rcases abandoned.look_cases inMemory subject with ⟨_, same⟩ | ⟨transaction, member, found⟩
  · exact same
  · rw [free transaction member] at found
    cases found

/-! ### One transaction for each thread -/

def Singly (store : Store World) : Prop := (store.transactions.map Prod.fst).Nodup

namespace Singly

private theorem transfer (singly : store.Singly) (same : after.transactions = store.transactions) :
    after.Singly := by
  unfold Singly
  rw [same]
  exact singly

private theorem of_frame (singly : store.Singly) (same : after.frame = store.frame) :
    after.Singly :=
  singly.transfer (transactions_eq_of_frame same)

private theorem withWorld (singly : store.Singly) (world : World) :
    (store.withWorld world).Singly :=
  singly

private theorem invalidateOwners (singly : store.Singly) (keys : List Key) :
    (store.invalidateOwners keys).Singly :=
  singly.of_frame (frame_invalidateOwners keys store)

private theorem dropTransaction (singly : store.Singly) (thread : ThreadId) :
    (store.dropTransaction thread).Singly :=
  List.Nodup.sublist (List.filter_sublist.map Prod.fst) singly

private theorem setTransaction (singly : store.Singly) (thread : ThreadId)
    (transaction : Transaction) : (store.setTransaction thread transaction).Singly := by
  show (((store.dropTransaction thread).transactions ++ [(thread, transaction)]).map Prod.fst).Nodup
  rw [List.map_append, List.map_singleton, List.nodup_append]
  refine ⟨singly.dropTransaction thread, List.nodup_singleton thread, ?_⟩
  intro other member _ isThread
  obtain ⟨entry, isKept, rfl⟩ := List.mem_map.mp member
  rw [List.mem_singleton.mp isThread]
  simpa using (List.mem_filter.mp isKept).2

private theorem rememberInTransaction (singly : store.Singly) (thread : ThreadId)
    (subject : InstanceId) : (store.rememberInTransaction thread subject).Singly := by
  unfold Store.rememberInTransaction
  split
  · exact singly
  · exact singly.setTransaction _ _

private theorem recordWrites (singly : store.Singly) (thread : ThreadId) (writes : WriteSet) :
    (Store.recordWrites thread writes store).Singly := by
  have evicted : ({ store with cache := writes.withoutFills.evictTouched store.cache } :
      Store World).Singly := singly
  have invalidated := evicted.invalidateOwners writes.withoutFills.owners
  unfold Store.recordWrites
  simp only
  split
  · exact invalidated
  · exact invalidated.setTransaction _ _

private theorem written (singly : store.Singly) (writes : WriteSet) (generation : Nat) :
    (Store.written writes generation store).Singly :=
  singly.transfer (congrArg (fun frame => frame.2.1) (frame_written writes generation store))

private theorem transaction?_eq (singly : store.Singly) {thread : ThreadId}
    {transaction : Transaction} (member : (thread, transaction) ∈ store.transactions) :
    store.transaction? thread = some transaction :=
  (lookup_eq_some_iff_mem singly).mpr member

end Singly

theorem Edit.singly {thread : ThreadId} (edit : Edit thread store after) (singly : store.Singly) :
    after.Singly := by
  cases edit with
  | settled _ _ _ => exact singly.rememberInTransaction _ _
  | withdrawn _ => exact singly.rememberInTransaction _ _
  | _ => exact singly

theorem Step.singly {poses : Task → Prop} {clears : Prop} {ok : Bool}
    (step : Step session poses clears store ok after) (singly : store.Singly) : after.Singly := by
  have dropped (transaction : Transaction) (world : World) : (restoreInstances transaction
      ((store.dropTransaction session.thread).withWorld world)).Singly :=
    ((singly.dropTransaction session.thread).withWorld world).of_frame
      (frame_restoreInstances transaction _)
  cases step with
  | edited edit => exact edit.singly singly
  | looked _ => exact singly
  | cleared _ => exact singly
  | unit _ ends =>
      cases ends with
      | recorded _ _ _ _ _ => exact (singly.withWorld _).recordWrites _ _
      | aborted _ _ _ _ _ => exact dropped _ _
      | @applied pool _ _ world _ _ _ _ _ _ _ =>
          have worked : ({ store with pool := { pool with world := world } } :
              Store World).Singly := singly
          exact worked.written _ _
      | _ => exact singly
  | began _ ends =>
      cases ends with
      | begun _ _ _ _ _ => exact Singly.setTransaction singly _ _
      | _ => exact singly
  | committed _ ends =>
      cases ends with
      | committed _ _ _ _ =>
          exact ((singly.dropTransaction session.thread).withWorld _).written _ _
      | refused _ _ _ _ _ => exact (dropped _ _).invalidateOwners _
      | _ => exact singly
  | rolledBack _ ends =>
      cases ends with
      | rolledBack _ _ _ _ => exact (dropped _ _).invalidateOwners _
      | _ => exact singly
  | closed _ ends =>
      cases ends with
      | again _ => exact singly
      | closed _ abandoned =>
          have none : ({ store with isOpen := false, transactions := [] } : Store World).Singly :=
            List.nodup_nil
          exact none.transfer abandoned.transactions

/-! ### The end of a transaction -/

/-- How a transaction is aborted within an act: on its own, or when the store is closed,
between the other transactions that are then open. It goes from the store that the abort
finds to the one that it leaves. -/
inductive Aborted (session : Session World) (thread : ThreadId) (action : Action)
    (closing after : Store World) : List Transaction → Store World → Store World → Prop where
  | alone : action ≠ .close → Aborted session thread action closing after [] closing after
  | closed {earlier later : List (ThreadId × Transaction)} {transaction : Transaction}
      {aborting restored between : Store World} :
      action = .close → closing.transactions = earlier ++ (thread, transaction) :: later →
      Abandoned session (earlier.map Prod.snd)
        { closing with isOpen := false, transactions := [] } aborting →
      Abandoned session [transaction] aborting restored →
      Abandoned session (later.map Prod.snd) restored between → after = between.shut session →
      Aborted session thread action closing after ((earlier ++ later).map Prod.snd)
        aborting restored

/-- The abort makes the instances look as the snapshots say. The other transactions that are
aborted with it matter to none but those of which they have snapshots. -/
structure Restores (kept : List (InstanceId × Snapshot)) (closing after : Store World)
    (others : List Transaction) (aborting restored : Store World) : Prop where
  look : ∀ subject, restored.look subject = (kept.lookup subject).getD (aborting.look subject)
  apart : ∀ subject, (∀ other ∈ others, other.snapshots.lookup subject = none) →
    aborting.look subject = closing.look subject ∧ after.look subject = restored.look subject

theorem CloseEnds.restores {thread : ThreadId} {kept : List (InstanceId × Snapshot)}
    (sound : store.Sound) (ends : CloseEnds session store after)
    (inside : store.snapshots thread = some kept) (ended : after.inTransaction thread = false) :
    ∃ others aborting restored,
      Aborted session thread .close store after others aborting restored ∧
        Restores kept store after others aborting restored := by
  obtain ⟨transaction, isInside, rfl⟩ := Option.map_eq_some_iff.mp inside
  cases ends with
  | again _ =>
      rw [inTransaction_eq, inside] at ended
      cases ended
  | @closed between _ abandoned =>
      obtain ⟨earlier, later, split, _⟩ := List.lookup_eq_some_iff.mp isInside
      have inMemory : ∀ other ∈ store.transactions, ∀ entry ∈ other.2.snapshots,
          entry.1 < store.memory.size := fun other member => sound.inMemory member
      -- The transaction is abandoned between those before it and those after it.
      rw [split, List.map_append, List.map_cons] at abandoned
      obtain ⟨aborting, first, rest⟩ := abandoned.split
      obtain ⟨restored, own, last⟩ := @Abandoned.split _ _ _ _ [transaction] _ rest
      have abortingSize : aborting.memory.size = store.memory.size := congrArg Prod.snd first.extent
      have restoredSize : restored.memory.size = store.memory.size :=
        (congrArg Prod.snd own.extent).trans abortingSize
      have earlierIn : ∀ other ∈ earlier.map Prod.snd, ∀ entry ∈ other.snapshots,
          entry.1 < store.memory.size := by
        intro other member
        obtain ⟨one, isEarlier, rfl⟩ := List.mem_map.mp member
        exact inMemory one (split ▸ List.mem_append_left _ isEarlier)
      have laterIn : ∀ other ∈ later.map Prod.snd, ∀ entry ∈ other.snapshots,
          entry.1 < restored.memory.size := by
        intro other member
        obtain ⟨one, isLater, rfl⟩ := List.mem_map.mp member
        rw [restoredSize]
        exact inMemory one (split ▸ List.mem_append_right _ (List.mem_cons_of_mem _ isLater))
      have ownIn : ∀ entry ∈ transaction.snapshots, entry.1 < aborting.memory.size := by
        rw [abortingSize]
        exact inMemory (thread, transaction) (split ▸ List.mem_append_right _ List.mem_cons_self)
      refine ⟨_, aborting, restored, .closed rfl split first own last rfl, own.look_one ownIn,
        fun subject free => ?_⟩
      rw [List.map_append] at free
      constructor
      · exact first.look_of_free earlierIn fun other member =>
          free other (List.mem_append_left _ member)
      · exact last.look_of_free laterIn fun other member =>
          free other (List.mem_append_right _ member)

/-- What an abort leaves of an instance: one of the transactions that it ends has a snapshot
that tells how the instance looks, or none has one and the instance looks as it did. -/
def Rewound (store after : Store World) (subject : InstanceId) : Prop :=
  ((∀ thread kept, store.snapshots thread = some kept → after.inTransaction thread = false →
      kept.lookup subject = none) ∧ after.look subject = store.look subject) ∨
    ∃ thread kept, store.snapshots thread = some kept ∧ after.inTransaction thread = false ∧
      kept.lookup subject = some (after.look subject)

theorem PutsBack.rewound {thread : ThreadId} {kept : List (InstanceId × Snapshot)}
    (puts : PutsBack thread kept store after) (subject : InstanceId) :
    store.Rewound after subject := by
  have looks := puts.look subject
  have ended : after.inTransaction thread = false := by
    rw [inTransaction_eq, puts.ended]
    rfl
  cases found : kept.lookup subject with
  | some snapshot =>
      rw [found] at looks
      exact Or.inr ⟨thread, kept, puts.inside, ended, found.trans (congrArg some looks.symm)⟩
  | none =>
      rw [found] at looks
      refine Or.inl ⟨fun other snapshots inside gone => ?_, looks⟩
      by_cases own : other = thread
      · subst own
        rw [puts.inside] at inside
        exact Option.some.inj inside ▸ found
      · rw [inTransaction_eq, puts.others other own, inside] at gone
        cases gone

theorem CloseEnds.rewound (sound : store.Sound) (singly : store.Singly)
    (ends : CloseEnds session store after) {thread : ThreadId}
    (inside : store.inTransaction thread = true) (ended : after.inTransaction thread = false)
    (subject : InstanceId) : store.Rewound after subject := by
  have none := ends.ended.resolve_left fun same => by
    rw [same, inside] at ended
    cases ended
  have gone (other : ThreadId) : after.inTransaction other = false := by
    rw [inTransaction_eq, none]
    rfl
  cases ends with
  | again _ =>
      rw [inside] at ended
      cases ended
  | @closed between _ abandoned =>
      have inMemory : ∀ transaction ∈ store.transactions.map Prod.snd,
          ∀ entry ∈ transaction.snapshots, entry.1 < store.memory.size := by
        intro transaction member
        obtain ⟨entry, isOpened, rfl⟩ := List.mem_map.mp member
        exact sound.inMemory isOpened
      rcases abandoned.look_cases inMemory subject with ⟨free, same⟩ | ⟨transaction, member, found⟩
      · refine Or.inl ⟨fun other kept isKept _ => ?_, same⟩
        obtain ⟨transaction, isInside, rfl⟩ := Option.map_eq_some_iff.mp isKept
        exact free transaction (List.mem_map_of_mem (mem_of_transaction isInside))
      · obtain ⟨entry, isOpened, rfl⟩ := List.mem_map.mp member
        exact Or.inr ⟨entry.1, entry.2.snapshots, snapshots_of_inside (singly.transaction?_eq isOpened),
          gone _, found⟩

end Store

namespace Leaves

variable {World : Type} {session : Session World} {action : Action} {store after : Store World}
  {outcome : Except Error Unit} {thread : ThreadId} {kept : List (InstanceId × Snapshot)}

private theorem foreign (leaves : Leaves session action store outcome after)
    (apart : thread ≠ session.thread) :
    after.snapshots thread = store.snapshots thread ∨
      (action = .close ∧ Store.CloseEnds session store after) := by
  cases leaves with
  | kept passes _ => exact Or.inl (passes.kept thread)
  | settled notes => exact Or.inl (notes.others thread apart)
  | putBack _ puts => exact Or.inl (puts.others thread apart)
  | begun _ _ _ others _ => exact Or.inl (others thread apart)
  | committed _ _ others _ => exact Or.inl (others thread apart)
  | closed closes ends => exact Or.inr ⟨closes, ends⟩

private theorem noted (leaves : Leaves session action store outcome after)
    (inside : store.snapshots thread = some kept) (still : after.inTransaction thread = true) :
    ∃ more, after.snapshots thread = some more ∧
      Extends (fun subject => session.thread = thread ∧ outcome.isOk = true ∧
        action.Settles store subject) store.look kept more := by
  rw [Store.inTransaction_eq] at still
  -- An act that does not concern the transaction adds no snapshot.
  have unchanged (same : after.snapshots thread = store.snapshots thread)
      (nothing : ∀ subject, ¬(session.thread = thread ∧ outcome.isOk = true ∧
        action.Settles store subject)) :
      ∃ more, after.snapshots thread = some more ∧
        Extends (fun subject => session.thread = thread ∧ outcome.isOk = true ∧
          action.Settles store subject) store.look kept more := by
    refine ⟨kept, by rw [same, inside], fun _ _ found => found, ?_, fun _ missing _ => missing⟩
    exact fun subject _ settles => absurd settles (nothing subject)
  have closing (closes : action = .close) (ends : Store.CloseEnds session store after) :
      ∃ more, after.snapshots thread = some more ∧
        Extends (fun subject => session.thread = thread ∧ outcome.isOk = true ∧
          action.Settles store subject) store.look kept more := by
    subst closes
    rcases ends.ended with rfl | none
    · exact unchanged rfl fun _ settles => settles.2.2
    · rw [none thread] at still
      cases still
  by_cases own : thread = session.thread
  · subst own
    cases leaves with
    | kept passes nothing =>
        exact unchanged (passes.kept _) fun subject settles => nothing settles.2.1 subject settles.2.2
    | settled notes =>
        obtain ⟨more, isMore, added⟩ := notes.inside kept inside
        refine ⟨more, isMore, added.stays, ?_, ?_⟩
        · exact fun subject missing settles => added.taken subject missing settles.2.2
        · exact fun subject missing free => added.free subject missing fun settles =>
            free ⟨rfl, rfl, settles⟩
    | putBack _ puts =>
        rw [puts.ended] at still
        cases still
    | begun _ outside _ _ _ =>
        rw [outside] at inside
        cases inside
    | committed _ outside _ _ =>
        rw [outside] at still
        cases still
    | closed closes ends => exact closing closes ends
  · rcases leaves.foreign own with same | ⟨closes, ends⟩
    · exact unchanged same fun _ settles => own settles.1.symm
    · exact closing closes ends

/-- An act that ends a transaction without committing it puts back its snapshots. -/
theorem restores (leaves : Leaves session action store outcome after) (sound : store.Sound)
    (inside : store.snapshots thread = some kept) (ended : after.inTransaction thread = false)
    (uncommitted : ¬(session.thread = thread ∧ action = .commit ∧ outcome.isOk = true)) :
    ∃ others aborting restored,
      Store.Aborted session thread action store after others aborting restored ∧
        Store.Restores kept store after others aborting restored := by
  have impossible (same : after.snapshots thread = store.snapshots thread) : False := by
    rw [Store.inTransaction_eq, same, inside] at ended
    cases ended
  by_cases own : thread = session.thread
  · subst own
    cases leaves with
    | kept passes _ => exact (impossible (passes.kept _)).elim
    | settled notes =>
        obtain ⟨more, isMore, _⟩ := notes.inside kept inside
        rw [Store.inTransaction_eq, isMore] at ended
        cases ended
    | putBack open_ puts =>
        obtain rfl := Option.some.inj (inside.symm.trans puts.inside)
        exact ⟨[], store, after, .alone open_, puts.look, fun _ _ => ⟨rfl, rfl⟩⟩
    | begun _ outside _ _ _ =>
        rw [outside] at inside
        cases inside
    | committed commits _ _ _ => exact absurd ⟨rfl, commits, rfl⟩ uncommitted
    | closed closes ends =>
        subst closes
        exact ends.restores sound inside ended
  · rcases leaves.foreign own with same | ⟨closes, ends⟩
    · exact (impossible same).elim
    · subst closes
      exact ends.restores sound inside ended

/-- A thread comes to be in a transaction only by beginning one. -/
theorem begins (leaves : Leaves session action store outcome after)
    (outside : store.snapshots thread = none) (inside : after.inTransaction thread = true) :
    session.thread = thread ∧ action = .begin ∧ outcome = .ok () := by
  rw [Store.inTransaction_eq] at inside
  have impossible (same : after.snapshots thread = none) : False := by
    rw [same] at inside
    cases inside
  have closing (ends : Store.CloseEnds session store after) : False := by
    rcases ends.ended with rfl | none
    · exact impossible outside
    · exact impossible (none thread)
  by_cases own : thread = session.thread
  · subst own
    cases leaves with
    | kept passes _ => exact (impossible ((passes.kept _).trans outside)).elim
    | settled notes => exact (impossible (notes.outside outside)).elim
    | putBack _ puts => exact (impossible puts.ended).elim
    | begun begins _ _ _ _ => exact ⟨rfl, begins, rfl⟩
    | committed _ ended _ _ => exact (impossible ended).elim
    | closed _ ends => exact (closing ends).elim
  · rcases leaves.foreign own with same | ⟨_, ends⟩
    · exact (impossible (same.trans outside)).elim
    · exact (closing ends).elim

private theorem thread_of_ended (leaves : Leaves session action store outcome after)
    (stays : action ≠ .close) (inside : store.inTransaction thread = true)
    (ended : after.inTransaction thread = false) : session.thread = thread := by
  by_contra other
  rcases leaves.foreign fun own => other own.symm with same | ⟨closes, _⟩
  · rw [Store.inTransaction_eq, same, ← Store.inTransaction_eq, inside] at ended
    cases ended
  · exact stays closes

private theorem rewound (leaves : Leaves session action store outcome after) (sound : store.Sound)
    (singly : store.Singly) (inside : store.inTransaction thread = true)
    (ended : after.inTransaction thread = false)
    (uncommitted : ¬(session.thread = thread ∧ action = .commit ∧ outcome.isOk = true))
    (subject : InstanceId) : store.Rewound after subject := by
  have impossible (same : after.snapshots thread = store.snapshots thread) : False := by
    rw [Store.inTransaction_eq, same, ← Store.inTransaction_eq, inside] at ended
    cases ended
  by_cases own : thread = session.thread
  · subst own
    cases leaves with
    | kept passes _ => exact (impossible (passes.kept _)).elim
    | settled notes =>
        obtain ⟨transaction, isInside⟩ := Option.isSome_iff_exists.mp inside
        obtain ⟨more, isMore, _⟩ := notes.inside _ (Store.snapshots_of_inside isInside)
        rw [Store.inTransaction_eq, isMore] at ended
        cases ended
    | putBack _ puts => exact puts.rewound subject
    | begun _ outside _ _ _ =>
        rw [Store.inTransaction_eq, outside] at inside
        cases inside
    | committed commits _ _ _ => exact absurd ⟨rfl, commits, rfl⟩ uncommitted
    | closed _ ends => exact ends.rewound sound singly inside ended subject
  · rcases leaves.foreign own with same | ⟨_, ends⟩
    · exact (impossible same).elim
    · exact ends.rewound sound singly inside ended subject

end Leaves

/-! ### Runs -/

def Act.Settles {World : Type} (act : Act World) (thread : ThreadId) (store : Store World)
    (subject : InstanceId) : Prop :=
  act.thread = thread ∧ act.outcome.isOk = true ∧ act.action.Settles store subject

/-- The store just before the first act in which a thread saves or removes an instance. -/
inductive FirstSettled {World : Type} (thread : ThreadId) (subject : InstanceId) :
    Store World → List (Act World) → Store World → Prop where
  | now {store : Store World} {act : Act World} {rest : List (Act World)} :
      act.Settles thread store subject → FirstSettled thread subject store (act :: rest) store
  | later {store moment : Store World} {act : Act World} {rest : List (Act World)} :
      ¬act.Settles thread store subject → FirstSettled thread subject act.after rest moment →
      FirstSettled thread subject store (act :: rest) moment

theorem FirstSettled.exists_act {World : Type} {thread : ThreadId} {subject : InstanceId}
    {store moment : Store World} {acts : List (Act World)}
    (first : FirstSettled thread subject store acts moment) : ∃ act ∈ acts, act.thread = thread := by
  induction first with
  | now settles => exact ⟨_, List.mem_cons_self, settles.1⟩
  | later _ _ ih =>
      obtain ⟨act, member, same⟩ := ih
      exact ⟨act, List.mem_cons_of_mem _ member, same⟩

namespace Samples

def renames (thread : ThreadId) (name : String) : List (ThreadId × Action) :=
  [(thread, .assign 0 "name" (.value (.text name))), (thread, .save 0)]

def sharedByTwo : List (ThreadId × Action) :=
  saved ++ (0, .begin) :: (renames 0 "Bo" ++ (1, .begin) :: renames 1 "Bo")

def resaved : List (ThreadId × Action) := (0, .save 0) :: renames 0 "Bo"

end Samples

namespace Deployment

variable {World : Type} {deployment : Deployment World}
  {store opened closing after : Store World} {thread other : ThreadId} {acts : List (Act World)}
  {kept : List (InstanceId × Snapshot)}

structure Noted (thread : ThreadId) (store : Store World) (acts : List (Act World))
    (kept more : List (InstanceId × Snapshot)) : Prop where
  stays : ∀ subject snapshot, kept.lookup subject = some snapshot →
    more.lookup subject = some snapshot
  first : ∀ subject moment, kept.lookup subject = none →
    FirstSettled thread subject store acts moment → more.lookup subject = some (moment.look subject)
  free : ∀ subject, kept.lookup subject = none →
    (∀ moment, ¬FirstSettled thread subject store acts moment) → more.lookup subject = none

theorem noted_of_run (run : deployment.Run store acts closing) (regular : store.Regular)
    (stays : ∀ act ∈ acts, act.after.inTransaction thread = true)
    (inside : store.snapshots thread = some kept) :
    ∃ more, closing.snapshots thread = some more ∧ Noted thread store acts kept more := by
  induction run generalizing kept with
  | nil store =>
      refine ⟨kept, inside, fun _ _ found => found, ?_, fun _ missing _ => missing⟩
      rintro subject moment _ ⟨⟩
  | @cons store between after other action outcome rest inMemory ran _ ih =>
      have leaves := (leaves_perform regular inMemory).of_run ran
      have regularBetween := ((Action.follows_perform regular inMemory).of_run ran).regular regular
      obtain ⟨middle, isMiddle, added⟩ := leaves.noted inside (stays _ List.mem_cons_self)
      obtain ⟨more, isMore, noted⟩ := ih regularBetween
        (fun act member => stays act (List.mem_cons_of_mem _ member)) isMiddle
      refine ⟨more, isMore, fun subject snapshot found => ?_, fun subject moment missing first => ?_,
        fun subject missing free => ?_⟩
      · exact noted.stays subject snapshot (added.stays subject snapshot found)
      · cases first with
        | now settles => exact noted.stays subject _ (added.taken subject missing settles)
        | later apart first =>
            exact noted.first subject moment (added.free subject missing apart) first
      · have apart : ¬Act.Settles ⟨other, action, outcome, between⟩ thread store subject :=
          fun settles => free store (.now settles)
        exact noted.free subject (added.free subject missing apart) fun moment first =>
          free moment (.later apart first)

theorem begun_with (regular : store.Regular)
    (begun : (Store.beginTransaction (deployment.session thread)).run store = (.ok (), opened)) :
    opened.Regular ∧ opened.snapshots thread = some [] := by
  refine ⟨(@Run.cons _ deployment _ _ _ _ .begin _ _ trivial begun (.nil opened)).regular regular, ?_⟩
  have ends := (Store.ensures_beginTransaction (deployment.session thread) store).of_run begun
  cases ends with
  | begun _ _ _ _ _ => exact Store.snapshots_setTransaction_self _ _ _

/-! ### All open transactions -/

theorem Run.singly (run : deployment.Run store acts closing) (regular : store.Regular)
    (singly : store.Singly) : closing.Singly := by
  induction run with
  | nil store => exact singly
  | cons inMemory ran _ ih =>
      have path := (Action.treads_perform regular inMemory).of_run ran
      exact ih (path.regular regular) (path.invariant Store.Singly singly fun step => step.singly)

structure OpenSince (acts : List (Act World)) (thread : ThreadId) (opened : Store World)
    (inside : List (Act World)) : Prop where
  begun : ∃ earlier, acts = earlier ++ ⟨thread, .begin, .ok (), opened⟩ :: inside
  lasts : ∀ act ∈ inside, act.after.inTransaction thread = true

/-- A thread was in a transaction after acts and is in none any more, and just before the
transaction saved or removed an instance for the first time, the store was as is said. -/
def EndedSince (acts : List (Act World)) (after : Store World) (thread : ThreadId)
    (subject : InstanceId) (moment : Store World) : Prop :=
  ∃ opened inside, OpenSince acts thread opened inside ∧ after.inTransaction thread = false ∧
    FirstSettled thread subject opened inside moment

private theorem openSince_of_run (run : deployment.Run store acts closing) (regular : store.Regular)
    (inside : closing.inTransaction thread = true) :
    (store.inTransaction thread = true ∧ ∀ act ∈ acts, act.after.inTransaction thread = true) ∨
      ∃ opened within, OpenSince acts thread opened within := by
  induction run with
  | nil store => exact Or.inl ⟨inside, List.forall_mem_nil _⟩
  | @cons store between after other action outcome rest inMemory ran _ ih =>
      have regularBetween := ((Action.follows_perform regular inMemory).of_run ran).regular regular
      rcases ih regularBetween inside with ⟨still, stays⟩ | ⟨opened, within, ⟨earlier, rfl⟩, lasts⟩
      · cases outside : store.inTransaction thread with
        | true => exact Or.inl ⟨rfl, List.forall_mem_cons.mpr ⟨still, stays⟩⟩
        | false =>
            rw [Store.inTransaction_eq] at outside
            have free := Option.isNone_iff_eq_none.mp (Option.isSome_eq_false_iff.mp outside)
            obtain ⟨rfl, rfl, rfl⟩ :=
              ((leaves_perform regular inMemory).of_run ran).begins free still
            exact Or.inr ⟨between, rest, ⟨[], rfl⟩, stays⟩
      · exact Or.inr ⟨opened, within, ⟨_ :: earlier, rfl⟩, lasts⟩

section Since

variable {subject : InstanceId} {moment : Store World} {inside : List (Act World)}
  (run : deployment.Run store acts closing) (regular : store.Regular)
include run regular

theorem OpenSince.noted (since : OpenSince acts thread opened inside) :
    ∃ kept, closing.snapshots thread = some kept ∧ Noted thread opened inside [] kept := by
  obtain ⟨earlier, rfl⟩ := since.begun
  obtain ⟨first, second⟩ := run.split
  cases second with
  | cons _ ran rest =>
      obtain ⟨regularOpened, empty⟩ := begun_with (first.regular regular) ran
      exact noted_of_run rest regularOpened since.lasts empty

theorem EndedSince.snapshot (ended : EndedSince acts after thread subject moment) :
    ∃ kept, closing.snapshots thread = some kept ∧ after.inTransaction thread = false ∧
      kept.lookup subject = some (moment.look subject) := by
  obtain ⟨opened, inside, since, gone, first⟩ := ended
  obtain ⟨kept, isKept, noted⟩ := since.noted run regular
  exact ⟨kept, isKept, gone, noted.first subject moment rfl first⟩

private theorem endedSince_of_snapshot (outside : store.transactions = [])
    (isKept : closing.snapshots thread = some kept) (gone : after.inTransaction thread = false)
    {snapshot : Snapshot} (found : kept.lookup subject = some snapshot) :
    ∃ moment, EndedSince acts after thread subject moment ∧ snapshot = moment.look subject := by
  have isInside : closing.inTransaction thread = true := by
    rw [Store.inTransaction_eq, isKept]
    rfl
  rcases openSince_of_run run regular isInside with ⟨impossible, _⟩ | ⟨opened, inside, since⟩
  · unfold Store.inTransaction Store.transaction? at impossible
    rw [outside] at impossible
    cases impossible
  · obtain ⟨more, isMore, noted⟩ := since.noted run regular
    obtain rfl := Option.some.inj (isMore.symm.trans isKept)
    by_cases settled : ∃ moment, FirstSettled thread subject opened inside moment
    · obtain ⟨moment, first⟩ := settled
      refine ⟨moment, ⟨opened, inside, since, gone, first⟩, ?_⟩
      exact Option.some.inj (found.symm.trans (noted.first subject moment rfl first))
    · rw [noted.free subject rfl (not_exists.mp settled)] at found
      cases found

end Since

/-- However an explicit transaction goes on and however it ends without being committed, the
instances that its thread has saved or removed in it look afterwards as they did just before
the first time, and no other instance is changed. Other threads may be in transactions as
well: closing the store ends all of them, and of an instance that several have saved or
removed, one of them tells how it looks. -/
theorem aborted_put_back {start : Store World} {world : World} {action : Action}
    {outcome : Except Error Unit} {inside : List (Act World)}
    (created : Store.create deployment.database deployment.config deployment.store #[]
      deployment.world = (.ok start, world))
    (run : deployment.Run start acts closing) (since : OpenSince acts thread opened inside)
    (inMemory : action.InMemory closing.memory.size)
    (ran : (action.perform (deployment.session other)).run closing = (outcome, after))
    (ended : after.inTransaction thread = false)
    (uncommitted : ¬(other = thread ∧ action = .commit ∧ outcome.isOk = true)) :
    (action ≠ .close → ∀ another begun within, OpenSince acts another begun within →
      after.inTransaction another = false → another = thread) ∧
    (∀ subject moment, FirstSettled thread subject opened inside moment →
      (∀ another earlier, EndedSince acts after another subject earlier → another = thread) →
      after.look subject = moment.look subject) ∧
    (∀ subject, (∃ another moment, EndedSince acts after another subject moment) →
      ∃ another moment, EndedSince acts after another subject moment ∧
        after.look subject = moment.look subject) ∧
    ∀ subject, (∀ another moment, ¬EndedSince acts after another subject moment) →
      after.look subject = closing.look subject := by
  have isReached : deployment.Reached (fun _ _ _ => True) start := .created created
  have regular := isReached.regular
  obtain ⟨pool, _, isNew⟩ := create_ok created
  have outside : start.transactions = [] := by rw [isNew]
  have singly : closing.Singly := run.singly regular (by
    unfold Store.Singly
    rw [outside]
    exact List.nodup_nil)
  have regularClosing := run.regular regular
  have leaves := (leaves_perform regularClosing inMemory).of_run ran
  obtain ⟨kept, isKept, noted⟩ := since.noted run regular
  have isInside : closing.inTransaction thread = true := by
    rw [Store.inTransaction_eq, isKept]
    rfl
  have rewound := leaves.rewound regularClosing.sound singly isInside ended uncommitted
  refine ⟨fun stays another begun within alsoSince alsoEnded => ?_,
    fun subject moment first sole => ?_, fun subject settled => ?_, fun subject free => ?_⟩
  · obtain ⟨_, alsoKept, _⟩ := alsoSince.noted run regular
    have alsoInside : closing.inTransaction another = true := by
      rw [Store.inTransaction_eq, alsoKept]
      rfl
    exact (leaves.thread_of_ended stays alsoInside alsoEnded).symm.trans
      (leaves.thread_of_ended stays isInside ended)
  · have isSnapshot := noted.first subject moment rfl first
    rcases rewound subject with ⟨free, _⟩ | ⟨another, snapshots, isOther, gone, found⟩
    · exact nomatch (free thread kept isKept ended).symm.trans isSnapshot
    · obtain ⟨earlier, isEnded, _⟩ := endedSince_of_snapshot run regular outside isOther gone found
      obtain rfl := sole another earlier isEnded
      obtain rfl := Option.some.inj (isKept.symm.trans isOther)
      exact Option.some.inj (found.symm.trans isSnapshot)
  · obtain ⟨another, moment, isEnded⟩ := settled
    obtain ⟨snapshots, isOther, gone, isSnapshot⟩ := isEnded.snapshot run regular
    rcases rewound subject with ⟨free, _⟩ | ⟨last, kept, isLast, lastGone, found⟩
    · exact nomatch (free another snapshots isOther gone).symm.trans isSnapshot
    · exact ⟨last, endedSince_of_snapshot run regular outside isLast lastGone found⟩
  · rcases rewound subject with ⟨_, same⟩ | ⟨another, snapshots, isOther, gone, found⟩
    · exact same
    · obtain ⟨moment, isEnded, _⟩ := endedSince_of_snapshot run regular outside isOther gone found
      exact absurd isEnded (free another moment)

/-! ### Steps in transactions -/

section Steps

variable {steps more : List (ThreadId × Action)}

private theorem enact_cons {action : Action} {outcome : Except Error Unit}
    (ran : (action.perform (deployment.session thread)).run store = (outcome, after)) :
    deployment.enact ((thread, action) :: steps) store
      = ⟨thread, action, outcome, after⟩ :: deployment.enact steps after := by
  rw [enact, ran]

private theorem run_of_visited (visited : deployment.visited? steps = some store)
    (inMemory : named store (deployment.enact more store) = true) :
    ∃ start world, Store.create deployment.database deployment.config deployment.store #[]
        deployment.world = (.ok start, world) ∧
      left start (deployment.enact steps start) = store ∧
      deployment.Run start (deployment.enact (steps ++ more) start)
        (left store (deployment.enact more store)) := by
  unfold visited? at visited
  split at visited
  · rename_i start creates
    split at visited
    · rename_i isNamed
      cases visited
      refine ⟨start, _, Prod.ext creates rfl, rfl, ?_⟩
      have run := @run_enact _ deployment start (steps ++ more) (by
        rw [enact_append, named_append, isNamed, inMemory]
        rfl)
      rwa [enact_append, left_append, ← enact_append] at run
    · cases visited
  · cases visited

private theorem openSince_enact {start : Store World}
    (reaches : left start (deployment.enact steps start) = store)
    (begun : (Store.beginTransaction (deployment.session thread)).run store = (.ok (), opened))
    (lasts : ∀ act ∈ deployment.enact more opened, act.after.inTransaction thread = true) :
    OpenSince (deployment.enact (steps ++ (thread, .begin) :: more) start) thread opened
      (deployment.enact more opened) := by
  refine ⟨⟨deployment.enact steps start, ?_⟩, lasts⟩
  rw [enact_append, reaches, @enact_cons _ _ _ _ _ _ .begin _ begun]

private theorem firstSettled_enact {first : Action} {subject : InstanceId}
    (apart : ¬first.Settles store subject)
    (between : ((first.perform (deployment.session thread)).run store).2 = after)
    (succeeded : ((Store.save (deployment.session thread) subject).run after).1.isOk = true)
    (needed : (after.instanceAt subject).needsWrite = true) :
    FirstSettled thread subject store
      (deployment.enact ((thread, first) :: (thread, .save subject) :: steps) store) after := by
  generalize ran : (first.perform (deployment.session thread)).run store = result at between
  obtain ⟨outcome, last⟩ := result
  obtain rfl : last = after := between
  rw [enact_cons ran]
  exact .later (fun settles => apart settles.2.2) (.now ⟨rfl, succeeded, .refl, needed⟩)

end Steps

set_option maxRecDepth 100000 in
/-- Ada is saved, renamed and saved again; after the transaction is rolled back she is new,
under her first name and without an id. -/
theorem aborted_put_back_ada : ∃ start opened moment closing after : Store Tables.World,
    ∃ acts inside, Samples.deployment.Run start acts closing ∧
      acts.map (fun act => (act.thread, act.action))
        = Samples.settled 0 ++ (0, .begin) :: Samples.renamed ∧
      OpenSince acts 0 opened inside ∧ FirstSettled 0 0 opened inside moment ∧
      (Store.rollbackTransaction (Samples.deployment.session 0)).run closing = (.ok (), after) ∧
      closing.idOf 0 = some 1 ∧ after.look 0 = moment.look 0 ∧
      moment.look 0 = ⟨⟨"Person", none⟩, .transient, none, [("name", .value (.text "Ada"))]⟩ := by
  obtain ⟨store, visited⟩ : ∃ store,
      Samples.deployment.visited? (Samples.settled 0) = some store :=
    Option.isSome_iff_exists.mp (by decide +kernel)
  have facts : ∀ store ∈ Samples.deployment.visited? (Samples.settled 0),
      let begun := (Store.beginTransaction (Samples.deployment.session 0)).run store
      let inside := Samples.deployment.enact Samples.renamed begun.2
      let moment := ((Samples.person "Ada").perform (Samples.deployment.session 0)).run begun.2
      let closing := left begun.2 inside
      let ended := (Store.rollbackTransaction (Samples.deployment.session 0)).run closing
      begun.1.isOk = true ∧ named begun.2 inside = true ∧ ended.1.isOk = true ∧
        (∀ act ∈ inside, act.after.inTransaction 0 = true) ∧
        ((Store.save (Samples.deployment.session 0) 0).run moment.2).1.isOk = true ∧
        ended.2.inTransaction 0 = false ∧ (moment.2.instanceAt 0).needsWrite = true ∧
        closing.idOf 0 = some 1 ∧ moment.2.look 0 = ⟨⟨"Person", none⟩, .transient, none,
          [("name", .value (.text "Ada"))]⟩ := by
    decide +kernel
  obtain ⟨isOk, inMemory, rolledBack, lasts, succeeded, ended, needed, saved, looks⟩ :=
    facts store visited
  generalize begun : (Store.beginTransaction (Samples.deployment.session 0)).run store
    = result at isOk inMemory rolledBack lasts succeeded ended needed saved looks
  obtain ⟨outcome | _, opened⟩ := result
  · cases isOk
  have acts := @enact_cons _ Samples.deployment _ _ _ Samples.renamed .begin _ begun
  obtain ⟨start, world, created, reaches, run⟩ := @run_of_visited _ Samples.deployment _ _
    ((0, .begin) :: Samples.renamed) visited (by rw [acts]; exact inMemory)
  rw [acts] at run
  generalize ran : (Store.rollbackTransaction (Samples.deployment.session 0)).run
    (left opened _) = result at rolledBack ended
  obtain ⟨outcome | _, after⟩ := result
  · cases rolledBack
  have since := openSince_enact reaches begun lasts
  have first : FirstSettled 0 0 opened (Samples.deployment.enact Samples.renamed opened) _ :=
    firstSettled_enact (fun settles => settles) rfl succeeded needed
  obtain ⟨only, settled, _⟩ := @aborted_put_back _ _ _ _ _ _ 0 _ _ _ .rollback _ _ created run since
    trivial ran ended (by rintro ⟨_, ⟨⟩, _⟩)
  refine ⟨start, opened, _, _, after, _, _, run, steps_enact _ start, since, first, ran, saved,
    settled 0 _ first ?_, looks⟩
  rintro another earlier ⟨begun, within, alsoSince, alsoEnded, _⟩
  exact only (by rintro ⟨⟩) another begun within alsoSince alsoEnded

set_option maxRecDepth 100000 in
/-- A save that has nothing to write of Ada takes no snapshot of her: after one that follows is
rolled back she is as she was before the second. -/
theorem not_put_back_to_idle_save : ∃ store opened closing after : Store Tables.World, ∃ acts,
    Samples.deployment.Reached (fun _ _ _ => True) store ∧
    (Store.beginTransaction (Samples.deployment.session 0)).run store = (.ok (), opened) ∧
    Samples.deployment.Run opened acts closing ∧
    acts.map (fun act => (act.thread, act.action)) = Samples.resaved ∧
    (∀ act ∈ acts, act.outcome.isOk = true) ∧
    (Store.rollbackTransaction (Samples.deployment.session 0)).run closing = (.ok (), after) ∧
    after.look 0 ≠ opened.look 0 := by
  obtain ⟨store, visited⟩ : ∃ store, Samples.deployment.visited? Samples.saved = some store :=
    Option.isSome_iff_exists.mp (by decide +kernel)
  have facts : ∀ store ∈ Samples.deployment.visited? Samples.saved,
      let begun := (Store.beginTransaction (Samples.deployment.session 0)).run store
      let acts := Samples.deployment.enact Samples.resaved begun.2
      let ended := (Store.rollbackTransaction (Samples.deployment.session 0)).run (left begun.2 acts)
      begun.1.isOk = true ∧ named begun.2 acts = true ∧
        (∀ act ∈ acts, act.outcome.isOk = true) ∧ ended.1.isOk = true ∧
        ended.2.look 0 ≠ begun.2.look 0 := by
    decide +kernel
  obtain ⟨isOk, inMemory, acted, rolledBack, differ⟩ := facts store visited
  generalize begun : (Store.beginTransaction (Samples.deployment.session 0)).run store = result
    at isOk inMemory acted rolledBack differ
  obtain ⟨outcome | _, opened⟩ := result
  · cases isOk
  generalize ran : (Store.rollbackTransaction (Samples.deployment.session 0)).run
    (left opened _) = result at rolledBack differ
  obtain ⟨outcome | _, after⟩ := result
  · cases rolledBack
  exact ⟨store, opened, _, after, _, reached_visited (fun _ _ _ _ => trivial) visited, begun,
    run_enact inMemory, steps_enact _ opened, acted, ran, differ⟩

set_option maxRecDepth 100000 in
/-- Two threads rename and save Ada, each in a transaction of its own, and the store is closed:
she cannot look both as before the one save and as before the other. Nor does she, after a
rollback, look as before a save that had nothing to write. -/
theorem put_back_for_one_of_two :
    (∃ start closing after first second : Store Tables.World, ∃ acts,
      (Store.create Samples.deployment.database Samples.deployment.config Samples.deployment.store
        #[] Samples.deployment.world).1 = .ok start ∧
      Samples.deployment.Run start acts closing ∧
      acts.map (fun act => (act.thread, act.action)) = Samples.sharedByTwo ∧
      (Store.close (Samples.deployment.session 0)).run closing = (.ok (), after) ∧
      EndedSince acts after 0 0 first ∧ EndedSince acts after 1 0 second ∧
      ¬(after.look 0 = first.look 0 ∧ after.look 0 = second.look 0)) ∧
    ∃ store opened closing after : Store Tables.World, ∃ acts,
      Samples.deployment.Reached (fun _ _ _ => True) store ∧
      (Store.beginTransaction (Samples.deployment.session 0)).run store = (.ok (), opened) ∧
      Samples.deployment.Run opened acts closing ∧
      acts.map (fun act => (act.thread, act.action)) = Samples.resaved ∧
      (∀ act ∈ acts, act.outcome.isOk = true) ∧
      (Store.rollbackTransaction (Samples.deployment.session 0)).run closing = (.ok (), after) ∧
      after.look 0 ≠ opened.look 0 := by
  refine ⟨?_, not_put_back_to_idle_save⟩
  obtain ⟨store, visited⟩ : ∃ store, Samples.deployment.visited? Samples.saved = some store :=
    Option.isSome_iff_exists.mp (by decide +kernel)
  have facts : ∀ store ∈ Samples.deployment.visited? Samples.saved,
      let begun := (Store.beginTransaction (Samples.deployment.session 0)).run store
      let first := ((Action.assign 0 "name" (.value (.text "Bo"))).perform
        (Samples.deployment.session 0)).run begun.2
      let between := left begun.2 (Samples.deployment.enact (Samples.renames 0 "Bo") begun.2)
      let begunToo := (Store.beginTransaction (Samples.deployment.session 1)).run between
      let second := ((Action.assign 0 "name" (.value (.text "Bo"))).perform
        (Samples.deployment.session 1)).run begunToo.2
      let acts := Samples.deployment.enact (Samples.renames 0 "Bo" ++ (1, .begin)
        :: Samples.renames 1 "Bo") begun.2
      let ended := (Store.close (Samples.deployment.session 0)).run (left begun.2 acts)
      (begun.1.isOk = true ∧ begunToo.1.isOk = true ∧ named begun.2 acts = true ∧
        ended.1.isOk = true) ∧
      (∀ act ∈ acts, act.after.inTransaction 0 = true) ∧
      (∀ act ∈ Samples.deployment.enact (Samples.renames 1 "Bo") begunToo.2,
        act.after.inTransaction 1 = true) ∧
      (((Store.save (Samples.deployment.session 0) 0).run first.2).1.isOk = true ∧
        (first.2.instanceAt 0).needsWrite = true) ∧
      (((Store.save (Samples.deployment.session 1) 0).run second.2).1.isOk = true ∧
        (second.2.instanceAt 0).needsWrite = true) ∧
      (ended.2.inTransaction 0 = false ∧ ended.2.inTransaction 1 = false) ∧
      first.2.look 0 ≠ second.2.look 0 := by
    decide +kernel
  obtain ⟨⟨isOk, isOkToo, inMemory, closes⟩, lasts, lastsToo, ⟨saved, needed⟩,
    ⟨savedToo, neededToo⟩, ⟨ended, endedToo⟩, differ⟩ := facts store visited
  generalize begun : (Store.beginTransaction (Samples.deployment.session 0)).run store = result
    at isOk isOkToo inMemory closes lasts lastsToo saved needed savedToo neededToo ended endedToo
      differ
  obtain ⟨outcome | _, opened⟩ := result
  · cases isOk
  generalize begunToo : (Store.beginTransaction (Samples.deployment.session 1)).run
    (left opened (Samples.deployment.enact (Samples.renames 0 "Bo") opened)) = result
    at isOkToo lastsToo savedToo neededToo differ
  obtain ⟨outcome | _, openedToo⟩ := result
  · cases isOkToo
  generalize ran : (Store.close (Samples.deployment.session 0)).run (left opened _) = result
    at closes ended endedToo
  obtain ⟨outcome | _, after⟩ := result
  · cases closes
  have acts := @enact_cons _ Samples.deployment _ _ _
    (Samples.renames 0 "Bo" ++ (1, .begin) :: Samples.renames 1 "Bo") .begin _ begun
  obtain ⟨start, world, created, reaches, run⟩ := @run_of_visited _ Samples.deployment _ _
    ((0, .begin) :: (Samples.renames 0 "Bo" ++ (1, .begin) :: Samples.renames 1 "Bo")) visited
    (by rw [acts]; exact inMemory)
  rw [acts] at run
  -- The second transaction is begun after the steps of the first one.
  have reachesToo : left start (Samples.deployment.enact
      (Samples.saved ++ (0, .begin) :: Samples.renames 0 "Bo") start)
        = left opened (Samples.deployment.enact (Samples.renames 0 "Bo") opened) := by
    rw [enact_append, left_append, reaches, @enact_cons _ _ _ _ _ _ .begin _ begun]
    rfl
  have first : FirstSettled 0 0 opened (Samples.deployment.enact (Samples.renames 0 "Bo"
      ++ (1, .begin) :: Samples.renames 1 "Bo") opened) _ :=
    firstSettled_enact (fun settles => settles) rfl saved needed
  have second : FirstSettled 1 0 openedToo
      (Samples.deployment.enact (Samples.renames 1 "Bo") openedToo) _ :=
    firstSettled_enact (fun settles => settles) rfl savedToo neededToo
  exact ⟨start, _, after, _, _, _, congrArg Prod.fst created, run, steps_enact _ start, ran,
    ⟨opened, _, openSince_enact reaches begun lasts, ended, first⟩,
    ⟨openedToo, _, openSince_enact reachesToo begunToo lastsToo, endedToo, second⟩,
    fun both => differ (both.1.symm.trans both.2)⟩

end Deployment
end EntityStore
