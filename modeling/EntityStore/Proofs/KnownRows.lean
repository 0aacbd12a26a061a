/-
Rows that are known when a transaction begins. Whatever is done in a transaction that is
aborted, an instance that had its row before has that row again afterwards, and is not noted
as missing. What the transaction has read can stay only where nothing had been read before.
-/

import EntityStore.Proofs.PuttingBack

set_option autoImplicit false

namespace EntityStore

namespace Store

variable {World : Type} {store after : Store World} {thread : ThreadId} {subject : InstanceId}
  {content : Instance}

/-- If the transaction of a thread were aborted, an instance would have the row that it had
when it had a given content, or would be removed as it was then. -/
structure Secures (thread : ThreadId) (subject : InstanceId) (content : Instance)
    (store : Store World) : Prop where
  inMemory : subject < store.memory.size
  complete : (store.instanceAt subject).Complete
  vanished : (store.instanceAt subject).vanished = content.vanished
  inside : ∃ kept, store.snapshots thread = some kept ∧
    ((kept.lookup subject).getD (store.look subject)).row = content.row
  foreign : ∀ other, other ≠ thread → ∀ kept, store.snapshots other = some kept →
    kept.lookup subject = none

theorem Secures.transfer (secures : store.Secures thread subject content)
    (size : store.memory.size ≤ after.memory.size)
    (own : after.snapshots thread = store.snapshots thread)
    (foreign : ∀ other, other ≠ thread → ∀ kept, after.snapshots other = some kept →
      kept.lookup subject = none)
    (stays : (store.instanceAt subject).Stays (after.instanceAt subject)) :
    after.Secures thread subject content := by
  obtain ⟨kept, inside, row⟩ := secures.inside
  refine ⟨Nat.lt_of_lt_of_le secures.inMemory size, stays.complete secures.complete,
    stays.vanished.trans secures.vanished, ⟨kept, own.trans inside, ?_⟩, foreign⟩
  cases found : kept.lookup subject with
  | some snapshot =>
      rw [found] at row
      exact row
  | none =>
      rw [found] at row
      exact stays.row.trans row

theorem Abandoned.vanished {session : Session World} {transactions : List Transaction}
    (abandoned : Abandoned session transactions store after) (subject : InstanceId) :
    (after.instanceAt subject).vanished = (store.instanceAt subject).vanished := by
  induction abandoned with
  | nil store => rfl
  | @cons transaction _ store _ world _ _ ih =>
      have restored := vanished_restoreInstances transaction (store.withWorld world) subject
      exact ih.trans restored

theorem CloseEnds.vanished {session : Session World} (ends : CloseEnds session store after)
    (subject : InstanceId) :
    (after.instanceAt subject).vanished = (store.instanceAt subject).vanished := by
  cases ends with
  | again _ => rfl
  | closed _ abandoned => exact abandoned.vanished subject

end Store

namespace Leaves

variable {World : Type} {session : Session World} {action : Action} {store after : Store World}
  {outcome : Except Error Unit} {thread : ThreadId} {subject : InstanceId} {content : Instance}

section Others

variable (secures : store.Secures thread subject content) (apart : session.thread ≠ thread)
  (others : ∀ other, other ≠ session.thread → after.snapshots other = store.snapshots other)
include secures apart others

/-- An act of another thread, which alone may have another transaction afterwards: no snapshot
of the instance is taken, and it stays as it is. -/
theorem secures_beside (size : store.memory.size ≤ after.memory.size)
    (own : ∀ kept, after.snapshots session.thread = some kept → kept.lookup subject = none)
    (stays : (store.instanceAt subject).Stays (after.instanceAt subject)) :
    after.Secures thread subject content := by
  refine secures.transfer size (others thread fun same => apart same.symm) ?_ stays
  intro other different
  by_cases acting : other = session.thread
  · rw [acting]
    exact own
  · rw [others other acting]
    exact secures.foreign other different

private theorem secures_beside_boundary (size : store.memory.size ≤ after.memory.size)
    (own : after.snapshots session.thread = some [] ∨ after.snapshots session.thread = none)
    (stays : (store.instanceAt subject).Stays (after.instanceAt subject)) :
    after.Secures thread subject content := by
  refine secures_beside secures apart others size (fun kept isKept => ?_) stays
  rcases own with begun | ended
  · rw [begun] at isKept
    cases isKept
    rfl
  · rw [ended] at isKept
    cases isKept

end Others

private theorem secures_settled (secures : store.Secures session.thread subject content)
    (notes : Store.Notes session.thread (action.Settles store) store after) :
    after.Secures session.thread subject content := by
  obtain ⟨kept, inside, row⟩ := secures.inside
  obtain ⟨more, isMore, added⟩ := notes.inside kept inside
  refine ⟨notes.size ▸ secures.inMemory, notes.complete subject secures.complete,
    (notes.vanished subject).trans secures.vanished, ⟨more, isMore, ?_⟩, fun other different => ?_⟩
  · cases found : kept.lookup subject with
    | some snapshot =>
        rw [found] at row
        rw [added.stays subject snapshot found]
        exact row
    | none =>
        rw [found] at row
        by_cases settles : action.Settles store subject
        · rw [added.taken subject found settles]
          exact row
        · rw [added.free subject found settles]
          exact (congrArg Snapshot.row (notes.look subject settles)).trans row
  · rw [notes.others other different]
    exact secures.foreign other different

/-- An act keeps a transaction open: it takes a snapshot of what it settles, and leaves alone
what another thread does not settle. -/
theorem secures (leaves : Leaves session action store outcome after)
    (secures : store.Secures thread subject content)
    (apart : session.thread ≠ thread → outcome.isOk = true → ¬action.Settles store subject)
    (still : after.inTransaction thread = true) : after.Secures thread subject content := by
  obtain ⟨kept, inside, _⟩ := secures.inside
  rw [Store.inTransaction_eq] at still
  cases leaves with
  | kept passes _ =>
      refine secures.transfer passes.spares.size (passes.kept thread) (fun other different => ?_)
        (passes.spares.stays subject secures.inMemory secures.complete)
      rw [passes.kept]
      exact secures.foreign other different
  | settled notes =>
      by_cases own : session.thread = thread
      · subst own
        exact secures_settled secures notes
      · have free := apart own rfl
        refine secures_beside secures own notes.others (Nat.le_of_eq notes.size.symm)
          (fun more isMore => ?_)
          (Store.stays_of_look (notes.look subject free) (notes.vanished subject))
        cases acting : store.snapshots session.thread with
        | none =>
            rw [notes.outside acting] at isMore
            cases isMore
        | some earlier =>
            obtain ⟨_, same, added⟩ := notes.inside earlier acting
            obtain rfl := Option.some.inj (same.symm.trans isMore)
            exact added.free subject (secures.foreign _ own earlier acting) free
  | putBack _ puts =>
      have own : session.thread ≠ thread := by
        rintro rfl
        rw [puts.ended] at still
        cases still
      have look := puts.look subject
      rw [secures.foreign _ own _ puts.inside] at look
      exact secures_beside_boundary secures own puts.others (Nat.le_of_eq puts.size.symm)
        (Or.inr puts.ended) (Store.stays_of_look look (puts.vanished subject))
  | begun _ outside opened others spares =>
      have own : session.thread ≠ thread := by
        rintro rfl
        rw [outside] at inside
        cases inside
      exact secures_beside_boundary secures own others spares.size (Or.inl opened)
        (spares.stays subject secures.inMemory secures.complete)
  | committed _ ended others spares =>
      have own : session.thread ≠ thread := by
        rintro rfl
        rw [ended] at still
        cases still
      exact secures_beside_boundary secures own others spares.size (Or.inr ended)
        (spares.stays subject secures.inMemory secures.complete)
  | closed _ ends =>
      rcases ends.ended with rfl | none
      · exact secures
      · rw [none thread] at still
        cases still

/-- No act that ends a transaction without committing it notes that a row is missing. -/
theorem vanished (leaves : Leaves session action store outcome after)
    (inside : store.inTransaction thread = true) (ended : after.inTransaction thread = false)
    (uncommitted : ¬(session.thread = thread ∧ action = .commit ∧ outcome.isOk = true)) :
    (after.instanceAt subject).vanished = (store.instanceAt subject).vanished := by
  rw [Store.inTransaction_eq] at inside ended
  have impossible (same : after.snapshots thread = store.snapshots thread) : False := by
    rw [same, inside] at ended
    cases ended
  cases leaves with
  | kept passes _ => exact (impossible (passes.kept thread)).elim
  | settled notes => exact notes.vanished subject
  | putBack _ puts => exact puts.vanished subject
  | begun _ outside _ others _ =>
      refine (impossible (others thread ?_)).elim
      rintro rfl
      rw [outside] at inside
      cases inside
  | committed commits _ others _ =>
      refine (impossible (others thread ?_)).elim
      rintro rfl
      exact uncommitted ⟨rfl, commits, rfl⟩
  | closed _ ends => exact ends.vanished subject

end Leaves

namespace Deployment

variable {World : Type} {deployment : Deployment World}
  {store opened closing after : Store World} {thread other : ThreadId} {acts : List (Act World)}
  {subject : InstanceId} {content : Instance}

theorem secures_of_run (run : deployment.Run store acts closing) (regular : store.Regular)
    (stays : ∀ act ∈ acts, act.after.inTransaction thread = true)
    (apart : ∀ other, other ≠ thread → ∀ moment, ¬FirstSettled other subject store acts moment)
    (secures : store.Secures thread subject content) : closing.Secures thread subject content := by
  induction run with
  | nil store => exact secures
  | @cons store between after other action outcome rest inMemory ran _ ih =>
      have leaves := (leaves_perform regular inMemory).of_run ran
      have regularBetween := ((Action.follows_perform regular inMemory).of_run ran).regular regular
      have untouched (another : ThreadId) (different : another ≠ thread) :
          ¬Act.Settles ⟨other, action, outcome, between⟩ another store subject :=
        fun settles => apart another different store (.now settles)
      refine ih regularBetween (fun act member => stays act (List.mem_cons_of_mem _ member)) ?_ ?_
      · intro another different moment first
        exact apart another different moment (.later (untouched another different) first)
      · exact leaves.secures secures
          (fun different isOk settles => untouched other different ⟨rfl, isOk, settles⟩)
          (stays _ List.mem_cons_self)

/-- An instance that has a row when a transaction begins, or is removed, has that row after the
transaction was aborted, unless another thread has saved or removed it. -/
theorem aborted_keeps_known {allowed : Store World → ThreadId → Action → Prop} {action : Action}
    {outcome : Except Error Unit} (reached : deployment.Reached allowed store)
    (begun : (Store.beginTransaction (deployment.session thread)).run store = (.ok (), opened))
    (run : deployment.Run opened acts closing)
    (stays : ∀ act ∈ acts, act.after.inTransaction thread = true)
    (inMemory : action.InMemory closing.memory.size)
    (ran : (action.perform (deployment.session other)).run closing = (outcome, after))
    (ended : after.inTransaction thread = false)
    (uncommitted : ¬(other = thread ∧ action = .commit ∧ outcome.isOk = true))
    (present : subject < opened.memory.size) (known : (opened.instanceAt subject).Complete)
    (foreign : ∀ another, another ≠ thread →
      (∀ kept, opened.snapshots another = some kept → kept.lookup subject = none) ∧
      ∀ moment, ¬FirstSettled another subject opened acts moment) :
    ∃ others aborting restored,
      Store.Aborted (deployment.session other) thread action closing after others aborting
        restored ∧
      (after.instanceAt subject).vanished = (opened.instanceAt subject).vanished ∧
      ((∀ transaction ∈ others, transaction.snapshots.lookup subject = none) →
        (after.instanceAt subject).row = (opened.instanceAt subject).row) := by
  obtain ⟨regular, empty⟩ := begun_with reached.regular begun
  have regularClosing := run.regular regular
  have secures : closing.Secures thread subject (opened.instanceAt subject) :=
    secures_of_run run regular stays (fun another different => (foreign another different).2)
      ⟨present, known, rfl, ⟨[], empty, rfl⟩,
        fun another different => (foreign another different).1⟩
  obtain ⟨kept, inside, row⟩ := secures.inside
  have leaves := (leaves_perform regularClosing inMemory).of_run ran
  obtain ⟨others, aborting, restored, aborted, restores⟩ :=
    leaves.restores regularClosing.sound inside ended uncommitted
  refine ⟨others, aborting, restored, aborted, ?_, fun free => ?_⟩
  · have isInside : closing.inTransaction thread = true := by
      rw [Store.inTransaction_eq, inside]
      rfl
    exact (leaves.vanished isInside ended uncommitted).trans secures.vanished
  · obtain ⟨before, unchanged⟩ := restores.apart subject free
    have look := unchanged.trans (restores.look subject)
    rw [before] at look
    exact (congrArg Snapshot.row look).trans row

set_option maxRecDepth 100000 in
/-- Ada is known by that name when the transaction begins, and again after it is rolled back;
another instance, which has read her other name meanwhile, holds on to that. -/
theorem aborted_keeps_known_ada : ∃ store opened closing after : Store Tables.World, ∃ acts,
    (Store.beginTransaction (Samples.deployment.session 0)).run store = (.ok (), opened) ∧
      Samples.deployment.Run opened acts closing ∧
      acts.map (fun act => (act.thread, act.action)) = Samples.overheard ∧
      (Store.rollbackTransaction (Samples.deployment.session 0)).run closing = (.ok (), after) ∧
      (opened.instanceAt 0).peek "name" = some (.value (.text "Ada")) ∧
      (closing.instanceAt 0).peek "name" = some (.value (.text "Bo")) ∧
      (after.instanceAt 0).row = (opened.instanceAt 0).row ∧
      (after.instanceAt 1).peek "name" = some (.value (.text "Bo")) := by
  obtain ⟨store, visited⟩ : ∃ store, Samples.deployment.visited? Samples.saved = some store :=
    Option.isSome_iff_exists.mp (by decide +kernel)
  have facts : ∀ store ∈ Samples.deployment.visited? Samples.saved,
      let begun := (Store.beginTransaction (Samples.deployment.session 0)).run store
      let acts := Samples.deployment.enact Samples.overheard begun.2
      let closing := left begun.2 acts
      let ended := (Store.rollbackTransaction (Samples.deployment.session 0)).run closing
      begun.1.isOk = true ∧ named begun.2 acts = true ∧ ended.1.isOk = true ∧
        (∀ act ∈ acts, act.thread = 0 ∧ act.after.inTransaction 0 = true) ∧
        ended.2.inTransaction 0 = false ∧ 0 < begun.2.memory.size ∧
        (begun.2.instanceAt 0).row.isSome = true ∧
        (∀ entry ∈ begun.2.transactions, entry.1 = 0) ∧
        (begun.2.instanceAt 0).peek "name" = some (.value (.text "Ada")) ∧
        (closing.instanceAt 0).peek "name" = some (.value (.text "Bo")) ∧
        (ended.2.instanceAt 1).peek "name" = some (.value (.text "Bo")) := by
    decide +kernel
  obtain ⟨isOk, inMemory, rolledBack, acted, ended, present, known, alone, before, within,
    overheard⟩ := facts store visited
  have reached := reached_visited (fun _ _ _ _ => trivial) visited
  generalize begun : (Store.beginTransaction (Samples.deployment.session 0)).run store
    = result at isOk inMemory rolledBack acted ended present known alone before within overheard
  obtain ⟨outcome | _, opened⟩ := result
  · cases isOk
  generalize ran : (Store.rollbackTransaction (Samples.deployment.session 0)).run
    (left opened _) = result at rolledBack ended overheard
  obtain ⟨outcome | _, after⟩ := result
  · cases rolledBack
  have run := run_enact inMemory
  obtain ⟨_, aborting, restored, aborted, _, kept⟩ := @aborted_keeps_known _ _ _ _ _ _ _ 0 _ 0 _
    .rollback _ reached begun run (fun act member => (acted act member).2) trivial ran ended
    (by rintro ⟨_, ⟨⟩, _⟩) present (Or.inl known) fun another different => by
      refine ⟨fun kept isKept => ?_, fun moment first => ?_⟩
      · obtain ⟨transaction, inside, _⟩ := Option.map_eq_some_iff.mp isKept
        exact absurd (alone _ (Store.mem_of_transaction inside)) different
      · obtain ⟨act, member, same⟩ := first.exists_act
        exact absurd (same.symm.trans (acted act member).1) different
  refine ⟨store, opened, _, after, _, begun, run, steps_enact _ opened, ran, before, within, ?_,
    overheard⟩
  cases aborted with
  | alone _ => exact kept fun _ member => by cases member
  | closed closes _ _ _ _ _ => cases closes

end Deployment
end EntityStore
