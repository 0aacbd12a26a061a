/-
The snapshots that a transaction takes: of each instance that it saves or removes one, as
this looked just before the first time. An act inside the transaction adds those that are
missing, and an act that ends the transaction without committing puts them back.
-/

import EntityStore.Proofs.Columns
import EntityStore.Proofs.KeptSnapshots

set_option autoImplicit false

namespace EntityStore

theorem Updated.exists_changed {dialect : Dialect} {ids : Ids} {plan : List PlannedNode}
    {changed : List Written} {log : List Event} (changes : Updated dialect ids plan changed log)
    {planned : PlannedNode} (member : planned ∈ plan) (dirty : planned.content.state = .dirty)
    (keyed : planned.content.key.id.isSome) : ∃ written ∈ changed, written.planned = planned := by
  induction changes with
  | nil => cases member
  | skipped unchanged _ ih =>
      rcases List.mem_cons.mp member with rfl | isLater
      · exact absurd ⟨dirty, keyed⟩ unchanged
      · exact ih isLater
  | changed _ _ _ _ ih =>
      rcases List.mem_cons.mp member with rfl | isLater
      · exact ⟨_, List.mem_cons_self, rfl⟩
      · obtain ⟨written, isWritten, same⟩ := ih isLater
        exact ⟨written, List.mem_cons_of_mem _ isWritten, same⟩

theorem Writing.isNew_of_completed {dialect : Dialect} {plan : List PlannedNode}
    (writing : Writing dialect plan) {one : Written} (member : one ∈ writing.completed) :
    one.planned.isNew = true := by
  rw [writing.completes.eq_map] at member
  obtain ⟨entry, isInserted, rfl⟩ := List.mem_map.mp member
  show entry.2.planned.isNew = true
  rw [(writing.inserts.lookup isInserted).2]
  exact (writing.planned_of_inserted isInserted).2

structure Extends (settles : InstanceId → Prop) (look : InstanceId → Snapshot)
    (kept more : List (InstanceId × Snapshot)) : Prop where
  stays : ∀ subject snapshot, kept.lookup subject = some snapshot →
    more.lookup subject = some snapshot
  taken : ∀ subject, kept.lookup subject = none → settles subject →
    more.lookup subject = some (look subject)
  free : ∀ subject, kept.lookup subject = none → ¬settles subject → more.lookup subject = none

namespace Extends

variable {first second : InstanceId → Prop} {look later : InstanceId → Snapshot}
  {kept middle more : List (InstanceId × Snapshot)}

private theorem none (look : InstanceId → Snapshot) (kept : List (InstanceId × Snapshot)) :
    Extends (fun _ => False) look kept kept :=
  ⟨fun _ _ found => found, fun _ _ impossible => impossible.elim, fun _ missing _ => missing⟩

private theorem trans (earlier : Extends first look kept middle)
    (after : Extends second later middle more)
    (same : ∀ subject, ¬first subject → later subject = look subject) :
    Extends (fun subject => first subject ∨ second subject) look kept more := by
  refine ⟨fun subject snapshot found => ?_, fun subject missing settles => ?_,
    fun subject missing free => ?_⟩
  · exact after.stays subject snapshot (earlier.stays subject snapshot found)
  · by_cases isFirst : first subject
    · exact after.stays subject _ (earlier.taken subject missing isFirst)
    · rw [after.taken subject (earlier.free subject missing isFirst)
        (settles.resolve_left isFirst), same subject isFirst]
  · obtain ⟨notFirst, notSecond⟩ := not_or.mp free
    exact after.free subject (earlier.free subject missing notFirst) notSecond

end Extends

theorem Transaction.extends_keepSnapshot (transaction : Transaction) (subject : InstanceId)
    (look : InstanceId → Snapshot) :
    Extends (· = subject) look transaction.snapshots
      (transaction.keepSnapshot subject (look subject)).snapshots := by
  unfold keepSnapshot
  split
  · rename_i noted
    refine ⟨fun _ _ found => found, ?_, fun _ missing _ => missing⟩
    rintro _ missing rfl
    obtain ⟨entry, member, same⟩ := List.any_eq_true.mp noted
    have apart := List.lookup_eq_none_iff.mp missing entry member
    rw [beq_iff_eq.mp same, bne_self_eq_false] at apart
    cases apart
  · refine ⟨fun other snapshot found => ?_, ?_, fun other missing apart => ?_⟩
    · simp [List.lookup_append, found]
    · rintro _ missing rfl
      simp [List.lookup_append, missing]
    · have different : (other == subject) = false := by simpa using apart
      simp [List.lookup_append, List.lookup_cons, missing, different]

namespace Store

variable {World : Type} {session : Session World} {store between after : Store World}

theorem inTransaction_eq (store : Store World) (thread : ThreadId) :
    store.inTransaction thread = (store.snapshots thread).isSome := by
  unfold inTransaction snapshots
  rw [Option.isSome_map]

/-- A thread settles some instances: its transaction, if there is one, takes the snapshots
that are missing, and nothing else looks otherwise. Afterwards there is nothing to be read
for what was settled. -/
structure Notes (thread : ThreadId) (settles : InstanceId → Prop) (store after : Store World) :
    Prop where
  others : ∀ other, other ≠ thread → after.snapshots other = store.snapshots other
  outside : store.snapshots thread = none → after.snapshots thread = none
  inside : ∀ kept, store.snapshots thread = some kept →
    ∃ more, after.snapshots thread = some more ∧ Extends settles store.look kept more
  size : after.memory.size = store.memory.size
  look : ∀ subject, ¬settles subject → after.look subject = store.look subject
  vanished : ∀ subject, (after.instanceAt subject).vanished = (store.instanceAt subject).vanished
  complete : ∀ subject, (store.instanceAt subject).Complete → (after.instanceAt subject).Complete

theorem Silent.notes (silent : store.Silent after) (thread : ThreadId) :
    Notes thread (fun _ => False) store after := by
  refine ⟨fun other _ => silent.kept other, fun outside => ?_, fun kept inside => ?_,
    silent.size, fun subject _ => silent.look subject, silent.vanished,
    fun subject => (stays_of_look (silent.look subject) (silent.vanished subject)).complete⟩
  · rw [silent.kept, outside]
  · refine ⟨kept, ?_, .none _ kept⟩
    rw [silent.kept, inside]

theorem Notes.trans {thread : ThreadId} {first second : InstanceId → Prop}
    (earlier : Notes thread first store between) (later : Notes thread second between after) :
    Notes thread (fun subject => first subject ∨ second subject) store after := by
  refine ⟨fun other apart => ?_, fun outside => ?_, fun kept inside => ?_,
    later.size.trans earlier.size, fun subject free => ?_,
    fun subject => (later.vanished subject).trans (earlier.vanished subject),
    fun subject complete => later.complete subject (earlier.complete subject complete)⟩
  · rw [later.others other apart, earlier.others other apart]
  · exact later.outside (earlier.outside outside)
  · obtain ⟨middle, isMiddle, extendsFirst⟩ := earlier.inside kept inside
    obtain ⟨more, isMore, extendsSecond⟩ := later.inside middle isMiddle
    exact ⟨more, isMore, extendsFirst.trans extendsSecond earlier.look⟩
  · obtain ⟨notFirst, notSecond⟩ := not_or.mp free
    rw [later.look subject notSecond, earlier.look subject notFirst]

theorem Notes.congr {thread : ThreadId} {settles others : InstanceId → Prop}
    (notes : Notes thread settles store after)
    (same : ∀ subject, settles subject ↔ others subject) : Notes thread others store after := by
  rwa [show others = settles from funext fun subject => propext (same subject).symm]

theorem instanceAt_rememberInTransaction (thread : ThreadId) (noted subject : InstanceId)
    (store : Store World) :
    (store.rememberInTransaction thread noted).instanceAt subject = store.instanceAt subject := by
  unfold rememberInTransaction
  split <;> rfl

private theorem notes_settle (thread : ThreadId) (subject : InstanceId) {edit : Instance → Instance}
    (vanished : ∀ content, (edit content).vanished = content.vanished)
    (complete : ∀ content, (edit content).Complete) (store : Store World) :
    Notes thread (· = subject) store
      ((store.rememberInTransaction thread subject).modifyInstance edit subject) := by
  have kept (noted : Store World) : noted.Kept (noted.modifyInstance edit subject) :=
    kept_of_transactions rfl
  refine ⟨fun other apart => ?_, fun outside => ?_, fun snapshots inside => ?_, ?_,
    fun other apart => ?_, fun other => ?_, fun other isComplete => ?_⟩
  · rw [kept]
    unfold rememberInTransaction
    split
    · rfl
    · exact snapshots_setTransaction_of_ne _ _ apart
  · rw [kept]
    have free : store.transaction? thread = none := Option.map_eq_none_iff.mp outside
    unfold rememberInTransaction
    rw [free]
    exact outside
  · obtain ⟨transaction, isInside, rfl⟩ := Option.map_eq_some_iff.mp inside
    refine ⟨_, ?_, transaction.extends_keepSnapshot subject store.look⟩
    rw [kept]
    unfold rememberInTransaction
    rw [isInside]
    exact snapshots_setTransaction_self _ _ _
  · rw [size_modifyInstance, size_rememberInTransaction]
  · rw [look_modifyInstance, if_neg fun both => apart both.1]
    exact congrArg Snapshot.ofInstance (instanceAt_rememberInTransaction thread subject other store)
  · rw [instanceAt_modifyInstance, instanceAt_rememberInTransaction]
    split
    · rw [vanished]
    · rfl
  · rw [instanceAt_modifyInstance, instanceAt_rememberInTransaction]
    split
    · exact complete _
    · exact isComplete

theorem notes_settleAll {written : List Written}
    (ran : (settleAll session written).run store = (.ok (), after)) :
    Notes session.thread (fun subject => ∃ one ∈ written, one.planned.node.subject = subject)
      store after := by
  induction written generalizing store with
  | nil =>
      cases ran
      refine ((Silent.refl _).notes session.thread).congr fun subject => ?_
      exact iff_of_false not_false fun ⟨_, impossible, _⟩ => by cases impossible
  | cons one rest ih =>
      rw [run_settleAll_cons] at ran
      have first := @notes_settle _ session.thread one.planned.node.subject
        (fun content => content.settle one.id one.row) (fun _ => rfl) (fun _ => Or.inl rfl) store
      refine (first.trans (ih ran)).congr fun subject => ?_
      rw [List.exists_mem_cons_iff, eq_comm]

/-- The instances that a save writes: those that its root reaches and that are new or
changed. -/
theorem exists_written_iff (sound : store.Sound) {dialect : Dialect} {root : InstanceId}
    (inMemory : root < store.memory.size) {graph : Graph}
    (collected : Graph.collect store.id store.memory root = .ok graph)
    (writing : Writing dialect (graph.plan dialect)) (subject : InstanceId) :
    (∃ one ∈ writing.written, one.planned.node.subject = subject) ↔
      Reaches store.memory root subject ∧ (store.instanceAt subject).needsWrite = true := by
  rw [← sound.mem_graph inMemory collected]
  constructor
  · rintro ⟨one, isWritten, rfl⟩
    have isPlanned := writing.planned_mem isWritten
    refine ⟨Graph.mem_subjects.mpr ⟨_, List.mem_of_getElem? (Graph.mem_plan.mp isPlanned).1, rfl⟩, ?_⟩
    rw [sound.instanceAt_plan collected isPlanned]
    unfold Instance.needsWrite
    rcases List.mem_append.mp isWritten with isCompleted | isChanged
    · exact (Bool.or_eq_true _ _).mpr (Or.inl (writing.isNew_of_completed isCompleted))
    · rw [(writing.changes.of_changed isChanged).2.1]
      rfl
  · rintro ⟨member, needed⟩
    obtain ⟨planned, isPlanned, rfl, _⟩ := @exists_planned _ _ dialect member
    rw [sound.instanceAt_plan collected isPlanned] at needed
    rcases (Bool.or_eq_true _ _).mp needed with isNew | dirty
    · obtain ⟨entry, isInserted, rfl⟩ := writing.exists_inserted isPlanned isNew
      obtain ⟨completed, isCompleted, same, _⟩ := writing.exists_completed isInserted
      exact ⟨completed, List.mem_append_left _ isCompleted, by rw [same]⟩
    · have dirty := of_decide_eq_true dirty
      have keyed := (sound.of_plan collected isPlanned).2.2.sound.keyed (Or.inr dirty)
      obtain ⟨written, isWritten, rfl⟩ := writing.changes.exists_changed isPlanned dirty keyed
      exact ⟨written, List.mem_append_right _ isWritten, rfl⟩

end Store

/-! ### Acts -/

/-- The instances that an action settles when it succeeds: the one that is removed, and
those that a save writes. -/
def Action.Settles {World : Type} (store : Store World) : Action → InstanceId → Prop
  | .save root, subject =>
      Reaches store.memory root subject ∧ (store.instanceAt subject).needsWrite = true
  | .remove other, subject => subject = other
  | _, _ => False

inductive Leaves {World : Type} (session : Session World) (action : Action)
    (store : Store World) : Except Error Unit → Store World → Prop where
  | kept {outcome : Except Error Unit} {after : Store World} : store.Passes after →
      (outcome.isOk = true → ∀ subject, ¬action.Settles store subject) →
      Leaves session action store outcome after
  | settled {after : Store World} :
      Store.Notes session.thread (action.Settles store) store after →
      Leaves session action store (.ok ()) after
  | putBack {kept : List (InstanceId × Snapshot)} {outcome : Except Error Unit}
      {after : Store World} : action ≠ .close →
      Store.PutsBack session.thread kept store after → Leaves session action store outcome after
  | begun {after : Store World} : action = .begin → store.snapshots session.thread = none →
      after.snapshots session.thread = some [] →
      (∀ other, other ≠ session.thread → after.snapshots other = store.snapshots other) →
      store.Spares after → Leaves session action store (.ok ()) after
  | committed {after : Store World} : action = .commit → after.snapshots session.thread = none →
      (∀ other, other ≠ session.thread → after.snapshots other = store.snapshots other) →
      store.Spares after → Leaves session action store (.ok ()) after
  | closed {after : Store World} : action = .close → Store.CloseEnds session store after →
      Leaves session action store (.ok ()) after

namespace Store

variable {World : Type} {session : Session World} {store between after : Store World}
  {action : Action}

theorem Passed.leaves {error : Error} (open' : action ≠ .close)
    (passed : Passed session.thread store (.error error : Except Error Unit) after) :
    Leaves session action store (.error error) after := by
  cases passed with
  | kept passes => exact .kept passes fun impossible => by cases impossible
  | aborted puts => exact .putBack open' puts

private theorem leaves_save {root : InstanceId} (regular : store.Regular)
    (inMemory : root < store.memory.size) :
    Ensures (save session root) store (Leaves session (.save root) store) := by
  have refused {error : Error} : Leaves session (.save root) store (.error error) store :=
    .kept (.refl store) fun impossible => by cases impossible
  unfold Ensures save
  rw [run_bind, run_ensureOpen]
  cases isOpen : store.isOpen with
  | false => exact refused
  | true =>
      simp only [↓reduceIte]
      rw [run_bind, run_get]
      simp only
      rw [run_bind, run_settleOutcome]
      cases collected : Graph.collect store.id store.memory root with
      | error error => exact refused
      | ok graph =>
          simp only
          cases needed : graph.needsWrite with
          | false =>
              -- A save without anything to write settles no instance.
              refine .kept (.refl store) fun _ subject settles => ?_
              have isNeeded := regular.sound.needsWrite_of_reached inMemory collected settles.1
                settles.2
              rw [needed] at isNeeded
              cases isNeeded
          | true =>
              have fit : ∀ planned ∈ graph.plan session.dialect,
                  planned.content.needsWrite = true → planned.Fit (· ∈ store.registry.mappings) :=
                fun planned member _ => regular.sound.fit_of_plan collected member
              have asks (lease : LeaseId) := @asks_save _ session lease _ _ fit
              simp only [↓reduceIte]
              rw [run_bind]
              generalize ran : (unit session true _).run store = result
              obtain ⟨outcome, between⟩ := result
              have read := (read_unit regular asks).of_run ran
              cases outcome with
              | error error => exact Passed.leaves (by rintro ⟨⟩) (Passed.of_error read)
              | ok written =>
                  obtain ⟨_, _, writing, same, _⟩ := gives_of_unit regular asks ran
                  obtain rfl : written = writing.written := congrArg Prod.fst same
                  obtain ⟨after, ranSettle⟩ := run_settleAll session writing.written between
                  simp only
                  rw [ranSettle]
                  have notes := (Silent.notes read session.thread).trans
                    (notes_settleAll ranSettle)
                  refine .settled (notes.congr fun subject => ?_)
                  rw [false_or]
                  exact exists_written_iff regular.sound inMemory collected writing subject

private theorem leaves_withdraw {subject : InstanceId} (silent : store.Silent between) :
    Ensures (withdraw session subject) between (Leaves session (.remove subject) store) := by
  have notes := (silent.notes session.thread).trans
    (@notes_settle _ session.thread subject Instance.withdraw (fun _ => rfl)
      (fun _ => Or.inr rfl) between)
  exact .settled (notes.congr fun other => by rw [false_or]; rfl)

private theorem leaves_remove {subject : InstanceId} (regular : store.Regular)
    (inMemory : subject < store.memory.size) :
    Ensures (remove session subject) store (Leaves session (.remove subject) store) := by
  have registered := (regular.sound.instanceAt inMemory).registered
  have refused {error : Error} : Leaves session (.remove subject) store (.error error) store :=
    .kept (.refl store) fun impossible => by cases impossible
  unfold Ensures remove
  rw [run_bind, run_ensureOpen]
  cases isOpen : store.isOpen with
  | false => exact refused
  | true =>
      simp only [↓reduceIte]
      rw [run_bind, run_get]
      simp only
      split
      · exact refused
      · exact leaves_withdraw (.refl store)
      · exact refused
      · rename_i id keyed _ _
        have asks (lease : LeaseId) := @asks_removal _ session lease
          (· ∈ store.registry.mappings) (store.instanceAt subject) registered id keyed
        rw [run_bind]
        generalize ran : (deleteRow session (store.instanceAt subject) id).run store = result
        obtain ⟨outcome, between⟩ := result
        have read := (read_unit regular asks).of_run ran
        cases outcome with
        | error error => exact Passed.leaves (by rintro ⟨⟩) read
        | ok done => exact leaves_withdraw read

/-! ### Boundaries -/

theorem BeginEnds.leaves {outcome : Except Error Unit}
    (ends : BeginEnds session store outcome after) :
    Leaves session .begin store outcome after := by
  have nothing (outcome : Except Error Unit) : outcome.isOk = true →
      ∀ subject, ¬(Action.begin).Settles store subject := fun _ _ impossible => impossible
  cases ends with
  | closed _ => exact .kept (.refl store) (nothing _)
  | alreadyOpen _ _ => exact .kept (.refl store) (nothing _)
  | unconnected _ _ _ => exact .kept (passes_of_same rfl rfl) (nothing _)
  | begun _ outside _ _ _ =>
      have free : store.snapshots session.thread = none := Option.map_eq_none_iff.mpr outside
      exact .begun rfl free (snapshots_setTransaction_self _ _ _)
        (fun other apart => snapshots_setTransaction_of_ne _ _ apart)
        ⟨Nat.le_refl _, fun _ _ _ => .refl _⟩
  | refused _ _ _ _ _ => exact .kept (passes_of_same rfl rfl) (nothing _)

theorem CommitEnds.leaves {outcome : Except Error Unit} (sound : store.Sound)
    (ends : CommitEnds session store outcome after) :
    Leaves session .commit store outcome after := by
  cases ends with
  | closed _ => exact .kept (.refl store) fun impossible => by cases impossible
  | notOpen _ _ => exact .kept (.refl store) fun impossible => by cases impossible
  | @committed transaction _ world _ _ _ _ =>
      have written := silent_written transaction.writes store.cache.generation
        ((store.dropTransaction session.thread).withWorld world)
      have kept : (store.dropTransaction session.thread).Kept _ := written.kept
      refine .committed rfl ?_ (fun other apart => ?_)
        ⟨written.spares.size, fun subject => written.spares.stays subject⟩
      · exact (kept session.thread).trans (snapshots_dropTransaction_self _ _)
      · exact (kept other).trans (snapshots_dropTransaction_of_ne _ apart)
  | @refused transaction _ _ world _ _ _ inside _ _ _ =>
      refine .putBack (by rintro ⟨⟩) (@putsBack_of_restored _ _ _ sound _ _ inside
        ((store.dropTransaction session.thread).withWorld world) rfl rfl ?_)
      exact (silent_invalidateOwners _ _).trans (silent_of_same rfl rfl)

theorem RollbackEnds.leaves {outcome : Except Error Unit} (sound : store.Sound)
    (ends : RollbackEnds session store outcome after) :
    Leaves session .rollback store outcome after := by
  cases ends with
  | closed _ => exact .kept (.refl store) fun impossible => by cases impossible
  | notOpen _ _ => exact .kept (.refl store) fun impossible => by cases impossible
  | @rolledBack transaction _ world _ _ inside _ _ =>
      refine .putBack (by rintro ⟨⟩) (@putsBack_of_restored _ _ _ sound _ _ inside
        ((store.dropTransaction session.thread).withWorld world) rfl rfl ?_)
      exact (silent_invalidateOwners _ _).trans (silent_of_same rfl rfl)

end Store

theorem leaves_perform {World : Type} {session : Session World} {store : Store World}
    {action : Action} (regular : store.Regular) (inMemory : action.InMemory store.memory.size) :
    Store.Ensures (action.perform session) store (Leaves session action store) := by
  cases action with
  | save root => exact Store.leaves_save regular inMemory
  | remove subject => exact Store.leaves_remove regular inMemory
  | begin =>
      exact (Store.ensures_beginTransaction session store).weaken fun _ _ ends => ends.leaves
  | commit =>
      exact (Store.ensures_commitTransaction fun _ inside =>
        regular.leased.connection inside).weaken fun _ _ ends => ends.leaves regular.sound
  | rollback =>
      exact (Store.ensures_rollbackTransaction fun _ inside =>
        regular.leased.connection inside).weaken fun _ _ ends => ends.leaves regular.sound
  | close =>
      obtain ⟨after, ends, ran⟩ := Store.run_close session store
      unfold Store.Ensures
      rw [show (Action.close.perform session).run store = (.ok (), after) from ran]
      exact .closed rfl ends
  | _ =>
      refine (Action.passes_perform regular inMemory rfl).weaken fun outcome after passed => ?_
      cases passed with
      | kept passes => exact .kept passes fun _ _ impossible => impossible
      | aborted puts => exact .putBack (by rintro ⟨⟩) puts

end EntityStore
