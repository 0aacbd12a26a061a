/-
Rows that stay current. What one thread saves or removes is the only instance of its key that
knows a row, and its transactions end by commits. Then the row of every instance is held in what
the thread sees.
-/

import EntityStore.Proofs.Bracketing
import EntityStore.Proofs.Loading
import EntityStore.Proofs.Recorded

set_option autoImplicit false

namespace EntityStore

/-! ### What is written -/

namespace Writing

variable {layout : Layout} {registered : Mapping → Prop} {dialect : Dialect}
  {plan : List PlannedNode} {writing : Writing dialect plan} {before after : Ledger}
  {one : Written} (replays : Ledger.Replays layout layout.Answers before writing.log after)
  (sound : Task.SavesWhole registered plan)
include replays sound

private theorem absent_of_completed (isCompleted : one ∈ writing.completed) :
    before.contents.row (layout.address one.planned one.id) = none := by
  have tidy := fun planned member needed => (sound.fit planned member needed).tidy
  obtain ⟨settled, settles, _⟩ := writing.exists_settled tidy replays
  obtain ⟨entry, isInserted, same, sameId, _⟩ := writing.gives_of_completed tidy isCompleted
  rw [same, sameId]
  exact settles.absent entry isInserted

/-- If the changed instances are of different rows, none of them new, then the row of
everything that is written is held in the end. -/
theorem held_of_written (separates : layout.Separates registered)
    (careful : Task.SavesCurrent layout before.contents plan)
    (distinct : (writing.changed.map Written.key).Nodup)
    (apart : ∀ one ∈ writing.completed, ∀ other ∈ writing.changed, other.key ≠ one.key)
    (member : one ∈ writing.written) : layout.Held registered after.contents one.key one.row := by
  obtain ⟨settled, settles, replaysChange⟩ := writing.exists_settled
    (fun planned member needed => (sound.fit planned member needed).tidy) replays
  have inserted : layout.Reflects registered settled.contents fun key row =>
      ∃ one ∈ writing.completed, key = one.key ∧ row = one.row := by
    rintro _ _ ⟨one, isCompleted, rfl, rfl⟩
    exact held_of_completed settles sound isCompleted
  have reflects := writing.changes.reflects replaysChange separates sound.distinct
    (fun planned member dirty => sound.fit planned member (by simp [Instance.needsWrite, dirty]))
    (savesCurrent_settled settles careful) inserted
  rcases List.mem_append.mp member with isCompleted | isChanged
  · refine reflects _ _ (alterAll_of_apart ⟨one, isCompleted, rfl, rfl⟩ fun effect isPut _ => ?_)
    obtain ⟨other, isChanged, rfl⟩ := List.mem_map.mp isPut
    exact apart one isCompleted other isChanged
  · exact reflects _ _ (alterAll_of_put distinct isChanged)

end Writing

theorem Task.Gives.effects_removal {dialect : Dialect} {fits : Mapping → Prop}
    {content : Instance} {writes : WriteSet} {log : List Event}
    (gives : (Task.removal content).Gives dialect fits writes log) :
    writes.effects = [.evict content.key] := by
  cases gives with
  | removal _ _ => exact WriteSet.effects_ofRemoval _ _ _

namespace Store

variable {World : Type} {layout : Layout} {session : Session World}
  {faithful : Faithful layout session.database} {store between after : Store World}
  {root subject : InstanceId} {given : Showing}

/-! ### Saves -/

/-- What a save changes is the only instance of its key that knows a row or is changed by the
save. Where it also inserts, the row of what it changes is there already. -/
structure SavesAlone {database : Database World} (faithful : Faithful layout database)
    (thread : ThreadId) (store : Store World) (root : InstanceId) : Prop where
  sole : ∀ subject, Reaches store.memory root subject →
    (store.instanceAt subject).state = .dirty → ∀ other, other ≠ subject →
    (store.instanceAt other).key = (store.instanceAt subject).key →
    (store.instanceAt other).row = none ∧
      ¬(Reaches store.memory root other ∧ (store.instanceAt other).state = .dirty)
  stored : ∀ added, Reaches store.memory root added →
    (store.instanceAt added).state = .transient → ∀ subject, Reaches store.memory root subject →
    (store.instanceAt subject).state = .dirty → (store.instanceAt subject).row = none →
    ∀ id, (store.instanceAt subject).key.id = some id →
    store.view faithful thread (layout.tableOf (store.instanceAt subject).mapping) id ≠ none

/-- A new instance that refers to no other changes none. -/
theorem savesAlone_of_new {database : Database World} {faithful : Faithful layout database}
    {thread : ThreadId}
    (new : (store.instanceAt root).state = .transient)
    (alone : (Node.ofMemory store.memory root).content.targets = []) :
    store.SavesAlone faithful thread root := by
  have clean {subject : InstanceId} (reaches : Reaches store.memory root subject) :
      (store.instanceAt subject).state ≠ .dirty := by
    rw [eq_of_reaches alone reaches, new]
    exact nofun
  exact ⟨fun subject reaches dirty => absurd dirty (clean reaches),
    fun _ _ _ subject reaches dirty => absurd dirty (clean reaches)⟩

section Rows

variable {thread : ThreadId} (sound : store.Sound)
  (rows : layout.Reflects (· ∈ store.registry.mappings) (store.view faithful thread) store.HasRow)
include sound rows

/-- The row that an instance knows is found in what the thread sees. -/
theorem finds_of_row {row : Row} (present : (store.instanceAt subject).state ≠ .removed)
    (known : (store.instanceAt subject).row = some row) :
    layout.Finds (store.instanceAt subject).mapping (store.view faithful thread)
      (store.instanceAt subject).key (some row) := by
  have content := sound.instanceAt (inMemory_of_present present)
  exact (rows _ row ⟨subject, rfl, known⟩).finds sound.registry content.registered
    content.sound.entity

variable (alone : store.SavesAlone faithful thread root)
include alone

theorem SavesAlone.savesCurrent
    (separates : layout.Separates (· ∈ store.registry.mappings)) :
    store.SavesCurrent faithful thread root := by
  refine ⟨fun subject _ dirty row id known isId => ?_,
    fun first second toFirst toSecond firstDirty secondDirty sameTable sameId => ?_⟩
  · obtain ⟨other, fields, isOther, found, agrees⟩ :=
      finds_of_row sound rows (by rw [dirty]; exact nofun) known
    obtain rfl : other = id := Option.some.inj (isOther.symm.trans isId)
    exact ⟨fields, found, agrees⟩
  · by_contra different
    have firstSound := sound.instanceAt (inMemory_of_present (by rw [firstDirty]; exact nofun))
    have secondSound := sound.instanceAt (inMemory_of_present (by rw [secondDirty]; exact nofun))
    have sameType := separates _ _ firstSound.registered secondSound.registered sameTable
    have sameKey : (store.instanceAt second).key = (store.instanceAt first).key := by
      refine congrArg₂ Key.mk ?_ sameId.symm
      exact secondSound.sound.entity.trans
        ((congrArg Mapping.entity sameType).symm.trans firstSound.sound.entity.symm)
    exact (alone.sole first toFirst firstDirty second (Ne.symm different) sameKey).2
      ⟨toSecond, secondDirty⟩

theorem SavesAlone.present {added : InstanceId} (toAdded : Reaches store.memory root added)
    (isNew : (store.instanceAt added).state = .transient)
    (reaches : Reaches store.memory root subject)
    (dirty : (store.instanceAt subject).state = .dirty) {id : Int64}
    (isId : (store.instanceAt subject).key.id = some id) :
    store.view faithful thread (layout.tableOf (store.instanceAt subject).mapping) id ≠ none := by
  cases known : (store.instanceAt subject).row with
  | none => exact alone.stored added toAdded isNew subject reaches dirty known id isId
  | some row =>
      obtain ⟨other, fields, isOther, found, _⟩ :=
        finds_of_row sound rows (by rw [dirty]; exact nofun) known
      obtain rfl : other = id := Option.some.inj (isOther.symm.trans isId)
      intro missing
      exact nomatch missing.symm.trans found

end Rows

section Saved

variable {graph : Graph} {dialect : Dialect}
  {writing : Writing dialect (graph.plan dialect)} {one : Written}

theorem Sound.of_completed (sound : store.Sound) (inMemory : root < store.memory.size)
    (collected : Graph.collect store.id store.memory root = .ok graph)
    (isCompleted : one ∈ writing.completed) :
    Reaches store.memory root one.planned.node.subject ∧
      (store.instanceAt one.planned.node.subject).state = .transient := by
  have isPlanned := writing.planned_mem (List.mem_append_left _ isCompleted)
  refine ⟨sound.reaches_of_plan inMemory collected isPlanned, ?_⟩
  rw [sound.instanceAt_plan collected isPlanned]
  exact of_decide_eq_true (writing.isNew_of_completed isCompleted)

theorem Sound.of_changed (sound : store.Sound) (inMemory : root < store.memory.size)
    (collected : Graph.collect store.id store.memory root = .ok graph)
    (isChanged : one ∈ writing.changed) :
    Reaches store.memory root one.planned.node.subject ∧
      (store.instanceAt one.planned.node.subject).state = .dirty ∧
      (store.instanceAt one.planned.node.subject).mapping = one.planned.mapping ∧
      (store.instanceAt one.planned.node.subject).key = one.key := by
  obtain ⟨isPlanned, dirty, isId⟩ := writing.changes.of_changed isChanged
  have content := (sound.of_plan collected isPlanned).2.2
  refine ⟨sound.reaches_of_plan inMemory collected isPlanned, ?_⟩
  rw [sound.instanceAt_plan collected isPlanned]
  exact ⟨dirty, rfl, congrArg₂ Key.mk content.sound.entity isId⟩

variable (regular : store.Regular) (inMemory : root < store.memory.size)
  (rows : layout.Reflects (· ∈ store.registry.mappings) (store.view faithful session.thread)
    store.HasRow)
  (alone : store.SavesAlone faithful session.thread root)
include regular inMemory alone

theorem SavesAlone.nodup_changed
    (collected : Graph.collect store.id store.memory root = .ok graph) :
    (writing.changed.map Written.key).Nodup := by
  have distinct : (writing.changed.map Written.planned).Nodup :=
    writing.changes.sublist.nodup (List.Nodup.of_map _ (Graph.places_plan dialect graph))
  have subjects := nodup_subjects collected
    (fun one member => (writing.changes.of_changed member).1) distinct
  refine distinct.of_map.map_on fun first isFirst second isSecond same => ?_
  by_contra different
  have apart : second.planned.node.subject ≠ first.planned.node.subject := fun equal =>
    different (List.inj_on_of_nodup_map subjects isFirst isSecond equal.symm)
  obtain ⟨toFirst, firstDirty, _, firstKey⟩ :=
    regular.sound.of_changed inMemory collected isFirst
  obtain ⟨toSecond, secondDirty, _, secondKey⟩ :=
    regular.sound.of_changed inMemory collected isSecond
  have sameKey := secondKey.trans (same.symm.trans firstKey.symm)
  exact (alone.sole _ toFirst firstDirty _ apart sameKey).2 ⟨toSecond, secondDirty⟩

include rows

/-- Nothing that is inserted has the key of something that is changed, or of an instance that
knows a row. -/
theorem SavesAlone.key_ne_of_completed {before after : Ledger}
    (collected : Graph.collect store.id store.memory root = .ok graph)
    (same : before.contents = store.view faithful session.thread)
    (replays : Ledger.Replays layout layout.Answers before writing.log after)
    (isCompleted : one ∈ writing.completed) :
    (∀ other ∈ writing.changed, other.key ≠ one.key) ∧
      ∀ key row, store.HasRow key row → key ≠ one.key := by
  have sound := regular.sound
  have whole : Task.SavesWhole (· ∈ store.registry.mappings) (graph.plan dialect) :=
    sound.savesWhole collected
  have absent := writing.absent_of_completed replays whole isCompleted
  rw [same] at absent
  obtain ⟨toAdded, isNew⟩ := sound.of_completed inMemory collected isCompleted
  have isPlanned := writing.planned_mem (List.mem_append_left _ isCompleted)
  have registered := (sound.fit_of_plan collected isPlanned).fits
  refine ⟨fun other isChanged sameKey => ?_, ?_⟩
  · obtain ⟨reaches, dirty, sameMapping, isKey⟩ := sound.of_changed inMemory collected isChanged
    have isId : (store.instanceAt other.planned.node.subject).key.id = some one.id :=
      congrArg Key.id (isKey.trans sameKey)
    have present := alone.present sound rows toAdded isNew reaches dirty isId
    have content := (sound.instanceAt (inMemory_of_present (by rw [dirty]; exact nofun)))
    have sameType : (store.instanceAt other.planned.node.subject).mapping = one.planned.mapping :=
      sound.registry.unique content.registered registered
        (content.sound.entity.symm.trans (congrArg Key.entityType (isKey.trans sameKey)))
    rw [sameType] at present
    exact present absent
  · rintro _ row has rfl
    obtain ⟨id, fields, isId, found, _⟩ := (rows _ row has).finds sound.registry registered rfl
    cases isId
    exact nomatch absent.symm.trans found

end Saved

private theorem held_of_save (regular : store.Regular) (orderly : store.Orderly faithful)
    (fits : ∀ mapping ∈ store.registry.mappings, layout.Fits mapping)
    (separates : layout.Separates (· ∈ store.registry.mappings))
    (inMemory : root < store.memory.size)
    (rows : layout.Reflects (· ∈ store.registry.mappings) (store.view faithful session.thread)
      store.HasRow)
    (alone : store.SavesAlone faithful session.thread root)
    (ran : (save session root).run store = (.ok (), after)) :
    layout.Reflects (· ∈ store.registry.mappings) (after.view faithful session.thread)
      after.HasRow := by
  have sound := regular.sound
  obtain ⟨graph, _, collected, ends⟩ := save_ok regular ran
  cases ends with
  | unchanged _ => exact rows
  | @written written between _ unit settled =>
      obtain ⟨_, _, ⟨writing, same, rfl⟩, _, _, _, replays⟩ := unit.replayed regular orderly fits
      cases same
      have silent : store.Silent between := unit.read sound
      have inMemoryStill : ∀ one ∈ writing.written,
          one.planned.node.subject < between.memory.size := fun one member =>
        silent.size.symm ▸ (sound.of_plan collected (writing.planned_mem member)).1
      have whole : Task.SavesWhole (· ∈ store.registry.mappings) (graph.plan session.dialect) :=
        sound.savesWhole collected
      have careful : Task.SavesCurrent layout (store.view faithful session.thread)
          (graph.plan session.dialect) :=
        (alone.savesCurrent sound rows separates).plan sound inMemory collected
      have fresh {one : Written} (isCompleted : one ∈ writing.completed) :=
        alone.key_ne_of_completed regular inMemory rows collected rfl replays isCompleted
      rw [(quiet_settleAll inMemoryStill settled).view]
      rintro key row ⟨subject, isKey, isRow⟩
      by_cases isWritten : ∃ one ∈ writing.written, one.planned.node.subject = subject
      · obtain ⟨one, member, rfl⟩ := isWritten
        obtain ⟨sameKey, _, sameRow⟩ :=
          instanceAt_of_written regular collected writing unit settled member inMemory
        obtain rfl : one.row = row := Option.some.inj (sameRow.symm.trans isRow)
        rw [← isKey, sameKey]
        exact writing.held_of_written replays whole separates careful
          (alone.nodup_changed regular inMemory collected)
          (fun one isCompleted => (fresh isCompleted).1) member
      · -- What is not written has another key than all that is.
        have kept : after.instanceAt subject = between.instanceAt subject :=
          instanceAt_settleAll_of_ne settled fun one member same => isWritten ⟨one, member, same⟩
        rw [kept] at isKey isRow
        have look := silent.look subject
        have known : (store.instanceAt subject).row = some row :=
          (congrArg Snapshot.row look).symm.trans isRow
        have named : (store.instanceAt subject).key = key :=
          (congrArg Snapshot.key look).symm.trans isKey
        have has : store.HasRow key row := ⟨subject, named, known⟩
        have apart : ∀ one ∈ writing.written, one.key ≠ key := by
          intro one member same
          rcases List.mem_append.mp member with isCompleted | isChanged
          · exact (fresh isCompleted).2 key row has same.symm
          · obtain ⟨reaches, dirty, _, oneKey⟩ := sound.of_changed inMemory collected isChanged
            have different : subject ≠ one.planned.node.subject :=
              fun equal => isWritten ⟨one, member, equal.symm⟩
            have unknown := (alone.sole _ reaches dirty subject different
              (named.trans (same.symm.trans oneKey.symm))).1
            exact nomatch unknown.symm.trans known
        have reflects := writing.reflects replays separates whole careful
          (fun other content (only : other = key ∧ content = row) =>
            rows other content (only.1 ▸ only.2 ▸ has))
        refine reflects key row ?_
        unfold WriteSet.alter
        rw [WriteSet.effects_ofWritten]
        refine alterAll_of_apart ⟨rfl, rfl⟩ fun effect isPut _ => ?_
        obtain ⟨one, member, rfl⟩ := List.mem_map.mp isPut
        exact apart one member

/-- A save that fails changes no row and nothing that its thread sees, or it ends the thread's
transaction. -/
theorem gains_of_save_error (regular : store.Regular) (orderly : store.Orderly faithful)
    (fits : ∀ mapping ∈ store.registry.mappings, layout.Fits mapping) :
    Ensures (save session root) store fun outcome after =>
      outcome.isOk = false → GainsOrAborts faithful given store false after := by
  unfold Ensures save
  rw [run_bind, run_ensureOpen]
  cases isOpen : store.isOpen with
  | false => exact fun _ => Or.inl (.refl store)
  | true =>
      simp only [↓reduceIte]
      rw [run_bind, run_get]
      simp only
      rw [run_bind, run_settleOutcome]
      cases collected : Graph.collect store.id store.memory root with
      | error error => exact fun _ => Or.inl (.refl store)
      | ok graph =>
          simp only
          cases needed : graph.needsWrite with
          | false => exact fun impossible => by cases impossible
          | true =>
              have fit : ∀ planned ∈ graph.plan session.dialect,
                  planned.content.needsWrite = true → planned.Fit (· ∈ store.registry.mappings) :=
                fun planned member _ => regular.sound.fit_of_plan collected member
              have asks (lease : LeaseId) := @asks_save _ session lease _ _ fit
              simp only [↓reduceIte]
              rw [run_bind]
              generalize ran : (unit session true _).run store = result
              obtain ⟨outcome, between⟩ := result
              have ends := (@ensures_unit _ _ session _ _ true _ store asks fun _ inside =>
                regular.leased.connection inside).of_run ran
              cases outcome with
              | error error => exact fun _ => ends.gains_of_error regular orderly fits
              | ok written =>
                  obtain ⟨after, settled⟩ := run_settleAll session written between
                  simp only
                  rw [settled]
                  exact fun impossible => by cases impossible

/-! ### Removals -/

private theorem hasRow_of_withdraw (inMemory : subject < store.memory.size)
    (ran : (withdraw session subject).run store = (.ok (), after)) {key : Key} {row : Row}
    (has : after.HasRow key row) :
    ∃ other, other ≠ subject ∧ (store.instanceAt other).key = key ∧
      (store.instanceAt other).row = some row := by
  obtain ⟨other, isKey, isRow⟩ := has
  have look := look_withdraw inMemory ran
  by_cases own : other = subject
  · subst own
    have nothing : (after.instanceAt other).row = none := congrArg Snapshot.row look
    exact nomatch nothing.symm.trans isRow
  · cases ran
    rw [instanceAt_modifyInstance, instanceAt_rememberInTransaction,
      if_neg fun both => own both.1] at isKey isRow
    exact ⟨other, own, isKey, isRow⟩

/-- After a removal that succeeds the row of every instance is held, if the removed one was the
only one of its key that knew a row. -/
theorem held_of_removal (regular : store.Regular) (orderly : store.Orderly faithful)
    (fits : ∀ mapping ∈ store.registry.mappings, layout.Fits mapping)
    (separates : layout.Separates (· ∈ store.registry.mappings))
    (inMemory : subject < store.memory.size)
    (keyed : layout.Keyed (store.view faithful session.thread))
    (rows : layout.Reflects (· ∈ store.registry.mappings) (store.view faithful session.thread)
      store.HasRow)
    (alone : ∀ other, other ≠ subject →
      (store.instanceAt other).key = (store.instanceAt subject).key →
      (store.instanceAt other).row = none)
    (ran : (remove session subject).run store = (.ok (), after)) :
    layout.Reflects (· ∈ store.registry.mappings) (after.view faithful session.thread)
      after.HasRow := by
  obtain ⟨between, withdrawn, new | ends⟩ := remove_ok regular inMemory ran
  · obtain ⟨_, rfl⟩ := new
    rw [(quiet_withdraw inMemory withdrawn).view]
    intro key row has
    obtain ⟨other, _, isKey, isRow⟩ := hasRow_of_withdraw inMemory withdrawn has
    exact rows key row ⟨other, isKey, isRow⟩
  · have silent : store.Silent between := ends.read regular.sound
    have inMemoryStill : subject < between.memory.size := silent.size.symm ▸ inMemory
    obtain ⟨writes, log, gives, _, _, _, replays⟩ := ends.replayed regular orderly fits
    have content := regular.sound.instanceAt inMemory
    have reflects := gives.reflects replays fits separates keyed
      ⟨content.registered, content.sound.entity⟩ trivial rows
    rw [(quiet_withdraw inMemoryStill withdrawn).view]
    intro key row has
    obtain ⟨other, apart, isKey, isRow⟩ := hasRow_of_withdraw inMemoryStill withdrawn has
    have look := silent.look other
    have known : (store.instanceAt other).row = some row :=
      (congrArg Snapshot.row look).symm.trans isRow
    have named : (store.instanceAt other).key = key :=
      (congrArg Snapshot.key look).symm.trans isKey
    refine reflects key row ?_
    unfold WriteSet.alter
    rw [gives.effects_removal]
    refine ⟨fun same => ?_, other, named, known⟩
    exact nomatch (alone other apart (named.trans same)).symm.trans known

private theorem gains_of_removal_error (regular : store.Regular) (orderly : store.Orderly faithful)
    (fits : ∀ mapping ∈ store.registry.mappings, layout.Fits mapping)
    (inMemory : subject < store.memory.size) :
    Ensures (remove session subject) store fun outcome after =>
      outcome.isOk = false → GainsOrAborts faithful given store false after := by
  have registered := (regular.sound.instanceAt inMemory).registered
  unfold Ensures remove
  rw [run_bind, run_ensureOpen]
  cases isOpen : store.isOpen with
  | false => exact fun _ => Or.inl (.refl store)
  | true =>
      simp only [↓reduceIte]
      rw [run_bind, run_get]
      simp only
      split
      · exact fun _ => Or.inl (.refl store)
      · exact fun impossible => by cases impossible
      · exact fun _ => Or.inl (.refl store)
      · rename_i id keyed _ _
        have asks (lease : LeaseId) := @asks_removal _ session lease
          (· ∈ store.registry.mappings) (store.instanceAt subject) registered id keyed
        rw [run_bind]
        generalize ran : (deleteRow session (store.instanceAt subject) id).run store = result
        obtain ⟨outcome, between⟩ := result
        have ends := (@ensures_unit _ _ session _ _ true _ store asks fun _ inside =>
          regular.leased.connection inside).of_run ran
        cases outcome with
        | error error => exact fun _ => ends.gains_of_error regular orderly fits
        | ok done => exact fun impossible => by cases impossible

/-! ### Stores whose rows are current -/

/-- The rows of instances are held in what a thread sees, and nobody else is in a transaction. The
cache agrees with what is published, and will after a commit with what the thread sees. -/
structure Current {database : Database World} (faithful : Faithful layout database)
    (thread : ThreadId) (store : Store World) : Prop where
  coherent : store.Coherent faithful thread
  putOff : Deployment.PutOff thread store
  rows : layout.Reflects (· ∈ store.registry.mappings) (store.view faithful thread) store.HasRow
  others : ∀ other, other ≠ thread → store.transaction? other = none

/-- What is in the cache is held in what the thread sees: what the thread has changed is not in
the cache before the commit. -/
theorem Current.cached (current : store.Current faithful session.thread) :
    layout.Backs (· ∈ store.registry.mappings) (store.view faithful session.thread)
      store.cache.Shows := by
  refine ⟨current.coherent.seen.keyed, fun key row isShown =>
    current.coherent.seen.reflects key row (alterAll_of_apart isShown fun effect member _ same => ?_)⟩
  have hidden := current.putOff.hidden effect member
  rw [same] at hidden
  exact nomatch hidden.symm.trans isShown

private theorem putOff_of_owed {thread : ThreadId} (nothing : store.owed thread = {}) :
    Deployment.PutOff thread store := by
  refine ⟨?_, ?_, ?_⟩ <;>
    · rw [nothing]
      exact nofun

end Store

/-! ### Acts -/

namespace Action

variable {World : Type} {layout : Layout} {session : Session World}
  {faithful : Faithful layout session.database} {store after : Store World} {action : Action}
  {outcome : Except Error Unit}

/-- No table is dropped, and what is saved or removed is the only instance of its key that knows
a row. -/
def Solely {database : Database World} (faithful : Faithful layout database) (thread : ThreadId)
    (store : Store World) : Action → Prop
  | save root => store.SavesAlone faithful thread root
  | remove subject => ∀ other, other ≠ subject →
      (store.instanceAt other).key = (store.instanceAt subject).key →
      (store.instanceAt other).row = none
  | drop => False
  | _ => True

/-- The action ends the transaction of its thread only by committing it. -/
def Concludes (session : Session World) (store : Store World) (action : Action) : Prop :=
  Store.Ensures (action.perform session) store fun outcome after =>
    store.inTransaction session.thread = true →
    after.inTransaction session.thread = true ∨ (action = .commit ∧ outcome.isOk = true)

theorem concludes_of_outside (outside : store.inTransaction session.thread = false) :
    action.Concludes session store := by
  intro inside
  exact nomatch outside.symm.trans inside

theorem Solely.careful (sound : store.Sound)
    (separates : layout.Separates (· ∈ store.registry.mappings))
    (current : store.Current faithful session.thread)
    (solely : action.Solely faithful session.thread store) :
    action.Careful faithful session.thread store := by
  cases action with
  | save root => exact Store.SavesAlone.savesCurrent sound current.rows solely separates
  | drop => exact solely.elim
  | _ => exact trivial

section Boundaries

variable (regular : store.Regular) (orderly : store.Orderly faithful)
  (ran : (action.perform session).run store = (outcome, after))
include regular orderly ran

/-- Where a transaction begins, and where it is committed, the thread sees what it saw, and
instances are left alone. -/
theorem keeps_of_boundary
    (others : ∀ other, other ≠ session.thread → store.transaction? other = none)
    (bounds : action.boundary? ≠ none) (concludes : action.Concludes session store) :
    after.view faithful session.thread = store.view faithful session.thread ∧
      ∀ subject, after.look subject = store.look subject := by
  have leased := fun transaction isInside => regular.leased.connection
    (show store.transaction? session.thread = some transaction from isInside)
  have concluded := concludes.of_run ran
  have unchanged (same : after = store) :
      after.view faithful session.thread = store.view faithful session.thread ∧
        ∀ subject, after.look subject = store.look subject :=
    same ▸ ⟨rfl, fun _ => rfl⟩
  cases inside : store.inTransaction session.thread with
  | true =>
      rcases concluded inside with still | ⟨rfl, isOk⟩
      · exact unchanged (eq_of_boundary regular ran inside bounds still)
      · cases outcome with
        | error error => cases isOk
        | ok done =>
            have ends : Store.CommitEnds session store (.ok ()) after :=
              (Store.ensures_commitTransaction leased).of_run ran
            obtain ⟨even, published⟩ := Store.even_of_commits orderly ends
            refine ⟨even.view.trans published, fun subject => ?_⟩
            cases ends with
            | @committed transaction _ world _ _ _ _ =>
                exact (Store.silent_written transaction.writes store.cache.generation
                  ((store.dropTransaction session.thread).withWorld world)).look subject
  | false =>
      have outside : store.transaction? session.thread = none :=
        Option.not_isSome_iff_eq_none.mp (Bool.not_eq_true _ ▸ inside)
      cases action with
      | begin =>
          have ends := (Store.ensures_beginTransaction session store).of_run ran
          have looks : ∀ subject, after.look subject = store.look subject := by
            cases ends <;> exact fun _ => rfl
          refine ⟨?_, looks⟩
          rcases Store.even_of_begins regular orderly ends with rfl | ⟨_, published, even⟩
          · rfl
          · rw [even.view, published, Store.view_of_outside outside]
      | commit =>
          exact unchanged
            (((Store.ensures_commitTransaction leased).of_run ran).eq_of_outside outside)
      | rollback =>
          exact unchanged
            (((Store.ensures_rollbackTransaction leased).of_run ran).eq_of_outside outside)
      | close =>
          obtain ⟨closed, ends, ranClose⟩ := Store.run_close session store
          obtain rfl : closed = after := congrArg Prod.snd (ranClose.symm.trans ran)
          have published := Store.published_of_closes regular orderly ends
          cases ends with
          | again _ => exact unchanged rfl
          | @closed between isOpen abandoned =>
              have free : ∀ thread, store.transaction? thread = none := by
                intro thread
                by_cases own : thread = session.thread
                · rw [own]
                  exact outside
                · exact others thread own
              rw [show store.transactions = [] from Store.transactions_eq_nil free] at abandoned
              cases abandoned
              refine ⟨?_, fun _ => rfl⟩
              rw [Store.view_of_outside outside, Store.view_of_outside (by rfl), published]
      | _ => exact absurd rfl bounds

end Boundaries

/-- Where only held rows are gained, and a failure ends no transaction, rows stay held. -/
theorem reflects_of_gains {ok : Bool}
    (rows : layout.Reflects (· ∈ store.registry.mappings) (store.view faithful session.thread)
      store.HasRow)
    (gains : Store.GainsOrAborts faithful
      (layout.Held (· ∈ store.registry.mappings) (store.view faithful session.thread))
      store ok after)
    (concluded : store.inTransaction session.thread = true →
      after.inTransaction session.thread = true ∨ ok = true) :
    layout.Reflects (· ∈ store.registry.mappings) (after.view faithful session.thread)
      after.HasRow := by
  obtain gained | ⟨rfl, inside, ended⟩ := gains
  · intro key row has
    rw [gained.sees]
    exact (gained.rows key row has).elim (rows key row) id
  · rcases concluded inside with still | impossible
    · exact nomatch ended.symm.trans still
    · cases impossible

section Acts

variable (current : store.Current faithful session.thread) (regular : store.Regular)
  (orderly : store.Orderly faithful) (inMemory : action.InMemory store.memory.size)
  (solely : action.Solely faithful session.thread store)
  (concludes : action.Concludes session store)
  (ran : (action.perform session).run store = (outcome, after))
include current regular orderly inMemory solely concludes ran

private theorem held_of_act (fits : ∀ mapping ∈ store.registry.mappings, layout.Fits mapping)
    (separates : layout.Separates (· ∈ store.registry.mappings)) :
    layout.Reflects (· ∈ store.registry.mappings) (after.view faithful session.thread)
      after.HasRow := by
  have rows := current.rows
  have concluded : store.inTransaction session.thread = true →
      after.inTransaction session.thread = true ∨ outcome.isOk = true :=
    fun inside => (concludes.of_run ran inside).imp_right And.right
  have failed (error : Error) (isError : outcome = .error error)
      (gains : outcome.isOk = false → Store.GainsOrAborts faithful
        (layout.Held (· ∈ store.registry.mappings) (store.view faithful session.thread))
        store false after) := by
    subst isError
    exact reflects_of_gains rows (gains rfl) concluded
  cases looks : action.looksOnly with
  | true =>
      have supplies := Store.supplies_held regular orderly fits current.cached
      exact reflects_of_gains rows
        ((gaining_perform regular orderly fits supplies inMemory looks).of_run ran) concluded
  | false =>
      cases action with
      | save root =>
          cases ended : outcome with
          | error error =>
              exact failed error ended ((Store.gains_of_save_error regular orderly fits).of_run ran)
          | ok done =>
              subst ended
              exact Store.held_of_save regular orderly fits separates inMemory rows solely ran
      | remove subject =>
          cases ended : outcome with
          | error error =>
              exact failed error ended
                ((Store.gains_of_removal_error regular orderly fits inMemory).of_run ran)
          | ok done =>
              subst ended
              exact Store.held_of_removal regular orderly fits separates inMemory
                current.coherent.seen.keyed rows solely ran
      | drop => exact solely.elim
      | begin | commit | rollback | close =>
          obtain ⟨view, looksSame⟩ := keeps_of_boundary regular orderly ran current.others
            nofun concludes
          rw [view]
          intro key row has
          have kept : store.HasRow key row ∨ False :=
            @Store.rows_of_looks _ _ _ (fun _ _ => False) looksSame key row has
          exact kept.elim (rows key row) False.elim
      | _ => cases looks

theorem current_of_act (roomy : store.cache.Roomy)
    (fits : ∀ mapping ∈ after.registry.mappings, layout.Fits mapping)
    (separates : layout.Separates (· ∈ after.registry.mappings)) :
    after.Current faithful session.thread := by
  have course := (follows_perform regular inMemory).of_run ran
  have fitsBefore : ∀ mapping ∈ store.registry.mappings, layout.Fits mapping :=
    course.grows.forall_registered fits
  have separatesBefore : layout.Separates (· ∈ store.registry.mappings) :=
    separates.mono course.grows.registered
  have careful := solely.careful regular.sound separatesBefore current
  refine ⟨?_, ?_, ?_, ?_⟩
  · exact course.coherent regular orderly fits separates
      (fun _ => sound_of_poses regular.sound inMemory)
      (fun _ => careful_of_poses regular.sound inMemory careful) current.coherent
  · cases still : after.inTransaction session.thread with
    | false =>
        have outside : after.transaction? session.thread = none :=
          Option.not_isSome_iff_eq_none.mp (Bool.not_eq_true _ ▸ still)
        have even : after.Even faithful session.thread := Store.even_of_outside outside
        exact Store.putOff_of_owed even.owed
    | true =>
        cases inside : store.inTransaction session.thread with
        | true =>
            exact (Deployment.withholds_of_act regular roomy inMemory ran inside still
              current.putOff).2
        | false =>
            obtain ⟨rfl, _⟩ := begins_of_inTransaction regular inMemory ran inside still
            have ends := (Store.ensures_beginTransaction session store).of_run ran
            rcases Store.even_of_begins regular orderly ends with rfl | ⟨_, _, even⟩
            · exact nomatch inside.symm.trans still
            · exact Store.putOff_of_owed even.owed
  · intro key row has
    obtain ⟨mapping, id, fields, registered, rest⟩ := held_of_act current regular orderly inMemory
      solely concludes ran fitsBefore separatesBefore key row has
    exact ⟨mapping, id, fields, course.grows.registered mapping registered, rest⟩
  · intro other different
    have free := current.others other different
    by_cases begins : action = .begin
    · subst begins
      cases (Store.ensures_beginTransaction session store).of_run ran with
      | begun _ _ _ _ _ =>
          exact (Store.transaction?_setTransaction_of_ne _ _ different).trans free
      | closed _ | alreadyOpen _ _ | unconnected _ _ _ | refused _ _ _ _ _ => exact free
    · exact (course.retains (fun posed => begins (Deployment.poses_begin posed)) other).outside free

end Acts

end Action

/-! ### Runs -/

namespace Deployment

variable {World : Type} {layout : Layout} {deployment : Deployment World}
  {faithful : Faithful layout deployment.database} {thread : ThreadId} {store : Store World}

/-- One thread acts. What it saves or removes is the only instance of its key that knows a row,
and its transactions end by commits. -/
def Solely (faithful : Faithful layout deployment.database) (thread : ThreadId)
    (store : Store World) (other : ThreadId) (action : Action) : Prop :=
  other = thread ∧ action.Solely faithful thread store ∧
    action.Concludes (deployment.session thread) store

theorem Reached.current (rest : faithful.AtRest deployment.world)
    (keyed : layout.Keyed (faithful.published deployment.world))
    (reached : deployment.Reached (Solely faithful thread) store)
    (fits : ∀ mapping ∈ store.registry.mappings, layout.Fits mapping)
    (separates : layout.Separates (· ∈ store.registry.mappings)) :
    store.Current faithful thread := by
  induction reached with
  | created created =>
      obtain ⟨pool, made, rfl⟩ := create_ok created
      obtain ⟨_, same⟩ := Faithful.same_create rest.valid made
      refine ⟨(Store.even_of_outside rfl).coherent ⟨?_, fun _ _ impossible => by cases impossible⟩,
        Store.putOff_of_owed rfl, ?_, fun _ _ => rfl⟩
      · show layout.Keyed (faithful.published pool.world)
        rw [same.published]
        exact keyed
      · rintro key row ⟨subject, _, impossible⟩
        cases impossible
  | @acted store after other action outcome reached allowed inMemory ran ih =>
      obtain ⟨rfl, solely, concludes⟩ := allowed
      have course := (Action.follows_perform reached.regular inMemory).of_run ran
      have fitsBefore : ∀ mapping ∈ store.registry.mappings, layout.Fits mapping :=
        course.grows.forall_registered fits
      have current := ih fitsBefore (separates.mono course.grows.registered)
      exact @Action.current_of_act _ _ (deployment.session other) faithful _ _ _ _ current
        reached.regular (reached.orderly rest fitsBefore) inMemory solely concludes ran
        (reached.cache Cache.closed_roomy (Cache.roomy_empty _)) fits separates

end Deployment
end EntityStore
