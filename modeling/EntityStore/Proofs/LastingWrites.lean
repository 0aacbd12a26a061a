/-
Saves and removals in a transaction that lasts. One that fails has done nothing; one that
succeeds has done its work on the connection of the transaction, has hidden the keys that it
wrote, and leaves the rows alone under all other ids. So what the transaction sees of a row
stays until its thread writes the row again.
-/

import EntityStore.Proofs.SavedValues
import EntityStore.Proofs.Unpublished

set_option autoImplicit false

namespace EntityStore

section Tasks

variable {layout : Layout} {honest : Contents → Statement → List Row → Prop} {dialect : Dialect}
  {before after : Ledger}

theorem Writing.row_eq {plan : List PlannedNode} (writing : Writing dialect plan)
    (tidy : ∀ planned ∈ plan, planned.content.needsWrite = true → planned.Tidy)
    (replays : Ledger.Replays layout honest before writing.log after) {address : String × Int64}
    (apart : ∀ one ∈ writing.written, layout.address one.planned one.id ≠ address) :
    after.contents.row address = before.contents.row address := by
  obtain ⟨settled, settles, replaysChange⟩ := writing.exists_settled tidy replays
  rw [writing.changes.frame replaysChange, settles.frame]
  · intro entry isInserted
    obtain ⟨one, isCompleted, same, sameId⟩ := writing.exists_completed isInserted
    rw [← same, ← sameId]
    exact apart one (List.mem_append_left _ isCompleted)
  · rintro planned isPlanned ⟨dirty, id, keyed, here⟩
    obtain ⟨one, isChanged, rfl⟩ :=
      writing.changes.exists_changed isPlanned dirty (Option.isSome_of_eq_some keyed)
    obtain ⟨_, _, keyedOne⟩ := writing.changes.of_changed isChanged
    obtain rfl := Option.some.inj (keyedOne.symm.trans keyed)
    exact apart one (List.mem_append_right _ isChanged) here

theorem Inserted.exists_executed {ids known : Ids} {insertions : List Waiting}
    {inserted : List (Waiting × Written)} {log : List Event}
    (inserts : Inserted dialect ids insertions inserted known log) (some : inserted ≠ []) :
    ∃ statement, .executed statement ∈ log := by
  cases inserts with
  | nil _ => exact absurd rfl some
  | known _ _ => exact ⟨_, List.mem_cons_self⟩
  | generated _ _ => exact ⟨_, List.mem_cons_self⟩

/-- A removal leaves the rows under other ids alone. -/
theorem row_eq_of_removal {content : Instance} {id : Int64} {row : Option Row} {log : List Event}
    (known : RowKnown dialect content id row log)
    (replays : Ledger.Replays layout honest before
      (log ++ [.executed (Statement.delete dialect content.mapping id)]) after)
    (address : String × Int64) : after.contents.row address =
      if address = (layout.tableOf content.mapping, id) then none
      else before.contents.row address := by
  rw [known.contents_eq replays]
  split
  · rename_i here
    rw [here]
    exact before.contents.row_set_self (layout.tableOf content.mapping, id) none
  · rename_i elsewhere
    exact @Contents.row_set_of_ne _ (layout.tableOf content.mapping, id) _ none elsewhere

end Tasks

namespace Store

variable {World α : Type} {layout : Layout} {session : Session World}
  {faithful : Faithful layout session.database} {store between after : Store World}
  {connection : ConnectionId} {address : String × Int64} {row : Option Fields}

/-! ### How saves and removals end -/

theorem quiet_settleAll {written : List Written}
    (inMemory : ∀ one ∈ written, one.planned.node.subject < store.memory.size)
    (ran : (settleAll session written).run store = (.ok (), after)) : store.Quiet after := by
  induction written generalizing store with
  | nil =>
      cases ran
      exact .refl _
  | cons one rest ih =>
      rw [run_settleAll_cons] at ran
      have notes := quiet_rememberInTransaction session.thread (inMemory one List.mem_cons_self)
      have settles := @quiet_modifyInstance _
        (store.rememberInTransaction session.thread one.planned.node.subject)
        (fun content => content.settle one.id one.row) one.planned.node.subject
        (fun _ => rfl) fun _ _ sound => sound.settle one.id one.row
      have first := notes.trans settles
      exact first.trans (ih (fun other member =>
        Nat.lt_of_lt_of_le (inMemory other (List.mem_cons_of_mem one member)) first.size) ran)

theorem quiet_withdraw {subject : InstanceId} (inMemory : subject < store.memory.size)
    (ran : (withdraw session subject).run store = (.ok (), after)) : store.Quiet after := by
  cases ran
  exact (quiet_rememberInTransaction session.thread inMemory).trans
    (quiet_modifyInstance (fun _ => rfl) fun _ _ sound => sound.withdraw)

inductive SaveLasts (session : Session World) (connection : ConnectionId) (store : Store World)
    (root : InstanceId) : Except Error Unit → Store World → Prop where
  | refused (error : Error) : SaveLasts session connection store root (.error error) store
  | unchanged {graph : Graph} : Graph.collect store.id store.memory root = .ok graph →
      graph.needsWrite = false → SaveLasts session connection store root (.ok ()) store
  | worked {graph : Graph} {after : Store World}
      (writing : Writing session.dialect (graph.plan session.dialect)) :
      Graph.collect store.id store.memory root = .ok graph →
      Asked session.database (Question.Issued (· ∈ store.registry.mappings) true) connection
        store.pool.world writing.log after.pool.world →
      (∀ planned ∈ graph.plan session.dialect, ∃ id,
        writing.known.lookup planned.place = some id ∧
          after.idOf planned.node.subject = some id) →
      after.serving session.thread = some connection →
      after.cache = (WriteSet.ofWritten writing.written).withoutFills.evictTouched store.cache →
      SaveLasts session connection store root (.ok ()) after

private theorem settled_lasts {root : InstanceId} {graph : Graph} {written : List Written}
    (regular : store.Regular) (collected : Graph.collect store.id store.memory root = .ok graph)
    (inMemory : ∀ one ∈ written, one.planned.node.subject < store.memory.size)
    (ends : UnitEnds session (Question.Issued (· ∈ store.registry.mappings) true) true
      (WritesPlan session.dialect (graph.plan session.dialect)) store (.ok written) between)
    (settled : (settleAll session written).run between = (.ok (), after))
    (serves : store.serving session.thread = some connection)
    (lasts : after.serving session.thread ≠ none) :
    SaveLasts session connection store root (.ok ()) after := by
  have sameSize : between.memory.size = store.memory.size := congrArg Prod.snd ends.extent
  have quiet : between.Quiet after :=
    quiet_settleAll (fun one member => sameSize ▸ inMemory one member) settled
  have serving := serving_of_quiet quiet session.thread
  rw [serving] at lasts
  cases ends.lasts serves lasts with
  | worked given asked still cache =>
      obtain ⟨writing, same, rfl⟩ := given
      cases same
      rw [← quiet.pool] at asked
      exact .worked writing collected asked (fun planned member =>
        final_id regular collected writing (fun other => ends.idOf other) sameSize settled member)
        (serving.trans still) (quiet.cache.trans cache)

theorem save_lasts {root : InstanceId} (regular : store.Regular)
    (serves : store.serving session.thread = some connection) :
    Ensures (save session root) store fun outcome after =>
      after.serving session.thread ≠ none →
      SaveLasts session connection store root outcome after := by
  unfold Ensures save
  rw [run_bind, run_ensureOpen]
  cases isOpen : store.isOpen with
  | false => exact fun _ => .refused _
  | true =>
      simp only [↓reduceIte]
      rw [run_bind, run_get]
      simp only
      rw [run_bind, run_settleOutcome]
      cases collected : Graph.collect store.id store.memory root with
      | error error => exact fun _ => .refused error
      | ok graph =>
          simp only
          cases needed : graph.needsWrite with
          | false => exact fun _ => .unchanged collected needed
          | true =>
              have fit : ∀ planned ∈ graph.plan session.dialect,
                  planned.content.needsWrite = true → planned.Fit (· ∈ store.registry.mappings) :=
                fun planned member _ => regular.sound.fit_of_plan collected member
              have asks (lease : LeaseId) := @asks_save _ session lease _ _ fit
              simp only [↓reduceIte]
              rw [run_bind]
              generalize ran : (unit session true _).run store = result
              obtain ⟨outcome, between⟩ := result
              have ends := (@ensures_unit _ _ session _ _ true _ store asks fun _ inside =>
                regular.leased.connection inside).of_run ran
              cases outcome with
              | error error =>
                  intro lasts
                  cases ends.lasts serves lasts
                  exact .refused error
              | ok written =>
                  obtain ⟨after, settled⟩ := run_settleAll session written between
                  simp only
                  rw [settled]
                  obtain ⟨_, _, writing, same, _⟩ := gives_of_unit regular asks ran
                  obtain rfl : written = writing.written := congrArg Prod.fst same
                  exact settled_lasts regular collected (fun one member =>
                    (regular.sound.of_plan collected (writing.planned_mem member)).1) ends settled
                    serves

inductive RemovalLasts (session : Session World) (connection : ConnectionId)
    (store : Store World) (subject : InstanceId) : Except Error Unit → Store World → Prop where
  | refused (error : Error) : RemovalLasts session connection store subject (.error error) store
  /-- A new instance has no row. -/
  | fresh {after : Store World} : (store.instanceAt subject).state = .transient →
      store.Quiet after → after.idOf subject = none →
      RemovalLasts session connection store subject (.ok ()) after
  | worked {id : Int64} {known : Option Row} {log : List Event} {after : Store World} :
      (store.instanceAt subject).key.id = some id →
      RowKnown session.dialect (store.instanceAt subject) id known log →
      after.idOf subject = some id →
      Asked session.database (Question.Issued (· ∈ store.registry.mappings) true) connection
        store.pool.world (log ++ [.executed (Statement.delete session.dialect
          (store.instanceAt subject).mapping id)]) after.pool.world →
      after.serving session.thread = some connection →
      after.cache = (WriteSet.ofRemoval (store.instanceAt subject).mapping
        (store.instanceAt subject).key known).withoutFills.evictTouched store.cache →
      RemovalLasts session connection store subject (.ok ()) after

private theorem idOf_withdraw {subject : InstanceId} (inMemory : subject < store.memory.size)
    (ran : (withdraw session subject).run store = (.ok (), after)) :
    after.idOf subject = store.idOf subject := by
  have look := look_withdraw inMemory ran
  exact congrArg (fun snapshot => snapshot.key.id) look

theorem removal_lasts {subject : InstanceId} (regular : store.Regular)
    (inMemory : subject < store.memory.size)
    (serves : store.serving session.thread = some connection) :
    Ensures (remove session subject) store fun outcome after =>
      after.serving session.thread ≠ none →
      RemovalLasts session connection store subject outcome after := by
  have isSound := regular.sound.instanceAt inMemory
  unfold Ensures remove
  rw [run_bind, run_ensureOpen]
  cases isOpen : store.isOpen with
  | false => exact fun _ => .refused _
  | true =>
      simp only [↓reduceIte]
      rw [run_bind, run_get]
      simp only
      split
      · exact fun _ => .refused _
      · rename_i isNew
        intro _
        have withdrawn : (withdraw session subject).run store = (.ok (), _) := rfl
        exact .fresh isNew (quiet_withdraw inMemory withdrawn)
          ((idOf_withdraw inMemory withdrawn).trans (isSound.sound.fresh isNew))
      · exact fun _ => .refused _
      · rename_i id keyed _ _
        have asks (lease : LeaseId) := @asks_removal _ session lease
          (· ∈ store.registry.mappings) (store.instanceAt subject) isSound.registered id keyed
        rw [run_bind]
        generalize ran : (deleteRow session (store.instanceAt subject) id).run store = result
        obtain ⟨outcome, between⟩ := result
        have ends := (@ensures_unit _ _ session _ _ true _ store asks fun _ inside =>
          regular.leased.connection inside).of_run ran
        cases outcome with
        | error error =>
            intro lasts
            cases ends.lasts serves lasts
            exact .refused error
        | ok done =>
            intro lasts
            have sameSize : between.memory.size = store.memory.size :=
              congrArg Prod.snd ends.extent
            rw [← sameSize] at inMemory
            have withdrawn : (withdraw session subject).run between = (.ok (), _) := rfl
            have quiet := quiet_withdraw inMemory withdrawn
            have serving := serving_of_quiet quiet session.thread
            have lastsBetween : between.serving session.thread ≠ none := by
              rw [← serving]
              exact lasts
            cases ends.lasts serves lastsBetween with
            | worked given asked still cache =>
                cases given with
                | removal isKey known =>
                    have sameId := (idOf_withdraw inMemory withdrawn).trans (ends.idOf subject)
                    rw [← quiet.pool] at asked
                    exact .worked isKey known (sameId.trans isKey) asked (serving.trans still)
                      (quiet.cache.trans cache)

/-! ### Other rows -/

section Frames

variable {outcome : Except Error Unit} (sound : store.Sound) (orderly : store.Orderly faithful)
  (fits : ∀ mapping ∈ store.registry.mappings, layout.Fits mapping)
  (serves : store.serving session.thread = some connection)

theorem SaveLasts.shows {root : InstanceId}
    (lasts : SaveLasts session connection store root outcome after) : store.ShowsOnly after := by
  cases lasts with
  | refused _ => exact showsOnly_of_same rfl
  | unchanged _ _ => exact showsOnly_of_same rfl
  | worked _ _ _ _ _ cache => exact showsOnly_of_evicted cache

theorem RemovalLasts.shows {subject : InstanceId}
    (lasts : RemovalLasts session connection store subject outcome after) :
    store.ShowsOnly after := by
  cases lasts with
  | refused _ => exact showsOnly_of_same rfl
  | fresh _ quiet _ => exact showsOnly_of_same quiet.cache
  | worked _ _ _ _ _ cache => exact showsOnly_of_evicted cache

include sound in
/-- What is written for an instance is written under the id that it has in the end. -/
theorem settles_of_written {root : InstanceId} {graph : Graph} {dialect : Dialect}
    (inMemory : root < store.memory.size)
    (collected : Graph.collect store.id store.memory root = .ok graph)
    {writing : Writing dialect (graph.plan dialect)}
    (final : ∀ planned ∈ graph.plan dialect, ∃ id,
      writing.known.lookup planned.place = some id ∧ after.idOf planned.node.subject = some id)
    {one : Written} (member : one ∈ writing.written) :
    (Action.save root).Settles store one.planned.node.subject ∧
      after.idOf one.planned.node.subject = some one.id ∧
      (store.instanceAt one.planned.node.subject).mapping = one.planned.mapping := by
  have isPlanned := writing.planned_mem member
  obtain ⟨id, known, isFinal⟩ := final one.planned isPlanned
  rw [known_of_written writing member] at known
  obtain rfl := Option.some.inj known
  refine ⟨(exists_written_iff sound inMemory collected writing _).mp ⟨one, member, rfl⟩, isFinal, ?_⟩
  rw [sound.instanceAt_plan collected isPlanned]
  rfl

include orderly fits serves

include sound in
theorem SaveLasts.holds {root : InstanceId} (inMemory : root < store.memory.size)
    (lasts : SaveLasts session connection store root outcome after)
    (apart : ∀ subject id, outcome.isOk = true → (Action.save root).Settles store subject →
      after.idOf subject = some id →
      (layout.tableOf (store.instanceAt subject).mapping, id) ≠ address)
    (holds : store.Holds faithful session.thread address row) :
    after.Holds faithful session.thread address row := by
  cases lasts with
  | refused _ => exact holds
  | unchanged _ _ => exact holds
  | worked writing collected asked final still _ =>
      have worked := orderly.worked fits serves asked
      refine holds.of_worked worked serves still fun before later replays =>
        writing.row_eq (fun planned member _ => (sound.fit_of_plan collected member).tidy) replays
          fun one member => ?_
      obtain ⟨settles, isFinal, mapping⟩ := settles_of_written sound inMemory collected final member
      have elsewhere := apart _ _ rfl settles isFinal
      rw [mapping] at elsewhere
      exact elsewhere

theorem RemovalLasts.holds {subject : InstanceId}
    (lasts : RemovalLasts session connection store subject outcome after)
    (apart : ∀ id, outcome.isOk = true → after.idOf subject = some id →
      (layout.tableOf (store.instanceAt subject).mapping, id) ≠ address)
    (holds : store.Holds faithful session.thread address row) :
    after.Holds faithful session.thread address row := by
  cases lasts with
  | refused _ => exact holds
  | fresh _ quiet _ =>
      exact holds.of_standing serves ((serving_of_quiet quiet _).trans serves) (by rw [quiet.pool])
  | worked _ known isFinal asked still _ =>
      have worked := orderly.worked fits serves asked
      refine holds.of_worked worked serves still fun before later replays => ?_
      rw [row_eq_of_removal known replays, if_neg (apart _ rfl isFinal).symm]

end Frames

/-! ### What is written -/

section Written

variable (sound : store.Sound) {id : Int64}
include sound

/-- A save hides the keys that it writes. -/
theorem SaveLasts.hides {root subject : InstanceId} (inMemory : root < store.memory.size)
    (lasts : SaveLasts session connection store root (.ok ()) after)
    (settles : (Action.save root).Settles store subject) (keyed : after.idOf subject = some id) :
    after.cache.find? (Key.withId (store.instanceAt subject).mapping.entity id) = none := by
  cases lasts with
  | unchanged collected nothing =>
      rw [sound.needsWrite_of_reached inMemory collected settles.1 settles.2] at nothing
      cases nothing
  | worked writing collected _ final _ cache =>
      obtain ⟨one, isWritten, rfl⟩ :=
        (exists_written_iff sound inMemory collected writing subject).mpr settles
      obtain ⟨_, isFinal, mapping⟩ := settles_of_written sound inMemory collected final isWritten
      obtain rfl : one.id = id := Option.some.inj (isFinal.symm.trans keyed)
      rw [cache, mapping]
      refine @Cache.find?_evictTouched _ (.put one.key one.row) ?_ store.cache
      refine List.mem_filter.mpr ⟨?_, rfl⟩
      rw [WriteSet.effects_ofWritten]
      exact List.mem_map.mpr ⟨one, isWritten, rfl⟩

/-- A removal hides the key under which it removes. -/
theorem RemovalLasts.hides {subject : InstanceId} (inMemory : subject < store.memory.size)
    (lasts : RemovalLasts session connection store subject (.ok ()) after)
    (keyed : after.idOf subject = some id) :
    after.cache.find? (Key.withId (store.instanceAt subject).mapping.entity id) = none := by
  cases lasts with
  | fresh _ _ noId =>
      rw [noId] at keyed
      cases keyed
  | @worked other known _ _ isKey _ isFinal _ _ cache =>
      obtain rfl : other = id := Option.some.inj (isFinal.symm.trans keyed)
      have entity : (store.instanceAt subject).key.entityType
          = (store.instanceAt subject).mapping.entity := (sound.instanceAt inMemory).sound.entity
      have isTouched : Key.withId (store.instanceAt subject).mapping.entity other
          = (store.instanceAt subject).key := by
        unfold Key.withId
        rw [← entity, ← isKey]
      rw [cache, isTouched]
      refine @Cache.find?_evictTouched _ (.evict (store.instanceAt subject).key) ?_ store.cache
      refine List.mem_filter.mpr ⟨?_, rfl⟩
      rw [WriteSet.effects_ofRemoval]
      exact List.mem_singleton_self _

variable (orderly : store.Orderly faithful)
  (fits : ∀ mapping ∈ store.registry.mappings, layout.Fits mapping)
  (serves : store.serving session.thread = some connection)
include orderly fits serves

/-- A save that inserts something has changes to show for it, and its rows are as planned. -/
theorem SaveLasts.wrote {root subject : InstanceId} (inMemory : root < store.memory.size)
    (lasts : SaveLasts session connection store root (.ok ()) after)
    (settles : (Action.save root).Settles store subject) (keyed : after.idOf subject = some id) :
    ((∃ other, Reaches store.memory root other ∧ (store.instanceAt other).state = .transient) →
      after.Changing faithful session.thread) ∧
    Writes layout session.dialect store after root (store.view faithful session.thread)
      (after.view faithful session.thread) subject id := by
  cases lasts with
  | unchanged collected nothing =>
      rw [sound.needsWrite_of_reached inMemory collected settles.1 settles.2] at nothing
      cases nothing
  | worked writing collected asked final still _ =>
      have worked := orderly.worked fits serves asked
      constructor
      · rintro ⟨other, reaches, isNew⟩
        obtain ⟨planned, isPlanned, rfl, _⟩ := @exists_planned _ _ session.dialect
          ((sound.mem_graph inMemory collected _).mpr reaches)
        rw [sound.instanceAt_plan collected isPlanned] at isNew
        obtain ⟨entry, isInserted, _⟩ := writing.exists_inserted isPlanned (decide_eq_true isNew)
        obtain ⟨statement, executed⟩ :=
          writing.inserts.exists_executed (List.ne_nil_of_mem isInserted)
        have member : .executed statement ∈ writing.log := by
          unfold Writing.log
          simp [executed]
        exact changing_of_worked worked serves still
          (Or.inr ⟨_, member, fun reads => reads statement rfl⟩)
      · obtain ⟨_, _, replays⟩ := replays_of_worked worked serves still
        obtain ⟨other, writes⟩ := writes_of_writing sound inMemory collected final replays
          settles.1 settles.2
        obtain rfl : other = id := Option.some.inj (writes.keyed.symm.trans keyed)
        exact writes

omit sound in
/-- A removal under an id has changes to show for it, and leaves no row there. -/
theorem RemovalLasts.wrote {subject : InstanceId}
    (lasts : RemovalLasts session connection store subject (.ok ()) after)
    (keyed : after.idOf subject = some id) :
    after.Changing faithful session.thread ∧
      after.view faithful session.thread (layout.tableOf (store.instanceAt subject).mapping) id
        = none := by
  cases lasts with
  | fresh _ _ noId =>
      rw [noId] at keyed
      cases keyed
  | @worked other _ _ _ _ known isFinal asked still _ =>
      obtain rfl : other = id := Option.some.inj (isFinal.symm.trans keyed)
      have worked := orderly.worked fits serves asked
      constructor
      · exact changing_of_worked worked serves still (Or.inr ⟨_, List.mem_append_right _
          List.mem_cons_self, fun reads => reads _ rfl⟩)
      · obtain ⟨_, _, replays⟩ := replays_of_worked worked serves still
        have gone := row_eq_of_removal known replays
          (layout.tableOf (store.instanceAt subject).mapping, other)
        rw [if_pos rfl] at gone
        exact gone

end Written

end Store

/-! ### Acts -/

def Action.writesRows : Action → Bool
  | save _ | remove _ | drop => true
  | _ => false

theorem Action.unwritten_of_poses {World : Type} {session : Session World} {store : Store World}
    {action : Action} (free : action.writesRows = false) :
    ∀ task, action.Poses session store task → task.writesRows = false := by
  intro task posed
  cases action with
  | save _ => cases free
  | remove _ => cases free
  | drop => cases free
  | sync =>
      cases posed
      rfl
  | begin =>
      cases posed
      rfl
  | commit =>
      cases posed
      rfl
  | rollback =>
      cases posed
      rfl
  | close =>
      cases posed
      rfl
  | _ => exact posed.elim

structure Act.Writes {World : Type} (act : Act World) (thread : ThreadId) (store : Store World)
    (subject : InstanceId) (mapping : Mapping) (id : Int64) : Prop where
  settles : act.Settles thread store subject
  mapping : (store.instanceAt subject).mapping = mapping
  keyed : act.after.idOf subject = some id

namespace Deployment

variable {World : Type} {layout : Layout} {deployment : Deployment World}
  {faithful : Faithful layout deployment.database} {thread : ThreadId}
  {address : String × Int64} {row : Option Fields}

def Unwritten (layout : Layout) (thread : ThreadId) (address : String × Int64) :
    Store World → List (Act World) → Prop
  | _, [] => True
  | store, act :: rest =>
      (act.thread = thread → act.action ≠ .drop ∧ ∀ subject mapping id,
        act.Writes thread store subject mapping id → (layout.tableOf mapping, id) ≠ address) ∧
      Unwritten layout thread address act.after rest

theorem unwritten_of_free {acts : List (Act World)} (store : Store World)
    (free : ∀ act ∈ acts, act.thread = thread → act.action.writesRows = false) :
    Unwritten layout thread address store acts := by
  induction acts generalizing store with
  | nil => trivial
  | cons act rest ih =>
      refine ⟨fun own => ?_, ih _ fun other member => free other (List.mem_cons_of_mem act member)⟩
      obtain ⟨other, action, outcome, after⟩ := act
      have reads : action.writesRows = false := free _ List.mem_cons_self own
      constructor
      · rintro rfl
        cases reads
      · intro subject mapping id writes
        have settles : action.Settles store subject := writes.settles.2.2
        cases action with
        | save _ => cases reads
        | remove _ => cases reads
        | _ => exact settles.elim

section Acts

variable {store after : Store World} {other : ThreadId} {action : Action}
  {outcome : Except Error Unit} (regular : store.Regular) (orderly : store.Orderly faithful)
  (fits : ∀ mapping ∈ after.registry.mappings, layout.Fits mapping)
  (inMemory : action.InMemory store.memory.size)
  (ran : (action.perform (deployment.session other)).run store = (outcome, after))
  (lasts : after.serving thread ≠ none) (holds : store.Holds faithful thread address row)
include regular orderly fits inMemory ran lasts holds

/-- An act of the thread in its transaction keeps a row that it does not write, and brings
nothing into the cache. -/
theorem holds_of_own_act (own : other = thread)
    (unwritten : action ≠ .drop ∧ ∀ subject mapping id,
      Act.Writes ⟨other, action, outcome, after⟩ thread store subject mapping id →
      (layout.tableOf mapping, id) ≠ address) :
    after.Holds faithful thread address row ∧ store.ShowsOnly after := by
  subst own
  have course := (Action.follows_perform regular inMemory).of_run ran
  have fitsBefore : ∀ mapping ∈ store.registry.mappings, layout.Fits mapping :=
    course.grows.forall_registered fits
  obtain ⟨connection, _, serves, _⟩ := holds.changing
  cases writes : action.writesRows with
  | false =>
      exact @Store.Course.holds _ _ (deployment.session other) _ _ _ _ _ _ _ course regular
        orderly fits (Action.unwritten_of_poses writes) lasts holds
  | true =>
      cases action with
      | save root =>
          have saved := (@Store.save_lasts _ (deployment.session other) _ _ root regular
            serves).of_run ran lasts
          exact ⟨saved.holds regular.sound orderly fitsBefore serves inMemory
            (fun subject id isOk settles keyed =>
              unwritten.2 subject _ id ⟨⟨rfl, isOk, settles⟩, rfl, keyed⟩) holds, saved.shows⟩
      | remove subject =>
          have removed := (@Store.removal_lasts _ (deployment.session other) _ _ subject regular
            inMemory serves).of_run ran lasts
          exact ⟨removed.holds orderly fitsBefore serves
            (fun id isOk keyed => unwritten.2 subject _ id ⟨⟨rfl, isOk, rfl⟩, rfl, keyed⟩) holds,
            removed.shows⟩
      | drop => exact absurd rfl unwritten.1
      | _ => cases writes

private theorem holds_of_act (unwritten : other = thread → action ≠ .drop ∧ ∀ subject mapping id,
      Act.Writes ⟨other, action, outcome, after⟩ thread store subject mapping id →
      (layout.tableOf mapping, id) ≠ address) :
    after.Holds faithful thread address row ∧ (other = thread → store.ShowsOnly after) := by
  by_cases own : other = thread
  · obtain ⟨kept, shows⟩ := holds_of_own_act regular orderly fits inMemory ran lasts holds own
      (unwritten own)
    exact ⟨kept, fun _ => shows⟩
  · have course := (Action.follows_perform regular inMemory).of_run ran
    exact ⟨@Store.Course.holds_beside _ _ (deployment.session other) _ _ _ _ _ _ _ _ course
      regular orderly fits own lasts holds, fun same => absurd same own⟩

end Acts

/-! ### Runs -/

theorem serving_of_inTransaction {store : Store World} (regular : store.Regular)
    (inside : store.inTransaction thread = true) : store.serving thread ≠ none := by
  rw [← Store.serving_isSome regular.leased] at inside
  exact Option.isSome_iff_ne_none.mp inside

structure StillHolds (faithful : Faithful layout deployment.database) (thread : ThreadId)
    (address : String × Int64) (row : Option Fields) (opened : Store World)
    (acts : List (Act World)) (closing : Store World) : Prop where
  holds : closing.Holds faithful thread address row
  isOpen : closing.isOpen = true
  /-- What is in the cache at the end was there, or another thread has brought it. -/
  hidden : ∀ key, opened.cache.find? key = none →
    (∀ act ∈ acts, act.thread ≠ thread → act.after.cache.find? key = none) →
    closing.cache.find? key = none

theorem stillHolds_of_run {opened closing : Store World} {acts : List (Act World)}
    (run : deployment.Run opened acts closing) (regular : opened.Regular)
    (orderly : opened.Orderly faithful)
    (fits : ∀ mapping ∈ closing.registry.mappings, layout.Fits mapping)
    (stays : ∀ act ∈ acts, act.after.inTransaction thread = true)
    (unwritten : Unwritten layout thread address opened acts)
    (holds : opened.Holds faithful thread address row) (isOpen : opened.isOpen = true) :
    StillHolds faithful thread address row opened acts closing := by
  -- The induction is on the run: acts of other threads are on other connections, and the acts of
  -- the thread itself write other rows.
  induction run with
  | nil store => exact ⟨holds, isOpen, fun _ missing _ => missing⟩
  | @cons store between after other action outcome rest inMemory ran later ih =>
      have course := (Action.follows_perform regular inMemory).of_run ran
      have regularBetween := course.regular regular
      have fitsBetween : ∀ mapping ∈ between.registry.mappings, layout.Fits mapping :=
        fun mapping member => fits mapping ((later.grows regularBetween).registered mapping member)
      have orderlyBetween := orderly_of_act regular orderly fitsBetween inMemory ran
      have lasts := serving_of_inTransaction regularBetween (stays _ List.mem_cons_self)
      obtain ⟨kept, shows⟩ := holds_of_act regular orderly fitsBetween inMemory ran lasts holds
        unwritten.1
      have stillOpen := @Store.Course.isOpen _ _ (deployment.session other) _ _ _ _ _ _ course
        regular orderly fitsBetween lasts isOpen
      have rests := ih regularBetween orderlyBetween fits
        (fun act member => stays act (List.mem_cons_of_mem _ member)) unwritten.2 kept stillOpen
      refine ⟨rests.holds, rests.isOpen, fun key missing unfilled => ?_⟩
      refine rests.hidden key ?_ fun act member => unfilled act (List.mem_cons_of_mem _ member)
      by_cases own : other = thread
      · rw [Option.eq_none_iff_forall_ne_some] at missing ⊢
        exact fun read isShown => missing read (shows own key read isShown)
      · exact unfilled _ List.mem_cons_self own

end Deployment
end EntityStore
