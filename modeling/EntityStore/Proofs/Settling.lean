/-
How a save that succeeds ends: its unit of work is done, and the instances in memory are
settled. An instance that had an id keeps it, and a new one gets the id under which it
was inserted, so that the ids afterwards are those known in the work.
-/

import EntityStore.Proofs.Actions

set_option autoImplicit false

namespace EntityStore
namespace Store

variable {World : Type} {session : Session World} {store after : Store World}

def WritesPlan (dialect : Dialect) (plan : List PlannedNode)
    (result : List Written × WriteSet) (log : List Event) : Prop :=
  ∃ writing : Writing dialect plan,
    result = (writing.written, WriteSet.ofWritten writing.written) ∧ log = writing.log

inductive SaveEnds (session : Session World) (store : Store World) (graph : Graph) :
    Store World → Prop where
  | unchanged : graph.needsWrite = false → SaveEnds session store graph store
  | written {written : List Written} {between after : Store World} :
      UnitEnds session (Question.Issued (· ∈ store.registry.mappings) true) true
        (WritesPlan session.dialect (graph.plan session.dialect)) store (.ok written) between →
      (settleAll session written).run between = (.ok (), after) →
      SaveEnds session store graph after

theorem run_ensureOpen_bind_eq_ok {α : Type} {next : Unit → Operation World α} {result : α} :
    (ensureOpen >>= next).run store = (.ok result, after) ↔
      store.isOpen = true ∧ (next ()).run store = (.ok result, after) := by
  rw [run_bind, run_ensureOpen]
  cases isOpen : store.isOpen with
  | true => simp
  | false =>
      constructor
      · intro ran
        cases ran
      · rintro ⟨impossible, _⟩
        cases impossible

theorem run_settleOutcome_bind_eq_ok {α β : Type} {outcome : Except Error α}
    {next : α → Operation World β} {result : β} :
    (settleOutcome outcome >>= next).run store = (.ok result, after) ↔
      ∃ content, outcome = .ok content ∧ (next content).run store = (.ok result, after) := by
  rw [run_bind, run_settleOutcome]
  cases outcome with
  | ok content => simp
  | error error =>
      constructor
      · intro impossible
        cases impossible
      · rintro ⟨_, impossible, _⟩
        cases impossible

theorem save_ok (regular : store.Regular) {subject : InstanceId}
    (ran : (save session subject).run store = (.ok (), after)) :
    ∃ graph, store.isOpen = true ∧ Graph.collect store.id store.memory subject = .ok graph ∧
      SaveEnds session store graph after := by
  unfold save at ran
  obtain ⟨isOpen, ran⟩ := run_ensureOpen_bind_eq_ok.mp ran
  obtain ⟨_, _, got, ran⟩ := run_bind_eq_ok.mp ran
  cases got
  obtain ⟨graph, collected, ran⟩ := run_settleOutcome_bind_eq_ok.mp ran
  refine ⟨graph, isOpen, collected, ?_⟩
  cases needed : graph.needsWrite with
  | false =>
      simp only [needed, Bool.false_eq_true, ↓reduceIte] at ran
      cases ran
      exact .unchanged needed
  | true =>
      simp only [needed, ↓reduceIte] at ran
      obtain ⟨written, between, ranUnit, ranSettle⟩ := run_bind_eq_ok.mp ran
      have fit : ∀ planned ∈ graph.plan session.dialect, planned.content.needsWrite = true →
          planned.Fit (· ∈ store.registry.mappings) :=
        fun planned member _ => regular.sound.fit_of_plan collected member
      have ends := (ensures_unit (fun _ => asks_save fit) fun _ inside =>
        regular.leased.connection inside).of_run ranUnit
      exact .written ends ranSettle

/-! ### Ids -/

def idOf (store : Store World) (subject : InstanceId) : Option Int64 :=
  (store.instanceAt subject).key.id

theorem instanceAt_modifyInstance (store : Store World) (edit : Instance → Instance)
    (subject other : InstanceId) :
    (store.modifyInstance edit subject).instanceAt other =
      if other = subject ∧ other < store.memory.size then edit (store.instanceAt other)
      else store.instanceAt other := by
  unfold instanceAt instance?
  rw [getElem?_modifyInstance]
  cases found : store.memory[other]? with
  | none =>
      have outside : ¬other < store.memory.size :=
        Nat.not_lt.mpr (Array.getElem?_eq_none_iff.mp found)
      simp [outside]
  | some content =>
      obtain ⟨bound, _⟩ := Array.getElem?_eq_some_iff.mp found
      by_cases same : other = subject
      · simp [same ▸ bound, same]
      · simp [same]

/-- Whatever is no collection stays when collections are forgotten. -/
theorem part_invalidateOwners {α : Type} (part : Instance → α)
    (same : ∀ content : Instance, part { content with collections := [] } = part content)
    (keys : List Key) (store : Store World) (subject : InstanceId) :
    part ((store.invalidateOwners keys).instanceAt subject) = part (store.instanceAt subject) := by
  have cleared : ∀ (affected : List InstanceId) (current : Store World),
      part ((affected.foldl (fun current subject => current.modifyInstance
        (fun content => { content with collections := [] }) subject) current).instanceAt subject)
          = part (current.instanceAt subject) := by
    intro affected
    induction affected with
    | nil => exact fun _ => rfl
    | cons other rest ih =>
        intro current
        rw [List.foldl_cons, ih, instanceAt_modifyInstance]
        split
        · rw [same]
        · rfl
  exact cleared _ store

private theorem idOf_invalidateOwners (keys : List Key) (store : Store World)
    (subject : InstanceId) :
    (store.invalidateOwners keys).idOf subject = store.idOf subject :=
  part_invalidateOwners (fun content => content.key.id) (fun _ => rfl) keys store subject

theorem UnitEnds.idOf {α : Type} {issued : Question → Prop} {transactional : Bool}
    {gives : α × WriteSet → List Event → Prop} {result : α}
    (ends : UnitEnds session issued transactional gives store (.ok result) after)
    (subject : InstanceId) : after.idOf subject = store.idOf subject := by
  cases ends with
  | recorded _ _ _ _ _ =>
      unfold recordWrites
      simp only
      split <;> exact idOf_invalidateOwners _ _ _
  | applied _ _ _ _ _ => exact idOf_invalidateOwners _ _ _

private theorem idOf_rememberInTransaction (thread : ThreadId) (noted subject : InstanceId)
    (store : Store World) :
    (store.rememberInTransaction thread noted).idOf subject = store.idOf subject := by
  unfold rememberInTransaction
  split <;> rfl

theorem size_rememberInTransaction (thread : ThreadId) (noted : InstanceId)
    (store : Store World) :
    (store.rememberInTransaction thread noted).memory.size = store.memory.size :=
  congrArg Prod.snd (extent_rememberInTransaction thread noted store)

/-- One instance is settled: an id that is there stays, and one that is missing is set. -/
theorem idOf_settle (store : Store World) (id : Int64) (row : Row) (settled subject : InstanceId) :
    (store.modifyInstance (fun content => content.settle id row) settled).idOf subject =
      if subject = settled ∧ subject < store.memory.size then
        (store.idOf subject).or (some id)
      else store.idOf subject := by
  unfold idOf
  rw [instanceAt_modifyInstance]
  split
  · unfold Instance.settle Key.hasId
    cases keyed : (store.instanceAt subject).key.id <;> simp [keyed]
  · rfl

/-- What was written is settled for one instance after the other. -/
theorem run_settleAll_cons (one : Written) (rest : List Written) (store : Store World) :
    (settleAll session (one :: rest)).run store = (settleAll session rest).run
      ((store.rememberInTransaction session.thread one.planned.node.subject).modifyInstance
        (fun content => content.settle one.id one.row) one.planned.node.subject) := rfl

/-- Settling gives an instance without id the first one under which it was written. -/
theorem idOf_settleAll {written : List Written} {subject : InstanceId}
    (inMemory : subject < store.memory.size)
    (ran : (settleAll session written).run store = (.ok (), after)) :
    after.idOf subject = (store.idOf subject).or
      ((written.find? fun one => one.planned.node.subject == subject).map Written.id) := by
  induction written generalizing store with
  | nil =>
      cases ran
      simp
  | cons one rest ih =>
      rw [run_settleAll_cons] at ran
      rw [ih (by rw [size_modifyInstance, size_rememberInTransaction]; exact inMemory) ran,
        idOf_settle, size_rememberInTransaction, idOf_rememberInTransaction]
      by_cases same : subject = one.planned.node.subject
      · rw [if_pos ⟨same, inMemory⟩, Option.or_assoc, List.find?_cons_of_pos (by simp [same])]
        rfl
      · have apart : (one.planned.node.subject == subject) = false := by
          simpa using fun equal : one.planned.node.subject = subject => same equal.symm
        simp only [same, false_and, ↓reduceIte, List.find?_cons, apart]

theorem run_settleAll (session : Session World) (written : List Written) (store : Store World) :
    ∃ after, (settleAll session written).run store = (.ok (), after) := by
  induction written generalizing store with
  | nil => exact ⟨store, rfl⟩
  | cons one rest ih =>
      rw [run_settleAll_cons]
      exact ih _

theorem pool_settleAll {written : List Written}
    (ran : (settleAll session written).run store = (.ok (), after)) : after.pool = store.pool := by
  induction written generalizing store with
  | nil =>
      cases ran
      rfl
  | cons one rest ih =>
      rw [run_settleAll_cons] at ran
      rw [ih ran]
      unfold rememberInTransaction
      split <;> rfl

end Store
end EntityStore
