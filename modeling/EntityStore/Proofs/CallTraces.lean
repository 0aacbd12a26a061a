/-
Operations by the calls that they make. Where the database keeps a trace, an operation adds
calls to it. For each way of putting operations together one rule says which, with what
outcome, whether any of them is refused or not: first for operations on the connection of a
lease, then for those that acquire and release connections.
-/

import EntityStore.Proofs.Traces

set_option autoImplicit false

namespace EntityStore

namespace Exchange

def Manages (exchange : Exchange) : Prop :=
  exchange.deed = .connect ∨ exchange.deed = .close ∨ exchange.deed = .begin ∨
    exchange.deed = .commit ∨ exchange.deed = .rollback

def Refused (exchange : Exchange) : Prop := ∃ fault, exchange.answer = .error fault

end Exchange

namespace Store

variable {World α β : Type} {inner : Deployment World} {thread : ThreadId} {lease : LeaseId}

/-! ### On the connection of a lease -/

/-- The operation only makes calls on the connection of the lease. The outcome and these
calls are as `gives` says. -/
def Traces (lease : LeaseId) (operation : Operation (Traced World) α)
    (gives : Except Error α → List Exchange → Prop) : Prop :=
  ∀ (store : Store (Traced World)) (connection : ConnectionId),
    store.pool.leased.lookup lease = some connection →
    ∃ outcome world calls, operation.run store = (outcome, store.withWorld world) ∧
      world.trace = store.pool.world.trace ++ calls ∧ gives outcome calls

theorem Traces.weaken {operation : Operation (Traced World) α}
    {strong weak : Except Error α → List Exchange → Prop} (traces : Traces lease operation strong)
    (weaker : ∀ outcome calls, strong outcome calls → weak outcome calls) :
    Traces lease operation weak := by
  intro store connection held
  obtain ⟨outcome, world, calls, ran, grown, given⟩ := traces store connection held
  exact ⟨outcome, world, calls, ran, grown, weaker _ _ given⟩

theorem traces_pure {result : α} {gives : Except Error α → List Exchange → Prop}
    (given : gives (.ok result) []) :
    Traces lease (pure result : Operation (Traced World) α) gives :=
  fun store _ _ => ⟨.ok result, store.pool.world, [], rfl, (List.append_nil _).symm, given⟩

theorem traces_throw {error : Error} {gives : Except Error α → List Exchange → Prop}
    (given : gives (.error error) []) :
    Traces lease (throw error : Operation (Traced World) α) gives :=
  fun store _ _ => ⟨.error error, store.pool.world, [], rfl, (List.append_nil _).symm, given⟩

/-- The rule for sequences: the calls of both parts stand one after the other. -/
theorem traces_bind {operation : Operation (Traced World) α}
    {next : α → Operation (Traced World) β} {first : Except Error α → List Exchange → Prop}
    {gives : Except Error β → List Exchange → Prop} (tracesFirst : Traces lease operation first)
    (failed : ∀ error calls, first (.error error) calls → gives (.error error) calls)
    (tracesNext : ∀ result calls, first (.ok result) calls →
      Traces lease (next result) fun outcome later => gives outcome (calls ++ later)) :
    Traces lease (operation >>= next) gives := by
  intro store connection held
  obtain ⟨outcome, between, calls, ran, grown, given⟩ := tracesFirst store connection held
  cases outcome with
  | error error =>
      refine ⟨.error error, between, calls, ?_, grown, failed _ _ given⟩
      rw [run_bind, ran]
  | ok result =>
      obtain ⟨outcome', world, later, ran', grown', given'⟩ :=
        tracesNext result calls given (store.withWorld between) connection held
      refine ⟨outcome', world, calls ++ later, ?_, ?_, given'⟩
      · rw [run_bind, ran]
        exact ran'
      · rw [grown']
        show between.trace ++ later = _
        rw [grown, List.append_assoc]

private theorem traces_attempt {operation : Operation (Traced World) α}
    {gives : Except Error α → List Exchange → Prop} (traces : Traces lease operation gives) :
    Traces lease (attempt operation) fun outcome calls =>
      ∃ attempted, outcome = .ok attempted ∧ gives attempted calls := by
  intro store connection held
  obtain ⟨outcome, world, calls, ran, grown, given⟩ := traces store connection held
  refine ⟨.ok outcome, world, calls, ?_, grown, outcome, rfl, given⟩
  rw [run_attempt, ran]

/-- A single call is traced with its answer, which is the outcome. -/
theorem traces_call {request : ConnectionId → Call World α} {deed : Deed} {rows : α → List Row}
    {gives : Except Error α → List Exchange → Prop}
    (given : ∀ connection (answer : Except DatabaseError α),
      gives (answer.mapError Error.ofDatabase) [⟨connection, deed, answer.map rows⟩]) :
    Traces lease (call lease fun connection =>
      Traced.tracing connection deed rows (request connection)) gives := by
  intro store connection held
  rcases answers : request connection store.pool.world.world with ⟨answer, after⟩
  have ran := @run_call_held _ _ _ _ (fun connection =>
    Traced.tracing connection deed rows (request connection)) _ held
  simp only [Traced.tracing, answers] at ran
  exact ⟨_, _, [⟨connection, deed, answer.map rows⟩], ran, rfl, given connection answer⟩

/-- Calls manage the connection, and unless one of them was refused there is a result. -/
def Managed (outcome : Except Error α) (calls : List Exchange) : Prop :=
  (∀ call ∈ calls, call.Manages) ∧
    ((∃ result, outcome = .ok result) ∨ ∃ call ∈ calls, call.Refused)

private theorem traces_manage {request : ConnectionId → Call World α} {deed : Deed}
    {rows : α → List Row}
    (manages : ∀ connection answer, (⟨connection, deed, answer⟩ : Exchange).Manages) :
    Traces lease (call lease fun connection =>
      Traced.tracing connection deed rows (request connection)) Managed := by
  refine traces_call fun connection answer => ⟨fun call member => ?_, ?_⟩
  · rw [List.mem_singleton.mp member]
    exact manages _ _
  · cases answer with
    | ok result => exact Or.inl ⟨result, rfl⟩
    | error fault => exact Or.inr ⟨_, List.mem_cons_self, fault, rfl⟩

private theorem traces_begin :
    Traces lease (call lease (inner.traced.session thread).database.begin) Managed :=
  traces_manage fun _ _ => Or.inr (Or.inr (Or.inl rfl))

private theorem traces_commit :
    Traces lease (call lease (inner.traced.session thread).database.commit) Managed :=
  traces_manage fun _ _ => Or.inr (Or.inr (Or.inr (Or.inl rfl)))

private theorem traces_rollbackQuietly :
    Traces lease (rollbackQuietly (inner.traced.session thread) lease) fun outcome calls =>
      outcome = .ok () ∧ ∀ call ∈ calls, call.Manages := by
  have traces : Traces lease (call lease (inner.traced.session thread).database.rollback) Managed :=
    traces_manage fun _ _ => Or.inr (Or.inr (Or.inr (Or.inr rfl)))
  unfold rollbackQuietly
  refine traces_bind (traces_attempt traces) ?_ fun _ calls attempts => traces_pure ?_
  · rintro error calls ⟨_, impossible, _⟩
    cases impossible
  · obtain ⟨_, _, manage, _⟩ := attempts
    rw [List.append_nil]
    exact ⟨rfl, manage⟩

/-- The calls of some work among others that manage its connection. Where one of these is
refused, the work is not begun or comes to nothing. -/
inductive Framed (gives : Except Error α → List Exchange → Prop) :
    Except Error α → List Exchange → Prop where
  | refused {error : Error} {calls : List Exchange} : (∀ call ∈ calls, call.Manages) →
      (∃ call ∈ calls, call.Refused) → Framed gives (.error error) calls
  | worked {outcome : Except Error α} {before calls after : List Exchange} : gives outcome calls →
      (∀ call ∈ before, call.Manages) → (∀ call ∈ after, call.Manages) →
      Framed gives outcome (before ++ calls ++ after)
  | undone {result : α} {error : Error} {before calls after : List Exchange} :
      gives (.ok result) calls → (∀ call ∈ before, call.Manages) →
      (∀ call ∈ after, call.Manages) → (∃ call ∈ after, call.Refused) →
      Framed gives (.error error) (before ++ calls ++ after)

theorem Framed.append {gives : Except Error α → List Exchange → Prop} {outcome : Except Error α}
    {calls more : List Exchange} (framed : Framed gives outcome calls)
    (manage : ∀ call ∈ more, call.Manages) : Framed gives outcome (calls ++ more) := by
  have both {calls : List Exchange} (first : ∀ call ∈ calls, call.Manages) :
      ∀ call ∈ calls ++ more, call.Manages :=
    fun call member => (List.mem_append.mp member).elim (first call) (manage call)
  cases framed with
  | refused manageFirst refused =>
      obtain ⟨call, member, fault⟩ := refused
      exact .refused (both manageFirst) ⟨call, List.mem_append_left _ member, fault⟩
  | worked given before after =>
      rw [List.append_assoc]
      exact .worked given before (both after)
  | undone given before after refused =>
      obtain ⟨call, member, fault⟩ := refused
      rw [List.append_assoc]
      exact .undone given before (both after) ⟨call, List.mem_append_left _ member, fault⟩

theorem Framed.prepend {gives : Except Error α → List Exchange → Prop} {outcome : Except Error α}
    {calls first : List Exchange} (framed : Framed gives outcome calls)
    (manage : ∀ call ∈ first, call.Manages) : Framed gives outcome (first ++ calls) := by
  have both {calls : List Exchange} (later : ∀ call ∈ calls, call.Manages) :
      ∀ call ∈ first ++ calls, call.Manages :=
    fun call member => (List.mem_append.mp member).elim (manage call) (later call)
  cases framed with
  | refused manageLater refused =>
      obtain ⟨call, member, fault⟩ := refused
      exact .refused (both manageLater) ⟨call, List.mem_append_right _ member, fault⟩
  | worked given before after =>
      rw [← List.append_assoc, ← List.append_assoc]
      exact .worked given (both before) after
  | undone given before after refused =>
      rw [← List.append_assoc, ← List.append_assoc]
      exact .undone given (both before) after refused

private theorem traces_bracket {work : Work (Traced World) α} {transactional : Bool}
    {gives : Except Error (α × WriteSet) → List Exchange → Prop}
    (traces : Traces lease (work lease) gives) :
    Traces lease (bracket (inner.traced.session thread) transactional lease work)
      (Framed gives) := by
  have none : ∀ call ∈ ([] : List Exchange), call.Manages := fun _ member => nomatch member
  unfold bracket
  split
  case isFalse =>
    refine traces.weaken fun outcome calls given => ?_
    simpa using Framed.worked given none none
  refine traces_bind traces_begin ?_ fun _ before begun => ?_
  · rintro error calls ⟨manage, ⟨_, impossible⟩ | refused⟩
    · cases impossible
    · exact .refused manage refused
  refine traces_bind (traces_attempt traces) ?_ fun attempted calls worked => ?_
  · rintro error calls ⟨_, impossible, _⟩
    cases impossible
  obtain ⟨_, same, given⟩ := worked
  cases same
  cases attempted with
  | error error =>
      refine traces_bind traces_rollbackQuietly ?_ fun _ after rolledBack => traces_throw ?_
      · rintro error calls ⟨impossible, _⟩
        cases impossible
      · simpa using Framed.worked given begun.1 rolledBack.2
  | ok result =>
      refine traces_bind (traces_attempt traces_commit) ?_ fun committed after commits => ?_
      · rintro error calls ⟨_, impossible, _⟩
        cases impossible
      obtain ⟨_, same, manage, ends⟩ := commits
      cases same
      cases committed with
      | ok done =>
          refine traces_pure ?_
          simpa using Framed.worked given begun.1 manage
      | error error =>
          have refused : ∃ call ∈ after, call.Refused := by
            rcases ends with ⟨_, impossible⟩ | refused
            · cases impossible
            · exact refused
          refine traces_bind traces_rollbackQuietly ?_ fun _ more rolledBack => traces_throw ?_
          · rintro error calls ⟨impossible, _⟩
            cases impossible
          · have framed : Framed gives (.error error) (before ++ calls ++ after) :=
              .undone given begun.1 manage refused
            simpa using framed.append rolledBack.2

/-! ### On a store -/

def Prolongs (store : Store (Traced World)) (gives : Except Error β → List Exchange → Prop)
    (outcome : Except Error β) (after : Store (Traced World)) : Prop :=
  ∃ calls, after.pool.world.trace = store.pool.world.trace ++ calls ∧ gives outcome calls

section Prolongs

variable {store between : Store (Traced World)} {operation : Operation (Traced World) α}
  {next : α → Operation (Traced World) β} {gives : Except Error β → List Exchange → Prop}

theorem Prolongs.weaken {strong weak : Except Error β → List Exchange → Prop}
    {outcome : Except Error β} {after : Store (Traced World)}
    (prolongs : store.Prolongs strong outcome after)
    (weaker : ∀ calls, strong outcome calls → weak outcome calls) :
    store.Prolongs weak outcome after := by
  obtain ⟨calls, grown, given⟩ := prolongs
  exact ⟨calls, grown, weaker calls given⟩

theorem Prolongs.after {calls : List Exchange} {outcome : Except Error β}
    {after : Store (Traced World)}
    (prolongs : between.Prolongs (fun outcome more => gives outcome (calls ++ more)) outcome after)
    (grown : between.pool.world.trace = store.pool.world.trace ++ calls) :
    store.Prolongs gives outcome after := by
  obtain ⟨later, grown', given⟩ := prolongs
  refine ⟨calls ++ later, ?_, given⟩
  rw [grown', grown, List.append_assoc]

private theorem prolongs_traces_bind {connection : ConnectionId}
    {first : Except Error α → List Exchange → Prop}
    (held : store.pool.leased.lookup lease = some connection)
    (traces : Traces lease operation first)
    (failed : ∀ error calls, first (.error error) calls → gives (.error error) calls)
    (later : ∀ result world calls, first (.ok result) calls →
      Ensures (next result) (store.withWorld world)
        ((store.withWorld world).Prolongs fun outcome more => gives outcome (calls ++ more))) :
    Ensures (operation >>= next) store (store.Prolongs gives) := by
  obtain ⟨outcome, world, calls, ran, grown, given⟩ := traces store connection held
  apply ensures_bind
  unfold Ensures
  rw [ran]
  cases outcome with
  | error error => exact ⟨calls, grown, failed _ _ given⟩
  | ok result =>
      show Ensures (next result) (store.withWorld world) (store.Prolongs gives)
      exact (later result world calls given).weaken fun _ _ prolongs => prolongs.after grown

private theorem prolongs_step_bind {result : α} {calls : List Exchange}
    (ran : operation.run store = (.ok result, between))
    (grown : between.pool.world.trace = store.pool.world.trace ++ calls)
    (later : Ensures (next result) between
      (between.Prolongs fun outcome more => gives outcome (calls ++ more))) :
    Ensures (operation >>= next) store (store.Prolongs gives) := by
  apply ensures_bind
  unfold Ensures
  rw [ran]
  exact later.weaken fun outcome after prolongs => prolongs.after grown

theorem prolongs_silent_bind {result : α} (ran : operation.run store = (.ok result, between))
    (same : between.pool = store.pool)
    (later : Ensures (next result) between (between.Prolongs gives)) :
    Ensures (operation >>= next) store (store.Prolongs gives) := by
  have grown : between.pool.world.trace = store.pool.world.trace ++ [] := by
    rw [same, List.append_nil]
  exact prolongs_step_bind ran grown later

private theorem prolongs_modify_bind {change : Store (Traced World) → Store (Traced World)}
    {next : Unit → Operation (Traced World) β} (same : (change store).pool = store.pool)
    (later : Ensures (next ()) (change store) ((change store).Prolongs gives)) :
    Ensures (modify change >>= next) store (store.Prolongs gives) :=
  prolongs_silent_bind (run_modify change store) same later

/-- A step without any calls that leaves the store as it is. -/
theorem prolongs_still_bind {outcome : Except Error α}
    (ran : operation.run store = (outcome, store))
    (failed : ∀ error, outcome = .error error → gives (.error error) [])
    (later : ∀ result, outcome = .ok result →
      Ensures (next result) store (store.Prolongs gives)) :
    Ensures (operation >>= next) store (store.Prolongs gives) := by
  cases outcome with
  | error error =>
      apply ensures_bind
      unfold Ensures
      rw [ran]
      exact ⟨[], (List.append_nil _).symm, failed error rfl⟩
  | ok result => exact prolongs_silent_bind ran rfl (later result rfl)

theorem prolongs_ensureOpen_bind {next : Unit → Operation (Traced World) β}
    (failed : store.isOpen = false → gives (.error .storeClosed) [])
    (later : store.isOpen = true → Ensures (next ()) store (store.Prolongs gives)) :
    Ensures (ensureOpen >>= next) store (store.Prolongs gives) := by
  have ran := run_ensureOpen store
  split at ran
  case isTrue isOpen => exact prolongs_silent_bind ran rfl (later isOpen)
  case isFalse closed =>
    refine prolongs_still_bind ran ?_ (by rintro _ ⟨⟩)
    rintro _ ⟨⟩
    exact failed (Bool.eq_false_iff.mpr closed)

private theorem prolongs_release_bind {next : Unit → Operation (Traced World) β}
    {connection : ConnectionId} (held : store.pool.leased.lookup lease = some connection)
    (later : ∀ (between : Store (Traced World)) (calls : List Exchange),
      (∀ call ∈ calls, call.Manages) → Ensures (next ()) between
        (between.Prolongs fun outcome more => gives outcome (calls ++ more))) :
    Ensures (release (inner.traced.session thread) lease >>= next) store
      (store.Prolongs gives) := by
  have releases := Pool.releases inner.traced.database store.clock lease store.pool
  obtain ⟨calls, grown, closes⟩ := Traced.trace_releases held releases
  refine prolongs_step_bind (run_release lease store) grown (later _ calls fun call member => ?_)
  exact (closes call member).imp (fun same => same) fun ⟨close, _⟩ => Or.inl close

private theorem prolongs_acquire_bind {next : LeaseId → Operation (Traced World) β}
    (failed : ∀ error pool calls, store.pool.acquire inner.traced.database = (.error error, pool) →
      (∀ call ∈ calls, call.Manages) → gives (.error error) calls)
    (later : ∀ lease pool calls, store.pool.acquire inner.traced.database = (.ok lease, pool) →
      (∀ call ∈ calls, call.Manages) → Ensures (next lease) { store with pool := pool }
        (({ store with pool := pool } : Store _).Prolongs fun outcome more =>
          gives outcome (calls ++ more))) :
    Ensures (acquire (inner.traced.session thread) >>= next) store (store.Prolongs gives) := by
  obtain ⟨calls, grown, opens⟩ := @Traced.trace_acquire _ inner.database store.pool
  have manages : ∀ call ∈ calls, call.Manages := fun call member => Or.inl (opens call member)
  have ran := @run_acquire _ (inner.traced.session thread) store
  rw [show (inner.traced.session thread).database = inner.traced.database from rfl] at ran
  rcases acquired : store.pool.acquire inner.traced.database with ⟨outcome, pool⟩
  rw [acquired] at ran
  rw [show store.pool.acquire (Traced.database inner.database) = _ from acquired] at grown
  cases outcome with
  | error error =>
      apply ensures_bind
      unfold Ensures
      rw [ran]
      exact ⟨calls, grown, failed error pool calls acquired manages⟩
  | ok lease => exact prolongs_step_bind ran grown (later lease pool calls acquired manages)

end Prolongs

/-! ### Units -/

section Units

variable {store : Store (Traced World)} {work : Work (Traced World) α}
  {gives : Except Error (α × WriteSet) → List Exchange → Prop}

/-- The outcome of a unit and its calls, given those of its work: the store is closed or
there is no connection for it, or the calls of its work are framed. -/
def UnitMakes (inner : Deployment World) (thread : ThreadId) (store : Store (Traced World))
    (gives : Except Error (α × WriteSet) → List Exchange → Prop) (outcome : Except Error α)
    (calls : List Exchange) : Prop :=
  ((store.isOpen = false ∨ store.transaction? thread = none ∧
      ∃ error pool, store.pool.acquire inner.traced.database = (.error error, pool)) ∧
    (∃ error, outcome = .error error) ∧ ∀ call ∈ calls, call.Manages) ∨
  ∃ done, outcome = done.map Prod.fst ∧ Framed gives done calls

variable (traces : ∀ lease, Traces lease (work lease) gives)
include traces

private theorem prolongs_unitInside {transaction : Transaction} {connection : ConnectionId}
    (held : store.pool.leased.lookup transaction.lease = some connection) :
    Ensures (unitInside (inner.traced.session thread) transaction work) store
      (store.Prolongs fun outcome calls =>
        ∃ done, outcome = done.map Prod.fst ∧ Framed gives done calls) := by
  have none : ∀ call ∈ ([] : List Exchange), call.Manages := fun _ member => nomatch member
  unfold unitInside
  refine prolongs_traces_bind held (traces_attempt (traces _)) ?_
    fun attempted world calls worked => ?_
  · rintro error calls ⟨_, impossible, _⟩
    cases impossible
  obtain ⟨_, same, given⟩ := worked
  cases same
  cases attempted with
  | ok result =>
      refine prolongs_modify_bind (pool_recordWrites _ _ _) ?_
      refine ⟨[], (List.append_nil _).symm, .ok result, rfl, ?_⟩
      simpa using Framed.worked given none none
  | error error =>
      refine prolongs_modify_bind rfl ?_
      refine prolongs_traces_bind held traces_rollbackQuietly ?_ fun _ _ after rolledBack => ?_
      · rintro error calls ⟨impossible, _⟩
        cases impossible
      refine prolongs_modify_bind (pool_restoreInstances _ _) ?_
      refine @prolongs_release_bind _ _ _ _ _ _ _ _ connection ?_ fun between more manage => ?_
      · rw [pool_restoreInstances]
        exact held
      refine ⟨[], (List.append_nil _).symm, .error error, rfl, ?_⟩
      have framed : Framed gives (.error error) ([] ++ calls ++ after) :=
        .worked given none rolledBack.2
      simpa using framed.append manage

private theorem prolongs_unitOutside {transactional : Bool}
    (outside : store.transaction? thread = none) :
    Ensures (unitOutside (inner.traced.session thread) transactional work) store
      (store.Prolongs (store.UnitMakes inner thread gives)) := by
  unfold unitOutside
  refine prolongs_silent_bind (run_get store) rfl ?_
  refine prolongs_acquire_bind ?_ fun lease pool before acquired manage => ?_
  · intro error pool calls failed manage
    exact Or.inl ⟨Or.inr ⟨outside, error, pool, failed⟩, ⟨error, rfl⟩, manage⟩
  obtain ⟨connection, held⟩ := Pool.lookup_leased_of_acquire acquired
  refine prolongs_traces_bind held (traces_attempt (traces_bracket (traces lease))) ?_
    fun attempted world calls worked => ?_
  · rintro error calls ⟨_, impossible, _⟩
    cases impossible
  obtain ⟨_, same, framed⟩ := worked
  cases same
  cases attempted with
  | ok result =>
      refine prolongs_modify_bind (pool_written _ _ _) ?_
      refine @prolongs_release_bind _ _ _ _ _ _ _ _ connection ?_ fun between after closes => ?_
      · simp only [pool_invalidateOwners]
        exact held
      refine ⟨[], (List.append_nil _).symm, Or.inr ⟨.ok result, rfl, ?_⟩⟩
      simpa using (framed.prepend manage).append closes
  | error error =>
      refine prolongs_release_bind held fun between after closes => ?_
      refine ⟨[], (List.append_nil _).symm, Or.inr ⟨.error error, rfl, ?_⟩⟩
      simpa using (framed.prepend manage).append closes

theorem prolongs_unit {transactional : Bool} (leased : store.Leased) :
    Ensures (unit (inner.traced.session thread) transactional work) store
      (store.Prolongs (store.UnitMakes inner thread gives)) := by
  unfold unit
  refine prolongs_ensureOpen_bind (fun closed => ?_) fun _ => ?_
  · exact Or.inl ⟨Or.inl closed, ⟨_, rfl⟩, fun _ member => nomatch member⟩
  refine prolongs_silent_bind (run_get store) rfl ?_
  cases inside : store.transaction? (inner.traced.session thread).thread with
  | none => exact prolongs_unitOutside traces inside
  | some transaction =>
      obtain ⟨connection, held⟩ := leased.connection inside
      refine (prolongs_unitInside traces held).weaken fun _ _ prolongs => ?_
      exact prolongs.weaken fun _ => Or.inr

end Units
end Store
end EntityStore
