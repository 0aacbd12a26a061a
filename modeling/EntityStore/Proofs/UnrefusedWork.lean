/-
Work to which nothing is refused. The trace says what was refused and which sequences gave
no value; where neither happened, the outcome of each pass of a save is known, and so are
the insertions that the trace shows.
-/

import EntityStore.Proofs.CallTraces

set_option autoImplicit false

namespace EntityStore

def Dialect.DrawsFromSequences (dialect : Dialect) : Prop :=
  dialect.hasSequences = true →
    ∀ sequence, ∃ statement, Statement.nextValue? dialect sequence = some statement

namespace Exchange

structure Serves (exchange : Exchange) : Prop where
  granted : ∃ rows, exchange.answer = .ok rows
  draws : ∀ statement sequence rows, exchange.deed = .query statement →
    statement.request = .nextValue sequence → exchange.answer = .ok rows →
    ∃ id, (rows.head?.bind fun row => (row.at? 0).bind Value.integer?) = some id

def insertion? (exchange : Exchange) : Option Statement :=
  match exchange.deed, exchange.answer with
  | .execute statement, .ok _ =>
      match statement.request with
      | .insert .. => some statement
      | _ => none
  | _, _ => none

end Exchange

namespace Store

variable {World α β : Type} {inner : Deployment World} {thread : ThreadId} {lease : LeaseId}

/-- The operation only makes calls on the connection of the lease. If all of them serve,
the outcome and the insertions in the trace are as `gives` says. -/
def Works (lease : LeaseId) (operation : Operation (Traced World) α)
    (gives : Except Error α → List Statement → Prop) : Prop :=
  ∀ (store : Store (Traced World)) (connection : ConnectionId),
    store.pool.leased.lookup lease = some connection →
    ∃ outcome world calls, operation.run store = (outcome, store.withWorld world) ∧
      world.trace = store.pool.world.trace ++ calls ∧
      ((∀ call ∈ calls, call.Serves) → gives outcome (calls.filterMap Exchange.insertion?))

theorem Works.weaken {operation : Operation (Traced World) α}
    {strong weak : Except Error α → List Statement → Prop} (works : Works lease operation strong)
    (weaker : ∀ outcome statements, strong outcome statements → weak outcome statements) :
    Works lease operation weak :=
  Traces.weaken works fun _ _ given serve => weaker _ _ (given serve)

theorem works_pure {result : α} {gives : Except Error α → List Statement → Prop}
    (given : gives (.ok result) []) :
    Works lease (pure result : Operation (Traced World) α) gives :=
  traces_pure fun _ => given

private theorem works_throw {error : Error} {gives : Except Error α → List Statement → Prop}
    (given : gives (.error error) []) :
    Works lease (throw error : Operation (Traced World) α) gives :=
  traces_throw fun _ => given

/-- The rule for sequences: the insertions of both parts stand one after the other. -/
theorem works_bind {operation : Operation (Traced World) α}
    {next : α → Operation (Traced World) β} {first : Except Error α → List Statement → Prop}
    {gives : Except Error β → List Statement → Prop} (worksFirst : Works lease operation first)
    (failed : ∀ error statements, first (.error error) statements →
      gives (.error error) statements)
    (worksNext : ∀ result, Works lease (next result) fun outcome later =>
      ∀ statements, first (.ok result) statements → gives outcome (statements ++ later)) :
    Works lease (operation >>= next) gives := by
  refine traces_bind worksFirst (fun _ _ given serve => failed _ _ (given serve))
    fun result calls givenFirst => ?_
  refine Traces.weaken (worksNext result) fun outcome later given serve => ?_
  rw [List.filterMap_append]
  exact given (fun call member => serve call (List.mem_append_right _ member)) _
    (givenFirst fun call member => serve call (List.mem_append_left _ member))

private theorem works_call {request : ConnectionId → Call World α} {deed : Deed}
    {rows : α → List Row} {gives : Except Error α → List Statement → Prop}
    (given : ∀ connection result, (⟨connection, deed, .ok (rows result)⟩ : Exchange).Serves →
      gives (.ok result)
        ([⟨connection, deed, .ok (rows result)⟩].filterMap Exchange.insertion?)) :
    Works lease (call lease fun connection =>
      Traced.tracing connection deed rows (request connection)) gives := by
  refine traces_call fun connection answer serve => ?_
  have serves := serve _ List.mem_cons_self
  cases answer with
  | ok result => exact given connection result serves
  | error fault =>
      obtain ⟨found, impossible⟩ := serves.granted
      cases impossible

/-! ### The passes of a save -/

def Succeeds (outcome : Except Error α) (statements : List Statement) : Prop :=
  (∃ result, outcome = .ok result) ∧ statements = []

private theorem works_query (statement : Statement) :
    Works lease (query (inner.traced.session thread) lease statement)
      fun outcome statements => (∃ rows, outcome = .ok rows ∧
        ∀ sequence, statement.request = .nextValue sequence →
          ∃ id, (rows.head?.bind fun row => (row.at? 0).bind Value.integer?) = some id) ∧
        statements = [] :=
  works_call fun _ rows serves =>
    ⟨⟨rows, rfl, fun sequence draws => serves.draws statement sequence rows rfl draws rfl⟩, rfl⟩

private theorem works_execute (statement : Statement) :
    Works lease (execute (inner.traced.session thread) lease statement)
      fun outcome statements => (∃ affected, outcome = .ok affected) ∧
        statements = (match statement.request with
          | .insert .. => [statement]
          | _ => []) := by
  refine works_call fun _ affected _ => ⟨⟨affected, rfl⟩, ?_⟩
  obtain ⟨text, values, request⟩ := statement
  cases request <;> rfl

private theorem works_drawId (draws : inner.dialect.DrawsFromSequences)
    (sequences : inner.dialect.hasSequences = true) (sequence : String) :
    Works lease (drawId (inner.traced.session thread) lease sequence) Succeeds := by
  obtain ⟨statement, next⟩ := draws sequences sequence
  have isDraw : statement.request = .nextValue ⟨none, sequence⟩ := by
    obtain ⟨text, _, rfl⟩ := Option.map_eq_some_iff.mp next
    rfl
  unfold drawId
  rw [show Statement.nextValue? (inner.traced.session thread).dialect sequence = some statement
    from next]
  refine works_bind (works_query statement) ?_ fun rows => ?_
  · rintro error statements ⟨⟨_, impossible, _⟩, _⟩
    cases impossible
  · dsimp only
    split
    · refine works_pure ?_
      rintro statements ⟨_, rfl⟩
      exact ⟨⟨_, rfl⟩, rfl⟩
    · rename_i empty
      refine works_throw ?_
      rintro statements ⟨⟨_, same, drawn⟩, rfl⟩
      cases same
      obtain ⟨id, found⟩ := drawn _ isDraw
      rw [empty] at found
      cases found

private theorem works_drawIds (draws : inner.dialect.DrawsFromSequences) (plan : List PlannedNode) :
    Works lease (drawIds (inner.traced.session thread) lease plan)
      fun outcome statements => (∃ ids, outcome = .ok ids ∧ ids.map Prod.fst =
        (plan.filter fun planned => (planned.sequence? inner.dialect).isSome).map
          PlannedNode.place) ∧ statements = [] := by
  induction plan with
  | nil => exact works_pure ⟨⟨[], rfl, rfl⟩, rfl⟩
  | cons planned rest ih =>
      unfold drawIds
      cases sequenced : planned.sequence? inner.dialect with
      | none =>
          rw [show planned.sequence? (inner.traced.session thread).dialect = none from sequenced,
            List.filter_cons_of_neg (by simp [sequenced])]
          exact ih
      | some sequence =>
          have sequences : inner.dialect.hasSequences = true := by
            unfold PlannedNode.sequence? at sequenced
            split at sequenced
            · rename_i both
              exact (Bool.and_eq_true_iff.mp both).2
            · cases sequenced
          rw [show planned.sequence? (inner.traced.session thread).dialect = some sequence
            from sequenced, List.filter_cons_of_pos (by simp [sequenced])]
          refine works_bind (works_drawId draws sequences sequence) ?_ fun id => ?_
          · rintro error statements ⟨⟨_, impossible⟩, _⟩
            cases impossible
          refine works_bind ih ?_ fun ids => works_pure ?_
          · rintro error later ⟨⟨_, impossible, _⟩, _⟩
            cases impossible
          · rintro later ⟨⟨_, same, places⟩, rfl⟩ statements ⟨_, rfl⟩
            cases same
            exact ⟨⟨_, rfl, by rw [List.map_cons, List.map_cons, places]⟩, rfl⟩

def IsInsertion (dialect : Dialect) (mapping : Mapping) (statement : Statement) : Prop :=
  ∃ columns, statement = Statement.insert dialect mapping columns

private theorem works_insert (ids : Ids) (waiting : Waiting) :
    Works lease (insert (inner.traced.session thread) lease ids waiting)
      fun outcome statements => (∃ written, outcome = .ok written) ∧
        ∃ statement, statements = [statement] ∧
          IsInsertion inner.dialect waiting.planned.mapping statement := by
  unfold insert
  refine works_bind (works_execute _) ?_ fun affected => ?_
  · rintro error statements ⟨⟨_, impossible⟩, _⟩
    cases impossible
  dsimp only
  split
  · refine works_pure ?_
    rintro statements ⟨_, rfl⟩
    exact ⟨⟨_, rfl⟩, _, rfl, _, rfl⟩
  · have asks : Works lease (call lease (inner.traced.session thread).database.lastInsertId)
        Succeeds := works_call fun _ id _ => ⟨⟨id, rfl⟩, rfl⟩
    refine works_bind asks ?_ fun id => works_pure ?_
    · rintro error later ⟨⟨_, impossible⟩, _⟩
      cases impossible
    · rintro later ⟨_, rfl⟩ statements ⟨_, rfl⟩
      exact ⟨⟨_, rfl⟩, _, rfl, _, rfl⟩

private theorem works_insertAll (insertions : List Waiting) (ids : Ids) :
    Works lease (insertAll (inner.traced.session thread) lease insertions ids)
      fun outcome statements => (∃ result, outcome = .ok result) ∧
        List.Forall₂ (fun waiting => IsInsertion inner.dialect waiting.planned.mapping)
          insertions statements := by
  induction insertions generalizing ids with
  | nil => exact works_pure ⟨⟨_, rfl⟩, .nil⟩
  | cons waiting rest ih =>
      unfold insertAll
      refine works_bind (works_insert ids waiting) ?_ fun written => ?_
      · rintro error statements ⟨⟨_, impossible⟩, _⟩
        cases impossible
      refine works_bind (ih _) ?_ fun later => works_pure ?_
      · rintro error later ⟨⟨_, impossible⟩, _⟩
        cases impossible
      · rintro later ⟨_, inserts⟩ statements ⟨_, statement, rfl, isInsertion⟩
        rw [List.append_nil]
        exact ⟨⟨_, rfl⟩, .cons isInsertion inserts⟩

private theorem works_update (mapping : Mapping) (columns : List (String × Value)) (id : Int64) :
    Works lease (update (inner.traced.session thread) lease mapping columns id) Succeeds := by
  unfold update
  split
  · refine works_bind (works_execute _) ?_ fun affected => works_pure ?_
    · rintro error statements ⟨⟨_, impossible⟩, _⟩
      cases impossible
    · rintro statements ⟨_, rfl⟩
      exact ⟨⟨_, rfl⟩, rfl⟩
  · exact works_pure ⟨⟨_, rfl⟩, rfl⟩

private theorem works_completeAll (ids : Ids) (inserted : List (Waiting × Written)) :
    Works lease (completeAll (inner.traced.session thread) lease ids inserted) Succeeds := by
  induction inserted with
  | nil => exact works_pure ⟨⟨_, rfl⟩, rfl⟩
  | cons entry rest ih =>
      unfold completeAll
      refine works_bind (works_update _ _ _) ?_ fun _ => ?_
      · rintro error statements ⟨⟨_, impossible⟩, _⟩
        cases impossible
      refine works_bind ih ?_ fun later => works_pure ?_
      · rintro error later ⟨⟨_, impossible⟩, _⟩
        cases impossible
      · rintro later ⟨_, rfl⟩ statements ⟨_, rfl⟩
        exact ⟨⟨_, rfl⟩, rfl⟩

def FindsNoCircle (outcome : Except Error α) : Prop :=
  ∀ circle, outcome ≠ .error (.integrity (.referenceCycle circle))

private theorem works_rowBefore (content : Instance) :
    Works lease (rowBefore (inner.traced.session thread) lease content)
      fun outcome statements => FindsNoCircle outcome ∧ statements = [] := by
  have worksFetch : Works lease
      (fetchRow (inner.traced.session thread) lease content.mapping content.key) Succeeds := by
    unfold fetchRow
    split
    · exact works_pure ⟨⟨_, rfl⟩, rfl⟩
    · refine works_bind (works_query _) ?_ fun rows => works_pure ?_
      · rintro error statements ⟨⟨_, impossible, _⟩, _⟩
        cases impossible
      · rintro statements ⟨_, rfl⟩
        exact ⟨⟨_, rfl⟩, rfl⟩
  unfold rowBefore
  split
  · exact works_pure ⟨by rintro circle ⟨⟩, rfl⟩
  · refine works_bind worksFetch ?_ fun row => ?_
    · rintro error statements ⟨⟨_, impossible⟩, _⟩
      cases impossible
    split
    · refine works_pure ?_
      rintro statements ⟨_, rfl⟩
      exact ⟨by rintro circle ⟨⟩, rfl⟩
    · refine works_throw ?_
      rintro statements ⟨_, rfl⟩
      exact ⟨by rintro circle ⟨⟩, rfl⟩

private theorem works_updateAll (ids : Ids) (plan : List PlannedNode) :
    Works lease (updateAll (inner.traced.session thread) lease ids plan)
      fun outcome statements => FindsNoCircle outcome ∧ statements = [] := by
  induction plan with
  | nil => exact works_pure ⟨by rintro circle ⟨⟩, rfl⟩
  | cons planned rest ih =>
      unfold updateAll
      split
      · refine works_bind (works_rowBefore _) ?_ fun old => ?_
        · exact fun error statements found =>
            ⟨fun circle same => found.1 circle (by cases same; rfl), found.2⟩
        dsimp only
        refine works_bind (works_update _ _ _) ?_ fun _ => ?_
        · rintro error later ⟨⟨_, impossible⟩, _⟩
          cases impossible
        refine works_bind ih ?_ fun later => works_pure ?_
        · rintro error later ⟨found, rfl⟩ statements ⟨_, rfl⟩ earlier ⟨_, rfl⟩
          exact ⟨fun circle same => found circle (by cases same; rfl), rfl⟩
        · rintro more ⟨_, rfl⟩ statements ⟨_, rfl⟩ earlier ⟨_, rfl⟩
          exact ⟨by rintro circle ⟨⟩, rfl⟩
      · exact ih

private theorem works_finish (ids : Ids) (inserted : List (Waiting × Written))
    (plan : List PlannedNode) :
    Works lease (do
      let completed ← completeAll (inner.traced.session thread) lease ids inserted
      let changed ← updateAll (inner.traced.session thread) lease ids plan
      return completed ++ changed)
      fun outcome statements => FindsNoCircle outcome ∧ statements = [] := by
  refine works_bind (works_completeAll ids inserted) ?_ fun completed => ?_
  · rintro error statements ⟨⟨_, impossible⟩, _⟩
    cases impossible
  refine works_bind (works_updateAll ids plan) ?_ fun changed => works_pure ?_
  · rintro error later ⟨found, rfl⟩ statements ⟨_, rfl⟩
    exact ⟨fun circle same => found circle (by cases same; rfl), rfl⟩
  · rintro later ⟨_, rfl⟩ statements ⟨_, rfl⟩
    exact ⟨by rintro circle ⟨⟩, rfl⟩

/-- The places whose ids are known before anything is inserted: those of the instances
that have an id and of those that draw one. -/
def placesKnown (dialect : Dialect) (plan : List PlannedNode) : List Nat :=
  (plan.filterMap PlannedNode.id?).map Prod.fst ++
    (plan.filter fun planned => (planned.sequence? dialect).isSome).map PlannedNode.place

def scheduleOf (dialect : Dialect) (plan : List PlannedNode) : Schedule :=
  Schedule.ofPlan (placesKnown dialect plan) plan

structure KeepsSchedule (dialect : Dialect) (plan : List PlannedNode) (outcome : Except Error α)
    (statements : List Statement) : Prop where
  circle : (∃ circle, outcome = .error (.integrity (.referenceCycle circle))) ↔
    (scheduleOf dialect plan).stuck ≠ []
  inserts : List.Forall₂ (fun waiting => IsInsertion dialect waiting.planned.mapping)
    (scheduleOf dialect plan).insertions statements

/-- What counts is how the outcome fails. -/
theorem KeepsSchedule.transfer {dialect : Dialect} {plan : List PlannedNode}
    {outcome : Except Error α} {other : Except Error β} {statements : List Statement}
    (keeps : KeepsSchedule dialect plan outcome statements)
    (same : ∀ error, other = .error error ↔ outcome = .error error) :
    KeepsSchedule dialect plan other statements :=
  ⟨(exists_congr fun _ => same _).trans keeps.circle, keeps.inserts⟩

theorem works_writeAll (draws : inner.dialect.DrawsFromSequences) (plan : List PlannedNode) :
    Works lease (writeAll (inner.traced.session thread) lease plan)
      (KeepsSchedule inner.dialect plan) := by
  unfold writeAll
  refine works_bind (works_drawIds draws plan) ?_ fun drawn => ?_
  · rintro error statements ⟨⟨_, impossible, _⟩, _⟩
    cases impossible
  dsimp only
  -- The schedule depends on which ids are known, not on their values.
  have schedule {ids : Ids} (places : ids.map Prod.fst =
      (plan.filter fun planned => (planned.sequence? inner.dialect).isSome).map
        PlannedNode.place) :
      Schedule.ofPlan ((plan.filterMap PlannedNode.id? ++ ids).map Prod.fst) plan
        = scheduleOf inner.dialect plan := by
    rw [List.map_append, places]
    rfl
  refine works_bind (works_insertAll _ _) ?_ ?_
  · rintro error statements ⟨⟨_, impossible⟩, _⟩
    cases impossible
  rintro ⟨inserted, known⟩
  dsimp only
  split
  · rename_i isStuck
    have stuck : (Schedule.ofPlan ((plan.filterMap PlannedNode.id? ++ drawn).map Prod.fst)
        plan).stuck ≠ [] := by simpa using isStuck
    have fails : Works lease
        (throw (.integrity (.referenceCycle ((Schedule.ofPlan
          ((plan.filterMap PlannedNode.id? ++ drawn).map Prod.fst) plan).circle plan))) :
          Operation (Traced World) PUnit) fun outcome statements =>
        outcome = .error (.integrity (.referenceCycle ((Schedule.ofPlan
          ((plan.filterMap PlannedNode.id? ++ drawn).map Prod.fst) plan).circle plan))) ∧
          statements = [] := works_throw ⟨rfl, rfl⟩
    refine works_bind fails ?_ fun _ => ?_
    · rintro error later ⟨same, rfl⟩ statements ⟨_, inserts⟩ earlier ⟨⟨_, same', places⟩, rfl⟩
      cases same
      cases same'
      rw [schedule places] at stuck inserts
      rw [List.append_nil, List.nil_append]
      exact ⟨iff_of_true ⟨_, rfl⟩ stuck, inserts⟩
    · refine (works_finish known inserted plan).weaken fun _ _ _ _ ⟨impossible, _⟩ => ?_
      cases impossible
  · rename_i isFree
    have free : (Schedule.ofPlan ((plan.filterMap PlannedNode.id? ++ drawn).map Prod.fst)
        plan).stuck = [] := by simpa using isFree
    refine (works_finish known inserted plan).weaken ?_
    rintro outcome later ⟨found, rfl⟩ statements ⟨_, inserts⟩ earlier ⟨⟨_, same, places⟩, rfl⟩
    cases same
    rw [schedule places] at free inserts
    rw [List.append_nil, List.nil_append]
    exact ⟨iff_of_false (fun ⟨circle, same⟩ => found circle same) (not_not_intro free), inserts⟩

end Store
end EntityStore
