/-
Inside and outside of transactions, as the trace of a database tells it. A granted begin
takes a connection inside, a granted commit or rollback takes it outside again. On a
database that keeps count of this for each connection, what is done with a connection that
was acquired goes from one side to the other as it should, and none waits in the pool that
is inside.
-/

import EntityStore.Proofs.Failures

set_option autoImplicit false

namespace EntityStore

/-! ### Traces -/

/-- On which side a connection is after a call: whether it is inside of a transaction. -/
def Exchange.side (connection : ConnectionId) (inside : Bool) (call : Exchange) : Bool :=
  if call.connection = connection then
    match call.deed, call.answer with
    | .begin, .ok _ => true
    | .commit, .ok _ => false
    | .rollback, .ok _ => false
    | _, _ => inside
  else inside

def Deed.Fits (inside : Bool) : Deed → Prop
  | .begin => inside = false
  | .commit | .rollback | .execute _ => inside = true
  | _ => True

def insideAfter (connection : ConnectionId) (trace : List Exchange) : Bool :=
  trace.foldl (Exchange.side connection) false

def WellBracketed (trace : List Exchange) : Prop :=
  ∀ earlier call later, trace = earlier ++ call :: later →
    call.deed.Fits (insideAfter call.connection earlier)

def Exchange.Ends (connection : ConnectionId) (call : Exchange) : Prop :=
  call.connection = connection ∧ (call.deed = .commit ∨ call.deed = .rollback) ∧
    ∃ rows, call.answer = .ok rows

def Exchange.Begins (connection : ConnectionId) (call : Exchange) : Prop :=
  call.connection = connection ∧ call.deed = .begin ∧ ∃ rows, call.answer = .ok rows

section Traces

variable {connection other : ConnectionId} {trace calls : List Exchange} {call : Exchange}

private theorem insideAfter_snoc (connection : ConnectionId) (trace : List Exchange)
    (call : Exchange) :
    insideAfter connection (trace ++ [call]) = call.side connection (insideAfter connection trace) := by
  unfold insideAfter
  rw [List.foldl_append]
  rfl

theorem Exchange.side_of_ne (apart : call.connection ≠ connection) (inside : Bool) :
    call.side connection inside = inside := if_neg apart

private theorem insideAfter_append_of_same
    (same : ∀ call ∈ calls, ∀ inside, call.side connection inside = inside) :
    insideAfter connection (trace ++ calls) = insideAfter connection trace := by
  induction calls generalizing trace with
  | nil => rw [List.append_nil]
  | cons call rest ih =>
      have later := @ih (trace ++ [call]) fun other member => same other (List.mem_cons_of_mem _ member)
      rw [List.append_assoc, List.singleton_append] at later
      rw [later, insideAfter_snoc, same call List.mem_cons_self]

private theorem insideAfter_append_of_ne (apart : ∀ call ∈ calls, call.connection ≠ connection) :
    insideAfter connection (trace ++ calls) = insideAfter connection trace :=
  insideAfter_append_of_same fun call member _ => call.side_of_ne (apart call member) _

theorem WellBracketed.snoc (bracketed : WellBracketed trace)
    (fits : call.deed.Fits (insideAfter call.connection trace)) :
    WellBracketed (trace ++ [call]) := by
  intro earlier found later split
  rcases List.eq_nil_or_concat later with rfl | ⟨between, last, rfl⟩
  · obtain ⟨rfl, same⟩ := List.append_inj' split rfl
    obtain ⟨rfl, _⟩ := List.cons.inj same
    exact fits
  · rw [List.concat_eq_append, ← List.cons_append, ← List.append_assoc] at split
    exact bracketed earlier found between (List.append_inj' split rfl).1

theorem Exchange.side_of_not_begins (stays : ¬call.Begins connection) :
    call.side connection false = false := by
  unfold side
  split
  · rename_i same
    split
    · rename_i deed answer
      exact absurd ⟨same, deed, _, answer⟩ stays
    all_goals rfl
  · rfl

theorem Exchange.Ends.side (ends : call.Ends connection) (inside : Bool) :
    call.side connection inside = false := by
  obtain ⟨same, deed, rows, answer⟩ := ends
  unfold Exchange.side
  rw [if_pos same, answer]
  rcases deed with deed | deed <;> rw [deed]

theorem WellBracketed.append (bracketed : WellBracketed trace)
    (free : ∀ call ∈ calls, ∀ inside, call.deed.Fits inside) : WellBracketed (trace ++ calls) := by
  induction calls generalizing trace with
  | nil =>
      rw [List.append_nil]
      exact bracketed
  | cons call rest ih =>
      have later := ih (bracketed.snoc (free call List.mem_cons_self _)) fun other member =>
        free other (List.mem_cons_of_mem call member)
      rw [List.append_assoc] at later
      exact later

/-- A connection that got inside has begun a transaction. -/
theorem exists_begins (outside : insideAfter connection trace = false)
    (inside : insideAfter connection (trace ++ calls) = true) :
    ∃ call ∈ calls, call.Begins connection := by
  induction calls generalizing trace with
  | nil =>
      rw [List.append_nil, outside] at inside
      cases inside
  | cons call rest ih =>
      by_cases begins : call.Begins connection
      · exact ⟨call, List.mem_cons_self, begins⟩
      · have still : insideAfter connection (trace ++ [call]) = false := by
          rw [insideAfter_snoc, outside, Exchange.side_of_not_begins begins]
        rw [← List.singleton_append, ← List.append_assoc] at inside
        obtain ⟨found, member, begun⟩ := ih still inside
        exact ⟨found, List.mem_cons_of_mem call member, begun⟩

/-- Between two ends of transactions on a connection a transaction was begun. -/
theorem WellBracketed.begins_between {earlier between later : List Exchange}
    {first second : Exchange}
    (bracketed : WellBracketed (earlier ++ first :: between ++ second :: later))
    (endsFirst : first.Ends connection) (endsSecond : second.Ends connection) :
    ∃ call ∈ between, call.Begins connection := by
  have fits := bracketed _ second later rfl
  rw [endsSecond.1] at fits
  have inside : insideAfter connection (earlier ++ first :: between) = true := by
    rcases endsSecond.2.1 with deed | deed <;> rw [deed] at fits <;> exact fits
  have outside : insideAfter connection (earlier ++ [first]) = false := by
    rw [insideAfter_snoc, endsFirst.side]
  rw [← List.singleton_append, ← List.append_assoc] at inside
  exact exists_begins outside inside

end Traces

/-! ### Databases that keep count -/

def Database.undergo {World : Type} (database : Database World) (connection : ConnectionId)
    (world : World) : Deed → World
  | .connect => (database.connect connection world).2
  | .execute statement => (database.execute connection statement world).2
  | .query statement => (database.query connection statement world).2
  | .lastInsertId => (database.lastInsertId connection world).2
  | .begin => (database.begin connection world).2
  | .commit => (database.commit connection world).2
  | .rollback => (database.rollback connection world).2
  | .tableExists table => (database.tableExists connection table world).2
  | .close => (database.close connection world).2

/-- The database says of each connection whether it is inside of a transaction. A begin that
is granted leads inside and a commit or a rollback that is granted leads outside, whereas
one that fails leaves the connection where it is. To open a connection leads none inside.
Questions and checks change nothing, and no call changes anything for another connection. -/
structure Database.TracksTransactions {World : Type} (database : Database World) : Prop where
  connected : ∀ connection world, database.inTransaction connection world = false →
    database.inTransaction connection (database.connect connection world).2 = false
  begun : ∀ connection world, database.inTransaction connection (database.begin connection world).2
    = ((database.begin connection world).1.isOk || database.inTransaction connection world)
  committed : ∀ connection world,
    database.inTransaction connection (database.commit connection world).2
      = (!(database.commit connection world).1.isOk && database.inTransaction connection world)
  rolledBack : ∀ connection world,
    database.inTransaction connection (database.rollback connection world).2
      = (!(database.rollback connection world).1.isOk && database.inTransaction connection world)
  asked : ∀ connection question world,
    database.inTransaction connection (database.ask connection question world).2
      = database.inTransaction connection world
  checked : ∀ connection other world,
    database.inTransaction other (database.isValid connection world).2
      = database.inTransaction other world
  others : ∀ connection other deed world, other ≠ connection →
    database.inTransaction other (database.undergo connection world deed)
      = database.inTransaction other world

namespace Traced

variable {World α : Type} {inner : Database World}
  {connection other : ConnectionId} {traced between after : Traced World} {inside : Bool}

structure Stands (inner : Database World) (connection : ConnectionId) (inside : Bool)
    (traced : Traced World) : Prop where
  told : insideAfter connection traced.trace = inside
  kept : inner.inTransaction connection traced.world = inside

structure Worked (inner : Database World) (connection : ConnectionId) (traced : Traced World)
    (inside : Bool) (after : Traced World) : Prop where
  calls : ∃ calls, after.trace = traced.trace ++ calls ∧
    ∀ call ∈ calls, call.connection = connection
  bracketed : WellBracketed traced.trace → WellBracketed after.trace
  stands : after.Stands inner connection inside
  others : ∀ other, other ≠ connection →
    inner.inTransaction other after.world = inner.inTransaction other traced.world

theorem Worked.trans {ended : Bool} (first : Worked inner connection traced inside between)
    (second : Worked inner connection between ended after) :
    Worked inner connection traced ended after := by
  obtain ⟨callsFirst, grownFirst, onFirst⟩ := first.calls
  obtain ⟨callsSecond, grownSecond, onSecond⟩ := second.calls
  refine ⟨⟨callsFirst ++ callsSecond, ?_, ?_⟩, fun bracketed =>
    second.bracketed (first.bracketed bracketed), second.stands, fun other apart =>
    (second.others other apart).trans (first.others other apart)⟩
  · rw [grownSecond, grownFirst, List.append_assoc]
  · intro call member
    exact (List.mem_append.mp member).elim (onFirst call) (onSecond call)

theorem Worked.refl (stands : traced.Stands inner connection inside) :
    Worked inner connection traced inside traced :=
  ⟨⟨[], (List.append_nil _).symm, fun _ member => by cases member⟩, id, stands, fun _ _ => rfl⟩

theorem Worked.insideAfter_other (worked : Worked inner connection traced inside after)
    (apart : other ≠ connection) :
    insideAfter other after.trace = insideAfter other traced.trace := by
  obtain ⟨calls, grown, on⟩ := worked.calls
  rw [grown]
  exact insideAfter_append_of_ne fun call member same => apart (same.symm.trans (on call member))

/-! ### Calls -/

section Calls

variable (tracks : inner.TracksTransactions)
include tracks

private theorem worked_tracing {deed : Deed} {rows : α → List Row} {request : Call World α}
    {ended : Bool} (stands : traced.Stands inner connection inside) (fits : deed.Fits inside)
    (undergoes : (request traced.world).2 = inner.undergo connection traced.world deed)
    (told : (Exchange.mk connection deed ((request traced.world).1.map rows)).side connection inside
      = ended)
    (kept : inner.inTransaction connection (request traced.world).2 = ended) :
    Worked inner connection traced ended (tracing connection deed rows request traced).2 := by
  refine ⟨⟨_, rfl, fun call member => by rw [List.mem_singleton.mp member]⟩, fun bracketed => ?_,
    ⟨?_, kept⟩, fun other apart => ?_⟩
  · refine bracketed.snoc ?_
    rw [stands.told]
    exact fits
  · rw [← told, ← stands.told]
    exact insideAfter_snoc _ _ _
  · show inner.inTransaction other (request traced.world).2 = _
    rw [undergoes]
    exact tracks.others connection other deed traced.world apart

theorem worked_begin {outcome : Except DatabaseError Unit}
    (stands : traced.Stands inner connection false)
    (begins : (database inner).begin connection traced = (outcome, after)) :
    Worked inner connection traced outcome.isOk after := by
  obtain ⟨rfl, rfl⟩ := Prod.mk.inj begins
  refine worked_tracing tracks stands rfl rfl ?_ ?_
  · cases (inner.begin connection traced.world).1 <;> simp [Exchange.side, Except.map, Except.isOk, Except.toBool]
  · rw [tracks.begun, stands.kept, Bool.or_false]

theorem worked_commit {outcome : Except DatabaseError Unit}
    (stands : traced.Stands inner connection true)
    (commits : (database inner).commit connection traced = (outcome, after)) :
    Worked inner connection traced (!outcome.isOk) after := by
  obtain ⟨rfl, rfl⟩ := Prod.mk.inj commits
  refine worked_tracing tracks stands rfl rfl ?_ ?_
  · cases (inner.commit connection traced.world).1 <;> simp [Exchange.side, Except.map, Except.isOk, Except.toBool]
  · rw [tracks.committed, stands.kept, Bool.and_true]

theorem worked_rollback {outcome : Except DatabaseError Unit}
    (stands : traced.Stands inner connection true)
    (rollsBack : (database inner).rollback connection traced = (outcome, after)) :
    Worked inner connection traced (!outcome.isOk) after := by
  obtain ⟨rfl, rfl⟩ := Prod.mk.inj rollsBack
  refine worked_tracing tracks stands rfl rfl ?_ ?_
  · cases (inner.rollback connection traced.world).1 <;> simp [Exchange.side, Except.map, Except.isOk, Except.toBool]
  · rw [tracks.rolledBack, stands.kept, Bool.and_true]

private theorem worked_ask (stands : traced.Stands inner connection inside) {question : Question}
    (fits : question.deed.Fits inside) :
    Worked inner connection traced inside ((database inner).ask connection question traced).2 := by
  have kept := tracks.asked connection question traced.world
  rw [stands.kept] at kept
  cases question <;> exact worked_tracing tracks stands fits rfl (by simp [Exchange.side]) kept

/-- Questions leave a connection where it is; what is executed comes inside. -/
theorem worked_asked {fits : Mapping → Prop} {writes : Bool} {log : List Event}
    (stands : traced.Stands inner connection inside) (allowed : writes = true → inside = true)
    (asked : Asked (database inner) (Question.Issued fits writes) connection traced log after) :
    Worked inner connection traced inside after := by
  have fitting : ∀ question, Question.Issued fits writes question → question.deed.Fits inside := by
    intro question issued
    cases issued with
    | execute isWriting _ => exact allowed isWriting
    | _ => trivial
  induction asked with
  | done world => exact .refl stands
  | answered issued answer _ ih =>
      have step := worked_ask tracks stands (fitting _ issued)
      rw [answer] at step
      exact step.trans (ih step.stands)
  | refused issued answer _ ih =>
      have step := worked_ask tracks stands (fitting _ issued)
      rw [answer] at step
      exact step.trans (ih step.stands)

/-- A unit of its own starts outside; whether it ends there depends on its rollback. -/
theorem worked_bracketed {fits : Mapping → Prop} {transactional : Bool}
    {gives : α × WriteSet → List Event → Prop} {outcome : Except Error (α × WriteSet)}
    (stands : traced.Stands inner connection false)
    (bracketed : Bracketed (database inner) (Question.Issued fits transactional) connection gives
      transactional traced outcome after) :
    ∃ inside, Worked inner connection traced inside after := by
  cases bracketed with
  | done asked _ => exact ⟨_, worked_asked tracks stands (fun impossible => by cases impossible) asked⟩
  | undone asked => exact ⟨_, worked_asked tracks stands (fun impossible => by cases impossible) asked⟩
  | notBegun begins => exact ⟨_, worked_begin tracks stands begins⟩
  | failed begins asked rollsBack =>
      have begun := worked_begin tracks stands begins
      have worked := begun.trans (worked_asked tracks begun.stands (fun _ => rfl) asked)
      exact ⟨_, worked.trans (worked_rollback tracks worked.stands rollsBack)⟩
  | notCommitted begins asked commits rollsBack =>
      have begun := worked_begin tracks stands begins
      have worked := begun.trans (worked_asked tracks begun.stands (fun _ => rfl) asked)
      have refused := worked.trans (worked_commit tracks worked.stands commits)
      exact ⟨_, refused.trans (worked_rollback tracks refused.stands rollsBack)⟩
  | committed begins asked _ commits =>
      have begun := worked_begin tracks stands begins
      have worked := begun.trans (worked_asked tracks begun.stands (fun _ => rfl) asked)
      exact ⟨_, worked.trans (worked_commit tracks worked.stands commits)⟩

end Calls

/-! ### Calls of the pool -/

def Aside (traced after : Traced World) : Prop :=
  ∃ calls, after.trace = traced.trace ++ calls ∧
    ∀ call ∈ calls, call.deed = .connect ∨ call.deed = .close

theorem Aside.refl (traced : Traced World) : Aside traced traced :=
  ⟨[], (List.append_nil _).symm, fun _ member => by cases member⟩

theorem Aside.insideAfter (aside : Aside traced after) (connection : ConnectionId) :
    insideAfter connection after.trace = insideAfter connection traced.trace := by
  obtain ⟨calls, grown, deeds⟩ := aside
  rw [grown]
  refine insideAfter_append_of_same fun call member inside => ?_
  unfold Exchange.side
  rcases deeds call member with deed | deed <;> rw [deed] <;> simp

theorem Aside.wellBracketed (aside : Aside traced after) (bracketed : WellBracketed traced.trace) :
    WellBracketed after.trace := by
  obtain ⟨calls, grown, deeds⟩ := aside
  rw [grown]
  refine bracketed.append fun call member inside => ?_
  rcases deeds call member with deed | deed <;> rw [deed] <;> trivial

private theorem aside_of_opens {calls : List Exchange} (grown : after.trace = traced.trace ++ calls)
    (opens : ∀ call ∈ calls, call.deed = .connect) : Aside traced after :=
  ⟨calls, grown, fun call member => Or.inl (opens call member)⟩

private theorem aside_close (same : between.trace = traced.trace) (connection : ConnectionId) :
    Aside traced ((database inner).close connection between).2 := by
  rcases closes : (database inner).close connection between with ⟨outcome, after⟩
  refine ⟨_, (trace_of_tracing closes).trans (by rw [same]), fun call member => ?_⟩
  rw [List.mem_singleton.mp member]
  exact Or.inr rfl

end Traced

/-! ### Pools -/

namespace Pool

variable {World : Type} {inner : Database World} {pool after : Pool (Traced World)}
  {lease : LeaseId} {connection : ConnectionId}

structure InBrackets (inner : Database World) (pool : Pool (Traced World)) : Prop where
  trace : WellBracketed pool.world.trace
  agrees : ∀ connection, connection ∈ pool.connections ∨ pool.totalCreated ≤ connection →
    inner.inTransaction connection pool.world.world = insideAfter connection pool.world.trace
  waiting : ∀ connection ∈ pool.idle.map IdleConnection.connection,
    insideAfter connection pool.world.trace = false
  unused : ∀ connection, pool.totalCreated ≤ connection →
    insideAfter connection pool.world.trace = false

theorem InBrackets.transfer (brackets : pool.InBrackets inner)
    (aside : Traced.Aside pool.world after.world) (created : pool.totalCreated ≤ after.totalCreated)
    (known : ∀ connection ∈ after.connections,
      connection ∈ pool.connections ∨ pool.totalCreated ≤ connection)
    (kept : ∀ connection, connection ∈ after.connections ∨ pool.totalCreated ≤ connection →
      inner.inTransaction connection after.world.world
        = inner.inTransaction connection pool.world.world)
    (waiting : ∀ connection ∈ after.idle.map IdleConnection.connection,
      connection ∈ pool.idle.map IdleConnection.connection ∨ pool.totalCreated ≤ connection ∨
        inner.inTransaction connection after.world.world = false) :
    after.InBrackets inner := by
  have agrees : ∀ connection, connection ∈ after.connections ∨ pool.totalCreated ≤ connection →
      inner.inTransaction connection after.world.world
        = insideAfter connection after.world.trace := by
    intro connection isOne
    rw [aside.insideAfter, kept connection isOne]
    exact brackets.agrees connection (isOne.elim (known connection) Or.inr)
  refine ⟨aside.wellBracketed brackets.trace, ?_, ?_, ?_⟩
  · intro connection isOne
    exact agrees connection (isOne.imp_right (Nat.le_trans created))
  · intro connection member
    rcases waiting connection member with isOld | isNew | outside
    · rw [aside.insideAfter]
      exact brackets.waiting connection isOld
    · rw [aside.insideAfter]
      exact brackets.unused connection isNew
    · rw [← agrees connection (Or.inl (List.mem_append_left _ member))]
      exact outside
  · intro connection above
    rw [aside.insideAfter]
    exact brackets.unused connection (Nat.le_trans created above)

theorem InBrackets.stands (brackets : pool.InBrackets inner) (known : connection ∈ pool.connections) :
    pool.world.Stands inner connection (insideAfter connection pool.world.trace) :=
  ⟨rfl, brackets.agrees connection (Or.inl known)⟩

theorem mem_connections_of_held (held : pool.leased.lookup lease = some connection) :
    connection ∈ pool.connections :=
  List.mem_append_right _ (List.mem_map.mpr ⟨_, mem_of_lookup held, rfl⟩)

theorem lease_eq_of_held {first second : LeaseId} (numbered : pool.Numbered)
    (holdsFirst : pool.leased.lookup first = some connection)
    (holdsSecond : pool.leased.lookup second = some connection) : first = second := by
  have distinct : (pool.leased.map Prod.snd).Nodup :=
    (List.sublist_append_right _ _).nodup numbered.connections
  exact congrArg Prod.fst (List.inj_on_of_nodup_map distinct (mem_of_lookup holdsFirst)
    (mem_of_lookup holdsSecond) rfl)

/-- Work on a connection that is leased. -/
theorem InBrackets.work (brackets : pool.InBrackets inner) (numbered : pool.Numbered)
    {world : Traced World} {inside : Bool} (held : pool.leased.lookup lease = some connection)
    (worked : Traced.Worked inner connection pool.world inside world) :
    ({ pool with world := world } : Pool (Traced World)).InBrackets inner := by
  have leased : connection ∈ pool.leased.map Prod.snd :=
    List.mem_map.mpr ⟨_, mem_of_lookup held, rfl⟩
  have below := numbered.created connection (mem_connections_of_held held)
  refine ⟨worked.bracketed brackets.trace, ?_, ?_, ?_⟩
  · intro other isOne
    by_cases same : other = connection
    · subst same
      exact worked.stands.kept.trans worked.stands.told.symm
    · exact (worked.others other same).trans
        ((brackets.agrees other isOne).trans (worked.insideAfter_other same).symm)
  · intro other member
    have apart : other ≠ connection := fun same =>
      (List.nodup_append.mp numbered.connections).2.2 other member connection leased same
    exact (worked.insideAfter_other apart).trans (brackets.waiting other member)
  · intro other above
    have apart : other ≠ connection := Nat.ne_of_gt (Nat.lt_of_lt_of_le below above)
    exact (worked.insideAfter_other apart).trans (brackets.unused other above)

private theorem lookup_acquired {database : Database World} {pool after : Pool World}
    (numbered : pool.Numbered) (acquired : pool.acquire database = (.ok lease, after))
    (held : after.leased.lookup lease = some connection) :
    connection ∈ pool.idle.map IdleConnection.connection ∨ connection = pool.totalCreated := by
  have fresh : pool.leased.lookup pool.nextLease = none := by
    rw [List.lookup_eq_none_iff]
    intro entry member
    have below := numbered.handedOut entry member
    simpa using (Nat.ne_of_lt below).symm
  have ends := acquires database pool
  rw [acquired] at ends
  cases ends with
  | reused _ split =>
      rw [List.lookup_append, fresh] at held
      left
      rw [split]
      simp at held
      simp [held]
  | opened _ _ _ _ =>
      rw [List.lookup_append, fresh] at held
      right
      simp at held
      exact held.symm

section Tracked

variable (tracks : inner.TracksTransactions)
include tracks

theorem InBrackets.connect (brackets : pool.InBrackets inner) {outcome : Except DatabaseError Unit}
    (connects : (Traced.database inner).connect pool.totalCreated pool.world
      = (outcome, after.world))
    (created : pool.totalCreated ≤ after.totalCreated)
    (known : ∀ connection ∈ after.connections,
      connection ∈ pool.connections ∨ connection = pool.totalCreated)
    (idle : ∀ connection ∈ after.idle.map IdleConnection.connection,
      connection ∈ pool.idle.map IdleConnection.connection ∨ connection = pool.totalCreated) :
    after.InBrackets inner := by
  have outside : inner.inTransaction pool.totalCreated pool.world.world = false :=
    (brackets.agrees _ (Or.inr (Nat.le_refl _))).trans (brackets.unused _ (Nat.le_refl _))
  have world : after.world.world = (inner.connect pool.totalCreated pool.world.world).2 :=
    (congrArg (fun ended => ended.2.world) connects).symm
  have kept (other : ConnectionId) : inner.inTransaction other after.world.world
      = inner.inTransaction other pool.world.world := by
    rw [world]
    by_cases same : other = pool.totalCreated
    · rw [same]
      exact (tracks.connected _ _ outside).trans outside.symm
    · exact tracks.others pool.totalCreated other .connect pool.world.world same
  refine brackets.transfer (Traced.aside_of_opens (Traced.trace_of_tracing connects) ?_) created
    ?_ (fun connection _ => kept connection) ?_
  · intro call member
    rw [List.mem_singleton.mp member]
  · intro connection member
    exact (known connection member).imp_right fun same => Nat.le_of_eq same.symm
  · intro connection member
    exact (idle connection member).imp_right fun same => Or.inl (Nat.le_of_eq same.symm)

theorem InBrackets.oneMore (brackets : pool.InBrackets inner) {now : Nat} {world : Traced World}
    (connects : (Traced.database inner).connect pool.totalCreated pool.world = (.ok (), world)) :
    ({ pool with
      world := world
      totalCreated := pool.totalCreated + 1
      openCount := pool.openCount + 1
      idle := pool.idle ++ [⟨pool.totalCreated, now⟩] } : Pool (Traced World)).InBrackets inner := by
  refine brackets.connect tracks connects (Nat.le_succ _) ?_ ?_
  · intro connection member
    simp only [connections, List.map_append, List.mem_append, List.map_cons, List.map_nil,
      List.mem_singleton] at member ⊢
    tauto
  · intro connection member
    simpa using member

theorem InBrackets.refuse (brackets : pool.InBrackets inner) {fault : DatabaseError}
    {world : Traced World}
    (refuses : (Traced.database inner).connect pool.totalCreated pool.world
      = (.error fault, world)) :
    ({ pool with world := world } : Pool (Traced World)).InBrackets inner :=
  brackets.connect tracks refuses (Nat.le_refl _) (fun _ member => Or.inl member)
    fun _ member => Or.inl member

theorem InBrackets.replenish (brackets : pool.InBrackets inner) {now : Nat}
    (ends : Replenishes (Traced.database inner) now pool after) : after.InBrackets inner := by
  cases ends with
  | kept => exact brackets
  | refused refuses => exact brackets.refuse tracks refuses
  | opened _ connects => exact brackets.oneMore tracks connects

theorem InBrackets.acquire (brackets : pool.InBrackets inner) {outcome : Except Error LeaseId}
    (acquired : pool.acquire (Traced.database inner) = (outcome, after)) :
    after.InBrackets inner := by
  have ends := acquires (Traced.database inner) pool
  rw [acquired] at ends
  cases ends with
  | closed _ => exact brackets
  | exhausted _ _ _ => exact brackets
  | refused refuses => exact brackets.refuse tracks refuses
  | reused _ split =>
      refine brackets.transfer (.refl _) (Nat.le_refl _) ?_ (fun _ _ => rfl) ?_
      · intro connection member
        left
        simp only [connections, split, List.map_append, List.mem_append, List.map_cons,
          List.map_nil, List.mem_singleton] at member ⊢
        tauto
      · intro connection member
        left
        rw [split, List.map_append]
        exact List.mem_append_left _ member
  | opened _ _ _ connects =>
      refine brackets.connect tracks connects (Nat.le_succ _) ?_ fun _ member => Or.inl member
      intro connection member
      simp only [connections, List.map_append, List.mem_append, List.map_cons, List.map_nil,
        List.mem_singleton] at member ⊢
      tauto

omit tracks in
theorem aside_acquire {outcome : Except Error LeaseId}
    (acquired : pool.acquire (Traced.database inner) = (outcome, after)) :
    Traced.Aside pool.world after.world := by
  obtain ⟨calls, grown, opens⟩ := @Traced.trace_acquire _ inner pool
  rw [acquired] at grown
  exact Traced.aside_of_opens grown opens

/-- What is acquired is outside of any transaction. -/
theorem InBrackets.stands_acquired (brackets : pool.InBrackets inner) (numbered : pool.Numbered)
    (acquired : pool.acquire (Traced.database inner) = (.ok lease, after))
    (held : after.leased.lookup lease = some connection) :
    after.world.Stands inner connection false := by
  have stands := (brackets.acquire tracks acquired).stands (mem_connections_of_held held)
  have outside : insideAfter connection after.world.trace = false := by
    rw [(aside_acquire acquired).insideAfter]
    rcases lookup_acquired numbered acquired held with waits | rfl
    · exact brackets.waiting connection waits
    · exact brackets.unused _ (Nat.le_refl _)
  rw [outside] at stands
  exact stands

theorem InBrackets.discard (brackets : pool.InBrackets inner) (numbered : pool.Numbered)
    {checked : Traced World} (held : pool.leased.lookup lease = some connection)
    (trace : checked.trace = pool.world.trace)
    (same : ∀ other, inner.inTransaction other checked.world
      = inner.inTransaction other pool.world.world)
    (world : after.world = ((Traced.database inner).close connection checked).2)
    (created : after.totalCreated = pool.totalCreated) (idle : after.idle = pool.idle)
    (leased : after.leased = pool.leasedWithout lease) : after.InBrackets inner := by
  have aside : Traced.Aside pool.world after.world := by
    rw [world]
    exact Traced.aside_close trace connection
  have connections : after.connections
      = pool.idle.map IdleConnection.connection ++ (pool.leasedWithout lease).map Prod.snd := by
    unfold Pool.connections
    rw [idle, leased]
  have below := numbered.created connection (mem_connections_of_held held)
  refine brackets.transfer aside (Nat.le_of_eq created.symm) ?_ ?_ ?_
  · intro other member
    rw [connections] at member
    exact Or.inl
      ((List.Sublist.append_left (List.filter_sublist.map Prod.snd) _).subset member)
  · intro other isOne
    have apart : other ≠ connection := by
      rintro rfl
      rcases isOne with member | above
      · rw [connections] at member
        exact numbered.taken held member
      · exact absurd below (Nat.not_lt.mpr above)
    rw [world]
    exact (tracks.others connection other .close checked.world apart).trans (same other)
  · intro other member
    rw [idle] at member
    exact Or.inl member

/-- What is released waits if it is found fit, and then it is outside. -/
theorem InBrackets.release (checks : inner.ChecksTransactions) (brackets : pool.InBrackets inner)
    (numbered : pool.Numbered) (now : Nat) (lease : LeaseId) :
    (pool.release (Traced.database inner) now lease).InBrackets inner := by
  have ends := releases (Traced.database inner) now lease pool
  generalize pool.release (Traced.database inner) now lease = after at ends
  cases ends with
  | unknown _ => exact brackets
  | @returned connection world held _ valid =>
      obtain ⟨isValid, rfl⟩ := Prod.mk.inj valid
      have outside : inner.inTransaction connection
          (inner.isValid connection pool.world.world).2 = false :=
        checks connection pool.world.world _ (Prod.ext isValid rfl)
      refine brackets.transfer ⟨[], (List.append_nil _).symm, fun _ member => by cases member⟩
        (Nat.le_refl _) ?_ (fun other _ => tracks.checked connection other _) ?_
      · intro other member
        left
        have moved := ((perm_leasedWithout numbered.leases held).map Prod.snd).mem_iff
          (a := other)
        simp only [connections, List.map_append, List.mem_append, List.map_cons, List.map_nil,
          List.mem_cons, List.not_mem_nil, or_false, leasedWithout] at member moved ⊢
        tauto
      · intro other member
        rw [List.map_append, List.mem_append] at member
        rcases member with isOld | isNew
        · exact Or.inl isOld
        · obtain rfl : other = connection := by simpa using isNew
          exact Or.inr (Or.inr outside)
  | @discarded connection checked _ held unfit made =>
      obtain ⟨trace, same⟩ : checked.trace = pool.world.trace ∧
          ∀ other, inner.inTransaction other checked.world
            = inner.inTransaction other pool.world.world := by
        rcases unfit with ⟨_, rfl⟩ | ⟨_, invalid⟩
        · exact ⟨rfl, fun _ => rfl⟩
        · obtain ⟨_, rfl⟩ := Prod.mk.inj invalid
          exact ⟨rfl, fun other => tracks.checked connection other _⟩
      refine InBrackets.replenish tracks ?_ made
      exact brackets.discard tracks numbered held trace same rfl rfl rfl rfl

omit tracks in
/-- Giving a lease back closes its connection at most, and opens others. -/
theorem calls_release (held : pool.leased.lookup lease = some connection) (now : Nat) :
    ∃ calls, (pool.release (Traced.database inner) now lease).world.trace
        = pool.world.trace ++ calls ∧
      ∀ call ∈ calls, call.deed = .connect ∨ (call.deed = .close ∧ call.connection = connection) :=
  Traced.trace_releases held (releases (Traced.database inner) now lease pool)

omit tracks in
theorem aside_release (held : pool.leased.lookup lease = some connection) (now : Nat) :
    Traced.Aside pool.world (pool.release (Traced.database inner) now lease).world := by
  obtain ⟨calls, grown, deeds⟩ := @calls_release _ inner _ _ _ held now
  exact ⟨calls, grown, fun call member => (deeds call member).imp_right And.left⟩

private theorem aside_closedWorld (connections : List ConnectionId) (traced : Traced World) :
    Traced.Aside traced (closedWorld (Traced.database inner) connections traced) ∧
      ∀ other ∉ connections,
        inner.inTransaction other (closedWorld (Traced.database inner) connections traced).world
          = inner.inTransaction other traced.world := by
  induction connections generalizing traced with
  | nil => exact ⟨.refl traced, fun _ _ => rfl⟩
  | cons connection rest ih =>
      obtain ⟨⟨calls, grown, closes⟩, kept⟩ := ih ((Traced.database inner).close connection traced).2
      refine ⟨⟨_ :: calls, grown.trans (List.append_assoc _ [_] _), fun call member => ?_⟩, ?_⟩
      · rcases List.mem_cons.mp member with rfl | isLater
        · exact Or.inr rfl
        · exact closes call isLater
      · intro other apart
        have different := List.ne_of_not_mem_cons apart
        exact (kept other (List.not_mem_of_not_mem_cons apart)).trans
          (tracks.others connection other .close traced.world different)

theorem InBrackets.shutdown (brackets : pool.InBrackets inner) (numbered : pool.Numbered) :
    (pool.shutdown (Traced.database inner)).InBrackets inner ∧
      Traced.Aside pool.world (pool.shutdown (Traced.database inner)).world := by
  cases closed : pool.isClosed with
  | true =>
      unfold Pool.shutdown
      simp only [closed, ↓reduceIte]
      exact ⟨brackets, .refl _⟩
  | false =>
      rw [shutdown_eq _ closed]
      obtain ⟨aside, kept⟩ := aside_closedWorld tracks pool.connections pool.world
      refine ⟨brackets.transfer aside (Nat.le_refl _) ?_ ?_ ?_, aside⟩
      · intro connection member
        cases member
      · intro connection isOne
        rcases isOne with member | above
        · cases member
        · exact kept connection fun member =>
            absurd (numbered.created connection member) (Nat.not_lt.mpr above)
      · intro connection member
        cases member

/-! ### Creation -/

theorem InBrackets.addIdles {now count : Nat} (brackets : pool.InBrackets inner)
    (added : Pool.addIdles (Traced.database inner) now count pool = (.ok (), after)) :
    after.InBrackets inner := by
  induction count generalizing pool with
  | zero =>
      cases added
      exact brackets
  | succ count ih =>
      unfold Pool.addIdles at added
      split at added
      · cases added
      rename_i between first
      obtain ⟨world, connects, rfl⟩ := addIdle_ok first
      exact ih (brackets.oneMore tracks connects) added

theorem inBrackets_create {config : PoolConfig} {now : Nat} {world : World}
    (outside : ∀ connection, inner.inTransaction connection world = false)
    (created : create (Traced.database inner) config now { world := world } = (.ok (), pool)) :
    pool.InBrackets inner := by
  have empty : InBrackets inner
      ({ config := config.normalized, world := { world := world } } : Pool (Traced World)) := by
    refine ⟨?_, fun connection _ => outside connection, ?_, fun _ _ => rfl⟩
    · intro earlier call later split
      cases earlier <;> cases split
    · intro connection member
      cases member
  unfold create at created
  simp only at created
  split at created
  · cases created
  rename_i after added
  cases created
  exact empty.addIdles tracks added

end Tracked

end Pool
end EntityStore
