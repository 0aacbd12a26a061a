/-
What is left of an operation that fails outside a transaction: nothing in the store but
its pool, no commit that was granted, and no connection that is still in use. Saving,
removing, and creating and dropping tables are such operations.
-/

import EntityStore.Proofs.Runs
import EntityStore.Proofs.Settling
import EntityStore.Proofs.Traces

set_option autoImplicit false

namespace EntityStore

variable {World : Type}

/-- Where a connection is that was given back: it waits in the pool, outside a
transaction, or it has been closed and belongs to the pool no more. -/
inductive GivenBack (database : Database World) (pool : Pool World) (calls : List Exchange)
    (connection : ConnectionId) : Prop where
  | waits : connection ∈ pool.idle.map IdleConnection.connection →
      database.inTransaction connection pool.world = false →
      GivenBack database pool calls connection
  | closed {answer : Except DatabaseError (List Row)} : connection ∉ pool.connections →
      ⟨connection, .close, answer⟩ ∈ calls → GivenBack database pool calls connection

def Database.ChecksTransactions (database : Database World) : Prop :=
  ∀ connection world after, database.isValid connection world = (true, after) →
    database.inTransaction connection after = false

def Exchange.CommitsNothing (exchange : Exchange) : Prop :=
  exchange.deed = .commit → ∃ fault, exchange.answer = .error fault

/-- An operation has come to nothing: only the pool can differ, which has handed out what it
had handed out before. No commit was granted, and every connection that was called for
more than to open it was given back. -/
structure Undone (database : Database (Traced World)) (store after : Store (Traced World)) :
    Prop where
  elsewhere : after = { store with pool := after.pool }
  leased : after.pool.leased = store.pool.leased
  inUse : after.pool.inUse = store.pool.inUse
  calls : ∃ calls, after.pool.world.trace = store.pool.world.trace ++ calls ∧
    (∀ call ∈ calls, call.CommitsNothing) ∧
    ∀ call ∈ calls, call.deed ≠ .connect →
      GivenBack database after.pool calls call.connection

theorem Undone.refl (database : Database (Traced World)) (store : Store (Traced World)) :
    Undone database store store :=
  ⟨rfl, rfl, rfl, [], (List.append_nil _).symm,
    fun _ member => absurd member List.not_mem_nil, fun _ member => absurd member List.not_mem_nil⟩

theorem Exchange.commitsNothing_of_ne {exchange : Exchange} (different : exchange.deed ≠ .commit) :
    exchange.CommitsNothing :=
  fun same => absurd same different

theorem Exchange.CommitsNothing.of_connect {exchange : Exchange}
    (connects : exchange.deed = .connect) : exchange.CommitsNothing := by
  refine exchange.commitsNothing_of_ne ?_
  rw [connects]
  rintro ⟨⟩

theorem Exchange.Asks.commitsNothing {connection : ConnectionId} {exchange : Exchange}
    (asks : exchange.Asks connection) : exchange.CommitsNothing := by
  obtain ⟨_, question, same⟩ := asks
  refine exchange.commitsNothing_of_ne ?_
  rw [same]
  cases question <;> rintro ⟨⟩

/-! ### Pools -/

namespace Pool

variable {database : Database World} {pool after : Pool World} {lease : LeaseId}

theorem leased_of_refused {error : Error}
    (refused : pool.acquire database = (.error error, after)) :
    after.leased = pool.leased ∧ after.inUse = pool.inUse := by
  have acquires := acquires database pool
  rw [refused] at acquires
  cases acquires <;> exact ⟨rfl, rfl⟩

private theorem inUse_of_acquire (acquired : pool.acquire database = (.ok lease, after)) :
    after.inUse = pool.inUse + 1 := by
  have acquires := acquires database pool
  rw [acquired] at acquires
  cases acquires <;> rfl

private theorem inUse_of_replenishes {now : Nat} (ends : Replenishes database now pool after) :
    after.inUse = pool.inUse := by
  cases ends <;> rfl

theorem leased_of_releases {now : Nat} {connection : ConnectionId}
    (held : pool.leased.lookup lease = some connection)
    (ends : Releases database now lease pool after) :
    after.leased = pool.leasedWithout lease ∧ after.inUse = pool.inUse - 1 := by
  cases ends with
  | unknown missing =>
      rw [held] at missing
      cases missing
  | returned _ _ _ => exact ⟨rfl, rfl⟩
  | discarded _ _ replenishes =>
      exact ⟨leased_of_replenishes replenishes, inUse_of_replenishes replenishes⟩

/-- A lease that was just handed out is the only one that giving it back takes away. -/
theorem leasedWithout_of_acquire (numbered : pool.Numbered)
    (acquired : pool.acquire database = (.ok lease, after)) :
    after.leasedWithout lease = pool.leased := by
  obtain ⟨rfl, connection, leased⟩ := leased_of_acquire acquired
  have others : pool.leased.filter (fun entry => entry.1 != pool.nextLease) = pool.leased := by
    refine List.filter_eq_self.mpr fun entry member => ?_
    have earlier := numbered.handedOut entry member
    simpa using Nat.ne_of_lt earlier
  unfold leasedWithout
  rw [leased, List.filter_append, others]
  simp

theorem Numbered.taken (numbered : pool.Numbered) {connection : ConnectionId}
    (held : pool.leased.lookup lease = some connection) :
    connection ∉ pool.idle.map IdleConnection.connection ++
      (pool.leasedWithout lease).map Prod.snd := by
  have moved : pool.connections.Perm (connection ::
      (pool.idle.map IdleConnection.connection ++ (pool.leasedWithout lease).map Prod.snd)) := by
    have leased := (perm_leasedWithout numbered.leases held).map Prod.snd
    exact (leased.append_left _).trans List.perm_middle
  have distinct := moved.nodup_iff.mp numbered.connections
  exact (List.nodup_cons.mp distinct).1

end Pool

namespace Traced

variable {inner : Database World} {pool after : Pool (Traced World)} {lease : LeaseId}
  {connection : ConnectionId}

private theorem givenBack_of_releases {now : Nat} (numbered : pool.Numbered)
    (checks : inner.ChecksTransactions)
    (held : pool.leased.lookup lease = some connection)
    (ends : Pool.Releases (database inner) now lease pool after)
    {calls : List Exchange} (grown : after.world.trace = pool.world.trace ++ calls)
    (earlier : List Exchange) :
    GivenBack (database inner) after (earlier ++ calls) connection := by
  cases ends with
  | unknown missing =>
      rw [held] at missing
      cases missing
  | @returned other world heldOther _ valid =>
      obtain rfl : connection = other := Option.some.inj (held.symm.trans heldOther)
      refine .waits (by simp) (checks connection pool.world.world world.world ?_)
      exact congrArg (fun ended : Bool × Traced World => (ended.1, ended.2.world)) valid
  | @discarded other checked _ heldOther isUnfit replenishes =>
      obtain rfl : connection = other := Option.some.inj (held.symm.trans heldOther)
      obtain ⟨answer, opening, grown', _⟩ := trace_discarded isUnfit rfl replenishes
      obtain rfl := List.append_cancel_left (grown.symm.trans grown')
      refine .closed ?_ (List.mem_append_right _ List.mem_cons_self)
      have taken := numbered.taken held
      have created := numbered.created connection (List.mem_append_right _
        (List.mem_map.mpr ⟨_, mem_of_lookup held, rfl⟩))
      cases replenishes with
      | kept => exact taken
      | refused _ => exact taken
      | opened _ _ =>
          intro member
          rcases List.mem_append.mp member with waits | isLeased
          · rw [List.map_append, List.mem_append] at waits
            rcases waits with before | isNew
            · exact taken (List.mem_append_left _ before)
            · exact absurd (List.mem_singleton.mp isNew) (Nat.ne_of_lt created)
          · exact taken (List.mem_append_right _ isLeased)

private theorem trace_of_bracketed {α : Type} {issued : Question → Prop}
    {gives : α × WriteSet → List Event → Prop} {world after : Traced World} {error : Error}
    (bracketed : Bracketed (database inner) issued connection gives true world (.error error)
      after) :
    ∃ calls, after.trace = world.trace ++ calls ∧
      ∀ call ∈ calls, call.connection = connection ∧ call.CommitsNothing := by
  -- begin and the questions that follow it are no commits
  have works : ∀ {begun worked : Traced World} {log : List Event},
      (database inner).begin connection world = (.ok (), begun) →
      Asked (database inner) issued connection begun log worked →
      ∃ calls, worked.trace = world.trace ++ calls ∧
        ∀ call ∈ calls, call.connection = connection ∧ call.CommitsNothing := by
    intro begun worked log begins asked
    obtain ⟨calls, grown, asks⟩ := trace_asked asked
    refine ⟨⟨connection, .begin, .ok []⟩ :: calls, ?_, ?_⟩
    · rw [grown, trace_of_tracing begins, List.append_assoc]
      rfl
    · intro call member
      rcases List.mem_cons.mp member with rfl | isAsked
      · exact ⟨rfl, Exchange.commitsNothing_of_ne (by rintro ⟨⟩)⟩
      · exact ⟨(asks call isAsked).1, (asks call isAsked).commitsNothing⟩
  cases bracketed with
  | notBegun begins =>
      refine ⟨_, trace_of_tracing begins, fun call member => ?_⟩
      rw [List.mem_singleton.mp member]
      exact ⟨rfl, Exchange.commitsNothing_of_ne (by rintro ⟨⟩)⟩
  | @failed _ _ _ _ _ _ outcome begins asked rollsBack =>
      obtain ⟨calls, grown, holds⟩ := works begins asked
      refine ⟨calls ++ [⟨connection, .rollback, outcome.map noRows⟩], ?_, fun call member => ?_⟩
      · rw [trace_of_tracing rollsBack, grown, List.append_assoc]
      · rcases List.mem_append.mp member with isEarlier | isLast
        · exact holds call isEarlier
        · rw [List.mem_singleton.mp isLast]
          exact ⟨rfl, Exchange.commitsNothing_of_ne (by rintro ⟨⟩)⟩
  | @notCommitted _ _ _ _ _ _ fault outcome begins asked commits rollsBack =>
      obtain ⟨calls, grown, holds⟩ := works begins asked
      refine ⟨calls ++ [⟨connection, .commit, .error fault⟩,
        ⟨connection, .rollback, outcome.map noRows⟩], ?_, fun call member => ?_⟩
      · rw [trace_of_tracing rollsBack, trace_of_tracing commits, grown, List.append_assoc,
          List.append_assoc]
        rfl
      · rcases List.mem_append.mp member with isEarlier | isLast
        · exact holds call isEarlier
        · rcases List.mem_pair.mp isLast with rfl | rfl
          · exact ⟨rfl, fun _ => ⟨fault, rfl⟩⟩
          · exact ⟨rfl, Exchange.commitsNothing_of_ne (by rintro ⟨⟩)⟩

end Traced

/-! ### Units -/

namespace Store

variable {α β : Type} {inner : Database World} {session : Session (Traced World)}
  {store : Store (Traced World)}

theorem UnitEnds.undone {issued : Question → Prop} {gives : α × WriteSet → List Event → Prop}
    {after : Store (Traced World)} {error : Error}
    (traced : session.database = Traced.database inner) (checks : inner.ChecksTransactions)
    (numbered : store.pool.Numbered) (outside : store.transaction? session.thread = none)
    (ends : UnitEnds session issued true gives store (.error error) after) :
    Undone (Traced.database inner) store after := by
  obtain ⟨database, dialect, thread⟩ := session
  obtain rfl : database = Traced.database inner := traced
  cases ends with
  | closed _ => exact .refl _ store
  | aborted _ inside _ _ _ =>
      rw [outside] at inside
      cases inside
  | @unconnected pool _ _ _ acquired =>
      obtain ⟨leased, inUse⟩ := Pool.leased_of_refused acquired
      obtain ⟨calls, grown, opens⟩ := @Traced.trace_acquire _ inner store.pool
      simp only at acquired
      rw [acquired] at grown
      exact ⟨rfl, leased, inUse, calls, grown, fun call member => .of_connect (opens call member),
        fun call member more => absurd (opens call member) more⟩
  | @failed pool lease connection world _ _ _ acquired held bracketed =>
      simp only at acquired bracketed
      -- The calls in order: the connection may be opened, works, and is given back.
      have numberedPool : ({ pool with world := world } : Pool _).Numbered := by
        have kept := numbered.acquire (Traced.database inner)
        rw [acquired] at kept
        exact ⟨kept.leases, kept.handedOut, kept.connections, kept.created⟩
      have heldThen : ({ pool with world := world } : Pool _).leased.lookup lease
          = some connection := held
      obtain ⟨opening, grownOpening, opens⟩ := @Traced.trace_acquire _ inner store.pool
      rw [acquired] at grownOpening
      obtain ⟨working, grownWorking, works⟩ := Traced.trace_of_bracketed bracketed
      have releases := Pool.releases (Traced.database inner) store.clock lease
        { pool with world := world }
      obtain ⟨leased, inUse⟩ := Pool.leased_of_releases heldThen releases
      obtain ⟨closing, grownClosing, closes⟩ := Traced.trace_releases heldThen releases
      -- A call that is not the opening of another connection is one on the connection acquired.
      have each : ∀ call ∈ (opening ++ working) ++ closing, call.CommitsNothing ∧
          (call.deed ≠ .connect → call.connection = connection) := by
        intro call member
        rcases List.mem_append.mp member with isEarlier | isClosing
        · rcases List.mem_append.mp isEarlier with isOpening | isWorking
          · have connects := opens call isOpening
            exact ⟨.of_connect connects, fun more => absurd connects more⟩
          · exact ⟨(works call isWorking).2, fun _ => (works call isWorking).1⟩
        · rcases closes call isClosing with connects | ⟨closed, same⟩
          · exact ⟨.of_connect connects, fun more => absurd connects more⟩
          · refine ⟨Exchange.commitsNothing_of_ne ?_, fun _ => same⟩
            rw [closed]
            rintro ⟨⟩
      refine ⟨rfl, leased.trans ?_, ?_, (opening ++ working) ++ closing, ?_,
        fun call member => (each call member).1, fun call member more => ?_⟩
      · show pool.leasedWithout lease = _
        exact Pool.leasedWithout_of_acquire numbered acquired
      · refine inUse.trans ?_
        show pool.inUse - 1 = _
        rw [Pool.inUse_of_acquire acquired, Nat.add_sub_cancel]
      · refine grownClosing.trans ?_
        show world.trace ++ closing = _
        rw [grownWorking, grownOpening, List.append_assoc, List.append_assoc, List.append_assoc]
      · rw [(each call member).2 more]
        exact Traced.givenBack_of_releases numberedPool checks heldThen releases grownClosing _

/-! ### Operations -/

section Operations

variable {after : Store (Traced World)} {error : Error}

def ComesToNothing (session : Session (Traced World)) (operation : Operation (Traced World) α)
    (store : Store (Traced World)) : Prop :=
  Ensures operation store fun outcome after =>
    ∀ error, outcome = .error error → Undone session.database store after

private theorem comesToNothing_throw (error : Error) :
    ComesToNothing session (throw error : Operation (Traced World) α) store :=
  fun _ _ => .refl _ store

private theorem comesToNothing_of_ok {operation : Operation (Traced World) α} {result : α}
    (ran : operation.run store = (.ok result, after)) : ComesToNothing session operation store := by
  intro error failed
  rw [ran] at failed
  cases failed

private theorem comesToNothing_bind_same {operation : Operation (Traced World) α}
    {next : α → Operation (Traced World) β} {outcome : Except Error α}
    (ran : operation.run store = (outcome, store))
    (later : ∀ result, outcome = .ok result → ComesToNothing session (next result) store) :
    ComesToNothing session (operation >>= next) store := by
  refine ensures_bind ?_
  unfold Ensures
  rw [ran]
  cases outcome with
  | ok result => exact later result rfl
  | error error => exact fun _ _ => .refl _ store

private theorem comesToNothing_ensureOpen_bind {next : Unit → Operation (Traced World) β}
    (later : ComesToNothing session (next ()) store) :
    ComesToNothing session (ensureOpen >>= next) store := by
  have ran := run_ensureOpen store
  cases isOpen : store.isOpen with
  | true =>
      rw [isOpen] at ran
      exact comesToNothing_bind_same ran fun _ _ => later
  | false =>
      rw [isOpen] at ran
      exact comesToNothing_bind_same ran fun _ impossible => (by cases impossible)

private theorem comesToNothing_bind_sure {operation : Operation (Traced World) α}
    {next : α → Operation (Traced World) β} (first : ComesToNothing session operation store)
    (sure : ∀ result between, ∃ final after, (next result).run between = (.ok final, after)) :
    ComesToNothing session (operation >>= next) store := by
  refine ensures_bind (first.weaken fun outcome between undone => ?_)
  cases outcome with
  | ok result =>
      obtain ⟨final, after, ran⟩ := sure result between
      intro error failed
      rw [ran] at failed
      cases failed
  | error error =>
      intro other same
      cases same
      exact undone error rfl

section Units

variable (traced : session.database = Traced.database inner) (checks : inner.ChecksTransactions)
  (regular : store.Regular) (outside : store.transaction? session.thread = none)
include traced checks regular outside

private theorem comesToNothing_unit {issued : Question → Prop}
    {gives : α × WriteSet → List Event → Prop} {work : Work (Traced World) α}
    (asks : ∀ lease, Asks session.database issued lease (work lease) gives) :
    ComesToNothing session (unit session true work) store := by
  refine (ensures_unit asks ?_).weaken ?_
  · intro transaction inside
    rw [outside] at inside
    cases inside
  · rintro outcome after ends error rfl
    rw [traced]
    exact ends.undone traced checks regular.leased.numbered outside

private theorem comesToNothing_save (subject : InstanceId) :
    ComesToNothing session (save session subject) store := by
  unfold save
  refine comesToNothing_ensureOpen_bind ?_
  refine comesToNothing_bind_same (run_get store) ?_
  rintro _ ⟨⟩
  refine comesToNothing_bind_same (run_settleOutcome _ store) fun graph collected => ?_
  split
  case isFalse => exact comesToNothing_of_ok rfl
  have fit : ∀ planned ∈ graph.plan session.dialect, planned.content.needsWrite = true →
      planned.Fit (· ∈ store.registry.mappings) :=
    fun planned member _ => regular.sound.fit_of_plan collected member
  refine comesToNothing_bind_sure
    (comesToNothing_unit traced checks regular outside fun _ => asks_save fit) ?_
  intro written between
  obtain ⟨after, settles⟩ := run_settleAll session written between
  exact ⟨(), after, settles⟩

private theorem comesToNothing_remove {subject : InstanceId}
    (inMemory : subject < store.memory.size) :
    ComesToNothing session (remove session subject) store := by
  have registered := (regular.sound.instanceAt inMemory).registered
  unfold remove
  refine comesToNothing_ensureOpen_bind ?_
  refine comesToNothing_bind_same (run_get store) ?_
  rintro _ ⟨⟩
  dsimp only
  split
  · exact comesToNothing_throw _
  · exact comesToNothing_of_ok rfl
  · exact comesToNothing_throw _
  · rename_i id keyed _ _
    exact comesToNothing_bind_sure (comesToNothing_unit traced checks regular outside fun _ =>
      asks_removal registered keyed) fun _ between => ⟨(), _, rfl⟩

private theorem comesToNothing_sync : ComesToNothing session (sync session) store := by
  unfold sync
  refine comesToNothing_bind_same (run_get store) ?_
  rintro _ ⟨⟩
  exact comesToNothing_unit traced checks regular outside fun _ =>
    @asks_sync _ _ (· ∈ store.registry.mappings) _ _ fun _ member => member

private theorem comesToNothing_drop : ComesToNothing session (drop session) store := by
  unfold drop
  refine comesToNothing_bind_same (run_get store) ?_
  rintro _ ⟨⟩
  exact comesToNothing_bind_sure (comesToNothing_unit traced checks regular outside fun _ =>
    @asks_drop _ _ (· ∈ store.registry.mappings) _ _) fun names between => ⟨names, _, rfl⟩

end Units

end Operations

end Store

def Action.Writes : Action → Prop
  | save _ | remove _ | sync | drop => True
  | _ => False

namespace Deployment

/-- Outside a transaction, a save, a removal, and the creation or dropping of tables that
fails comes to nothing, whatever the database is and wherever it refuses something. -/
theorem failed_write_undone {inner : Deployment World}
    {allowed : Store (Traced World) → ThreadId → Action → Prop}
    {store after : Store (Traced World)} {thread : ThreadId} {action : Action} {error : Error}
    (checks : inner.database.ChecksTransactions) (reached : inner.traced.Reached allowed store)
    (outside : store.inTransaction thread = false) (writes : action.Writes)
    (inMemory : action.InMemory store.memory.size)
    (failed : (action.perform (inner.traced.session thread)).run store = (.error error, after)) :
    Undone inner.traced.database store after := by
  have regular := reached.regular
  have none : store.transaction? (inner.traced.session thread).thread = none :=
    Option.isNone_iff_eq_none.mp (Option.isSome_eq_false_iff.mp outside)
  have traced : (inner.traced.session thread).database = Traced.database inner.database := rfl
  have sure {β : Type} (result : β) (between : Store (Traced World)) : ∃ final after,
      (pure () : Operation (Traced World) Unit).run between = (.ok final, after) :=
    ⟨(), between, rfl⟩
  have comes : Store.ComesToNothing (inner.traced.session thread)
      (action.perform (inner.traced.session thread)) store := by
    cases action with
    | save subject => exact Store.comesToNothing_save traced checks regular none subject
    | remove subject => exact Store.comesToNothing_remove traced checks regular none inMemory
    | sync =>
        exact Store.comesToNothing_bind_sure
          (Store.comesToNothing_sync traced checks regular none) sure
    | drop =>
        exact Store.comesToNothing_bind_sure
          (Store.comesToNothing_drop traced checks regular none) sure
    | _ => cases writes
  exact (Store.Ensures.of_run comes failed) error rfl

set_option maxRecDepth 100000 in
/-- What has no table cannot be saved; the connection that tried waits in the pool
again. -/
theorem failed_write_undone_ghost : ∃ store after : Store (Traced Tables.World), ∃ error,
    Samples.deployment.database.ChecksTransactions ∧
      store.inTransaction 0 = false ∧ Action.Writes (.save 0) ∧ 0 < store.memory.size ∧
      (Action.perform (Samples.deployment.traced.session 0) (.save 0)).run store
        = (.error error, after) ∧
      store.pool.world.trace.length + 3 = after.pool.world.trace.length ∧
      Undone Samples.deployment.traced.database store after := by
  obtain ⟨store, visited⟩ : ∃ store,
      Samples.deployment.traced.visited? Samples.haunted = some store :=
    Option.isSome_iff_exists.mp (by decide +kernel)
  have facts : ∀ store ∈ Samples.deployment.traced.visited? Samples.haunted,
      let result := (Action.perform (Samples.deployment.traced.session 0) (.save 0)).run store
      result.1.isOk = false ∧ store.inTransaction 0 = false ∧ 0 < store.memory.size ∧
        store.pool.world.trace.length + 3 = result.2.pool.world.trace.length := by
    decide +kernel
  have checks : Samples.deployment.database.ChecksTransactions := by
    intro connection world after valid
    obtain ⟨outside, rfl⟩ := Prod.mk.inj valid
    exact Bool.not_eq_eq_eq_not.mp outside
  obtain ⟨fails, outside, inMemory, calls⟩ := facts store visited
  generalize ran : (Action.perform (Samples.deployment.traced.session 0) (.save 0)).run store
    = result at fails calls
  obtain ⟨_ | outcome, after⟩ := result
  · exact ⟨store, after, _, checks, outside, trivial, inMemory, ran, calls,
      @failed_write_undone _ _ _ _ _ _ (.save 0) _ checks
        (reached_visited (fun _ _ _ _ => trivial) visited) outside trivial inMemory ran⟩
  · cases fails

end Deployment
end EntityStore
