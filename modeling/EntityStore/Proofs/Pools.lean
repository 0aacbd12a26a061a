/-
What a pool can do. Leases and connections are numbered, so that no lease is handed out
twice and no connection is in two places; each operation of the pool is described by
the connection that it moves and by what it asks of the database.
-/

import EntityStore.Pool
import EntityStore.Proofs.Lookups
import Mathlib.Data.List.Nodup
import Mathlib.Data.List.Perm.Subperm

set_option autoImplicit false

namespace EntityStore
namespace Pool

variable {World : Type} {database : Database World}

def connections (pool : Pool World) : List ConnectionId :=
  pool.idle.map IdleConnection.connection ++ pool.leased.map Prod.snd

structure Numbered (pool : Pool World) : Prop where
  leases : (pool.leased.map Prod.fst).Nodup
  handedOut : ∀ entry ∈ pool.leased, entry.1 < pool.nextLease
  connections : pool.connections.Nodup
  created : ∀ connection ∈ pool.connections, connection < pool.totalCreated

private theorem numbered_cons {connections after : List ConnectionId} {created : Nat}
    (distinct : connections.Nodup) (below : ∀ connection ∈ connections, connection < created)
    (grown : after.Perm (created :: connections)) :
    after.Nodup ∧ ∀ connection ∈ after, connection < created + 1 := by
  constructor
  · rw [grown.nodup_iff, List.nodup_cons]
    exact ⟨fun member => Nat.lt_irrefl _ (below created member), distinct⟩
  · intro connection member
    rcases List.mem_cons.mp (grown.mem_iff.mp member) with rfl | isOld
    · exact Nat.lt_succ_self _
    · exact Nat.lt_succ_of_lt (below connection isOld)

private theorem connect_eq (database : Database World) (pool : Pool World) :
    pool.connect database = match database.connect pool.totalCreated pool.world with
      | (.error fault, world) => (.error fault, { pool with world := world })
      | (.ok (), world) => (.ok pool.totalCreated,
          { pool with world := world, totalCreated := pool.totalCreated + 1 }) := by
  rcases answer : database.connect pool.totalCreated pool.world with ⟨outcome, world⟩
  cases outcome <;> simp [Pool.connect, Pool.call, answer]

/-! ### Acquiring -/

inductive Acquires (database : Database World) (pool : Pool World) :
    Except Error LeaseId → Pool World → Prop where
  | closed : pool.isClosed = true → Acquires database pool (.error .poolClosed) pool
  | reused {connection : ConnectionId} {releasedAt : Nat} {rest : List IdleConnection} :
      pool.isClosed = false → pool.idle = rest ++ [⟨connection, releasedAt⟩] →
      Acquires database pool (.ok pool.nextLease) { pool with
        idle := rest
        inUse := pool.inUse + 1
        leased := pool.leased ++ [(pool.nextLease, connection)]
        nextLease := pool.nextLease + 1 }
  | refused {fault : DatabaseError} {world : World} :
      database.connect pool.totalCreated pool.world = (.error fault, world) →
      Acquires database pool (.error (.ofDatabase fault)) { pool with world := world }
  | opened {world : World} :
      pool.isClosed = false → pool.idle = [] → pool.openCount < pool.config.maxSize →
      database.connect pool.totalCreated pool.world = (.ok (), world) →
      Acquires database pool (.ok pool.nextLease) { pool with
        world := world
        totalCreated := pool.totalCreated + 1
        openCount := pool.openCount + 1
        inUse := pool.inUse + 1
        leased := pool.leased ++ [(pool.nextLease, pool.totalCreated)]
        nextLease := pool.nextLease + 1 }
  | exhausted : pool.isClosed = false → pool.idle = [] →
      ¬pool.openCount < pool.config.maxSize →
      Acquires database pool (.error .poolExhausted) pool

theorem acquires (database : Database World) (pool : Pool World) :
    Acquires database pool (pool.acquire database).1 (pool.acquire database).2 := by
  unfold acquire
  cases closed : pool.isClosed with
  | true => exact .closed closed
  | false =>
      simp only [Bool.false_eq_true, ↓reduceIte, takeIdle?]
      cases last : pool.idle.getLast? with
      | some entry =>
          obtain ⟨rest, split⟩ := List.getLast?_eq_some_iff.mp last
          have dropped : pool.idle.dropLast = rest := by rw [split]; simp
          simp only [lease, dropped]
          exact .reused closed split
      | none =>
          have empty : pool.idle = [] := List.getLast?_eq_none_iff.mp last
          by_cases room : pool.openCount < pool.config.maxSize
          · simp only [room, ↓reduceIte, connect_eq]
            rcases connects : database.connect pool.totalCreated pool.world with ⟨outcome, world⟩
            cases outcome with
            | error fault => exact .refused connects
            | ok _ => exact .opened closed empty room connects
          · simp only [room, ↓reduceIte]
            exact .exhausted closed empty room

/-- A lease that was handed out is the next one, and has a connection. -/
theorem leased_of_acquire {pool after : Pool World} {lease : LeaseId}
    (acquired : pool.acquire database = (.ok lease, after)) :
    lease = pool.nextLease ∧
      ∃ connection, after.leased = pool.leased ++ [(lease, connection)] := by
  have ends := acquires database pool
  rw [acquired] at ends
  cases ends with
  | reused _ _ => exact ⟨rfl, _, rfl⟩
  | opened _ _ _ _ => exact ⟨rfl, _, rfl⟩

theorem lookup_leased_of_acquire {pool after : Pool World} {lease : LeaseId}
    (acquired : pool.acquire database = (.ok lease, after)) :
    ∃ connection, after.leased.lookup lease = some connection := by
  obtain ⟨rfl, connection, leased⟩ := leased_of_acquire acquired
  rw [leased, List.lookup_append]
  cases pool.leased.lookup pool.nextLease with
  | some other => exact ⟨other, rfl⟩
  | none => exact ⟨connection, by simp⟩

theorem lookup_acquire {pool : Pool World} {lease : LeaseId} {connection : ConnectionId}
    (held : pool.leased.lookup lease = some connection) (database : Database World) :
    (pool.acquire database).2.leased.lookup lease = some connection := by
  have ends := acquires database pool
  revert ends
  generalize pool.acquire database = acquired
  obtain ⟨outcome, after⟩ := acquired
  intro ends
  cases ends with
  | closed _ => exact held
  | refused _ => exact held
  | exhausted _ _ _ => exact held
  | reused _ _ => simp only [List.lookup_append, held, Option.some_or]
  | opened _ _ _ _ => simp only [List.lookup_append, held, Option.some_or]

theorem Numbered.acquire {pool : Pool World} (numbered : pool.Numbered)
    (database : Database World) : (pool.acquire database).2.Numbered := by
  -- The lease that is handed out is a new one, whichever connection it is for.
  have fresh (connection : ConnectionId) :
      ((pool.leased ++ [(pool.nextLease, connection)]).map Prod.fst).Nodup ∧
        ∀ entry ∈ pool.leased ++ [(pool.nextLease, connection)],
          entry.1 < pool.nextLease + 1 := by
    constructor
    · rw [List.map_append, List.nodup_append]
      refine ⟨numbered.leases, by simp, ?_⟩
      intro lease member other isNew same
      obtain ⟨entry, entryMember, rfl⟩ := List.mem_map.mp member
      have below := numbered.handedOut entry entryMember
      rw [same, show other = pool.nextLease by simpa using isNew] at below
      exact Nat.lt_irrefl _ below
    · intro entry member
      rcases List.mem_append.mp member with isOld | isNew
      · exact Nat.lt_succ_of_lt (numbered.handedOut entry isOld)
      · rw [List.mem_singleton.mp isNew]
        exact Nat.lt_succ_self _
  have ends := acquires database pool
  revert ends
  generalize pool.acquire database = acquired
  obtain ⟨outcome, after⟩ := acquired
  intro ends
  cases ends with
  | closed _ => exact numbered
  | refused _ => exact ⟨numbered.leases, numbered.handedOut, numbered.connections, numbered.created⟩
  | exhausted _ _ _ => exact numbered
  | @reused connection releasedAt rest _ split =>
      -- The connection goes from those that wait to those that are leased.
      have rearranged : (rest.map IdleConnection.connection
          ++ (pool.leased ++ [(pool.nextLease, connection)]).map Prod.snd).Perm
            pool.connections := by
        unfold Pool.connections
        simp only [split, List.map_append, List.map_cons, List.map_nil, List.append_assoc]
        exact List.Perm.append_left _ List.perm_append_comm
      refine ⟨(fresh connection).1, (fresh connection).2,
        rearranged.nodup_iff.mpr numbered.connections, ?_⟩
      intro other member
      exact numbered.created other (rearranged.mem_iff.mp member)
  | opened _ empty _ _ =>
      have grown : (pool.idle.map IdleConnection.connection
          ++ (pool.leased ++ [(pool.nextLease, pool.totalCreated)]).map Prod.snd).Perm
            (pool.totalCreated :: pool.connections) := by
        rw [List.map_append, ← List.append_assoc]
        exact List.perm_append_singleton _ _
      obtain ⟨distinct, below⟩ := numbered_cons numbered.connections numbered.created grown
      exact ⟨(fresh _).1, (fresh _).2, distinct, below⟩

/-! ### Releasing -/

def leasedWithout (pool : Pool World) (lease : LeaseId) : List (LeaseId × ConnectionId) :=
  pool.leased.filter fun entry => entry.1 != lease

private theorem close_eq (database : Database World) (connection : ConnectionId)
    (pool : Pool World) :
    close database connection pool =
      { pool with world := (database.close connection pool.world).2 } := rfl

inductive Replenishes (database : Database World) (now : Nat) (pool : Pool World) :
    Pool World → Prop where
  | kept : Replenishes database now pool pool
  | refused {fault : DatabaseError} {world : World} :
      database.connect pool.totalCreated pool.world = (.error fault, world) →
      Replenishes database now pool { pool with world := world }
  | opened {world : World} : pool.isClosed = false →
      database.connect pool.totalCreated pool.world = (.ok (), world) →
      Replenishes database now pool { pool with
        world := world
        totalCreated := pool.totalCreated + 1
        openCount := pool.openCount + 1
        idle := pool.idle ++ [⟨pool.totalCreated, now⟩] }

private theorem replenishes (database : Database World) (now : Nat) (pool : Pool World) :
    Replenishes database now pool (replenish database now pool) := by
  unfold replenish
  split
  · rename_i needed
    have isOpen : pool.isClosed = false := by
      revert needed
      cases pool.isClosed <;> simp
    unfold addIdle
    rw [connect_eq]
    rcases connects : database.connect pool.totalCreated pool.world with ⟨outcome, world⟩
    cases outcome with
    | error fault => exact .refused connects
    | ok _ => exact .opened isOpen connects
  · exact .kept

inductive Releases (database : Database World) (now : Nat) (lease : LeaseId)
    (pool : Pool World) : Pool World → Prop where
  | unknown : pool.leased.lookup lease = none → Releases database now lease pool pool
  | returned {connection : ConnectionId} {world : World} :
      pool.leased.lookup lease = some connection → pool.isClosed = false →
      database.isValid connection pool.world = (true, world) →
      Releases database now lease pool { pool with
        world := world
        leased := pool.leasedWithout lease
        inUse := pool.inUse - 1
        idle := pool.idle ++ [⟨connection, now⟩] }
  | discarded {connection : ConnectionId} {checked : World} {after : Pool World} :
      pool.leased.lookup lease = some connection →
      (pool.isClosed = true ∧ checked = pool.world ∨
        pool.isClosed = false ∧ database.isValid connection pool.world = (false, checked)) →
      Replenishes database now { pool with
        world := (database.close connection checked).2
        leased := pool.leasedWithout lease
        inUse := pool.inUse - 1
        openCount := pool.openCount - 1
        totalClosed := pool.totalClosed + 1 } after →
      Releases database now lease pool after

theorem releases (database : Database World) (now : Nat) (lease : LeaseId) (pool : Pool World) :
    Releases database now lease pool (pool.release database now lease) := by
  unfold release takeLeased?
  cases held : pool.leased.lookup lease with
  | none => exact .unknown held
  | some connection =>
      rcases valid : database.isValid connection pool.world with ⟨answer, world⟩
      by_cases closed : pool.isClosed = true
      · simp only [if_pos closed, Bool.false_eq_true, ↓reduceIte]
        exact .discarded held (Or.inl ⟨closed, rfl⟩) (replenishes database now _)
      · have isOpen : pool.isClosed = false := by simpa using closed
        simp only [if_neg closed, valid]
        cases answer with
        | true => exact .returned held isOpen valid
        | false => exact .discarded held (Or.inr ⟨isOpen, valid⟩) (replenishes database now _)

/-- A lease that is held is one of the leases, apart from the others. -/
theorem perm_leasedWithout {leased : List (LeaseId × ConnectionId)} {lease : LeaseId}
    {connection : ConnectionId} (distinct : (leased.map Prod.fst).Nodup)
    (held : leased.lookup lease = some connection) :
    leased.Perm ((lease, connection) :: leased.filter fun entry => entry.1 != lease) := by
  induction leased with
  | nil => cases held
  | cons entry rest ih =>
      obtain ⟨fresh, distinctRest⟩ := List.nodup_cons.mp distinct
      rw [List.lookup_cons] at held
      by_cases same : lease = entry.1
      · subst same
        simp only [beq_self_eq_true] at held
        have others : rest.filter (fun other => other.1 != entry.1) = rest := by
          rw [List.filter_eq_self]
          intro other member
          have apart : other.1 ≠ entry.1 :=
            fun equal => fresh (List.mem_map.mpr ⟨other, member, equal⟩)
          simpa using apart
        rw [List.filter_cons_of_neg (by simp), others, ← Option.some.inj held]
      · rw [beq_eq_false_iff_ne.mpr same] at held
        rw [List.filter_cons_of_pos (by simpa using fun equal : entry.1 = lease => same equal.symm)]
        exact ((ih distinctRest held).cons entry).trans (List.Perm.swap _ _ _)

theorem Numbered.fewer {pool after : Pool World} (numbered : pool.Numbered)
    (leases : after.leased.Sublist pool.leased) (next : after.nextLease = pool.nextLease)
    (connections : after.connections.Subperm pool.connections)
    (created : after.totalCreated = pool.totalCreated) : after.Numbered := by
  obtain ⟨rearranged, perm, sublist⟩ := connections
  refine ⟨(leases.map Prod.fst).nodup numbered.leases, ?_,
    perm.nodup_iff.mp (sublist.nodup numbered.connections), ?_⟩
  · intro entry member
    rw [next]
    exact numbered.handedOut entry (leases.subset member)
  · intro connection member
    rw [created]
    exact numbered.created connection (sublist.subset (perm.mem_iff.mpr member))

theorem Numbered.oneMore {pool after : Pool World} (numbered : pool.Numbered)
    (leased : after.leased = pool.leased) (next : after.nextLease = pool.nextLease)
    (created : after.totalCreated = pool.totalCreated + 1) {now : Nat}
    (idle : after.idle = pool.idle ++ [⟨pool.totalCreated, now⟩]) : after.Numbered := by
  have grown : after.connections.Perm (pool.totalCreated :: pool.connections) := by
    unfold Pool.connections
    simp only [idle, leased, List.map_append, List.map_cons, List.map_nil, List.append_assoc]
    exact List.perm_middle
  obtain ⟨distinct, below⟩ := numbered_cons numbered.connections numbered.created grown
  refine ⟨leased ▸ numbered.leases, ?_, distinct, created ▸ below⟩
  rw [leased, next]
  exact numbered.handedOut

theorem Numbered.replenish {database : Database World} {now : Nat} {pool after : Pool World}
    (numbered : pool.Numbered) (ends : Replenishes database now pool after) :
    after.Numbered := by
  cases ends with
  | kept => exact numbered
  | refused _ => exact ⟨numbered.leases, numbered.handedOut, numbered.connections, numbered.created⟩
  | opened _ _ => exact numbered.oneMore rfl rfl rfl rfl

theorem Numbered.release {pool : Pool World} (numbered : pool.Numbered)
    (database : Database World) (now : Nat) (lease : LeaseId) :
    (pool.release database now lease).Numbered := by
  have ends := releases database now lease pool
  revert ends
  generalize pool.release database now lease = after
  intro ends
  cases ends with
  | unknown _ => exact numbered
  | @returned connection world held _ _ =>
      refine numbered.fewer List.filter_sublist rfl ?_ rfl
      have rearranged := (perm_leasedWithout numbered.leases held).map Prod.snd
      refine List.Perm.subperm ?_
      unfold Pool.connections
      simp only [List.map_append, List.map_cons, List.map_nil, List.append_assoc]
      exact List.Perm.append_left _ rearranged.symm
  | @discarded connection checked after held _ made =>
      refine Numbered.replenish ?_ made
      refine numbered.fewer List.filter_sublist rfl ?_ rfl
      exact (List.Sublist.append_left (List.filter_sublist.map Prod.snd) _).subperm

theorem leased_of_replenishes {database : Database World} {now : Nat} {pool after : Pool World}
    (ends : Replenishes database now pool after) : after.leased = pool.leased := by
  cases ends <;> rfl

theorem lookup_release {lease other : LeaseId} (different : other ≠ lease)
    (database : Database World) (now : Nat) (pool : Pool World) :
    (pool.release database now lease).leased.lookup other = pool.leased.lookup other := by
  have ends := releases database now lease pool
  revert ends
  generalize pool.release database now lease = after
  intro ends
  cases ends with
  | unknown _ => rfl
  | returned _ _ _ => exact lookup_withoutName_of_ne pool.leased different
  | discarded _ _ made =>
      rw [leased_of_replenishes made]
      exact lookup_withoutName_of_ne pool.leased different

/-! ### Maintenance and shutdown -/

def closedWorld (database : Database World) (connections : List ConnectionId) (world : World) :
    World :=
  connections.foldl (fun current connection => (database.close connection current).2) world

private theorem closeAll_eq (database : Database World) (connections : List ConnectionId)
    (pool : Pool World) :
    closeAll database connections pool =
      { pool with world := closedWorld database connections pool.world } := by
  induction connections generalizing pool with
  | nil => rfl
  | cons connection rest ih =>
      show closeAll database rest (close database connection pool) = _
      rw [ih, close_eq]
      rfl

/-- The connections that a maintenance pass closes. -/
def expired (pool : Pool World) (now : Nat) : List ConnectionId :=
  (pool.idle.take (pool.expiredCount now)).map IdleConnection.connection

theorem maintain_eq (database : Database World) (now : Nat) (pool : Pool World) :
    pool.maintain database now = { pool with
      world := closedWorld database (pool.expired now) pool.world
      idle := pool.idle.drop (pool.expiredCount now)
      openCount := pool.openCount - (pool.idle.take (pool.expiredCount now)).length
      totalClosed := pool.totalClosed + (pool.idle.take (pool.expiredCount now)).length } := by
  unfold maintain
  simp only [closeAll_eq]
  rfl

theorem Numbered.maintain {pool : Pool World} (numbered : pool.Numbered)
    (database : Database World) (now : Nat) : (pool.maintain database now).Numbered := by
  rw [maintain_eq]
  refine numbered.fewer (List.Sublist.refl _) rfl ?_ rfl
  exact (List.Sublist.append_right ((List.drop_sublist _ _).map _) _).subperm

theorem shutdown_eq (database : Database World) {pool : Pool World}
    (isOpen : pool.isClosed = false) :
    pool.shutdown database = { pool with
      world := closedWorld database pool.connections pool.world
      idle := []
      leased := []
      isClosed := true
      openCount := pool.openCount - pool.idle.length - pool.leased.length
      inUse := pool.inUse - pool.leased.length
      totalClosed := pool.totalClosed + pool.idle.length + pool.leased.length } := by
  unfold shutdown
  simp only [isOpen, Bool.false_eq_true, ↓reduceIte, closeAll_eq, List.length_map]
  unfold Pool.connections closedWorld
  rw [List.foldl_append]

theorem Numbered.shutdown {pool : Pool World} (numbered : pool.Numbered)
    (database : Database World) : (pool.shutdown database).Numbered := by
  cases closed : pool.isClosed with
  | true =>
      unfold Pool.shutdown
      simp only [closed, ↓reduceIte]
      exact numbered
  | false =>
      rw [shutdown_eq database closed]
      exact numbered.fewer (List.nil_sublist _) rfl (List.nil_subperm) rfl

/-! ### What pools leave alone -/

section Kept

variable {holds : World → Prop} {pool : Pool World}

section Held

variable (connect : ∀ connection world, holds world →
  holds (database.connect connection world).2)
include connect

/-- What holds when connections are opened holds when one is acquired. -/
theorem holds_acquire (held : holds pool.world) : holds (pool.acquire database).2.world := by
  have ends := acquires database pool
  revert ends
  generalize pool.acquire database = acquired
  obtain ⟨outcome, after⟩ := acquired
  intro ends
  have kept := connect pool.totalCreated pool.world held
  cases ends with
  | refused connects => rwa [connects] at kept
  | opened _ _ _ connects => rwa [connects] at kept
  | _ => exact held

private theorem holds_replenishes {now : Nat} {after : Pool World} (held : holds pool.world)
    (ends : Replenishes database now pool after) : holds after.world := by
  have kept := connect pool.totalCreated pool.world held
  cases ends with
  | kept => exact held
  | refused connects => rwa [connects] at kept
  | opened _ connects => rwa [connects] at kept

/-- What holds when connections are opened, checked and closed holds when a lease is given back. -/
theorem holds_release
    (check : ∀ connection world, holds world → holds (database.isValid connection world).2)
    (close : ∀ connection world, holds world → holds (database.close connection world).2)
    (held : holds pool.world) (now : Nat) (lease : LeaseId) :
    holds (pool.release database now lease).world := by
  have ends := releases database now lease pool
  revert ends
  generalize pool.release database now lease = after
  intro ends
  have checked {connection : ConnectionId} {valid : Bool} {world : World}
      (checks : database.isValid connection pool.world = (valid, world)) : holds world := by
    have kept := check connection pool.world held
    rwa [checks] at kept
  cases ends with
  | unknown _ => exact held
  | returned _ _ checks => exact checked checks
  | discarded _ isUnfit replenishes =>
      refine holds_replenishes connect (close _ _ ?_) replenishes
      rcases isUnfit with ⟨_, rfl⟩ | ⟨_, checks⟩
      · exact held
      · exact checked checks

end Held

variable {View : Type} {view : World → View}

/-- What opening a connection leaves alone stays when one is acquired. -/
theorem view_acquire (connect : ∀ connection world,
      view (database.connect connection world).2 = view world) (pool : Pool World) :
    view (pool.acquire database).2.world = view pool.world :=
  @holds_acquire _ _ (fun world => view world = view pool.world) pool
    (fun connection world held => (connect connection world).trans held) rfl

/-- What opening, checking and closing leave alone stays when a lease is given back. -/
theorem view_release (connect : ∀ connection world,
      view (database.connect connection world).2 = view world)
    (check : ∀ connection world, view (database.isValid connection world).2 = view world)
    (close : ∀ connection world, view (database.close connection world).2 = view world)
    (now : Nat) (lease : LeaseId) (pool : Pool World) :
    view (pool.release database now lease).world = view pool.world :=
  @holds_release _ _ (fun world => view world = view pool.world) pool
    (fun connection world held => (connect connection world).trans held)
    (fun connection world held => (check connection world).trans held)
    (fun connection world held => (close connection world).trans held) rfl now lease

end Kept

/-! ### Creation -/

theorem addIdle_ok {database : Database World} {now : Nat} {pool after : Pool World}
    (added : addIdle database now pool = (.ok (), after)) :
    ∃ world, database.connect pool.totalCreated pool.world = (.ok (), world) ∧
      after = { pool with
        world := world
        totalCreated := pool.totalCreated + 1
        openCount := pool.openCount + 1
        idle := pool.idle ++ [⟨pool.totalCreated, now⟩] } := by
  unfold addIdle at added
  rw [connect_eq] at added
  rcases connects : database.connect pool.totalCreated pool.world with ⟨outcome, world⟩
  rw [connects] at added
  cases outcome with
  | error fault => cases added
  | ok _ =>
      cases added
      exact ⟨world, rfl, rfl⟩

theorem Numbered.addIdles {database : Database World} {now count : Nat}
    {pool after : Pool World} (numbered : pool.Numbered)
    (added : Pool.addIdles database now count pool = (.ok (), after)) :
    after.Numbered ∧ after.leased = pool.leased := by
  induction count generalizing pool with
  | zero =>
      cases added
      exact ⟨numbered, rfl⟩
  | succ count ih =>
      unfold Pool.addIdles at added
      split at added
      · cases added
      rename_i between first
      obtain ⟨world, _, same⟩ := addIdle_ok first
      have numberedBetween : between.Numbered := by
        rw [same]
        exact numbered.oneMore rfl rfl rfl rfl
      obtain ⟨numberedAfter, leased⟩ := ih numberedBetween added
      exact ⟨numberedAfter, by rw [leased, same]⟩

theorem numbered_create {database : Database World} {config : PoolConfig} {now : Nat}
    {world : World} {pool : Pool World}
    (created : create database config now world = (.ok (), pool)) :
    pool.Numbered ∧ pool.leased = [] := by
  have empty : Numbered ({ config := config.normalized, world := world } : Pool World) := by
    refine ⟨List.nodup_nil, ?_, List.nodup_nil, ?_⟩
    · intro entry member
      cases member
    · intro connection member
      cases member
  unfold create at created
  simp only at created
  split at created
  · cases created
  rename_i after added
  cases created
  exact empty.addIdles added

end Pool
end EntityStore
