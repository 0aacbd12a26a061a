/-
The order of the idle queue. A connection joins the queue at its end, when it is given back or
replaces another one, and leaves it at either end: the last one is handed out, and maintenance
closes from the front. While the clock never goes back, the queue is in order of release. So
the connection that is handed out is the one released last, and a maintenance pass, which
looks at the front alone, closes as many as waited too long and as the least number allows.
-/

import Mathlib.Data.List.Induction
import Mathlib.Data.List.TakeWhile
import EntityStore.Proofs.Accounts

set_option autoImplicit false

namespace EntityStore
namespace Pool

/-! ### Time -/

def Action.time? : Action → Option Nat
  | drop now _ | maintain now => some now
  | _ => none

/-- The clock is read when the pool is created and then by the actions, and never goes back. -/
def Chronological (start : Nat) (actions : List Action) : Prop :=
  (start :: actions.filterMap Action.time?).Pairwise (· ≤ ·)

instance (start : Nat) (actions : List Action) : Decidable (Chronological start actions) :=
  inferInstanceAs (Decidable ((start :: actions.filterMap Action.time?).Pairwise (· ≤ ·)))

variable {World : Type} {database : Database World} {pool : Pool World} {start : Nat}
  {actions : List Action} {connection : ConnectionId}

private theorem chronological_snoc {action : Action}
    (chronological : Chronological start (actions ++ [action])) :
    Chronological start actions ∧ ∀ now, action.time? = some now →
      ∀ time ∈ start :: actions.filterMap Action.time?, time ≤ now := by
  unfold Chronological at chronological
  rw [List.filterMap_append, ← List.cons_append, List.pairwise_append] at chronological
  obtain ⟨before, -, apart⟩ := chronological
  refine ⟨before, fun now isTime time member => apart time member now ?_⟩
  rw [List.filterMap_cons_some isTime]
  exact List.mem_singleton_self now

private theorem acts_append (database : Database World) (pool : Pool World)
    (earlier later : List Action) :
    pool.acts database (earlier ++ later) = (pool.acts database earlier).acts database later := by
  induction earlier generalizing pool with
  | nil => rfl
  | cons action rest ih => exact ih (pool.act database action)

private theorem acts_snoc (database : Database World) (pool : Pool World) (actions : List Action)
    (action : Action) :
    pool.acts database (actions ++ [action]) = (pool.acts database actions).act database action :=
  acts_append database pool actions [action]

/-! ### Waiting -/

def Waits (pool : Pool World) (connection : ConnectionId) : Prop :=
  connection ∈ pool.idle.map IdleConnection.connection

/-- The connection waits before the actions, after each of them, and so in between. -/
def WaitsDuring (database : Database World) (pool : Pool World) (actions : List Action)
    (connection : ConnectionId) : Prop :=
  ∀ part, part <+: actions → (pool.acts database part).Waits connection

/-- The time since which a connection waits, once the actions are done: it has waited from the
start, or joined the queue by the action of that time and has not left it since. -/
inductive WaitsSince (database : Database World) (start : Nat) (pool : Pool World)
    (actions : List Action) (connection : ConnectionId) : Nat → Prop where
  | start : WaitsDuring database pool actions connection →
      WaitsSince database start pool actions connection start
  | joined {earlier later : List Action} {action : Action} {time : Nat} :
      actions = earlier ++ [action] ++ later → action.time? = some time →
      ¬(pool.acts database earlier).Waits connection →
      WaitsDuring database (pool.acts database (earlier ++ [action])) later connection →
      WaitsSince database start pool actions connection time

structure Precedes (database : Database World) (pool : Pool World) (actions : List Action)
    (first second : IdleConnection) : Prop where
  released : first.releasedAt ≤ second.releasedAt
  waits : ∀ earlier later, actions = earlier ++ later →
    WaitsDuring database (pool.acts database earlier) later second.connection →
    WaitsDuring database (pool.acts database earlier) later first.connection

structure Queued (database : Database World) (start : Nat) (pool : Pool World)
    (actions : List Action) : Prop where
  since : ∀ entry ∈ (pool.acts database actions).idle,
    WaitsSince database start pool actions entry.connection entry.releasedAt
  ordered : (pool.acts database actions).idle.Pairwise (Precedes database pool actions)

private theorem waits_of_mem {entry : IdleConnection} (member : entry ∈ pool.idle) :
    pool.Waits entry.connection :=
  List.mem_map_of_mem member

private theorem waitsDuring_nil :
    WaitsDuring database pool [] connection ↔ pool.Waits connection := by
  constructor
  · intro waits
    exact waits [] List.prefix_rfl
  · intro waits part isPart
    rw [List.prefix_nil.mp isPart]
    exact waits

private theorem waitsDuring_snoc {action : Action} :
    WaitsDuring database pool (actions ++ [action]) connection ↔
      WaitsDuring database pool actions connection ∧
        (pool.acts database (actions ++ [action])).Waits connection := by
  constructor
  · intro waits
    constructor
    · intro part isPart
      exact waits part (isPart.trans (List.prefix_append actions [action]))
    · exact waits (actions ++ [action]) List.prefix_rfl
  · rintro ⟨before, after⟩ part isPart
    rcases List.prefix_concat_iff.mp isPart with rfl | isBefore
    · exact after
    · exact before part isBefore

theorem WaitsSince.mem_times {time : Nat}
    (since : WaitsSince database start pool actions connection time) :
    time ∈ start :: actions.filterMap Action.time? := by
  cases since with
  | start _ => exact List.mem_cons_self
  | @joined earlier later action _ split isTime _ _ =>
      apply List.mem_cons_of_mem
      rw [split, List.filterMap_append, List.filterMap_append, List.filterMap_cons_some isTime]
      simp

theorem WaitsSince.snoc {time : Nat} {action : Action}
    (since : WaitsSince database start pool actions connection time)
    (waits : (pool.acts database (actions ++ [action])).Waits connection) :
    WaitsSince database start pool (actions ++ [action]) connection time := by
  cases since with
  | start during => exact .start (waitsDuring_snoc.mpr ⟨during, waits⟩)
  | @joined earlier later joining _ split isTime joins during =>
      rw [split, List.append_assoc, acts_append] at waits
      have splitAfter : actions ++ [action] = earlier ++ [joining] ++ (later ++ [action]) := by
        rw [split, List.append_assoc]
      exact .joined splitAfter isTime joins (waitsDuring_snoc.mpr ⟨during, waits⟩)

private theorem waits_snoc {action : Action} {first second : ConnectionId}
    (stays : (pool.acts database (actions ++ [action])).Waits first)
    (before : ∀ earlier later, actions = earlier ++ later →
      WaitsDuring database (pool.acts database earlier) later second →
      WaitsDuring database (pool.acts database earlier) later first)
    (earlier later : List Action) (split : actions ++ [action] = earlier ++ later)
    (during : WaitsDuring database (pool.acts database earlier) later second) :
    WaitsDuring database (pool.acts database earlier) later first := by
  rcases List.eq_nil_or_concat' later with rfl | ⟨part, last, rfl⟩
  · rw [List.append_nil] at split
    rw [← split]
    exact waitsDuring_nil.mpr stays
  · rw [← List.append_assoc] at split
    obtain ⟨splitBefore, same⟩ := List.append_inj' split rfl
    cases same
    apply waitsDuring_snoc.mpr
    constructor
    · exact before earlier part splitBefore (waitsDuring_snoc.mp during).1
    · rw [split, List.append_assoc, acts_append] at stays
      exact stays

theorem Precedes.snoc {action : Action} {first second : IdleConnection}
    (precedes : Precedes database pool actions first second)
    (stays : (pool.acts database (actions ++ [action])).Waits first.connection) :
    Precedes database pool (actions ++ [action]) first second :=
  ⟨precedes.released, waits_snoc stays precedes.waits⟩

/-! ### What an action does to the queue -/

/-- How a queue changes: one connection joins it at its end with the time of the action, the
last one is taken, or some are taken from the front. -/
inductive Shifts (idle : List IdleConnection) : Option Nat → List IdleConnection → Prop where
  | kept {time : Option Nat} : Shifts idle time idle
  | joined {connection : ConnectionId} {now : Nat} :
      connection ∉ idle.map IdleConnection.connection →
      Shifts idle (some now) (idle ++ [⟨connection, now⟩])
  | taken {time : Option Nat} {rest : List IdleConnection} {last : IdleConnection} :
      idle = rest ++ [last] → Shifts idle time rest
  | closed {time : Option Nat} {front rest : List IdleConnection} :
      idle = front ++ rest → Shifts idle time rest

private theorem idle_callLease {α : Type} (pool : Pool World) (lease : LeaseId)
    (request : ConnectionId → Call World α) : (pool.callLease lease request).2.idle = pool.idle := by
  unfold callLease
  cases pool.leased.lookup lease <;> rfl

private theorem idle_isValid (database : Database World) (pool : Pool World) (lease : LeaseId) :
    (pool.isValid database lease).2.idle = pool.idle := by
  unfold isValid
  cases pool.leased.lookup lease <;> rfl

theorem Numbered.not_waits {lease : LeaseId} (numbered : pool.Numbered)
    (held : pool.leased.lookup lease = some connection) : ¬pool.Waits connection := by
  intro waits
  have apart := List.disjoint_of_nodup_append numbered.connections
  exact apart waits (List.mem_map_of_mem (f := Prod.snd) (mem_of_lookup held))

theorem Numbered.lookup_nextLease (numbered : pool.Numbered) :
    pool.leased.lookup pool.nextLease = none := by
  cases held : pool.leased.lookup pool.nextLease with
  | none => rfl
  | some connection =>
      have handedOut := numbered.handedOut (pool.nextLease, connection) (mem_of_lookup held)
      exact absurd handedOut (Nat.lt_irrefl pool.nextLease)

theorem Numbered.not_waits_next (numbered : pool.Numbered) : ¬pool.Waits pool.totalCreated := by
  intro waits
  exact Nat.lt_irrefl _ (numbered.created pool.totalCreated (List.mem_append_left _ waits))

private theorem shifts_replenishes {now : Nat} {after : Pool World}
    (ends : Replenishes database now pool after) (fresh : ¬pool.Waits pool.totalCreated) :
    Shifts pool.idle (some now) after.idle := by
  cases ends with
  | kept => exact .kept
  | refused _ => exact .kept
  | opened _ _ => exact .joined fresh

private theorem shifts_release (numbered : pool.Numbered) (database : Database World) (now : Nat)
    (lease : LeaseId) : Shifts pool.idle (some now) (pool.release database now lease).idle := by
  have ends := releases database now lease pool
  generalize pool.release database now lease = after at ends
  cases ends with
  | unknown _ => exact .kept
  | returned held _ _ => exact .joined (numbered.not_waits held)
  | discarded _ _ made =>
      have shifts := shifts_replenishes made numbered.not_waits_next
      exact shifts

private theorem shifts_act (numbered : pool.Numbered) (database : Database World)
    (action : Action) : Shifts pool.idle action.time? (pool.act database action).idle := by
  cases action with
  | acquire =>
      have ends := acquires database pool
      show Shifts pool.idle none (pool.acquire database).2.idle
      generalize pool.acquire database = acquired at ends
      obtain ⟨outcome, after⟩ := acquired
      cases ends with
      | reused _ split => exact .taken split
      | _ => exact .kept
  | ask lease question => exact idle_callLease pool lease _ ▸ .kept
  | begin lease => exact idle_callLease pool lease _ ▸ .kept
  | commit lease => exact idle_callLease pool lease _ ▸ .kept
  | rollback lease => exact idle_callLease pool lease _ ▸ .kept
  | check lease => exact idle_isValid database pool lease ▸ .kept
  | drop now lease => exact shifts_release numbered database now lease
  | maintain now =>
      show Shifts pool.idle (some now) (pool.maintain database now).idle
      rw [maintain_eq]
      exact .closed (List.take_append_drop (pool.expiredCount now) pool.idle).symm
  | shutdown =>
      show Shifts pool.idle none (pool.shutdown database).idle
      cases closed : pool.isClosed with
      | true =>
          unfold shutdown
          rw [if_pos closed]
          exact .kept
      | false =>
          rw [shutdown_eq database closed]
          exact .closed (List.append_nil pool.idle).symm

/-! ### The order is kept -/

theorem Queued.sublist (queued : Queued database start pool actions) {action : Action}
    (sublist : (pool.acts database (actions ++ [action])).idle.Sublist
      (pool.acts database actions).idle) :
    Queued database start pool (actions ++ [action]) := by
  constructor
  · intro entry member
    exact (queued.since entry (sublist.subset member)).snoc (waits_of_mem member)
  · apply (queued.ordered.sublist sublist).imp_of_mem
    intro first second member _ precedes
    exact precedes.snoc (waits_of_mem member)

theorem Queued.join (queued : Queued database start pool actions) {action : Action} {now : Nat}
    (isTime : action.time? = some now)
    (notBefore : ∀ time ∈ start :: actions.filterMap Action.time?, time ≤ now)
    (joins : connection ∉ (pool.acts database actions).idle.map IdleConnection.connection)
    (grown : (pool.acts database (actions ++ [action])).idle
      = (pool.acts database actions).idle ++ [⟨connection, now⟩]) :
    Queued database start pool (actions ++ [action]) := by
  have stays : ∀ entry ∈ (pool.acts database actions).idle,
      (pool.acts database (actions ++ [action])).Waits entry.connection := by
    intro entry member
    apply waits_of_mem
    rw [grown]
    exact List.mem_append_left _ member
  have waits : (pool.acts database (actions ++ [action])).Waits connection := by
    unfold Waits
    rw [grown]
    simp
  constructor
  · intro entry member
    rw [grown] at member
    rcases List.mem_append.mp member with isOld | isNew
    · exact (queued.since entry isOld).snoc (stays entry isOld)
    · rw [List.mem_singleton.mp isNew]
      exact .joined (List.append_nil _).symm isTime joins (waitsDuring_nil.mpr waits)
  · rw [grown, List.pairwise_append]
    refine ⟨?_, List.pairwise_singleton _ _, ?_⟩
    · apply queued.ordered.imp_of_mem
      intro first second member _ precedes
      exact precedes.snoc (stays first member)
    · intro first member second isNew
      rw [List.mem_singleton.mp isNew]
      constructor
      · exact notBefore _ (queued.since first member).mem_times
      · -- The new one has waited through nothing that was done before.
        apply waits_snoc (stays first member)
        intro earlier later split during
        have waitsBefore := during later List.prefix_rfl
        rw [← acts_append, ← split] at waitsBefore
        exact absurd waitsBefore joins

theorem Queued.act (queued : Queued database start pool actions)
    (numbered : (pool.acts database actions).Numbered) {action : Action}
    (notBefore : ∀ now, action.time? = some now →
      ∀ time ∈ start :: actions.filterMap Action.time?, time ≤ now) :
    Queued database start pool (actions ++ [action]) := by
  have shifts := shifts_act numbered database action
  rw [← acts_snoc] at shifts
  generalize left : (pool.acts database (actions ++ [action])).idle = idle at shifts
  generalize isTime : action.time? = time at shifts
  cases shifts with
  | kept => exact queued.sublist (left ▸ List.Sublist.refl _)
  | joined joins => exact queued.join isTime (notBefore _ isTime) joins left
  | taken split =>
      apply queued.sublist
      rw [left, split]
      exact List.sublist_append_left _ _
  | closed split =>
      apply queued.sublist
      rw [left, split]
      exact List.sublist_append_right _ _

private theorem queued_nil (opened : ∀ entry ∈ pool.idle, entry.releasedAt = start) :
    Queued database start pool [] := by
  constructor
  · intro entry member
    rw [opened entry member]
    exact .start (waitsDuring_nil.mpr (waits_of_mem member))
  · apply List.pairwise_of_forall_mem_list
    intro first isFirst second isSecond
    constructor
    · rw [opened first isFirst, opened second isSecond]
    · intro earlier later split _
      obtain ⟨rfl, rfl⟩ := List.append_eq_nil_iff.mp split.symm
      exact waitsDuring_nil.mpr (waits_of_mem isFirst)

/-! ### Maintenance -/

def Overdue (pool : Pool World) (now : Nat) (entry : IdleConnection) : Prop :=
  entry.releasedAt + pool.config.idleTimeout ≤ now

instance (pool : Pool World) (now : Nat) : DecidablePred (pool.Overdue now) :=
  fun entry => inferInstanceAs (Decidable (entry.releasedAt + pool.config.idleTimeout ≤ now))

private theorem isStale_iff {now : Nat} {entry : IdleConnection}
    (notLater : entry.releasedAt ≤ now) :
    pool.isStale now entry = true ↔ pool.Overdue now entry := by
  unfold isStale Overdue
  rw [decide_eq_true_eq]
  omega

/-- In a queue in order of release, the connections that are overdue stand in front. -/
theorem length_takeWhile_isStale {now : Nat} {idle : List IdleConnection}
    (ordered : idle.Pairwise fun first second => first.releasedAt ≤ second.releasedAt)
    (notLater : ∀ entry ∈ idle, entry.releasedAt ≤ now) :
    (idle.takeWhile (pool.isStale now)).length
      = idle.countP fun entry => decide (pool.Overdue now entry) := by
  induction idle with
  | nil => rfl
  | cons entry rest ih =>
      obtain ⟨isFirst, orderedRest⟩ := List.pairwise_cons.mp ordered
      have isStale := @isStale_iff _ pool _ _ (notLater entry List.mem_cons_self)
      by_cases overdue : pool.Overdue now entry
      · rw [List.takeWhile_cons_of_pos (isStale.mpr overdue), List.length_cons,
          ih orderedRest fun other member => notLater other (List.mem_cons_of_mem entry member)]
        exact (List.countP_cons_of_pos (p := fun entry => decide (pool.Overdue now entry))
          (decide_eq_true overdue)).symm
      · rw [List.takeWhile_cons_of_neg fun stale => overdue (isStale.mp stale),
          List.length_nil, eq_comm, List.countP_eq_zero]
        intro other member isOverdue
        have overdueOther := of_decide_eq_true isOverdue
        have notBefore : entry.releasedAt ≤ other.releasedAt := by
          rcases List.mem_cons.mp member with rfl | isLater
          · exact Nat.le_refl _
          · exact isFirst other isLater
        unfold Overdue at overdue overdueOther
        omega

/-- A maintenance pass closes connections from the front of the queue, one after the other, and
makes no other call. They are overdue, and as many as possible while the least number stays
open; the connections in use stay as they are. -/
structure Trims (now : Nat) (pool after : Pool (Traced World)) (closed : List IdleConnection) :
    Prop where
  front : pool.idle = closed ++ after.idle
  calls : ∃ calls, after.world.trace = pool.world.trace ++ calls ∧
    calls.map (fun call => (call.connection, call.deed))
      = closed.map fun entry => (entry.connection, Deed.close)
  overdue : ∀ entry ∈ closed, pool.Overdue now entry
  most : closed.length = min (pool.openCount - pool.config.minSize)
    (pool.idle.countP fun entry => decide (pool.Overdue now entry))
  openCount : after.openCount + closed.length = pool.openCount
  least : closed ≠ [] → pool.config.minSize ≤ after.openCount
  notLeased : ∀ entry ∈ closed, entry.connection ∉ pool.leased.map Prod.snd
  leased : after.leased = pool.leased ∧ after.inUse = pool.inUse
  done : after.openCount ≤ pool.config.minSize ∨
    ∀ entry ∈ after.idle, ¬pool.Overdue now entry

section Traced

variable {inner : Database World} {pool : Pool (Traced World)} {limit : Nat}

private theorem trace_closedWorld (connections : List ConnectionId) (traced : Traced World) :
    ∃ calls, (closedWorld (Traced.database inner) connections traced).trace
        = traced.trace ++ calls ∧
      calls.map (fun call => (call.connection, call.deed))
        = connections.map fun connection => (connection, Deed.close) := by
  induction connections generalizing traced with
  | nil => exact ⟨[], (List.append_nil _).symm, rfl⟩
  | cons connection rest ih =>
      rcases closes : (Traced.database inner).close connection traced with ⟨outcome, after⟩
      obtain ⟨calls, grown, made⟩ := ih after
      refine ⟨⟨connection, .close, outcome.map Traced.noRows⟩ :: calls, ?_, ?_⟩
      · show (closedWorld (Traced.database inner) rest
          ((Traced.database inner).close connection traced).2).trace = _
        rw [closes, grown, Traced.trace_of_tracing closes, List.append_assoc]
        rfl
      · rw [List.map_cons, made]
        rfl

private theorem mem_take_expiredCount {now : Nat} {entry : IdleConnection}
    (member : entry ∈ pool.idle.take (pool.expiredCount now)) :
    entry ∈ pool.idle.takeWhile (pool.isStale now) := by
  have stale := List.takeWhile_prefix (pool.isStale now) (l := pool.idle)
  have shorter : pool.expiredCount now ≤ (pool.idle.takeWhile (pool.isStale now)).length :=
    Nat.min_le_right _ _
  have within := List.prefix_of_prefix_length_le (List.take_prefix _ _) stale
    (Nat.le_trans (List.length_take_le _ _) shorter)
  exact within.subset member

theorem Balanced.trims (balanced : pool.Balanced limit) {now : Nat}
    (ordered : pool.idle.Pairwise fun first second => first.releasedAt ≤ second.releasedAt)
    (notLater : ∀ entry ∈ pool.idle, entry.releasedAt ≤ now) :
    ∃ closed, pool.Trims now (pool.maintain (Traced.database inner) now) closed := by
  have split := List.take_append_drop (pool.expiredCount now) pool.idle
  have openCount := balanced.openCount
  have most : pool.expiredCount now = min (pool.openCount - pool.config.minSize)
      (pool.idle.countP fun entry => decide (pool.Overdue now entry)) := by
    rw [← length_takeWhile_isStale ordered notLater]
    rfl
  have overdue : ∀ entry ∈ pool.idle.take (pool.expiredCount now), pool.Overdue now entry := by
    intro entry member
    apply (isStale_iff (notLater entry (List.mem_of_mem_take member))).mp
    exact List.mem_takeWhile_imp (mem_take_expiredCount member)
  have length : (pool.idle.take (pool.expiredCount now)).length = pool.expiredCount now := by
    have enough : pool.idle.countP (fun entry => decide (pool.Overdue now entry))
        ≤ pool.idle.length := List.countP_le_length
    rw [List.length_take]
    omega
  use pool.idle.take (pool.expiredCount now)
  rw [maintain_eq]
  constructor
  case front => exact split.symm
  case calls =>
    obtain ⟨calls, grown, made⟩ := @trace_closedWorld _ inner (pool.expired now) pool.world
    refine ⟨calls, grown, made.trans ?_⟩
    unfold expired
    rw [List.map_map]
    rfl
  case overdue => exact overdue
  case most => exact length.trans most
  case openCount =>
    simp only
    omega
  case least =>
    intro some
    have positive := List.length_pos_of_ne_nil some
    simp only
    omega
  case notLeased =>
    intro entry member leased
    have apart := List.disjoint_of_nodup_append balanced.numbered.connections
    exact apart (List.mem_map_of_mem (List.mem_of_mem_take member)) leased
  case leased => exact ⟨rfl, rfl⟩
  case done =>
    -- Either the least number stopped the pass, or it has closed all that were overdue.
    by_cases least : pool.openCount - pool.config.minSize ≤ pool.expiredCount now
    · left
      simp only
      omega
    · right
      have counted : pool.idle.countP (fun entry => decide (pool.Overdue now entry))
          = (pool.idle.take (pool.expiredCount now)).length := by omega
      have allOverdue : (pool.idle.take (pool.expiredCount now)).countP
          (fun entry => decide (pool.Overdue now entry))
          = (pool.idle.take (pool.expiredCount now)).length :=
        List.countP_eq_length.mpr fun entry member => decide_eq_true (overdue entry member)
      rw [← split, List.countP_append, split, allOverdue] at counted
      intro entry member isOverdue
      have none := List.countP_eq_zero.mp (Nat.add_left_cancel (counted.trans (Nat.add_zero _).symm))
      exact none entry member (decide_eq_true isOverdue)

/-! ### Every run -/

theorem Balanced.queued_acts (balanced : pool.Balanced limit)
    (opened : ∀ entry ∈ pool.idle, entry.releasedAt = start)
    (chronological : Chronological start actions) :
    Queued (Traced.database inner) start pool actions := by
  induction actions using List.reverseRecOn with
  | nil => exact queued_nil opened
  | append_singleton earlier action ih =>
      obtain ⟨before, notBefore⟩ := chronological_snoc chronological
      exact (ih before).act (balanced.acts earlier).numbered notBefore

private theorem releasedAt_addIdles {database : Database World} {pool after : Pool World}
    {now count : Nat} (opened : ∀ entry ∈ pool.idle, entry.releasedAt = now)
    (added : addIdles database now count pool = (.ok (), after)) :
    ∀ entry ∈ after.idle, entry.releasedAt = now := by
  induction count generalizing pool with
  | zero =>
      cases added
      exact opened
  | succ count ih =>
      unfold addIdles at added
      split at added
      · cases added
      · rename_i between first
        obtain ⟨world, -, same⟩ := addIdle_ok first
        apply ih ?_ added
        intro entry member
        rw [same] at member
        rcases List.mem_append.mp member with isOld | isNew
        · exact opened entry isOld
        · rw [List.mem_singleton.mp isNew]

private theorem releasedAt_create {database : Database World} {config : PoolConfig} {now : Nat}
    {world : World} {pool : Pool World}
    (created : create database config now world = (.ok (), pool)) :
    ∀ entry ∈ pool.idle, entry.releasedAt = now := by
  unfold create at created
  simp only at created
  split at created
  · cases created
  · rename_i after added
    cases created
    apply releasedAt_addIdles ?_ added
    intro entry member
    cases member

private theorem acquire_of_idle {database : Database World} {pool : Pool World}
    {rest : List IdleConnection} {last : IdleConnection} (isOpen : pool.isClosed = false)
    (split : pool.idle = rest ++ [last]) :
    pool.acquire database = (.ok pool.nextLease, { pool with
      idle := rest
      leased := pool.leased ++ [(pool.nextLease, last.connection)]
      nextLease := pool.nextLease + 1
      inUse := pool.inUse + 1 }) := by
  unfold acquire takeIdle?
  rw [isOpen, split, List.getLast?_concat, List.dropLast_concat]
  rfl

/-- However a pool has been used, while the clock never went back: its queue is in order of
release. So the connection that is handed out is the one that was released last, and a
maintenance pass closes those that were released first, exactly as many that are overdue as
leave the least number open. -/
theorem idle_in_release_order {config : PoolConfig} {world : World}
    (created : create (Traced.database inner) config start { world := world } = (.ok (), pool))
    (chronological : Chronological start actions) :
    let reached := pool.acts (Traced.database inner) actions
    Queued (Traced.database inner) start pool actions ∧
      (∀ rest last, reached.idle = rest ++ [last] → ∃ after : Pool (Traced World),
        reached.acquire (Traced.database inner) = (.ok reached.nextLease, after) ∧
          after.leased.lookup reached.nextLease = some last.connection ∧
          after.idle = rest ∧ after.world = reached.world ∧
          ∀ entry ∈ rest, Precedes (Traced.database inner) pool actions entry last) ∧
      ∀ later, Chronological start (actions ++ [.maintain later]) →
        ∃ closed, reached.Trims later (reached.maintain (Traced.database inner) later) closed := by
  intro reached
  have balanced : reached.Balanced (max config.maxSize 1) := (balanced_create created).acts actions
  have queued : Queued (Traced.database inner) start pool actions :=
    (balanced_create created).queued_acts (releasedAt_create created) chronological
  constructor
  · exact queued
  constructor
  · intro rest last split
    have isOpen : reached.isClosed = false := by
      rw [Bool.eq_false_iff]
      intro closed
      rw [(balanced.final closed).1] at split
      exact List.append_ne_nil_of_right_ne_nil rest (List.cons_ne_nil last []) split.symm
    refine ⟨_, acquire_of_idle isOpen split, ?_, rfl, rfl, ?_⟩
    · have isNew : reached.leased.lookup reached.nextLease = none :=
        balanced.numbered.lookup_nextLease
      rw [List.lookup_append, isNew]
      simp
    · intro entry member
      have ordered := queued.ordered
      rw [split, List.pairwise_append] at ordered
      exact ordered.2.2 entry member last (List.mem_singleton_self last)
  · intro later chronologicalThen
    have notBefore := (chronological_snoc chronologicalThen).2 later rfl
    apply balanced.trims
    · exact queued.ordered.imp fun precedes => precedes.released
    · intro entry member
      exact notBefore _ (queued.since entry member).mem_times

/-- The connection of the first lease is found unfit and another one takes its place, which
waits from then on, is used, and is the first to be given back. Two of the connections that
wait are overdue, and one of them has to stay. -/
theorem idle_in_release_order_replaced :
    let database := Traced.database (Scripted.database "")
    let world : Scripted.World := { script := { isValid := [.given false] } }
    let config : PoolConfig := { minSize := 2, idleTimeout := 8 }
    let pool := (create database config 0 { world := world }).2
    let actions := [.acquire, .acquire, .drop 1 0, .acquire, .acquire,
      .drop 4 2, .drop 6 1, .drop 8 3]
    let reached := pool.acts database actions
    create database config 0 { world := world } = (.ok (), pool) ∧
      Chronological 0 (actions ++ [.maintain 15]) ∧
      reached.idle = [⟨2, 4⟩, ⟨0, 6⟩, ⟨3, 8⟩] ∧
      (reached.maintain database 15).idle = [⟨0, 6⟩, ⟨3, 8⟩] ∧
      Queued database 0 pool actions ∧
      ∃ closed, reached.Trims 15 (reached.maintain database 15) closed := by
  intro database world config pool actions reached
  have created : create database config 0 { world := world } = (.ok (), pool) := rfl
  have chronological : Chronological 0 (actions ++ [.maintain 15]) := by
    decide +kernel
  have inOrder := idle_in_release_order created (chronological_snoc chronological).1
  have trims := inOrder.2.2 15 chronological
  refine ⟨created, chronological, ?_, ?_, inOrder.1, trims⟩
  · decide +kernel
  · decide +kernel

end Traced

end Pool
end EntityStore
