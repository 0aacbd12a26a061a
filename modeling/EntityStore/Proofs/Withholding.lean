/-
What a transaction does to the cache while it lasts. The keys that it writes are taken out,
what it owes to the cache is put off, and everything else stays as it is: a look at a row
changes the order of use alone, and what is read is not put in.
-/

import EntityStore.Proofs.LastWrites
import EntityStore.Proofs.LastingWrites
import EntityStore.Proofs.Retaining

set_option autoImplicit false

namespace EntityStore

/-! ### Caches that are not overfull -/

def Cache.Roomy (cache : Cache) : Prop := cache.policy.keep cache.entries = cache.entries

theorem CachePolicy.keep_of_le {α β : Type} {policy : CachePolicy} {entries : List α}
    {fewer : List β} (roomy : policy.keep entries = entries)
    (le : fewer.length ≤ entries.length) : policy.keep fewer = fewer := by
  cases policy with
  | disabled =>
      obtain rfl : entries = [] := roomy.symm
      obtain rfl := List.eq_nil_of_length_eq_zero (Nat.le_zero.mp le)
      rfl
  | unbounded => rfl
  | lru capacity =>
      have bound : entries.length ≤ max capacity 1 := by
        have same : (entries.take (max capacity 1)).length = entries.length :=
          congrArg List.length roomy
        rw [List.length_take] at same
        omega
      exact List.take_of_length_le (Nat.le_trans le bound)

namespace Cache

variable {cache : Cache} {key other : Key}

theorem roomy_empty (policy : CachePolicy) : (empty policy).Roomy := by
  cases policy with
  | disabled => rfl
  | unbounded => rfl
  | lru capacity => exact List.take_nil

private theorem roomy_store (cache : Cache) (key : Key) (row : Row) :
    (cache.store key row).Roomy := by
  have again (entries : List (Key × Row)) :
      cache.policy.keep (cache.policy.keep entries) = cache.policy.keep entries := by
    cases cache.policy with
    | disabled => rfl
    | unbounded => rfl
    | lru capacity => exact List.take_take.trans (by rw [Nat.min_self]; rfl)
  exact again _

structure Closed (holds : Cache → Prop) : Prop where
  get : ∀ {cache : Cache}, holds cache → ∀ key, holds (cache.get key).2
  invalidate : ∀ {cache : Cache}, holds cache → ∀ key, holds (cache.invalidate key)
  clear : ∀ {cache : Cache}, holds cache → holds cache.clear
  applyEffect : ∀ {cache : Cache}, holds cache → ∀ generation effect,
    holds (WriteSet.applyEffect generation cache effect)

namespace Closed

variable {holds : Cache → Prop}

private theorem apply (closed : Closed holds) (before : holds cache) (writes : WriteSet)
    (generation : Nat) : holds (writes.apply generation cache) :=
  List.foldlRecOn writes.effects _ before fun _ kept _ _ => closed.applyEffect kept generation _

private theorem evictTouched (closed : Closed holds) (before : holds cache) (writes : WriteSet) :
    holds (writes.evictTouched cache) :=
  List.foldlRecOn writes.effects _ before fun _ kept _ _ => closed.invalidate kept _

end Closed

theorem closed_roomy : Closed Roomy where
  get {cache} roomy key := by
    unfold Cache.get
    split
    · exact roomy_store _ _ _
    · exact roomy
  invalidate roomy key := CachePolicy.keep_of_le roomy (List.length_filter_le _ _)
  clear roomy := CachePolicy.keep_of_le roomy (Nat.zero_le _)
  applyEffect {cache} roomy generation effect := by
    cases effect with
    | put key row =>
        unfold WriteSet.applyEffect put
        dsimp only
        split
        · exact roomy_store cache key row
        · exact roomy
    | fill key row =>
        unfold WriteSet.applyEffect fill
        dsimp only
        split
        · exact roomy_store _ _ _
        · exact roomy
    | evict key => exact CachePolicy.keep_of_le roomy (List.length_filter_le _ _)

theorem closed_policy (policy : CachePolicy) : Closed fun cache => cache.policy = policy where
  get {cache} same key := by
    unfold Cache.get
    split <;> exact same
  invalidate same key := same
  clear same := same
  applyEffect same generation effect := (policy_applyEffect generation _ effect).trans same

theorem Roomy.find?_get (roomy : cache.Roomy) (key other : Key) :
    (cache.get key).2.find? other = cache.find? other := by
  unfold Cache.get
  split
  · rename_i row found
    have isEntry : (key, row) ∈ cache.entries := mem_of_lookup found
    have shorter : ((key, row) :: without cache.entries key).length ≤ cache.entries.length := by
      have less : (without cache.entries key).length < cache.entries.length :=
        List.length_filter_lt_length_iff_exists.mpr ⟨(key, row), isEntry, by simp⟩
      exact less
    unfold find? store
    rw [CachePolicy.keep_of_le roomy shorter]
    by_cases same : other = key
    · subst same
      rw [List.lookup_cons_self]
      exact found.symm
    · rw [List.lookup_cons, beq_eq_false_iff_ne.mpr same]
      exact lookup_withoutName_of_ne cache.entries same
  · rfl

private theorem find?_evictTouched_of_ne {writes : WriteSet}
    (apart : ∀ effect ∈ writes.effects, effect.key ≠ key) (cache : Cache) :
    (writes.evictTouched cache).find? key = cache.find? key := by
  obtain ⟨effects, owners⟩ := writes
  induction effects generalizing cache with
  | nil => rfl
  | cons effect rest ih =>
      refine (ih _ fun other member => apart other (List.mem_cons_of_mem effect member)).trans ?_
      rw [find?_invalidate, if_neg (apart effect List.mem_cons_self)]

end Cache

def Task.records : Task → Bool
  | save _ | removal _ => true
  | _ => false

theorem Task.Gives.effects_eq_nil {dialect : Dialect} {fits : Mapping → Prop} {task : Task}
    {writes : WriteSet} {log : List Event} (gives : task.Gives dialect fits writes log)
    (silent : task.records = false) : writes.withoutFills.effects = [] := by
  cases gives with
  | read _ =>
      refine List.filter_eq_nil_iff.mpr fun effect member => ?_
      obtain ⟨entry, _, rfl⟩ := List.mem_map.mp member
      exact Bool.not_eq_true _ ▸ rfl
  | sync _ => rfl
  | drop _ => rfl
  | save _ => cases silent
  | removal _ _ => cases silent

namespace Store

variable {World : Type} {session : Session World} {store between after : Store World}
  {poses : Task → Prop} {clears : Prop} {ok : Bool} {thread : ThreadId}

/-! ### Steps in a transaction -/

/-- In its transaction a thread has put off effects on the cache: their keys are out of
sight, and the rest of the cache is as it was, unless it was emptied. -/
structure Withholds (thread : ThreadId) (clears : Prop) (effects : List CacheEffect)
    (store after : Store World) : Prop where
  owed : (after.owed thread).effects = (store.owed thread).effects ++ effects
  hidden : ∀ effect ∈ effects, after.cache.find? effect.key = none
  others : ∀ key, (∀ effect ∈ effects, effect.key ≠ key) →
    after.cache.find? key = store.cache.find? key ∨ (clears ∧ after.cache.find? key = none)

namespace Withholds

variable {effects more : List CacheEffect}

theorem of_same (owed : after.owed thread = store.owed thread) (cache : after.cache = store.cache) :
    Withholds thread clears [] store after :=
  ⟨by rw [owed, List.append_nil], fun _ impossible => (by cases impossible),
    fun _ _ => Or.inl (by rw [cache])⟩

/-- Nothing comes into the cache. -/
theorem shows (withholds : Withholds thread clears effects store after) :
    store.ShowsOnly after := by
  intro key row isShown
  have isShown : after.cache.find? key = some row := isShown
  by_cases touched : ∃ effect ∈ effects, effect.key = key
  · obtain ⟨effect, member, rfl⟩ := touched
    rw [withholds.hidden effect member] at isShown
    cases isShown
  · rcases withholds.others key fun effect member same => touched ⟨effect, member, same⟩
      with kept | ⟨_, gone⟩
    · exact kept.symm.trans isShown
    · rw [gone] at isShown
      cases isShown

theorem find?_eq_none {key : Key} (withholds : Withholds thread clears effects store after)
    (missing : store.cache.find? key = none) : after.cache.find? key = none := by
  rw [Option.eq_none_iff_forall_ne_some] at missing ⊢
  exact fun row isShown => missing row (withholds.shows key row isShown)

private theorem trans (first : Withholds thread clears effects store between)
    (second : Withholds thread clears more between after) :
    Withholds thread clears (effects ++ more) store after where
  owed := by rw [second.owed, first.owed, List.append_assoc]
  hidden effect member := by
    rcases List.mem_append.mp member with isFirst | isSecond
    · exact second.find?_eq_none (first.hidden effect isFirst)
    · exact second.hidden effect isSecond
  others key apart := by
    have earlier := first.others key fun effect member =>
      apart effect (List.mem_append_left more member)
    rcases second.others key fun effect member => apart effect (List.mem_append_right _ member)
      with kept | ⟨may, gone⟩
    · exact kept ▸ earlier
    · exact Or.inr ⟨may, gone⟩

/-- What two stores record between them is determined by what they owe. -/
theorem effects_eq (withholds : Withholds thread clears effects store after)
    (owed : (after.owed thread).effects = (store.owed thread).effects ++ more) : effects = more :=
  List.append_cancel_left (withholds.owed.symm.trans owed)

end Withholds

theorem ShowsOnly.trans (first : store.ShowsOnly between) (second : between.ShowsOnly after) :
    store.ShowsOnly after :=
  fun key row isShown => first key row (second key row isShown)

theorem withholds_recordWrites {transaction : Transaction}
    (inside : store.transaction? thread = some transaction) (writes : WriteSet) :
    Withholds thread clears writes.withoutFills.effects store
      (recordWrites thread writes store) where
  owed := by
    rw [owed_recordWrites inside, owed_of_inside inside]
    exact WriteSet.effects_addOwners _ _
  hidden effect member := by
    rw [cache_recordWrites]
    exact Cache.find?_evictTouched member _
  others key apart := by
    rw [cache_recordWrites]
    exact Or.inl (Cache.find?_evictTouched_of_ne apart _)

inductive WithholdsOrAborts (thread : ThreadId) (clears silent : Prop) (store : Store World)
    (ok : Bool) (after : Store World) : Prop where
  | withheld {effects : List CacheEffect} : after.inTransaction thread = true →
      Withholds thread clears effects store after → (silent → effects = []) →
      WithholdsOrAborts thread clears silent store ok after
  | aborted : ok = false → after.inTransaction thread = false → store.ShowsOnly after →
      WithholdsOrAborts thread clears silent store ok after

private theorem withholdsOrAborts_of_same {silent : Prop}
    (inside : store.inTransaction thread = true)
    (transactions : after.transactions = store.transactions) (cache : after.cache = store.cache) :
    WithholdsOrAborts thread clears silent store ok after := by
  refine .withheld ?_ (.of_same ?_ cache) fun _ => rfl
  · unfold inTransaction transaction? at inside ⊢
    rwa [transactions]
  · unfold owed transaction?
    rw [transactions]

section Inner

variable (inner : ∀ task, poses task → task.bounds = false)
  (inside : store.inTransaction session.thread = true)

include inside

theorem UnitEnds.withholds {α : Type} {task : Task} {transactional : Bool}
    {outcome : Except Error α} (posed : task = .read ∨ poses task)
    (ends : UnitEnds session (Question.Issued (· ∈ store.registry.mappings) transactional)
      transactional (fun result log =>
        task.Gives session.dialect (· ∈ store.registry.mappings) result.2 log) store outcome after) :
    WithholdsOrAborts session.thread clears (∀ task, poses task → task.records = false) store
      outcome.isOk after := by
  obtain ⟨transaction, isInside⟩ := Option.isSome_iff_exists.mp inside
  cases ends with
  | closed _ => exact withholdsOrAborts_of_same inside rfl rfl
  | @recorded _ _ world _ _ writes _ isInside' _ _ given =>
      have recorded := @withholds_recordWrites _ (store.withWorld world) clears _ _ isInside' writes
      refine .withheld ?_ ⟨recorded.owed, recorded.hidden, recorded.others⟩ fun silent => ?_
      · rw [(silent_recordWrites session.thread writes (store.withWorld world)).inTransaction]
        exact inside
      · refine given.effects_eq_nil ?_
        rcases posed with rfl | posed
        · rfl
        · exact silent task posed
  | aborted _ _ _ _ _ =>
      refine .aborted rfl (inTransaction_of_dropped store (transactions_restoreInstances _ _)) ?_
      exact showsOnly_of_same (cache_restoreInstances _ _)
  | unconnected _ outside _ => exact nomatch isInside.symm.trans outside
  | applied _ outside _ _ _ => exact nomatch isInside.symm.trans outside
  | failed _ outside _ _ _ => exact nomatch isInside.symm.trans outside

include inner

theorem Step.withholds (step : Step session poses clears store ok after)
    (roomy : store.cache.Roomy) :
    WithholdsOrAborts session.thread clears (∀ task, poses task → task.records = false) store ok
      after := by
  cases step with
  | edited edit =>
      refine .withheld ?_ (.of_same edit.quiet.owed edit.quiet.cache) fun _ => rfl
      exact (edit.inTransaction _).trans inside
  | looked key =>
      refine .withheld inside ⟨(List.append_nil _).symm, fun _ impossible => (by cases impossible),
        fun other _ => Or.inl (roomy.find?_get key other)⟩ fun _ => rfl
  | cleared may =>
      exact .withheld inside ⟨(List.append_nil _).symm, fun _ impossible => (by cases impossible),
        fun other _ => Or.inr ⟨may, rfl⟩⟩ fun _ => rfl
  | unit posed ends => exact ends.withholds inside posed
  | began posed _ => exact nomatch inner _ posed
  | committed posed _ => exact nomatch inner _ posed
  | rolledBack posed _ => exact nomatch inner _ posed
  | closed posed _ => exact nomatch inner _ posed

end Inner

/-! ### What all caches keep -/

section Caches

variable {holds : Cache → Prop} (closed : Cache.Closed holds)
include closed

theorem UnitEnds.cache {α : Type} {issued : Question → Prop} {transactional : Bool}
    {gives : α × WriteSet → List Event → Prop} {outcome : Except Error α}
    (ends : UnitEnds session issued transactional gives store outcome after)
    (before : holds store.cache) : holds after.cache := by
  cases ends with
  | @recorded _ _ world _ _ writes _ _ _ _ _ =>
      rw [cache_recordWrites]
      exact closed.evictTouched before _
  | aborted _ _ _ _ _ => exact (cache_restoreInstances _ _).symm ▸ before
  | applied _ _ _ _ _ =>
      show holds (Store.written _ _ _).cache
      rw [cache_written]
      exact closed.apply before _ _
  | _ => exact before

theorem CommitEnds.cache {outcome : Except Error Unit}
    (ends : CommitEnds session store outcome after) (before : holds store.cache) :
    holds after.cache := by
  cases ends with
  | committed _ _ _ _ =>
      show holds (Store.written _ _ _).cache
      rw [cache_written]
      exact closed.apply before _ _
  | refused _ _ _ _ _ => exact (cache_rolledBack _ _ _).symm ▸ before
  | _ => exact before

omit closed in
theorem RollbackEnds.cache_eq {outcome : Except Error Unit}
    (ends : RollbackEnds session store outcome after) : after.cache = store.cache := by
  cases ends with
  | rolledBack _ _ _ _ => exact cache_rolledBack _ _ _
  | _ => rfl

omit closed in
theorem BeginEnds.cache_eq {outcome : Except Error Unit}
    (ends : BeginEnds session store outcome after) : after.cache = store.cache := by
  cases ends <;> rfl

omit closed in
theorem Abandoned.cache_eq {transactions : List Transaction}
    (abandoned : Abandoned session transactions store after) : after.cache = store.cache := by
  induction abandoned with
  | nil => rfl
  | cons _ _ ih => exact ih.trans (cache_restoreInstances _ _)

theorem CloseEnds.cache (ends : CloseEnds session store after) (before : holds store.cache) :
    holds after.cache := by
  cases ends with
  | again _ => exact before
  | closed _ abandoned => exact closed.clear (abandoned.cache_eq ▸ before)

theorem Step.cache (step : Step session poses clears store ok after)
    (before : holds store.cache) : holds after.cache := by
  cases step with
  | edited edit => exact edit.quiet.cache ▸ before
  | looked key => exact closed.get before key
  | cleared _ => exact closed.clear before
  | unit _ ends => exact ends.cache closed before
  | began _ ends => exact ends.cache_eq ▸ before
  | committed _ ends => exact ends.cache closed before
  | rolledBack _ ends => exact ends.cache_eq ▸ before
  | closed _ ends => exact ends.cache closed before

theorem Path.cache (path : Path session poses clears store ok after)
    (before : holds store.cache) : holds after.cache :=
  path.invariant (fun store => holds store.cache) before fun step => step.cache closed

end Caches

/-! ### Paths in a transaction -/

theorem Path.withholds (path : Path session poses clears store ok after)
    (inner : ∀ task, poses task → task.bounds = false) (roomy : store.cache.Roomy)
    (inside : store.inTransaction session.thread = true) :
    WithholdsOrAborts session.thread clears (∀ task, poses task → task.records = false) store ok
      after := by
  induction path with
  | ended ok store => exact withholdsOrAborts_of_same inside rfl rfl
  | failed step => exact step.withholds inner inside roomy
  | went step _ ih =>
      cases step.withholds inner inside roomy with
      | aborted impossible _ _ => cases impossible
      | withheld still first silent =>
          cases ih (step.cache Cache.closed_roomy roomy) still with
          | aborted failed ended shows => exact .aborted failed ended (first.shows.trans shows)
          | withheld still second silentToo =>
              refine .withheld still (first.trans second) fun none => ?_
              rw [silent none, silentToo none]
              rfl

end Store

/-- What every cache keeps and an empty one has, the cache of a store always has. -/
theorem Deployment.Reached.cache {World : Type} {deployment : Deployment World}
    {allowed : Store World → ThreadId → Action → Prop} {store : Store World}
    (reached : deployment.Reached allowed store) {holds : Cache → Prop}
    (closed : Cache.Closed holds) (empty : holds (Cache.empty deployment.config.cache)) :
    holds store.cache := by
  refine reached.invariant (fun store => holds store.cache) ?_ fun _ step => step.cache closed
  intro store world created
  obtain ⟨pool, _, rfl⟩ := create_ok created
  exact empty

end EntityStore
