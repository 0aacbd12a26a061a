/-
The last write to a key. Of effects that follow each other on the same key the last one
counts, and rows that were merely read do not count at all. A cache that keeps every row
holds after a replay what the last writes left.
-/

import EntityStore.Proofs.CachedRows

set_option autoImplicit false

namespace EntityStore

/-- The row that an effect leaves under a key, if the effect writes to that key; a removal
leaves none. -/
def CacheEffect.write? (key : Key) : CacheEffect → Option (Option Row)
  | put other row => if other = key then some (some row) else none
  | fill .. => none
  | evict other => if other = key then some none else none

def lastWrite? (key : Key) : List CacheEffect → Option (Option Row)
  | [] => none
  | effect :: rest => (lastWrite? key rest).or (effect.write? key)

def overwritten (effects : List CacheEffect) (rows : Key → Option Row) : Key → Option Row :=
  fun key => (lastWrite? key effects).getD (rows key)

namespace CacheEffect

private theorem key_eq_of_write? {effect : CacheEffect} {key : Key} {left : Option Row}
    (writes : effect.write? key = some left) : effect.key = key := by
  cases effect with
  | fill other row => cases writes
  | put other row | evict other =>
      simp only [write?] at writes
      split at writes
      · assumption
      · cases writes

theorem write?_of_ne {effect : CacheEffect} {key : Key} (elsewhere : effect.key ≠ key) :
    effect.write? key = none := by
  cases writes : effect.write? key with
  | none => rfl
  | some left => exact absurd (key_eq_of_write? writes) elsewhere

end CacheEffect

/-! ### Caches that keep every row -/

namespace Cache

variable {cache : Cache} {key : Key}

private theorem find?_store_of_unbounded (unbounded : cache.policy = .unbounded) (other : Key)
    (row : Row) :
    (cache.store other row).find? key = if other = key then some row else cache.find? key := by
  unfold find? store
  rw [unbounded]
  simp only [CachePolicy.keep]
  split
  · rename_i same
    rw [same, List.lookup_cons_self]
  · rename_i different
    rw [List.lookup_cons, beq_eq_false_iff_ne.mpr (Ne.symm different)]
    exact lookup_withoutName_of_ne cache.entries (Ne.symm different)

theorem find?_invalidate (cache : Cache) (other : Key) :
    (cache.invalidate other).find? key = if other = key then none else cache.find? key := by
  unfold find? invalidate
  split
  · rename_i same
    rw [same]
    exact lookup_withoutName_self cache.entries key
  · rename_i different
    exact lookup_withoutName_of_ne cache.entries (Ne.symm different)

private theorem find?_applyEffect_of_unbounded (unbounded : cache.policy = .unbounded)
    {effect : CacheEffect} (writes : effect.isFill = false) (keyed : effect.key.hasId = true)
    (generation : Nat) :
    (WriteSet.applyEffect generation cache effect).find? key
      = (effect.write? key).getD (cache.find? key) := by
  cases effect with
  | fill other row => cases writes
  | put other row =>
      have isKeyed : other.hasId = true := keyed
      rw [WriteSet.applyEffect, put, if_pos isKeyed]
      refine (find?_store_of_unbounded unbounded other row).trans ?_
      rw [CacheEffect.write?]
      split <;> rfl
  | evict other =>
      rw [WriteSet.applyEffect, find?_invalidate, CacheEffect.write?]
      split <;> rfl

theorem policy_applyEffect (generation : Nat) (cache : Cache) (effect : CacheEffect) :
    (WriteSet.applyEffect generation cache effect).policy = cache.policy := by
  cases effect with
  | put other row =>
      rw [WriteSet.applyEffect, put]
      split <;> rfl
  | fill other row =>
      rw [WriteSet.applyEffect, fill]
      split <;> rfl
  | evict other => rfl

/-- A cache that keeps every row holds after a replay what the last writes left. -/
theorem find?_apply_of_unbounded (unbounded : cache.policy = .unbounded) {writes : WriteSet}
    (writing : ∀ effect ∈ writes.effects, effect.isFill = false)
    (keyed : ∀ effect ∈ writes.effects, effect.key.hasId = true) (generation : Nat) :
    (writes.apply generation cache).find? key = overwritten writes.effects cache.find? key := by
  obtain ⟨effects, owners⟩ := writes
  unfold WriteSet.apply overwritten
  simp only at writing keyed ⊢
  induction effects generalizing cache with
  | nil => rfl
  | cons effect rest ih =>
      rw [List.foldl_cons, ih ((policy_applyEffect generation cache effect).trans unbounded)
        (fun other member => writing other (List.mem_cons_of_mem _ member))
        (fun other member => keyed other (List.mem_cons_of_mem _ member)),
        find?_applyEffect_of_unbounded unbounded (writing effect List.mem_cons_self)
          (keyed effect List.mem_cons_self), lastWrite?]
      cases lastWrite? key rest with
      | none => rfl
      | some left => rfl

end Cache
end EntityStore
