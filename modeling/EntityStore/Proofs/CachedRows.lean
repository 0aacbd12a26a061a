/-
What a cache can show. Effects that are replayed put rows under their keys or take them
out, and what is then shown under other keys was shown before: eviction for lack of room
and the order of use only ever hide rows.
-/

import EntityStore.Proofs.Rows
import EntityStore.Proofs.Lookups
import EntityStore.Store.Remove

set_option autoImplicit false

namespace EntityStore

/-- Rows that are shown under keys. -/
abbrev Showing := Key → Row → Prop

/-- What is shown at most once an effect was replayed on what is shown. A row that is put
under a key without id is ignored. -/
def CacheEffect.alter (effect : CacheEffect) (shown : Showing) : Showing := fun key row =>
  match effect with
  | .put other written =>
      (key = other ∧ row = written) ∨ ((other.hasId = true → key ≠ other) ∧ shown key row)
  | .fill other read => (key = other ∧ row = read) ∨ shown key row
  | .evict other => key ≠ other ∧ shown key row

def alterAll (effects : List CacheEffect) (shown : Showing) : Showing :=
  effects.foldl (fun current effect => effect.alter current) shown

def WriteSet.alter (writes : WriteSet) (shown : Showing) : Showing := alterAll writes.effects shown

section Altering

variable {shown more : Showing} {key : Key} {row : Row}

theorem CacheEffect.alter_mono (effect : CacheEffect) (le : ∀ key row, shown key row → more key row)
    (isShown : effect.alter shown key row) : effect.alter more key row := by
  cases effect with
  | put other written => exact isShown.imp_right fun both => ⟨both.1, le key row both.2⟩
  | fill other read => exact isShown.imp_right (le key row)
  | evict other => exact ⟨isShown.1, le key row isShown.2⟩

theorem alterAll_mono {effects : List CacheEffect} (le : ∀ key row, shown key row → more key row)
    (isShown : alterAll effects shown key row) : alterAll effects more key row := by
  induction effects generalizing shown more with
  | nil => exact le key row isShown
  | cons effect rest ih =>
      exact ih (fun _ _ isAltered => effect.alter_mono le isAltered) isShown

theorem alterAll_append (first second : List CacheEffect) (shown : Showing) :
    alterAll (first ++ second) shown = alterAll second (alterAll first shown) :=
  List.foldl_append

/-- Rows that were read and are dropped are not shown. -/
theorem alterAll_withoutFills {effects : List CacheEffect}
    (isShown : alterAll (effects.filter fun effect => !effect.isFill) shown key row) :
    alterAll effects shown key row := by
  induction effects generalizing shown with
  | nil => exact isShown
  | cons effect rest ih =>
      cases effect with
      | fill other read =>
          rw [List.filter_cons_of_neg (by simp [CacheEffect.isFill])] at isShown
          have later := ih isShown
          show alterAll rest ((CacheEffect.fill other read).alter shown) key row
          exact alterAll_mono (fun _ _ => Or.inr) later
      | put other written => exact ih isShown
      | evict other => exact ih isShown

theorem alterAll_puts {written : List Written}
    (isShown : alterAll (written.map fun one => .put one.key one.row) shown key row) :
    (∃ one ∈ written, key = one.key ∧ row = one.row) ∨
      (shown key row ∧ ∀ one ∈ written, key ≠ one.key) := by
  induction written generalizing shown with
  | nil => exact Or.inr ⟨isShown, fun _ member => by cases member⟩
  | cons one rest ih =>
      rcases ih isShown with ⟨later, isLater, same⟩ | ⟨isBefore, apart⟩
      · exact Or.inl ⟨later, List.mem_cons_of_mem one isLater, same⟩
      rcases isBefore with same | ⟨different, was⟩
      · exact Or.inl ⟨one, List.mem_cons_self, same⟩
      · refine Or.inr ⟨was, fun other member => ?_⟩
        rcases List.mem_cons.mp member with rfl | isLater
        · exact different rfl
        · exact apart other isLater

/-- What is shown under a key stays unless another row is put there or it is taken out. -/
theorem alterAll_of_apart {effects : List CacheEffect} (isShown : shown key row)
    (apart : ∀ effect ∈ effects, effect.isFill = false → effect.key ≠ key) :
    alterAll effects shown key row := by
  induction effects generalizing shown with
  | nil => exact isShown
  | cons effect rest ih =>
      refine ih ?_ fun other member =>
        apart other (List.mem_cons_of_mem effect member)
      have different := apart effect List.mem_cons_self
      cases effect with
      | put other written => exact Or.inr ⟨fun _ => (different rfl).symm, isShown⟩
      | fill other read => exact Or.inr isShown
      | evict other => exact ⟨(different rfl).symm, isShown⟩

/-- A row that is put stays if nothing else is put under its key. -/
theorem alterAll_of_put {written : List Written} (distinct : (written.map Written.key).Nodup)
    {one : Written} (member : one ∈ written) :
    alterAll (written.map fun one => .put one.key one.row) shown one.key one.row := by
  induction written generalizing shown with
  | nil => cases member
  | cons first rest ih =>
      obtain ⟨fresh, distinctRest⟩ := List.nodup_cons.mp distinct
      rcases List.mem_cons.mp member with rfl | isLater
      · show alterAll (rest.map fun other => .put other.key other.row)
          ((CacheEffect.put one.key one.row).alter shown) one.key one.row
        refine alterAll_of_apart (Or.inl ⟨rfl, rfl⟩) fun effect isLater _ same => fresh ?_
        obtain ⟨other, isOther, rfl⟩ := List.mem_map.mp isLater
        exact List.mem_map.mpr ⟨other, isOther, same⟩
      · exact ih distinctRest isLater

theorem alterAll_fills {entries : List (Key × Row)}
    (isShown : alterAll (entries.map fun entry => .fill entry.1 entry.2) shown key row) :
    (key, row) ∈ entries ∨ shown key row := by
  induction entries generalizing shown with
  | nil => exact Or.inr isShown
  | cons entry rest ih =>
      rcases ih isShown with isLater | ⟨rfl, rfl⟩ | was
      · exact Or.inl (List.mem_cons_of_mem entry isLater)
      · exact Or.inl List.mem_cons_self
      · exact Or.inr was

end Altering

namespace WriteSet

theorem effects_addOwners (writes : WriteSet) (keys : List Key) :
    (writes.addOwners keys).effects = writes.effects := by
  unfold addOwners
  induction keys generalizing writes with
  | nil => rfl
  | cons key rest ih =>
      rw [List.foldl_cons, ih]
      unfold addOwner
      split <;> rfl

theorem alter_append (first second : WriteSet) (shown : Showing) :
    (first.append second).alter shown = second.alter (first.alter shown) := by
  unfold alter append
  rw [effects_addOwners]
  exact alterAll_append _ _ _

theorem effects_ofWritten (written : List Written) :
    (ofWritten written).effects = written.map fun one => .put one.key one.row := by
  have added : ∀ (writes : WriteSet), (written.foldl addWritten writes).effects
      = writes.effects ++ written.map fun one => .put one.key one.row := by
    induction written with
    | nil => exact fun writes => (List.append_nil _).symm
    | cons one rest ih =>
        intro writes
        rw [List.foldl_cons, ih]
        unfold addWritten add
        rw [effects_addOwners, List.map_cons, List.append_assoc]
        rfl
  exact added {}

theorem effects_ofRemoval (mapping : Mapping) (key : Key) (row : Option Row) :
    (ofRemoval mapping key row).effects = [.evict key] :=
  effects_addOwners _ _

end WriteSet

namespace Cache

variable {cache : Cache} {key other : Key} {row written : Row}

def Shows (cache : Cache) : Showing := fun key row => cache.find? key = some row

private theorem lookup_of_keep {policy : CachePolicy} {entries : List (Key × Row)}
    (found : (policy.keep entries).lookup key = some row) : entries.lookup key = some row := by
  cases policy with
  | disabled => cases found
  | unbounded => exact found
  | lru capacity =>
      have kept : (entries.take (max capacity 1)).lookup key = some row := found
      rw [← List.take_append_drop (max capacity 1) entries, List.lookup_append, kept]
      rfl

theorem shows_store (isShown : (cache.store other written).Shows key row) :
    (key = other ∧ row = written) ∨ (key ≠ other ∧ cache.Shows key row) := by
  have found := lookup_of_keep isShown
  rw [List.lookup_cons] at found
  by_cases same : key = other
  · subst same
    rw [BEq.rfl] at found
    exact Or.inl ⟨rfl, (Option.some.inj found).symm⟩
  · rw [beq_eq_false_iff_ne.mpr same] at found
    exact Or.inr ⟨same, (lookup_withoutName_of_ne cache.entries same).symm.trans found⟩

theorem shows_invalidate (isShown : (cache.invalidate other).Shows key row) :
    key ≠ other ∧ cache.Shows key row := by
  have found : (withoutName other cache.entries).lookup key = some row := isShown
  by_cases same : key = other
  · rw [same, lookup_withoutName_self] at found
    cases found
  · exact ⟨same, (lookup_withoutName_of_ne cache.entries same).symm.trans found⟩

theorem get_eq_find? (cache : Cache) (key : Key) : (cache.get key).1 = cache.find? key := by
  unfold get
  cases cache.find? key <;> rfl

/-- Looking at a row changes the order of use alone. -/
theorem shows_get (isShown : (cache.get other).2.Shows key row) : cache.Shows key row := by
  unfold get at isShown
  cases found : cache.find? other with
  | none =>
      rw [found] at isShown
      exact isShown
  | some read =>
      rw [found] at isShown
      rcases shows_store isShown with ⟨rfl, rfl⟩ | ⟨_, was⟩
      · exact found
      · exact was

private theorem shows_applyEffect {generation : Nat} (effect : CacheEffect)
    (isShown : (WriteSet.applyEffect generation cache effect).Shows key row) :
    effect.alter cache.Shows key row := by
  cases effect with
  | put other written =>
      unfold WriteSet.applyEffect put at isShown
      dsimp only at isShown
      split at isShown
      · exact (shows_store isShown).imp_right fun both => ⟨fun _ => both.1, both.2⟩
      · rename_i without
        exact Or.inr ⟨fun hasId => absurd hasId without, isShown⟩
  | fill other read =>
      unfold WriteSet.applyEffect fill at isShown
      dsimp only at isShown
      split at isShown
      · exact (shows_store isShown).imp_right fun both => both.2
      · exact Or.inr isShown
  | evict other => exact shows_invalidate isShown

/-- What a cache shows after effects is what they leave to be shown. -/
theorem shows_apply {writes : WriteSet} {generation : Nat}
    (isShown : (writes.apply generation cache).Shows key row) :
    writes.alter cache.Shows key row := by
  obtain ⟨effects, owners⟩ := writes
  show alterAll effects cache.Shows key row
  induction effects generalizing cache with
  | nil => exact isShown
  | cons effect rest ih =>
      have later := ih isShown
      show alterAll rest (effect.alter cache.Shows) key row
      exact alterAll_mono (fun _ _ => shows_applyEffect effect) later

/-- Keys that a transaction touches are hidden at once. -/
theorem shows_evictTouched {writes : WriteSet}
    (isShown : (writes.evictTouched cache).Shows key row) : cache.Shows key row := by
  obtain ⟨effects, owners⟩ := writes
  induction effects generalizing cache with
  | nil => exact isShown
  | cons effect rest ih =>
      have later := ih isShown
      exact (shows_invalidate later).2

/-- Whatever a transaction touches is in the cache no more. -/
theorem find?_evictTouched {writes : WriteSet} {effect : CacheEffect}
    (member : effect ∈ writes.effects) (cache : Cache) :
    (writes.evictTouched cache).find? effect.key = none := by
  obtain ⟨effects, owners⟩ := writes
  rw [Option.eq_none_iff_forall_ne_some]
  intro row isShown
  induction effects generalizing cache with
  | nil => cases member
  | cons other rest ih =>
      rcases List.mem_cons.mp member with rfl | isLater
      · have shown := @shows_evictTouched _ _ _ ⟨rest, owners⟩ isShown
        exact (shows_invalidate shown).1 rfl
      · exact ih (cache.invalidate other.key) isLater isShown

/-- What a transaction leaves in the cache is what its effects would leave to be shown. -/
theorem alter_of_evictTouched {writes : WriteSet}
    (isShown : (writes.withoutFills.evictTouched cache).Shows key row) :
    writes.alter cache.Shows key row := by
  refine alterAll_of_apart (shows_evictTouched isShown) ?_
  rintro effect member isWrite rfl
  have isKept : effect ∈ writes.withoutFills.effects :=
    List.mem_filter.mpr ⟨member, by simp [isWrite]⟩
  exact nomatch (find?_evictTouched isKept cache).symm.trans isShown

theorem not_shows_clear (cache : Cache) (key : Key) (row : Row) : ¬cache.clear.Shows key row := by
  intro isShown
  cases isShown

end Cache

end EntityStore
