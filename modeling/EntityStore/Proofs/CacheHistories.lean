/-
What a cache holds, told from the history of its uses. Under every policy a key stands for
the row that was stored for it last, as long as nothing has dropped that row; a bounded cache
keeps this for the keys used last. Keys are told apart by their printed form as well.
-/

import EntityStore.Proofs.CachedRows
import Mathlib.Data.List.Nodup

set_option autoImplicit false

namespace EntityStore

/-! ### Printed keys -/

namespace Key

theorem toList_repr (number : Int) :
    number.repr.toList = if 0 ≤ number then Nat.toDigits 10 number.toNat
      else '-' :: Nat.toDigits 10 (-number).toNat := by
  rw [Int.repr_eq_if]
  split
  · exact Nat.toList_repr
  · rw [String.toList_append, Nat.toList_repr]
    rfl

theorem isDigit_of_mem {number : Nat} {character : Char}
    (member : character ∈ Nat.toDigits 10 number) : character.isDigit = true :=
  Nat.isDigit_of_mem_toDigits (by decide) (by decide) member

theorem toDigits_inj {first second : Nat} (same : Nat.toDigits 10 first = Nat.toDigits 10 second) :
    first = second := by
  rw [← @Nat.ofDigitChars_ten_toDigits first, same, Nat.ofDigitChars_ten_toDigits]

private theorem repr_inj {first second : Int} (same : first.repr = second.repr) :
    first = second := by
  have chars := congrArg String.toList same
  -- No digit is a sign.
  have apart {digits number : Nat} : Nat.toDigits 10 digits ≠ '-' :: Nat.toDigits 10 number := by
    intro equal
    have isDigit := @isDigit_of_mem _ '-' (equal ▸ List.mem_cons_self)
    cases isDigit
  rw [toList_repr, toList_repr] at chars
  split at chars <;> split at chars
  · have equal := toDigits_inj chars
    omega
  · exact absurd chars apart
  · exact absurd chars.symm apart
  · have equal := toDigits_inj (List.cons.inj chars).2
    omega

def idText (key : Key) : String :=
  match key.id with
  | some id => toString id.toInt
  | none => "?"

private theorem toList_display (key : Key) :
    key.display.toList = key.entityType.toList ++ '#' :: key.idText.toList := by
  show ((key.entityType ++ "#") ++ key.idText).toList = _
  rw [String.toList_append, String.toList_append, List.append_assoc]
  rfl

private theorem mem_repr {number : Int} {character : Char}
    (member : character ∈ number.repr.toList) : character.isDigit = true ∨ character = '-' := by
  rw [toList_repr] at member
  split at member
  · exact Or.inl (isDigit_of_mem member)
  · rcases List.mem_cons.mp member with isSign | isDigit
    · exact Or.inr isSign
    · exact Or.inl (isDigit_of_mem isDigit)

private theorem hash_not_mem_idText (key : Key) : '#' ∉ key.idText.toList := by
  intro member
  unfold idText at member
  split at member
  · have isOne := mem_repr member
    revert isOne
    decide
  · revert member
    decide

private theorem id_eq_of_idText_eq {key other : Key} (same : key.idText = other.idText) :
    key.id = other.id := by
  have known (id : Int64) : toString id.toInt ≠ "?" := by
    intro unknown
    have isOne := @mem_repr id.toInt '?'
      (show '?' ∈ (toString id.toInt).toList by rw [unknown]; decide)
    revert isOne
    decide
  unfold idText at same
  cases first : key.id <;> cases second : other.id <;> rw [first, second] at same
  · exact absurd same.symm (known _)
  · exact absurd same (known _)
  · exact congrArg some (Int64.toInt_inj.mp (repr_inj same))

/-- The last mark that separates a type from an id separates them, whatever characters the
name of the type has. -/
theorem display_injective : Function.Injective display := by
  intro key other same
  have chars := congrArg String.toList same
  rw [toList_display, toList_display] at chars
  have last {first second : Key} {between : List Char}
      (rest : '#' :: first.idText.toList = between ++ '#' :: second.idText.toList) :
      between = [] := by
    cases between with
    | nil => rfl
    | cons head tail =>
        refine absurd ?_ (hash_not_mem_idText first)
        rw [(List.cons.inj rest).2]
        exact List.mem_append_right tail List.mem_cons_self
  have parts : key.entityType.toList = other.entityType.toList ∧
      key.idText.toList = other.idText.toList := by
    rcases List.append_eq_append_iff.mp chars with ⟨between, type, rest⟩ | ⟨between, type, rest⟩
    · rw [last rest] at type rest
      exact ⟨(type.trans (List.append_nil _)).symm, (List.cons.inj rest).2⟩
    · rw [last rest] at type rest
      exact ⟨type.trans (List.append_nil _), (List.cons.inj rest).2.symm⟩
  cases key
  cases other
  simp only [mk.injEq]
  exact ⟨String.toList_inj.mp parts.1, id_eq_of_idText_eq (String.toList_inj.mp parts.2)⟩

end Key

/-! ### Histories -/

namespace Cache

inductive Use where
  | put (key : Key) (row : Row)
  | fill (key : Key) (row : Row) (generation : Nat)
  | get (key : Key)
  | contains (key : Key)
  | invalidate (key : Key)
  | clear

namespace Use

def perform (cache : Cache) : Use → Cache
  | put key row => cache.put key row
  | fill key row generation => (cache.fill key row generation).2
  | get key => (cache.get key).2
  | contains _ => cache
  | invalidate key => cache.invalidate key
  | clear => cache.clear

/-- Whether the use is one of a writer, after which what was read before is not filled in. -/
def changes : Use → Bool
  | put key _ => key.hasId
  | invalidate _ => true
  | clear => true
  | _ => false

/-- What the use stores when so many changes have been made. -/
def stores? (count : Nat) : Use → Option (Key × Row)
  | put key row => if key.hasId then some (key, row) else none
  | fill key row generation => if key.hasId && count == generation then some (key, row) else none
  | _ => none

end Use

/-- The cache after a history of uses, the latest one first. -/
def after (policy : CachePolicy) : List Use → Cache
  | [] => empty policy
  | use :: earlier => use.perform (after policy earlier)

def changeCount (history : List Use) : Nat := history.countP Use.changes

/-- The row that was stored last under a key and has not been dropped since. -/
def stored? (key : Key) : List Use → Option Row
  | [] => none
  | .clear :: _ => none
  | .invalidate other :: earlier => if other = key then none else stored? key earlier
  | use :: earlier =>
      match use.stores? (changeCount earlier) with
      | some (other, row) => if other = key then some row else stored? key earlier
      | none => stored? key earlier

/-- The keys in the order of their last use, the last used first, as far as there is room for
them. What is stored and what is found count as use. -/
def recency (policy : CachePolicy) : List Use → List Key
  | [] => []
  | .clear :: _ => []
  | .invalidate key :: earlier => (recency policy earlier).erase key
  | .get key :: earlier =>
      if key ∈ recency policy earlier then key :: (recency policy earlier).erase key
      else recency policy earlier
  | use :: earlier =>
      match use.stores? (changeCount earlier), policy with
      | none, _ => recency policy earlier
      | some _, .disabled => []
      | some (key, _), .unbounded => key :: (recency policy earlier).erase key
      -- However small the capacity, one key has room.
      | some (key, _), .lru capacity =>
          (key :: (recency policy earlier).erase key).take (max capacity 1)

/-! ### What the history tells -/

structure Tells (policy : CachePolicy) (history : List Use) (cache : Cache) : Prop where
  configured : cache.policy = policy
  generation : cache.generation = changeCount history
  keys : cache.entries.map Prod.fst = recency policy history
  distinct : (recency policy history).Nodup
  room : policy.keep (recency policy history) = recency policy history
  rows : ∀ entry ∈ cache.entries, stored? entry.1 history = some entry.2
  keyed : ∀ entry ∈ cache.entries, entry.1.hasId = true
  whole : policy = .unbounded → ∀ key row, stored? key history = some row →
    key ∈ recency policy history

section Room

variable {α β : Type} (policy : CachePolicy) (list : List α)

private theorem keep_sublist : (policy.keep list).Sublist list := by
  cases policy with
  | disabled => exact List.nil_sublist list
  | unbounded => exact List.Sublist.refl list
  | lru capacity => exact List.take_sublist _ list

private theorem map_keep (change : α → β) :
    (policy.keep list).map change = policy.keep (list.map change) := by
  cases policy with
  | disabled => rfl
  | unbounded => rfl
  | lru capacity => exact List.map_take

private theorem keep_keep : policy.keep (policy.keep list) = policy.keep list := by
  cases policy with
  | disabled => rfl
  | unbounded => rfl
  | lru capacity =>
      show (list.take (max capacity 1)).take (max capacity 1) = list.take (max capacity 1)
      rw [List.take_take, Nat.min_self]

variable {policy list}

private theorem keep_of_length_le {other : List α} (kept : policy.keep list = list)
    (shorter : other.length ≤ list.length) : policy.keep other = other := by
  cases policy with
  | disabled =>
      have empty : list = [] := kept.symm
      rw [empty] at shorter
      exact (List.eq_nil_of_length_eq_zero (Nat.le_zero.mp shorter)).symm
  | unbounded => rfl
  | lru capacity =>
      have bound : list.length ≤ max capacity 1 := by
        rw [← kept]
        exact List.length_take_le _ list
      exact List.take_of_length_le (Nat.le_trans shorter bound)

end Room

private theorem keys_without {entries : List (Key × Row)} (distinct : (entries.map Prod.fst).Nodup)
    (key : Key) : (without entries key).map Prod.fst = (entries.map Prod.fst).erase key := by
  rw [distinct.erase_eq_filter, List.filter_map]
  rfl

namespace Tells

variable {policy : CachePolicy} {history : List Use} {cache : Cache} {key : Key} {row : Row}
  {use : Use}

private theorem empty (policy : CachePolicy) : Tells policy [] (Cache.empty policy) where
  configured := rfl
  generation := rfl
  keys := rfl
  distinct := List.nodup_nil
  room := by cases policy <;> first | rfl | exact List.take_nil
  rows _ member := by cases member
  keyed _ member := by cases member
  whole _ _ _ found := by cases found

private theorem find? (tells : Tells policy history cache) (key : Key) :
    cache.find? key = if key ∈ recency policy history then stored? key history else none := by
  split
  · rename_i member
    rw [← tells.keys] at member
    obtain ⟨row, found⟩ := exists_lookup member
    rw [tells.rows _ (mem_of_lookup found)]
    exact found
  · rename_i apart
    rw [← tells.keys] at apart
    refine List.lookup_eq_none_iff.mpr fun entry member => ?_
    simpa using fun same : key = entry.1 => apart (same ▸ List.mem_map_of_mem member)

/-! ### Uses one by one -/

private theorem idle (tells : Tells policy history cache)
    (rows : ∀ key, stored? key (use :: history) = stored? key history)
    (order : recency policy (use :: history) = recency policy history)
    (unchanged : use.changes = false) : Tells policy (use :: history) cache where
  configured := tells.configured
  generation := by
    rw [tells.generation, changeCount, changeCount, List.countP_cons_of_neg (by simp [unchanged])]
  keys := order ▸ tells.keys
  distinct := order ▸ tells.distinct
  room := order ▸ tells.room
  rows entry member := (rows entry.1).trans (tells.rows entry member)
  keyed := tells.keyed
  whole unbounded key row found := by
    rw [order]
    exact tells.whole unbounded key row ((rows key).symm.trans found)

private theorem store (tells : Tells policy history cache) (keyed : key.hasId = true)
    (rows : ∀ other, stored? other (use :: history) =
      if key = other then some row else stored? other history)
    (order : recency policy (use :: history) =
      policy.keep (key :: (recency policy history).erase key))
    {generation : Nat} (counted : generation = changeCount (use :: history)) :
    Tells policy (use :: history) { cache.store key row with generation := generation } := by
  have member {entry : Key × Row} (isEntry : entry ∈ (cache.store key row).entries) :
      entry = (key, row) ∨ (entry ∈ cache.entries ∧ entry.1 ≠ key) := by
    rcases List.mem_cons.mp ((keep_sublist _ _).subset isEntry) with isNew | isOld
    · exact Or.inl isNew
    · exact Or.inr ((List.mem_filter.mp isOld).imp_right bne_iff_ne.mp)
  have distinct : (key :: (recency policy history).erase key).Nodup :=
    List.nodup_cons.mpr ⟨tells.distinct.not_mem_erase, tells.distinct.erase key⟩
  refine ⟨tells.configured, counted, ?_, ?_, ?_, ?_, ?_, ?_⟩
  · show (cache.policy.keep ((key, row) :: without cache.entries key)).map Prod.fst = _
    rw [map_keep, List.map_cons, keys_without (tells.keys ▸ tells.distinct), tells.keys,
      tells.configured, order]
  · rw [order]
    exact distinct.sublist (keep_sublist _ _)
  · rw [order, keep_keep]
  · intro entry isEntry
    rw [rows]
    rcases member isEntry with rfl | ⟨isOld, different⟩
    · exact if_pos rfl
    · rw [if_neg different.symm]
      exact tells.rows entry isOld
  · intro entry isEntry
    rcases member isEntry with rfl | ⟨isOld, _⟩
    · exact keyed
    · exact tells.keyed entry isOld
  · rintro rfl other read found
    rw [rows] at found
    rw [order]
    split at found
    · rename_i same
      exact same ▸ List.mem_cons_self
    · rename_i different
      exact List.mem_cons_of_mem key
        ((List.mem_erase_of_ne (Ne.symm different)).mpr (tells.whole rfl other read found))

private theorem stored?_of_stores (stores : use.stores? (changeCount history) = some (key, row))
    (other : Key) : stored? other (use :: history) =
      if key = other then some row else stored? other history := by
  cases use with
  | put | fill => simp only [stored?, stores]
  | get | contains | invalidate | clear => cases stores

private theorem recency_of_stores (stores : use.stores? (changeCount history) = some (key, row)) :
    recency policy (use :: history) = policy.keep (key :: (recency policy history).erase key) := by
  cases use with
  | put | fill => cases policy <;> simp only [recency, stores, CachePolicy.keep]
  | get | contains | invalidate | clear => cases stores

private theorem put (tells : Tells policy history cache) (key : Key) (row : Row) :
    Tells policy (.put key row :: history) (cache.put key row) := by
  unfold Cache.put
  split
  · rename_i keyed
    have stores : (Use.put key row).stores? (changeCount history) = some (key, row) := if_pos keyed
    refine tells.store keyed (stored?_of_stores stores) (recency_of_stores stores) ?_
    have changes : (Use.put key row).changes = true := keyed
    rw [tells.generation, changeCount, changeCount, List.countP_cons_of_pos changes]
  · rename_i unkeyed
    have nothing : (Use.put key row).stores? (changeCount history) = none := if_neg unkeyed
    refine tells.idle (fun _ => ?_) ?_ (Bool.eq_false_iff.mpr unkeyed)
    · simp only [stored?, nothing]
    · simp only [recency, nothing]

private theorem store_of_disabled (tells : Tells .disabled history cache) (key : Key) (row : Row) :
    cache.store key row = cache := by
  have empty : cache.entries = [] := List.map_eq_nil_iff.mp (tells.keys.trans tells.room.symm)
  have kept : cache.policy.keep ((key, row) :: without cache.entries key) = cache.entries := by
    rw [tells.configured, empty]
    rfl
  unfold Cache.store
  rw [kept]

private theorem fill (tells : Tells policy history cache) (key : Key) (row : Row)
    (generation : Nat) :
    Tells policy (.fill key row generation :: history) (cache.fill key row generation).2 := by
  have ends : (cache.fill key row generation).2 =
      if key.hasId && changeCount history == generation then cache.store key row else cache := by
    unfold Cache.fill
    rw [tells.generation, tells.configured]
    cases policy with
    | disabled =>
        rw [tells.store_of_disabled]
        simp
    | unbounded | lru =>
        simp only [ne_eq, reduceCtorEq, not_false_eq_true, bne_iff_ne, Bool.and_eq_true, and_true]
        split <;> rfl
  rw [ends]
  split
  · rename_i fits
    have keyed : key.hasId = true := (Bool.and_eq_true _ _ ▸ fits).1
    have stores : (Use.fill key row generation).stores? (changeCount history) = some (key, row) :=
      if_pos fits
    refine tells.store keyed (stored?_of_stores stores) (recency_of_stores stores) ?_
    exact tells.generation
  · rename_i late
    have nothing : (Use.fill key row generation).stores? (changeCount history) = none :=
      if_neg late
    refine tells.idle (fun _ => ?_) ?_ rfl
    · simp only [stored?, nothing]
    · simp only [recency, nothing]

private theorem get (tells : Tells policy history cache) (key : Key) :
    Tells policy (.get key :: history) (cache.get key).2 := by
  have found := tells.find? key
  unfold Cache.get
  by_cases member : key ∈ recency policy history
  · obtain ⟨row, isRow⟩ : ∃ row, stored? key history = some row := by
      rw [← tells.keys] at member
      obtain ⟨entry, isEntry, rfl⟩ := List.mem_map.mp member
      exact ⟨entry.2, tells.rows entry isEntry⟩
    rw [if_pos member, isRow] at found
    rw [found]
    have keyed : key.hasId = true := tells.keyed _ (mem_of_lookup found)
    refine tells.store keyed (fun other => ?_) ?_ ?_
    · show stored? other history = _
      split
      · rename_i same
        exact same ▸ isRow
      · rfl
    · have room : policy.keep (key :: (recency policy history).erase key)
          = key :: (recency policy history).erase key := by
        refine keep_of_length_le tells.room ?_
        have positive := List.length_pos_of_mem member
        rw [List.length_cons, List.length_erase_of_mem member]
        omega
      rw [room]
      exact if_pos member
    · exact tells.generation
  · rw [if_neg member] at found
    rw [found]
    exact tells.idle (fun _ => rfl) (if_neg member) rfl

private theorem invalidate (tells : Tells policy history cache) (key : Key) :
    Tells policy (.invalidate key :: history) (cache.invalidate key) := by
  have kept {entry : Key × Row} (isEntry : entry ∈ without cache.entries key) :
      entry ∈ cache.entries ∧ entry.1 ≠ key :=
    (List.mem_filter.mp isEntry).imp_right bne_iff_ne.mp
  refine ⟨tells.configured, ?_, ?_, tells.distinct.erase key, ?_, fun entry member => ?_,
    fun entry member => tells.keyed entry (kept member).1, fun unbounded other row found => ?_⟩
  · show cache.generation + 1 = _
    rw [tells.generation, changeCount, changeCount, List.countP_cons_of_pos rfl]
  · show (without cache.entries key).map Prod.fst = (recency policy history).erase key
    rw [keys_without (tells.keys ▸ tells.distinct), tells.keys]
  · exact keep_of_length_le tells.room (List.length_erase_le)
  · obtain ⟨isOld, different⟩ := kept member
    exact (if_neg different.symm).trans (tells.rows entry isOld)
  · have apart : key ≠ other := by
      rintro rfl
      simp [stored?] at found
    exact (List.mem_erase_of_ne apart.symm).mpr
      (tells.whole unbounded other row ((if_neg apart).symm.trans found))

private theorem clear (tells : Tells policy history cache) :
    Tells policy (.clear :: history) cache.clear where
  configured := tells.configured
  generation := by
    show cache.generation + 1 = _
    rw [tells.generation, changeCount, changeCount, List.countP_cons_of_pos rfl]
  keys := rfl
  distinct := List.nodup_nil
  room := keep_of_length_le tells.room (Nat.zero_le _)
  rows _ member := by cases member
  keyed _ member := by cases member
  whole _ _ _ found := by cases found

/-- Whatever is done with it, a cache is as its history tells. -/
theorem after (policy : CachePolicy) (history : List Use) :
    Tells policy history (Cache.after policy history) := by
  induction history with
  | nil => exact .empty policy
  | cons use earlier ih =>
      cases use with
      | put key row => exact ih.put key row
      | fill key row generation => exact ih.fill key row generation
      | get key => exact ih.get key
      | contains key => exact ih.idle (fun _ => rfl) rfl rfl
      | invalidate key => exact ih.invalidate key
      | clear => exact ih.clear

end Tells

namespace Tells

variable {capacity : Nat} {history : List Use} {cache : Cache} {key other : Key}

private theorem size_eq (tells : Tells (.lru capacity) history cache) :
    cache.size = (recency (.lru capacity) history).length := by
  rw [← tells.keys, List.length_map]
  rfl

/-- No key makes way for another as long as there is room. -/
theorem find?_put_of_room (tells : Tells (.lru capacity) history cache)
    (room : cache.size < max capacity 1) (row : Row) (different : other ≠ key) :
    (cache.put key row).find? other = cache.find? other := by
  by_cases keyed : key.hasId = true
  · have stores : (Use.put key row).stores? (changeCount history) = some (key, row) := if_pos keyed
    have kept : recency (.lru capacity) (.put key row :: history)
        = key :: (recency (.lru capacity) history).erase key := by
      rw [recency_of_stores stores]
      refine List.take_of_length_le (Nat.le_trans (Nat.succ_le_succ List.length_erase_le) ?_)
      rwa [← tells.size_eq]
    rw [(tells.put key row).find?, tells.find?, stored?_of_stores stores, if_neg different.symm,
      kept]
    simp only [List.mem_cons, different, false_or, List.mem_erase_of_ne different]
  · rw [Cache.put, if_neg keyed]

end Tells

/-! ### What is promised of a cache -/

structure Models (policy : CachePolicy) (history : List Use) (cache : Cache) : Prop where
  disabled : policy = .disabled → cache.entries = []
  /-- Without a bound, every key stands for what was stored last and is not dropped since. -/
  unbounded : policy = .unbounded → ∀ key, cache.find? key = stored? key history
  /-- With a bound this holds of the keys used last, and no others are kept. -/
  lru : ∀ capacity, policy = .lru capacity →
    cache.entries.map Prod.fst = recency policy history ∧ cache.size ≤ max capacity 1 ∧
    ∀ key, cache.find? key = if key ∈ recency policy history then stored? key history else none
  /-- A bounded cache drops nothing for a new row as long as there is room for it. -/
  room : ∀ capacity, policy = .lru capacity → cache.size < max capacity 1 →
    ∀ key row other, other ≠ key → (cache.put key row).find? other = cache.find? other
  keyed : ∀ entry ∈ cache.entries, entry.1.hasId = true
  looks : ∀ key, (cache.get key).1 = cache.find? key ∧
    cache.contains key = (cache.find? key).isSome
  /-- No two keys have one slot, also if slots are told apart by printed keys. -/
  slots : (cache.entries.map fun entry => entry.1.display).Nodup ∧
    ∀ key, (cache.entries.map fun entry => (entry.1.display, entry.2)).lookup key.display
      = cache.find? key
  /-- What was read before is filled in unless a writer has changed something since. -/
  fills : ∀ later earlier, history = later ++ earlier → ∀ key row,
    (cache.fill key row (after policy earlier).generation).1 = true ↔
      policy ≠ .disabled ∧ key.hasId = true ∧ ∀ use ∈ later, use.changes = false
  /-- Only what was read at some time is filled in, and it is there then. -/
  filled : ∀ key row generation, (cache.fill key row generation).1 = true →
    (∃ later earlier, history = later ++ earlier ∧ (after policy earlier).generation = generation) ∧
      (cache.fill key row generation).2.find? key = some row
  refused : ∀ key row generation, (cache.fill key row generation).1 = false →
    (cache.fill key row generation).2 = cache

private theorem lookup_display (entries : List (Key × Row)) (key : Key) :
    (entries.map fun entry => (entry.1.display, entry.2)).lookup key.display
      = entries.lookup key := by
  induction entries with
  | nil => rfl
  | cons entry rest ih =>
      rw [List.map_cons, List.lookup_cons, List.lookup_cons, ih]
      by_cases same : key = entry.1
      · rw [same, BEq.rfl, BEq.rfl]
      · have apart : key.display ≠ entry.1.display := fun printed =>
          same (Key.display_injective printed)
        rw [beq_eq_false_iff_ne.mpr same, beq_eq_false_iff_ne.mpr apart]

private theorem fill_iff (cache : Cache) (key : Key) (row : Row) (generation : Nat) :
    (cache.fill key row generation).1 = true ↔
      cache.policy ≠ .disabled ∧ key.hasId = true ∧ cache.generation = generation := by
  unfold fill
  split
  · rename_i fits
    simpa [and_comm, and_assoc] using fits
  · rename_i unfit
    simp only [Bool.false_eq_true, false_iff]
    simpa [and_comm, and_assoc] using unfit

/-- A new row is found, for there is always room for one. -/
theorem find?_store (cache : Cache) (present : cache.policy ≠ .disabled) (key : Key) (row : Row) :
    (cache.store key row).find? key = some row := by
  unfold find? store
  cases policy : cache.policy with
  | disabled => exact absurd policy present
  | unbounded => exact List.lookup_cons_self
  | lru capacity =>
      obtain ⟨more, isMore⟩ : ∃ more, max capacity 1 = more + 1 :=
        ⟨max capacity 1 - 1, by omega⟩
      simp only [CachePolicy.keep, isMore, List.take_succ_cons, List.lookup_cons_self]

/-- For every policy and every sequence of uses, the cache is what its model says. -/
theorem models_after (policy : CachePolicy) (history : List Use) :
    Models policy history (after policy history) ∧ Function.Injective Key.display := by
  have tells := Tells.after policy history
  refine ⟨⟨?_, ?_, ?_, ?_, tells.keyed, fun key => ⟨get_eq_find? _ key, rfl⟩,
    ⟨?_, fun key => lookup_display _ key⟩, ?_, ?_, ?_⟩, Key.display_injective⟩
  · rintro rfl
    exact List.map_eq_nil_iff.mp (tells.keys.trans tells.room.symm)
  · intro unbounded key
    rw [tells.find? key]
    split
    · rfl
    · rename_i apart
      cases found : stored? key history with
      | none => rfl
      | some row => exact absurd (tells.whole unbounded key row found) apart
  · rintro capacity rfl
    refine ⟨tells.keys, ?_, tells.find?⟩
    rw [tells.size_eq, ← tells.room]
    exact List.length_take_le _ _
  · rintro capacity rfl room key row other different
    exact tells.find?_put_of_room room row different
  · have distinct : ((after policy history).entries.map Prod.fst).Nodup :=
      tells.keys ▸ tells.distinct
    have printed := distinct.map Key.display_injective
    rwa [List.map_map] at printed
  · rintro later earlier rfl key row
    rw [fill_iff, tells.configured, tells.generation, (Tells.after policy earlier).generation,
      changeCount, changeCount, List.countP_append]
    have none : later.countP Use.changes + earlier.countP Use.changes
        = earlier.countP Use.changes ↔ ∀ use ∈ later, use.changes = false := by
      rw [Nat.add_eq_right, List.countP_eq_zero]
      simp only [Bool.not_eq_true]
    rw [none]
  · intro key row generation fills
    obtain ⟨present, keyed, same⟩ := (fill_iff _ key row generation).mp fills
    refine ⟨⟨[], history, rfl, same⟩, ?_⟩
    have stores : ((after policy history).fill key row generation).2
        = (after policy history).store key row := by
      unfold fill
      rw [if_pos (by simp [keyed, same, present])]
    rw [stores]
    exact find?_store _ present key row
  · intro key row generation
    unfold fill
    split
    · rintro ⟨⟩
    · exact fun _ => rfl

/-- A row that was read is looked at and so outlives one that was written after it. -/
example : recency (.lru 2) [.put (.withId "C" 3) ⟨[]⟩, .get (.withId "A" 1), .contains (.withId "B" 2),
      .put (.withId "B" 2) ⟨[]⟩, .fill (.withId "A" 1) ⟨[]⟩ 0]
    = [.withId "C" 3, .withId "A" 1] := by decide

end Cache
end EntityStore
