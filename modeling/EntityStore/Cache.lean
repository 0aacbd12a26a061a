/-
The cache of rows by key. A policy says how many rows are kept; when there are too
many, the row not used for the longest time goes. A generation counts the changes
made by writers, so that a row read before such a change is not put in after it.
-/

import EntityStore.Key
import EntityStore.Row

set_option autoImplicit false

namespace EntityStore

inductive CachePolicy where
  /-- Nothing is kept. -/
  | disabled
  /-- Every row is kept until it is dropped. -/
  | unbounded
  /-- At most so many rows, and at least one, are kept. -/
  | lru (capacity : Nat)
  deriving DecidableEq, Repr

namespace CachePolicy

def describe : CachePolicy → String
  | disabled => "Disabled"
  | unbounded => "Unbounded"
  | lru capacity => "Lru(" ++ toString capacity ++ ")"

/-- The rows kept of a list in order of use, the last used first. -/
def keep {α : Type} (policy : CachePolicy) (entries : List α) : List α :=
  match policy with
  | disabled => []
  | unbounded => entries
  | lru capacity => entries.take (max capacity 1)

end CachePolicy

structure Cache where
  policy : CachePolicy
  /-- Rows by key, the last used first; no key occurs twice. -/
  entries : List (Key × Row)
  generation : Nat
  deriving DecidableEq, Repr

namespace Cache

def empty (policy : CachePolicy) : Cache := ⟨policy, [], 0⟩

def size (cache : Cache) : Nat := cache.entries.length

def isEmpty (cache : Cache) : Bool := cache.entries.isEmpty

def without (entries : List (Key × Row)) (key : Key) : List (Key × Row) :=
  entries.filter fun entry => entry.1 != key

/-- The row of a key; looking does not count as use. -/
def find? (cache : Cache) (key : Key) : Option Row :=
  cache.entries.lookup key

def contains (cache : Cache) (key : Key) : Bool :=
  (cache.find? key).isSome

def store (cache : Cache) (key : Key) (row : Row) : Cache :=
  { cache with entries := cache.policy.keep ((key, row) :: without cache.entries key) }

/-- The row of a key, which counts as use of it. -/
def get (cache : Cache) (key : Key) : Option Row × Cache :=
  match cache.find? key with
  | some row => (some row, cache.store key row)
  | none => (none, cache)

/-- Stores a row that was written. A key without id is ignored. -/
def put (cache : Cache) (key : Key) (row : Row) : Cache :=
  if key.hasId then { cache.store key row with generation := cache.generation + 1 }
  else cache

/-- Stores a row that was read when the generation was `generation`, unless a writer
has changed the cache since. Tells whether the row was stored. -/
def fill (cache : Cache) (key : Key) (row : Row) (generation : Nat) : Bool × Cache :=
  if key.hasId && cache.generation == generation && cache.policy != .disabled then
    (true, cache.store key row)
  else (false, cache)

def invalidate (cache : Cache) (key : Key) : Cache :=
  { cache with
    entries := without cache.entries key
    generation := cache.generation + 1 }

def clear (cache : Cache) : Cache :=
  { cache with entries := [], generation := cache.generation + 1 }

def describe (cache : Cache) : String :=
  "Cache \x7b policy: " ++ cache.policy.describe ++ ", len: " ++ toString cache.size ++ " \x7d"

end Cache

end EntityStore
