/-
The order in which new instances are inserted. An instance is ready when every id it
needs is known; its own id is known once it is inserted. When none is ready, a
reference that may be empty is put off: it is inserted as null and set afterwards.
When nothing can be put off either, what remains waits on itself in a circle.

The order depends on which ids are known, never on what they are.
-/

import EntityStore.Store.Plan

set_option autoImplicit false

namespace EntityStore

/-- A new instance that is not inserted yet. -/
structure Waiting where
  planned : PlannedNode
  /-- The relations put off until everything is inserted. -/
  deferred : List String := []
  deriving DecidableEq, Repr

namespace Waiting

def immediate (waiting : Waiting) : List Assignment :=
  waiting.planned.assignments.filter fun assignment =>
    !waiting.deferred.contains assignment.property

def postponed (waiting : Waiting) : List Assignment :=
  waiting.planned.assignments.filter fun assignment =>
    waiting.deferred.contains assignment.property

/-- What keeps an instance from being inserted. -/
def blockers (known : List Nat) (waiting : Waiting) : List Assignment :=
  waiting.immediate.filter (Assignment.isOpen known)

def isReady (known : List Nat) (waiting : Waiting) : Bool :=
  (waiting.blockers known).isEmpty

def defer (waiting : Waiting) (property : String) : Waiting :=
  { waiting with deferred := waiting.deferred ++ [property] }

/-- Puts off the first blocker that may be empty. -/
def deferFirst? (known : List Nat) (waiting : Waiting) : Option Waiting :=
  ((waiting.blockers known).find? Assignment.nullable).map fun assignment =>
    waiting.defer assignment.property

/-- One for the insertion and one for each assignment that can be put off. -/
def weight (waiting : Waiting) : Nat := 1 + waiting.immediate.length

def openRelations (known : List Nat) (waiting : Waiting) : List Assignment :=
  waiting.planned.assignments.filter (Assignment.isOpen known)

end Waiting

structure Schedule where
  insertions : List Waiting
  stuck : List Waiting
  /-- The places whose ids are known when the schedule ends. -/
  known : List Nat
  deriving DecidableEq, Repr

namespace Schedule

def takeReady? (known : List Nat) : List Waiting → Option (Waiting × List Waiting)
  | [] => none
  | waiting :: rest =>
      if waiting.isReady known then some (waiting, rest)
      else (takeReady? known rest).map fun found => (found.1, waiting :: found.2)

/-- Puts off one relation of the first instance that has one to put off. -/
def deferFirst? (known : List Nat) : List Waiting → Option (List Waiting)
  | [] => none
  | waiting :: rest =>
      match waiting.deferFirst? known with
      | some relaxed => some (relaxed :: rest)
      | none => (deferFirst? known rest).map fun others => waiting :: others

def weight : List Waiting → Nat
  | [] => 0
  | waiting :: rest => waiting.weight + weight rest

private theorem weight_of_takeReady? {known : List Nat} {waiting rest : List Waiting}
    {ready : Waiting} (found : takeReady? known waiting = some (ready, rest)) :
    weight rest < weight waiting := by
  induction waiting generalizing rest with
  | nil => simp [takeReady?] at found
  | cons head tail ih =>
      unfold takeReady? at found
      split at found
      · cases found
        simp only [weight, Waiting.weight]
        omega
      · obtain ⟨⟨later, others⟩, foundLater, same⟩ := Option.map_eq_some_iff.mp found
        cases same
        have smaller := ih foundLater
        simp only [weight] at smaller ⊢
        omega

private theorem weight_of_defer {known : List Nat} {waiting relaxed : Waiting}
    (found : waiting.deferFirst? known = some relaxed) : relaxed.weight < waiting.weight := by
  obtain ⟨blocker, foundBlocker, rfl⟩ := Option.map_eq_some_iff.mp found
  have member := (List.mem_filter.mp (List.mem_of_find?_eq_some foundBlocker)).1
  -- Putting off a relation removes its assignments from the immediate ones, the blocker's among
  -- them.
  have kept : (waiting.defer blocker.property).immediate
      = waiting.immediate.filter fun assignment => assignment.property != blocker.property := by
    simp only [Waiting.immediate, Waiting.defer, List.filter_filter]
    congr 1
    funext assignment
    by_cases same : assignment.property = blocker.property <;> simp [same]
  have shorter : (waiting.immediate.filter
      fun assignment => assignment.property != blocker.property).length
        < waiting.immediate.length :=
    List.length_filter_lt_length_iff_exists.mpr ⟨blocker, member, by simp⟩
  simp only [Waiting.weight, kept]
  omega

private theorem weight_of_deferFirst? {known : List Nat} {waiting relaxed : List Waiting}
    (found : deferFirst? known waiting = some relaxed) : weight relaxed < weight waiting := by
  induction waiting generalizing relaxed with
  | nil => simp [deferFirst?] at found
  | cons head tail ih =>
      unfold deferFirst? at found
      split at found
      · rename_i eased foundEased
        cases found
        have smaller := weight_of_defer foundEased
        simp only [weight]
        omega
      · obtain ⟨others, foundOthers, rfl⟩ := Option.map_eq_some_iff.mp found
        have smaller := ih foundOthers
        simp only [weight] at smaller ⊢
        omega

/-- Orders the insertions of what waits; `known` are the places whose ids are known
before. -/
def build (known : List Nat) (waiting : List Waiting) : Schedule :=
  match _ready : takeReady? known waiting with
  | some (next, rest) =>
      let later := build (next.planned.place :: known) rest
      { later with insertions := next :: later.insertions }
  | none =>
      match _relaxed : deferFirst? known waiting with
      | some eased => build known eased
      | none => ⟨[], waiting, known⟩
termination_by weight waiting
decreasing_by
  · exact weight_of_takeReady? _ready
  · exact weight_of_deferFirst? _relaxed

/-- The schedule of a plan; the ids of `known` are known before anything is
inserted. -/
def ofPlan (known : List Nat) (plan : List PlannedNode) : Schedule :=
  build known ((plan.filter PlannedNode.isNew).map fun planned => { planned := planned })

end Schedule

end EntityStore
