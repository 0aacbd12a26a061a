/-
What the order of insertions guarantees: everything that waits is inserted once or is
stuck, an insertion needs no id that is not known by then, and only references that
may be empty are put off.
-/

import EntityStore.Store.Schedule

set_option autoImplicit false

namespace EntityStore

namespace Waiting

def Lenient (waiting : Waiting) : Prop :=
  ∀ property ∈ waiting.deferred, ∃ assignment ∈ waiting.planned.assignments,
    assignment.property = property ∧ assignment.nullable = true

theorem mem_immediate {waiting : Waiting} {assignment : Assignment} :
    assignment ∈ waiting.immediate ↔ assignment ∈ waiting.planned.assignments ∧
      assignment.property ∉ waiting.deferred := by
  simp [immediate]

theorem mem_postponed {waiting : Waiting} {assignment : Assignment} :
    assignment ∈ waiting.postponed ↔ assignment ∈ waiting.planned.assignments ∧
      assignment.property ∈ waiting.deferred := by
  simp [postponed]

theorem isReady_iff {known : List Nat} {waiting : Waiting} :
    waiting.isReady known = true ↔ ∀ assignment ∈ waiting.immediate,
      ∀ place, assignment.source.place? = some place → place ∈ known := by
  unfold isReady blockers Assignment.isOpen
  simp only [List.isEmpty_iff, List.filter_eq_nil_iff]
  constructor
  · intro noBlocker assignment member place needed
    have closed := noBlocker assignment member
    simpa [needed] using closed
  · intro allKnown assignment member opened
    cases needed : assignment.source.place? with
    | none => simp [needed] at opened
    | some place => simp [needed, allKnown assignment member place needed] at opened

private theorem deferFirst?_ok {known : List Nat} {waiting relaxed : Waiting}
    (found : waiting.deferFirst? known = some relaxed) :
    relaxed.planned = waiting.planned ∧ (waiting.Lenient → relaxed.Lenient) := by
  obtain ⟨blocker, foundBlocker, rfl⟩ := Option.map_eq_some_iff.mp found
  have isBlocker := List.mem_filter.mp (List.mem_of_find?_eq_some foundBlocker)
  have nullable : blocker.nullable = true := by simpa using List.find?_some foundBlocker
  refine ⟨rfl, fun lenient property member => ?_⟩
  rcases List.mem_append.mp member with isOld | isNew
  · exact lenient property isOld
  · rw [List.mem_singleton.mp isNew]
    exact ⟨blocker, (mem_immediate.mp isBlocker.1).1, rfl, nullable⟩

end Waiting

namespace Schedule

theorem takeReady?_ok {known : List Nat} {waiting rest : List Waiting} {next : Waiting}
    (found : takeReady? known waiting = some (next, rest)) :
    next.isReady known = true ∧ (next :: rest).Perm waiting := by
  induction waiting generalizing rest with
  | nil => simp [takeReady?] at found
  | cons head tail ih =>
      unfold takeReady? at found
      split at found
      · rename_i ready
        cases found
        exact ⟨ready, List.Perm.refl _⟩
      · obtain ⟨⟨later, others⟩, foundLater, same⟩ := Option.map_eq_some_iff.mp found
        cases same
        obtain ⟨ready, rearranged⟩ := ih foundLater
        exact ⟨ready, (List.Perm.swap head _ others).trans (rearranged.cons head)⟩

theorem deferFirst?_ok {known : List Nat} {waiting eased : List Waiting}
    (found : deferFirst? known waiting = some eased) :
    eased.map Waiting.planned = waiting.map Waiting.planned ∧
      ((∀ one ∈ waiting, one.Lenient) → ∀ one ∈ eased, one.Lenient) := by
  induction waiting generalizing eased with
  | nil => simp [deferFirst?] at found
  | cons head tail ih =>
      unfold deferFirst? at found
      split at found
      · rename_i relaxed foundHead
        cases found
        obtain ⟨planned, lenient⟩ := Waiting.deferFirst?_ok foundHead
        refine ⟨by rw [List.map_cons, List.map_cons, planned], fun all one member => ?_⟩
        rcases List.mem_cons.mp member with rfl | isTail
        · exact lenient (all head List.mem_cons_self)
        · exact all one (List.mem_cons_of_mem head isTail)
      · obtain ⟨others, foundOthers, rfl⟩ := Option.map_eq_some_iff.mp found
        obtain ⟨planned, lenient⟩ := ih foundOthers
        refine ⟨by rw [List.map_cons, List.map_cons, planned], fun all one member => ?_⟩
        rcases List.mem_cons.mp member with rfl | isTail
        · exact all one List.mem_cons_self
        · exact lenient (fun other otherMember =>
            all other (List.mem_cons_of_mem head otherMember)) one isTail

inductive InOrder : List Nat → List Waiting → Prop where
  | nil (known : List Nat) : InOrder known []
  | cons {known : List Nat} {next : Waiting} {rest : List Waiting} :
      next.isReady known = true → InOrder (next.planned.place :: known) rest →
      InOrder known (next :: rest)

structure Ordered (known : List Nat) (waiting : List Waiting) (schedule : Schedule) : Prop where
  inOrder : InOrder known schedule.insertions
  complete : ((schedule.insertions ++ schedule.stuck).map Waiting.planned).Perm
    (waiting.map Waiting.planned)
  lenient : (∀ one ∈ waiting, one.Lenient) → ∀ one ∈ schedule.insertions, one.Lenient

theorem build_of_ready {known : List Nat} {waiting rest : List Waiting} {next : Waiting}
    (ready : takeReady? known waiting = some (next, rest)) :
    build known waiting = { build (next.planned.place :: known) rest with
      insertions := next :: (build (next.planned.place :: known) rest).insertions } := by
  rw [build]
  split
  · rename_i found
    rw [ready] at found
    cases found
    rfl
  · rename_i found
    rw [ready] at found
    cases found

theorem build_of_eased {known : List Nat} {waiting eased : List Waiting}
    (noReady : takeReady? known waiting = none) (eases : deferFirst? known waiting = some eased) :
    build known waiting = build known eased := by
  rw [build]
  split
  · rename_i found
    rw [noReady] at found
    cases found
  · split
    · rename_i found
      rw [eases] at found
      cases found
      rfl
    · rename_i found
      rw [eases] at found
      cases found

theorem build_of_stuck {known : List Nat} {waiting : List Waiting}
    (noReady : takeReady? known waiting = none) (noEased : deferFirst? known waiting = none) :
    build known waiting = ⟨[], waiting, known⟩ := by
  rw [build]
  split
  · rename_i found
    rw [noReady] at found
    cases found
  · split
    · rename_i found
      rw [noEased] at found
      cases found
    · rfl

theorem build_ordered (known : List Nat) (waiting : List Waiting) :
    Ordered known waiting (build known waiting) := by
  -- The induction follows the schedule: one is inserted, one is eased, or nothing is left to do.
  induction known, waiting using build.induct with
  | case1 known waiting next rest found ih =>
      obtain ⟨ready, rearranged⟩ := takeReady?_ok found
      rw [build_of_ready found]
      refine ⟨.cons ready ih.inOrder, ?_, ?_⟩
      · simp only [List.cons_append, List.map_cons]
        exact (ih.complete.cons next.planned).trans (rearranged.map Waiting.planned)
      · intro all one member
        have allRest : ∀ other ∈ next :: rest, other.Lenient := fun other otherMember =>
          all other (rearranged.mem_iff.mp otherMember)
        rcases List.mem_cons.mp member with rfl | isLater
        · exact allRest one List.mem_cons_self
        · exact ih.lenient (fun other otherMember =>
            allRest other (List.mem_cons_of_mem next otherMember)) one isLater
  | case2 known waiting noReady eased found ih =>
      obtain ⟨planned, lenient⟩ := deferFirst?_ok found
      rw [build_of_eased noReady found]
      exact ⟨ih.inOrder, planned ▸ ih.complete, fun all => ih.lenient (lenient all)⟩
  | case3 known waiting noReady noEased =>
      rw [build_of_stuck noReady noEased]
      exact ⟨.nil known, List.Perm.refl _, fun _ one member => by cases member⟩

theorem planned_of_mem {known : List Nat} {plan : List PlannedNode} {waiting : Waiting}
    (member : waiting ∈ (ofPlan known plan).insertions) :
    waiting.planned ∈ plan.filter PlannedNode.isNew := by
  have complete := (build_ordered known
    ((plan.filter PlannedNode.isNew).map fun planned => { planned := planned })).complete
  have isPlanned := complete.mem_iff.mp
    (List.mem_map_of_mem (f := Waiting.planned) (List.mem_append_left _ member))
  rw [List.map_map] at isPlanned
  obtain ⟨planned, plannedMember, same⟩ := List.mem_map.mp isPlanned
  exact same ▸ plannedMember

/-- The schedule of a plan in which nothing is stuck inserts the new instances, each
once. -/
theorem insertions_ofPlan {known : List Nat} {plan : List PlannedNode}
    (free : (ofPlan known plan).stuck = []) :
    ((ofPlan known plan).insertions.map Waiting.planned).Perm
      (plan.filter PlannedNode.isNew) := by
  have complete := (build_ordered known
    ((plan.filter PlannedNode.isNew).map fun planned => { planned := planned })).complete
  rw [show (build known _).stuck = [] from free, List.append_nil, List.map_map] at complete
  have same : (plan.filter PlannedNode.isNew).map
      (Waiting.planned ∘ fun planned => { planned := planned }) = plan.filter PlannedNode.isNew :=
    List.map_id' _
  rw [same] at complete
  exact complete

theorem inOrder_ofPlan (known : List Nat) (plan : List PlannedNode) :
    InOrder known (ofPlan known plan).insertions :=
  (build_ordered known _).inOrder

theorem lenient_ofPlan {known : List Nat} {plan : List PlannedNode} {waiting : Waiting}
    (member : waiting ∈ (ofPlan known plan).insertions) : waiting.Lenient := by
  refine (build_ordered known _).lenient ?_ waiting member
  intro one isWaiting
  obtain ⟨planned, _, rfl⟩ := List.mem_map.mp isWaiting
  intro property none'
  cases none'

end Schedule

end EntityStore
