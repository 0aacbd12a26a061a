/-
When a schedule is stuck. Instances whose ids are not known beforehand demand those that
they cannot do without; what is stuck demands something that is stuck, and what is
inserted demands only what was inserted before. A schedule is therefore stuck exactly if
the demands of what it inserts run in a circle.
-/

import EntityStore.Proofs.Schedules
import Mathlib.Data.Fintype.EquivFin
import Mathlib.Data.Set.Finite.List
import Mathlib.Logic.Relation

set_option autoImplicit false

namespace EntityStore

/-! ### Circles -/

/-- Where each of finitely many things leads to one of them, some run in a circle. -/
theorem exists_transGen_self {α : Type} {leads : α → α → Prop} {things : List α}
    (some : things ≠ []) (next : ∀ thing ∈ things, ∃ other ∈ things, leads thing other) :
    ∃ thing, Relation.TransGen leads thing thing := by
  by_contra none
  have : Finite { thing // thing ∈ things } := things.finite_toSet
  -- whatever can be reached comes later; without circles, one thing would come last
  let later (first second : { thing // thing ∈ things }) : Prop :=
    Relation.TransGen leads second.1 first.1
  have : IsTrans _ later := ⟨fun _ _ _ first second => second.trans first⟩
  have : Std.Irrefl later := ⟨fun thing circle => none ⟨thing.1, circle⟩⟩
  have wellFounded := Finite.wellFounded_of_trans_of_irrefl later
  obtain ⟨first, member⟩ := List.exists_mem_of_ne_nil things some
  obtain ⟨last, _, isLast⟩ := wellFounded.has_min Set.univ ⟨⟨first, member⟩, trivial⟩
  obtain ⟨other, otherMember, follows⟩ := next last.1 last.2
  exact isLast ⟨other, otherMember⟩ trivial (.single follows)

private theorem not_transGen_self_of_acc {α : Type} {leads : α → α → Prop} {thing : α}
    (acc : Acc (fun other thing => leads thing other) thing) :
    ¬Relation.TransGen leads thing thing := by
  have accAll : Acc (Relation.TransGen fun other thing => leads thing other) thing :=
    acc_transGen_iff.mpr acc
  intro circle
  have swapped : Relation.TransGen (fun other thing => leads thing other) thing thing :=
    Relation.transGen_swap.mp circle
  clear circle acc
  induction accAll with
  | intro thing _ ih => exact ih thing swapped swapped

/-! ### Demands -/

def PlannedNode.IsAwaited (known : List Nat) (plan : List PlannedNode) (planned : PlannedNode) :
    Prop :=
  planned ∈ plan ∧ planned.isNew = true ∧ planned.place ∉ known

/-- A planned instance demands another one: it has a relation to it that cannot be empty,
and the ids of both are not known. -/
def PlannedNode.Demands (known : List Nat) (plan : List PlannedNode)
    (planned other : PlannedNode) : Prop :=
  planned.IsAwaited known plan ∧ other.IsAwaited known plan ∧
    ∃ assignment ∈ planned.assignments,
      assignment.nullable = false ∧ assignment.source.place? = some other.place

namespace Schedule

variable {known : List Nat}

theorem isReady_of_takeReady? {waiting : List Waiting} (missing : takeReady? known waiting = none) :
    ∀ one ∈ waiting, one.isReady known = false := by
  induction waiting with
  | nil => exact fun _ member => absurd member List.not_mem_nil
  | cons head tail ih =>
      unfold takeReady? at missing
      split at missing
      · cases missing
      rename_i notReady
      intro one member
      rcases List.mem_cons.mp member with rfl | isTail
      · exact Bool.eq_false_iff.mpr notReady
      · exact ih (Option.map_eq_none_iff.mp missing) one isTail

private theorem deferFirst?_of_none {waiting : List Waiting}
    (missing : deferFirst? known waiting = none) :
    ∀ one ∈ waiting, one.deferFirst? known = none := by
  induction waiting with
  | nil => exact fun _ member => absurd member List.not_mem_nil
  | cons head tail ih =>
      unfold deferFirst? at missing
      split at missing
      · cases missing
      rename_i noneHere
      intro one member
      rcases List.mem_cons.mp member with rfl | isTail
      · exact noneHere
      · exact ih (Option.map_eq_none_iff.mp missing) one isTail

/-- Why a schedule ends: what is stuck needs ids that are not known, of relations that
cannot be empty. The ids known at the end are those known before and those of what was
inserted. -/
structure Ends (known : List Nat) (schedule : Schedule) : Prop where
  known : ∀ place, place ∈ schedule.known ↔
    place ∈ known ∨ ∃ one ∈ schedule.insertions, one.planned.place = place
  blocked : ∀ one ∈ schedule.stuck, ∃ assignment ∈ one.planned.assignments,
    assignment.nullable = false ∧
      ∃ place, assignment.source.place? = some place ∧ place ∉ schedule.known

private theorem build_ends (known : List Nat) (waiting : List Waiting) :
    Ends known (build known waiting) := by
  -- The induction follows the schedule.
  induction known, waiting using build.induct with
  | case1 known waiting next rest found ih =>
      rw [build_of_ready found]
      refine ⟨fun place => (ih.known place).trans ?_, ih.blocked⟩
      simp only [List.mem_cons, exists_eq_or_imp]
      rw [or_assoc, or_left_comm, eq_comm]
  | case2 known waiting noReady eased found ih =>
      rw [build_of_eased noReady found]
      exact ih
  | case3 known waiting noReady noEased =>
      rw [build_of_stuck noReady noEased]
      refine ⟨fun place => by simp, fun one member => ?_⟩
      -- Something keeps it from being ready, and what does is not nullable, or it would be put off.
      obtain ⟨blocker, isBlocker⟩ := List.exists_mem_of_ne_nil _
        (List.isEmpty_eq_false_iff.mp (isReady_of_takeReady? noReady one member))
      have notEased := deferFirst?_of_none noEased one member
      have strict := List.find?_eq_none.mp (Option.map_eq_none_iff.mp notEased) blocker isBlocker
      obtain ⟨immediate, isOpen⟩ := List.mem_filter.mp isBlocker
      obtain ⟨place, needed, missing⟩ := (Option.any_eq_true _ _).mp isOpen
      exact ⟨blocker, (Waiting.mem_immediate.mp immediate).1, by simpa using strict, place,
        needed, by simpa using missing⟩

section Plans

variable {plan : List PlannedNode}

private theorem inserted_or_stuck {planned : PlannedNode} :
    planned ∈ plan ∧ planned.isNew = true ↔
      (∃ one ∈ (ofPlan known plan).insertions, one.planned = planned) ∨
        ∃ one ∈ (ofPlan known plan).stuck, one.planned = planned := by
  have complete := (build_ordered known
    ((plan.filter PlannedNode.isNew).map fun planned => { planned := planned })).complete
  rw [List.map_map, show (plan.filter PlannedNode.isNew).map
    (Waiting.planned ∘ fun planned => { planned := planned }) = plan.filter PlannedNode.isNew
    from List.map_id' _] at complete
  rw [← List.mem_filter, ← complete.mem_iff, List.map_append, List.mem_append, List.mem_map,
    List.mem_map]
  rfl

theorem ofPlan_of_none (none : ∀ planned ∈ plan, planned.isNew = false) :
    (ofPlan known plan).insertions = [] ∧ (ofPlan known plan).stuck = [] := by
  have impossible {planned : PlannedNode}
      (isNew : planned ∈ plan ∧ planned.isNew = true) : False := by
    rw [none _ isNew.1] at isNew
    exact absurd isNew.2 Bool.false_ne_true
  constructor
  · refine List.eq_nil_iff_forall_not_mem.mpr fun one member => ?_
    exact impossible (inserted_or_stuck.mpr (Or.inl ⟨one, member, rfl⟩))
  · refine List.eq_nil_iff_forall_not_mem.mpr fun one member => ?_
    exact impossible (inserted_or_stuck.mpr (Or.inr ⟨one, member, rfl⟩))

def Closed (known : List Nat) (plan : List PlannedNode) : Prop :=
  ∀ planned ∈ plan, ∀ assignment ∈ planned.assignments, ∀ place,
    assignment.source.place? = some place →
      place ∈ known ∨ ∃ other ∈ plan, other.isNew = true ∧ other.place = place

/-- What is stuck demands something that is stuck. -/
theorem exists_demanded (closed : Closed known plan) {one : Waiting}
    (stuck : one ∈ (ofPlan known plan).stuck) :
    ∃ other ∈ (ofPlan known plan).stuck, other.planned.IsAwaited known plan ∧
      ∃ assignment ∈ one.planned.assignments,
        assignment.nullable = false ∧ assignment.source.place? = some other.planned.place := by
  have ends := build_ends known
    ((plan.filter PlannedNode.isNew).map fun planned => { planned := planned })
  obtain ⟨assignment, isAssignment, strict, place, needed, missing⟩ := ends.blocked one stuck
  have isPlanned := (inserted_or_stuck.mpr (Or.inr ⟨one, stuck, rfl⟩)).1
  have notKnown : place ∉ known := fun isKnown => missing ((ends.known place).mpr (Or.inl isKnown))
  rcases closed _ isPlanned assignment isAssignment place needed with isKnown | found
  · exact absurd isKnown notKnown
  obtain ⟨other, isOther, isNew, rfl⟩ := found
  rcases inserted_or_stuck.mp ⟨isOther, isNew⟩ with ⟨inserted, member, same⟩ | ⟨late, isStuck, rfl⟩
  · exact absurd ((ends.known _).mpr (Or.inr ⟨inserted, member, congrArg _ same⟩)) missing
  · exact ⟨late, isStuck, ⟨isOther, isNew, notKnown⟩, assignment, isAssignment, strict, needed⟩

/-- Among what is stuck, demands run in a circle. -/
theorem exists_circle (closed : Closed known plan) (stuck : (ofPlan known plan).stuck ≠ []) :
    ∃ planned, Relation.TransGen (PlannedNode.Demands known plan) planned planned := by
  let awaited := (ofPlan known plan).stuck.filter fun one => !known.contains one.planned.place
  have mem_awaited {one : Waiting} (isStuck : one ∈ (ofPlan known plan).stuck)
      (waits : one.planned.IsAwaited known plan) : one.planned ∈ awaited.map Waiting.planned :=
    List.mem_map_of_mem (List.mem_filter.mpr ⟨isStuck, by simpa using waits.2.2⟩)
  obtain ⟨first, isFirst⟩ := List.exists_mem_of_ne_nil _ stuck
  obtain ⟨demanded, isDemanded, waits, _⟩ := exists_demanded closed isFirst
  refine @exists_transGen_self _ (PlannedNode.Demands known plan) (awaited.map Waiting.planned)
    (List.ne_nil_of_mem (mem_awaited isDemanded waits)) fun planned member => ?_
  obtain ⟨one, isAwaited, rfl⟩ := List.mem_map.mp member
  obtain ⟨isStuck, missing⟩ := List.mem_filter.mp isAwaited
  obtain ⟨isPlanned, isNew⟩ := inserted_or_stuck.mpr (Or.inr ⟨one, isStuck, rfl⟩)
  obtain ⟨other, otherStuck, otherWaits, demands⟩ := exists_demanded closed isStuck
  exact ⟨other.planned, mem_awaited otherStuck otherWaits,
    ⟨isPlanned, isNew, by simpa using missing⟩, otherWaits, demands⟩

/-- Insertions in order demand only what was inserted before: the induction is on the
order, and every place that is known is one that was known at first or is accessible. -/
theorem acc_of_inOrder (places : ∀ first ∈ plan, ∀ second ∈ plan,
      first.place = second.place → first = second)
    {current : List Nat} {insertions : List Waiting} (inOrder : InOrder current insertions)
    (planned : ∀ one ∈ insertions, one.planned ∈ plan)
    (strict : ∀ one ∈ insertions, ∀ assignment ∈ one.planned.assignments,
      assignment.nullable = false → assignment ∈ one.immediate)
    (earlier : ∀ other ∈ plan, other.place ∈ current → other.place ∈ known ∨
      Acc (fun other planned => PlannedNode.Demands known plan planned other) other) :
    ∀ one ∈ insertions,
      Acc (fun other planned => PlannedNode.Demands known plan planned other) one.planned := by
  induction inOrder with
  | nil => exact fun _ member => absurd member List.not_mem_nil
  | @cons current next rest ready _ ih =>
      have accNext : Acc (fun other planned => PlannedNode.Demands known plan planned other)
          next.planned := by
        refine .intro _ fun other demands => ?_
        obtain ⟨_, waits, assignment, isAssignment, mandatory, needed⟩ := demands
        have immediate := strict next List.mem_cons_self assignment isAssignment mandatory
        have isKnown := Waiting.isReady_iff.mp ready assignment immediate _ needed
        exact (earlier other waits.1 isKnown).resolve_left waits.2.2
      intro one member
      rcases List.mem_cons.mp member with rfl | isRest
      · exact accNext
      · refine ih (fun other isOther => planned other (List.mem_cons_of_mem next isOther))
          (fun other isOther => strict other (List.mem_cons_of_mem next isOther)) ?_ one isRest
        intro other isOther isKnown
        rcases List.mem_cons.mp isKnown with isNext | isEarlier
        · rw [places other isOther _ (planned next List.mem_cons_self) isNext]
          exact Or.inr accNext
        · exact earlier other isOther isEarlier

/-- A schedule is stuck exactly if demands run in a circle. -/
theorem stuck_iff (closed : Closed known plan)
    (places : ∀ first ∈ plan, ∀ second ∈ plan, first.place = second.place → first = second)
    (names : ∀ planned ∈ plan, (planned.assignments.map Assignment.property).Nodup) :
    (ofPlan known plan).stuck ≠ [] ↔
      ∃ planned, Relation.TransGen (PlannedNode.Demands known plan) planned planned := by
  refine ⟨exists_circle closed, fun ⟨planned, circle⟩ free => ?_⟩
  obtain ⟨_, ⟨waits, _⟩, _⟩ := Relation.TransGen.head'_iff.mp circle
  obtain ⟨one, inserted, rfl⟩ : ∃ one ∈ (ofPlan known plan).insertions, one.planned = planned := by
    rcases inserted_or_stuck.mp ⟨waits.1, waits.2.1⟩ with found | ⟨one, stuck, _⟩
    · exact found
    · rw [free] at stuck
      cases stuck
  refine not_transGen_self_of_acc (acc_of_inOrder places (inOrder_ofPlan known plan)
    (fun one member => (List.mem_filter.mp (planned_of_mem member)).1) ?_
    (fun _ _ isKnown => Or.inl isKnown) one inserted) circle
  intro one member assignment isAssignment mandatory
  refine Waiting.mem_immediate.mpr ⟨isAssignment, fun deferred => ?_⟩
  -- only relations that may be empty are put off
  obtain ⟨other, isOther, same, nullable⟩ := lenient_ofPlan member _ deferred
  have distinct := names _ (List.mem_filter.mp (planned_of_mem member)).1
  rw [List.inj_on_of_nodup_map distinct isOther isAssignment same, mandatory] at nullable
  cases nullable

end Plans

end Schedule
end EntityStore
