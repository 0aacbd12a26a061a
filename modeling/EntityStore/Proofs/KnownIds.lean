/-
The ids that are known during a save. An id that is known stays as it is, every new
instance has one once it is inserted, and in the end every instance of the plan has the
one that its references are written with.
-/

import EntityStore.Proofs.Lookups
import EntityStore.Proofs.Writing

set_option autoImplicit false

namespace EntityStore

namespace Inserted

variable {dialect : Dialect} {ids known : Ids} {insertions : List Waiting}
  {inserted : List (Waiting × Written)} {log : List Event}

theorem keeps (inserts : Inserted dialect ids insertions inserted known log) {place : Nat}
    {id : Int64} (found : ids.lookup place = some id) : known.lookup place = some id := by
  induction inserts with
  | nil ids => exact found
  | @known ids known waiting rest drawn inserted log foundHere later ih =>
      apply ih
      by_cases same : place = waiting.planned.place
      · subst same
        rw [foundHere] at found
        simpa using found
      · simp [List.lookup_cons, beq_eq_false_iff_ne.mpr same, found]
  | @generated ids known waiting rest drawn inserted log missing later ih =>
      apply ih
      have different : place ≠ waiting.planned.place := by
        intro same
        rw [same, missing] at found
        cases found
      simp [List.lookup_cons, beq_eq_false_iff_ne.mpr different, found]

theorem lookup (inserts : Inserted dialect ids insertions inserted known log)
    {entry : Waiting × Written} (member : entry ∈ inserted) :
    known.lookup entry.1.planned.place = some entry.2.id ∧
      entry.2.planned = entry.1.planned := by
  induction inserts with
  | nil ids => cases member
  | known found later ih =>
      rcases List.mem_cons.mp member with rfl | isLater
      · exact ⟨later.keeps (by simp), rfl⟩
      · exact ih isLater
  | generated missing later ih =>
      rcases List.mem_cons.mp member with rfl | isLater
      · exact ⟨later.keeps (by simp), rfl⟩
      · exact ih isLater

/-- What an insertion writes for an assignment that is not put off is what the ids known
in the end make of it. -/
theorem resolve_eq (inserts : Inserted dialect ids insertions inserted known log)
    {waiting : Waiting} (ready : waiting.isReady (ids.map Prod.fst) = true)
    {assignment : Assignment} (member : assignment ∈ waiting.planned.assignments)
    (immediate : assignment.property ∉ waiting.deferred) :
    assignment.source.resolve ids = assignment.source.resolve known := by
  cases source : assignment.source with
  | value content => rfl
  | idOf place =>
      have isKnown := Waiting.isReady_iff.mp ready assignment
        (Waiting.mem_immediate.mpr ⟨member, immediate⟩) place (by simp [source, Source.place?])
      obtain ⟨id, found⟩ := exists_lookup isKnown
      simp only [Source.resolve, found, inserts.keeps found]

end Inserted

theorem Drawn.sequenced {dialect : Dialect} {plan : List PlannedNode} {ids : Ids}
    {log : List Event} (draws : Drawn dialect plan ids log) {place : Nat}
    (member : place ∈ ids.map Prod.fst) :
    ∃ planned ∈ plan, planned.place = place ∧ dialect.hasSequences = true ∧
      planned.mapping.id.sequence.isSome = true := by
  induction draws with
  | nil => cases member
  | without _ _ ih =>
      obtain ⟨planned, isPlanned, facts⟩ := ih member
      exact ⟨planned, List.mem_cons_of_mem _ isPlanned, facts⟩
  | @drawn planned rest sequence _ _ _ _ _ sequenced _ _ ih =>
      rcases List.mem_cons.mp member with rfl | isLater
      · unfold PlannedNode.sequence? at sequenced
        split at sequenced
        · rename_i draws
          refine ⟨planned, List.mem_cons_self, rfl, (Bool.and_eq_true_iff.mp draws).2, ?_⟩
          exact Option.isSome_iff_exists.mpr ⟨sequence, sequenced⟩
        · cases sequenced
      · obtain ⟨other, isPlanned, facts⟩ := ih isLater
        exact ⟨other, List.mem_cons_of_mem _ isPlanned, facts⟩

namespace Writing

variable {dialect : Dialect} {plan : List PlannedNode} (writing : Writing dialect plan)

theorem waiting_eq : writing.inserted.map Prod.fst = writing.schedule.insertions :=
  writing.inserts.waiting

/-- The instances inserted are the new ones of the plan, each once. -/
theorem inserted_perm :
    (writing.inserted.map fun entry => entry.1.planned).Perm (plan.filter PlannedNode.isNew) := by
  have perm := Schedule.insertions_ofPlan writing.free
  rw [← writing.inserts.waiting, List.map_map] at perm
  exact perm

theorem exists_inserted {planned : PlannedNode} (member : planned ∈ plan)
    (isNew : planned.isNew = true) : ∃ entry ∈ writing.inserted, entry.1.planned = planned := by
  have isInserted := writing.inserted_perm.mem_iff.mpr (List.mem_filter.mpr ⟨member, isNew⟩)
  obtain ⟨entry, entryMember, same⟩ := List.mem_map.mp isInserted
  exact ⟨entry, entryMember, same⟩

theorem planned_of_inserted {entry : Waiting × Written} (member : entry ∈ writing.inserted) :
    entry.1.planned ∈ plan ∧ entry.1.planned.isNew = true :=
  List.mem_filter.mp (writing.inserted_perm.mem_iff.mp
    (List.mem_map_of_mem (f := fun entry => entry.1.planned) member))

theorem known_of_id (distinct : (plan.map PlannedNode.place).Nodup) {planned : PlannedNode}
    (member : planned ∈ plan) {id : Int64} (keyed : planned.content.key.id = some id) :
    writing.known.lookup planned.place = some id := by
  apply writing.inserts.keeps
  have isKnown : (planned.place, id) ∈ plan.filterMap PlannedNode.id? :=
    List.mem_filterMap.mpr ⟨planned, member, by simp [PlannedNode.id?, keyed]⟩
  obtain ⟨found, isFound⟩ := exists_lookup
    (List.mem_map_of_mem (f := Prod.fst) isKnown)
  obtain ⟨other, otherMember, otherId⟩ := List.mem_filterMap.mp (mem_of_lookup isFound)
  unfold PlannedNode.id? at otherId
  obtain ⟨id', otherKeyed, same⟩ := Option.map_eq_some_iff.mp otherId
  have samePlace : other.place = planned.place := congrArg Prod.fst same
  have equal : other = planned := List.inj_on_of_nodup_map distinct otherMember member samePlace
  have sameId : id' = found := congrArg Prod.snd same
  rw [equal, keyed] at otherKeyed
  rw [List.lookup_append, isFound, ← sameId, ← Option.some.inj otherKeyed]
  rfl

theorem exists_known (distinct : (plan.map PlannedNode.place).Nodup) {planned : PlannedNode}
    (member : planned ∈ plan)
    (sound : planned.isNew = true ∨ planned.content.key.id.isSome = true) :
    ∃ id, writing.known.lookup planned.place = some id := by
  rcases sound with isNew | keyed
  · obtain ⟨entry, entryMember, rfl⟩ := writing.exists_inserted member isNew
    exact ⟨entry.2.id, (writing.inserts.lookup entryMember).1⟩
  · obtain ⟨id, same⟩ := Option.isSome_iff_exists.mp keyed
    exact ⟨id, writing.known_of_id distinct member same⟩

end Writing

end EntityStore
