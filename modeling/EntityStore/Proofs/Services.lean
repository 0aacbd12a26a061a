/-
Units of work to which nothing is refused. The calls of a unit are those of its work
among others that manage the connection; where all of them serve, the unit ends as its
work does, with the same insertions.
-/

import EntityStore.Proofs.UnrefusedWork

set_option autoImplicit false

namespace EntityStore

theorem Exchange.insertion?_eq_nil {calls : List Exchange}
    (manage : ∀ call ∈ calls, call.Manages) : calls.filterMap Exchange.insertion? = [] := by
  refine List.filterMap_eq_nil_iff.mpr fun call member => ?_
  unfold Exchange.insertion?
  rcases manage call member with same | same | same | same | same <;> rw [same]

namespace Store

variable {World α : Type} {inner : Deployment World} {thread : ThreadId}
  {gives : Except Error (α × WriteSet) → List Statement → Prop}

def Connects (inner : Deployment World) (thread : ThreadId) (store : Store (Traced World)) :
    Prop :=
  store.isOpen = true ∧ (store.transaction? thread = none →
    ∃ lease pool, store.pool.acquire inner.traced.database = (.ok lease, pool))

def Serviced {β : Type} (store : Store (Traced World))
    (gives : Except Error β → List Statement → Prop) (outcome : Except Error β)
    (after : Store (Traced World)) : Prop :=
  ∃ calls, after.pool.world.trace = store.pool.world.trace ++ calls ∧
    ((∀ call ∈ calls, call.Serves) → gives outcome (calls.filterMap Exchange.insertion?))

section Services

variable {β : Type} {store between : Store (Traced World)} {operation : Operation (Traced World) α}
  {next : α → Operation (Traced World) β} {gives : Except Error β → List Statement → Prop}

theorem serviced_silent_bind {result : α} (ran : operation.run store = (.ok result, between))
    (same : between.pool = store.pool)
    (later : Ensures (next result) between (between.Serviced gives)) :
    Ensures (operation >>= next) store (store.Serviced gives) :=
  prolongs_silent_bind ran same later

/-- A step may be followed by one that succeeds without any calls. -/
theorem serviced_bind_sure {first : Except Error α → List Statement → Prop}
    (serviced : Ensures operation store (store.Serviced first))
    (failed : ∀ error statements, first (.error error) statements →
      gives (.error error) statements)
    (sure : ∀ result between, ∃ final after, (next result).run between = (.ok final, after) ∧
      after.pool = between.pool ∧
      ∀ statements, first (.ok result) statements → gives (.ok final) statements) :
    Ensures (operation >>= next) store (store.Serviced gives) := by
  apply ensures_bind
  refine serviced.weaken fun outcome between ⟨calls, grown, given⟩ => ?_
  cases outcome with
  | error error => exact ⟨calls, grown, fun serve => failed _ _ (given serve)⟩
  | ok result =>
      obtain ⟨final, after, ran, same, gave⟩ := sure result between
      show Ensures (next result) between _
      unfold Ensures
      rw [ran]
      refine ⟨calls, ?_, fun serve => gave _ (given serve)⟩
      rw [show after.pool = between.pool from same]
      exact grown

end Services

section Units

variable {store : Store (Traced World)} {work : Work (Traced World) α}

def UnitGives (gives : Except Error (α × WriteSet) → List Statement → Prop)
    (outcome : Except Error α) (statements : List Statement) : Prop :=
  ∃ done, outcome = done.map Prod.fst ∧ gives done statements

/-- A unit ends as its work does, where nothing is refused. -/
theorem serviced_unit (works : ∀ lease, Works lease (work lease) gives) (leased : store.Leased)
    (connects : store.Connects inner thread) :
    Ensures (unit (inner.traced.session thread) true work) store
      (store.Serviced (UnitGives gives)) := by
  refine (prolongs_unit works leased).weaken fun outcome after ⟨calls, grown, made⟩ => ?_
  refine ⟨calls, grown, fun serve => ?_⟩
  have granted : ¬∃ call ∈ calls, call.Refused := by
    rintro ⟨call, member, fault, refused⟩
    obtain ⟨rows, granted⟩ := (serve call member).granted
    rw [refused] at granted
    cases granted
  rcases made with ⟨closed | ⟨outside, error, pool, failed⟩, _⟩ | ⟨done, same, framed⟩
  · rw [connects.1] at closed
    cases closed
  · obtain ⟨lease, pool', acquired⟩ := connects.2 outside
    rw [failed] at acquired
    cases acquired
  · refine ⟨done, same, ?_⟩
    cases framed with
    | refused _ refused => exact absurd refused granted
    | worked given before after =>
        rw [List.filterMap_append, List.filterMap_append, Exchange.insertion?_eq_nil before,
          Exchange.insertion?_eq_nil after, List.nil_append, List.append_nil]
        refine given fun call member => serve call ?_
        exact List.mem_append_left _ (List.mem_append_right _ member)
    | undone _ _ _ refused =>
        obtain ⟨call, member, fault⟩ := refused
        exact absurd ⟨call, List.mem_append_right _ member, fault⟩ granted

end Units
end Store
end EntityStore
