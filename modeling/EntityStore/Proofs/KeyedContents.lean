/-
Rows under the ids in their key columns, in all contents of a database with transactions: in
what is published and in what single connections see. Every turn keeps this, so a thread sees
such rows whatever was done before.
-/

import EntityStore.Proofs.Coherence

set_option autoImplicit false

namespace EntityStore

structure Perspective.Keyed {World : Type} (view : Perspective World) (layout : Layout)
    (world : World) : Prop where
  published : layout.Keyed (view.published world)
  writing : ∀ connection contents, view.standing world connection = .writing contents →
    layout.Keyed contents

namespace Perspective.Keyed

variable {World : Type} {view : Perspective World} {layout : Layout} {before after : World}
  {connection : ConnectionId} (keyed : view.Keyed layout before)
include keyed

private theorem seen (connection : ConnectionId) : layout.Keyed (view.seen before connection) := by
  cases stands : view.standing before connection with
  | outside => exact seen_of_outside stands ▸ keyed.published
  | reading => exact seen_of_reading stands ▸ keyed.published
  | writing contents => exact seen_of_writing stands ▸ keyed.writing connection contents stands

private theorem same (same : view.Same before after) : view.Keyed layout after :=
  ⟨same.published ▸ keyed.published,
    fun connection contents stands =>
      keyed.writing connection contents ((same.standing connection).symm.trans stands)⟩

/-- A connection that has come to be outside of transactions has no contents of its own. -/
theorem besides (besides : view.Besides connection before after)
    (published : layout.Keyed (view.published after))
    (outside : view.standing after connection = .outside) : view.Keyed layout after := by
  refine ⟨published, fun other contents stands => ?_⟩
  by_cases same : other = connection
  · rw [same, outside] at stands
    cases stands
  · exact keyed.writing other contents ((besides.standing other same).symm.trans stands)

end Perspective.Keyed

theorem Faithful.HasWorked.keyed {World : Type} {layout : Layout} {database : Database World}
    {faithful : Faithful layout database} {connection : ConnectionId} {before after : World}
    {log : List Event} (worked : faithful.HasWorked connection before log after)
    (keyed : faithful.Keyed layout before)
    (conforms : ∀ statement, .executed statement ∈ log → statement.Conforms layout.Fits) :
    faithful.Keyed layout after := by
  refine ⟨worked.published ▸ keyed.published, fun other contents stands => ?_⟩
  by_cases same : other = connection
  · rw [same] at stands
    have replayed : layout.Keyed (faithful.seen after connection) :=
      (show layout.Keyed (faithful.ledger before connection).contents from
        keyed.seen connection).replays conforms worked.replays
    exact Perspective.seen_of_writing stands ▸ replayed
  · exact keyed.writing other contents ((worked.besides.standing other same).symm.trans stands)

/-- A thread sees what is published or what its connection sees. -/
theorem Perspective.Keyed.view {World : Type} {layout : Layout} {database : Database World}
    {faithful : Faithful layout database} {store : Store World}
    (keyed : faithful.Keyed layout store.pool.world) (thread : ThreadId) :
    layout.Keyed (store.view faithful thread) := by
  cases serves : store.serving thread with
  | none =>
      unfold Store.view
      rw [serves]
      exact keyed.published
  | some connection => exact Store.view_of_serving serves ▸ keyed.seen connection

namespace Store

variable {World : Type} {layout : Layout} {session : Session World}
  {faithful : Faithful layout session.database} {store after : Store World} {thread : ThreadId}
  {poses : Task → Prop} {ok : Bool}

theorem Turn.keyed (turn : Turn faithful thread poses store ok after)
    (orderly : store.Orderly faithful) (keyed : faithful.Keyed layout store.pool.world) :
    faithful.Keyed layout after.pool.world := by
  cases turn with
  | still world _ => exact world ▸ keyed
  | upkeep _ _ same _ => exact keyed.same same
  | failed _ _ confined outside _ =>
      exact keyed.besides confined.besides (confined.published ▸ keyed.published) outside
  | published _ _ published conforms _ =>
      obtain ⟨_, _, replays⟩ := published.replayed
      exact keyed.besides published.besides (keyed.published.replays conforms replays)
        published.outside
  | worked serves asked _ =>
      exact (Faithful.hasWorked_of_asked asked orderly.valid
        (orderly.not_outside serves)).keyed keyed asked.conforms
  | @begun connection _ _ _ _ confined reading _ =>
      -- A transaction that has begun has no contents of its own yet.
      refine ⟨confined.published ▸ keyed.published, fun other contents stands => ?_⟩
      by_cases same : other = connection
      · rw [same, reading] at stands
        cases stands
      · exact keyed.writing other contents
          ((confined.besides.standing other same).symm.trans stands)
  | @committed connection _ _ _ _ besides publishes outside _ =>
      exact keyed.besides besides (publishes ▸ keyed.seen connection) outside
  | ended _ _ confined outside _ =>
      exact keyed.besides confined.besides (confined.published ▸ keyed.published) outside
  | closed _ _ _ published outside _ =>
      refine ⟨published ▸ keyed.published, fun connection contents stands => ?_⟩
      rw [outside] at stands
      cases stands

theorem Course.keyed (course : Course session poses store ok after) (regular : store.Regular)
    (orderly : store.Orderly faithful)
    (fits : ∀ mapping ∈ after.registry.mappings, layout.Fits mapping)
    (keyed : faithful.Keyed layout store.pool.world) : faithful.Keyed layout after.pool.world := by
  induction course with
  | ended => exact keyed
  | failed stage =>
      exact (stage.turn regular orderly (stage.grows.forall_registered fits)).keyed orderly keyed
  | went stage rest ih =>
      have turn := stage.turn regular orderly
        (stage.grows.forall_registered (rest.grows.forall_registered fits))
      exact ih (stage.regular regular) (turn.orderly orderly regular.leased) fits
        (turn.keyed orderly keyed)

end Store

/-- From a database at rest with rows under their ids, no store is reached that sees others. -/
theorem Deployment.Reached.keyed {World : Type} {layout : Layout} {deployment : Deployment World}
    {faithful : Faithful layout deployment.database}
    {allowed : Store World → ThreadId → Action → Prop} {store : Store World}
    (rest : faithful.AtRest deployment.world)
    (keyed : layout.Keyed (faithful.published deployment.world))
    (reached : deployment.Reached allowed store)
    (fits : ∀ mapping ∈ store.registry.mappings, layout.Fits mapping) :
    faithful.Keyed layout store.pool.world := by
  induction reached with
  | created created =>
      obtain ⟨pool, made, rfl⟩ := create_ok created
      obtain ⟨_, same⟩ := Faithful.same_create rest.valid made
      refine ⟨same.published ▸ keyed, fun connection contents stands => ?_⟩
      rw [show faithful.standing pool.world connection = .outside from
        (same.standing connection).trans (rest.outside connection)] at stands
      cases stands
  | @acted store after thread action outcome reached _ inMemory ran ih =>
      have regular := reached.regular
      have course := (Action.follows_perform regular inMemory).of_run ran
      have fitsBefore : ∀ mapping ∈ store.registry.mappings, layout.Fits mapping :=
        course.grows.forall_registered fits
      exact @Store.Course.keyed _ _ (deployment.session thread) _ _ _ _ _ course regular
        (reached.orderly rest fitsBefore) fits (ih fitsBefore)

end EntityStore
