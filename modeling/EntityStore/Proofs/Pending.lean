/-
What the open transaction of a thread holds back. Its log, replayed on what is published,
leads to what its connection sees; this survives whatever other threads do, for while the
transaction has changes of its own nobody else can publish any.
-/

import EntityStore.Proofs.Insertions
import EntityStore.Proofs.Journals
import EntityStore.Proofs.Orderly

set_option autoImplicit false

namespace EntityStore

/-- A log without executions can be replayed on any contents, which it does not change. -/
theorem Ledger.Replays.reading {layout : Layout}
    {honest : Contents → Statement → List Row → Prop} {before after : Ledger} {log : List Event}
    (replays : Ledger.Replays layout honest before log after)
    (reads : ∀ event ∈ log, event.Reads) (contents : Contents) :
    after = before ∧ Ledger.Replays layout anyAnswer ⟨contents, before.lastId⟩ log
      ⟨contents, before.lastId⟩ := by
  induction replays with
  | nil ledger => exact ⟨rfl, .nil _⟩
  | @cons before between after event log step _ ih =>
      obtain ⟨same, replaysRest⟩ := ih fun other member => reads other (List.mem_cons_of_mem _ member)
      cases step with
      | executed _ => exact absurd rfl (reads _ List.mem_cons_self _)
      | answered _ => exact ⟨same, .cons (.answered trivial) replaysRest⟩
      | generated => exact ⟨same, .cons .generated replaysRest⟩
      | lookedUp table found => exact ⟨same, .cons (.lookedUp table found) replaysRest⟩

def Task.bounds : Task → Bool
  | begin | commit | rollback | close => true
  | _ => false

namespace Store

variable {World : Type} {layout : Layout} {database : Database World}
  {faithful : Faithful layout database} {store after : Store World} {thread other : ThreadId}
  {connection : ConnectionId} {log : List Event} {poses : Task → Prop} {ok : Bool}

structure Pending (faithful : Faithful layout database) (thread : ThreadId)
    (connection : ConnectionId) (log : List Event) (store : Store World) : Prop where
  serves : store.serving thread = some connection
  replays : ∃ start, Ledger.Replays layout anyAnswer
    ⟨faithful.published store.pool.world, start⟩ log
    (faithful.ledger store.pool.world connection)
  /-- A connection that has changed nothing has executed nothing. -/
  untouched : faithful.standing store.pool.world connection = .reading →
    ∀ event ∈ log, event.Reads

theorem serving_isSome (leased : store.Leased) :
    (store.serving thread).isSome = store.inTransaction thread := by
  unfold inTransaction
  cases inside : store.transaction? thread with
  | none =>
      rw [serving_eq_none inside]
      rfl
  | some transaction =>
      obtain ⟨connection, held⟩ := leased.connection inside
      rw [serving_eq_some inside held]
      rfl

theorem Pending.of_reading (serves : store.serving thread = some connection)
    (reading : faithful.standing store.pool.world connection = .reading) :
    Pending faithful thread connection [] store := by
  refine ⟨serves, ⟨faithful.lastId store.pool.world connection, ?_⟩,
    fun _ _ member => by cases member⟩
  unfold Perspective.ledger
  rw [Perspective.seen_of_reading reading]
  exact .nil _

/-- What is pending stays so as long as its connection stands where it stood, if nothing is
published while it has changes of its own. -/
theorem Pending.keep (pending : Pending faithful thread connection log store)
    (serves : after.serving thread = store.serving thread)
    (inside : faithful.standing store.pool.world connection ≠ .outside)
    (standing : faithful.standing after.pool.world connection
      = faithful.standing store.pool.world connection)
    (lastId : faithful.lastId after.pool.world connection
      = faithful.lastId store.pool.world connection)
    (locked : ∀ contents, faithful.standing store.pool.world connection = .writing contents →
      faithful.published after.pool.world = faithful.published store.pool.world) :
    Pending faithful thread connection log after := by
  obtain ⟨start, replays⟩ := pending.replays
  refine ⟨serves.trans pending.serves, ?_, fun reading =>
    pending.untouched (standing.symm.trans reading)⟩
  cases stands : faithful.standing store.pool.world connection with
  | outside => exact absurd stands inside
  | reading =>
      obtain ⟨same, replaysAfter⟩ := replays.reading (pending.untouched stands)
        (faithful.published after.pool.world)
      have sameId : faithful.lastId store.pool.world connection = start :=
        congrArg Ledger.lastId same
      refine ⟨start, ?_⟩
      unfold Perspective.ledger
      rw [Perspective.seen_of_reading (standing.trans stands), lastId, sameId]
      exact replaysAfter
  | writing contents =>
      refine ⟨start, ?_⟩
      have published := locked contents stands
      unfold Perspective.ledger at replays ⊢
      rw [published, Perspective.seen_eq published standing, lastId]
      exact replays

theorem Pending.work (pending : Pending faithful thread connection log store)
    (orderly : store.Orderly faithful) {more : List Event}
    (asked : Asked database (Question.Issued layout.Fits true) connection store.pool.world more
      after.pool.world)
    (serves : after.serving thread = store.serving thread) :
    Pending faithful thread connection (log ++ more) after ∧
      faithful.published after.pool.world = faithful.published store.pool.world := by
  have worked := Faithful.hasWorked_of_asked asked orderly.valid
    (orderly.not_outside pending.serves)
  obtain ⟨start, replays⟩ := pending.replays
  refine ⟨⟨serves.trans pending.serves, ⟨start, ?_⟩, fun reading => ?_⟩, worked.published⟩
  · rw [worked.published]
    exact replays.append (worked.replays.weaken fun _ _ _ _ => trivial)
  · obtain ⟨wasReading, reads⟩ := worked.untouched reading
    intro event member
    rcases List.mem_append.mp member with isEarlier | isLater
    · exact pending.untouched wasReading event isEarlier
    · exact reads event isLater

inductive Goes (faithful : Faithful layout database) (thread : ThreadId)
    (connection : ConnectionId) (log : List Event) (poses : Task → Prop) (store : Store World)
    (ok : Bool) (after : Store World) : Prop where
  /-- It has done more work, of which nothing is published. -/
  | on {more : List Event} :
      Asked database (Question.Issued layout.Fits true) connection store.pool.world more
        after.pool.world →
      Pending faithful thread connection (log ++ more) after →
      faithful.published after.pool.world = faithful.published store.pool.world →
      Goes faithful thread connection log poses store ok after
  /-- It is over, and nothing is published. -/
  | lost : ok = false ∨ poses .rollback ∨ poses .close → after.serving thread = none →
      faithful.published after.pool.world = faithful.published store.pool.world →
      Goes faithful thread connection log poses store ok after
  | committed : poses .commit → ok = true → after.serving thread = none →
      faithful.published after.pool.world = faithful.seen store.pool.world connection →
      Goes faithful thread connection log poses store ok after

theorem Pending.goes (pending : Pending faithful thread connection log store)
    (orderly : store.Orderly faithful) (turn : Turn faithful thread poses store ok after) :
    Goes faithful thread connection log poses store ok after := by
  have isInside {α : Prop} (outside : store.transaction? thread = none) : α := by
    have serves := pending.serves
    rw [serving_eq_none outside] at serves
    cases serves
  have serves {other : ConnectionId} (served : store.serving thread = some other) :
      other = connection := Option.some.inj (served.symm.trans pending.serves)
  have leaves (serving : ∀ other, after.serving other =
      if other = thread then none else store.serving other) : after.serving thread = none := by
    rw [serving, if_pos rfl]
  cases turn with
  | still world serving =>
      have asked : Asked database (Question.Issued layout.Fits true) connection store.pool.world []
          after.pool.world := world ▸ .done _
      obtain ⟨kept, published⟩ := pending.work orderly asked (serving thread)
      exact .on asked kept published
  | upkeep outside _ _ _ => exact isInside outside
  | failed outside _ _ _ _ => exact isInside outside
  | published outside _ _ _ _ => exact isInside outside
  | worked served asked serving =>
      cases serves served
      obtain ⟨kept, published⟩ := pending.work orderly asked (serving thread)
      exact .on asked kept published
  | begun _ _ outside _ _ _ _ => exact isInside outside
  | committed posed succeeded served _ _ publishes _ serving =>
      cases serves served
      exact .committed posed succeeded (leaves serving) publishes
  | ended uncommitted _ confined _ serving =>
      exact .lost (uncommitted.imp_right Or.inl) (leaves serving) confined.published
  | closed posed _ _ published _ serving =>
      exact .lost (Or.inr (Or.inr posed)) (serving thread) published

/-- Whatever turn another thread takes, the transaction stays pending unless the store is
closed. -/
theorem Pending.beside (pending : Pending faithful thread connection log store)
    (orderly : store.Orderly faithful) (leased : store.Leased) (apart : other ≠ thread)
    (turn : Turn faithful other poses store ok after) :
    Pending faithful thread connection log after ∨
      (poses .close ∧ after.serving thread = none ∧
        faithful.published after.pool.world = faithful.published store.pool.world) := by
  have inside := orderly.not_outside pending.serves
  have different {free : ConnectionId} (serves : store.serving other = some free) :
      connection ≠ free := by
    rintro rfl
    exact apart (serving_inj leased serves pending.serves)
  -- Whatever is done on another connection leaves the transaction pending, given that nothing
  -- is published while it writes.
  have besides {changed : ConnectionId} (isOther : connection ≠ changed)
      (kept : faithful.Besides changed store.pool.world after.pool.world)
      (serves : after.serving thread = store.serving thread)
      (locked : ∀ contents, faithful.standing store.pool.world connection = .writing contents →
        faithful.published after.pool.world = faithful.published store.pool.world) :
      Pending faithful thread connection log after :=
    pending.keep serves inside (kept.standing connection isOther) (kept.lastId connection isOther)
      locked
  have free {changed : ConnectionId} (unserved : ∀ thread, store.serving thread ≠ some changed) :
      connection ≠ changed := fun same => unserved thread (same ▸ pending.serves)
  have others {changed : Option ConnectionId} (serving : ∀ any, after.serving any =
      if any = other then changed else store.serving any) :
      after.serving thread = store.serving thread := by
    rw [serving, if_neg apart.symm]
  cases turn with
  | still world serving =>
      exact Or.inl (pending.keep (serving thread) inside (by rw [world]) (by rw [world])
        fun _ _ => by rw [world])
  | upkeep _ _ same serving =>
      exact Or.inl (pending.keep (serving thread) inside (same.standing connection)
        (same.lastId connection) fun _ _ => same.published)
  | failed _ unserved confined _ serving =>
      exact Or.inl (besides (free unserved) confined.besides (serving thread)
        fun _ _ => confined.published)
  | published _ unserved published _ serving =>
      exact Or.inl (besides (free unserved) published.besides (serving thread)
        fun contents writing => published.locked connection contents (free unserved) writing)
  | worked served asked serving =>
      have worked := Faithful.hasWorked_of_asked asked orderly.valid (orderly.not_outside served)
      exact Or.inl (besides (different served) worked.besides (serving thread)
        fun _ _ => worked.published)
  | begun _ _ _ unserved confined _ serving =>
      exact Or.inl (besides (free unserved) confined.besides (others serving)
        fun _ _ => confined.published)
  | @committed changed _ _ served _ kept publishes _ serving =>
      refine Or.inl (besides (different served) kept (others serving) fun contents writing => ?_)
      rw [publishes]
      cases stands : faithful.standing store.pool.world changed with
      | outside => exact absurd stands (orderly.not_outside served)
      | reading => exact Perspective.seen_of_reading stands
      | writing own =>
          exact absurd (faithful.single _ _ _ orderly.valid writing stands) (different served)
  | ended _ served confined _ serving =>
      exact Or.inl (besides (different served) confined.besides (others serving)
        fun _ _ => confined.published)
  | closed posed _ _ published _ serving =>
      exact Or.inr ⟨posed, serving thread, published⟩

/-- A turn leaves a thread outside of a transaction that is outside, unless the thread has
begun one. -/
theorem Turn.outside (turn : Turn faithful other poses store ok after)
    (outside : store.serving thread = none)
    (begins : other = thread → ¬(poses .begin ∧ ok = true)) : after.serving thread = none := by
  have leaves (serving : ∀ any, after.serving any =
      if any = other then none else store.serving any) : after.serving thread = none := by
    rw [serving, outside, ite_self]
  cases turn with
  | still _ serving => exact (serving thread).trans outside
  | upkeep _ _ _ serving => exact (serving thread).trans outside
  | failed _ _ _ _ serving => exact (serving thread).trans outside
  | published _ _ _ _ serving => exact (serving thread).trans outside
  | worked _ _ serving => exact (serving thread).trans outside
  | begun posed succeeded _ _ _ _ serving =>
      rw [serving, if_neg, outside]
      exact fun same => begins same.symm ⟨posed, succeeded⟩
  | committed _ _ _ _ _ _ _ serving => exact leaves serving
  | ended _ _ _ _ serving => exact leaves serving
  | closed _ _ _ _ _ serving => exact serving thread

/-! ### Courses -/

section Courses

variable {session : Session World} {faithful : Faithful layout session.database}
  (inner : ∀ task, poses task → task.bounds = false)
include inner

/-- What an operation does inside of the transaction of its thread: it does more work, of
which nothing is published, or it fails, which ends the transaction. -/
theorem Course.goes (course : Course session poses store ok after) (regular : store.Regular)
    (orderly : store.Orderly faithful)
    (fits : ∀ mapping ∈ after.registry.mappings, layout.Fits mapping)
    (pending : Pending faithful session.thread connection log store) :
    (∃ more, Asked session.database (Question.Issued layout.Fits true) connection
        store.pool.world more after.pool.world ∧
      Pending faithful session.thread connection (log ++ more) after ∧
      faithful.published after.pool.world = faithful.published store.pool.world) ∨
    (ok = false ∧ after.serving session.thread = none ∧
      faithful.published after.pool.world = faithful.published store.pool.world) := by
  induction course generalizing log with
  | ended =>
      exact Or.inl ⟨[], .done _, (List.append_nil log).symm ▸ pending, rfl⟩
  | failed stage =>
      have turn := stage.turn regular orderly (stage.grows.forall_registered fits)
      cases pending.goes orderly turn with
      | on asked kept published => exact Or.inl ⟨_, asked, kept, published⟩
      | lost _ outside published => exact Or.inr ⟨rfl, outside, published⟩
      | committed posed _ _ _ => cases inner _ posed
  | went stage rest ih =>
      have turn := stage.turn regular orderly
        (stage.grows.forall_registered (rest.grows.forall_registered fits))
      cases pending.goes orderly turn with
      | on asked kept published =>
          rcases ih (fun _ impossible => impossible.elim) (stage.regular regular)
            (turn.orderly orderly regular.leased) fits kept with
            ⟨more, askedRest, keptRest, publishedRest⟩ | ⟨failed, outside, publishedRest⟩
          · rw [List.append_assoc] at keptRest
            exact Or.inl ⟨_, asked.append askedRest, keptRest, publishedRest.trans published⟩
          · exact Or.inr ⟨failed, outside, publishedRest.trans published⟩
      | lost cause _ _ =>
          rcases cause with impossible | posed | posed
          · cases impossible
          · cases inner _ posed
          · cases inner _ posed
      | committed posed _ _ _ => cases inner _ posed

/-- An operation of another thread does not concern the transaction. -/
theorem Course.beside (course : Course session poses store ok after) (regular : store.Regular)
    (orderly : store.Orderly faithful)
    (fits : ∀ mapping ∈ after.registry.mappings, layout.Fits mapping)
    (apart : session.thread ≠ thread)
    (pending : Pending faithful thread connection log store) :
    Pending faithful thread connection log after := by
  induction course with
  | ended => exact pending
  | failed stage =>
      have turn := stage.turn regular orderly (stage.grows.forall_registered fits)
      rcases pending.beside orderly regular.leased apart turn with kept | ⟨posed, _⟩
      · exact kept
      · cases inner _ posed
  | went stage rest ih =>
      have turn := stage.turn regular orderly
        (stage.grows.forall_registered (rest.grows.forall_registered fits))
      rcases pending.beside orderly regular.leased apart turn with kept | ⟨posed, _⟩
      · exact ih (fun _ impossible => impossible.elim) (stage.regular regular)
          (turn.orderly orderly regular.leased) fits kept
      · cases inner _ posed

/-- An operation leaves threads outside of a transaction that are outside. -/
theorem Course.outside (course : Course session poses store ok after) (regular : store.Regular)
    (orderly : store.Orderly faithful)
    (fits : ∀ mapping ∈ after.registry.mappings, layout.Fits mapping)
    (outside : store.serving thread = none) : after.serving thread = none := by
  have noBegin {any : Prop} (posed : poses .begin ∧ any) : False := by cases inner _ posed.1
  induction course with
  | ended => exact outside
  | failed stage =>
      have turn := stage.turn regular orderly (stage.grows.forall_registered fits)
      exact turn.outside outside fun _ => noBegin
  | went stage rest ih =>
      have turn := stage.turn regular orderly
        (stage.grows.forall_registered (rest.grows.forall_registered fits))
      exact ih (fun _ impossible => impossible.elim) (stage.regular regular)
        (turn.orderly orderly regular.leased) fits (turn.outside outside fun _ => noBegin)
        fun posed => posed.1.elim

end Courses

end Store
end EntityStore
