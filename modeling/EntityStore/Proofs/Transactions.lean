/-
An explicit transaction is all or nothing as long as it lasts. What its thread executes is
published by a commit that succeeds, all of it and at once, and by nothing else. An
operation that fails in the database ends the transaction with everything in it; then no
call that closes it succeeds any more.
-/

import EntityStore.Proofs.Pending
import EntityStore.Proofs.Runs

set_option autoImplicit false

namespace EntityStore
namespace Action

variable {World : Type} {layout : Layout} {session : Session World} {store after : Store World}
  {action : Action} {task : Task}

def boundary? : Action → Option Task
  | begin => some .begin
  | commit => some .commit
  | rollback => some .rollback
  | close => some .close
  | _ => none

/-- All other actions work inside of transactions. -/
theorem works_of_boundary? (other : action.boundary? = none) :
    ∀ task, action.Poses session store task → task.bounds = false := by
  intro task posed
  cases action with
  | sync =>
      cases posed
      rfl
  | drop =>
      cases posed
      rfl
  | save subject =>
      obtain ⟨graph, _, rfl⟩ := posed
      rfl
  | remove subject =>
      cases posed
      rfl
  | begin => cases other
  | commit => cases other
  | rollback => cases other
  | close => cases other
  | _ => exact posed.elim

private theorem turn_of_boundary? {faithful : Faithful layout session.database}
    (bounds : action.boundary? = some task) (regular : store.Regular)
    (orderly : store.Orderly faithful) {outcome : Except Error Unit}
    (ran : (action.perform session).run store = (outcome, after)) :
    Store.Turn faithful session.thread (· = task) store outcome.isOk after := by
  cases action with
  | begin =>
      cases bounds
      exact Store.turn_begin rfl regular orderly
        ((Store.ensures_beginTransaction session store).of_run ran)
  | commit =>
      cases bounds
      exact Store.turn_commit rfl regular orderly
        ((Store.ensures_commitTransaction fun _ inside =>
          regular.leased.connection inside).of_run ran)
  | rollback =>
      cases bounds
      exact Store.turn_rollback rfl regular orderly
        ((Store.ensures_rollbackTransaction fun _ inside =>
          regular.leased.connection inside).of_run ran)
  | close =>
      cases bounds
      obtain ⟨closed, ends, ranClose⟩ := Store.run_close session store
      have same : (outcome, after) = (.ok (), closed) := ran.symm.trans ranClose
      cases same
      exact Store.turn_close rfl regular orderly ends
  | _ => cases bounds

end Action

/-! ### Acts -/

namespace Deployment

section Acts

variable {World : Type} {layout : Layout} {deployment : Deployment World}
  {faithful : Faithful layout deployment.database} {store after : Store World}
  {thread other : ThreadId} {action : Action} {outcome : Except Error Unit}
  {connection : ConnectionId} {log : List Event}
  (regular : store.Regular) (orderly : store.Orderly faithful)
  (fits : ∀ mapping ∈ after.registry.mappings, layout.Fits mapping)
  (inMemory : action.InMemory store.memory.size)
  (ran : (action.perform (deployment.session other)).run store = (outcome, after))
include regular orderly fits inMemory ran

/-- An act of the thread in its transaction: work of which nothing is published, or the
end of the transaction. -/
theorem goes_of_act (same : other = thread)
    (pending : Store.Pending faithful thread connection log store)
    (stays : action ≠ .commit ∧ action ≠ .rollback) :
    (∃ more, Asked deployment.database (Question.Issued layout.Fits true) connection
        store.pool.world more after.pool.world ∧
      Store.Pending faithful thread connection (log ++ more) after ∧
      faithful.published after.pool.world = faithful.published store.pool.world) ∨
    ((outcome.isOk = false ∨ action = .close) ∧ after.serving thread = none ∧
      faithful.published after.pool.world = faithful.published store.pool.world) := by
  subst same
  cases bounds : action.boundary? with
  | none =>
      have course := (Action.follows_perform regular inMemory).of_run ran
      rcases @Store.Course.goes _ _ _ _ _ _ _ _ (deployment.session other) _
        (Action.works_of_boundary? bounds) course regular orderly fits pending with
        goesOn | ⟨failed, outside, published⟩
      · exact Or.inl goesOn
      · exact Or.inr ⟨Or.inl failed, outside, published⟩
  | some task =>
      have turn := @Action.turn_of_boundary? _ _ (deployment.session other) _ _ _ _ _ bounds
        regular orderly _ ran
      cases pending.goes orderly turn with
      | on asked kept published => exact Or.inl ⟨_, asked, kept, published⟩
      | lost cause outside published =>
          refine Or.inr ⟨?_, outside, published⟩
          rcases cause with failed | rfl | rfl
          · exact Or.inl failed
          · cases action <;> cases bounds
            exact absurd rfl stays.2
          · cases action <;> cases bounds
            exact Or.inr rfl
      | committed posed _ _ _ =>
          subst posed
          cases action <;> cases bounds
          exact absurd rfl stays.1

omit fits inMemory in
private theorem published_of_close (closes : action = .close) :
    faithful.published after.pool.world = faithful.published store.pool.world := by
  subst closes
  obtain ⟨closed, ends, ranClose⟩ := Store.run_close (deployment.session other) store
  have same : (outcome, after) = (.ok (), closed) := ran.symm.trans ranClose
  cases same
  exact @Store.published_of_closes _ _ (deployment.session other) _ _ _ regular orderly ends

private theorem beside_of_act (apart : other ≠ thread)
    (pending : Store.Pending faithful thread connection log store) :
    Store.Pending faithful thread connection log after ∨
      (action = .close ∧ after.serving thread = none) := by
  cases bounds : action.boundary? with
  | none =>
      have course := (Action.follows_perform regular inMemory).of_run ran
      exact Or.inl (@Store.Course.beside _ _ _ _ _ _ _ _ _ (deployment.session other) _
        (Action.works_of_boundary? bounds) course regular orderly fits apart pending)
  | some task =>
      have turn := @Action.turn_of_boundary? _ _ (deployment.session other) _ _ _ _ _ bounds
        regular orderly _ ran
      rcases pending.beside orderly regular.leased apart turn with kept | ⟨rfl, outside, _⟩
      · exact Or.inl kept
      · cases action <;> cases bounds
        exact Or.inr ⟨rfl, outside⟩

private theorem outside_of_act (outside : store.serving thread = none)
    (begins : other = thread → action = .begin → outcome.isOk = false) :
    after.serving thread = none := by
  cases bounds : action.boundary? with
  | none =>
      have course := (Action.follows_perform regular inMemory).of_run ran
      exact @Store.Course.outside _ _ _ _ _ _ _ (deployment.session other) _
        (Action.works_of_boundary? bounds) course regular orderly fits outside
  | some task =>
      have turn := @Action.turn_of_boundary? _ _ (deployment.session other) _ _ _ _ _ bounds
        regular orderly _ ran
      refine turn.outside outside fun same began => ?_
      obtain ⟨rfl, succeeded⟩ := began
      cases action <;> cases bounds
      rw [begins same rfl] at succeeded
      cases succeeded

end Acts

/-! ### Runs -/

theorem orderly_of_run {World : Type} {layout : Layout} {deployment : Deployment World}
    {faithful : Faithful layout deployment.database} {store after : Store World}
    {acts : List (Act World)} (run : deployment.Run store acts after) (regular : store.Regular)
    (orderly : store.Orderly faithful)
    (fits : ∀ mapping ∈ after.registry.mappings, layout.Fits mapping) : after.Orderly faithful := by
  induction run with
  | nil store => exact orderly
  | cons inMemory ran later ih =>
      have regularBetween := ((Action.follows_perform regular inMemory).of_run ran).regular regular
      have fitsBetween := fun mapping member =>
        fits mapping ((later.grows regularBetween).registered mapping member)
      exact ih regularBetween (orderly_of_act regular orderly fitsBetween inMemory ran) fits

section Runs

variable {World : Type}

def logOf (store : Store (Journaled World)) (act : Act (Journaled World)) : List Event :=
  (act.after.pool.world.journal.drop store.pool.world.journal.length).map Prod.snd

def noted (thread : ThreadId) :
    Store (Journaled World) → List (Act (Journaled World)) → List Event
  | _, [] => []
  | store, act :: rest =>
      (if act.thread = thread then logOf store act else []) ++ noted thread act.after rest

def Withheld (view : Perspective World) (thread : ThreadId) :
    Store World → List (Act World) → Prop
  | _, [] => True
  | store, act :: rest =>
      ((act.thread = thread ∨ act.action = .close) →
        view.published act.after.pool.world = view.published store.pool.world) ∧
      Withheld view thread act.after rest

def Breaks (thread : ThreadId) (act : Act World) : Prop :=
  (act.thread = thread ∧ act.outcome.isOk = false) ∨ act.action = .close

inductive Goes {layout : Layout} {inner : Deployment World}
    (faithful : Faithful layout inner.database) (thread : ThreadId) (connection : ConnectionId)
    (log : List Event) (opened : Store (Journaled World)) (acts : List (Act (Journaled World)))
    (closing : Store (Journaled World)) : Prop where
  | on : @Store.Pending _ _ inner.journaled.database faithful.journaled thread connection
        (log ++ noted thread opened acts) closing →
      Withheld faithful.toPerspective.journaled thread opened acts →
      Goes faithful thread connection log opened acts closing
  | broken {earlier later : List (Act (Journaled World))} {act : Act (Journaled World)} :
      acts = earlier ++ act :: later →
      Withheld faithful.toPerspective.journaled thread opened (earlier ++ [act]) →
      Breaks thread act → act.after.serving thread = none → act.after.Regular →
      @Store.Orderly _ _ inner.journaled.database faithful.journaled act.after →
      inner.journaled.Run act.after later closing →
      Goes faithful thread connection log opened acts closing

variable {layout : Layout} {inner : Deployment World} {faithful : Faithful layout inner.database}
  {thread : ThreadId} {connection : ConnectionId} {log : List Event}
  {store opened closing : Store (Journaled World)} {acts : List (Act (Journaled World))}

theorem logOf_eq {act : Act (Journaled World)} {issued : Question → Prop} {more : List Event}
    (asked : Asked inner.journaled.database issued connection store.pool.world more
      act.after.pool.world) : logOf store act = more := by
  unfold logOf
  rw [@Journaled.journal_asked _ inner.database _ _ _ _ _ asked, List.drop_left, List.map_map]
  exact List.map_id' more

theorem goes_of_run (run : inner.journaled.Run opened acts closing)
    (regular : opened.Regular)
    (orderly : @Store.Orderly _ _ inner.journaled.database faithful.journaled opened)
    (fits : ∀ mapping ∈ closing.registry.mappings, layout.Fits mapping)
    (stays : ∀ act ∈ acts, act.thread = thread → act.action ≠ .commit ∧ act.action ≠ .rollback)
    (pending : @Store.Pending _ _ inner.journaled.database faithful.journaled thread
      connection log opened) :
    Goes faithful thread connection log opened acts closing := by
  -- The induction is on the run: an act of the thread adds to the log, an act of another one leaves
  -- what is pending as it is.
  induction run generalizing log with
  | nil store => exact .on ((List.append_nil log).symm ▸ pending) trivial
  | @cons store between after other action outcome rest inMemory ran later ih =>
      have course := (Action.follows_perform regular inMemory).of_run ran
      have regularBetween := course.regular regular
      have fitsBetween : ∀ mapping ∈ between.registry.mappings, layout.Fits mapping :=
        fun mapping member => fits mapping ((later.grows regularBetween).registered mapping member)
      have orderlyBetween := orderly_of_act regular orderly fitsBetween inMemory ran
      have withheldEnd (published : faithful.published between.pool.world.world
          = faithful.published store.pool.world.world) :
          Withheld faithful.toPerspective.journaled thread store
            ([] ++ [⟨other, action, outcome, between⟩]) := ⟨fun _ => published, trivial⟩
      -- Where the transaction goes on, the act adds its part to what becomes of the rest.
      have further {more : List Event}
          (kept : @Store.Pending _ _ inner.journaled.database faithful.journaled thread
            connection (log ++ more) between)
          (noted : (if other = thread then logOf store ⟨other, action, outcome, between⟩ else [])
            = more)
          (published : (other = thread ∨ action = .close) →
            faithful.published between.pool.world.world
              = faithful.published store.pool.world.world) :
          Goes faithful thread connection log store (⟨other, action, outcome, between⟩ :: rest)
            after := by
        cases ih regularBetween orderlyBetween fits
          (fun act member => stays act (List.mem_cons_of_mem _ member)) kept with
        | on pendingAfter withheld =>
            refine .on ?_ ⟨published, withheld⟩
            rw [List.append_assoc] at pendingAfter
            unfold Deployment.noted
            rw [noted]
            exact pendingAfter
        | broken split withheld breaks outside regularAct orderlyAct laterAct =>
            refine @Goes.broken _ _ _ _ _ _ _ _ _ _ (⟨other, action, outcome, between⟩ :: _) _ _
              (congrArg (List.cons _) split) ⟨published, withheld⟩ breaks outside
              regularAct orderlyAct laterAct
      by_cases same : other = thread
      · rcases goes_of_act regular orderly fitsBetween inMemory ran same pending
          (stays _ List.mem_cons_self same) with
          ⟨more, asked, kept, published⟩ | ⟨cause, outside, published⟩
        · refine further kept ?_ fun _ => published
          rw [if_pos same]
          exact logOf_eq asked
        · exact .broken rfl (withheldEnd published) (cause.imp_left fun failed => ⟨same, failed⟩)
            outside regularBetween orderlyBetween later
      · rcases beside_of_act regular orderly fitsBetween inMemory ran same pending with
          kept | ⟨closes, outside⟩
        · rw [← List.append_nil log] at kept
          refine further kept (if_neg same) fun cause => ?_
          exact published_of_close regular orderly ran (cause.resolve_left same)
        · exact .broken rfl (withheldEnd (published_of_close regular orderly ran closes))
            (Or.inr closes) outside regularBetween orderlyBetween later

/-- A thread that is outside of a transaction stays outside through a run in which it does
not begin one. -/
theorem outside_of_run (run : inner.journaled.Run store acts closing) (regular : store.Regular)
    (orderly : @Store.Orderly _ _ inner.journaled.database faithful.journaled store)
    (fits : ∀ mapping ∈ closing.registry.mappings, layout.Fits mapping)
    (begins : ∀ act ∈ acts, act.thread = thread → act.action = .begin → act.outcome.isOk = false)
    (outside : store.serving thread = none) : closing.serving thread = none := by
  induction run with
  | nil store => exact outside
  | @cons store between after other action outcome rest inMemory ran later ih =>
      have regularBetween := ((Action.follows_perform regular inMemory).of_run ran).regular regular
      have fitsBetween : ∀ mapping ∈ between.registry.mappings, layout.Fits mapping :=
        fun mapping member => fits mapping ((later.grows regularBetween).registered mapping member)
      have outsideBetween := outside_of_act regular orderly fitsBetween inMemory ran outside
        (begins _ List.mem_cons_self)
      exact ih regularBetween (orderly_of_act regular orderly fitsBetween inMemory ran) fits
        (fun act member => begins act (List.mem_cons_of_mem _ member)) outsideBetween

end Runs

end Deployment

/-! ### Closing calls -/

namespace Store

variable {World α : Type} {layout : Layout} {session : Session World}
  {faithful : Faithful layout session.database} {store opened closing after : Store World}
  {connection : ConnectionId} {log : List Event}

/-- What a call that closes a transaction makes of what is published: with a commit that
succeeded, what the log says; else nothing. -/
def Settles (view : Perspective World) (layout : Layout) (log : List Event)
    (closing after : Store World) : Bool → Prop
  | true => ∃ start final, Ledger.Replays layout anyAnswer
      ⟨view.published closing.pool.world, start⟩ log ⟨view.published after.pool.world, final⟩
  | false => view.published after.pool.world = view.published closing.pool.world

private theorem settles_commit {outcome : Except Error Unit} (regular : closing.Regular)
    (orderly : closing.Orderly faithful)
    (pending : Pending faithful session.thread connection log closing)
    (ran : (commitTransaction session).run closing = (outcome, after)) :
    Settles faithful.toPerspective layout log closing after outcome.isOk := by
  have ends := (ensures_commitTransaction fun _ inside =>
    regular.leased.connection inside).of_run ran
  cases outcome with
  | ok done =>
      obtain ⟨served, serves, publishes⟩ := published_of_commits orderly ends
      cases Option.some.inj (serves.symm.trans pending.serves)
      obtain ⟨start, replays⟩ := pending.replays
      refine ⟨start, faithful.lastId closing.pool.world connection, ?_⟩
      rw [publishes]
      exact replays
  | error error =>
      have turn := @turn_commit _ _ _ _ _ _ (· = .commit) _ rfl regular orderly ends
      cases pending.goes orderly turn with
      | on _ _ published => exact published
      | lost _ _ published => exact published
      | committed _ succeeded _ _ => cases succeeded

private theorem settles_rollback {outcome : Except Error Unit} (regular : closing.Regular)
    (orderly : closing.Orderly faithful)
    (pending : Pending faithful session.thread connection log closing)
    (ran : (rollbackTransaction session).run closing = (outcome, after)) :
    Settles faithful.toPerspective layout log closing after false := by
  have ends := (ensures_rollbackTransaction fun _ inside =>
    regular.leased.connection inside).of_run ran
  have turn := @turn_rollback _ _ _ _ _ _ (· = .rollback) _ rfl regular orderly ends
  cases pending.goes orderly turn with
  | on _ _ published => exact published
  | lost _ _ published => exact published
  | committed impossible _ _ _ => cases impossible

theorem run_transaction {body : Operation World α} {result : Except Error α}
    (begun : (beginTransaction session).run store = (.ok (), opened))
    (ran : body.run opened = (result, closing)) :
    (transaction session body).run store = (concludeTransaction session result).run closing := by
  unfold transaction
  rw [run_bind, begun]
  simp only
  rw [run_bind, run_attempt, ran]

theorem run_conclude_ok (result : α) (closing : Store World) :
    (concludeTransaction session (.ok result)).run closing =
      (((commitTransaction session).run closing).1.map fun _ => result,
        ((commitTransaction session).run closing).2) := by
  unfold concludeTransaction
  simp only
  rw [run_bind]
  rcases (commitTransaction session).run closing with ⟨outcome, after⟩
  cases outcome <;> rfl

/-- Operations that failed are concluded by a rollback if the transaction is still open. -/
theorem run_conclude_error (error : Error) (closing : Store World) :
    (concludeTransaction session (.error error : Except Error α)).run closing =
      (.error error, if closing.inTransaction session.thread then
        ((rollbackTransaction session).run closing).2 else closing) := by
  unfold concludeTransaction
  simp only
  rw [run_bind, run_get]
  cases inside : closing.inTransaction session.thread with
  | true =>
      simp only [inside, ↓reduceIte]
      rw [run_bind, run_attempt]
      rfl
  | false =>
      simp only [inside, Bool.false_eq_true, ↓reduceIte]
      rfl

private theorem refuses_commit {outcome : Except Error Unit}
    (outside : closing.transaction? session.thread = none)
    (ran : (commitTransaction session).run closing = (outcome, after)) :
    outcome.isOk = false ∧ after = closing := by
  have ends := (@ensures_commitTransaction _ session _ fun transaction inside => by
    rw [outside] at inside
    cases inside).of_run ran
  cases ends with
  | closed _ => exact ⟨rfl, rfl⟩
  | notOpen _ _ => exact ⟨rfl, rfl⟩
  | committed _ inside _ _ =>
      rw [outside] at inside
      cases inside
  | refused _ inside _ _ _ =>
      rw [outside] at inside
      cases inside

private theorem refuses_rollback {outcome : Except Error Unit}
    (outside : closing.transaction? session.thread = none)
    (ran : (rollbackTransaction session).run closing = (outcome, after)) :
    outcome.isOk = false ∧ after = closing := by
  have ends := (@ensures_rollbackTransaction _ session _ fun transaction inside => by
    rw [outside] at inside
    cases inside).of_run ran
  cases ends with
  | closed _ => exact ⟨rfl, rfl⟩
  | notOpen _ _ => exact ⟨rfl, rfl⟩
  | rolledBack _ inside _ _ =>
      rw [outside] at inside
      cases inside

end Store

/-! ### All or nothing -/

namespace Deployment

variable {World : Type} {layout : Layout} {inner : Deployment World}

/-- A transaction that lasts until it is closed: its thread has published nothing by then.
A commit that succeeds publishes what the thread executed, and any other end nothing. -/
structure Lasts (faithful : Faithful layout inner.database) (thread : ThreadId)
    (store opened : Store (Journaled World)) (acts : List (Act (Journaled World)))
    (closing : Store (Journaled World)) : Prop where
  inside : closing.inTransaction thread = true
  withheld : Withheld faithful.toPerspective.journaled thread opened acts
  commits : ∀ outcome after,
    (Store.commitTransaction (inner.journaled.session thread)).run closing = (outcome, after) →
    Store.Settles faithful.toPerspective.journaled layout (noted thread opened acts) closing after
      outcome.isOk
  rollsBack : ∀ outcome after,
    (Store.rollbackTransaction (inner.journaled.session thread)).run closing = (outcome, after) →
    Store.Settles faithful.toPerspective.journaled layout (noted thread opened acts) closing after
      false
  /-- The transaction of operations that were run in it. -/
  concludes : ∀ (α : Type) (body : Operation (Journaled World) α) result outcome after,
    body.run opened = (result, closing) →
    (Store.transaction (inner.journaled.session thread) body).run store = (outcome, after) →
    Store.Settles faithful.toPerspective.journaled layout (noted thread opened acts) closing after
      outcome.isOk

/-- A transaction that an act has ended with all that was done in it. Unless the thread
begins another one, the calls that were to close it fail and change nothing. -/
structure Broken (faithful : Faithful layout inner.database) (thread : ThreadId)
    (store opened : Store (Journaled World)) (earlier : List (Act (Journaled World)))
    (act : Act (Journaled World)) (later : List (Act (Journaled World)))
    (closing : Store (Journaled World)) : Prop where
  withheld : Withheld faithful.toPerspective.journaled thread opened (earlier ++ [act])
  breaks : Breaks thread act
  outside : act.after.inTransaction thread = false
  refuses :
    (∀ act ∈ later, act.thread = thread → act.action = .begin → act.outcome.isOk = false) →
    (∀ outcome after,
      (Store.commitTransaction (inner.journaled.session thread)).run closing = (outcome, after) ∨
        (Store.rollbackTransaction (inner.journaled.session thread)).run closing
          = (outcome, after) →
      outcome.isOk = false ∧ after = closing) ∧
    ∀ (α : Type) (body : Operation (Journaled World) α) result outcome after,
      body.run opened = (result, closing) →
      (Store.transaction (inner.journaled.session thread) body).run store = (outcome, after) →
      outcome.isOk = false ∧ after = closing

variable {faithful : Faithful layout inner.database} {thread : ThreadId}
  {connection : ConnectionId} {store opened closing : Store (Journaled World)}
  {acts : List (Act (Journaled World))}

private theorem lasts_of_pending
    (begun : (Store.beginTransaction (inner.journaled.session thread)).run store
      = (.ok (), opened))
    (regular : closing.Regular)
    (orderly : @Store.Orderly _ _ inner.journaled.database faithful.journaled closing)
    (pending : @Store.Pending _ _ inner.journaled.database faithful.journaled thread
      connection (noted thread opened acts) closing)
    (withheld : Withheld faithful.toPerspective.journaled thread opened acts) :
    Lasts faithful thread store opened acts closing := by
  have inside : closing.inTransaction thread = true := by
    rw [← Store.serving_isSome regular.leased, pending.serves]
    rfl
  have commits (outcome : Except Error Unit) (after : Store (Journaled World)) :=
    @Store.settles_commit _ _ (inner.journaled.session thread) _ _ after _ _ outcome
      regular orderly pending
  have rollsBack (outcome : Except Error Unit) (after : Store (Journaled World)) :=
    @Store.settles_rollback _ _ (inner.journaled.session thread) _ _ after _ _ outcome
      regular orderly pending
  refine ⟨inside, withheld, commits, rollsBack, ?_⟩
  intro α body result outcome after ranBody ran
  rw [Store.run_transaction begun ranBody] at ran
  cases result with
  | ok result =>
      rcases committed : (Store.commitTransaction (inner.journaled.session thread)).run closing
        with ⟨answer, left⟩
      rw [Store.run_conclude_ok, committed] at ran
      obtain ⟨rfl, rfl⟩ := Prod.mk.inj ran
      have settles := commits answer left committed
      cases answer <;> exact settles
  | error error =>
      rcases rolledBack : (Store.rollbackTransaction (inner.journaled.session thread)).run closing
        with ⟨answer, left⟩
      have open' : closing.inTransaction (inner.journaled.session thread).thread = true := inside
      rw [Store.run_conclude_error, rolledBack, open'] at ran
      obtain ⟨rfl, rfl⟩ := Prod.mk.inj ran
      exact rollsBack answer left rolledBack

private theorem refuses_of_outside
    (begun : (Store.beginTransaction (inner.journaled.session thread)).run store
      = (.ok (), opened))
    (regular : closing.Regular) (outside : closing.serving thread = none) :
    (∀ outcome after,
      (Store.commitTransaction (inner.journaled.session thread)).run closing = (outcome, after) ∨
        (Store.rollbackTransaction (inner.journaled.session thread)).run closing
          = (outcome, after) →
      outcome.isOk = false ∧ after = closing) ∧
    ∀ (α : Type) (body : Operation (Journaled World) α) result outcome after,
      body.run opened = (result, closing) →
      (Store.transaction (inner.journaled.session thread) body).run store = (outcome, after) →
      outcome.isOk = false ∧ after = closing := by
  have closed : closing.inTransaction thread = false := by
    rw [← Store.serving_isSome regular.leased, outside]
    rfl
  have none : closing.transaction? (inner.journaled.session thread).thread = none :=
    Option.isSome_eq_false_iff.mp closed |> Option.isNone_iff_eq_none.mp
  constructor
  · rintro outcome after (ran | ran)
    · exact Store.refuses_commit none ran
    · exact Store.refuses_rollback none ran
  · intro α body result outcome after ranBody ran
    rw [Store.run_transaction begun ranBody] at ran
    cases result with
    | ok result =>
        rcases committed : (Store.commitTransaction (inner.journaled.session thread)).run closing
          with ⟨answer, left⟩
        rw [Store.run_conclude_ok, committed] at ran
        obtain ⟨rfl, rfl⟩ := Prod.mk.inj ran
        obtain ⟨refused, same⟩ := Store.refuses_commit none committed
        cases answer with
        | ok done => cases refused
        | error error => exact ⟨rfl, same⟩
    | error error =>
        have closed' : closing.inTransaction (inner.journaled.session thread).thread = false :=
          closed
        rw [Store.run_conclude_error, closed'] at ran
        obtain ⟨rfl, rfl⟩ := Prod.mk.inj ran
        exact ⟨rfl, rfl⟩

/-- An explicit transaction is all or nothing. Whatever its thread does between a successful
begin and the call that closes it, and whatever other threads do meanwhile: the transaction
lasts, or an act has ended it before. -/
theorem transaction_all_or_nothing
    {allowed : Store (Journaled World) → ThreadId → Action → Prop}
    (rest : faithful.AtRest inner.world) (reached : inner.journaled.Reached allowed store)
    (begun : (Store.beginTransaction (inner.journaled.session thread)).run store
      = (.ok (), opened))
    (run : inner.journaled.Run opened acts closing)
    (unclosed : ∀ act ∈ acts, act.thread = thread →
      act.action ≠ .commit ∧ act.action ≠ .rollback)
    (fits : ∀ mapping ∈ closing.registry.mappings, layout.Fits mapping) :
    Lasts faithful thread store opened acts closing ∨
      ∃ earlier act later, acts = earlier ++ act :: later ∧
        Broken faithful thread store opened earlier act later closing := by
  have beginsIn : Action.begin.InMemory store.memory.size := trivial
  have run' := @Run.cons _ inner.journaled _ _ _ _ .begin _ _ beginsIn begun run
  have grows := run'.grows reached.regular
  have regular := (Run.cons beginsIn begun (.nil opened)).regular reached.regular
  have regularClosing := run.regular regular
  have fitsOpened : ∀ mapping ∈ opened.registry.mappings, layout.Fits mapping :=
    fun mapping member => fits mapping ((run.grows regular).registered mapping member)
  have restJournaled : @Faithful.AtRest _ _ inner.journaled.database faithful.journaled
      inner.journaled.world := ⟨rest.valid, rest.outside⟩
  have orderlyStore := reached.orderly restJournaled fun mapping member =>
    fits mapping (grows.registered mapping member)
  have orderly := @orderly_of_act _ _ _ _ _ _ _ .begin _ reached.regular orderlyStore fitsOpened
    beginsIn begun
  obtain ⟨connection, serves, reading⟩ := @Store.reading_of_begins
    _ _ (inner.journaled.session thread) _ _ _ reached.regular orderlyStore
    ((Store.ensures_beginTransaction _ store).of_run begun)
  cases goes_of_run run regular orderly fits unclosed (.of_reading serves reading) with
  | on pending withheld =>
      exact Or.inl (lasts_of_pending begun regularClosing
        (orderly_of_run run regular orderly fits) pending withheld)
  | broken split withheld breaks outside regularAct orderlyAct later =>
      refine Or.inr ⟨_, _, _, split, withheld, breaks, ?_, fun begins => ?_⟩
      · rw [← Store.serving_isSome regularAct.leased, outside]
        rfl
      · exact refuses_of_outside begun regularClosing
          (outside_of_run later regularAct orderlyAct fits begins outside)

set_option maxRecDepth 100000 in
/-- Ada is saved in a transaction that lasts and can be committed. -/
theorem transaction_all_or_nothing_ada :
    ∃ store opened closing : Store (Journaled Tables.World), ∃ acts,
      (Store.beginTransaction (Samples.deployment.journaled.session 0)).run store
          = (.ok (), opened) ∧
        Samples.deployment.journaled.Run opened acts closing ∧
        acts.map (fun act => (act.thread, act.action)) = [(0, Samples.person "Ada"), (0, .save 0)] ∧
        ((Store.commitTransaction (Samples.deployment.journaled.session 0)).run closing).1.isOk ∧
        (Lasts Samples.faithful 0 store opened acts closing ∨
          ∃ earlier act later, acts = earlier ++ act :: later ∧
            Broken Samples.faithful 0 store opened earlier act
              later closing) := by
  obtain ⟨store, visited⟩ : ∃ store,
      Samples.deployment.journaled.visited? (Samples.settled 0) = some store :=
    Option.isSome_iff_exists.mp (by decide +kernel)
  have facts : ∀ store ∈ Samples.deployment.journaled.visited? (Samples.settled 0),
      let begun := (Store.beginTransaction (Samples.deployment.journaled.session 0)).run store
      let acts := Samples.deployment.journaled.enact
        [(0, Samples.person "Ada"), (0, .save 0)] begun.2
      let closing := left begun.2 acts
      begun.1.isOk = true ∧ named begun.2 acts = true ∧
        ((Store.commitTransaction (Samples.deployment.journaled.session 0)).run
          closing).1.isOk = true ∧
        ∀ mapping ∈ closing.registry.mappings, (Tables.layout fun _ => "id").column
          mapping.id.column = (Tables.layout fun _ => "id").column "id" := by
    decide +kernel
  obtain ⟨isOk, inMemory, commits, keyed⟩ := facts store visited
  have reached := reached_visited (fun _ _ _ _ => trivial) visited
  generalize begun : (Store.beginTransaction (Samples.deployment.journaled.session 0)).run store
    = result at isOk inMemory commits keyed
  obtain ⟨outcome | _, opened⟩ := result
  · cases isOk
  have run := run_enact inMemory
  have regular := run.regular ((@Run.cons _ _ _ _ _ _ .begin _ _ trivial begun (.nil opened)).regular
    reached.regular)
  have steps := @steps_enact _ Samples.deployment.journaled
    [(0, Samples.person "Ada"), (0, .save 0)] opened
  refine ⟨store, opened, _, _, begun, run, steps, commits, transaction_all_or_nothing
    (Tables.atRest_empty _ _) reached begun run ?_ fun mapping member =>
      ⟨regular.sound.registry.mappings mapping member, keyed mapping member⟩⟩
  intro act member _
  have isStep := List.mem_map_of_mem (f := fun act => (act.thread, act.action)) member
  rw [steps] at isStep
  rcases List.mem_pair.mp isStep with same | same <;>
  · obtain ⟨_, isAction⟩ := Prod.mk.inj same
    rw [isAction]
    exact ⟨by rintro ⟨⟩, by rintro ⟨⟩⟩

set_option maxRecDepth 100000 in
/-- Where a save that fails is ignored, the next save is kept, although the transaction
fails. -/
theorem kept_by_failing_transaction : ∃ store after : Store Tables.World,
    Samples.deployment.Reached (fun _ _ _ => True) store ∧
      (Store.transaction (Samples.deployment.session 0) do
          let _ ← Store.attempt (Store.save (Samples.deployment.session 0) 0)
          Store.save (Samples.deployment.session 0) 1).run store
        = (.error (.transaction .notOpen), after) ∧
      store.pool.world.published.contents "person" 1 = none ∧
      after.pool.world.published.contents "person" 1 ≠ none := by
  obtain ⟨store, visited⟩ : ∃ store, Samples.deployment.visited? Samples.haunted = some store :=
    Option.isSome_iff_exists.mp (by decide +kernel)
  have facts : ∀ store ∈ Samples.deployment.visited? Samples.haunted,
      let result := (Store.transaction (Samples.deployment.session 0) do
        let _ ← Store.attempt (Store.save (Samples.deployment.session 0) 0)
        Store.save (Samples.deployment.session 0) 1).run store
      result.1 = .error (.transaction .notOpen) ∧
        (store.pool.world.published.contents "person" 1).isSome = false ∧
        (result.2.pool.world.published.contents "person" 1).isSome = true := by decide +kernel
  obtain ⟨fails, before, kept⟩ := facts store visited
  exact ⟨store, _, reached_visited (fun _ _ _ _ => trivial) visited, Prod.ext fails rfl,
    Option.isNone_iff_eq_none.mp (Option.isSome_eq_false_iff.mp before),
    Option.isSome_iff_ne_none.mp kept⟩

end Deployment
end EntityStore
