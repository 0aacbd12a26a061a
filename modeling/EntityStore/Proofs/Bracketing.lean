/-
The brackets of transactions over whole runs. On every connection transactions are begun
and ended in turn, whatever the database refuses, and statements are executed only inside
of them. A thread is in a transaction from a begin that succeeds until the next act that
ends it, and all it does meanwhile goes to one connection.
-/

import EntityStore.Proofs.Confinement
import EntityStore.Proofs.Runs

set_option autoImplicit false

namespace EntityStore
namespace Store

/-- After stages that succeeded, a unit of work has failed. -/
inductive UnitFails {World : Type} (session : Session World) :
    (Task → Prop) → Store World → Store World → Prop where
  | failed {poses : Task → Prop} {store after : Store World} {α : Type} {task : Task}
      {transactional : Bool} {error : Error} : task = .read ∨ poses task →
      UnitEnds session (Question.Issued (· ∈ store.registry.mappings) transactional) transactional
        (fun (result : α × WriteSet) log =>
          task.Gives session.dialect (· ∈ store.registry.mappings) result.2 log)
        store (.error error) after →
      UnitFails session poses store after
  | later {poses : Task → Prop} {store between after : Store World} :
      Stage session poses store true between → UnitFails session onlyReads between after →
      UnitFails session poses store after

section Runs

variable {World α : Type} {session : Session World} {store after : Store World} {task : Task}
  {transactional : Bool} {work : Work World α} {error : Error} (regular : store.Regular)
  (asks : ∀ lease, Asks session.database
    (Question.Issued (· ∈ store.registry.mappings) transactional) lease (work lease)
    fun result log => task.Gives session.dialect (· ∈ store.registry.mappings) result.2 log)
  (ran : (unit session transactional work).run store = (.error error, after))
include regular asks ran

/-- A unit has failed if it is run and returns an error. -/
theorem UnitFails.of_run {poses : Task → Prop} (posed : task = .read ∨ poses task) :
    UnitFails session poses store after :=
  .failed posed ((ensures_unit asks fun _ inside => regular.leased.connection inside).of_run ran)

/-- A unit that returns an error leaves its thread in no transaction. -/
theorem inTransaction_of_unit_error (isOpen : store.isOpen = true) :
    after.inTransaction session.thread = false := by
  have none : after.transaction? session.thread = none := by
    cases (ensures_unit asks fun _ inside => regular.leased.connection inside).of_run ran with
    | closed isClosed =>
        rw [isOpen] at isClosed
        cases isClosed
    | aborted _ _ _ _ _ =>
        exact (congrArg (List.lookup session.thread) (transactions_restoreInstances _ _)).trans
          (transaction?_dropTransaction_self _ _)
    | unconnected _ outside _ => exact outside
    | failed _ outside _ _ _ => exact outside
  unfold inTransaction
  rw [none]
  rfl

end Runs

def Plain (poses : Task → Prop) : Prop :=
  ¬poses .begin ∧ ¬poses .commit ∧ ¬poses .rollback ∧ ¬poses .close

private theorem plain_onlyReads : Plain onlyReads :=
  ⟨fun posed => posed, fun posed => posed, fun posed => posed, fun posed => posed⟩

theorem transactions_eq_nil {World : Type} {store : Store World}
    (none : ∀ thread, store.transaction? thread = none) : store.transactions = [] := by
  cases found : store.transactions with
  | nil => rfl
  | cons entry rest =>
      have missing := none entry.1
      unfold transaction? at missing
      rw [found, List.lookup_cons_self] at missing
      cases missing

section Stages

variable {World : Type} {inner : Database World} {session : Session (Traced World)}
  {store after : Store (Traced World)} {poses : Task → Prop} {ok : Bool}
  (traced : session.database = Traced.database inner) (tracks : inner.TracksTransactions)
  (checks : inner.ChecksTransactions) (regular : store.Regular) (brackets : store.InBrackets inner)

include brackets in
private theorem stays_of_quiet (quiet : store.Quiet after) (thread : ThreadId) :
    Stays inner thread store after := by
  refine .of_same brackets quiet.pool (serving_of_quiet quiet) quiet.isOpen fun empty => ?_
  refine transactions_eq_nil fun other => ?_
  have same := quiet.transactions other
  rw [show store.transaction? other = none by unfold transaction?; rw [empty]; rfl] at same
  exact Option.map_eq_none_iff.mp same

include traced tracks checks regular brackets

theorem Stage.inBrackets (stage : Stage session poses store ok after) : after.InBrackets inner := by
  cases stage with
  | quiet quiet => exact (stays_of_quiet brackets quiet session.thread).brackets
  | looked key => exact brackets.of_same rfl (fun _ => rfl) rfl fun none => none
  | cleared => exact brackets.of_same rfl (fun _ => rfl) rfl fun none => none
  | @unit _ _ _ outcome _ _ ends =>
      cases outcome with
      | ok result => exact (stays_of_unit traced tracks checks regular brackets ends).brackets
      | error error =>
          rcases quits_of_unit traced tracks checks regular brackets ends with quits | ⟨_, stays⟩
          · exact quits.brackets
          · exact stays.brackets
  | @began outcome _ _ ends =>
      cases outcome with
      | ok result => exact (entered_of_begin traced tracks regular brackets ends).2.1
      | error error => exact (stays_of_begin traced tracks checks regular brackets ends).brackets
  | committed _ ends =>
      rcases ended_of_commit traced tracks checks regular brackets ends with quits | ⟨_, stays⟩
      · exact quits.brackets
      · exact stays.brackets
  | rolledBack _ ends =>
      rcases ended_of_rollback traced tracks checks regular brackets ends with quits | ⟨_, stays⟩
      · exact quits.brackets
      · exact stays.brackets
  | closed _ ends => exact (closed_of_close traced tracks checks regular brackets ends).1

theorem UnitFails.serving_eq_none (fails : UnitFails session poses store after) :
    after.serving session.thread = none := by
  induction fails with
  | failed _ ends =>
      rcases quits_of_unit traced tracks checks regular brackets ends with quits | ⟨outside, stays⟩
      · exact quits.none
      · exact (stays.serving _).trans outside
  | later stage _ ih =>
      exact ih (stage.regular regular) (stage.inBrackets traced tracks checks regular brackets)

theorem Stage.stays (stage : Stage session poses store true after) (plain : Plain poses) :
    Stays inner session.thread store after := by
  generalize succeeded : true = ok at stage
  cases stage with
  | quiet quiet => exact stays_of_quiet brackets quiet _
  | looked key => exact .of_same brackets rfl (fun _ => rfl) rfl fun none => none
  | cleared => exact .of_same brackets rfl (fun _ => rfl) rfl fun none => none
  | @unit _ _ _ outcome _ _ ends =>
      cases outcome with
      | ok result => exact stays_of_unit traced tracks checks regular brackets ends
      | error error => cases succeeded
  | began posed _ => exact absurd posed plain.1
  | committed posed _ => exact absurd posed plain.2.1
  | rolledBack posed _ => exact absurd posed plain.2.2.1
  | closed posed _ => exact absurd posed plain.2.2.2

theorem Stage.quits (stage : Stage session poses store false after) (plain : Plain poses) :
    Stays inner session.thread store after ∨
      (Quits inner session.thread store after ∧ UnitFails session poses store after) := by
  generalize failed : false = ok at stage
  cases stage with
  | quiet _ => cases failed
  | looked _ => cases failed
  | cleared => cases failed
  | @unit _ _ _ outcome _ posed ends =>
      cases outcome with
      | ok _ => cases failed
      | error error =>
          rcases quits_of_unit traced tracks checks regular brackets ends with quits | ⟨_, stays⟩
          · exact Or.inr ⟨quits, .failed posed ends⟩
          · exact Or.inl stays
  | began posed _ => exact absurd posed plain.1
  | committed posed _ => exact absurd posed plain.2.1
  | rolledBack posed _ => exact absurd posed plain.2.2.1
  | closed posed _ => exact absurd posed plain.2.2.2

theorem Course.passes (course : Course session poses store ok after) (plain : Plain poses) :
    Stays inner session.thread store after ∨
      (Quits inner session.thread store after ∧ UnitFails session poses store after) := by
  -- The induction carries the thread from stage to stage until one fails.
  induction course with
  | ended => exact Or.inl (.refl brackets)
  | failed stage => exact stage.quits traced tracks checks regular brackets plain
  | went stage _ ih =>
      have first := stage.stays traced tracks checks regular brackets plain
      rcases ih (stage.regular regular) first.brackets plain_onlyReads with stays | ⟨quits, fails⟩
      · exact Or.inl (first.trans stays)
      · exact Or.inr ⟨first.quits quits, .later stage fails⟩

end Stages

end Store

/-! ### Acts -/

def Act.Begins {World : Type} (act : Act World) (thread : ThreadId) : Prop :=
  act.thread = thread ∧ act.action = .begin ∧ act.outcome = .ok ()

/-- An act that ends the transaction of a thread, should it have one: anybody's close, and its
own commit or rollback, whatever becomes of it, or operation in which a unit fails. -/
def Act.Ends {World : Type} (act : Act World) (deployment : Deployment World) (thread : ThreadId)
    (store : Store World) : Prop :=
  act.action = .close ∨ act.thread = thread ∧ (act.action = .commit ∨ act.action = .rollback ∨
    Store.UnitFails (deployment.session thread)
      (act.action.Poses (deployment.session thread) store) store act.after)

structure Act.Passes {World : Type} (act : Act (Traced World)) (inner : Deployment World)
    (store : Store (Traced World)) : Prop where
  brackets : act.after.InBrackets inner.database
  begins : ∀ thread, act.Begins thread →
    store.serving thread = none ∧ ∃ connection, act.after.serving thread = some connection
  ends : ∀ thread, act.Ends inner.traced thread store → act.after.serving thread = none
  keeps : ∀ thread, ¬act.Begins thread → ¬act.Ends inner.traced thread store →
    act.after.serving thread = store.serving thread
  confined : act.action ≠ .close → ∀ connection, store.serving act.thread = some connection →
    Store.Confined connection store act.after

def Action.boundary : Action → Bool
  | begin | commit | rollback | close => true
  | _ => false

theorem Action.plain_poses {World : Type} {action : Action} (plain : action.boundary = false)
    (session : Session World) (store : Store World) : Store.Plain (action.Poses session store) := by
  cases action with
  | begin => cases plain
  | commit => cases plain
  | rollback => cases plain
  | close => cases plain
  | save subject => refine ⟨?_, ?_, ?_, ?_⟩ <;> rintro ⟨_, _, ⟨⟩⟩
  | _ => refine ⟨?_, ?_, ?_, ?_⟩ <;> rintro ⟨⟩

namespace Deployment

variable {World : Type} {inner : Deployment World} {store after : Store (Traced World)}
  {thread : ThreadId} {action : Action} {outcome : Except Error Unit}

private theorem thread_of_ends {act : Act (Traced World)} {other : ThreadId}
    (ends : act.Ends inner.traced other store) (stays : act.action ≠ .close) : other = act.thread :=
  (ends.resolve_left stays).1.symm

private theorem passes_of_stays (stays : Store.Stays inner.database thread store after)
    (notBegun : ¬(action = .begin ∧ outcome = .ok ())) (notClosed : action ≠ .close)
    (outside : Act.Ends ⟨thread, action, outcome, after⟩ inner.traced thread store →
      store.serving thread = none) :
    Act.Passes ⟨thread, action, outcome, after⟩ inner store := by
  refine ⟨stays.brackets, fun other begins => absurd begins.2 notBegun, fun other ends => ?_,
    fun other _ _ => stays.serving other, fun _ => stays.confined⟩
  obtain rfl : other = thread := thread_of_ends ends notClosed
  exact (stays.serving other).trans (outside ends)

private theorem passes_of_quits (quits : Store.Quits inner.database thread store after)
    (notBegun : ¬(action = .begin ∧ outcome = .ok ())) (notClosed : action ≠ .close)
    (ends : Act.Ends ⟨thread, action, outcome, after⟩ inner.traced thread store) :
    Act.Passes ⟨thread, action, outcome, after⟩ inner store := by
  refine ⟨quits.brackets, fun other begins => absurd begins.2 notBegun, fun other endsOther => ?_,
    fun other _ goesOn => ?_, fun _ connection serves => ?_⟩
  · obtain rfl : other = thread := thread_of_ends endsOther notClosed
    exact quits.none
  · have apart : other ≠ thread := by
      rintro rfl
      exact goesOn ends
    exact (quits.serving other).trans (if_neg apart)
  · obtain ⟨one, servesOne, confined⟩ := quits.confined
    obtain rfl := Option.some.inj (servesOne.symm.trans serves)
    exact confined

private theorem passes_of_entered {connection : ConnectionId}
    (outside : store.serving thread = none) (brackets : after.InBrackets inner.database)
    (serving : ∀ other, after.serving other =
      if other = thread then some connection else store.serving other)
    (unitless : ∀ poses,
      Store.UnitFails (inner.traced.session thread) poses store after → after.serving thread = none) :
    Act.Passes ⟨thread, .begin, .ok (), after⟩ inner store := by
  have serves : after.serving thread = some connection := (serving thread).trans (if_pos rfl)
  have goesOn (other : ThreadId) : ¬Act.Ends ⟨thread, .begin, .ok (), after⟩ inner.traced other store := by
    intro ends
    rcases ends with ⟨⟨⟩⟩ | ⟨rfl, ⟨⟨⟩⟩ | ⟨⟨⟩⟩ | fails⟩
    have none := unitless _ fails
    rw [serves] at none
    cases none
  refine ⟨brackets, fun other begins => ?_, fun other ends => absurd ends (goesOn other),
    fun other notBegun _ => ?_, fun _ one served => ?_⟩
  · obtain rfl : thread = other := begins.1
    exact ⟨outside, connection, serves⟩
  · have apart : other ≠ thread := by
      rintro rfl
      exact notBegun ⟨rfl, rfl, rfl⟩
    exact (serving other).trans (if_neg apart)
  · rw [outside] at served
    cases served

section Perform

variable (tracks : inner.database.TracksTransactions) (checks : inner.database.ChecksTransactions)
  (regular : store.Regular) (brackets : store.InBrackets inner.database)
include tracks checks regular brackets

private theorem serving_of_unitFails {poses : Task → Prop}
    (fails : Store.UnitFails (inner.traced.session thread) poses store after) :
    after.serving thread = none :=
  fails.serving_eq_none rfl tracks checks regular brackets

private theorem passes_plain (plain : action.boundary = false)
    (course : Store.Course (inner.traced.session thread)
      (action.Poses (inner.traced.session thread) store) store outcome.isOk after) :
    Act.Passes ⟨thread, action, outcome, after⟩ inner store := by
  have notBegun : ¬(action = .begin ∧ outcome = .ok ()) := by
    rintro ⟨rfl, _⟩
    cases plain
  have notClosed : action ≠ .close := by
    rintro rfl
    cases plain
  rcases course.passes rfl tracks checks regular brackets (action.plain_poses plain _ _) with
    stays | ⟨quits, fails⟩
  · refine passes_of_stays stays notBegun notClosed fun ends => ?_
    rcases ends with closes | ⟨_, commits | rollsBack | fails⟩
    · exact absurd closes notClosed
    · rw [show action = .commit from commits] at plain
      cases plain
    · rw [show action = .rollback from rollsBack] at plain
      cases plain
    · exact (stays.serving thread).symm.trans
        (serving_of_unitFails tracks checks regular brackets fails)
  · exact passes_of_quits quits notBegun notClosed (Or.inr ⟨rfl, Or.inr (Or.inr fails)⟩)

omit tracks checks regular brackets in
private theorem passes_of_either (ends : action = .commit ∨ action = .rollback)
    (either : Store.Quits inner.database thread store after ∨
      (store.serving thread = none ∧ Store.Stays inner.database thread store after)) :
    Act.Passes ⟨thread, action, outcome, after⟩ inner store := by
  have notBegun : ¬(action = .begin ∧ outcome = .ok ()) := by
    rintro ⟨rfl, _⟩
    rcases ends with ⟨⟨⟩⟩ | ⟨⟨⟩⟩
  have notClosed : action ≠ .close := by
    rintro rfl
    rcases ends with ⟨⟨⟩⟩ | ⟨⟨⟩⟩
  rcases either with quits | ⟨outside, stays⟩
  · exact passes_of_quits quits notBegun notClosed (Or.inr ⟨rfl, ends.imp_right Or.inl⟩)
  · exact passes_of_stays stays notBegun notClosed fun _ => outside

/-- Whoever acts and however the database answers, the brackets are kept. -/
theorem passes_perform (inMemory : action.InMemory store.memory.size)
    (ran : (action.perform (inner.traced.session thread)).run store = (outcome, after)) :
    Act.Passes ⟨thread, action, outcome, after⟩ inner store := by
  have leased (transaction : Transaction) (inside : store.transaction? thread = some transaction) :
      ∃ connection, store.pool.leased.lookup transaction.lease = some connection :=
    regular.leased.connection inside
  have course : Store.Course (inner.traced.session thread)
      (action.Poses (inner.traced.session thread) store) store outcome.isOk after :=
    (Action.follows_perform regular inMemory).of_run ran
  cases action with
  | begin =>
      have ends : Store.BeginEnds (inner.traced.session thread) store outcome after :=
        (Store.ensures_beginTransaction _ store).of_run ran
      cases outcome with
      | ok _ =>
          obtain ⟨outside, bracketsAfter, connection, serving⟩ :=
            Store.entered_of_begin rfl tracks regular brackets ends
          exact passes_of_entered outside bracketsAfter serving fun _ fails =>
            serving_of_unitFails tracks checks regular brackets fails
      | error error =>
          have stays := Store.stays_of_begin rfl tracks checks regular brackets ends
          refine passes_of_stays stays (by rintro ⟨_, ⟨⟩⟩) (by rintro ⟨⟩) fun endsToo => ?_
          rcases endsToo with ⟨⟨⟩⟩ | ⟨_, ⟨⟨⟩⟩ | ⟨⟨⟩⟩ | fails⟩
          exact (stays.serving thread).symm.trans
            (serving_of_unitFails tracks checks regular brackets fails)
  | commit =>
      have ends : Store.CommitEnds (inner.traced.session thread) store outcome after :=
        (Store.ensures_commitTransaction leased).of_run ran
      exact passes_of_either (Or.inl rfl)
        (Store.ended_of_commit rfl tracks checks regular brackets ends)
  | rollback =>
      have ends : Store.RollbackEnds (inner.traced.session thread) store outcome after :=
        (Store.ensures_rollbackTransaction leased).of_run ran
      exact passes_of_either (Or.inr rfl)
        (Store.ended_of_rollback rfl tracks checks regular brackets ends)
  | close =>
      obtain ⟨left, ends, ranToo⟩ := Store.run_close (inner.traced.session thread) store
      obtain ⟨rfl, rfl⟩ := Prod.mk.inj (ran.symm.trans ranToo)
      obtain ⟨bracketsAfter, none⟩ := Store.closed_of_close rfl tracks checks regular brackets ends
      exact ⟨bracketsAfter, fun _ begins => absurd begins.2.1 (by rintro ⟨⟩), fun other _ => none other,
        fun _ _ goesOn => absurd (Or.inl rfl) goesOn, fun notClosed => absurd rfl notClosed⟩
  | _ => exact passes_plain tracks checks regular brackets rfl course

end Perform

/-! ### Runs -/

def NotEnded (deployment : Deployment World) (thread : ThreadId) :
    Store World → List (Act World) → Prop
  | _, [] => True
  | store, act :: rest => ¬act.Ends deployment thread store ∧ NotEnded deployment thread act.after rest

variable {deployment : Deployment World} {acts : List (Act (Traced World))}

section Runs

variable (tracks : inner.database.TracksTransactions) (checks : inner.database.ChecksTransactions)
  (regular : store.Regular) (brackets : store.InBrackets inner.database)
include tracks checks regular brackets

theorem Run.inBrackets (run : inner.traced.Run store acts after) :
    after.InBrackets inner.database := by
  induction run with
  | nil store => exact brackets
  | cons inMemory ran _ ih =>
      have passes := passes_perform tracks checks regular brackets inMemory ran
      exact ih (((Action.follows_perform regular inMemory).of_run ran).regular regular) passes.brackets

theorem Run.passes {earlier later : List (Act (Traced World))} {act : Act (Traced World)}
    (run : inner.traced.Run store (earlier ++ act :: later) after) :
    act.Passes inner (left store earlier) := by
  obtain ⟨first, second⟩ := run.split
  cases second with
  | cons inMemory ran _ =>
      exact passes_perform tracks checks (first.regular regular)
        (first.inBrackets tracks checks regular brackets) inMemory ran

theorem Run.serving_iff (run : inner.traced.Run store acts after) (thread : ThreadId) :
    (∃ connection, after.serving thread = some connection) ↔
      (∃ earlier act later, acts = earlier ++ act :: later ∧ act.Begins thread ∧
        inner.traced.NotEnded thread act.after later) ∨
      ((∃ connection, store.serving thread = some connection) ∧
        inner.traced.NotEnded thread store acts) := by
  -- The induction is on the run; where it starts inside, nothing has to be begun.
  induction run with
  | nil store =>
      constructor
      · exact fun serves => Or.inr ⟨serves, trivial⟩
      · rintro (⟨earlier, act, later, split, _⟩ | ⟨serves, _⟩)
        · cases earlier <;> cases split
        · exact serves
  | @cons store between after performer action outcome rest inMemory ran runRest ih =>
      have passes := passes_perform tracks checks regular brackets inMemory ran
      rw [ih (((Action.follows_perform regular inMemory).of_run ran).regular regular) passes.brackets]
      constructor
      · rintro (⟨earlier, act, later, rfl, begins, lasts⟩ | ⟨serves, lasts⟩)
        · exact Or.inl ⟨_ :: earlier, act, later, rfl, begins, lasts⟩
        · by_cases begins : Act.Begins ⟨performer, action, outcome, between⟩ thread
          · exact Or.inl ⟨[], _, rest, rfl, begins, lasts⟩
          · have goesOn : ¬Act.Ends ⟨performer, action, outcome, between⟩ inner.traced thread store := by
              intro ends
              obtain ⟨connection, serves⟩ := serves
              rw [passes.ends thread ends] at serves
              cases serves
            rw [show between.serving thread = _ from passes.keeps thread begins goesOn] at serves
            exact Or.inr ⟨serves, goesOn, lasts⟩
      · rintro (⟨earlier, act, later, split, begins, lasts⟩ | ⟨serves, goesOn, lasts⟩)
        · cases earlier with
          | nil =>
              obtain ⟨rfl, rfl⟩ := List.cons.inj split
              exact Or.inr ⟨(passes.begins thread begins).2, lasts⟩
          | cons first earlier =>
              obtain ⟨_, rfl⟩ := List.cons.inj split
              exact Or.inl ⟨earlier, act, later, rfl, begins, lasts⟩
        · refine Or.inr ⟨?_, lasts⟩
          by_cases begins : Act.Begins ⟨performer, action, outcome, between⟩ thread
          · exact (passes.begins thread begins).2
          · rw [show between.serving thread = _ from passes.keeps thread begins goesOn]
            exact serves

end Runs

/-- What holds of the transactions after every run: on each connection they are begun and
ended in turn, with whatever is executed inside of them, and none is open on a connection
that waits. A thread is in a transaction from a begin that succeeds to the next act that
ends it; as long as it is, one connection serves it, to which its calls go. -/
structure KeepsBrackets (inner : Deployment World) (store : Store (Traced World))
    (acts : List (Act (Traced World))) (after : Store (Traced World)) : Prop where
  trace : WellBracketed after.pool.world.trace
  alternate : ∀ connection earlier first between second later,
    after.pool.world.trace = earlier ++ first :: between ++ second :: later →
    first.Ends connection → second.Ends connection → ∃ call ∈ between, call.Begins connection
  waiting : ∀ connection ∈ after.pool.idle.map IdleConnection.connection,
    insideAfter connection after.pool.world.trace = false ∧
      inner.database.inTransaction connection after.pool.world.world = false
  spans : ∀ thread, after.inTransaction thread = true ↔ ∃ earlier act later,
    acts = earlier ++ act :: later ∧ act.Begins thread ∧ inner.traced.NotEnded thread act.after later
  confined : ∀ earlier act later, acts = earlier ++ act :: later → act.action ≠ .close →
    (left store earlier).inTransaction act.thread = true →
    ∃ connection, (left store earlier).serving act.thread = some connection ∧
      Store.Confined connection (left store earlier) act.after
  steady : ∀ earlier act later thread, acts = earlier ++ act :: later →
    (left store earlier).inTransaction thread = true → act.after.inTransaction thread = true →
    act.after.serving thread = (left store earlier).serving thread

private theorem inTransaction_iff {store : Store World} (leased : store.Leased)
    (thread : ThreadId) :
    store.inTransaction thread = true ↔ ∃ connection, store.serving thread = some connection := by
  unfold Store.inTransaction
  rw [Option.isSome_iff_exists]
  constructor
  · rintro ⟨transaction, inside⟩
    obtain ⟨connection, held⟩ := leased.connection inside
    exact ⟨connection, Store.serving_eq_some inside held⟩
  · rintro ⟨connection, serves⟩
    obtain ⟨transaction, inside, _⟩ := Store.exists_of_serving serves
    exact ⟨transaction, inside⟩

private theorem inBrackets_create {world : Traced World}
    (tracks : inner.database.TracksTransactions)
    (outside : ∀ connection, inner.database.inTransaction connection inner.world = false)
    (created : Store.create inner.traced.database inner.traced.config inner.traced.store #[]
      inner.traced.world = (.ok store, world)) :
    store.InBrackets inner.database := by
  obtain ⟨pool, made, rfl⟩ := create_ok created
  obtain ⟨_, leased⟩ := Pool.numbered_create made
  refine ⟨Pool.inBrackets_create tracks outside made, ?_, ?_, fun _ => rfl⟩
  · intro thread connection serves
    cases serves
  · intro _ connection member
    rw [show Pool.leased _ = [] from leased] at member
    cases member

end Deployment

/-! ### Tables in memory -/

namespace Tables

variable {world : World} {connection other : ConnectionId}

private theorem inTransaction_executeOn (statement : Statement) :
    (executeOn connection statement world).2.inTransaction = world.inTransaction := by
  unfold executeOn
  split
  · rfl
  · split
    · rfl
    · rw [inTransaction_noteGenerated]
      unfold World.keep
      split
      · rfl
      · rfl

private theorem inTransaction_tableExistsOn (table : QualifiedName) :
    (tableExistsOn connection table world).2.inTransaction = world.inTransaction := by
  unfold tableExistsOn
  split
  · rfl
  · rfl

private theorem inTransaction_ask {description : String} (question : Question) :
    ((database description).ask connection question world).2.inTransaction
      = world.inTransaction := by
  cases question with
  | execute statement => exact inTransaction_executeOn statement
  | tableExists table => exact inTransaction_tableExistsOn table
  | _ => rfl

private theorem contains_leave :
    (world.leave connection).inTransaction.contains other
      = (other != connection && world.inTransaction.contains other) := by
  rw [Bool.eq_iff_iff]
  simp [World.leave, List.mem_filter, and_comm]

private theorem contains_leave_of_ne (ne : other ≠ connection) :
    (world.leave connection).inTransaction.contains other
      = world.inTransaction.contains other := by
  rw [contains_leave, bne_iff_ne.mpr ne, Bool.true_and]

private theorem contains_beginOn_of_ne (ne : other ≠ connection) :
    (beginOn connection world).2.inTransaction.contains other
      = world.inTransaction.contains other := by
  unfold beginOn
  split
  · rfl
  · rw [List.contains_cons, beq_eq_false_iff_ne.mpr ne, Bool.false_or]

private theorem contains_commitOn_of_ne (ne : other ≠ connection) :
    (commitOn connection world).2.inTransaction.contains other
      = world.inTransaction.contains other := by
  unfold commitOn
  split
  · exact contains_leave_of_ne ne
  · rfl

private theorem contains_rollbackOn_of_ne (ne : other ≠ connection) :
    (rollbackOn connection world).2.inTransaction.contains other
      = world.inTransaction.contains other := by
  unfold rollbackOn
  split
  · exact contains_leave_of_ne ne
  · rfl

/-- Tables in memory keep count of the connections inside of a transaction. -/
theorem tracksTransactions (description : String) :
    (database description).TracksTransactions where
  connected _ _ outside := outside
  begun connection world := by
    show (beginOn connection world).2.inTransaction.contains connection
      = ((beginOn connection world).1.isOk || world.inTransaction.contains connection)
    unfold beginOn
    split
    · rfl
    · rw [List.contains_cons, beq_self_eq_true]
      rfl
  committed connection world := by
    show (commitOn connection world).2.inTransaction.contains connection
      = (!(commitOn connection world).1.isOk && world.inTransaction.contains connection)
    unfold commitOn
    split
    · rw [contains_leave, bne_self_eq_false, Bool.false_and]
      rfl
    · rfl
  rolledBack connection world := by
    show (rollbackOn connection world).2.inTransaction.contains connection
      = (!(rollbackOn connection world).1.isOk && world.inTransaction.contains connection)
    unfold rollbackOn
    split
    · rw [contains_leave, bne_self_eq_false, Bool.false_and]
      rfl
    · rfl
  asked connection question _ := congrArg (List.contains · connection) (inTransaction_ask question)
  checked _ _ _ := rfl
  others connection other deed world ne := by
    show ((database description).undergo connection world deed).inTransaction.contains other
      = world.inTransaction.contains other
    cases deed with
    | execute statement => exact congrArg (List.contains · other) (inTransaction_executeOn statement)
    | tableExists table => exact congrArg (List.contains · other) (inTransaction_tableExistsOn table)
    | begin => exact contains_beginOn_of_ne ne
    | commit => exact contains_commitOn_of_ne ne
    | rollback => exact contains_rollbackOn_of_ne ne
    | close => exact contains_leave_of_ne ne
    | _ => rfl

private theorem checksTransactions (description : String) :
    (database description).ChecksTransactions := by
  intro connection world after valid
  obtain ⟨outside, rfl⟩ := Prod.mk.inj valid
  exact Bool.not_eq_eq_eq_not.mp outside

end Tables

namespace Samples

def crowded : List (ThreadId × Action) := settled 0 ++ [
  (0, .begin), (0, person "Ada"), (0, .save 0),
  (1, .begin), (1, person "Bo"), (1, .save 1), (0, .commit)]

end Samples

namespace Deployment

variable {World : Type} {inner : Deployment World} {store after : Store (Traced World)}

/-- Whatever threads do with a store, and whatever the database refuses: transactions are
bracketed. -/
theorem transactions_bracketed {world : Traced World} {acts : List (Act (Traced World))}
    (tracks : inner.database.TracksTransactions) (checks : inner.database.ChecksTransactions)
    (outside : ∀ connection, inner.database.inTransaction connection inner.world = false)
    (created : Store.create inner.traced.database inner.traced.config inner.traced.store #[]
      inner.traced.world = (.ok store, world))
    (run : inner.traced.Run store acts after) : KeepsBrackets inner store acts after := by
  have reached : inner.traced.Reached (fun _ _ _ => True) store := .created created
  have regular : store.Regular := reached.regular
  have start := inBrackets_create tracks outside created
  have brackets := run.inBrackets tracks checks regular start
  have passes {earlier later : List (Act (Traced World))} {act : Act (Traced World)}
      (split : acts = earlier ++ act :: later) : act.Passes inner (left store earlier) := by
    subst split
    exact run.passes tracks checks regular start
  have leased {earlier later : List (Act (Traced World))} {act : Act (Traced World)}
      (split : acts = earlier ++ act :: later) : (left store earlier).Leased := by
    subst split
    exact (run.split.1.regular regular).leased
  refine ⟨brackets.pool.trace, ?_, ?_, ?_, ?_, ?_⟩
  · intro connection earlier first between second later split endsFirst endsSecond
    have bracketed := brackets.pool.trace
    rw [split] at bracketed
    exact bracketed.begins_between endsFirst endsSecond
  · intro connection member
    have waits := brackets.pool.waiting connection member
    refine ⟨waits, ?_⟩
    rw [brackets.pool.agrees connection (Or.inl (List.mem_append_left _ member))]
    exact waits
  · intro thread
    rw [inTransaction_iff (run.regular regular).leased, run.serving_iff tracks checks regular start]
    constructor
    · rintro (spans | ⟨⟨connection, serves⟩, _⟩)
      · exact spans
      · obtain ⟨pool, _, rfl⟩ := create_ok created
        cases serves
    · exact Or.inl
  · intro earlier act later split notClosed inside
    obtain ⟨connection, serves⟩ := (inTransaction_iff (leased split) _).mp inside
    exact ⟨connection, serves, (passes split).confined notClosed connection serves⟩
  · intro earlier act later thread split inside still
    obtain ⟨connection, serves⟩ := (inTransaction_iff (leased split) _).mp inside
    refine (passes split).keeps thread ?_ ?_
    · intro begins
      have none := ((passes split).begins thread begins).1
      rw [serves] at none
      cases none
    · intro ends
      have regularAfter : act.after.Regular := by
        rw [split, List.append_cons] at run
        have reached := (run.split.1).regular regular
        rwa [left_append] at reached
      obtain ⟨other, servesAfter⟩ := (inTransaction_iff regularAfter.leased _).mp still
      rw [(passes split).ends thread ends] at servesAfter
      cases servesAfter

set_option maxRecDepth 100000 in
/-- A thread cannot save what it has, as another has changed the tables before, and is in
no transaction any more; the other one commits. -/
theorem transactions_bracketed_crowded :
    ∃ (store after : Store (Traced Tables.World)) (world : Traced Tables.World)
      (acts : List (Act (Traced Tables.World))),
      Samples.deployment.database.TracksTransactions ∧
        Samples.deployment.database.ChecksTransactions ∧
        (∀ connection,
          Samples.deployment.database.inTransaction connection Samples.deployment.world = false) ∧
        Store.create Samples.deployment.traced.database Samples.deployment.traced.config
          Samples.deployment.traced.store #[] Samples.deployment.traced.world = (.ok store, world) ∧
        Samples.deployment.traced.Run store acts after ∧
        acts.map (fun act => (act.thread, act.action)) = Samples.crowded ∧
        (acts.map fun act => (act.outcome.isOk, act.after.serving 0, act.after.serving 1)).drop 2 =
          [(true, some 0, none), (true, some 0, none), (true, some 0, none),
            (true, some 0, some 1), (true, some 0, some 1), (false, some 0, none),
            (true, none, none)] ∧
        KeepsBrackets Samples.deployment store acts after := by
  have facts : ∀ store ∈ (Store.create Samples.deployment.traced.database
      Samples.deployment.traced.config Samples.deployment.traced.store #[]
      Samples.deployment.traced.world).1.toOption,
      let acts := Samples.deployment.traced.enact Samples.crowded store
      named store acts = true ∧
        (acts.map fun act => (act.outcome.isOk, act.after.serving 0, act.after.serving 1)).drop 2 =
          [(true, some 0, none), (true, some 0, none), (true, some 0, none),
            (true, some 0, some 1), (true, some 0, some 1), (false, some 0, none),
            (true, none, none)] := by
    decide +kernel
  obtain ⟨store, created⟩ : ∃ store, (Store.create Samples.deployment.traced.database
      Samples.deployment.traced.config Samples.deployment.traced.store #[]
      Samples.deployment.traced.world).1.toOption = some store :=
    Option.isSome_iff_exists.mp (by decide +kernel)
  obtain ⟨inMemory, servings⟩ := facts store created
  have isCreated : Store.create Samples.deployment.traced.database
      Samples.deployment.traced.config Samples.deployment.traced.store #[]
      Samples.deployment.traced.world = (.ok store, _) :=
    Prod.ext (toOption_eq_some.mp created) rfl
  have tracks : Samples.deployment.database.TracksTransactions := Tables.tracksTransactions _
  have checks : Samples.deployment.database.ChecksTransactions := Tables.checksTransactions _
  have run := run_enact inMemory
  exact ⟨store, _, _, _, tracks, checks, fun _ => rfl, isCreated, run, steps_enact _ _, servings,
    transactions_bracketed tracks checks (fun _ => rfl) isCreated run⟩

end Deployment
end EntityStore
