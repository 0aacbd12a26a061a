/-
Mapping files and stores that are new. A store defines the types of a file and synchronises them
with a database. It executes the statements that are printed for the file, in their order: all of
them, as long as no table is found and no call is refused.
-/

import EntityStore.Proofs.Accounts
import EntityStore.Proofs.CallTraces
import EntityStore.Proofs.Journals
import EntityStore.Proofs.PrintedStatements
import EntityStore.Scripted

set_option autoImplicit false

namespace EntityStore

/-! ### Calls that execute statements in order -/

def Exchange.executed (calls : List Exchange) : List Statement :=
  calls.filterMap fun call => call.deed.executed?

namespace Exchange

private theorem executed_append (first second : List Exchange) :
    executed (first ++ second) = executed first ++ executed second :=
  List.filterMap_append

private theorem executed_of_manages {calls : List Exchange}
    (manage : ∀ call ∈ calls, call.Manages) : executed calls = [] := by
  apply List.filterMap_eq_nil_iff.mpr
  intro call member
  rcases manage call member with connects | closes | begins | commits | rollsBack
  all_goals simp only [Deed.executed?, *]

end Exchange

structure Exchange.Execute {α : Type} (statements : List Statement) (holds : α → Prop)
    (outcome : Except Error α) (calls : List Exchange) : Prop where
  among : Exchange.executed calls <+: statements
  whole : ∀ result, outcome = .ok result → Exchange.executed calls = statements ∧ holds result
  granted : (∃ result, outcome = .ok result) ∨ ∃ call ∈ calls, call.Refused

namespace Exchange.Execute

variable {α β : Type} {statements first second : List Statement} {holds : α → Prop}
  {between : β → Prop} {outcome : Except Error α} {error : Error} {calls later : List Exchange}

private theorem of_all {result : α} (all : executed calls = statements) (held : holds result) :
    Execute statements holds (.ok result) calls := by
  constructor
  · exact all ▸ List.prefix_rfl
  · intro other same
    cases same
    exact ⟨all, held⟩
  · exact Or.inl ⟨result, rfl⟩

private theorem refused (among : executed calls <+: statements)
    (refused : ∃ call ∈ calls, call.Refused) : Execute statements holds (.error error) calls := by
  constructor
  · exact among
  · intro result impossible
    cases impossible
  · exact Or.inr refused

private theorem refused_of_error (executes : Execute statements between (.error error) calls) :
    ∃ call ∈ calls, call.Refused := by
  rcases executes.granted with ⟨result, impossible⟩ | refused
  · cases impossible
  · exact refused

private theorem broken (executes : Execute first between (.error error) calls) :
    Execute (first ++ second) holds (.error error) calls :=
  .refused (executes.among.trans (List.prefix_append first second)) executes.refused_of_error

private theorem append {result : β} (executes : Execute first between (.ok result) calls)
    (executesLater : Execute second holds outcome later) :
    Execute (first ++ second) holds outcome (calls ++ later) := by
  obtain ⟨whole, -⟩ := executes.whole result rfl
  constructor
  · rw [executed_append, whole]
    exact (List.prefix_append_right_inj first).mpr executesLater.among
  · intro other isResult
    obtain ⟨wholeLater, held⟩ := executesLater.whole other isResult
    rw [executed_append, whole, wholeLater]
    exact ⟨rfl, held⟩
  · rcases executesLater.granted with isResult | ⟨call, member, refused⟩
    · exact Or.inl isResult
    · exact Or.inr ⟨call, List.mem_append_right calls member, refused⟩

private theorem after (executes : Execute statements holds outcome calls) {before : List Exchange}
    (manage : ∀ call ∈ before, call.Manages) :
    Execute statements holds outcome (before ++ calls) := by
  have still : Execute [] (fun _ : Unit => True) (.ok ()) before :=
    .of_all (executed_of_manages manage) trivial
  exact still.append executes

private theorem followed (executes : Execute statements holds outcome calls)
    (manage : ∀ call ∈ later, call.Manages) :
    Execute statements holds outcome (calls ++ later) := by
  have same : executed (calls ++ later) = executed calls := by
    rw [executed_append, executed_of_manages manage, List.append_nil]
  constructor
  · rw [same]
    exact executes.among
  · rw [same]
    exact executes.whole
  · rcases executes.granted with isResult | ⟨call, member, refused⟩
    · exact Or.inl isResult
    · exact Or.inr ⟨call, List.mem_append_left later member, refused⟩

private theorem map {change : β → α} {done : Except Error β}
    (executes : Execute statements between done calls)
    (held : ∀ result, between result → holds (change result)) :
    Execute statements holds (done.map change) calls := by
  cases done with
  | error error => exact .refused executes.among executes.refused_of_error
  | ok result =>
      obtain ⟨whole, heldBefore⟩ := executes.whole result rfl
      exact .of_all whole (held result heldBefore)

private theorem undone {result : β} (executes : Execute statements between (.ok result) calls)
    (manage : ∀ call ∈ later, call.Manages) (refuses : ∃ call ∈ later, call.Refused) :
    Execute statements holds (.error error) (calls ++ later) := by
  obtain ⟨call, member, refused⟩ := refuses
  exact .refused (executes.followed manage).among ⟨call, List.mem_append_right calls member, refused⟩

end Exchange.Execute

/-! ### Where no table is found -/

def Event.Finds (event : Event) : Prop :=
  ∃ table, event = .lookedUp table true

instance Event.decidableFinds : (event : Event) → Decidable event.Finds
  | .lookedUp table true => isTrue ⟨table, rfl⟩
  | .lookedUp _ false => isFalse fun ⟨_, impossible⟩ => nomatch impossible
  | .executed _ | .answered _ _ | .generated _ => isFalse fun ⟨_, impossible⟩ => nomatch impossible

def Journaled.FindsNone (entries : List (ConnectionId × Event)) : Prop :=
  ∀ entry ∈ entries, ¬entry.2.Finds

instance (entries : List (ConnectionId × Event)) : Decidable (Journaled.FindsNone entries) :=
  inferInstanceAs (Decidable (∀ entry ∈ entries, ¬entry.2.Finds))

theorem Journaled.findsNone_append {first second : List (ConnectionId × Event)} :
    FindsNone (first ++ second) ↔ FindsNone first ∧ FindsNone second :=
  List.forall_mem_append

namespace Traced

variable {World α β : Type}

structure Grows (before after : Traced (Journaled World)) (entries : List (ConnectionId × Event))
    (calls : List Exchange) : Prop where
  journal : after.world.journal = before.world.journal ++ entries
  trace : after.trace = before.trace ++ calls

def Managing (before after : Traced (Journaled World)) : Prop :=
  ∃ calls, Grows before after [] calls ∧ ∀ call ∈ calls, call.Manages

def UnlessFound (gives : Except Error α → List Exchange → Prop)
    (before : Traced (Journaled World)) (outcome : Except Error α)
    (after : Traced (Journaled World)) : Prop :=
  ∃ entries calls, Grows before after entries calls ∧
    (Journaled.FindsNone entries → gives outcome calls)

def Executing (statements : List Statement) (holds : α → Prop) :
    Traced (Journaled World) → Except Error α → Traced (Journaled World) → Prop :=
  UnlessFound (Exchange.Execute statements holds)

variable {before between left : Traced (Journaled World)} {statements : List Statement}
  {holds : α → Prop} {outcome : Except Error α}

theorem UnlessFound.weaken {strong weak : Except Error α → List Exchange → Prop}
    (unfound : UnlessFound strong before outcome left)
    (weaker : ∀ calls, strong outcome calls → weak outcome calls) :
    UnlessFound weak before outcome left := by
  obtain ⟨entries, calls, grows, given⟩ := unfound
  exact ⟨entries, calls, grows, fun none => weaker calls (given none)⟩

theorem Grows.refl (traced : Traced (Journaled World)) : Grows traced traced [] [] :=
  ⟨(List.append_nil _).symm, (List.append_nil _).symm⟩

theorem Grows.trans {first second : List (ConnectionId × Event)} {calls later : List Exchange}
    (grows : Grows before between first calls) (growsLater : Grows between left second later) :
    Grows before left (first ++ second) (calls ++ later) := by
  constructor
  · rw [growsLater.journal, grows.journal, List.append_assoc]
  · rw [growsLater.trace, grows.trace, List.append_assoc]

theorem Executing.after (executing : Executing statements holds between outcome left)
    (managing : Managing before between) : Executing statements holds before outcome left := by
  obtain ⟨calls, grows, manage⟩ := managing
  obtain ⟨entries, later, growsLater, executes⟩ := executing
  exact ⟨entries, calls ++ later, grows.trans growsLater, fun none => (executes none).after manage⟩

theorem Executing.followed (executing : Executing statements holds before outcome between)
    (managing : Managing between left) : Executing statements holds before outcome left := by
  obtain ⟨entries, calls, grows, executes⟩ := executing
  obtain ⟨later, growsLater, manage⟩ := managing
  refine ⟨entries ++ [], calls ++ later, grows.trans growsLater, ?_⟩
  intro none
  rw [List.append_nil] at none
  exact (executes none).followed manage

theorem Executing.map {middle : β → Prop} {change : β → α} {done : Except Error β}
    (executing : Executing statements middle before done left)
    (held : ∀ result, middle result → holds (change result)) :
    Executing statements holds before (done.map change) left := by
  obtain ⟨entries, calls, grows, executes⟩ := executing
  exact ⟨entries, calls, grows, fun none => (executes none).map held⟩

private theorem grows_inside {connection : ConnectionId} {deed : Deed} {rows : α → List Row}
    {request : Call World α} {answer : Except DatabaseError α}
    (answered : tracing connection deed rows (Journaled.inside request) before = (answer, left)) :
    Grows before left [] [⟨connection, deed, answer.map rows⟩] := by
  cases answered
  constructor
  · exact (List.append_nil _).symm
  · rfl

private theorem executing_noting {connection : ConnectionId} {deed : Deed} {rows : α → List Row}
    {event : α → Event} {request : Call World α} {answer : Except DatabaseError α}
    (answered : tracing connection deed rows (Journaled.noting connection event request) before
      = (answer, left))
    (held : ∀ result, ¬(event result).Finds → holds result) :
    Executing deed.executed?.toList holds before (answer.mapError Error.ofDatabase) left := by
  have single (answer : Except DatabaseError (List Row)) :
      Exchange.executed [⟨connection, deed, answer⟩] = deed.executed?.toList := by
    unfold Exchange.executed
    cases isExecuted : deed.executed? <;> simp [isExecuted]
  unfold tracing Journaled.noting at answered
  rcases asked : request before.world.world with ⟨result | result, world⟩
  case error =>
    rw [asked] at answered
    cases answered
    refine ⟨[], _, ⟨(List.append_nil _).symm, rfl⟩, ?_⟩
    intro _
    apply Exchange.Execute.refused
    · exact single _ ▸ List.prefix_rfl
    · exact ⟨_, List.mem_cons_self, result, rfl⟩
  case ok =>
    rw [asked] at answered
    cases answered
    refine ⟨_, _, ⟨rfl, rfl⟩, ?_⟩
    intro none
    have missing := none (connection, event result) List.mem_cons_self
    exact .of_all (single _) (held result missing)

private theorem managing_inside {connection : ConnectionId} {deed : Deed} {rows : α → List Row}
    {request : Call World α} {answer : Except DatabaseError α}
    (answered : tracing connection deed rows (Journaled.inside request) before = (answer, left))
    (manages : (⟨connection, deed, answer.map rows⟩ : Exchange).Manages) :
    Managing before left :=
  ⟨_, grows_inside answered, List.forall_mem_singleton.mpr manages⟩

private theorem executing_refused {connection : ConnectionId} {deed : Deed} {rows : β → List Row}
    {request : Call World β} {fault : DatabaseError} {error : Error}
    (answered : tracing connection deed rows (Journaled.inside request) before
      = (.error fault, left))
    (manages : (⟨connection, deed, .error fault⟩ : Exchange).Manages) :
    Executing statements holds before (.error error) left := by
  have none : Exchange.executed [⟨connection, deed, .error fault⟩] = [] :=
    Exchange.executed_of_manages (List.forall_mem_singleton.mpr manages)
  refine ⟨[], [⟨connection, deed, .error fault⟩], grows_inside answered, ?_⟩
  intro _
  apply Exchange.Execute.refused
  · rw [none]
    exact List.nil_prefix
  · exact ⟨_, List.mem_cons_self, fault, rfl⟩

/-- What was executed comes to nothing where a call that manages the connection is refused. -/
theorem Executing.undone {connection : ConnectionId} {deed : Deed} {rows : β → List Row}
    {request : Call World β} {result : α} {fault : DatabaseError} {error : Error}
    (executing : Executing statements holds before (.ok result) between)
    (answered : tracing connection deed rows (Journaled.inside request) between
      = (.error fault, left))
    (manages : (⟨connection, deed, .error fault⟩ : Exchange).Manages) :
    Executing statements holds before (.error error) left := by
  obtain ⟨entries, calls, grows, executes⟩ := executing
  refine ⟨entries ++ [], _, grows.trans (grows_inside answered), ?_⟩
  intro none
  rw [List.append_nil] at none
  apply (executes none).undone
  · exact List.forall_mem_singleton.mpr manages
  · exact ⟨_, List.mem_cons_self, fault, rfl⟩

private theorem executing_bracket {database : Database World} {connection : ConnectionId}
    (runs : Store.BracketRuns (Traced.database (Journaled.database database)) connection
      (Executing statements holds) true before outcome left) :
    Executing statements holds before outcome left := by
  have begins (answer : Except DatabaseError (List Row)) :
      (⟨connection, .begin, answer⟩ : Exchange).Manages := Or.inr (Or.inr (Or.inl rfl))
  have commits (answer : Except DatabaseError (List Row)) :
      (⟨connection, .commit, answer⟩ : Exchange).Manages :=
    Or.inr (Or.inr (Or.inr (Or.inl rfl)))
  have rollsBack (answer : Except DatabaseError (List Row)) :
      (⟨connection, .rollback, answer⟩ : Exchange).Manages :=
    Or.inr (Or.inr (Or.inr (Or.inr rfl)))
  cases runs with
  | notBegun refused => exact executing_refused refused (begins _)
  | failed begun done rolledBack =>
      have executing := Executing.after done (managing_inside begun (begins _))
      exact executing.followed (managing_inside rolledBack (rollsBack _))
  | notCommitted begun done refused rolledBack =>
      have executing := Executing.after done (managing_inside begun (begins _))
      apply Executing.followed ?_ (managing_inside rolledBack (rollsBack _))
      exact executing.undone refused (commits _)
  | committed begun done committed =>
      have executing := Executing.after done (managing_inside begun (begins _))
      exact executing.followed (managing_inside committed (commits _))

/-! ### Pools -/

private theorem managing_acquire {database : Database World}
    (pool : Pool (Traced (Journaled World))) :
    Managing pool.world
      (pool.acquire (Traced.database (Journaled.database database))).2.world := by
  obtain ⟨calls, grown, opens⟩ := @trace_acquire _ (Journaled.database database) pool
  refine ⟨calls, ⟨?_, grown⟩, fun call member => Or.inl (opens call member)⟩
  rw [List.append_nil]
  exact @Pool.view_acquire _ (Traced.database (Journaled.database database)) _
    (fun traced => traced.world.journal) (fun _ _ => rfl) pool

private theorem managing_release {database : Database World}
    {pool : Pool (Traced (Journaled World))} {lease : LeaseId} {connection : ConnectionId}
    (held : pool.leased.lookup lease = some connection) (now : Nat) :
    Managing pool.world
      (pool.release (Traced.database (Journaled.database database)) now lease).world := by
  have releases := Pool.releases (Traced.database (Journaled.database database)) now lease pool
  obtain ⟨calls, grown, closes⟩ := trace_releases held releases
  refine ⟨calls, ⟨?_, grown⟩, ?_⟩
  · rw [List.append_nil]
    exact @Pool.view_release _ (Traced.database (Journaled.database database)) _
      (fun traced => traced.world.journal) (fun _ _ => rfl) (fun _ _ => rfl) (fun _ _ => rfl)
      now lease pool
  · intro call member
    exact (closes call member).imp id fun ⟨close, _⟩ => Or.inl close

end Traced

/-! ### Pools that are new -/

namespace Pool

variable {World : Type} {database : Database World}

private theorem isClosed_addIdles {now count : Nat} {pool after : Pool World}
    (added : addIdles database now count pool = (.ok (), after)) :
    after.isClosed = pool.isClosed := by
  induction count generalizing pool with
  | zero =>
      cases added
      rfl
  | succ count ih =>
      unfold addIdles at added
      rcases one : pool.addIdle database now with ⟨outcome, between⟩
      rw [one] at added
      cases outcome with
      | error fault => cases added
      | ok _ =>
          obtain ⟨world, -, rfl⟩ := addIdle_ok one
          have same := ih added
          exact same

private theorem isClosed_create {config : PoolConfig} {now : Nat} {world : World}
    {pool : Pool World}
    (created : create database config now world = (.ok (), pool)) : pool.isClosed = false := by
  unfold create at created
  simp only at created
  split at created
  · cases created
  · rename_i after added
    cases created
    exact isClosed_addIdles added

end Pool

/-! ### Operations that execute statements -/

namespace Store

variable {World α β : Type} {inner : Deployment World} {thread : ThreadId} {lease : LeaseId}

/-- The operation executes statements on the connection of the lease, if no table is found. -/
def Emits (lease : LeaseId) (operation : Operation (Traced (Journaled World)) α)
    (statements : List Statement) (holds : α → Prop) : Prop :=
  Performs lease operation fun _ => Traced.Executing statements holds

variable {statements first second : List Statement}

private theorem emits_pure {holds : α → Prop} {result : α} (held : holds result) :
    Emits lease (pure result : Operation (Traced (Journaled World)) α) [] holds := by
  apply performs_pure
  intro connection world
  refine ⟨[], [], .refl world, ?_⟩
  intro _
  exact .of_all rfl held

theorem Emits.given {operation : Operation (Traced (Journaled World)) α} {holds : α → Prop}
    {condition : Prop} (emits : Emits lease operation statements holds) :
    Performs lease operation fun _ => Traced.UnlessFound fun outcome calls =>
      condition → Exchange.Execute statements holds outcome calls := by
  apply emits.weaken
  intro connection before outcome after executing
  exact Traced.UnlessFound.weaken executing fun _ executes _ => executes

/-- The rule for sequences. What holds of the first result does so only if no table is found; the
second part is free to do anything otherwise. -/
theorem emits_bind {operation : Operation (Traced (Journaled World)) α}
    {next : α → Operation (Traced (Journaled World)) β} {between : α → Prop} {holds : β → Prop}
    (emits : Emits lease operation first between)
    (emitsLater : ∀ result, Performs lease (next result) fun _ => Traced.UnlessFound
      fun outcome calls => between result → Exchange.Execute second holds outcome calls) :
    Emits lease (operation >>= next) (first ++ second) holds := by
  apply performs_bind emits emitsLater
  · rintro connection before error after ⟨entries, calls, grows, executes⟩
    exact ⟨entries, calls, grows, fun none => (executes none).broken⟩
  · rintro connection before result middle outcome after ⟨entries, calls, grows, executes⟩
      ⟨others, later, growsLater, executesLater⟩
    refine ⟨entries ++ others, calls ++ later, grows.trans growsLater, ?_⟩
    intro none
    obtain ⟨noneFirst, noneLater⟩ := Journaled.findsNone_append.mp none
    have executed := executes noneFirst
    obtain ⟨-, held⟩ := executed.whole result rfl
    exact executed.append (executesLater noneLater held)

private theorem emits_map {operation : Operation (Traced (Journaled World)) α} {change : α → β}
    {between : α → Prop} {holds : β → Prop} (emits : Emits lease operation statements between)
    (held : ∀ result, between result → holds (change result)) :
    Emits lease (do let result ← operation; return change result) statements holds := by
  rw [← List.append_nil statements]
  apply emits_bind emits
  intro result
  apply performs_pure
  intro connection world
  refine ⟨[], [], .refl world, ?_⟩
  intro _ heldBefore
  exact .of_all rfl (held result heldBefore)

/-- A rule for sequences whose second part does not depend on what holds of the first result. -/
theorem emits_then {operation : Operation (Traced (Journaled World)) α}
    {next : α → Operation (Traced (Journaled World)) β} {between : α → Prop} {holds : β → Prop}
    (emits : Emits lease operation first between)
    (emitsLater : ∀ result, Emits lease (next result) second holds) :
    Emits lease (operation >>= next) (first ++ second) holds := by
  apply emits_bind emits
  intro result
  exact (emitsLater result).given

private theorem emits_noted {request : ConnectionId → Call World α} {deed : Deed}
    {rows : α → List Row}
    {event : α → Event} {holds : α → Prop} (held : ∀ result, ¬(event result).Finds → holds result) :
    Emits lease (call lease fun connection => Traced.tracing connection deed rows
      (Journaled.noting connection event (request connection))) deed.executed?.toList holds := by
  apply performs_call
  intro connection before
  exact Traced.executing_noting rfl held

private theorem emits_executeAll (statements : List Statement) :
    Emits lease (executeAll (inner.journaled.traced.session thread) lease statements) statements
      fun _ => True := by
  induction statements with
  | nil => exact emits_pure trivial
  | cons statement rest ih =>
      have emits : Emits lease
          (execute (inner.journaled.traced.session thread) lease statement) [statement]
          fun _ => True := emits_noted fun _ _ => trivial
      exact emits_then emits fun _ => ih

private theorem emits_defaultSchema :
    Emits lease (defaultSchema (inner.journaled.traced.session thread) lease) []
      fun _ => True := by
  unfold defaultSchema
  split
  · exact emits_pure trivial
  · have emits (statement : Statement) : Emits lease
        (query (inner.journaled.traced.session thread) lease statement) [] fun _ => True :=
      emits_noted fun _ _ => trivial
    exact emits_map (emits _) fun _ _ => trivial

private theorem emits_createMissing (defines : inner.dialect.Defines) (default : Option String)
    (mappings : List Mapping) :
    Emits lease (createMissing (inner.journaled.traced.session thread) lease default mappings)
      (Statement.creations inner.dialect mappings) (· = mappings.map Mapping.entity) := by
  induction mappings with
  | nil => exact emits_pure rfl
  | cons mapping rest ih =>
      obtain ⟨statements, created⟩ := defines.exists_creation mapping
      have looks : Emits lease
          (tableExists (inner.journaled.traced.session thread) lease default mapping) []
          fun found => found = false := by
        apply emits_noted
        intro found missing
        by_contra isFound
        exact missing ⟨_, congrArg _ (Bool.eq_true_of_not_eq_false isFound)⟩
      have creates : Emits lease (do
          let statements ← settleOutcome ((Statement.creation inner.dialect mapping).mapError
            (.mapping inner.dialect.name))
          executeAll (inner.journaled.traced.session thread) lease statements
          let names ← createMissing (inner.journaled.traced.session thread) lease default rest
          return mapping.entity :: names)
          (Statement.creations inner.dialect (mapping :: rest))
          (· = (mapping :: rest).map Mapping.entity) := by
        rw [Statement.creations_cons created, created]
        apply emits_then (emits_executeAll statements)
        intro _
        apply emits_map ih
        intro names same
        rw [same, List.map_cons]
      unfold createMissing
      apply emits_bind looks
      intro found
      cases found with
      | true =>
          -- This type is passed over, so nothing is said of the calls any more.
          apply ih.weaken
          intro connection before outcome after executing
          apply Traced.UnlessFound.weaken executing
          intro calls _ impossible
          cases impossible
      | false => exact creates.given

private theorem emits_work (defines : inner.dialect.Defines) (mappings : List Mapping) :
    Emits lease (do
        let default ← defaultSchema (inner.journaled.traced.session thread) lease
        let names ← createMissing (inner.journaled.traced.session thread) lease default mappings
        return (names, ({} : WriteSet)))
      (Statement.creations inner.dialect mappings)
      fun result => result.1 = mappings.map Mapping.entity := by
  apply emits_then emits_defaultSchema
  intro default
  apply emits_map (emits_createMissing defines default mappings)
  intro names same
  exact same

/-! ### Stores that are new -/

structure Fresh {Content : Type} (store : Store Content) : Prop where
  isOpen : store.isOpen = true
  outside : store.transactions = []
  unclosed : store.pool.isClosed = false
  room : store.pool.idle = [] → store.pool.openCount < store.pool.config.maxSize

variable {store : Store (Traced (Journaled World))}

theorem Fresh.executing_unconnected {holds : α → Prop} (fresh : store.Fresh) {error : Error}
    {pool : Pool (Traced (Journaled World))}
    (failed : store.pool.acquire inner.journaled.traced.database = (.error error, pool)) :
    Traced.Executing statements holds store.pool.world (.error error) pool.world := by
  have ends := Pool.acquires inner.journaled.traced.database store.pool
  rw [failed] at ends
  cases ends with
  | closed isClosed =>
      rw [fresh.unclosed] at isClosed
      cases isClosed
  | exhausted _ noneWaits noRoom => exact absurd (fresh.room noneWaits) noRoom
  | refused connects => exact Traced.executing_refused connects (Or.inl rfl)

private theorem managing_released {connection : ConnectionId}
    (held : store.pool.leased.lookup lease = some connection) :
    Traced.Managing store.pool.world
      (store.released (inner.journaled.traced.session thread) lease).pool.world :=
  Traced.managing_release held store.clock

theorem Fresh.executing_unit {work : Work (Traced (Journaled World)) α} {holds : α → Prop}
    (fresh : store.Fresh)
    (emits : ∀ lease, Emits lease (work lease) statements fun result => holds result.1) :
    Ensures (unit (inner.journaled.traced.session thread) true work) store
      fun outcome after => Traced.Executing statements holds store.pool.world outcome
        after.pool.world := by
  have outside : store.transaction? thread = none := by
    unfold Store.transaction?
    rw [fresh.outside]
    rfl
  -- The bracket stands behind the opening of its connection; the paths differ in what follows it.
  have within {lease : LeaseId} {pool : Pool (Traced (Journaled World))} {connection : ConnectionId}
      {outcome : Except Error (α × WriteSet)} {world : Traced (Journaled World)}
      (acquired : store.pool.acquire inner.journaled.traced.database = (.ok lease, pool))
      (bracketed : BracketRuns inner.journaled.traced.database connection
        (Traced.Executing statements fun result => holds result.1) true pool.world outcome world) :
      Traced.Executing statements holds store.pool.world (outcome.map Prod.fst) world := by
    have managing := @Traced.managing_acquire _ inner.database store.pool
    rw [show store.pool.acquire (Traced.database (Journaled.database inner.database)) = _
      from acquired] at managing
    exact ((Traced.executing_bracket bracketed).after managing).map fun _ held => held
  have runs := @runs_unit _ _ (inner.journaled.traced.session thread) store work _ true emits
    (fun transaction inside => nomatch outside.symm.trans inside)
  apply Ensures.weaken runs
  intro outcome after ends
  cases ends with
  | closed isClosed =>
      rw [fresh.isOpen] at isClosed
      cases isClosed
  | recorded _ inside => cases outside.symm.trans inside
  | aborted _ inside => cases outside.symm.trans inside
  | unconnected _ _ failed => exact fresh.executing_unconnected failed
  | @applied pool lease connection world result writes _ _ acquired held bracketed =>
      have releasing := @managing_released _ inner thread lease (written writes
        store.cache.generation { store with pool := { pool with world := world } }) connection
      rw [pool_written] at releasing
      exact (within acquired bracketed).followed (releasing held)
  | @failed pool lease connection world error _ _ acquired held bracketed =>
      have releasing := @managing_released _ inner thread lease
        { store with pool := { pool with world := world } } connection
      exact (within acquired bracketed).followed (releasing held)

theorem Fresh.executing_sync (fresh : store.Fresh) (defines : inner.dialect.Defines) :
    Ensures (sync (inner.journaled.traced.session thread)) store fun outcome after =>
      Traced.Executing (Statement.creations inner.dialect store.registry.mappings)
        (· = store.registry.mappings.map Mapping.entity) store.pool.world outcome
        after.pool.world := by
  unfold sync
  apply ensures_bind
  unfold Ensures
  rw [run_get]
  exact fresh.executing_unit fun lease => emits_work defines store.registry.mappings

private theorem fresh_create {world : Traced World} {opened : Store (Traced World)}
    (created : Store.create inner.traced.database inner.traced.config inner.traced.store #[]
      inner.traced.world = (.ok opened, world)) :
    opened.Fresh ∧ opened.registry = {} := by
  obtain ⟨pool, made, rfl⟩ := Deployment.create_ok created
  have balanced := Pool.balanced_create made
  obtain ⟨-, noLeases⟩ := Pool.numbered_create made
  refine ⟨⟨rfl, rfl, Pool.isClosed_create made, ?_⟩, rfl⟩
  intro noneWaits
  show pool.openCount < pool.config.maxSize
  rw [balanced.openCount, balanced.limited, noneWaits, noLeases]
  exact Nat.lt_of_lt_of_le Nat.one_pos (Nat.le_max_right _ 1)

end Store

/-! ### Files and stores -/

namespace Deployment

variable {World : Type} {inner : Deployment World} {thread : ThreadId} {name : String}
  {file : Commands.File} {batch : List Definition} {mappings : List Mapping}
  {created : Traced (Journaled World)} {store defined : Store (Traced (Journaled World))}

/-- A store that is new defines the types of a mapping file and synchronises them. It executes
the statements that are printed for the file in the dialect of the store, in their order and
without values, if no table is found: all of them, unless a call is refused. -/
theorem sync_executes_printed (shipped : Dialect.named name = .ok inner.dialect)
    (isFile : Commands.definitions file = .ok batch)
    (opened : Store.create inner.journaled.traced.database inner.journaled.traced.config
      inner.journaled.traced.store #[] inner.journaled.traced.world = (.ok store, created))
    (accepted : (Store.define batch).run store = (.ok mappings, defined)) :
    ∃ statements, Commands.statements name file = .ok (statements.map Statement.text) ∧
      (∀ statement ∈ statements, statement.values = []) ∧
      Store.Ensures (Store.sync (inner.journaled.traced.session thread)) defined
        fun outcome after => Traced.Executing statements (· = batch.map Prod.fst)
          defined.pool.world outcome after.pool.world := by
  obtain ⟨fresh, noTypes⟩ := Store.fresh_create opened
  rw [Store.run_define, if_pos fresh.isOpen, noTypes] at accepted
  split at accepted
  case h_2 => cases accepted
  case h_1 others registry isDefined =>
    cases accepted
    have defines := Commands.defines_of_named shipped
    have types := Registry.define_ok isDefined
    have printed := Commands.creationOf_of_buildAll defines types.buildAll
    have isRegistry : registry.mappings = mappings := by
      rw [types.eq_append]
      rfl
    have freshThen : Store.Fresh { store with registry := registry } :=
      ⟨fresh.isOpen, fresh.outside, fresh.unclosed, fresh.room⟩
    refine ⟨Statement.creations inner.dialect mappings, ?_, ?_, ?_⟩
    · rw [Commands.statements_eq shipped isFile, printed]
      rfl
    · intro statement member
      exact Statement.values_of_creations member
    · have synced := @Store.Fresh.executing_sync _ _ thread _ freshThen defines
      rw [show ({ store with registry := registry } : Store _).registry.mappings = mappings
        from isRegistry, Mapping.entity_buildAll types.buildAll] at synced
      exact synced

end Deployment

namespace Samples

/-- Cows have a schema and a sequence, are tame by default and refer to stalls, which come later. -/
def herd : List Definition := [
  ("Cow", ({} : MappingSpec)
    |>.withTable "cows"
    |>.withSchema "farm"
    |>.withSequence "cow_ids"
    |>.withProperty "tame" (.detailed ((plain "boolean").withDefault (.boolean true)))
    |>.withProperty "stall" (.detailed (PropertyOptions.object "Stall"))),
  ("Stall", ({} : MappingSpec).withProperty "number" (.bare "long"))]

def tableless : Deployment Scripted.World where
  database := Scripted.database ""
  dialect := Dialect.postgres
  config := TestStore.config
  store := 0
  world := {}

end Samples

namespace Deployment

set_option maxRecDepth 100000 in
/-- No table is found for cows and stalls, so both are created as it is printed. -/
theorem sync_executes_printed_herd :
    ∃ (batch : List Definition) (store defined after : Store (Traced (Journaled Scripted.World)))
      (created : Traced (Journaled Scripted.World)) (mappings : List Mapping)
      (names : List String) (calls : List Exchange),
      Commands.definitions (some (MappingSpec.fileText Samples.herd)) = .ok batch ∧
        Store.create Samples.tableless.journaled.traced.database
          Samples.tableless.journaled.traced.config Samples.tableless.journaled.traced.store #[]
          Samples.tableless.journaled.traced.world = (.ok store, created) ∧
        (Store.define batch).run store = (.ok mappings, defined) ∧
        (Store.sync (Samples.tableless.journaled.traced.session 0)).run defined
          = (.ok names, after) ∧
        after.pool.world.trace = defined.pool.world.trace ++ calls ∧
        names = ["Cow", "Stall"] ∧
        Commands.statements "postgres" (some (MappingSpec.fileText Samples.herd))
          = .ok ((Exchange.executed calls).map Statement.text) := by
  have facts : ∃ batch ∈
      (Commands.definitions (some (MappingSpec.fileText Samples.herd))).toOption,
      ∃ store ∈ (Store.create Samples.tableless.journaled.traced.database
        Samples.tableless.journaled.traced.config Samples.tableless.journaled.traced.store #[]
        Samples.tableless.journaled.traced.world).1.toOption,
      let defined := (Store.define batch).run store
      let synced := (Store.sync (Samples.tableless.journaled.traced.session 0)).run defined.2
      batch.map Prod.fst = ["Cow", "Stall"] ∧ defined.1.isOk = true ∧ synced.1.isOk = true ∧
        Journaled.FindsNone synced.2.pool.world.world.journal := by
    decide +kernel
  obtain ⟨batch, isBatch, store, isStore, sameNames, accepts, succeeds, noneFound⟩ := facts
  rcases accepted : (Store.define batch).run store with ⟨error | mappings, defined⟩
  case error =>
    rw [accepted] at accepts
    cases accepts
  rw [accepted] at succeeds noneFound
  rcases ran : (Store.sync (Samples.tableless.journaled.traced.session 0)).run defined
    with ⟨error | names, after⟩
  case error =>
    rw [ran] at succeeds
    cases succeeds
  rw [ran] at noneFound
  have isFile := toOption_eq_some.mp isBatch
  have opened : Store.create Samples.tableless.journaled.traced.database
      Samples.tableless.journaled.traced.config Samples.tableless.journaled.traced.store #[]
      Samples.tableless.journaled.traced.world = (.ok store, _) :=
    Prod.ext (toOption_eq_some.mp isStore) rfl
  have shipped : Dialect.named "postgres" = .ok Samples.tableless.dialect := rfl
  obtain ⟨statements, printed, -, synced⟩ :=
    @sync_executes_printed _ Samples.tableless 0 _ _ _ _ _ _ _ shipped isFile opened accepted
  unfold Store.Ensures at synced
  rw [ran] at synced
  obtain ⟨entries, calls, grows, executes⟩ := synced
  rw [grows.journal, Journaled.findsNone_append] at noneFound
  obtain ⟨all, names⟩ := (executes noneFound.2).whole _ rfl
  refine ⟨batch, store, defined, after, _, mappings, _, calls, isFile, opened, accepted, ran,
    grows.trace, names.trans sameNames, ?_⟩
  rw [all]
  exact printed

end Deployment

end EntityStore
