/-
The texts that are sent. Of each operation there is a list of texts of which it sends the
first ones, in order, and all of them if it succeeds. A statement counts as sent whether it
is granted or refused. A save sends the texts of its plan as far as insertions go; what
removes or loads a row sends texts that only say which table it is in.
-/

import EntityStore.Proofs.CallTraces
import EntityStore.Proofs.SaveShapes
import EntityStore.Proofs.Services
import EntityStore.Proofs.Circles
import EntityStore.Proofs.Settling

set_option autoImplicit false

namespace EntityStore

namespace Deed

def text? : Deed → Option String
  | execute statement | query statement => some statement.text
  | _ => none

def insertText? : Deed → Option String
  | execute statement =>
      match statement.request with
      | .insert .. => some statement.text
      | _ => none
  | _ => none

/-- Of calls that manage a connection nothing is picked. -/
def PicksStatements (pick : Deed → Option String) : Prop :=
  ∀ exchange : Exchange, exchange.Manages → pick exchange.deed = none

private theorem picksStatements_text? : PicksStatements text? := by
  rintro exchange (same | same | same | same | same) <;> rw [same] <;> rfl

private theorem picksStatements_insertText? : PicksStatements insertText? := by
  rintro exchange (same | same | same | same | same) <;> rw [same] <;> rfl

end Deed

/-- What is picked of calls, in order, whether they were granted or refused. -/
def picked (pick : Deed → Option String) (calls : List Exchange) : List String :=
  calls.filterMap fun call => pick call.deed

private theorem picked_append (pick : Deed → Option String) (calls more : List Exchange) :
    picked pick (calls ++ more) = picked pick calls ++ picked pick more :=
  List.filterMap_append

/-- The first of the texts were sent, in order, and all of them if there is a result. -/
structure Sent {α : Type} (pick : Deed → Option String) (texts : List String)
    (outcome : Except Error α) (calls : List Exchange) : Prop where
  begins : picked pick calls <+: texts
  completes : ∀ result, outcome = .ok result → picked pick calls = texts

namespace Sent

variable {α β : Type} {pick : Deed → Option String} {texts later : List String}
  {outcome : Except Error α} {calls more : List Exchange}

private theorem transfer {other : Except Error β} (sent : Sent pick texts outcome calls)
    (same : picked pick more = picked pick calls)
    (succeeds : ∀ result, other = .ok result → ∃ result, outcome = .ok result) :
    Sent pick texts other more := by
  refine ⟨same ▸ sent.begins, fun result ok => ?_⟩
  obtain ⟨result', ok'⟩ := succeeds result ok
  exact same.trans (sent.completes result' ok')

private theorem append {result : β} {first : List Exchange}
    (sent : Sent pick texts (.ok result) first) (sentLater : Sent pick later outcome more) :
    Sent pick (texts ++ later) outcome (first ++ more) := by
  have whole := sent.completes result rfl
  constructor
  · rw [picked_append, whole]
    exact (List.prefix_append_right_inj _).mpr sentLater.begins
  · intro result' ok
    rw [picked_append, whole, sentLater.completes result' ok]

theorem of_error_nil {error : Error} : Sent pick texts (.error error : Except Error α) [] :=
  ⟨List.nil_prefix, by rintro _ ⟨⟩⟩

private theorem of_error {error error' : Error}
    (sent : Sent pick texts (.error error : Except Error β) calls) :
    Sent pick (texts ++ later) (.error error' : Except Error α) calls :=
  ⟨sent.begins.trans (List.prefix_append _ _), by rintro _ ⟨⟩⟩

end Sent

namespace Store

variable {World α β : Type} {inner : Deployment World} {thread : ThreadId} {lease : LeaseId}
  {pick : Deed → Option String} {texts later : List String}

/-! ### On the connection of a lease -/

def Sends (pick : Deed → Option String) (lease : LeaseId) (operation : Operation (Traced World) α)
    (texts : List String) (holds : α → Prop) : Prop :=
  Traces lease operation fun outcome calls =>
    Sent pick texts outcome calls ∧ ∀ result, outcome = .ok result → holds result

theorem sends_pure {result : α} {holds : α → Prop} (held : holds result) :
    Sends pick lease (pure result : Operation (Traced World) α) [] holds := by
  refine traces_pure ⟨⟨List.prefix_rfl, fun _ _ => rfl⟩, ?_⟩
  rintro _ ⟨⟩
  exact held

theorem sends_throw {error : Error} {holds : α → Prop} :
    Sends pick lease (throw error : Operation (Traced World) α) texts holds :=
  traces_throw ⟨⟨List.nil_prefix, by rintro _ ⟨⟩⟩, by rintro _ ⟨⟩⟩

private theorem sends_bind {operation : Operation (Traced World) α}
    {next : α → Operation (Traced World) β}
    {first : α → Prop} {holds : β → Prop} (sends : Sends pick lease operation texts first)
    (sendsLater : ∀ result, first result → Sends pick lease (next result) later holds) :
    Sends pick lease (operation >>= next) (texts ++ later) holds := by
  refine traces_bind sends ?_ fun result calls ⟨sent, held⟩ => ?_
  · rintro error calls ⟨sent, _⟩
    exact ⟨sent.of_error, by rintro _ ⟨⟩⟩
  · exact (sendsLater result (held result rfl)).weaken fun outcome more ⟨sentLater, heldLater⟩ =>
      ⟨sent.append sentLater, heldLater⟩

/-- A part that sends nothing may come first. -/
theorem sends_silent_bind {operation : Operation (Traced World) α}
    {next : α → Operation (Traced World) β} {first : α → Prop} {holds : β → Prop}
    (sends : Sends pick lease operation [] first)
    (sendsLater : ∀ result, first result → Sends pick lease (next result) texts holds) :
    Sends pick lease (operation >>= next) texts holds :=
  sends_bind sends sendsLater

/-- A part that sends nothing may come last. -/
theorem sends_bind_silent {operation : Operation (Traced World) α}
    {next : α → Operation (Traced World) β} {first : α → Prop} {holds : β → Prop}
    (sends : Sends pick lease operation texts first)
    (sendsLater : ∀ result, first result → Sends pick lease (next result) [] holds) :
    Sends pick lease (operation >>= next) texts holds := by
  have both := sends_bind sends sendsLater
  rwa [List.append_nil] at both

theorem sends_throw_bind {error : Error} {next : α → Operation (Traced World) β}
    {holds : β → Prop} : Sends pick lease (throw error >>= next) texts holds := by
  have never : Sends pick lease (throw error : Operation (Traced World) α) texts fun _ => False :=
    sends_throw
  exact sends_bind_silent never fun _ impossible => impossible.elim

private theorem sends_settleOutcome {outcome : Except Error α} :
    Sends pick lease (settleOutcome outcome : Operation (Traced World) α) [] fun _ => True := by
  cases outcome with
  | ok result => exact sends_pure trivial
  | error error => exact sends_throw

/-- A single call sends its text, if one is picked of it. -/
theorem sends_call {request : ConnectionId → Call World α} {deed : Deed} {rows : α → List Row}
    (isText : (pick deed).toList = texts) :
    Sends pick lease (call lease fun connection =>
      Traced.tracing connection deed rows (request connection)) texts fun _ => True := by
  refine traces_call fun connection answer => ⟨⟨?_, fun _ _ => ?_⟩, fun _ _ => trivial⟩
  all_goals
    rw [← isText]
    unfold picked
    cases found : pick deed <;> simp [found]

/-! ### Units -/

section Units

variable {store : Store (Traced World)} (picks : Deed.PicksStatements pick)
include picks

private theorem picked_eq_nil {calls : List Exchange} (manage : ∀ call ∈ calls, call.Manages) :
    picked pick calls = [] :=
  List.filterMap_eq_nil_iff.mpr fun call member => picks call (manage call member)

theorem Framed.sent {outcome : Except Error α} {calls : List Exchange}
    (framed : Framed (Sent pick texts) outcome calls) : Sent pick texts outcome calls := by
  cases framed with
  | refused manage _ =>
      refine ⟨?_, by rintro _ ⟨⟩⟩
      rw [picked_eq_nil picks manage]
      exact List.nil_prefix
  | worked sent before after =>
      refine sent.transfer ?_ fun result ok => ⟨result, ok⟩
      rw [picked_append, picked_append, picked_eq_nil picks before, picked_eq_nil picks after,
        List.nil_append, List.append_nil]
  | undone sent before after _ =>
      refine sent.transfer ?_ (by rintro _ ⟨⟩)
      rw [picked_append, picked_append, picked_eq_nil picks before, picked_eq_nil picks after,
        List.nil_append, List.append_nil]

/-- A unit sends the texts of its work, but for calls that manage its connection. -/
theorem sent_unit {work : Work (Traced World) α} {transactional : Bool} (leased : store.Leased)
    (sends : ∀ lease, Sends pick lease (work lease) texts fun _ => True) :
    Ensures (unit (inner.traced.session thread) transactional work) store
      (store.Prolongs (Sent pick texts)) := by
  have traces : ∀ lease, Traces lease (work lease) (Sent pick texts) :=
    fun lease => (sends lease).weaken fun _ _ => And.left
  refine (prolongs_unit traces leased).weaken fun outcome after prolongs => ?_
  refine prolongs.weaken fun calls made => ?_
  rcases made with ⟨_, ⟨error, rfl⟩, manage⟩ | ⟨done, rfl, framed⟩
  · refine ⟨?_, by rintro _ ⟨⟩⟩
    rw [picked_eq_nil picks manage]
    exact List.nil_prefix
  · refine (framed.sent picks).transfer rfl fun result ok => ?_
    cases done with
    | ok both => exact ⟨both, rfl⟩
    | error error => cases ok

end Units

/-- What follows may make no more calls. -/
theorem sent_bind {store : Store (Traced World)} {operation : Operation (Traced World) α}
    {next : α → Operation (Traced World) β}
    (sent : Ensures operation store (store.Prolongs (Sent pick texts)))
    (silent : ∀ result between, ((next result).run between).2.pool = between.pool) :
    Ensures (operation >>= next) store (store.Prolongs (Sent pick texts)) := by
  apply ensures_bind
  refine sent.weaken fun outcome between ⟨calls, grown, sends⟩ => ?_
  cases outcome with
  | error error => exact ⟨calls, grown, sends.transfer rfl (by rintro _ ⟨⟩)⟩
  | ok result =>
      refine ⟨calls, ?_, sends.transfer rfl fun _ _ => ⟨result, rfl⟩⟩
      rw [silent result between]
      exact grown

/-! ### The insertions of a save -/

section Saves

private theorem sends_drawId (sequence : String) :
    Sends Deed.insertText? lease (drawId (inner.traced.session thread) lease sequence) []
      fun _ => True := by
  unfold drawId
  dsimp only
  split
  · exact sends_throw
  · refine sends_silent_bind (sends_call rfl) fun rows _ => ?_
    split
    · exact sends_pure trivial
    · exact sends_throw

private theorem sends_drawIds (plan : List PlannedNode) :
    Sends Deed.insertText? lease (drawIds (inner.traced.session thread) lease plan) []
      fun ids => ids.map Prod.fst =
        (plan.filter fun planned => (planned.sequence? inner.dialect).isSome).map
          PlannedNode.place := by
  induction plan with
  | nil => exact sends_pure rfl
  | cons planned rest ih =>
      unfold drawIds
      cases sequenced : planned.sequence? inner.dialect with
      | none =>
          rw [show planned.sequence? (inner.traced.session thread).dialect = none from sequenced,
            List.filter_cons_of_neg (by simp [sequenced])]
          exact ih
      | some sequence =>
          rw [show planned.sequence? (inner.traced.session thread).dialect = some sequence
            from sequenced, List.filter_cons_of_pos (by simp [sequenced])]
          refine sends_silent_bind (sends_drawId sequence) fun id _ => ?_
          refine sends_silent_bind ih fun ids places => sends_pure ?_
          rw [List.map_cons, List.map_cons, places]

private theorem names_columns (ids : Ids) (waiting : Waiting) :
    (waiting.columns ids).map Prod.fst = waiting.columnNames (ids.map Prod.fst) := by
  unfold Waiting.columns Waiting.columnNames
  dsimp only
  rw [List.map_append, List.map_map]
  refine congrArg₂ _ ?_ rfl
  cases found : ids.lookup waiting.planned.place with
  | some id =>
      have member : waiting.planned.place ∈ ids.map Prod.fst :=
        List.mem_map_of_mem (mem_of_lookup found)
      rw [List.contains_iff_mem.mpr member]
      rfl
  | none =>
      have unknown : (ids.map Prod.fst).contains waiting.planned.place = false := by
        refine Bool.eq_false_iff.mpr fun contained => ?_
        obtain ⟨id, isId⟩ := exists_lookup (List.contains_iff_mem.mp contained)
        rw [found] at isId
        cases isId
      rw [unknown]
      rfl

private theorem sends_insert (ids : Ids) (waiting : Waiting) :
    Sends Deed.insertText? lease (insert (inner.traced.session thread) lease ids waiting)
      [Statement.insertText inner.dialect waiting.planned.mapping
        (waiting.columnNames (ids.map Prod.fst))] fun _ => True := by
  unfold insert
  dsimp only
  refine sends_bind_silent (sends_call ?_) fun affected _ => ?_
  · rw [← names_columns]
    rfl
  split
  · exact sends_pure trivial
  · exact sends_silent_bind (sends_call rfl) fun id _ => sends_pure trivial

private theorem sends_insertAll (insertions : List Waiting) (ids : Ids) :
    Sends Deed.insertText? lease (insertAll (inner.traced.session thread) lease insertions ids)
      (insertionTexts inner.dialect (ids.map Prod.fst) insertions) fun _ => True := by
  induction insertions generalizing ids with
  | nil => exact sends_pure trivial
  | cons waiting rest ih =>
      unfold insertAll
      refine sends_bind (sends_insert ids waiting) fun written _ => ?_
      exact sends_bind_silent (ih _) fun _ _ => sends_pure trivial

private theorem sends_update (mapping : Mapping) (columns : List (String × Value)) (id : Int64) :
    Sends Deed.insertText? lease
      (update (inner.traced.session thread) lease mapping columns id) [] fun _ => True := by
  unfold update
  split
  · exact sends_silent_bind (sends_call rfl) fun _ _ => sends_pure trivial
  · exact sends_pure trivial

private theorem sends_completeAll (ids : Ids) (inserted : List (Waiting × Written)) :
    Sends Deed.insertText? lease
      (completeAll (inner.traced.session thread) lease ids inserted) [] fun _ => True := by
  induction inserted with
  | nil => exact sends_pure trivial
  | cons entry rest ih =>
      unfold completeAll
      refine sends_silent_bind (sends_update _ _ _) fun _ _ => ?_
      exact sends_silent_bind ih fun _ _ => sends_pure trivial

private theorem sends_rowBefore (content : Instance) :
    Sends Deed.insertText? lease (rowBefore (inner.traced.session thread) lease content) []
      fun _ => True := by
  have fetches : Sends Deed.insertText? lease
      (fetchRow (inner.traced.session thread) lease content.mapping content.key) []
      fun _ => True := by
    unfold fetchRow
    split
    · exact sends_pure trivial
    · exact sends_silent_bind (sends_call rfl) fun _ _ => sends_pure trivial
  unfold rowBefore
  split
  · exact sends_pure trivial
  · refine sends_silent_bind fetches fun row _ => ?_
    split
    · exact sends_pure trivial
    · exact sends_throw

private theorem sends_updateAll (ids : Ids) (plan : List PlannedNode) :
    Sends Deed.insertText? lease (updateAll (inner.traced.session thread) lease ids plan) []
      fun _ => True := by
  induction plan with
  | nil => exact sends_pure trivial
  | cons planned rest ih =>
      unfold updateAll
      split
      · refine sends_silent_bind (sends_rowBefore _) fun old _ => ?_
        refine sends_silent_bind (sends_update _ _ _) fun _ _ => ?_
        exact sends_silent_bind ih fun _ _ => sends_pure trivial
      · exact ih

private theorem sends_writeAll (plan : List PlannedNode) :
    Sends Deed.insertText? lease (writeAll (inner.traced.session thread) lease plan)
      (planTexts inner.dialect plan) fun _ => True := by
  unfold writeAll
  refine sends_silent_bind (sends_drawIds plan) fun drawn places => ?_
  have known : (plan.filterMap PlannedNode.id? ++ drawn).map Prod.fst
      = placesKnown inner.dialect plan := by
    rw [List.map_append, places]
    rfl
  have inserts := @sends_insertAll _ inner thread lease
    (scheduleOf inner.dialect plan).insertions (plan.filterMap PlannedNode.id? ++ drawn)
  dsimp only
  rw [known] at inserts ⊢
  refine sends_bind_silent inserts fun ⟨inserted, ids⟩ _ => ?_
  have finishes : Sends Deed.insertText? lease (do
      let completed ← completeAll (inner.traced.session thread) lease ids inserted
      let changed ← updateAll (inner.traced.session thread) lease ids plan
      return completed ++ changed) [] fun _ => True :=
    sends_silent_bind (sends_completeAll ids inserted) fun _ _ =>
      sends_silent_bind (sends_updateAll ids plan) fun _ _ => sends_pure trivial
  dsimp only
  split
  · exact sends_throw_bind
  · exact finishes

/-- A save sends the insertions of its plan; without a graph it sends nothing. -/
theorem sent_save {store : Store (Traced World)} {root : InstanceId} (leased : store.Leased)
    (planned : ∀ graph, Graph.collect store.id store.memory root = .ok graph →
      planTexts inner.dialect (graph.plan inner.dialect) = texts) :
    Ensures (save (inner.traced.session thread) root) store
      (store.Prolongs (Sent Deed.insertText? texts)) := by
  unfold save
  refine prolongs_ensureOpen_bind (fun _ => .of_error_nil) fun _ => ?_
  refine prolongs_silent_bind (run_get store) rfl ?_
  refine prolongs_still_bind (run_settleOutcome _ store) (fun _ _ => .of_error_nil) ?_
  intro graph collected
  rw [← planned graph collected]
  split
  case isTrue =>
    refine sent_bind (sent_unit Deed.picksStatements_insertText? leased fun lease => ?_)
      fun written between => ?_
    · exact sends_bind_silent (sends_writeAll _) fun _ _ => sends_pure trivial
    · obtain ⟨after, settles⟩ := run_settleAll (inner.traced.session thread) written between
      rw [settles]
      exact pool_settleAll settles
  case isFalse unchanged =>
    have nothingNew : ∀ planned ∈ graph.plan inner.dialect, planned.isNew = false :=
      fun _ => Graph.isNew_of_unchanged (Bool.eq_false_iff.mpr unchanged)
    have none : planTexts inner.dialect (graph.plan inner.dialect) = [] := by
      unfold planTexts scheduleOf
      rw [(Schedule.ofPlan_of_none nothingNew).1]
      rfl
    rw [none]
    exact ⟨[], (List.append_nil _).symm, List.prefix_rfl, fun _ _ => rfl⟩

end Saves

/-! ### Queries -/

private theorem pool_rememberLoaded (mapping : Mapping) (entries : List (Key × Row))
    (store : Store World) : ((rememberLoaded mapping entries).run store).2.pool = store.pool := by
  induction entries generalizing store with
  | nil => rfl
  | cons entry rest ih =>
      have later := ih (store.addInstance (Instance.loaded store.id mapping entry.1 entry.2)).2
      have ran : (rememberLoaded mapping (entry :: rest)).run store = (do
          let subjects ← rememberLoaded mapping rest
          return store.memory.size :: subjects : Operation World (List InstanceId)).run
            (store.addInstance (Instance.loaded store.id mapping entry.1 entry.2)).2 := rfl
      rw [ran, run_bind]
      split <;> rename_i ended <;> rw [ended] at later <;> exact later

/-- A query sends its text, restricted to the page. -/
theorem sent_run {store : Store (Traced World)} (leased : store.Leased) (prepared : Query)
    (parameters : Parameters) (page : Page) :
    Ensures (run (inner.traced.session thread) prepared parameters page) store
      (store.Prolongs (Sent Deed.text?
        [(inner.dialect.paging page).text (prepared.compile inner.dialect).text])) := by
  unfold run
  refine prolongs_still_bind (run_settleOutcome _ store) (fun _ _ => .of_error_nil) ?_
  intro values _
  obtain ⟨outcome, ran, _⟩ := run_entityType prepared.root.entity store
  refine prolongs_still_bind ran (fun _ _ => .of_error_nil) fun mapping _ => ?_
  refine sent_bind (sent_unit Deed.picksStatements_text? leased fun lease => ?_)
    fun entries between => pool_rememberLoaded mapping entries between
  refine sends_bind_silent (sends_call rfl) fun rows _ => ?_
  exact sends_silent_bind sends_settleOutcome fun _ _ => sends_pure trivial

/-! ### Rows by id -/

def loadTexts (dialect : Dialect) (mapping : Mapping) (isKnown : Bool) : List String :=
  if isKnown then [] else [Statement.selectByIdText dialect mapping]

def removalTexts (dialect : Dialect) (content : Instance) : List String :=
  if content.state = .transient then []
  else loadTexts dialect content.mapping content.row.isSome ++
    [Statement.deleteText dialect content.mapping]

private theorem sends_fetchRow {mapping : Mapping} {key : Key} :
    Sends Deed.text? lease (fetchRow (inner.traced.session thread) lease mapping key)
      (loadTexts inner.dialect mapping key.id.isNone) fun _ => True := by
  unfold fetchRow
  cases key.id with
  | none => exact sends_pure trivial
  | some id => exact sends_bind_silent (sends_call rfl) fun _ _ => sends_pure trivial

private theorem sent_loadRow {store : Store (Traced World)} (leased : store.Leased)
    (mapping : Mapping) (key : Key) :
    Ensures (loadRow (inner.traced.session thread) mapping key) store
      (store.Prolongs (Sent Deed.text? (loadTexts inner.dialect mapping
        ((store.cache.get key).1.isSome || key.id.isNone)))) := by
  unfold loadRow
  refine prolongs_ensureOpen_bind (fun _ => .of_error_nil) fun _ => ?_
  refine prolongs_silent_bind (run_cachedRow key store) rfl ?_
  cases (store.cache.get key).1 with
  | some row => exact ⟨[], (List.append_nil _).symm, List.prefix_rfl, fun _ _ => rfl⟩
  | none =>
      refine sent_unit Deed.picksStatements_text? (leased.transfer_same rfl rfl) fun lease => ?_
      exact sends_bind_silent sends_fetchRow fun _ _ => sends_pure trivial

theorem sent_find {store : Store (Traced World)} (leased : store.Leased) (mapping : Mapping)
    (id : Int64) :
    Ensures (find (inner.traced.session thread) mapping id) store
      (store.Prolongs (Sent Deed.text? (loadTexts inner.dialect mapping
        (store.cache.get (Key.withId mapping.entity id)).1.isSome))) := by
  have loads := @sent_loadRow _ inner thread _ leased mapping (Key.withId mapping.entity id)
  rw [show (Key.withId mapping.entity id).id.isNone = false from rfl, Bool.or_false] at loads
  unfold find
  refine sent_bind loads fun row between => ?_
  cases row <;> rfl

theorem sent_rowOf {store : Store (Traced World)} (leased : store.Leased) (subject : InstanceId) :
    Ensures (rowOf (inner.traced.session thread) subject) store
      (store.Prolongs (Sent Deed.text? (loadTexts inner.dialect (store.instanceAt subject).mapping
        ((store.instanceAt subject).row.isSome ||
          ((store.cache.get (store.instanceAt subject).key).1.isSome ||
            (store.instanceAt subject).key.id.isNone))))) := by
  unfold rowOf
  refine prolongs_silent_bind (run_get store) rfl ?_
  dsimp only
  split
  · exact ⟨[], (List.append_nil _).symm, .of_error_nil⟩
  cases (store.instanceAt subject).row with
  | some row => exact ⟨[], (List.append_nil _).symm, List.prefix_rfl, fun _ _ => rfl⟩
  | none =>
      refine sent_bind (sent_loadRow leased _ _) fun row between => ?_
      cases row <;> rfl

private theorem sends_deleteRow {content : Instance} {id : Int64}
    (keyed : content.key.id = some id) :
    Sends Deed.text? lease (do
      let row ← match content.row with
        | some row => pure (some row)
        | none => fetchRow (inner.traced.session thread) lease content.mapping content.key
      let _ ← execute (inner.traced.session thread) lease
        (Statement.delete (inner.traced.session thread).dialect content.mapping id)
      return ((), WriteSet.ofRemoval content.mapping content.key row))
      (loadTexts inner.dialect content.mapping content.row.isSome ++
        [Statement.deleteText inner.dialect content.mapping]) fun _ => True := by
  have deletes (row : Option Row) : Sends Deed.text? lease (do
      let _ ← execute (inner.traced.session thread) lease
        (Statement.delete (inner.traced.session thread).dialect content.mapping id)
      return ((), WriteSet.ofRemoval content.mapping content.key row) :
        Operation (Traced World) (Unit × WriteSet))
      [Statement.deleteText inner.dialect content.mapping] fun _ => True :=
    sends_bind_silent (sends_call rfl) fun _ _ => sends_pure trivial
  cases content.row with
  | some row => exact deletes (some row)
  | none =>
      have fetches := @sends_fetchRow _ inner thread lease content.mapping content.key
      rw [keyed] at fetches
      exact sends_bind fetches fun row _ => deletes row

theorem sent_remove {store : Store (Traced World)} (leased : store.Leased)
    (subject : InstanceId) :
    Ensures (remove (inner.traced.session thread) subject) store
      (store.Prolongs (Sent Deed.text?
        (removalTexts inner.dialect (store.instanceAt subject)))) := by
  have withdraws (between : Store (Traced World)) :
      ((withdraw (inner.traced.session thread) subject).run between).2.pool = between.pool :=
    pool_withdraw rfl
  unfold remove
  refine prolongs_ensureOpen_bind (fun _ => .of_error_nil) fun _ => ?_
  refine prolongs_silent_bind (run_get store) rfl ?_
  dsimp only
  unfold removalTexts
  split
  · exact ⟨[], (List.append_nil _).symm, .of_error_nil⟩
  · rename_i transient
    rw [if_pos transient]
    refine ⟨[], ?_, List.prefix_rfl, fun _ _ => rfl⟩
    rw [withdraws store, List.append_nil]
  · exact ⟨[], (List.append_nil _).symm, .of_error_nil⟩
  · rename_i keyed _ kept
    rw [if_neg kept]
    refine sent_bind (sent_unit Deed.picksStatements_text? leased fun lease => ?_)
      fun _ between => withdraws between
    exact sends_deleteRow keyed

end Store
end EntityStore
