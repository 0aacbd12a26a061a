/-
What is created and what is dropped on a connection. Every statement that the connection executes
is known, those included that it refuses; where all goes well, so are the tables afterwards.
-/

import EntityStore.Proofs.Catalogues

set_option autoImplicit false

namespace EntityStore

/-! ### Statements that are executed -/

def Deed.executed? : Deed → Option Statement
  | execute statement => some statement
  | _ => none

/-- The statements that connections were called to execute, refused ones included. -/
def Traced.executed {World : Type} (traced : Traced World) : List Statement :=
  traced.trace.filterMap fun exchange => exchange.deed.executed?

theorem Traced.executed_of_tracing {World α : Type} {connection : ConnectionId} {deed : Deed}
    {rows : α → List Row} {request : Call World α} {traced after : Traced World}
    {outcome : Except DatabaseError α}
    (ended : tracing connection deed rows request traced = (outcome, after)) :
    after.executed = traced.executed ++ deed.executed?.toList := by
  unfold executed
  rw [trace_of_tracing ended, List.filterMap_append]
  cases isExecuted : deed.executed? <;> simp [isExecuted]

def Statement.creations (dialect : Dialect) (mappings : List Mapping) : List Statement :=
  mappings.flatMap fun mapping => (creation dialect mapping).toOption.getD []

def Statement.removals (dialect : Dialect) (mappings : List Mapping) : List Statement :=
  mappings.flatMap (removal dialect)

def Statement.ChangeAll {Place : Type} (place : QualifiedName → Place) :
    List Statement → Set Place → Set Place → Prop
  | [], before, after => after = before
  | statement :: rest, before, after =>
      ∃ between, statement.request.Changes place before between ∧ ChangeAll place rest between after

section Changes

variable {World : Type} {inventory : Inventory World} {dialect : Dialect} {mapping : Mapping}
  {statements : List Statement} {before after : Set inventory.Place}

private theorem changeAll_still
    (still : ∀ statement ∈ statements, ∀ before after : Set inventory.Place,
      statement.request.Changes inventory.place before after → after = before)
    (changes : Statement.ChangeAll inventory.place statements before after) : after = before := by
  induction statements generalizing before with
  | nil => exact changes
  | cons statement rest ih =>
      obtain ⟨between, changed, later⟩ := changes
      rw [ih (fun other member => still other (List.mem_cons_of_mem _ member)) later]
      exact still statement List.mem_cons_self before between changed

private theorem changes_of_creation (created : Statement.creation dialect mapping = .ok statements)
    (changes : Statement.ChangeAll inventory.place statements before after) :
    after = before ∪ {inventory.home mapping} := by
  unfold Statement.creation at created
  simp only [bind, Except.bind, pure, Except.pure] at created
  split at created
  · cases created
  rename_i table made
  cases created
  obtain ⟨between, changed, later⟩ := changes
  rw [Statement.request_of_createTable made] at changed
  refine (changeAll_still (fun statement member _ _ same => ?_) later).trans changed
  obtain ⟨sequence, _, drawn⟩ := Option.bind_eq_some_iff.mp (Option.mem_toList.mp member)
  obtain ⟨text, _, made⟩ := Option.bind_eq_some_iff.mp drawn
  cases made
  exact same

private theorem changes_of_removal (there : inventory.home mapping ∈ before)
    (changes : Statement.ChangeAll inventory.place (Statement.removal dialect mapping)
      before after) : after = before \ {inventory.home mapping} := by
  obtain ⟨between, changed, later⟩ := changes
  refine (changeAll_still (fun statement member _ _ same => ?_) later).trans (changed there)
  obtain ⟨sequence, _, drawn⟩ := Option.bind_eq_some_iff.mp (Option.mem_toList.mp member)
  obtain ⟨text, _, made⟩ := Option.bind_eq_some_iff.mp drawn
  cases made
  exact same

end Changes

/-! ### Effects on tables -/

/-- What types get that are to be created: the statements that are executed, in order, belong to
those whose table is missing at their turn, and are all of them if all goes well. -/
structure Inventory.Creates {World : Type} (inventory : Inventory World) (dialect : Dialect)
    (mappings : List Mapping) (before : Set inventory.Place) (outcome : Except Error (List String))
    (after : Set inventory.Place) (statements : List Statement) : Prop where
  among : statements <+: Statement.creations dialect (inventory.missing before mappings)
  whole : ∀ names, outcome = .ok names →
    names = (inventory.missing before mappings).map Mapping.entity ∧
      after = before ∪ inventory.homes mappings ∧
      statements = Statement.creations dialect (inventory.missing before mappings) ∧
      ∀ mapping ∈ inventory.missing before mappings,
        ∃ creation, Statement.creation dialect mapping = .ok creation

structure Inventory.Drops {World : Type} (inventory : Inventory World) (dialect : Dialect)
    (mappings : List Mapping) (before : Set inventory.Place) (outcome : Except Error (List String))
    (after : Set inventory.Place) (statements : List Statement) : Prop where
  among : statements <+: Statement.removals dialect (inventory.found before mappings)
  whole : ∀ names, outcome = .ok names →
    names = (inventory.found before mappings).map Mapping.entity ∧
      after = before \ inventory.homes mappings ∧
      statements = Statement.removals dialect (inventory.found before mappings)

/-- An effect on the tables that a connection sees, with the statements that it executes. -/
def Catalogue.Effects {World α : Type} {database : Database World} (catalogue : Catalogue database)
    (effect : Set catalogue.Place → Except Error α → Set catalogue.Place → List Statement → Prop)
    (connection : ConnectionId) (before : Traced World) (outcome : Except Error α)
    (after : Traced World) : Prop :=
  catalogue.Within connection before.world → ∃ statements,
    after.executed = before.executed ++ statements ∧
      effect (catalogue.seen before.world connection) outcome
        (catalogue.seen after.world connection) statements ∧
      ((∃ result, outcome = .ok result) → catalogue.Within connection after.world)

namespace Store

variable {World α β : Type} {inner : Deployment World} {thread : ThreadId} {lease : LeaseId}
  (catalogue : Catalogue inner.database)

def Alters (lease : LeaseId) (operation : Operation (Traced World) α)
    (effect : Set catalogue.Place → Except Error α → Set catalogue.Place → List Statement → Prop) :
    Prop :=
  Performs lease operation (catalogue.Effects effect)

variable {catalogue}
  {effect : Set catalogue.Place → Except Error α → Set catalogue.Place → List Statement → Prop}

theorem Alters.weaken {operation : Operation (Traced World) α}
    {weak : Set catalogue.Place → Except Error α → Set catalogue.Place → List Statement → Prop}
    (alters : Alters catalogue lease operation effect)
    (weaker : ∀ before outcome after statements,
      effect before outcome after statements → weak before outcome after statements) :
    Alters catalogue lease operation weak := by
  refine Performs.weaken alters fun connection before outcome after done within => ?_
  obtain ⟨statements, grown, effected, stays⟩ := done within
  exact ⟨statements, grown, weaker _ _ _ _ effected, stays⟩

private theorem alters_pure {result : α} (done : ∀ tables, effect tables (.ok result) tables []) :
    Alters catalogue lease (pure result) effect :=
  performs_pure fun _ _ within => ⟨[], (List.append_nil _).symm, done _, fun _ => within⟩

private theorem alters_settleOutcome {outcome : Except Error α}
    (done : ∀ tables, effect tables outcome tables []) :
    Alters catalogue lease (settleOutcome outcome) effect :=
  performs_settleOutcome fun _ _ within => ⟨[], (List.append_nil _).symm, done _, fun _ => within⟩

private theorem alters_bind {operation : Operation (Traced World) α}
    {next : α → Operation (Traced World) β}
    {later : α → Set catalogue.Place → Except Error β → Set catalogue.Place →
      List Statement → Prop}
    {whole : Set catalogue.Place → Except Error β → Set catalogue.Place → List Statement → Prop}
    (alters : Alters catalogue lease operation effect)
    (altersLater : ∀ result, Alters catalogue lease (next result) (later result))
    (failed : ∀ before error after statements, effect before (.error error) after statements →
      whole before (.error error) after statements)
    (went : ∀ before result between outcome after first second,
      effect before (.ok result) between first → later result between outcome after second →
      whole before outcome after (first ++ second)) :
    Alters catalogue lease (operation >>= next) whole := by
  refine performs_bind alters altersLater ?_ ?_
  · intro connection before error after done within
    obtain ⟨statements, grown, effected, _⟩ := done within
    exact ⟨statements, grown, failed _ _ _ _ effected, fun ⟨_, impossible⟩ => by cases impossible⟩
  · intro connection before result between outcome after done doneLater within
    obtain ⟨first, grown, effected, stays⟩ := done within
    obtain ⟨second, grownLater, effectedLater, staysLater⟩ := doneLater (stays ⟨result, rfl⟩)
    refine ⟨first ++ second, ?_, went _ _ _ _ _ _ _ effected effectedLater, staysLater⟩
    rw [grownLater, grown, List.append_assoc]

private theorem alters_tracing {request : ConnectionId → Call World α} {deed : Deed}
    {rows : α → List Row}
    (failed : ∀ before error after, effect before (.error error) after deed.executed?.toList)
    (granted : ∀ connection world result after, catalogue.Within connection world →
      request connection world = (.ok result, after) → catalogue.Within connection after ∧
        effect (catalogue.seen world connection) (.ok result) (catalogue.seen after connection)
          deed.executed?.toList) :
    Alters catalogue lease
      (call lease fun connection => Traced.tracing connection deed rows (request connection))
      effect := by
  refine performs_call fun connection before within =>
    ⟨deed.executed?.toList, Traced.executed_of_tracing rfl, ?_⟩
  unfold Traced.tracing
  dsimp only
  rcases asked : request connection before.world with ⟨outcome, after⟩
  cases outcome with
  | error fault => exact ⟨failed _ _ _, fun ⟨_, impossible⟩ => by cases impossible⟩
  | ok result =>
      obtain ⟨stays, effected⟩ := granted connection before.world result after within asked
      exact ⟨effected, fun _ => stays⟩

/-! ### Looks -/

private theorem alters_defaultSchema :
    Alters catalogue lease (defaultSchema (inner.traced.session thread) lease)
      fun before outcome after statements => statements = [] ∧
        ∀ default, outcome = .ok default → after = before ∧ catalogue.IsDefault default := by
  unfold defaultSchema
  cases asked : Statement.defaultSchema? (inner.traced.session thread).dialect with
  | none =>
      refine alters_pure fun tables => ⟨rfl, fun default same => ⟨rfl, fun mapping => ?_⟩⟩
      cases same
      cases declared : mapping.schema <;>
        simp [Inventory.home, Statement.tableOf, declared]
  | some statement =>
      have isDefault : statement.request = .defaultSchema := by
        obtain ⟨text, _, rfl⟩ := Option.map_eq_some_iff.mp asked
        rfl
      have answers : Alters catalogue lease (query (inner.traced.session thread) lease statement)
          fun before outcome after statements => statements = [] ∧
            ∀ rows, outcome = .ok rows → after = before ∧
              catalogue.IsDefault (do (← (← rows.head?).at? 0).text?) := by
        refine alters_tracing (fun _ _ _ => ⟨rfl, fun _ impossible => by cases impossible⟩) ?_
        intro connection world rows after within answered
        obtain ⟨valid, inside, same, tells⟩ :=
          catalogue.query connection world statement rows after within.1 within.2 answered
        refine ⟨⟨valid, inside⟩, rfl, fun others sameRows => ?_⟩
        cases sameRows
        exact ⟨same, tells isDefault⟩
      refine alters_bind answers
        (fun rows => @alters_pure _ _ _ _ catalogue
          (fun before outcome after statements => statements = [] ∧ after = before ∧
            outcome = .ok (do (← (← rows.head?).at? 0).text?)) _ fun _ => ⟨rfl, rfl, rfl⟩) ?_ ?_
      · rintro before error after statements ⟨none, _⟩
        exact ⟨none, fun _ impossible => by cases impossible⟩
      · rintro before rows between outcome after first second ⟨rfl, answered⟩ ⟨rfl, rfl, rfl⟩
        refine ⟨rfl, fun default same => ?_⟩
        cases same
        exact answered rows rfl

private theorem alters_tableExists (default : Option String) (mapping : Mapping) :
    Alters catalogue lease (tableExists (inner.traced.session thread) lease default mapping)
      fun before outcome after statements => statements = [] ∧ ∀ there, outcome = .ok there →
        after = before ∧
          (catalogue.IsDefault default → (there = true ↔ catalogue.home mapping ∈ before)) := by
  refine alters_tracing (fun _ _ _ => ⟨rfl, fun _ impossible => by cases impossible⟩) ?_
  intro connection world there after within looked
  obtain ⟨valid, inside, same, tells⟩ :=
    catalogue.tableExists connection world _ there after within.1 within.2 looked
  refine ⟨⟨valid, inside⟩, rfl, fun other sameAnswer => ?_⟩
  cases sameAnswer
  exact ⟨same, fun isDefault => (isDefault mapping) ▸ tells⟩

/-! ### Changes -/

private theorem alters_execute (statement : Statement) :
    Alters catalogue lease (execute (inner.traced.session thread) lease statement)
      fun before outcome after statements => statements = [statement] ∧
        ∀ affected, outcome = .ok affected →
          statement.request.Changes catalogue.place before after := by
  refine alters_tracing (fun _ _ _ => ⟨rfl, fun _ impossible => by cases impossible⟩) ?_
  intro connection world affected after within executed
  obtain ⟨valid, inside, changes⟩ :=
    catalogue.execute connection world statement affected after within.1 within.2 executed
  exact ⟨⟨valid, inside⟩, rfl, fun _ _ => changes⟩

private theorem alters_executeAll (statements : List Statement) :
    Alters catalogue lease (executeAll (inner.traced.session thread) lease statements)
      fun before outcome after executed => executed <+: statements ∧
        (outcome = .ok () → executed = statements ∧
          Statement.ChangeAll catalogue.place statements before after) := by
  induction statements with
  | nil => exact alters_pure fun _ => ⟨List.prefix_rfl, fun _ => ⟨rfl, rfl⟩⟩
  | cons statement rest ih =>
      unfold executeAll
      refine alters_bind (alters_execute statement) (fun _ => ih) ?_ ?_
      · rintro before error after executed ⟨rfl, _⟩
        exact ⟨⟨rest, rfl⟩, fun impossible => by cases impossible⟩
      · rintro before affected between outcome after first second ⟨rfl, changed⟩ ⟨among, whole⟩
        refine ⟨(List.prefix_append_right_inj [statement]).mpr among, fun succeeded => ?_⟩
        obtain ⟨rfl, changedLater⟩ := whole succeeded
        exact ⟨rfl, between, changed affected rfl, changedLater⟩

private theorem alters_executeAll_bind (statements : List Statement)
    {next : Operation (Traced World) α} (alters : Alters catalogue lease next effect) :
    Alters catalogue lease
      (do executeAll (inner.traced.session thread) lease statements; next)
      fun before outcome after executed =>
        ((∃ error, outcome = .error error) ∧ executed <+: statements) ∨
          ∃ between later, Statement.ChangeAll catalogue.place statements before between ∧
            effect between outcome after later ∧ executed = statements ++ later := by
  refine alters_bind (alters_executeAll statements) (fun _ => alters) ?_ ?_
  · rintro before error after executed ⟨among, _⟩
    exact Or.inl ⟨⟨error, rfl⟩, among⟩
  · rintro before _ between outcome after first later ⟨_, whole⟩ effected
    obtain ⟨rfl, changed⟩ := whole rfl
    exact Or.inr ⟨between, later, changed, effected, rfl⟩

private theorem alters_map {operation : Operation (Traced World) α} (change : α → β)
    (alters : Alters catalogue lease operation effect) :
    Alters catalogue lease (do return change (← operation)) fun before outcome after statements =>
      ∃ done, outcome = done.map change ∧ effect before done after statements := by
  refine alters_bind alters (fun result => @alters_pure _ _ _ _ catalogue
    (fun before outcome after statements => outcome = .ok (change result) ∧ after = before ∧
      statements = []) _ fun _ => ⟨rfl, rfl, rfl⟩) ?_ ?_
  · intro before error after statements effected
    exact ⟨.error error, rfl, effected⟩
  · rintro before result between outcome after first second effected ⟨rfl, rfl, rfl⟩
    exact ⟨.ok result, rfl, by rwa [List.append_nil]⟩

end Store

/-! ### One type after the other -/

section Turns

variable {World : Type} {inventory : Inventory World} {dialect : Dialect} {mapping : Mapping}
  {rest : List Mapping} {before between after : Set inventory.Place}
  {outcome : Except Error (List String)} {statements executed : List Statement}

namespace Inventory

private theorem creates_nil : inventory.Creates dialect [] before (.ok []) before [] := by
  refine ⟨List.prefix_rfl, fun names same => ?_⟩
  cases same
  refine ⟨rfl, ?_, rfl, fun mapping member => by cases member⟩
  rw [homes_nil, Set.union_empty]

/-- Where nothing is executed, nothing is claimed of a failure. -/
theorem creates_failed (error : Error) :
    inventory.Creates dialect rest before (.error error) after [] :=
  ⟨List.nil_prefix, fun names impossible => by cases impossible⟩

theorem Creates.present (there : inventory.home mapping ∈ before)
    (creates : inventory.Creates dialect rest before outcome after statements) :
    inventory.Creates dialect (mapping :: rest) before outcome after statements := by
  have same := @missing_of_mem _ _ _ _ rest there
  refine ⟨same ▸ creates.among, fun names succeeded => ?_⟩
  obtain ⟨gives, tables, whole, made⟩ := creates.whole names succeeded
  rw [same]
  refine ⟨gives, ?_, whole, made⟩
  rw [tables, homes_cons, ← Set.union_assoc,
    Set.union_eq_self_of_subset_right (Set.singleton_subset_iff.mpr there)]

private theorem creates_broken (absent : inventory.home mapping ∉ before)
    (created : Statement.creation dialect mapping = .ok statements)
    (among : executed <+: statements) (error : Error) :
    inventory.Creates dialect (mapping :: rest) before (.error error) after executed := by
  refine ⟨?_, fun names impossible => by cases impossible⟩
  rw [missing_of_not_mem absent, Statement.creations, List.flatMap_cons, created]
  exact among.trans (List.prefix_append _ _)

theorem Creates.absent (absent : inventory.home mapping ∉ before)
    (created : Statement.creation dialect mapping = .ok statements)
    (creates : inventory.Creates dialect rest (before ∪ {inventory.home mapping}) outcome after
      executed) :
    inventory.Creates dialect (mapping :: rest) before
      (outcome.map (mapping.entity :: ·)) after (statements ++ executed) := by
  have same := @missing_of_not_mem _ _ _ _ rest absent
  have sameStatements : Statement.creations dialect (inventory.missing before (mapping :: rest))
      = statements ++ Statement.creations dialect
        (inventory.missing (before ∪ {inventory.home mapping}) rest) := by
    rw [same, Statement.creations, List.flatMap_cons, created]
    rfl
  refine ⟨?_, fun names succeeded => ?_⟩
  · rw [sameStatements]
    exact (List.prefix_append_right_inj statements).mpr creates.among
  · cases outcome with
    | error error => cases succeeded
    | ok others =>
        cases succeeded
        obtain ⟨gives, tables, whole, made⟩ := creates.whole others rfl
        rw [sameStatements, same]
        refine ⟨congrArg (mapping.entity :: ·) gives, ?_, congrArg (statements ++ ·) whole, ?_⟩
        · rw [tables, homes_cons, Set.union_assoc]
        · intro other member
          rcases List.mem_cons.mp member with rfl | later
          · exact ⟨statements, created⟩
          · exact made other later

private theorem drops_nil : inventory.Drops dialect [] before (.ok []) before [] := by
  refine ⟨List.prefix_rfl, fun names same => ?_⟩
  cases same
  refine ⟨rfl, ?_, rfl⟩
  rw [homes_nil, Set.sdiff_empty]

theorem drops_failed (error : Error) :
    inventory.Drops dialect rest before (.error error) after [] :=
  ⟨List.nil_prefix, fun names impossible => by cases impossible⟩

theorem Drops.absent (absent : inventory.home mapping ∉ before)
    (drops : inventory.Drops dialect rest before outcome after statements) :
    inventory.Drops dialect (mapping :: rest) before outcome after statements := by
  have same := @found_of_not_mem _ _ _ _ rest absent
  refine ⟨same ▸ drops.among, fun names succeeded => ?_⟩
  obtain ⟨gives, tables, whole⟩ := drops.whole names succeeded
  rw [same]
  refine ⟨gives, ?_, whole⟩
  rw [tables, homes_cons, ← Set.sdiff_sdiff, Set.sdiff_singleton_eq_self absent]

private theorem drops_broken (there : inventory.home mapping ∈ before)
    (among : executed <+: Statement.removal dialect mapping) (error : Error) :
    inventory.Drops dialect (mapping :: rest) before (.error error) after executed := by
  refine ⟨?_, fun names impossible => by cases impossible⟩
  rw [found_of_mem there, Statement.removals, List.flatMap_cons]
  exact among.trans (List.prefix_append _ _)

theorem Drops.present (there : inventory.home mapping ∈ before)
    (drops : inventory.Drops dialect rest (before \ {inventory.home mapping}) outcome after
      executed) :
    inventory.Drops dialect (mapping :: rest) before (outcome.map (mapping.entity :: ·)) after
      (Statement.removal dialect mapping ++ executed) := by
  have same := @found_of_mem _ _ _ _ rest there
  refine ⟨?_, fun names succeeded => ?_⟩
  · rw [same, Statement.removals, List.flatMap_cons]
    exact (List.prefix_append_right_inj _).mpr drops.among
  · cases outcome with
    | error error => cases succeeded
    | ok others =>
        cases succeeded
        obtain ⟨gives, tables, whole⟩ := drops.whole others rfl
        rw [same]
        refine ⟨congrArg (mapping.entity :: ·) gives, ?_,
          congrArg (Statement.removal dialect mapping ++ ·) whole⟩
        rw [tables, homes_cons, Set.sdiff_sdiff]

end Inventory

end Turns

namespace Store

variable {World : Type} {inner : Deployment World} {thread : ThreadId} {lease : LeaseId}
  {catalogue : Catalogue inner.database} {default : Option String}

private theorem alters_tableExists_bind {α : Type} {mapping : Mapping}
    {next : Bool → Operation (Traced World) α}
    {whole : Set catalogue.Place → Except Error α → Set catalogue.Place → List Statement → Prop}
    (failed : ∀ before error after, whole before (.error error) after [])
    (present : Alters catalogue lease (next true) fun before outcome after executed =>
      catalogue.IsDefault default → catalogue.home mapping ∈ before →
        whole before outcome after executed)
    (absent : Alters catalogue lease (next false) fun before outcome after executed =>
      catalogue.IsDefault default → catalogue.home mapping ∉ before →
        whole before outcome after executed) :
    Alters catalogue lease
      (tableExists (inner.traced.session thread) lease default mapping >>= next)
      fun before outcome after executed =>
        catalogue.IsDefault default → whole before outcome after executed := by
  have turns (there : Bool) : Alters catalogue lease (next there)
      fun before outcome after executed => catalogue.IsDefault default →
        (there = true ↔ catalogue.home mapping ∈ before) → whole before outcome after executed := by
    cases there with
    | true =>
        exact present.weaken fun _ _ _ _ done isDefault tells => done isDefault (tells.mp rfl)
    | false =>
        exact absent.weaken fun _ _ _ _ done isDefault tells =>
          done isDefault fun there => Bool.false_ne_true (tells.mpr there)
  refine alters_bind (alters_tableExists default mapping) turns ?_ ?_
  · rintro before error after executed ⟨rfl, _⟩ _
    exact failed before error after
  · rintro before there between outcome after first second ⟨rfl, looked⟩ done isDefault
    obtain ⟨rfl, tells⟩ := looked there rfl
    exact done isDefault (tells isDefault)

private theorem alters_create {mapping : Mapping} {rest : List Mapping}
    (alters : Alters catalogue lease
      (createMissing (inner.traced.session thread) lease default rest)
      fun before outcome after executed => catalogue.IsDefault default →
        catalogue.Creates inner.dialect rest before outcome after executed) :
    Alters catalogue lease (do
        let statements ← settleOutcome ((Statement.creation inner.dialect mapping).mapError
          (.mapping inner.dialect.name))
        executeAll (inner.traced.session thread) lease statements
        let names ← createMissing (inner.traced.session thread) lease default rest
        return mapping.entity :: names)
      fun before outcome after executed => catalogue.IsDefault default →
        catalogue.home mapping ∉ before →
          catalogue.Creates inner.dialect (mapping :: rest) before outcome after executed := by
  have settles : Alters catalogue lease (settleOutcome
        ((Statement.creation inner.dialect mapping).mapError (.mapping inner.dialect.name)))
      fun before outcome after executed => after = before ∧ executed = [] ∧
        ∀ statements, outcome = .ok statements →
          Statement.creation inner.dialect mapping = .ok statements :=
    alters_settleOutcome fun _ => ⟨rfl, rfl, fun _ => mapError_eq_ok.mp⟩
  refine alters_bind settles (fun statements =>
    alters_executeAll_bind statements (alters_map (mapping.entity :: ·) alters)) ?_ ?_
  · rintro before error after _ ⟨_, rfl, _⟩ _ _
    exact Inventory.creates_failed error
  · rintro before statements between outcome after _ executed ⟨rfl, rfl, isCreation⟩ done
      isDefault absent
    have created := isCreation statements rfl
    rw [List.nil_append]
    rcases done with ⟨⟨error, rfl⟩, among⟩ | ⟨_, _, changed, ⟨_, rfl, creates⟩, rfl⟩
    · exact Inventory.creates_broken absent created among error
    · have createsRest := creates isDefault
      rw [changes_of_creation created changed] at createsRest
      exact createsRest.absent absent created

/-- Of each type in turn, what is missing is created; the types before it have theirs by then. -/
theorem alters_createMissing (default : Option String) (mappings : List Mapping) :
    Alters catalogue lease (createMissing (inner.traced.session thread) lease default mappings)
      fun before outcome after executed => catalogue.IsDefault default →
        catalogue.Creates inner.dialect mappings before outcome after executed := by
  induction mappings with
  | nil => exact alters_pure fun _ _ => Inventory.creates_nil
  | cons mapping rest ih =>
      unfold createMissing
      refine alters_tableExists_bind (fun _ error _ => Inventory.creates_failed error)
        ?_ (alters_create ih)
      exact ih.weaken fun _ _ _ _ creates isDefault there => (creates isDefault).present there

/-- Of each type in turn, what is there is dropped; the types before it lost theirs by then. -/
theorem alters_dropExisting (default : Option String) (mappings : List Mapping) :
    Alters catalogue lease (dropExisting (inner.traced.session thread) lease default mappings)
      fun before outcome after executed => catalogue.IsDefault default →
        catalogue.Drops inner.dialect mappings before outcome after executed := by
  induction mappings with
  | nil => exact alters_pure fun _ _ => Inventory.drops_nil
  | cons mapping rest ih =>
      have removes := @alters_executeAll_bind _ _ _ thread _ _ _
        (Statement.removal inner.dialect mapping) _ (alters_map (mapping.entity :: ·) ih)
      unfold dropExisting
      refine alters_tableExists_bind (fun _ error _ => Inventory.drops_failed error) ?_
        (ih.weaken fun _ _ _ _ drops isDefault absent => (drops isDefault).absent absent)
      refine removes.weaken fun before outcome after executed done isDefault there => ?_
      rcases done with ⟨⟨error, rfl⟩, among⟩ | ⟨_, _, changed, ⟨_, rfl, drops⟩, rfl⟩
      · exact Inventory.drops_broken there among error
      · have dropsRest := drops isDefault
        rw [changes_of_removal there changed] at dropsRest
        exact dropsRest.present there

/-! ### Units -/

/-- The default schema is asked for first; of a type without a schema that one is looked into. -/
theorem alters_work {effect : Set catalogue.Place → Except Error (List String) →
      Set catalogue.Place → List Statement → Prop}
    {gathers : Option String → Operation (Traced World) (List String)}
    (failed : ∀ before error after, effect before (.error error) after [])
    (alters : ∀ default, Alters catalogue lease (gathers default)
      fun before outcome after executed =>
        catalogue.IsDefault default → effect before outcome after executed) :
    Alters catalogue lease (do
        let default ← defaultSchema (inner.traced.session thread) lease
        let names ← gathers default
        return (names, ({} : WriteSet)))
      fun before outcome after executed =>
        ∃ done, outcome = done.map (·, ({} : WriteSet)) ∧ effect before done after executed := by
  refine alters_bind alters_defaultSchema
    (fun default => alters_map (·, ({} : WriteSet)) (alters default)) ?_ ?_
  · rintro before error after executed ⟨rfl, _⟩
    exact ⟨.error error, rfl, failed before error after⟩
  · rintro before default between outcome after first second ⟨rfl, known⟩ ⟨done, rfl, effected⟩
    obtain ⟨rfl, isDefault⟩ := known default rfl
    exact ⟨done, rfl, effected isDefault⟩

end Store
end EntityStore
