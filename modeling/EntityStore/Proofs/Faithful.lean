/-
Databases with transactions. What a connection changes inside a transaction is seen by it
alone until it commits, and one connection at a time has changes of its own. A faithful
database gives every statement its meaning on the contents that the connection sees; what
it does besides is left open.
-/

import EntityStore.Proofs.Calls

set_option autoImplicit false

namespace EntityStore

inductive Standing where
  | outside
  | reading
  | writing (contents : Contents)

structure Perspective (World : Type) where
  published : World → Contents
  standing : World → ConnectionId → Standing
  lastId : World → ConnectionId → Int64

namespace Perspective

variable {World : Type} (view : Perspective World)

def seen (world : World) (connection : ConnectionId) : Contents :=
  match view.standing world connection with
  | .writing contents => contents
  | _ => view.published world

def ledger (world : World) (connection : ConnectionId) : Ledger :=
  ⟨view.seen world connection, view.lastId world connection⟩

structure Same (before after : World) : Prop where
  published : view.published after = view.published before
  standing : ∀ connection, view.standing after connection = view.standing before connection
  lastId : ∀ connection, view.lastId after connection = view.lastId before connection

structure Besides (connection : ConnectionId) (before after : World) : Prop where
  standing : ∀ other, other ≠ connection →
    view.standing after other = view.standing before other
  lastId : ∀ other, other ≠ connection → view.lastId after other = view.lastId before other

variable {view} {first second third : World} {connection : ConnectionId}

theorem Same.refl (world : World) : view.Same world world := ⟨rfl, fun _ => rfl, fun _ => rfl⟩

theorem Same.trans (same : view.Same first second) (later : view.Same second third) :
    view.Same first third :=
  ⟨later.published.trans same.published,
    fun connection => (later.standing connection).trans (same.standing connection),
    fun connection => (later.lastId connection).trans (same.lastId connection)⟩

theorem Same.besides (same : view.Same first second) (connection : ConnectionId) :
    view.Besides connection first second :=
  ⟨fun other _ => same.standing other, fun other _ => same.lastId other⟩

theorem Same.seen (same : view.Same first second) (connection : ConnectionId) :
    view.seen second connection = view.seen first connection := by
  unfold Perspective.seen
  rw [same.standing, same.published]

theorem Same.ledger (same : view.Same first second) (connection : ConnectionId) :
    view.ledger second connection = view.ledger first connection := by
  unfold Perspective.ledger
  rw [same.seen, same.lastId]

theorem Besides.trans (besides : view.Besides connection first second)
    (later : view.Besides connection second third) : view.Besides connection first third :=
  ⟨fun other apart => (later.standing other apart).trans (besides.standing other apart),
    fun other apart => (later.lastId other apart).trans (besides.lastId other apart)⟩

theorem seen_of_outside {world : World} (outside : view.standing world connection = .outside) :
    view.seen world connection = view.published world := by
  unfold seen
  rw [outside]

theorem seen_of_reading {world : World} (reading : view.standing world connection = .reading) :
    view.seen world connection = view.published world := by
  unfold seen
  rw [reading]

theorem seen_of_writing {world : World} {contents : Contents}
    (writing : view.standing world connection = .writing contents) :
    view.seen world connection = contents := by
  unfold seen
  rw [writing]

/-- What a connection sees changes only with what is published and where it stands. -/
theorem seen_eq {world after : World}
    (published : view.published after = view.published world)
    (standing : view.standing after connection = view.standing world connection) :
    view.seen after connection = view.seen world connection := by
  unfold seen
  rw [standing, published]

end Perspective

/-- A database with transactions that gives statements their meaning. Worlds that occur
are valid ones; calls that fail may still change what cannot be told. -/
structure Faithful {World : Type} (layout : Layout) (database : Database World)
    extends Perspective World where
  Valid : World → Prop
  /-- One connection at a time has unpublished changes. -/
  single : ∀ world first second, Valid world → ∀ {one other : Contents},
    standing world first = .writing one → standing world second = .writing other →
    first = second
  connect : ∀ connection world, Valid world →
    Valid (database.connect connection world).2 ∧
      toPerspective.Same world (database.connect connection world).2
  /-- A connection that is found valid is outside of any transaction. -/
  isValid : ∀ connection world, Valid world →
    Valid (database.isValid connection world).2 ∧
      toPerspective.Same world (database.isValid connection world).2 ∧
      ((database.isValid connection world).1 = true → standing world connection = .outside)
  /-- Closing a connection rolls its transaction back. -/
  close : ∀ connection world, Valid world →
    let after := (database.close connection world).2
    Valid after ∧ published after = published world ∧
      toPerspective.Besides connection world after ∧ standing after connection = .outside
  begin : ∀ connection world, Valid world → standing world connection = .outside →
    let after := (database.begin connection world).2
    Valid after ∧ published after = published world ∧
      toPerspective.Besides connection world after ∧
      standing after connection = match (database.begin connection world).1 with
        | .ok () => .reading
        | .error _ => .outside
  commit : ∀ connection world, Valid world → standing world connection ≠ .outside →
    let after := (database.commit connection world).2
    Valid after ∧ toPerspective.Besides connection world after ∧
      match (database.commit connection world).1 with
      | .ok () => published after = toPerspective.seen world connection ∧
          standing after connection = .outside
      | .error _ => published after = published world
  rollback : ∀ connection world, Valid world →
    let after := (database.rollback connection world).2
    Valid after ∧ published after = published world ∧ toPerspective.Besides connection world after
  /-- A statement that is refused changes nothing; one that is executed inside of a
  transaction changes what the connection sees. -/
  execute : ∀ connection world statement, Valid world → standing world connection ≠ .outside →
    statement.Conforms layout.Fits →
    let after := (database.execute connection statement world).2
    Valid after ∧ published after = published world ∧
      toPerspective.Besides connection world after ∧
      match (database.execute connection statement world).1 with
      | .ok _ => ∃ contents generated,
          layout.Executes statement (toPerspective.seen world connection) contents generated ∧
          standing after connection = .writing contents ∧
          lastId after connection = generated.getD (lastId world connection)
      | .error _ => toPerspective.Same world after
  query : ∀ connection world statement, Valid world → statement.Conforms layout.Fits →
    let after := (database.query connection statement world).2
    Valid after ∧ toPerspective.Same world after ∧
      ∀ rows, (database.query connection statement world).1 = .ok rows →
        layout.Answers (toPerspective.seen world connection) statement rows
  lastInsertId : ∀ connection world, Valid world →
    let after := (database.lastInsertId connection world).2
    Valid after ∧ toPerspective.Same world after ∧
      ∀ id, (database.lastInsertId connection world).1 = .ok id → id = lastId world connection
  tableExists : ∀ connection world table, Valid world →
    let after := (database.tableExists connection table world).2
    Valid after ∧ toPerspective.Same world after

structure Faithful.AtRest {World : Type} {layout : Layout} {database : Database World}
    (faithful : Faithful layout database) (world : World) : Prop where
  valid : faithful.Valid world
  outside : ∀ connection, faithful.standing world connection = .outside

/-! ### Work on a connection -/

theorem Statement.Conforms.weaken {fits more : Mapping → Prop} {statement : Statement}
    (weaker : ∀ mapping, fits mapping → more mapping) (conforms : statement.Conforms fits) :
    statement.Conforms more := by
  cases conforms with
  | insert dialect fit distinct known integral =>
      exact .insert dialect (weaker _ fit) distinct known integral
  | update dialect id fit distinct known => exact .update dialect id (weaker _ fit) distinct known
  | delete dialect id fit => exact .delete dialect id (weaker _ fit)
  | selectById dialect id fit => exact .selectById dialect id (weaker _ fit)
  | select dialect page values fit => exact .select dialect page values (weaker _ fit)
  | createTable dialect fit created => exact .createTable dialect (weaker _ fit) created
  | dropTable mapping => exact .dropTable mapping
  | createSequence sequence same => exact .createSequence sequence same
  | dropSequence sequence same => exact .dropSequence sequence same
  | nextValue sequence same => exact .nextValue sequence same
  | defaultSchema same => exact .defaultSchema same

theorem Question.Issued.weaken {fits more : Mapping → Prop} {writes : Bool}
    {question : Question} (weaker : ∀ mapping, fits mapping → more mapping)
    (issued : question.Issued fits writes) : question.Issued more writes := by
  cases issued with
  | execute writing conforms => exact .execute writing (conforms.weaken weaker)
  | query conforms => exact .query (conforms.weaken weaker)
  | lastInsertId => exact .lastInsertId
  | tableExists table => exact .tableExists table

theorem Asked.weaken {World : Type} {database : Database World} {issued more : Question → Prop}
    {connection : ConnectionId} {world after : World} {log : List Event}
    (weaker : ∀ question, issued question → more question)
    (asked : Asked database issued connection world log after) :
    Asked database more connection world log after := by
  induction asked with
  | done world => exact .done world
  | answered isIssued answer _ ih => exact .answered (weaker _ isIssued) answer ih
  | refused isIssued answer _ ih => exact .refused (weaker _ isIssued) answer ih

def Event.Reads (event : Event) : Prop := ∀ statement, event ≠ .executed statement

namespace Faithful

variable {World : Type} {layout : Layout} {database : Database World}
  {faithful : Faithful layout database} {connection : ConnectionId}

structure HasRead (faithful : Faithful layout database) (connection : ConnectionId)
    (before : World) (log : List Event) (after : World) : Prop where
  valid : faithful.Valid after
  same : faithful.Same before after
  replays : Ledger.Replays layout layout.Answers (faithful.ledger before connection) log
    (faithful.ledger before connection)
  reads : ∀ event ∈ log, event.Reads

structure HasWorked (faithful : Faithful layout database) (connection : ConnectionId)
    (before : World) (log : List Event) (after : World) : Prop where
  valid : faithful.Valid after
  published : faithful.published after = faithful.published before
  besides : faithful.Besides connection before after
  inside : faithful.standing after connection ≠ .outside
  replays : Ledger.Replays layout layout.Answers (faithful.ledger before connection) log
    (faithful.ledger after connection)
  /-- A connection that has changed nothing has executed nothing. -/
  untouched : faithful.standing after connection = .reading →
    faithful.standing before connection = .reading ∧ ∀ event ∈ log, event.Reads

theorem HasRead.of_call {α : Type} {request : Call World α} {event : α → Event} {world : World}
    (valid : faithful.Valid (request world).2) (same : faithful.Same world (request world).2)
    (step : ∀ result, (request world).1 = .ok result → Ledger.Step layout layout.Answers
      (faithful.ledger world connection) (event result) (faithful.ledger world connection))
    (reads : ∀ result, (event result).Reads) :
    faithful.HasRead connection world ((request world).1.map event).toOption.toList
      (request world).2 := by
  refine ⟨valid, same, ?_, ?_⟩
  · cases answer : (request world).1 with
    | ok result => exact .cons (step result answer) (.nil _)
    | error fault => exact .nil _
  · cases (request world).1 with
    | ok result =>
        intro other member
        rw [show other = event result from List.mem_singleton.mp member]
        exact reads result
    | error fault =>
        intro other member
        cases member

/-- What is asked for is noted unless it is refused. -/
theorem hasRead_ask {question : Question} {world : World}
    (issued : question.Issued layout.Fits false) (valid : faithful.Valid world) :
    faithful.HasRead connection world
      (database.ask connection question world).1.toOption.toList
      (database.ask connection question world).2 := by
  cases issued with
  | execute impossible _ => cases impossible
  | @query statement conforms =>
      obtain ⟨validAfter, same, answers⟩ := faithful.query connection world statement valid conforms
      exact @HasRead.of_call _ _ _ _ _ _ _ (.answered statement) _ validAfter same
        (fun rows answer => .answered (answers rows answer)) fun _ _ impossible => by cases impossible
  | lastInsertId =>
      obtain ⟨validAfter, same, answers⟩ := faithful.lastInsertId connection world valid
      refine @HasRead.of_call _ _ _ _ _ _ _ .generated _ validAfter same
        (fun id answer => ?_) fun _ _ impossible => by cases impossible
      rw [answers id answer]
      exact .generated
  | tableExists table =>
      obtain ⟨validAfter, same⟩ := faithful.tableExists connection world table valid
      exact @HasRead.of_call _ _ _ _ _ _ _ (.lookedUp table) _ validAfter same
        (fun found _ => .lookedUp table found) fun _ _ impossible => by cases impossible

theorem HasRead.hasWorked {world after : World} {log : List Event}
    (read : faithful.HasRead connection world log after)
    (inside : faithful.standing world connection ≠ .outside) :
    faithful.HasWorked connection world log after := by
  refine ⟨read.valid, read.same.published, read.same.besides connection, ?_, ?_, ?_⟩
  · rw [read.same.standing]
    exact inside
  · rw [read.same.ledger]
    exact read.replays
  · intro reading
    exact ⟨(read.same.standing connection).symm.trans reading, read.reads⟩

private theorem hasWorked_ask {writes : Bool} {question : Question} {world : World}
    (issued : question.Issued layout.Fits writes) (valid : faithful.Valid world)
    (inside : faithful.standing world connection ≠ .outside) :
    faithful.HasWorked connection world
      (database.ask connection question world).1.toOption.toList
      (database.ask connection question world).2 := by
  cases issued with
  | @execute statement _ conforms =>
      obtain ⟨validAfter, published, besides, effect⟩ :=
        faithful.execute connection world statement valid inside conforms
      show faithful.HasWorked connection world
        ((database.execute connection statement world).1.map fun _ =>
          Event.executed statement).toOption.toList (database.execute connection statement world).2
      cases answer : (database.execute connection statement world).1 with
      | ok affected =>
          rw [answer] at effect
          obtain ⟨contents, generated, executes, writing, lastId⟩ := effect
          have step : Ledger.Step layout layout.Answers (faithful.ledger world connection)
              (.executed statement)
              (faithful.ledger (database.execute connection statement world).2 connection) := by
            unfold Perspective.ledger
            rw [Perspective.seen_of_writing writing, lastId]
            exact .executed executes
          refine ⟨validAfter, published, besides, ?_, .cons step (.nil _), ?_⟩
          · rw [writing]
            intro impossible
            cases impossible
          · intro reading
            rw [writing] at reading
            cases reading
      | error fault =>
          rw [answer] at effect
          have nothing : faithful.HasRead connection world [] _ :=
            ⟨validAfter, effect, .nil _, fun _ member => by cases member⟩
          exact nothing.hasWorked inside
  | query conforms => exact (hasRead_ask (.query conforms) valid).hasWorked inside
  | lastInsertId => exact (hasRead_ask .lastInsertId valid).hasWorked inside
  | tableExists table => exact (hasRead_ask (.tableExists table) valid).hasWorked inside

theorem HasWorked.append {world between after : World} {first second : List Event}
    (earlier : faithful.HasWorked connection world first between)
    (later : faithful.HasWorked connection between second after) :
    faithful.HasWorked connection world (first ++ second) after := by
  refine ⟨later.valid, later.published.trans earlier.published,
    earlier.besides.trans later.besides, later.inside, earlier.replays.append later.replays, ?_⟩
  intro reading
  obtain ⟨stillReading, readsLater⟩ := later.untouched reading
  obtain ⟨wasReading, readsEarlier⟩ := earlier.untouched stillReading
  refine ⟨wasReading, fun event member => ?_⟩
  rcases List.mem_append.mp member with isEarlier | isLater
  · exact readsEarlier event isEarlier
  · exact readsLater event isLater

theorem HasRead.append {world between after : World} {first second : List Event}
    (earlier : faithful.HasRead connection world first between)
    (later : faithful.HasRead connection between second after) :
    faithful.HasRead connection world (first ++ second) after := by
  have replays := later.replays
  rw [earlier.same.ledger] at replays
  refine ⟨later.valid, earlier.same.trans later.same, earlier.replays.append replays, ?_⟩
  intro event member
  rcases List.mem_append.mp member with isEarlier | isLater
  · exact earlier.reads event isEarlier
  · exact later.reads event isLater

theorem hasRead_of_asked {world after : World} {log : List Event}
    (asked : Asked database (Question.Issued layout.Fits false) connection world log after)
    (valid : faithful.Valid world) : faithful.HasRead connection world log after := by
  induction asked with
  | done world => exact ⟨valid, .refl world, .nil _, fun _ member => by cases member⟩
  | answered issued answer _ ih =>
      have first := @hasRead_ask _ _ _ _ connection _ _ issued valid
      rw [answer] at first
      exact first.append (ih first.valid)
  | refused issued answer _ ih =>
      have first := @hasRead_ask _ _ _ _ connection _ _ issued valid
      rw [answer] at first
      exact first.append (ih first.valid)

theorem hasWorked_of_asked {writes : Bool} {world after : World} {log : List Event}
    (asked : Asked database (Question.Issued layout.Fits writes) connection world log after)
    (valid : faithful.Valid world) (inside : faithful.standing world connection ≠ .outside) :
    faithful.HasWorked connection world log after := by
  induction asked with
  | done world =>
      exact ⟨valid, rfl, (Perspective.Same.refl world).besides connection, inside, .nil _,
        fun reading => ⟨reading, fun _ member => by cases member⟩⟩
  | answered issued answer _ ih =>
      have first := hasWorked_ask issued valid inside
      rw [answer] at first
      exact first.append (ih first.valid first.inside)
  | refused issued answer _ ih =>
      have first := hasWorked_ask issued valid inside
      rw [answer] at first
      exact first.append (ih first.valid first.inside)

end Faithful

end EntityStore
