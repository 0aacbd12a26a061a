/-
Sequences by their names. What creates and what drops the sequence of a type names it in the
schema of the type; what draws from it names it without a schema, which means the default one.
Both mean the same sequence exactly where the type has no schema or has the default one.
-/

import EntityStore.Proofs.CreatedTables
import EntityStore.Proofs.Runs
import EntityStore.Proofs.SentRows

set_option autoImplicit false

namespace EntityStore

/-! ### Texts -/

namespace Sql

inductive SequenceCommand where
  | create (sequence : QualifiedName)
  | drop (sequence : QualifiedName)
  | draw (sequence : QualifiedName)
  deriving DecidableEq, Repr

def readWholeName (lexemes : List Lexeme) : Option QualifiedName :=
  match readName lexemes with
  | some (name, []) => some name
  | _ => none

/-- The next value is asked of a function, to which the name is passed as a text, or it is selected
from the one row of a table that every database has. -/
def readSequenceCommand : List Lexeme → Option SequenceCommand
  | .word "CREATE" :: .word "SEQUENCE" :: rest => (readWholeName rest).map .create
  | .word "DROP" :: .word "SEQUENCE" :: rest => (readWholeName rest).map .drop
  | [.word "SELECT", .word "nextval", .symbol "(", .literal name, .symbol ")"] => do
      return .draw (← readWholeName (← lexemes name.toList))
  | .word "SELECT" :: rest => do
      let (name, rest) ← readName rest
      if rest = [.symbol ".", .word "NEXTVAL", .word "FROM", .word "DUAL"] then
        return .draw name
      else none
  | _ => none

def sequenceCommand? (text : String) : Option SequenceCommand := do
  readSequenceCommand (← lexemes text.toList)

private theorem spells_qualified (name : QualifiedName) :
    Spells (qualified name.schema name.name) (nameLexemes name) := by
  unfold qualified nameLexemes
  cases name.schema with
  | none => exact spells_quote name.name
  | some schema =>
      have follows := separates_point.follows (spells_quote name.name)
      have whole := follows _ _ (spells_quote schema)
      rw [← String.append_assoc] at whole
      exact whole

private theorem readWholeName_lexemes (name : QualifiedName) :
    readWholeName (nameLexemes name) = some name := by
  obtain ⟨schema, own⟩ := name
  cases schema <;> rfl

private theorem sequenceCommand?_create (name : QualifiedName) :
    sequenceCommand? ("CREATE SEQUENCE " ++ qualified name.schema name.name)
      = some (.create name) := by
  have begins : run .none "CREATE SEQUENCE ".toList
      = some ([.word "CREATE", .word "SEQUENCE"], .none) := rfl
  have spells := (spells_qualified name).behind begins
  unfold sequenceCommand?
  rw [show lexemes _ = _ from spells]
  show (readWholeName (nameLexemes name)).map SequenceCommand.create = _
  rw [readWholeName_lexemes]
  rfl

private theorem sequenceCommand?_drop (name : QualifiedName) :
    sequenceCommand? ("DROP SEQUENCE " ++ qualified name.schema name.name)
      = some (.drop name) := by
  have begins : run .none "DROP SEQUENCE ".toList
      = some ([.word "DROP", .word "SEQUENCE"], .none) := rfl
  have spells := (spells_qualified name).behind begins
  unfold sequenceCommand?
  rw [show lexemes _ = _ from spells]
  show (readWholeName (nameLexemes name)).map SequenceCommand.drop = _
  rw [readWholeName_lexemes]
  rfl

private theorem sequenceCommand?_nextval (sequence : String) :
    sequenceCommand? ("SELECT nextval(" ++ textLiteral (quote sequence) ++ ")")
      = some (.draw ⟨none, sequence⟩) := by
  have begins : run .none "SELECT nextval(".toList
      = some ([.word "SELECT", .word "nextval", .symbol "("], .none) := rfl
  have spells := separates_closing.ends _ _ ((spells_textLiteral (quote sequence)).behind begins)
  unfold sequenceCommand?
  rw [show lexemes _ = _ from spells]
  show (do return SequenceCommand.draw (← readWholeName (← lexemes (quote sequence).toList))) = _
  rw [show lexemes _ = _ from spells_quote sequence]
  rfl

private theorem sequenceCommand?_dual (sequence : String) :
    sequenceCommand? ("SELECT " ++ quote sequence ++ ".NEXTVAL FROM DUAL")
      = some (.draw ⟨none, sequence⟩) := by
  have begins : run .none "SELECT ".toList = some ([.word "SELECT"], .none) := rfl
  have behind : Spells "NEXTVAL FROM DUAL" [.word "NEXTVAL", .word "FROM", .word "DUAL"] := rfl
  have split : ".NEXTVAL FROM DUAL" = "." ++ "NEXTVAL FROM DUAL" := rfl
  have follows := separates_point.follows behind
  rw [← split] at follows
  have spells := follows _ _ ((spells_quote sequence).behind begins)
  unfold sequenceCommand?
  rw [show lexemes _ = _ from spells]
  rfl

end Sql

/-- The sequence that a name means where the given schema is the default one. -/
def QualifiedName.meantIn (default : String) (name : QualifiedName) : String × String :=
  (name.schema.getD default, name.name)

/-! ### Statements -/

namespace Dialect

structure UsesSequence (dialect : Dialect) (mapping : Mapping) (sequence : String) : Prop where
  creates : ∃ statement, Statement.createSequence? dialect mapping = some statement ∧
    statement.request = .createSequence ⟨mapping.schema, sequence⟩ ∧
    Sql.sequenceCommand? statement.text = some (.create ⟨mapping.schema, sequence⟩)
  drops : ∃ statement, Statement.dropSequence? dialect mapping = some statement ∧
    statement.request = .dropSequence ⟨mapping.schema, sequence⟩ ∧
    Sql.sequenceCommand? statement.text = some (.drop ⟨mapping.schema, sequence⟩)
  draws : ∃ statement, Statement.nextValue? dialect sequence = some statement ∧
    statement.request = .nextValue ⟨none, sequence⟩ ∧
    Sql.sequenceCommand? statement.text = some (.draw ⟨none, sequence⟩)

structure NamesSequences (dialect : Dialect) : Prop where
  create : ∀ sequence schema, dialect.createSequence sequence schema
    = some ("CREATE SEQUENCE " ++ Sql.qualified schema sequence)
  drop : ∀ sequence schema, dialect.dropSequence sequence schema
    = some ("DROP SEQUENCE " ++ Sql.qualified schema sequence)
  draw : ∀ sequence, ∃ text, dialect.nextSequenceValue sequence = some text ∧
    Sql.sequenceCommand? text = some (.draw ⟨none, sequence⟩)

private theorem namesSequences_of_ofName? {name : String} {dialect : Dialect}
    (isShipped : ofName? name = some dialect) (hasSequences : dialect.hasSequences = true) :
    dialect.NamesSequences := by
  unfold ofName? at isShipped
  dsimp only at isShipped
  split at isShipped
  · cases isShipped
    cases hasSequences
  split at isShipped
  · cases isShipped
    exact ⟨fun _ _ => rfl, fun _ _ => rfl,
      fun sequence => ⟨_, rfl, Sql.sequenceCommand?_nextval sequence⟩⟩
  split at isShipped
  · cases isShipped
    exact ⟨fun _ _ => rfl, fun _ _ => rfl,
      fun sequence => ⟨_, rfl, Sql.sequenceCommand?_dual sequence⟩⟩
  · cases isShipped

theorem NamesSequences.uses {dialect : Dialect} (names : dialect.NamesSequences)
    {mapping : Mapping} {sequence : String} (declared : mapping.id.sequence = some sequence) :
    dialect.UsesSequence mapping sequence := by
  obtain ⟨text, drawn, reads⟩ := names.draw sequence
  have create : Statement.createSequence? dialect mapping = some ⟨
      "CREATE SEQUENCE " ++ Sql.qualified mapping.schema sequence, [],
      .createSequence ⟨mapping.schema, sequence⟩⟩ := by
    unfold Statement.createSequence?
    simp only [declared, names.create]
    rfl
  have drop : Statement.dropSequence? dialect mapping = some ⟨
      "DROP SEQUENCE " ++ Sql.qualified mapping.schema sequence, [],
      .dropSequence ⟨mapping.schema, sequence⟩⟩ := by
    unfold Statement.dropSequence?
    simp only [declared, names.drop]
    rfl
  have draw : Statement.nextValue? dialect sequence
      = some ⟨text, [], .nextValue ⟨none, sequence⟩⟩ := by
    unfold Statement.nextValue?
    rw [drawn]
    rfl
  exact ⟨⟨_, create, rfl, Sql.sequenceCommand?_create ⟨mapping.schema, sequence⟩⟩,
    ⟨_, drop, rfl, Sql.sequenceCommand?_drop ⟨mapping.schema, sequence⟩⟩, ⟨_, draw, rfl, reads⟩⟩

end Dialect

/-! ### What is sent -/

namespace Store

variable {World : Type} {inner : Deployment World} {thread : ThreadId} {lease : LeaseId}
  {described : Deed → Prop} {mappings : List Mapping}

private theorem sends_settled {α : Type} {pick : Deed → Option String} {outcome : Except Error α}
    {holds : α → Prop} (held : ∀ result, outcome = .ok result → holds result) :
    Sends pick lease (settleOutcome outcome : Operation (Traced World) α) [] holds := by
  cases outcome with
  | ok result => exact sends_pure (held result rfl)
  | error error => exact sends_throw

private theorem keeps_defaultSchema (asks : ∀ statement, described (.query statement)) :
    OnlySends described lease (defaultSchema (inner.traced.session thread) lease)
      fun _ => True := by
  unfold defaultSchema
  split
  · exact sends_pure trivial
  · exact sends_silent_bind (sends_call (Deed.other?_toList (asks _)))
      fun _ _ => sends_pure trivial

private theorem keeps_executeAll {statements : List Statement}
    (executes : ∀ statement ∈ statements, described (.execute statement)) :
    OnlySends described lease (executeAll (inner.traced.session thread) lease statements)
      fun _ => True := by
  induction statements with
  | nil => exact sends_pure trivial
  | cons statement rest ih =>
      have unpicked := Deed.other?_toList (executes statement List.mem_cons_self)
      unfold executeAll
      exact sends_silent_bind (sends_call unpicked) fun _ _ =>
        ih fun other member => executes other (List.mem_cons_of_mem statement member)

private theorem keeps_createMissing (default : Option String)
    (executes : ∀ statement ∈ Statement.creations inner.dialect mappings,
      described (.execute statement)) :
    OnlySends described lease
      (createMissing (inner.traced.session thread) lease default mappings) fun _ => True := by
  induction mappings with
  | nil => exact sends_pure trivial
  | cons mapping rest ih =>
      rw [Statement.creations, List.flatMap_cons] at executes
      have later := ih fun statement member => executes statement (List.mem_append_right _ member)
      unfold createMissing
      refine sends_silent_bind (sends_call rfl) fun there _ => ?_
      split
      · exact later
      refine sends_silent_bind (sends_settled fun _ => mapError_eq_ok.mp)
        fun statements created => ?_
      refine sends_silent_bind (keeps_executeAll fun statement member => ?_) fun _ _ =>
        sends_silent_bind later fun _ _ => sends_pure trivial
      refine executes statement (List.mem_append_left _ ?_)
      rw [show Statement.creation inner.dialect mapping = .ok statements from created]
      exact member

private theorem keeps_dropExisting (default : Option String)
    (executes : ∀ statement ∈ Statement.removals inner.dialect mappings,
      described (.execute statement)) :
    OnlySends described lease
      (dropExisting (inner.traced.session thread) lease default mappings) fun _ => True := by
  induction mappings with
  | nil => exact sends_pure trivial
  | cons mapping rest ih =>
      rw [Statement.removals, List.flatMap_cons] at executes
      have later := ih fun statement member => executes statement (List.mem_append_right _ member)
      unfold dropExisting
      refine sends_silent_bind (sends_call rfl) fun there _ => ?_
      split
      · refine sends_silent_bind (keeps_executeAll fun statement member => ?_) fun _ _ =>
          sends_silent_bind later fun _ _ => sends_pure trivial
        exact executes statement (List.mem_append_left _ member)
      · exact later

private theorem sent_unit_of_names
    {gathers : LeaseId → Option String → Operation (Traced World) (List String)}
    {executes : List Statement} {store : Store (Traced World)} (leased : store.Leased)
    (keeps : ∀ {described : Deed → Prop} (lease : LeaseId) (default : Option String),
      (∀ statement ∈ executes, described (.execute statement)) →
      OnlySends described lease (gathers lease default) fun _ => True) :
    Ensures (unit (inner.traced.session thread) true fun lease => do
        let default ← defaultSchema (inner.traced.session thread) lease
        let names ← gathers lease default
        return (names, ({} : WriteSet))) store
      (store.Prolongs fun _ calls => ∀ call ∈ calls, ∀ statement,
        call.deed = .execute statement → statement ∈ executes) := by
  have sends : Ensures (unit (inner.traced.session thread) true fun lease => do
        let default ← defaultSchema (inner.traced.session thread) lease
        let names ← gathers lease default
        return (names, ({} : WriteSet))) store (store.Prolongs (Sent (Deed.other? fun deed =>
      ∀ statement, deed = .execute statement → statement ∈ executes) [])) := by
    refine sent_unit (Deed.picksStatements_other? _) leased fun lease => ?_
    refine sends_silent_bind (keeps_defaultSchema fun _ _ same => by cases same) fun default _ => ?_
    refine sends_silent_bind (keeps lease default fun statement member other same => ?_)
      fun _ _ => sends_pure trivial
    exact Deed.execute.inj same ▸ member
  refine sends.weaken fun outcome after prolongs => prolongs.weaken fun calls sent => ?_
  intro call member statement executesIt
  exact described_of_picked (List.prefix_nil.mp sent.begins) member (Or.inl executesIt) statement
    executesIt

variable {store : Store (Traced World)} (regular : store.Regular)
include regular

/-- Synchronising executes nothing but what creates the tables and sequences of its types. -/
theorem sent_by_sync : Ensures (sync (inner.traced.session thread)) store
    (store.Prolongs fun _ calls => ∀ call ∈ calls, ∀ statement, call.deed = .execute statement →
      statement ∈ Statement.creations inner.dialect store.registry.mappings) := by
  unfold sync
  refine prolongs_silent_bind (run_get store) rfl ?_
  exact sent_unit_of_names regular.leased fun lease default => keeps_createMissing default

private theorem sent_by_drop : Ensures (drop (inner.traced.session thread)) store
    (store.Prolongs fun _ calls => ∀ call ∈ calls, ∀ statement, call.deed = .execute statement →
      statement ∈ Statement.removals inner.dialect store.registry.mappings.reverse) := by
  unfold drop
  refine prolongs_silent_bind (run_get store) rfl ?_
  apply ensures_bind
  refine (sent_unit_of_names regular.leased fun lease default => keeps_dropExisting default).weaken
    fun outcome between prolongs => ?_
  cases outcome with
  | error error => exact prolongs
  | ok names => exact prolongs

end Store

/-! ### Which sequence is used -/

namespace Statement

variable {dialect : Dialect} {mappings : List Mapping} {statement : Statement}
  {name : QualifiedName}

private theorem sequence_of_creations (member : statement ∈ creations dialect mappings)
    (isRequest : statement.request = .createSequence name) :
    ∃ mapping ∈ mappings, ∃ sequence, mapping.id.sequence = some sequence ∧
      createSequence? dialect mapping = some statement := by
  obtain ⟨mapping, isMapping, isStatement⟩ := List.mem_flatMap.mp member
  cases created : creation dialect mapping with
  | error fault =>
      rw [created] at isStatement
      cases isStatement
  | ok statements =>
      rw [created] at isStatement
      unfold creation at created
      simp only [bind, Except.bind, pure, Except.pure] at created
      split at created
      · cases created
      rename_i table made
      cases created
      rcases List.mem_cons.mp isStatement with rfl | isSequence
      · rw [request_of_createTable made] at isRequest
        cases isRequest
      · have isCreation := Option.mem_toList.mp isSequence
        obtain ⟨sequence, declared, _⟩ := Option.bind_eq_some_iff.mp isCreation
        exact ⟨mapping, isMapping, sequence, declared, isCreation⟩

private theorem sequence_of_removals (member : statement ∈ removals dialect mappings)
    (isRequest : statement.request = .dropSequence name) :
    ∃ mapping ∈ mappings, ∃ sequence, mapping.id.sequence = some sequence ∧
      dropSequence? dialect mapping = some statement := by
  obtain ⟨mapping, isMapping, isStatement⟩ := List.mem_flatMap.mp member
  rcases List.mem_cons.mp isStatement with rfl | isSequence
  · cases isRequest
  · have isRemoval := Option.mem_toList.mp isSequence
    obtain ⟨sequence, declared, _⟩ := Option.bind_eq_some_iff.mp isRemoval
    exact ⟨mapping, isMapping, sequence, declared, isRemoval⟩

end Statement

namespace Dialect

/-- In every dialect with sequences, the sequence of a type is created and dropped in the schema of
the type, and a save draws from the one of the same name in the default schema. That is the same
one exactly where the type has no schema or has the default one. -/
theorem sequences_used {name : String} {dialect : Dialect}
    (isShipped : ofName? name = some dialect) (hasSequences : dialect.hasSequences = true) :
    (∀ mapping sequence, mapping.id.sequence = some sequence →
      dialect.UsesSequence mapping sequence ∧
        ∀ default, QualifiedName.meantIn default ⟨none, sequence⟩
            = QualifiedName.meantIn default ⟨mapping.schema, sequence⟩ ↔
          mapping.schema = none ∨ mapping.schema = some default) ∧
    ∀ {World : Type} (inner : Deployment World)
      (allowed : Store (Traced World) → ThreadId → Action → Prop) (thread : ThreadId)
      (store : Store (Traced World)), inner.dialect = dialect → inner.traced.Reached allowed store →
      (∀ root, root < store.memory.size →
        Store.Ensures (Store.save (inner.traced.session thread) root) store
          (store.Prolongs fun _ calls => ∀ call ∈ calls, ∀ statement used,
            call.deed = .query statement → statement.request = .nextValue used →
            ∃ subject sequence, store.NewFrom root subject ∧
              (store.instanceAt subject).mapping.id.sequence = some sequence ∧
              used = ⟨none, sequence⟩ ∧
              Sql.sequenceCommand? statement.text = some (.draw used))) ∧
      Store.Ensures (Store.sync (inner.traced.session thread)) store
        (store.Prolongs fun _ calls => ∀ call ∈ calls, ∀ statement used,
          call.deed = .execute statement → statement.request = .createSequence used →
          ∃ mapping ∈ store.registry.mappings, ∃ sequence,
            mapping.id.sequence = some sequence ∧ used = ⟨mapping.schema, sequence⟩ ∧
            Sql.sequenceCommand? statement.text = some (.create used)) ∧
      Store.Ensures (Store.drop (inner.traced.session thread)) store
        (store.Prolongs fun _ calls => ∀ call ∈ calls, ∀ statement used,
          call.deed = .execute statement → statement.request = .dropSequence used →
          ∃ mapping ∈ store.registry.mappings, ∃ sequence,
            mapping.id.sequence = some sequence ∧ used = ⟨mapping.schema, sequence⟩ ∧
            Sql.sequenceCommand? statement.text = some (.drop used)) := by
  have names := namesSequences_of_ofName? isShipped hasSequences
  refine ⟨fun mapping sequence declared => ⟨names.uses declared, fun default => ?_⟩, ?_⟩
  · cases mapping.schema <;> simp [QualifiedName.meantIn, eq_comm]
  intro World inner allowed thread store sameDialect reached
  have regular := reached.regular
  rw [← sameDialect] at names
  refine ⟨fun root inMemory => ?_, ?_, ?_⟩
  · refine (Store.sent_by_save regular inMemory).weaken fun _ _ prolongs => ?_
    refine prolongs.weaken fun calls sends call member statement used asks isRequest => ?_
    have saves := sends call member statement (Or.inr asks)
    rw [asks] at saves
    cases saves with
    | @draw subject sequence _ isNew declared next =>
        obtain ⟨drawn, isNext, request, reads⟩ := (names.uses declared).draws
        obtain rfl := Option.some.inj (next.symm.trans isNext)
        obtain rfl := Request.nextValue.inj (isRequest.symm.trans request)
        exact ⟨subject, sequence, isNew, declared, rfl, reads⟩
    | row mapping id => cases isRequest
  · refine (Store.sent_by_sync regular).weaken fun _ _ prolongs => ?_
    refine prolongs.weaken fun calls sends call member statement used executes isRequest => ?_
    obtain ⟨mapping, isMapping, sequence, declared, made⟩ := Statement.sequence_of_creations
      (sends call member statement executes) isRequest
    obtain ⟨created, isCreation, request, reads⟩ := (names.uses declared).creates
    obtain rfl := Option.some.inj (made.symm.trans isCreation)
    obtain rfl := Request.createSequence.inj (isRequest.symm.trans request)
    exact ⟨mapping, isMapping, sequence, declared, rfl, reads⟩
  · refine (Store.sent_by_drop regular).weaken fun _ _ prolongs => ?_
    refine prolongs.weaken fun calls sends call member statement used executes isRequest => ?_
    obtain ⟨mapping, isMapping, sequence, declared, made⟩ := Statement.sequence_of_removals
      (sends call member statement executes) isRequest
    obtain ⟨dropped, isRemoval, request, reads⟩ := (names.uses declared).drops
    obtain rfl := Option.some.inj (made.symm.trans isRemoval)
    obtain rfl := Request.dropSequence.inj (isRequest.symm.trans request)
    exact ⟨mapping, List.mem_reverse.mp isMapping, sequence, declared, rfl, reads⟩

end Dialect

namespace Samples

def shelved : List (ThreadId × Action) := [
  (0, .define [("Book", ((({} : MappingSpec).withSchema "library").withSequence "book_seq")
    |>.withProperty "title" (.bare "string"))]),
  (0, .create "Book" [("title", .value (.text "Sea"))])]

def sequenced : Deployment Tables.World := { deployment with dialect := Dialect.postgres }

end Samples

namespace Dialect

set_option maxRecDepth 100000 in
theorem sequences_used_shelved : ∃ store : Store (Traced Tables.World),
    ofName? "postgres" = some postgres ∧ postgres.hasSequences = true ∧
    Samples.sequenced.traced.Reached (fun _ _ _ => True) store ∧
    postgres.UsesSequence (store.instanceAt 0).mapping "book_seq" ∧
    (store.instanceAt 0).mapping.schema = some "library" ∧
    QualifiedName.meantIn "public" ⟨none, "book_seq"⟩
      ≠ QualifiedName.meantIn "public" ⟨(store.instanceAt 0).mapping.schema, "book_seq"⟩ ∧
    (((Store.save (Samples.sequenced.traced.session 0) 0).run store).2.pool.world.trace.filterMap
      fun call => call.deed.text?) = ["SELECT nextval('\"book_seq\"')"] ∧
    Store.Ensures (Store.save (Samples.sequenced.traced.session 0) 0) store
      (store.Prolongs fun _ calls => ∀ call ∈ calls, ∀ statement used,
        call.deed = .query statement → statement.request = .nextValue used →
        ∃ subject sequence, store.NewFrom 0 subject ∧
          (store.instanceAt subject).mapping.id.sequence = some sequence ∧
          used = ⟨none, sequence⟩ ∧
          Sql.sequenceCommand? statement.text = some (.draw used)) := by
  obtain ⟨store, visited⟩ : ∃ store,
      Samples.sequenced.traced.visited? Samples.shelved = some store :=
    Option.isSome_iff_exists.mp (by decide +kernel)
  have facts : ∀ store ∈ Samples.sequenced.traced.visited? Samples.shelved,
      0 < store.memory.size ∧ (store.instanceAt 0).mapping.id.sequence = some "book_seq" ∧
      (store.instanceAt 0).mapping.schema = some "library" ∧
      (((Store.save (Samples.sequenced.traced.session 0) 0).run store).2.pool.world.trace.filterMap
        fun call => call.deed.text?) = ["SELECT nextval('\"book_seq\"')"] := by
    decide +kernel
  obtain ⟨inMemory, declared, schema, sent⟩ := facts store visited
  have reached := Deployment.reached_visited (fun _ _ _ _ => trivial) visited
  have isShipped : ofName? "postgres" = some postgres := rfl
  obtain ⟨uses, sends⟩ := sequences_used isShipped rfl
  obtain ⟨usesIt, same⟩ := uses (store.instanceAt 0).mapping "book_seq" declared
  obtain ⟨saves, _⟩ := sends Samples.sequenced _ 0 store rfl reached
  refine ⟨store, isShipped, rfl, reached, usesIt, schema, fun isSame => ?_, sent, saves 0 inMemory⟩
  rw [same, schema] at isSame
  revert isSame
  decide

end Dialect

end EntityStore
