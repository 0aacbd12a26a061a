/-
The statements of a mapping agree. For every mapping that is built of a specification, whatever
its names and defaults are, the text that creates its table declares its columns, the texts that
read, write and remove a row name the same ones, and a save executes no others. The texts on a row
are commands that have a marker for each value that is passed: the markers are those of the
dialect, numbered in the order of the text, and the value with a number is for the column with
that number. Where a row is picked by its id, the id comes last.
-/

import EntityStore.Proofs.SentRows
import EntityStore.Proofs.Specifications
import EntityStore.Proofs.TableTexts

set_option autoImplicit false

namespace EntityStore

open Sql (Lexeme Spells Follows Separates Command)

/-! ### Commands on rows -/

namespace Sql

private theorem filterMap_marker_commas (parts : List (List Lexeme)) :
    (commas parts).filterMap Lexeme.marker?
      = parts.flatMap fun part => part.filterMap Lexeme.marker? := by
  induction parts with
  | nil => rfl
  | cons first others ih =>
      cases others with
      | nil => simp [commas]
      | cons second others =>
          have split : commas (first :: second :: others)
              = first ++ .symbol "," :: commas (second :: others) := by simp [commas]
          rw [split, List.filterMap_append, List.filterMap_cons_none rfl, ih]
          rfl

private theorem filterMap_marker_name (table : QualifiedName) :
    (nameLexemes table).filterMap Lexeme.marker? = [] := by
  unfold nameLexemes
  cases table.schema <;> rfl

def Command.IsRow : Command → Prop
  | create _ _ => False
  | _ => True

theorem Command.markers_lexemes {command : Command} (plain : command.Plain)
    (isRow : command.IsRow) :
    command.lexemes.filterMap Lexeme.marker? = command.slots.map Prod.snd := by
  have names (columns : List String) : (commas (columns.map fun column =>
      [Lexeme.quoted column])).filterMap Lexeme.marker? = [] := by
    rw [filterMap_marker_commas]
    simp [List.flatMap_map, Lexeme.marker?]
  have markers (texts : List String) : (commas (texts.map fun text =>
      [Lexeme.marker text])).filterMap Lexeme.marker? = texts := by
    rw [filterMap_marker_commas]
    simp [List.flatMap_map, Lexeme.marker?]
  have equations (slots : List (String × String)) :
      (commas (slots.map equation)).filterMap Lexeme.marker? = slots.map Prod.snd := by
    rw [filterMap_marker_commas, List.flatMap_map]
    induction slots with
    | nil => rfl
    | cons slot slots ih => rw [List.flatMap_cons, ih]; rfl
  have key (slot : String × String) :
      (equation slot).filterMap Lexeme.marker? = [slot.2] := rfl
  cases command with
  | create table columns => exact isRow.elim
  | insert table columns texts =>
      cases columns with
      | nil =>
          simp only [lexemes, slots, List.filterMap_cons, List.filterMap_append,
            filterMap_marker_name, Lexeme.marker?]
          rfl
      | cons column columns =>
          have same : (column :: columns).length = texts.length := plain
          simp only [lexemes, slots, List.filterMap_cons, List.filterMap_append,
            filterMap_marker_name, names, markers, Lexeme.marker?]
          rw [List.map_snd_zip (Nat.le_of_eq same.symm)]
          simp
  | update table columns slot =>
      simp only [lexemes, slots, List.filterMap_cons, List.filterMap_append,
        filterMap_marker_name, equations, key, Lexeme.marker?]
      simp
  | delete table slot =>
      simp only [lexemes, slots, List.filterMap_cons, List.filterMap_append,
        filterMap_marker_name, key, Lexeme.marker?]
      simp
  | select table columns slot =>
      simp only [lexemes, slots, List.filterMap_cons, List.filterMap_append,
        filterMap_marker_name, names, key, Lexeme.marker?]
      simp

end Sql

namespace Statement

/-- The statement is a command whose columns take the values that are passed with it: its slots
are the given columns with the markers from zero on, and the values are theirs, in the same
order. Outside quotes the text has these markers and no others. -/
structure Carries (dialect : Dialect) (statement : Statement) (command : Command)
    (bound : List (String × Value)) : Prop where
  reads : Sql.command? statement.text = some command
  slots : command.slots
    = bound.zipIdx.map fun entry => (entry.1.1, dialect.placeholder entry.2)
  values : statement.values = bound.map Prod.snd
  markers : ∃ found, Sql.lexemes statement.text.toList = some found ∧
    found.filterMap Lexeme.marker?
      = (List.range statement.values.length).map dialect.placeholder

variable {dialect : Dialect} {mapping : Mapping}

private theorem carries_of_spells {statement : Statement} {command : Command}
    {bound : List (String × Value)} (plain : command.Plain) (isRow : command.IsRow)
    (spells : Spells statement.text command.lexemes)
    (slots : command.slots
      = bound.zipIdx.map fun entry => (entry.1.1, dialect.placeholder entry.2))
    (values : statement.values = bound.map Prod.snd) :
    statement.Carries dialect command bound := by
  refine ⟨Sql.command?_of_spells plain spells, slots, values, _, spells, ?_⟩
  rw [Command.markers_lexemes plain isRow, slots, values, List.length_map, List.map_map]
  have numbers : bound.zipIdx.map Prod.snd = List.range bound.length := by
    rw [List.zipIdx_map_snd, List.range_eq_range']
  rw [← numbers, List.map_map]
  rfl

private theorem spells_insertText (marks : dialect.Marks) (columns : List String) :
    Spells (insertText dialect mapping columns)
      (Command.insert (tableOf mapping) columns
        ((List.range columns.length).map dialect.placeholder)).lexemes := by
  have inserts : Sql.run .none "INSERT INTO ".toList
      = some ([.word "INSERT", .word "INTO"], .none) := rfl
  have named := (spells_name mapping).behind inserts
  cases columns with
  | nil =>
      have spells : Spells "DEFAULT VALUES" [.word "DEFAULT", .word "VALUES"] := rfl
      have split : " DEFAULT VALUES" = " " ++ "DEFAULT VALUES" := rfl
      have whole := Sql.separates_space.follows spells _ _ named
      rw [← split] at whole
      simpa [insertText, Command.lexemes] using whole
  | cons first others =>
      have opens : Separates " (" [.symbol "("] := ⟨' ', ['('], [], _, rfl, .space, rfl, rfl⟩
      have values : Separates ") VALUES (" [.symbol ")", .word "VALUES", .symbol "("] :=
        ⟨')', " VALUES (".toList, _, _, rfl, .closing, rfl, rfl⟩
      have columnsSpelled := spells_commaSeparated Sql.spells_quote first others
      obtain ⟨number, numbers, isRange⟩ := List.exists_cons_of_ne_nil
        (show List.range (first :: others).length ≠ [] by simp)
      have markersSpelled := spells_commaSeparated marks number numbers
      rw [← isRange] at markersSpelled
      have whole := (((opens.follows columnsSpelled).append (values.follows markersSpelled)).append
        Sql.separates_closing.ends) _ _ named
      simpa [insertText, Statement.markers, Command.lexemes, String.append_assoc,
        Function.comp_def] using whole

private theorem carries_insert (marks : dialect.Marks) (entries : List (String × Value)) :
    (insert dialect mapping entries).Carries dialect
      (.insert (tableOf mapping) (entries.map Prod.fst)
        ((List.range entries.length).map dialect.placeholder)) entries := by
  have spells := @spells_insertText _ mapping marks (entries.map Prod.fst)
  rw [List.length_map] at spells
  refine carries_of_spells ?_ trivial spells ?_ rfl
  · show (entries.map Prod.fst).length = _
    simp
  · show (entries.map Prod.fst).zip ((List.range entries.length).map dialect.placeholder) = _
    rw [List.zip_map, List.zipIdx_eq_zip_range', List.range_eq_range']
    rfl

private theorem carries_update (marks : dialect.Marks) {entries : List (String × Value)}
    (some' : entries ≠ []) (id : Int64) :
    (update dialect mapping entries id).Carries dialect
      (.update (tableOf mapping)
        (entries.zipIdx.map fun entry => (entry.1.1, dialect.placeholder entry.2))
        (mapping.id.column, dialect.placeholder entries.length))
      (entries ++ [(mapping.id.column, .integer id)]) := by
  have spells := @spells_updateText _ marks mapping (entries.map Prod.fst) (by simpa using some')
  have same : updateLexemes dialect mapping (entries.map Prod.fst)
      = (Command.update (tableOf mapping)
        (entries.zipIdx.map fun entry => (entry.1.1, dialect.placeholder entry.2))
        (mapping.id.column, dialect.placeholder entries.length)).lexemes := by
    have equations : (entries.map Prod.fst).zipIdx.map (equation dialect)
        = (entries.zipIdx.map fun entry =>
          (entry.1.1, dialect.placeholder entry.2)).map Sql.equation := by
      rw [List.zipIdx_map, List.map_map, List.map_map]
      rfl
    unfold updateLexemes
    rw [equations, List.length_map, tableLexemes_eq]
    simp only [Command.lexemes, List.append_assoc, List.cons_append, List.nil_append]
    rfl
  rw [same] at spells
  refine carries_of_spells ?_ trivial spells ?_ ?_
  · show entries.zipIdx.map _ ≠ []
    simpa using some'
  · show _ ++ [_] = _
    rw [List.zipIdx_append, List.map_append]
    simp
  · simp [update]

private theorem follows_idCondition (marks : dialect.Marks) (mapping : Mapping) (next : Nat) :
    Follows (idCondition dialect mapping next)
      (.word "WHERE" :: Sql.equation (mapping.id.column, dialect.placeholder next)) := by
  have follows := separates_where.follows (spells_equation marks (mapping.id.column, next))
  have isText : idCondition dialect mapping next
      = " WHERE " ++ assignmentText dialect (mapping.id.column, next) := by
    simp [idCondition, assignmentText, String.append_assoc]
  rw [isText]
  exact follows

private theorem carries_delete (marks : dialect.Marks) (id : Int64) :
    (delete dialect mapping id).Carries dialect
      (.delete (tableOf mapping) (mapping.id.column, dialect.placeholder 0))
      [(mapping.id.column, .integer id)] := by
  have deletes : Sql.run .none "DELETE FROM ".toList
      = some ([.word "DELETE", .word "FROM"], .none) := rfl
  have spells := follows_idCondition marks mapping 0 _ _ ((spells_name mapping).behind deletes)
  exact carries_of_spells trivial trivial
    (by simpa [delete, deleteText, Command.lexemes, String.append_assoc] using spells) rfl rfl

private theorem carries_selectById (marks : dialect.Marks) (id : Int64) :
    (selectById dialect mapping id).Carries dialect
      (.select (tableOf mapping) mapping.columns (mapping.id.column, dialect.placeholder 0))
      [(mapping.id.column, .integer id)] := by
  have columns : Spells ("SELECT " ++ Sql.commaSeparated (mapping.columns.map Sql.quote))
      (.word "SELECT" :: Sql.commas (mapping.columns.map fun column => [.quoted column])) :=
    (spells_commaSeparated Sql.spells_quote _ _).behind spells_select
  have follows := (separates_from.follows (spells_name mapping)).append
    (follows_idCondition marks mapping 0)
  have spells := follows _ _ columns
  exact carries_of_spells (List.cons_ne_nil _ _) trivial
    (by simpa [selectById, selectByIdText, Command.lexemes, String.append_assoc] using spells)
    rfl rfl

end Statement

/-! ### All statements of a mapping -/

/-- The statement creates the table of a mapping: it is read as a table with the columns of the
mapping in order, first the key and then a column for each property that has one. -/
structure Dialect.Declares (dialect : Dialect) (mapping : Mapping) (statement : Statement)
    (columns : List Sql.ColumnDefinition) : Prop where
  reads : Sql.command? statement.text = some (.create (Statement.tableOf mapping) columns)
  noValues : statement.values = []
  names : columns.map Sql.ColumnDefinition.name = mapping.columns
  key : ∃ key ∈ columns.head?, key.default = none ∧ ∃ generated, key.constraint = .key generated
  properties : List.Forall₂ dialect.DefinedAs mapping.columnProperties columns.tail

structure Dialect.Agrees (dialect : Dialect) (mapping : Mapping) : Prop where
  distinct : (mapping.columns.map Text.lower).Nodup
  created : ∃ statement columns, Statement.createTable dialect mapping = .ok statement ∧
    dialect.Declares mapping statement columns
  inserted : ∀ entries : List (String × Value),
    (Statement.insert dialect mapping entries).Carries dialect
      (.insert (Statement.tableOf mapping) (entries.map Prod.fst)
        ((List.range entries.length).map dialect.placeholder)) entries
  updated : ∀ (entries : List (String × Value)) (id : Int64), entries ≠ [] →
    (Statement.update dialect mapping entries id).Carries dialect
      (.update (Statement.tableOf mapping)
        (entries.zipIdx.map fun entry => (entry.1.1, dialect.placeholder entry.2))
        (mapping.id.column, dialect.placeholder entries.length))
      (entries ++ [(mapping.id.column, .integer id)])
  deleted : ∀ id : Int64, (Statement.delete dialect mapping id).Carries dialect
    (.delete (Statement.tableOf mapping) (mapping.id.column, dialect.placeholder 0))
    [(mapping.id.column, .integer id)]
  selected : ∀ id : Int64, (Statement.selectById dialect mapping id).Carries dialect
    (.select (Statement.tableOf mapping) mapping.columns
      (mapping.id.column, dialect.placeholder 0))
    [(mapping.id.column, .integer id)]

namespace Mapping

private theorem default_ne_bytes {document : Json} {content : List UInt8} :
    Value.ofJson? document ≠ some (.bytes content) := by
  cases document with
  | number number =>
      cases number with
      | integer number =>
          simp only [Value.ofJson?]
          split <;> simp
      | float number => simp [Value.ofJson?]
  | _ => simp [Value.ofJson?]

private theorem noBytes_of_build {entity : String} {spec : MappingSpec} {isKnown : String → Bool}
    {mapping : Mapping} (built : build entity spec isKnown = .ok mapping) :
    ∀ plain content, .scalar plain ∈ mapping.properties →
      plain.default ≠ some (.bytes content) := by
  have describes := (build_eq_ok.mp built).2.properties
  intro plain content member isBytes
  obtain ⟨declared, _, stands⟩ : ∃ declared ∈ spec.properties,
      declared.2.options.StandsFor declared.1 (.scalar plain) := by
    obtain ⟨place, inRange, isPlain⟩ := List.getElem_of_mem member
    have inSpec : place < spec.properties.length := describes.length_eq ▸ inRange
    exact ⟨_, List.getElem_mem inSpec, isPlain ▸ describes.get inSpec inRange⟩
  cases stands
  obtain ⟨document, _, isBytes⟩ := Option.bind_eq_some_iff.mp isBytes
  exact default_ne_bytes isBytes

end Mapping

namespace Dialect

variable {dialect : Dialect} {mapping : Mapping}

theorem Defines.declares (defines : dialect.Defines)
    (noBytes : ∀ plain content, .scalar plain ∈ mapping.properties →
      plain.default ≠ some (.bytes content)) :
    ∃ statement columns, Statement.createTable dialect mapping = .ok statement ∧
      dialect.Declares mapping statement columns := by
  obtain ⟨statement, key, columns, created, noValues, reads, isNamed, noDefault, isKey, defined⟩ :=
    defines.createTable noBytes
  refine ⟨statement, key :: columns, created, reads, noValues, ?_, ⟨key, rfl, noDefault, isKey⟩,
    defined⟩
  have named := @Mapping.names_of_columnProperties _ _ _ Sql.ColumnDefinition.name _
    (fun _ _ => DefinedAs.named) defined
  rw [List.map_cons, isNamed, named]
  rfl

/-- The statements of every mapping that is built agree, in every dialect that is shipped, and
whatever a save executes is one of them: the row of a new instance is inserted with the columns of
its table, the id only where it is drawn, and a row is updated with the columns of some of its
properties, each with the value of its own property. -/
theorem statements_agree {name entity : String} {spec : MappingSpec} {isKnown : String → Bool}
    (isShipped : ofName? name = some dialect)
    (built : Mapping.build entity spec isKnown = .ok mapping) :
    dialect.Agrees mapping ∧
      ∀ {World : Type} (inner : Deployment World)
        (allowed : Store (Traced World) → ThreadId → Action → Prop) (thread : ThreadId)
        (store : Store (Traced World)) (root : InstanceId), inner.dialect = dialect →
        inner.traced.Reached allowed store → root < store.memory.size →
        Store.Ensures (Store.save (inner.traced.session thread) root) store
          (store.Prolongs fun _ calls => ∀ call ∈ calls, ∀ statement,
            call.deed = .execute statement → store.Executes dialect root statement) := by
  have marks := marks_of_ofName? isShipped
  refine ⟨⟨(Mapping.build_ok built).2.distinctColumns,
    (defines_of_ofName? isShipped).declares (Mapping.noBytes_of_build built),
    Statement.carries_insert marks, fun _ id some' => Statement.carries_update marks some' id,
    Statement.carries_delete marks, Statement.carries_selectById marks⟩, ?_⟩
  intro World inner allowed thread store root sameDialect reached inMemory
  rw [← sameDialect]
  refine (Store.sent_by_save reached.regular inMemory).weaken fun _ _ prolongs => ?_
  refine prolongs.weaken fun calls sends call member statement executes => ?_
  have saves := sends call member statement (Or.inl executes)
  rwa [executes] at saves

end Dialect

namespace Samples

/-- A type whose names and defaults are made of what ends and separates parts of a statement. -/
def awkward : MappingSpec :=
  ({} : MappingSpec).withTable "t\"; (x), ? 'y'"
    |>.withIdColumn "id\") VALUES (?"
    |>.withSequence "ids"
    |>.withProperty "note" (.detailed ((((plain "string").withColumn "a, b\" ?").withDefault
      (.string "it's \"?\", (1)")).withNullable false))
    |>.withProperty "level" (.detailed ((plain "integer").withDefault (.number (.integer (-7)))))
    |>.withProperty "open" (.detailed ((plain "boolean").withDefault (.boolean true)))
    |>.withProperty "next" (.detailed ((PropertyOptions.object "Riddle").withColumn "' -- ?"))

def riddle : List (ThreadId × Action) := [
  (0, .define [("Riddle", awkward)]),
  (0, .sync),
  (0, .create "Riddle" [("note", .value (.text "What's \"?\""))]),
  (0, .assign 0 "next" (.entity 0))]

end Samples

namespace Dialect

set_option maxRecDepth 100000 in
/-- Names and defaults cannot leave their quotes. -/
theorem statements_agree_awkward : ∃ (mapping : Mapping) (store : Store (Traced Tables.World)),
    ofName? "SQLite" = some sqlite ∧
    Mapping.build "Riddle" Samples.awkward (fun name => name == "Riddle") = .ok mapping ∧
    mapping.columns = ["id\") VALUES (?", "a, b\" ?", "level", "open", "' -- ?"] ∧
    sqlite.Agrees mapping ∧ (store.instanceAt 0).mapping = mapping ∧
    Store.Ensures (Store.save (Samples.deployment.traced.session 0) 0) store
      (store.Prolongs fun _ calls => ∀ call ∈ calls, ∀ statement,
        call.deed = .execute statement → store.Executes sqlite 0 statement) := by
  obtain ⟨mapping, built⟩ : ∃ mapping,
      (Mapping.build "Riddle" Samples.awkward fun name => name == "Riddle").toOption
        = some mapping :=
    Option.isSome_iff_exists.mp (by decide +kernel)
  obtain ⟨store, visited⟩ : ∃ store,
      Samples.deployment.traced.visited? Samples.riddle = some store :=
    Option.isSome_iff_exists.mp (by decide +kernel)
  have isNamed : ∀ mapping ∈ (Mapping.build "Riddle" Samples.awkward
      fun name => name == "Riddle").toOption,
      mapping.columns = ["id\") VALUES (?", "a, b\" ?", "level", "open", "' -- ?"] := by
    decide +kernel
  have facts : ∀ mapping ∈ (Mapping.build "Riddle" Samples.awkward
      fun name => name == "Riddle").toOption,
      ∀ store ∈ Samples.deployment.traced.visited? Samples.riddle,
        0 < store.memory.size ∧ (store.instanceAt 0).mapping = mapping := by
    decide +kernel
  obtain ⟨inMemory, isMapping⟩ := facts mapping built store visited
  have names := isNamed mapping built
  rw [toOption_eq_some] at built
  have reached := Deployment.reached_visited (fun _ _ _ _ => trivial) visited
  have isShipped : ofName? "SQLite" = some sqlite := rfl
  obtain ⟨agrees, executes⟩ := statements_agree isShipped built
  exact ⟨mapping, store, isShipped, built, names, agrees, isMapping,
    executes Samples.deployment _ 0 store 0 rfl reached inMemory⟩

end Dialect

end EntityStore
