/-
The tables in memory are a catalogue: a table is at the place of its name, and names of tables
differ beyond letter case.
-/

import EntityStore.Proofs.Catalogues
import EntityStore.Proofs.FaithfulTables

set_option autoImplicit false

namespace EntityStore
namespace Tables

def places (tables : Tables) : Set String := {name | ∃ table ∈ tables.list, table.name = name}

def Apart (tables : Tables) : Prop :=
  (tables.list.map fun table => Text.lower table.name).Nodup

instance (tables : Tables) : Decidable tables.Apart := inferInstanceAs (Decidable (List.Nodup _))

variable {tables : Tables}

private theorem mem_places {name : String} :
    name ∈ tables.places ↔ tables.contains name = true := by
  unfold contains places
  rw [List.any_eq_true]
  exact exists_congr fun table => and_congr_right fun _ => beq_iff_eq.symm

private theorem names_replace (after : Table) :
    (tables.replace after).list.map Table.name = tables.list.map Table.name := by
  unfold replace
  rw [List.map_map]
  refine List.map_congr_left fun other _ => ?_
  dsimp only [Function.comp_apply]
  split
  · rename_i same
    exact (beq_iff_eq.mp same).symm
  · rfl

private theorem same_of_names {other : Tables}
    (names : other.list.map Table.name = tables.list.map Table.name) (apart : tables.Apart) :
    other.Apart ∧ other.places = tables.places := by
  have lowered : other.list.map (fun table => Text.lower table.name)
      = tables.list.map fun table => Text.lower table.name := by
    have mapped := congrArg (List.map Text.lower) names
    rwa [List.map_map, List.map_map] at mapped
  refine ⟨?_, ?_⟩
  · unfold Apart
    rwa [lowered]
  ext name
  have members : name ∈ other.list.map Table.name ↔ name ∈ tables.list.map Table.name := by
    rw [names]
  rwa [List.mem_map, List.mem_map] at members

private theorem create_apart (apart : tables.Apart) {name : QualifiedName} {idColumn : String}
    {columns : List ColumnSpec} {created : Tables}
    (creates : tables.create name idColumn columns = .ok created) :
    created.Apart ∧ created.places = tables.places ∪ {name.name} := by
  obtain ⟨fresh, rfl⟩ := create_eq creates
  constructor
  · unfold Apart
    rw [List.map_append, List.nodup_append]
    refine ⟨apart, by simp, ?_⟩
    intro lowered isOld other isNew same
    obtain ⟨table, member, rfl⟩ := List.mem_map.mp isOld
    obtain rfl : other = Text.lower name.name := by simpa using isNew
    exact fresh table member same
  · ext place
    simp only [places, List.mem_append, List.mem_singleton, or_and_right, exists_or,
      exists_eq_left, Set.mem_union, Set.mem_ofPred_eq, Set.mem_singleton_iff,
      @eq_comm _ name.name place]

private theorem drop_apart (apart : tables.Apart) {name : QualifiedName} {dropped : Tables}
    (drops : tables.drop name = .ok dropped) :
    dropped.Apart ∧
      (name.name ∈ tables.places → dropped.places = tables.places \ {name.name}) := by
  unfold drop at drops
  simp only [bind, Except.bind, pure, Except.pure] at drops
  split at drops
  · cases drops
  rename_i table found
  cases drops
  obtain ⟨member, isName⟩ := find_ok found
  refine ⟨(List.filter_sublist.map _).nodup apart, ?_⟩
  rintro ⟨other, isOther, same⟩
  obtain rfl : other = table :=
    List.inj_on_of_nodup_map apart isOther member ((congrArg Text.lower same).trans isName.symm)
  ext place
  constructor
  · rintro ⟨one, isOne, rfl⟩
    obtain ⟨isOld, different⟩ := List.mem_filter.mp isOne
    exact ⟨⟨one, isOld, rfl⟩, fun isSame => (bne_iff_ne.mp different) (isSame.trans same.symm)⟩
  · rintro ⟨⟨one, isOld, rfl⟩, different⟩
    exact ⟨one, List.mem_filter.mpr ⟨isOld, bne_iff_ne.mpr fun isSame =>
      different (isSame.trans same)⟩, rfl⟩

private theorem execute_apart (apart : tables.Apart) {statement : Statement} {change : Change}
    (executed : tables.execute statement = .ok change) :
    change.tables.Apart ∧
      statement.request.Changes QualifiedName.name tables.places change.tables.places := by
  unfold execute at executed
  simp only [bind, Except.bind, pure, Except.pure] at executed
  split at executed
  · cases executed
  -- Rows may change, which replaces the tables that have them.
  have replaced (after : Table) : (tables.replace after).Apart ∧
      (tables.replace after).places = tables.places := same_of_names (names_replace after) apart
  cases isRequest : statement.request with
  | createTable name idColumn columns =>
      simp only [isRequest] at executed
      split at executed
      · cases executed
      rename_i created creates
      cases executed
      exact create_apart apart creates
  | dropTable name =>
      simp only [isRequest] at executed
      split at executed
      · cases executed
      rename_i dropped drops
      cases executed
      exact drop_apart apart drops
  | insert name idColumn columns =>
      simp only [isRequest] at executed
      split at executed
      · cases executed
      split at executed
      · cases executed
      cases executed
      exact replaced _
  | update name idColumn columns =>
      simp only [isRequest] at executed
      split at executed
      · cases executed
      split at executed
      · cases executed
      cases executed
      exact replaced _
  | delete name idColumn =>
      simp only [isRequest] at executed
      split at executed
      · cases executed
      split at executed
      · cases executed
      cases executed
      exact replaced _
  | _ => simp only [isRequest] at executed; cases executed

/-! ### Connections -/

structure World.Apart (world : World) : Prop where
  published : world.published.Apart
  writing : ∀ writer own, world.writing = some (writer, own) →
    own.Apart ∧ writer ∈ world.inTransaction

variable {world : World} {connection : ConnectionId}

private theorem seenBy_apart (apart : world.Apart) (connection : ConnectionId) :
    (world.seenBy connection).Apart := by
  unfold World.seenBy
  cases isWriting : world.writing with
  | none => exact apart.published
  | some entry =>
      dsimp only
      split
      · exact (apart.writing entry.1 entry.2 isWriting).1
      · exact apart.published

private theorem leave_apart (apart : world.Apart) (connection : ConnectionId) :
    (world.leave connection).Apart := by
  refine ⟨apart.published, fun writer own isWriting => ?_⟩
  obtain ⟨kept, isOther⟩ := Option.filter_eq_some_iff.mp isWriting
  obtain ⟨ownApart, inside⟩ := apart.writing writer own kept
  exact ⟨ownApart, List.mem_filter.mpr ⟨inside, isOther⟩⟩

private theorem answer_defaultSchema {statement : Statement}
    (isDefault : statement.request = .defaultSchema) (rows : List Row) :
    tables.answer statement ≠ .ok rows := by
  intro answered
  unfold answer at answered
  simp only [bind, Except.bind, isDefault] at answered
  split at answered
  · cases answered
  · cases answered

private theorem begin_apart (apart : world.Apart) {after : World}
    (begins : beginOn connection world = (.ok (), after)) :
    after.Apart ∧ after.inTransaction.contains connection = true ∧
      after.seenBy connection = world.published := by
  unfold beginOn at begins
  split at begins
  · cases begins
  rename_i outside
  cases begins
  refine ⟨⟨apart.published, fun writer own isWriting => ?_⟩, by simp, ?_⟩
  · obtain ⟨ownApart, inside⟩ := apart.writing writer own isWriting
    exact ⟨ownApart, List.mem_cons_of_mem connection inside⟩
  · unfold World.seenBy
    cases isWriting : world.writing with
    | none => rfl
    | some entry =>
        have inside := (apart.writing entry.1 entry.2 isWriting).2
        have different : entry.1 ≠ connection := fun same => outside (by simpa [same] using inside)
        dsimp only
        rw [if_neg (by simpa using different)]

private theorem commit_apart (apart : world.Apart) {after : World}
    (commits : commitOn connection world = (.ok (), after)) :
    after.Apart ∧ after.published = world.seenBy connection := by
  unfold commitOn at commits
  split at commits
  · cases commits
    have shown : World.Apart { world with published := world.seenBy connection } :=
      ⟨seenBy_apart apart connection, apart.writing⟩
    exact ⟨leave_apart shown connection, rfl⟩
  · cases commits

private theorem executeOn_apart (apart : world.Apart)
    (inside : world.inTransaction.contains connection = true) {statement : Statement}
    {affected : Nat} {after : World}
    (executed : executeOn connection statement world = (.ok affected, after)) :
    after.Apart ∧ after.inTransaction.contains connection = true ∧
      statement.request.Changes QualifiedName.name (world.seenBy connection).places
        (after.seenBy connection).places := by
  have member : connection ∈ world.inTransaction := by simpa using inside
  unfold executeOn at executed
  split at executed
  · cases executed
  split at executed
  · cases executed
  rename_i change changed
  cases executed
  obtain ⟨changedApart, changes⟩ := execute_apart (seenBy_apart apart connection) changed
  rw [keep_of_inside member]
  have kept (id : Option Int64) (between : World) :
      (between.noteGenerated connection id).seenBy connection = between.seenBy connection := by
    unfold World.seenBy
    rw [writing_noteGenerated, published_noteGenerated]
  refine ⟨⟨?_, fun writer own isWriting => ?_⟩, ?_, ?_⟩
  · rw [published_noteGenerated]
    exact apart.published
  · rw [writing_noteGenerated] at isWriting
    cases isWriting
    rw [inTransaction_noteGenerated]
    exact ⟨changedApart, member⟩
  · rw [inTransaction_noteGenerated]
    exact inside
  · rw [kept]
    unfold World.seenBy
    simp only [beq_self_eq_true, ↓reduceIte]
    exact changes

def catalogued (description : String) : Catalogue (database description) where
  Place := String
  place := QualifiedName.name
  Valid := World.Apart
  published world := world.published.places
  seen world connection := (world.seenBy connection).places
  connect _ _ apart := ⟨apart, rfl⟩
  isValid _ _ apart := ⟨apart, rfl⟩
  close connection _ apart := ⟨leave_apart apart connection, rfl⟩
  begin connection world after apart begins := by
    obtain ⟨valid, inside, same⟩ := begin_apart apart begins
    exact ⟨valid, inside, congrArg places same⟩
  commit connection world after apart _ commits := by
    obtain ⟨valid, same⟩ := commit_apart apart commits
    exact ⟨valid, congrArg places same⟩
  execute connection world statement affected after apart inside executed :=
    executeOn_apart apart inside executed
  query connection world statement rows after apart inside answered := by
    change queryOn connection statement world = _ at answered
    obtain ⟨told, rfl⟩ := Prod.mk.inj answered
    refine ⟨apart, inside, rfl, fun isDefault => ?_⟩
    cases answers : (world.seenBy connection).answer statement with
    | error fault =>
        rw [answers] at told
        cases told
    | ok others => exact absurd answers (answer_defaultSchema isDefault others)
  tableExists connection world table there after apart inside looked := by
    obtain ⟨schema, name⟩ := table
    change tableExistsOn connection ⟨schema, name⟩ world = _ at looked
    unfold tableExistsOn at looked
    split at looked
    · cases looked
    · cases looked
      exact ⟨apart, inside, rfl, mem_places.symm⟩

end Tables
end EntityStore
