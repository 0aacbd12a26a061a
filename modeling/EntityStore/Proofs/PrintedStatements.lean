/-
The statements that are printed for a mapping file. A file is printed exactly when it can be
read and each of its types can be built beside the others; what is printed is what creates
their tables and sequences, in the order of the file. A store that is new asks for more before it
defines the types of a file: no two of them have one name, and the queries of all collections can
be read. So it defines none that cannot be printed, but not everything that can.
-/

import EntityStore.Commands
import EntityStore.Proofs.CreatedTables
import EntityStore.Proofs.RebuiltMappings
import EntityStore.Proofs.TableTexts

set_option autoImplicit false

namespace EntityStore

/-! ### What creates a type -/

namespace Dialect

variable {dialect : Dialect}

theorem Defines.exists_propertyColumn (defines : dialect.Defines) (property : Property) :
    ∃ text, dialect.propertyColumn property = .ok text := by
  cases property with
  | scalar property =>
      obtain ⟨type, _, isType, _⟩ := defines.columnDefinition property.type property.length
      simp only [Dialect.propertyColumn, isType, bind, Except.bind, pure, Except.pure]
      exact ⟨_, rfl⟩
  | object relation =>
      obtain ⟨type, _, isType, _⟩ := defines.columnDefinition .long none
      simp only [Dialect.propertyColumn, isType, bind, Except.bind, pure, Except.pure]
      exact ⟨_, rfl⟩
  | collection relation => exact ⟨none, rfl⟩

theorem Defines.exists_propertyColumns (defines : dialect.Defines) (properties : List Property) :
    ∃ texts, dialect.propertyColumns properties = .ok texts := by
  induction properties with
  | nil => exact ⟨[], rfl⟩
  | cons property rest ih =>
      obtain ⟨text, isText⟩ := defines.exists_propertyColumn property
      obtain ⟨texts, areTexts⟩ := ih
      unfold Dialect.propertyColumns
      rw [isText, areTexts]
      exact ⟨_, rfl⟩

/-- A dialect that has a type for every kind of column can create every table. -/
theorem Defines.exists_creation (defines : dialect.Defines) (mapping : Mapping) :
    ∃ statements, Statement.creation dialect mapping = .ok statements := by
  obtain ⟨texts, areTexts⟩ := defines.exists_propertyColumns mapping.properties
  unfold Statement.creation Statement.createTable Dialect.createTable
  rw [areTexts]
  exact ⟨_, rfl⟩

end Dialect

namespace Statement

/-- What creates types has no values. -/
theorem values_of_creations {dialect : Dialect} {mappings : List Mapping} {statement : Statement}
    (member : statement ∈ creations dialect mappings) : statement.values = [] := by
  obtain ⟨mapping, -, isStatement⟩ := List.mem_flatMap.mp member
  cases created : creation dialect mapping with
  | error fault =>
      rw [created] at isStatement
      cases isStatement
  | ok statements =>
      rw [created] at isStatement
      unfold creation createTable at created
      simp only [bind, Except.bind, pure, Except.pure] at created
      split at created
      · cases created
      rename_i table made
      split at made
      · cases made
      cases made
      cases created
      rcases List.mem_cons.mp isStatement with rfl | isSequence
      · rfl
      · obtain ⟨sequence, -, drawn⟩ := Option.bind_eq_some_iff.mp (Option.mem_toList.mp isSequence)
        obtain ⟨text, -, made⟩ := Option.bind_eq_some_iff.mp drawn
        cases made
        rfl

theorem creations_cons {dialect : Dialect} {mapping : Mapping} {mappings : List Mapping}
    {statements : List Statement} (created : creation dialect mapping = .ok statements) :
    creations dialect (mapping :: mappings) = statements ++ creations dialect mappings := by
  unfold creations
  rw [List.flatMap_cons, created]
  rfl

end Statement

/-! ### What is printed -/

namespace Commands

variable {dialect : Dialect} {isKnown : String → Bool} {batch : List Definition}

/-- What is printed of a batch that can be built creates its mappings. -/
theorem creationOf_of_buildAll (defines : dialect.Defines) {mappings : List Mapping}
    (built : Mapping.buildAll isKnown batch = .ok mappings) :
    creationOf dialect isKnown batch
      = .ok ((Statement.creations dialect mappings).map Statement.text) := by
  induction batch generalizing mappings with
  | nil =>
      cases built
      rfl
  | cons definition rest ih =>
      obtain ⟨mapping, later, builtFirst, builtLater, rfl⟩ := Mapping.buildAll_cons built
      obtain ⟨statements, created⟩ := defines.exists_creation mapping
      rw [Statement.creations_cons created, List.map_append]
      unfold creationOf creationTexts
      rw [mapError_eq_ok.mpr builtFirst, ih builtLater]
      simp only [bind, Except.bind, created, Except.mapError, pure, Except.pure]

private theorem buildAll_of_creationOf {texts : List String}
    (printed : creationOf dialect isKnown batch = .ok texts) :
    ∃ mappings, Mapping.buildAll isKnown batch = .ok mappings := by
  induction batch generalizing texts with
  | nil => exact ⟨[], rfl⟩
  | cons definition rest ih =>
      unfold creationOf at printed
      simp only [bind, Except.bind, pure, Except.pure] at printed
      split at printed
      · cases printed
      rename_i mapping builtFirst
      split at printed
      · cases printed
      split at printed
      · cases printed
      rename_i others printedLater
      obtain ⟨mappings, builtLater⟩ := ih printedLater
      use mapping :: mappings
      unfold Mapping.buildAll
      rw [builtFirst, builtLater]
      rfl

end Commands

/-! ### What is accepted -/

namespace Mapping

variable {isKnown : String → Bool} {batch : List Definition}

/-- A batch is built exactly when each of its specifications is valid, and each describes its
mapping. -/
theorem buildAll_eq_ok {mappings : List Mapping} : buildAll isKnown batch = .ok mappings ↔
    (∀ definition ∈ batch, definition.2.Valid definition.1 isKnown) ∧
      List.Forall₂ (fun definition mapping => definition.2.Describes definition.1 mapping)
        batch mappings := by
  rw [← List.forall₂_and_left]
  constructor
  · intro built
    exact (forall₂_buildAll built).imp fun definition mapping => build_eq_ok.mp
  · intro described
    exact buildAll_of_forall₂ (described.imp fun definition mapping => build_eq_ok.mpr)

private theorem exists_buildAll : (∃ mappings, buildAll isKnown batch = .ok mappings) ↔
    ∀ definition ∈ batch, definition.2.Valid definition.1 isKnown := by
  constructor
  · rintro ⟨mappings, built⟩
    exact (buildAll_eq_ok.mp built).1
  · intro valid
    have described : ∃ mappings, List.Forall₂ (fun definition mapping =>
        definition.2.Describes definition.1 mapping) batch mappings := by
      induction batch with
      | nil => exact ⟨[], .nil⟩
      | cons definition rest ih =>
          obtain ⟨mapping, describes⟩ := exists_mapping (valid definition List.mem_cons_self)
          obtain ⟨mappings, others⟩ :=
            ih fun other member => valid other (List.mem_cons_of_mem definition member)
          exact ⟨mapping :: mappings, .cons describes others⟩
    obtain ⟨mappings, describe⟩ := described
    exact ⟨mappings, buildAll_eq_ok.mpr ⟨valid, describe⟩⟩

end Mapping

namespace Registry

def Buildable (batch : List Definition) : Prop :=
  ∀ definition ∈ batch, definition.2.Valid definition.1 (batch.map Prod.fst).contains

structure Definable (batch : List Definition) : Prop where
  buildable : Buildable batch
  distinctNames : (batch.map Prod.fst).Nodup
  queries : ∀ mappings, List.Forall₂ (fun definition mapping =>
      definition.2.Describes definition.1 mapping) batch mappings →
    ∀ mapping ∈ mappings, ∀ relation ∈ mapping.collectionRelations,
      ∃ query, Query.parse (Registry.mk mappings).mapping? relation.query = .ok query

variable {batch : List Definition} {mappings : List Mapping} {extended : Registry}

/-- In an empty registry, only the names of the batch are known. -/
theorem Defines.buildAll (defines : Defines {} batch mappings extended) :
    Mapping.buildAll (batch.map Prod.fst).contains batch = .ok mappings :=
  defines.built

theorem Defines.definable (defines : Defines {} batch mappings extended) : Definable batch := by
  have built := Mapping.buildAll_eq_ok.mp defines.buildAll
  constructor
  case buildable => exact built.1
  case distinctNames => exact (repeated?_eq_none defines.fresh).1
  case queries =>
    intro others described mapping member relation isRelation
    have same := defines.buildAll.symm.trans (Mapping.buildAll_eq_ok.mpr ⟨built.1, described⟩)
    obtain rfl := Except.ok.inj same
    obtain rfl : extended = Registry.mk mappings := defines.eq_append
    exact Mapping.parses_of_checkCollections defines.checked member isRelation

theorem Definable.exists_defines (definable : Definable batch) :
    ∃ mappings, Defines {} batch mappings (Registry.mk mappings) := by
  obtain ⟨mappings, built⟩ := Mapping.exists_buildAll.mpr definable.buildable
  have described := (Mapping.buildAll_eq_ok.mp built).2
  use mappings
  constructor
  case fresh =>
    apply repeated?_of_nodup definable.distinctNames
    intro name _ impossible
    cases impossible
  case built => exact built
  case checked =>
    unfold Mapping.checkCollections
    apply Mapping.forM_of_all
    intro mapping member
    apply Mapping.forM_of_all
    intro relation isRelation
    obtain ⟨query, parsed⟩ := definable.queries mappings described mapping member relation isRelation
    unfold Mapping.checkCollection
    rw [parsed]
  case extended => rfl

/-- The batches that a store defines when it is new. -/
theorem definable_iff : Definable batch ↔
    ∃ mappings extended, define {} batch = .ok (mappings, extended) := by
  constructor
  · intro definable
    obtain ⟨mappings, defines⟩ := definable.exists_defines
    exact ⟨mappings, Registry.mk mappings, define_eq_ok.mpr defines⟩
  · rintro ⟨mappings, extended, defined⟩
    exact (define_ok defined).definable

end Registry

namespace Commands

variable {name : String} {dialect : Dialect} {file : File} {batch : List Definition}

theorem statements_eq (shipped : Dialect.named name = .ok dialect)
    (isFile : definitions file = .ok batch) :
    statements name file
      = (creationOf dialect (batch.map Prod.fst).contains batch).mapError .store := by
  unfold statements
  rw [shipped, isFile]
  rfl

theorem defines_of_named (shipped : Dialect.named name = .ok dialect) : dialect.Defines := by
  unfold Dialect.named at shipped
  split at shipped
  · rename_i found
    cases shipped
    exact Dialect.defines_of_ofName? found
  · cases shipped

private theorem exists_ddl (shipped : Dialect.named name = .ok dialect)
    (isFile : definitions file = .ok batch) :
    (∃ text, ddl name file = .ok text) ↔ Registry.Buildable batch := by
  unfold ddl Registry.Buildable
  rw [statements_eq shipped isFile, ← Mapping.exists_buildAll]
  constructor
  · rintro ⟨text, printed⟩
    cases made : creationOf dialect (batch.map Prod.fst).contains batch with
    | error fault =>
        rw [made] at printed
        cases printed
    | ok texts => exact buildAll_of_creationOf made
  · rintro ⟨mappings, built⟩
    rw [creationOf_of_buildAll (defines_of_named shipped) built]
    exact ⟨_, rfl⟩

/-- What is accepted of a mapping file. Its statements are printed exactly when it can be read and
each type can be built; a store that is new defines its types exactly when, besides, their names
differ and the queries of their collections can be read. -/
theorem ddl_accepts (shipped : Dialect.named name = .ok dialect) (file : File) :
    ((∃ text, ddl name file = .ok text) ↔
      ∃ batch, definitions file = .ok batch ∧ Registry.Buildable batch) ∧
    ∀ {World : Type} (store : Store World), store.isOpen = true → store.registry = {} →
      ((∃ batch, definitions file = .ok batch ∧
          ∃ mappings after, (Store.define batch).run store = (.ok mappings, after)) ↔
        ∃ batch, definitions file = .ok batch ∧ Registry.Definable batch) := by
  constructor
  · cases read : definitions file with
    | error fault =>
        have failing : ddl name file = .error fault := by
          unfold ddl statements
          rw [shipped, read]
          rfl
        rw [failing]
        simp
    | ok batch =>
        rw [exists_ddl shipped read]
        simp
  · intro World store isOpen fresh
    apply exists_congr
    intro batch
    apply and_congr_right
    intro _
    rw [Registry.definable_iff, Store.run_define, if_pos isOpen, fresh]
    constructor
    · rintro ⟨mappings, after, ran⟩
      cases defined : Registry.define {} batch with
      | error fault =>
          rw [defined] at ran
          cases ran
      | ok pair => exact ⟨pair.1, pair.2, rfl⟩
    · rintro ⟨mappings, extended, defined⟩
      rw [defined]
      exact ⟨mappings, _, rfl⟩

end Commands

namespace Samples

def twice : List Definition := [("Dog", {}), ("Dog", {})]

def unresolved : List Definition := [("Dog", ({} : MappingSpec).withProperty "chases"
  (.detailed (PropertyOptions.collection "from Cat where dog = :id")))]

end Samples

namespace Commands

def PrintedOnly (content : String) : Prop :=
  ∃ batch, definitions (some content) = .ok batch ∧ Registry.Buildable batch ∧
    (∃ text, ddl "sqlite" (some content) = .ok text) ∧
    ∀ store : Store Tables.World, store.isOpen = true → store.registry = {} →
      ¬∃ mappings after, (Store.define batch).run store = (.ok mappings, after)

set_option maxRecDepth 100000 in
/-- A type that is written twice and a collection that cannot be read are printed all the same. -/
theorem ddl_accepts_undefinable :
    PrintedOnly (MappingSpec.fileText Samples.twice) ∧
      PrintedOnly (MappingSpec.fileText Samples.unresolved) := by
  have facts : ∀ content ∈ [MappingSpec.fileText Samples.twice,
      MappingSpec.fileText Samples.unresolved],
      (ddl "sqlite" (some content)).isOk = true ∧
        ∀ batch ∈ (definitions (some content)).toOption,
          (Registry.define {} batch).isOk = false := by
    decide +kernel
  have each (content : String) (printed : (ddl "sqlite" (some content)).isOk = true)
      (refused : ∀ batch ∈ (definitions (some content)).toOption,
        (Registry.define {} batch).isOk = false) : PrintedOnly content := by
    have shipped : Dialect.named "sqlite" = .ok Dialect.sqlite := rfl
    obtain ⟨prints, defines⟩ := ddl_accepts shipped (some content)
    have isPrinted : ∃ text, ddl "sqlite" (some content) = .ok text := by
      cases made : ddl "sqlite" (some content) with
      | error fault =>
          rw [made] at printed
          cases printed
      | ok text => exact ⟨text, rfl⟩
    obtain ⟨batch, isFile, buildable⟩ := prints.mp isPrinted
    refine ⟨batch, isFile, buildable, isPrinted, ?_⟩
    intro store isOpen fresh accepted
    obtain ⟨other, isOther, definable⟩ :=
      (defines store isOpen fresh).mp ⟨batch, isFile, accepted⟩
    obtain ⟨mappings, extended, defined⟩ := Registry.definable_iff.mp definable
    have isRefused := refused other (toOption_eq_some.mpr isOther)
    rw [defined] at isRefused
    cases isRefused
  obtain ⟨isPrinted, isRefused⟩ := facts _ List.mem_cons_self
  obtain ⟨isPrintedToo, isRefusedToo⟩ := facts _ (List.mem_cons_of_mem _ List.mem_cons_self)
  exact ⟨each _ isPrinted isRefused, each _ isPrintedToo isRefusedToo⟩

end Commands

end EntityStore
