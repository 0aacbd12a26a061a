/-
Mappings rebuilt from their own specifications. What would have to be written down for a
mapping passes all checks again, and what is built of it is the mapping without its defaults.
Queries cannot tell the two apart, since both have the same name and the same columns. So the
entity types of a registry can be defined anew as one batch, in their order, and the tables,
columns, relations and collections are those that there were.
-/

import Mathlib.Data.List.Forall2
import EntityStore.Proofs.Registries
import EntityStore.Proofs.Specifications

set_option autoImplicit false

namespace EntityStore

/-! ### Queries over changed entity types -/

namespace Grammar

structure KeepsNames (change : Mapping → Mapping) : Prop where
  entity : ∀ mapping, (change mapping).entity = mapping.entity
  columnOf? : ∀ mapping property, (change mapping).columnOf? property = mapping.columnOf? property

variable {change : Mapping → Mapping} (keeps : KeepsNames change) {scope : List Mapping}
  {before : Nat} {tokens : List Token}
include keeps

theorem Reference.changeTypes {column : ColumnRef} (refers : Reference scope tokens column) :
    Reference (scope.map change) tokens column := by
  cases refers with
  | qualified isEntity introduced isPoint isProperty hasColumn =>
      apply Reference.qualified
      · rw [keeps.entity]
        exact isEntity
      · rw [List.getElem?_map, introduced]
        rfl
      · exact isPoint
      · exact isProperty
      · rw [keeps.columnOf?]
        exact hasColumn
  | bare isProperty isRoot hasColumn =>
      apply Reference.bare isProperty
      · rw [List.getElem?_map, isRoot]
        rfl
      · rw [keeps.columnOf?]
        exact hasColumn

theorem Operand.changeTypes {operand : EntityStore.Operand}
    (operates : Operand scope before tokens operand) :
    Operand (scope.map change) before tokens operand := by
  cases operates with
  | integer isNumber => exact .integer isNumber
  | float isNumber => exact .float isNumber
  | string isText => exact .string isText
  | nullWord isWord => exact .nullWord isWord
  | trueWord isWord => exact .trueWord isWord
  | falseWord isWord => exact .falseWord isWord
  | named isNamed => exact .named isNamed
  | positional isPositional => exact .positional isPositional
  | reference noLiteral refers => exact .reference noLiteral (refers.changeTypes keeps)

theorem Predicate.changeTypes {left : EntityStore.Operand} {whole : Expression}
    (predicate : Predicate scope before left tokens whole) :
    Predicate (scope.map change) before left tokens whole := by
  cases predicate with
  | compare isSign operates => exact .compare isSign (operates.changeTypes keeps)
  | notLike isNot isLike operates => exact .notLike isNot isLike (operates.changeTypes keeps)
  | isNull isVerb isNull => exact .isNull isVerb isNull
  | isNotNull isVerb isNot isNull => exact .isNotNull isVerb isNot isNull

theorem Condition.changeTypes {rank : Rank} {expression : Expression}
    (condition : Condition scope rank before tokens expression) :
    Condition (scope.map change) rank before tokens expression := by
  induction condition with
  | conjunction _ ih => exact .conjunction ih
  | or _ isOr _ first second => exact .or first isOr second
  | unary _ ih => exact .unary ih
  | and _ isAnd _ first second => exact .and first isAnd second
  | not isNot _ ih => exact .not isNot ih
  | parentheses isOpening _ isClosing ih => exact .parentheses isOpening ih isClosing
  | predicate noNot operates predicate =>
      exact .predicate noNot (operates.changeTypes keeps) (predicate.changeTypes keeps)

private theorem map_entity_changed :
    (scope.map change).map Mapping.entity = scope.map Mapping.entity := by
  rw [List.map_map]
  exact List.map_congr_left fun mapping _ => keeps.entity mapping

theorem Filter.changeTypes {predicate : Option Expression}
    (filters : Filter scope before tokens predicate) :
    Filter (scope.map change) before tokens predicate := by
  cases filters with
  | none => exact .none
  | condition isWhere condition => exact .condition isWhere (condition.changeTypes keeps)

theorem Key.changeTypes {key : OrderKey} (isKey : Key scope tokens key) :
    Key (scope.map change) tokens key := by
  cases isKey with
  | plain refers => exact .plain (refers.changeTypes keeps)
  | ascending refers isWord => exact .ascending (refers.changeTypes keeps) isWord
  | descending refers isWord => exact .descending (refers.changeTypes keeps) isWord

theorem Keys.changeTypes {keys : List OrderKey} (areKeys : Keys scope tokens keys) :
    Keys (scope.map change) tokens keys := by
  induction areKeys with
  | last isKey => exact .last (isKey.changeTypes keeps)
  | more isKey isComma _ ih => exact .more (isKey.changeTypes keeps) isComma ih

theorem Order.changeTypes {keys : List OrderKey} (orders : Order scope tokens keys) :
    Order (scope.map change) tokens keys := by
  cases orders with
  | none => exact .none
  | keys isOrder isBy areKeys => exact .keys isOrder isBy (areKeys.changeTypes keeps)

variable {first second : String → Option Mapping}
  (known : ∀ name mapping, first name = some mapping → second name = some (change mapping))
include known

theorem Entity.changeTypes {token : Token} {mapping : Mapping}
    (isEntity : Entity first scope token mapping) :
    Entity second (scope.map change) token (change mapping) := by
  obtain ⟨name, isWord, found⟩ := isEntity.known
  constructor
  · exact ⟨name, isWord, known name mapping found⟩
  · rw [map_entity_changed keeps, keeps.entity]
    exact isEntity.fresh

theorem Joins.changeTypes {joins : List Join} (derived : Joins first scope before tokens joins) :
    Joins second (scope.map change) before tokens
      (joins.map fun join => { join with target := change join.target }) := by
  induction derived with
  | none => exact .none
  | @join scope before joining tokens rest entity on kind target condition joins isJoining
      isEntity isOn isCondition _ ih =>
      have grown : (scope ++ [target]).map change = scope.map change ++ [change target] := by
        rw [List.map_append, List.map_singleton]
      apply Joins.join isJoining (isEntity.changeTypes keeps known) isOn
      · rw [← grown]
        exact isCondition.changeTypes keeps
      · rw [← grown]
        exact ih

end Grammar

namespace Query

def changeTypes (change : Mapping → Mapping) (query : Query) : Query :=
  { query with
    root := change query.root
    joins := query.joins.map fun join => { join with target := change join.target } }

private theorem scope_changeTypes (change : Mapping → Mapping) (query : Query) :
    (query.changeTypes change).scope = query.scope.map change := by
  unfold scope changeTypes
  rw [List.map_cons, List.map_map, List.map_map]
  rfl

/-- A query text that can be read over some entity types can be read over changed ones. -/
theorem parse_changeTypes {change : Mapping → Mapping} (keeps : Grammar.KeepsNames change)
    {first second : String → Option Mapping}
    (known : ∀ name mapping, first name = some mapping → second name = some (change mapping))
    {text : String} {query : Query} (parsed : parse first text = .ok query) :
    parse second text = .ok (query.changeTypes change) := by
  obtain ⟨words, last, scanned, isEnd, derived⟩ := exists_derivation parsed
  have derivedAgain : Grammar second words (query.changeTypes change) := by
    cases derived with
    | @query _ _ _ _ _ root joined _ _ isFrom isEntity joins filters orders =>
        let shape : Query := ⟨root, joined, none, [], 0⟩
        apply Grammar.query isFrom (isEntity.changeTypes keeps known)
        · exact joins.changeTypes keeps known
        · show Grammar.Filter (shape.changeTypes change).scope _ _ _
          rw [scope_changeTypes]
          exact filters.changeTypes keeps
        · show Grammar.Order (shape.changeTypes change).scope _ _
          rw [scope_changeTypes]
          exact orders.changeTypes keeps
  have ran := QueryParser.run_query derivedAgain isEnd (Nat.le_add_right words.length 1)
  unfold parse
  simp [scanned, ran]

end Query

/-! ### Mappings without their defaults -/

namespace Property

private theorem name_withoutDefault (property : Property) :
    property.withoutDefault.name = property.name := by
  cases property <;> rfl

private theorem column?_withoutDefault (property : Property) :
    property.withoutDefault.column? = property.column? := by
  cases property <;> rfl

end Property

namespace Mapping

structure SameSchema (first second : Mapping) : Prop where
  entity : second.entity = first.entity
  table : second.table = first.table ∧ second.schema = first.schema
  id : second.id = first.id
  columns : second.columns = first.columns
  properties : second.properties.map Property.withoutDefault
    = first.properties.map Property.withoutDefault
  objectRelations : second.objectRelations = first.objectRelations
  collectionRelations : second.collectionRelations = first.collectionRelations

private theorem columns_withoutDefaults (mapping : Mapping) :
    mapping.withoutDefaults.columns = mapping.columns := by
  unfold columns withoutDefaults
  rw [List.filterMap_map]
  exact congrArg _ (List.filterMap_congr fun property _ => property.column?_withoutDefault)

private theorem sameSchema_withoutDefaults (mapping : Mapping) :
    mapping.SameSchema mapping.withoutDefaults := by
  constructor
  case entity | id => rfl
  case table => exact ⟨rfl, rfl⟩
  case columns => exact mapping.columns_withoutDefaults
  case properties =>
    unfold withoutDefaults
    rw [List.map_map]
    apply List.map_congr_left
    intro property _
    cases property <;> rfl
  case objectRelations =>
    unfold objectRelations withoutDefaults
    rw [List.filterMap_map]
    apply List.filterMap_congr
    intro property _
    cases property <;> rfl
  case collectionRelations =>
    unfold collectionRelations withoutDefaults
    rw [List.filterMap_map]
    apply List.filterMap_congr
    intro property _
    cases property <;> rfl

private theorem property?_withoutDefaults (mapping : Mapping) (name : String) :
    mapping.withoutDefaults.property? name
      = (mapping.property? name).map Property.withoutDefault := by
  unfold property? withoutDefaults
  rw [List.find?_map]
  apply congrArg
  apply congrArg (fun test => mapping.properties.find? test)
  funext property
  exact congrArg (· == name) property.name_withoutDefault

private theorem keepsNames_withoutDefaults : Grammar.KeepsNames withoutDefaults := by
  constructor
  · intro mapping
    rfl
  · intro mapping name
    unfold columnOf?
    rw [property?_withoutDefaults, Option.bind_map]
    have sameColumns : Property.column? ∘ Property.withoutDefault = Property.column? :=
      funext Property.column?_withoutDefault
    rw [sameColumns]
    rfl

end Mapping

/-! ### Specifications of mappings -/

/-- If no name is blank that is given, nor the one that stands in for it, the name that is taken
is not blank. -/
theorem Text.isBlank_getD {given : Option String} {fallback : String}
    (named : ∀ name ∈ given, isBlank name = false) (otherwise : isBlank fallback = false) :
    isBlank (given.getD fallback) = false := by
  cases given with
  | none => exact otherwise
  | some name => exact named name rfl

namespace PropertyOptions

variable {isKnown : String → Bool} {name : String} {options : PropertyOptions}
  {property : Property}

theorem StandsFor.name_eq (stands : options.StandsFor name property) : property.name = name := by
  cases stands <;> rfl

theorem StandsFor.rebuilt (stands : options.StandsFor name property) :
    property.specification.options.StandsFor property.name property.withoutDefault := by
  cases stands with
  | @scalar type named =>
      exact .scalar (Text.sameIgnoringCase_iff.mpr rfl)
  | object isObject given => exact .object rfl rfl
  | collection isCollection given sole => exact .collection rfl rfl sole

theorem Valid.rebuilt (valid : options.Valid isKnown name)
    (stands : options.StandsFor name property) :
    property.specification.options.Valid isKnown property.name := by
  have columnNamed : Text.isBlank (options.columnFor name) = false :=
    Text.isBlank_getD valid.column valid.named
  constructor
  case named =>
    rw [stands.name_eq]
    exact valid.named
  case notReserved =>
    rw [stands.name_eq]
    exact valid.notReserved
  case column =>
    intro column isColumn
    cases stands with
    | scalar _ | object _ _ => exact Option.some.inj isColumn ▸ columnNamed
    | collection _ _ _ => cases isColumn
  case fits =>
    cases stands with
    | @scalar type _ =>
        have plain : ∀ document ∈ (none : Option Json), document.IsScalar := by
          intro document isDefault
          cases isDefault
        exact @Fits.scalar _ _ type (Text.sameIgnoringCase_iff.mpr rfl) rfl rfl plain
    | @object target isObject given =>
        obtain ⟨other, isOther, known, -⟩ := (fits_object isObject).mp valid.fits
        rw [given] at isOther
        cases isOther
        exact .object rfl rfl known rfl rfl
    | collection _ _ sole => exact .collection rfl rfl sole rfl rfl

theorem Valid.mono {knows : String → Bool} (valid : options.Valid isKnown name)
    (more : ∀ target, isKnown target = true → knows target = true) :
    options.Valid knows name := by
  constructor
  case named => exact valid.named
  case notReserved => exact valid.notReserved
  case column => exact valid.column
  case fits =>
    cases valid.fits with
    | scalar named noEntity noQuery plain => exact .scalar named noEntity noQuery plain
    | object isObject given known noQuery noDefault =>
        exact .object isObject given (more _ known) noQuery noDefault
    | collection isCollection given sole noEntity noDefault =>
        exact .collection isCollection given sole noEntity noDefault

end PropertyOptions

namespace Mapping

variable {isKnown knows : String → Bool} {entity : String} {spec : MappingSpec}
  {mapping : Mapping}

private theorem build_mono (more : ∀ target, isKnown target = true → knows target = true)
    (built : build entity spec isKnown = .ok mapping) : build entity spec knows = .ok mapping := by
  obtain ⟨valid, describes⟩ := build_eq_ok.mp built
  apply build_eq_ok.mpr
  constructor
  · constructor
    case properties =>
      intro property member
      exact (valid.properties property member).mono more
    case named => exact valid.named
    case table => exact valid.table
    case schema => exact valid.schema
    case idColumn => exact valid.idColumn
    case distinctNames => exact valid.distinctNames
    case distinctColumns => exact valid.distinctColumns
  · exact describes

private theorem ownColumn?_specification (property : Property) :
    property.specification.options.ownColumn? property.name = property.column? := by
  cases property with
  | scalar property =>
      obtain ⟨name, type, column, nullable, length, default⟩ := property
      cases type <;> rfl
  | object relation => rfl
  | collection relation => rfl

private theorem columns_specification (mapping : Mapping) :
    mapping.specification.columns = mapping.columns := by
  unfold MappingSpec.columns MappingSpec.propertyColumns columns specification
  rw [List.filterMap_map]
  exact congrArg _ (List.filterMap_congr fun property _ => ownColumn?_specification property)

theorem WellFormed.pairwise_columns (wellFormed : mapping.WellFormed) :
    mapping.columns.Pairwise fun first second =>
      Text.sameIgnoringCase first second = false := by
  apply (List.pairwise_map.mp wellFormed.distinctColumns).imp
  intro first second differ
  rw [← Bool.not_eq_true, Text.sameIgnoringCase_iff]
  exact differ

/-- What was built is built again of its own specification, without the defaults. -/
theorem build_specification (built : build entity spec isKnown = .ok mapping) :
    build mapping.entity mapping.specification isKnown = .ok mapping.withoutDefaults := by
  have wellFormed := (build_ok built).2
  obtain ⟨valid, describes⟩ := build_eq_ok.mp built
  -- Every property stands for what was written about it.
  have written : ∀ property ∈ mapping.properties, ∃ declared ∈ spec.properties,
      declared.2.options.StandsFor declared.1 property := by
    intro property member
    exact exists_of_forall₂ describes.properties.flip member
  apply build_eq_ok.mpr
  constructor
  · constructor
    case named =>
      rw [describes.named]
      exact valid.named
    case table =>
      intro table isTable
      rw [← Option.some.inj isTable, describes.table]
      exact Text.isBlank_getD valid.table valid.named
    case schema =>
      intro schema isSchema
      exact valid.schema schema (describes.schema ▸ isSchema)
    case idColumn =>
      intro column isColumn
      rw [← Option.some.inj isColumn, describes.idColumn]
      exact Text.isBlank_getD valid.idColumn (by decide)
    case properties =>
      intro entry member
      obtain ⟨property, isProperty, rfl⟩ := List.mem_map.mp member
      obtain ⟨declared, isDeclared, stands⟩ := written property isProperty
      exact (valid.properties declared isDeclared).rebuilt stands
    case distinctNames =>
      have names := wellFormed.distinctNames
      unfold specification
      rw [List.map_map]
      exact names
    case distinctColumns =>
      rw [columns_specification]
      exact wellFormed.pairwise_columns
  · constructor
    case named | table | schema | idColumn => rfl
    case sequence =>
      show mapping.id.sequence = mapping.id.sequence.filter fun name => !Text.isBlank name
      rw [describes.sequence, Option.filter_filter]
      simp
    case properties =>
      unfold specification withoutDefaults
      rw [List.forall₂_map_left_iff, List.forall₂_map_right_iff, List.forall₂_same]
      intro property isProperty
      obtain ⟨declared, isDeclared, stands⟩ := written property isProperty
      exact stands.rebuilt

end Mapping

/-! ### Registries defined anew -/

namespace Registry

inductive Built : Registry → Prop where
  | empty : Built {}
  | defined {registry extended : Registry} {batch : List Definition} {mappings : List Mapping} :
      Built registry → registry.define batch = .ok (mappings, extended) → Built extended

def definitions (registry : Registry) : List Definition :=
  registry.mappings.map fun mapping => (mapping.entity, mapping.specification)

def withoutDefaults (registry : Registry) : Registry :=
  ⟨registry.mappings.map Mapping.withoutDefaults⟩

variable {registry : Registry}

theorem Built.wellFormed (built : registry.Built) : registry.WellFormed := by
  induction built with
  | empty => exact wellFormed_empty
  | defined _ defined ih => exact (define_ok defined).wellFormed ih

theorem Built.closed (built : registry.Built) : registry.Closed := by
  induction built with
  | empty => exact closed_empty
  | defined earlier defined ih => exact (define_ok defined).closed earlier.wellFormed ih

/-- Every mapping of a registry was built of a specification, and would be again. -/
theorem Built.build (built : registry.Built) : ∀ mapping ∈ registry.mappings,
    ∃ spec, Mapping.build mapping.entity spec registry.contains = .ok mapping := by
  induction built with
  | empty =>
      intro mapping member
      cases member
  | @defined registry extended batch mappings earlier defined ih =>
      have defines := define_ok defined
      intro mapping member
      rw [defines.extended] at member
      rcases List.mem_append.mp member with isOld | isNew
      · obtain ⟨spec, built⟩ := ih mapping isOld
        use spec
        apply Mapping.build_mono ?_ built
        intro target isKnown
        rw [contains_iff, defines.names]
        exact List.mem_append_left _ (contains_iff.mp isKnown)
      · obtain ⟨definition, _, built⟩ := exists_of_forall₂ defines.forall₂_build.flip isNew
        rw [← (Mapping.build_ok built).1] at built
        exact ⟨definition.2, built⟩

private theorem names_definitions (registry : Registry) :
    registry.definitions.map Prod.fst = registry.names := by
  unfold definitions names
  rw [List.map_map]
  rfl

private theorem mapping?_withoutDefaults (registry : Registry) (name : String) :
    registry.withoutDefaults.mapping? name
      = (registry.mapping? name).map Mapping.withoutDefaults := by
  unfold mapping? withoutDefaults
  rw [List.find?_map]
  rfl

/-- The specifications of all entity types can be defined as one batch, and give the mappings
without their defaults. -/
theorem Built.define_definitions (built : registry.Built) :
    define {} registry.definitions
      = .ok (registry.withoutDefaults.mappings, registry.withoutDefaults) := by
  apply define_eq_ok.mpr
  have known : (fun target => contains {} target ||
      (registry.definitions.map Prod.fst).contains target) = registry.contains := by
    rw [names_definitions]
    rfl
  have knownAgain : ∀ name mapping, registry.mapping? name = some mapping →
      registry.withoutDefaults.mapping? name = some mapping.withoutDefaults := by
    intro name mapping found
    rw [mapping?_withoutDefaults, found]
    rfl
  constructor
  case fresh =>
    rw [names_definitions]
    apply repeated?_of_nodup built.wellFormed.distinctNames
    intro name _ impossible
    cases impossible
  case built =>
    rw [known]
    apply Mapping.buildAll_of_forall₂
    unfold definitions withoutDefaults
    rw [List.forall₂_map_left_iff, List.forall₂_map_right_iff, List.forall₂_same]
    intro mapping member
    obtain ⟨spec, builtOnce⟩ := built.build mapping member
    exact Mapping.build_specification builtOnce
  case checked =>
    unfold Mapping.checkCollections
    apply Mapping.forM_of_all
    intro rebuilt member
    obtain ⟨mapping, isMapping, rfl⟩ := List.mem_map.mp member
    apply Mapping.forM_of_all
    intro relation isRelation
    rw [mapping.sameSchema_withoutDefaults.collectionRelations] at isRelation
    obtain ⟨_, query, parsed, _⟩ := built.closed.collections mapping isMapping relation isRelation
    have parsedAgain :=
      Query.parse_changeTypes Mapping.keepsNames_withoutDefaults knownAgain parsed
    unfold Mapping.checkCollection
    rw [parsedAgain]
  case extended => rfl

end Registry

namespace Deployment

variable {World : Type} {deployment : Deployment World}
  {allowed : Store World → ThreadId → Action → Prop} {store : Store World}

theorem Reached.built (reached : deployment.Reached allowed store) : store.registry.Built := by
  apply reached.invariant fun store => store.registry.Built
  · intro store world created
    obtain ⟨_, _, rfl⟩ := create_ok created
    exact .empty
  · intro first second thread poses clears ok regular step built
    rcases step.registry with same | ⟨batch, mappings, defined⟩
    · exact same ▸ built
    · exact .defined built defined

end Deployment

namespace TestStore

def deployment : Deployment (Recorded Tables.World) where
  database := session.database
  dialect := session.dialect
  config := config
  store := 0
  world := { world := {} }

private theorem reached_empty {test : TestStore} (isEmpty : empty = .ok test) :
    deployment.Reached (fun _ _ _ => True) test.store := by
  unfold empty at isEmpty
  rcases created : Store.create session.database config 0 #[] { world := {} } with ⟨outcome, world⟩
  rw [created] at isEmpty
  cases outcome with
  | error fault => cases isEmpty
  | ok store =>
      cases isEmpty
      exact .created created

def setUp (batch : List Definition) : Operation (Recorded Tables.World) Unit := do
  let _ ← Store.define batch
  let _ ← Store.sync session

private theorem reached_setUp {store after : Store (Recorded Tables.World)}
    {batch : List Definition}
    {outcome : Except Error Unit} (reached : deployment.Reached (fun _ _ _ => True) store)
    (ran : (setUp batch).run store = (outcome, after)) :
    deployment.Reached (fun _ _ _ => True) after := by
  unfold setUp at ran
  rw [Store.run_bind] at ran
  rcases defined : (Store.define batch).run store with ⟨result, between⟩
  have performed : ((Action.define batch).perform (deployment.session 0)).run store
      = (result.map fun _ => (), between) := by
    unfold Action.perform
    rw [Store.run_bind, defined]
    cases result <;> rfl
  have defining : (Action.define batch).InMemory store.memory.size := trivial
  have reachedThen := reached.acted trivial defining performed
  rw [defined] at ran
  cases result with
  | error fault =>
      cases ran
      exact reachedThen
  | ok mappings =>
      have syncing : Action.sync.InMemory between.memory.size := trivial
      exact reachedThen.acted trivial syncing ran

private theorem ofDefinitions_ok {batch : List Definition} {test : TestStore}
    (opened : ofDefinitions batch = .ok test) :
    ∃ fresh, empty = .ok fresh ∧ ∃ after, (setUp batch).run fresh.store = (.ok (), after) ∧
      test.store.registry = after.registry := by
  have unfolded : ofDefinitions batch = (do
      let test ← empty
      (test.perform (setUp batch)).1
      return (test.perform (setUp batch)).2.withoutLog) := rfl
  rw [unfolded] at opened
  cases isEmpty : empty with
  | error fault =>
      rw [isEmpty] at opened
      cases opened
  | ok fresh =>
      rcases ran : (setUp batch).run fresh.store with ⟨outcome, after⟩
      rw [isEmpty] at opened
      simp only [perform, ran, bind, Except.bind, pure, Except.pure] at opened
      cases outcome with
      | error fault => cases opened
      | ok _ =>
          cases opened
          exact ⟨fresh, rfl, after, ran, rfl⟩

private theorem built_ofDefinitions {batch : List Definition} {test : TestStore}
    (opened : ofDefinitions batch = .ok test) : test.store.registry.Built := by
  obtain ⟨fresh, isEmpty, after, ran, same⟩ := ofDefinitions_ok opened
  rw [same]
  exact (reached_setUp (reached_empty isEmpty) ran).built

private theorem types_idsOfAll {through : Session Tables.World} {mappings : List Mapping}
    {store after : Store Tables.World} {types : List (Mapping × List Int64)}
    (ran : (idsOfAll through mappings).run store = (.ok types, after)) :
    types.map Prod.fst = mappings := by
  induction mappings generalizing store after types with
  | nil =>
      cases ran
      rfl
  | cons mapping rest ih =>
      unfold idsOfAll at ran
      obtain ⟨subjects, _, _, ran⟩ := Store.run_bind_eq_ok.mp ran
      obtain ⟨current, _, _, ran⟩ := Store.run_bind_eq_ok.mp ran
      obtain ⟨others, _, later, ran⟩ := Store.run_bind_eq_ok.mp ran
      cases ran
      rw [List.map_cons, ih later]

private theorem types_inspect {through : Session Tables.World} {registry : Registry}
    {store between after : Store Tables.World} {rebuilt : List Mapping} {reopened : Reopened}
    (defined : (Store.define registry.definitions).run store = (.ok rebuilt, between))
    (ran : (inspect through registry.mappings).run store = (.ok reopened, after)) :
    reopened.types.map Prod.fst = rebuilt := by
  unfold inspect at ran
  obtain ⟨mappings, _, definedThen, ran⟩ := Store.run_bind_eq_ok.mp ran
  cases defined.symm.trans definedThen
  obtain ⟨types, _, looked, ran⟩ := Store.run_bind_eq_ok.mp ran
  obtain ⟨synced, _, _, ran⟩ := Store.run_bind_eq_ok.mp ran
  cases ran
  exact types_idsOfAll looked

/-- A second store over the same tables defines the types of the first one, in their order, with
the same tables, columns, relations and collections. -/
structure Reopens (test : TestStore) : Prop where
  defines : ∃ store world, Store.create tablesDatabase config 1 #[]
      { published := test.store.pool.world.world.published } = (.ok store, world) ∧
    store.registry = {} ∧
    (Store.define test.store.registry.definitions).run store
      = (.ok test.store.registry.withoutDefaults.mappings,
        { store with registry := test.store.registry.withoutDefaults })
  same : List.Forall₂ Mapping.SameSchema test.store.registry.mappings
    test.store.registry.withoutDefaults.mappings
  found : ∀ reopened after, test.reopen = (.ok reopened, after) →
    reopened.types.map Prod.fst = test.store.registry.withoutDefaults.mappings

private theorem reopens (test : TestStore) (built : test.store.registry.Built) : test.Reopens := by
  obtain ⟨store, world, created, isNew, isOpen⟩ : ∃ store world, Store.create tablesDatabase config 1
      #[] { published := test.store.pool.world.world.published } = (.ok store, world) ∧
        store.registry = {} ∧ store.isOpen = true := ⟨_, _, rfl, rfl, rfl⟩
  have defined : (Store.define test.store.registry.definitions).run store
      = (.ok test.store.registry.withoutDefaults.mappings,
        { store with registry := test.store.registry.withoutDefaults }) := by
    rw [Store.run_define, if_pos isOpen, isNew, built.define_definitions]
  constructor
  case defines => exact ⟨store, world, created, isNew, defined⟩
  case same =>
    unfold Registry.withoutDefaults
    rw [List.forall₂_map_right_iff, List.forall₂_same]
    exact fun mapping _ => mapping.sameSchema_withoutDefaults
  case found =>
    intro reopened after ran
    unfold reopen at ran
    simp only [created] at ran
    obtain ⟨inspected, -⟩ := Prod.mk.inj ran
    exact types_inspect defined (Prod.ext inspected rfl)

/-- What is built of a specification is built again of its own specification, over the same known
entity types, and without its defaults. So a second store over the tables of any test store
defines the same tables, columns, relations and collections. -/
theorem reopen_rebuilds :
    (∀ entity spec isKnown mapping, Mapping.build entity spec isKnown = .ok mapping →
      Mapping.build mapping.entity mapping.specification isKnown = .ok mapping.withoutDefaults) ∧
    (∀ registry : Registry, registry.Built → ∀ mapping ∈ registry.mappings,
      Mapping.build mapping.entity mapping.specification registry.contains
        = .ok mapping.withoutDefaults) ∧
    (∀ batch test, ofDefinitions batch = .ok test → test.store.registry.Built) ∧
    ∀ test : TestStore, test.store.registry.Built → test.Reopens := by
  constructor
  · intro entity spec isKnown mapping built
    exact Mapping.build_specification built
  constructor
  · intro registry built mapping member
    obtain ⟨spec, builtOnce⟩ := built.build mapping member
    exact Mapping.build_specification builtOnce
  constructor
  · intro batch test opened
    exact built_ofDefinitions opened
  · intro test built
    exact test.reopens built

end TestStore

namespace Samples

def pack : List Definition := [("Dog", ({} : MappingSpec)
  |>.withTable "dogs"
  |>.withProperty "tame" (.detailed ((plain "boolean").withDefault (.boolean true)))
  |>.withProperty "leader" (.detailed (PropertyOptions.object "Dog"))
  |>.withProperty "led" (.detailed (PropertyOptions.collection "from Dog where leader = :id")))]

end Samples

namespace TestStore

set_option maxRecDepth 100000 in
/-- Dogs are tame by default in the first store only, and their table is there for both. -/
theorem reopen_rebuilds_pack : ∃ test, ofDefinitions Samples.pack = .ok test ∧
    test.store.registry.names = ["Dog"] ∧
    test.store.registry.withoutDefaults ≠ test.store.registry ∧
    (test.reopen).1.toOption.map Reopened.synced = some [] ∧ test.Reopens := by
  have facts : ∀ test ∈ (ofDefinitions Samples.pack).toOption,
      test.store.registry.names = ["Dog"] ∧
        test.store.registry.withoutDefaults ≠ test.store.registry ∧
        (test.reopen).1.toOption.map Reopened.synced = some [] := by
    decide +kernel
  obtain ⟨test, isOpened⟩ : ∃ test, (ofDefinitions Samples.pack).toOption = some test :=
    Option.isSome_iff_exists.mp (by decide +kernel)
  have opened := toOption_eq_some.mp isOpened
  obtain ⟨names, differ, synced⟩ := facts test isOpened
  obtain ⟨-, -, built, reopens⟩ := reopen_rebuilds
  exact ⟨test, opened, names, differ, synced, reopens test (built _ test opened)⟩

end TestStore

end EntityStore
