/-
Which specifications can be built. The checks of a mapping go through the properties one after
the other and stop at the first fault; here a specification is valid by rules on what is
written alone: no name is blank, no two properties share a name, no two columns differ in
letter case only, and the options of each property fit its kind. A mapping is built of the
valid specifications and of no others, and what it says follows from what was written and the
names that stand in for those left out.
-/

import EntityStore.Proofs.Mappings
import EntityStore.Proofs.Placeholders
import EntityStore.Proofs.Rows

set_option autoImplicit false

namespace EntityStore

/-! ### Properties -/

def Json.IsScalar : Json → Prop
  | .array _ | .object _ => False
  | _ => True

/-- The text can be cut into tokens, and one name stands in all of its named parameters. -/
def Token.SoleParameter (query placeholder : String) : Prop :=
  ∃ tokens, Token.ofText query = .ok tokens ∧
    ∀ name, (∃ token ∈ tokens, token.kind = .named name) ↔ name = placeholder

namespace PropertyOptions

inductive Fits (isKnown : String → Bool) (options : PropertyOptions) : Prop where
  | scalar {type : ScalarType} (named : Text.sameIgnoringCase type.name options.kind = true)
      (noEntity : options.entity = none) (noQuery : options.query = none)
      (plain : ∀ document ∈ options.default, document.IsScalar)
  | object {target : String} (isObject : options.kind = "object")
      (given : options.entity = some target) (known : isKnown target = true)
      (noQuery : options.query = none) (noDefault : options.default = none)
  | collection {query placeholder : String} (isCollection : options.kind = "collection")
      (given : options.query = some query) (sole : Token.SoleParameter query placeholder)
      (noEntity : options.entity = none) (noDefault : options.default = none)

def columnFor (options : PropertyOptions) (name : String) : String :=
  options.column.getD name

/-- Collections have no column, whatever is written about one. -/
def ownColumn? (options : PropertyOptions) (name : String) : Option String :=
  if options.kind = "collection" then none else some (options.columnFor name)

structure Valid (isKnown : String → Bool) (name : String) (options : PropertyOptions) :
    Prop where
  named : Text.isBlank name = false
  notReserved : name ≠ idProperty
  column : ∀ column ∈ options.column, Text.isBlank column = false
  fits : options.Fits isKnown

/-- The property of this name that the options stand for. One that nothing is said about may be
null, and its column has its name. -/
inductive StandsFor (name : String) (options : PropertyOptions) : Property → Prop where
  | scalar {type : ScalarType} (named : Text.sameIgnoringCase type.name options.kind = true) :
      StandsFor name options (.scalar ⟨name, type, options.columnFor name,
        options.nullable.getD true, options.length, options.default.bind Value.ofJson?⟩)
  | object {target : String} (isObject : options.kind = "object")
      (given : options.entity = some target) :
      StandsFor name options (.object ⟨name, options.columnFor name, target,
        options.nullable.getD true⟩)
  | collection {query placeholder : String} (isCollection : options.kind = "collection")
      (given : options.query = some query) (sole : Token.SoleParameter query placeholder) :
      StandsFor name options (.collection ⟨name, query, placeholder⟩)

end PropertyOptions

/-! ### Specifications -/

namespace MappingSpec

def idColumn (spec : MappingSpec) : String :=
  (spec.id.bind IdSpec.column).getD "id"

def propertyColumns (declared : List (String × PropertySpec)) : List String :=
  declared.filterMap fun property => property.2.options.ownColumn? property.1

def columns (spec : MappingSpec) : List String :=
  spec.idColumn :: propertyColumns spec.properties

structure Valid (spec : MappingSpec) (entity : String) (isKnown : String → Bool) : Prop where
  named : Text.isBlank entity = false
  table : ∀ table ∈ spec.table, Text.isBlank table = false
  schema : ∀ schema ∈ spec.schema, Text.isBlank schema = false
  idColumn : ∀ column ∈ spec.id.bind IdSpec.column, Text.isBlank column = false
  properties : ∀ property ∈ spec.properties, property.2.options.Valid isKnown property.1
  distinctNames : (spec.properties.map Prod.fst).Nodup
  distinctColumns : spec.columns.Pairwise fun first second =>
    Text.sameIgnoringCase first second = false

/-- The mapping says what the specification says, and the names that stand in for those left
out: the table has the name of the type, a blank sequence counts as none. -/
structure Describes (spec : MappingSpec) (entity : String) (mapping : Mapping) : Prop where
  named : mapping.entity = entity
  table : mapping.table = spec.table.getD entity
  schema : mapping.schema = spec.schema
  idColumn : mapping.id.column = spec.idColumn
  sequence : mapping.id.sequence
    = (spec.id.bind IdSpec.sequence).filter fun name => !Text.isBlank name
  properties : List.Forall₂ (fun declared property =>
    declared.2.options.StandsFor declared.1 property) spec.properties mapping.properties

end MappingSpec

/-! ### Kinds -/

theorem ScalarType.ofName?_eq_some {name : String} {type : ScalarType} :
    ofName? name = some type ↔ Text.sameIgnoringCase type.name name = true := by
  have isNamed : ∀ {other : ScalarType}, ofName? name = some other →
      Text.sameIgnoringCase other.name name = true := by
    intro other found
    unfold ofName? at found
    exact List.find?_some (p := fun scalar : ScalarType => Text.sameIgnoringCase scalar.name name)
      found
  constructor
  · exact isNamed
  · intro named
    have distinct : (all.map fun scalar => Text.lower scalar.name).Nodup := by decide
    have complete : ∀ scalar : ScalarType, scalar ∈ all := by
      intro scalar
      cases scalar <;> decide
    cases found : ofName? name with
    | none =>
        exact absurd named (List.find?_eq_none.mp found type (complete type))
    | some other =>
        have lowered : Text.lower other.name = Text.lower type.name :=
          (Text.sameIgnoringCase_iff.mp (isNamed found)).trans
            (Text.sameIgnoringCase_iff.mp named).symm
        exact congrArg some
          (List.inj_on_of_nodup_map distinct (complete other) (complete type) lowered)

theorem ScalarType.relation_ne_name {kind : String}
    (isRelation : kind = "object" ∨ kind = "collection") (type : ScalarType) :
    Text.sameIgnoringCase type.name kind = false := by
  rcases isRelation with rfl | rfl <;> cases type <;> decide

theorem Value.isSome_ofJson? {document : Json} :
    (Value.ofJson? document).isSome = true ↔ document.IsScalar := by
  unfold Value.ofJson?
  split
  all_goals try split
  all_goals simp [Json.IsScalar]

theorem Token.namedParameters_eq_singleton {query placeholder : String} :
    Token.namedParameters query = .ok [placeholder] ↔ Token.SoleParameter query placeholder := by
  have used : ∀ (tokens : List Token) (name : String),
      name ∈ Token.parameterNames tokens ↔ ∃ token ∈ tokens, token.kind = .named name := by
    intro tokens name
    unfold Token.parameterNames
    rw [List.mem_filterMap]
    refine exists_congr fun token => and_congr_right fun _ => ?_
    cases token.kind <;> simp
  have sole : ∀ tokens : List Token, Token.distinct (Token.parameterNames tokens) = [placeholder] ↔
      ∀ name, (∃ token ∈ tokens, token.kind = .named name) ↔ name = placeholder := by
    intro tokens
    have members : ∀ name, name ∈ Token.distinct (Token.parameterNames tokens) ↔
        ∃ token ∈ tokens, token.kind = .named name :=
      fun name => mem_distinct.trans (used tokens name)
    constructor
    · intro single name
      rw [← members, single, List.mem_singleton]
    · intro alone
      refine List.perm_singleton.mp ((List.perm_ext_iff_of_nodup
        (firstUses_distinct _).nodup (List.nodup_singleton _)).mpr fun name => ?_)
      rw [members, alone, List.mem_singleton]
  unfold Token.namedParameters Token.SoleParameter
  cases scanned : Token.ofText query with
  | error fault => simp
  | ok tokens => simpa using sole tokens

/-! ### Options by kind -/

namespace PropertyOptions

variable {isKnown : String → Bool} {name : String} {options : PropertyOptions}
  {property : Property}

theorem fits_object (isObject : options.kind = "object") :
    options.Fits isKnown ↔ ∃ target, options.entity = some target ∧ isKnown target = true ∧
      options.query = none ∧ options.default = none := by
  constructor
  · intro fits
    cases fits with
    | scalar named => rw [ScalarType.relation_ne_name (.inl isObject)] at named; cases named
    | object _ given known noQuery noDefault => exact ⟨_, given, known, noQuery, noDefault⟩
    | collection isCollection => exact absurd (isObject.symm.trans isCollection) (by decide)
  · rintro ⟨target, given, known, noQuery, noDefault⟩
    exact .object isObject given known noQuery noDefault

private theorem standsFor_object (isObject : options.kind = "object") :
    options.StandsFor name property ↔ ∃ target, options.entity = some target ∧
      .object ⟨name, options.columnFor name, target, options.nullable.getD true⟩ = property := by
  constructor
  · intro stands
    cases stands with
    | scalar named => rw [ScalarType.relation_ne_name (.inl isObject)] at named; cases named
    | object _ given => exact ⟨_, given, rfl⟩
    | collection isCollection => exact absurd (isObject.symm.trans isCollection) (by decide)
  · rintro ⟨target, given, rfl⟩
    exact .object isObject given

private theorem fits_collection (isCollection : options.kind = "collection") :
    options.Fits isKnown ↔ ∃ query placeholder, options.query = some query ∧
      Token.SoleParameter query placeholder ∧ options.entity = none ∧
      options.default = none := by
  constructor
  · intro fits
    cases fits with
    | scalar named =>
        rw [ScalarType.relation_ne_name (.inr isCollection)] at named
        cases named
    | object isObject => exact absurd (isObject.symm.trans isCollection) (by decide)
    | collection _ given sole noEntity noDefault => exact ⟨_, _, given, sole, noEntity, noDefault⟩
  · rintro ⟨query, placeholder, given, sole, noEntity, noDefault⟩
    exact .collection isCollection given sole noEntity noDefault

private theorem standsFor_collection (isCollection : options.kind = "collection") :
    options.StandsFor name property ↔ ∃ query placeholder, options.query = some query ∧
      Token.SoleParameter query placeholder ∧
      .collection ⟨name, query, placeholder⟩ = property := by
  constructor
  · intro stands
    cases stands with
    | scalar named =>
        rw [ScalarType.relation_ne_name (.inr isCollection)] at named
        cases named
    | object isObject => exact absurd (isObject.symm.trans isCollection) (by decide)
    | collection _ given sole => exact ⟨_, _, given, sole, rfl⟩
  · rintro ⟨query, placeholder, given, sole, rfl⟩
    exact .collection isCollection given sole

private theorem fits_scalar (notObject : options.kind ≠ "object")
    (notCollection : options.kind ≠ "collection") :
    options.Fits isKnown ↔ (ScalarType.ofName? options.kind).isSome = true ∧
      options.entity = none ∧ options.query = none ∧
      ∀ document ∈ options.default, document.IsScalar := by
  constructor
  · intro fits
    cases fits with
    | scalar named noEntity noQuery plain =>
        rw [ScalarType.ofName?_eq_some.mpr named]
        exact ⟨rfl, noEntity, noQuery, plain⟩
    | object isObject => exact absurd isObject notObject
    | collection isCollection => exact absurd isCollection notCollection
  · rintro ⟨isNamed, noEntity, noQuery, plain⟩
    obtain ⟨type, found⟩ := Option.isSome_iff_exists.mp isNamed
    exact .scalar (ScalarType.ofName?_eq_some.mp found) noEntity noQuery plain

private theorem standsFor_scalar (notObject : options.kind ≠ "object")
    (notCollection : options.kind ≠ "collection") :
    options.StandsFor name property ↔ ∃ type, ScalarType.ofName? options.kind = some type ∧
      .scalar ⟨name, type, options.columnFor name, options.nullable.getD true,
        options.length, options.default.bind Value.ofJson?⟩ = property := by
  constructor
  · intro stands
    cases stands with
    | scalar named => exact ⟨_, ScalarType.ofName?_eq_some.mpr named, rfl⟩
    | object isObject => exact absurd isObject notObject
    | collection isCollection => exact absurd isCollection notCollection
  · rintro ⟨type, found, rfl⟩
    exact .scalar (ScalarType.ofName?_eq_some.mp found)

/-- The column of the property that options stand for is the one that is counted for them. -/
theorem StandsFor.column? (stands : options.StandsFor name property) :
    property.column? = options.ownColumn? name := by
  unfold ownColumn?
  cases stands with
  | scalar named =>
      rw [if_neg]
      · rfl
      · intro isCollection
        rw [ScalarType.relation_ne_name (.inr isCollection)] at named
        cases named
  | object isObject => rw [if_neg (by rw [isObject]; decide)]; rfl
  | collection isCollection => rw [if_pos isCollection]; rfl

theorem Fits.exists_property (fits : options.Fits isKnown) (name : String) :
    ∃ property, options.StandsFor name property := by
  cases fits with
  | scalar named => exact ⟨_, .scalar named⟩
  | object isObject given => exact ⟨_, .object isObject given⟩
  | collection isCollection given sole => exact ⟨_, .collection isCollection given sole⟩

end PropertyOptions

/-! ### What is built of one property -/

namespace Mapping

variable {isKnown : String → Bool} {name : String} {options : PropertyOptions}
  {property : Property}

private theorem nameOr_eq_ok {given : Option String} {fallback what result : String} :
    nameOr given fallback what = .ok result ↔
      (∀ name ∈ given, Text.isBlank name = false) ∧ given.getD fallback = result := by
  unfold nameOr
  cases given with
  | none => simp
  | some name => cases blank : Text.isBlank name <;> simp [blank]

private theorem buildObject_eq_ok (isObject : options.kind = "object") :
    buildObject name (options.columnFor name) options isKnown = .ok property ↔
      options.Fits isKnown ∧ options.StandsFor name property := by
  rw [PropertyOptions.fits_object isObject, PropertyOptions.standsFor_object isObject]
  unfold buildObject
  cases options.query with
  | some query => simp
  | none =>
      cases options.default with
      | some document => simp
      | none =>
          cases options.entity with
          | none => simp
          | some target => cases known : isKnown target <;> simp [known]

private theorem buildCollection_eq_ok (isCollection : options.kind = "collection") :
    buildCollection name options = .ok property ↔
      options.Fits isKnown ∧ options.StandsFor name property := by
  rw [PropertyOptions.fits_collection isCollection,
    PropertyOptions.standsFor_collection isCollection]
  simp only [← Token.namedParameters_eq_singleton]
  unfold buildCollection
  cases options.entity with
  | some target => simp
  | none =>
      cases options.default with
      | some document => simp
      | none =>
          cases options.query with
          | none => simp
          | some query =>
              cases named : Token.namedParameters query with
              | error fault => simp [named]
              | ok names =>
                  match names with
                  | [] | _ :: _ :: _ => simp [named]
                  | [placeholder] => simp [named]

private theorem buildScalar_eq_ok (notObject : options.kind ≠ "object")
    (notCollection : options.kind ≠ "collection") :
    buildScalar name (options.columnFor name) options = .ok property ↔
      options.Fits isKnown ∧ options.StandsFor name property := by
  rw [PropertyOptions.fits_scalar notObject notCollection,
    PropertyOptions.standsFor_scalar notObject notCollection]
  simp only [← Value.isSome_ofJson?]
  unfold buildScalar
  cases ScalarType.ofName? options.kind with
  | none => simp
  | some type =>
      cases options.entity with
      | some target => simp
      | none =>
          cases options.query with
          | some query => simp
          | none =>
              cases options.default with
              | none => simp
              | some document =>
                  cases value : Value.ofJson? document <;> simp [value]

private theorem buildProperty_eq_ok : buildProperty name options isKnown = .ok property ↔
    (∀ column ∈ options.column, Text.isBlank column = false) ∧ options.Fits isKnown ∧
      options.StandsFor name property := by
  unfold buildProperty
  by_cases named : ∀ column ∈ options.column, Text.isBlank column = false
  · rw [nameOr_eq_ok.mpr ⟨named, rfl⟩]
    simp only [and_iff_right named]
    split
    · rename_i isObject
      exact buildObject_eq_ok isObject
    split
    · rename_i isCollection
      exact buildCollection_eq_ok isCollection
    · rename_i notObject notCollection
      exact buildScalar_eq_ok notObject notCollection
  · simp only [named, false_and, iff_false]
    split
    · exact fun built => nomatch built
    · rename_i column given
      exact absurd (nameOr_eq_ok.mp given).1 named

/-- A property is accepted when what is written about it is valid, and its name and its column
are new. -/
theorem accept_eq_ok {taken columns : List String} :
    accept name options isKnown taken columns = .ok property ↔
      (options.Valid isKnown name ∧ name ∉ taken ∧
        ∀ column ∈ options.ownColumn? name, Text.lower column ∉ columns) ∧
      options.StandsFor name property := by
  constructor
  · intro accepted
    obtain ⟨_, isNew, unused⟩ := accept_ok accepted
    unfold accept at accepted
    split at accepted
    · cases accepted
    rename_i named
    split at accepted
    · cases accepted
    rename_i notReserved
    split at accepted
    · cases accepted
    split at accepted
    · cases accepted
    rename_i built fromOptions
    have same : built = property := by
      repeat' split at accepted
      all_goals first
        | exact Except.ok.inj accepted
        | cases accepted
    subst same
    obtain ⟨columnNamed, fits, stands⟩ := buildProperty_eq_ok.mp fromOptions
    refine ⟨⟨⟨by simpa using named, notReserved, columnNamed, fits⟩, isNew, ?_⟩, stands⟩
    rw [← stands.column?]
    exact unused
  · rintro ⟨⟨valid, isNew, unused⟩, stands⟩
    have built := buildProperty_eq_ok.mpr ⟨valid.column, valid.fits, stands⟩
    rw [← stands.column?] at unused
    unfold accept
    rw [if_neg (by simp [valid.named]), if_neg valid.notReserved, if_neg (by simpa using isNew),
      built]
    cases column : property.column? with
    | none => simp [column]
    | some content => simp [column, unused content column]

/-! ### Lists of properties -/

structure Takes (isKnown : String → Bool) (declared : List (String × PropertySpec))
    (taken columns : List String) : Prop where
  valid : ∀ property ∈ declared, property.2.options.Valid isKnown property.1
  distinctNames : (declared.map Prod.fst).Nodup
  newNames : ∀ name ∈ declared.map Prod.fst, name ∉ taken
  distinctColumns : ((MappingSpec.propertyColumns declared).map Text.lower).Nodup
  newColumns : ∀ column ∈ MappingSpec.propertyColumns declared, Text.lower column ∉ columns

private theorem takes_nil {taken columns : List String} : Takes isKnown [] taken columns :=
  ⟨by simp, List.nodup_nil, by simp, List.nodup_nil, by simp [MappingSpec.propertyColumns]⟩

private theorem takes_cons {spec : PropertySpec} {rest : List (String × PropertySpec)}
    {taken columns : List String} :
    Takes isKnown ((name, spec) :: rest) taken columns ↔
      (spec.options.Valid isKnown name ∧ name ∉ taken ∧
        ∀ column ∈ spec.options.ownColumn? name, Text.lower column ∉ columns) ∧
      Takes isKnown rest (name :: taken)
        (((spec.options.ownColumn? name).map Text.lower).toList ++ columns) := by
  have split : MappingSpec.propertyColumns ((name, spec) :: rest)
      = (spec.options.ownColumn? name).toList ++ MappingSpec.propertyColumns rest := by
    unfold MappingSpec.propertyColumns
    cases own : spec.options.ownColumn? name with
    | none => exact List.filterMap_cons_none own
    | some column => exact List.filterMap_cons_some own
  constructor
  · rintro ⟨valid, distinctNames, newNames, distinctColumns, newColumns⟩
    rw [split, List.map_append, List.nodup_append] at distinctColumns
    rw [split] at newColumns
    obtain ⟨-, laterColumns, apart⟩ := distinctColumns
    rw [List.map_cons, List.nodup_cons] at distinctNames
    refine ⟨⟨valid (name, spec) List.mem_cons_self, newNames name List.mem_cons_self, ?_⟩,
      fun property member => valid property (List.mem_cons_of_mem _ member), distinctNames.2, ?_,
      laterColumns, ?_⟩
    · exact fun column own => newColumns column (List.mem_append_left _ (by simpa using own))
    · intro other member used
      rcases List.mem_cons.mp used with rfl | isTaken
      · exact distinctNames.1 member
      · exact newNames other (List.mem_cons_of_mem _ member) isTaken
    · intro column member used
      rcases List.mem_append.mp used with isOwn | isUsed
      · exact apart _ (by simpa using isOwn) _ (List.mem_map_of_mem member) rfl
      · exact newColumns column (List.mem_append_right _ member) isUsed
  · rintro ⟨⟨valid, isNew, unused⟩, later⟩
    refine ⟨?_, List.nodup_cons.mpr ⟨?_, later.distinctNames⟩, ?_, ?_, ?_⟩
    · intro property member
      rcases List.mem_cons.mp member with rfl | isLater
      · exact valid
      · exact later.valid property isLater
    · exact fun member => later.newNames name member List.mem_cons_self
    · intro other member
      rcases List.mem_cons.mp member with rfl | isLater
      · exact isNew
      · exact fun isTaken => later.newNames other isLater (List.mem_cons_of_mem _ isTaken)
    · rw [split, List.map_append, List.nodup_append]
      refine ⟨?_, later.distinctColumns, ?_⟩
      · cases spec.options.ownColumn? name <;> simp
      · rintro first isFirst second isSecond rfl
        obtain ⟨column, member, lowered⟩ := List.mem_map.mp isSecond
        refine later.newColumns column member (List.mem_append_left _ ?_)
        rw [lowered]
        simpa using isFirst
    · intro column member used
      rw [split] at member
      rcases List.mem_append.mp member with isOwn | isLater
      · exact unused column (by simpa using isOwn) used
      · exact later.newColumns column isLater (List.mem_append_right _ used)

/-- The loop over the properties goes through exactly when they can be taken, and then each has
become the one that its options stand for. -/
theorem buildProperties_eq_ok {declared : List (String × PropertySpec)}
    {taken columns : List String} {properties : List Property} :
    buildProperties isKnown declared taken columns = .ok properties ↔
      Takes isKnown declared taken columns ∧
      List.Forall₂ (fun declared property => declared.2.options.StandsFor declared.1 property)
        declared properties := by
  induction declared generalizing taken columns properties with
  | nil =>
      constructor
      · rintro ⟨⟩
        exact ⟨takes_nil, .nil⟩
      · rintro ⟨-, ⟨⟩⟩
        rfl
  | cons first rest ih =>
      obtain ⟨name, spec⟩ := first
      constructor
      · intro built
        obtain ⟨property, later, accepted, builtLater, rfl⟩ := buildProperties_cons built
        obtain ⟨isNew, stands⟩ := accept_eq_ok.mp accepted
        rw [stands.column?] at builtLater
        obtain ⟨takes, others⟩ := ih.mp builtLater
        exact ⟨takes_cons.mpr ⟨isNew, takes⟩, .cons stands others⟩
      · rintro ⟨takes, stands⟩
        cases stands with
        | @cons _ property _ later stands others =>
            obtain ⟨isNew, takesLater⟩ := takes_cons.mp takes
            have accepted := accept_eq_ok.mpr ⟨isNew, stands⟩
            have builtLater := ih.mpr ⟨takesLater, others⟩
            unfold buildProperties
            rw [accepted]
            rw [← stands.column?] at builtLater
            cases column : property.column? with
            | none =>
                simp only [column, Option.map_none, Option.toList_none, List.nil_append]
                  at builtLater
                simp [column, builtLater]
            | some content =>
                simp only [column, Option.map_some, Option.toList_some, List.singleton_append]
                  at builtLater
                simp [column, builtLater]

/-! ### The specification as a whole -/

private theorem checkSchema_eq_ok {given result : Option String} :
    checkSchema given = .ok result ↔
      (∀ schema ∈ given, Text.isBlank schema = false) ∧ given = result := by
  unfold checkSchema
  cases given with
  | none => simp
  | some schema => cases blank : Text.isBlank schema <;> simp [blank]

private theorem buildId_eq_ok {spec : Option IdSpec} {id : IdMapping} :
    buildId (spec.getD {}) = .ok id ↔
      (∀ column ∈ spec.bind IdSpec.column, Text.isBlank column = false) ∧
      (⟨(spec.bind IdSpec.column).getD "id",
        (spec.bind IdSpec.sequence).filter fun name => !Text.isBlank name⟩ : IdMapping) = id := by
  have written : (spec.getD {}).column = spec.bind IdSpec.column ∧
      (spec.getD {}).sequence = spec.bind IdSpec.sequence := by
    cases spec <;> exact ⟨rfl, rfl⟩
  unfold buildId
  rw [written.1, written.2]
  by_cases named : ∀ column ∈ spec.bind IdSpec.column, Text.isBlank column = false
  · rw [nameOr_eq_ok.mpr ⟨named, rfl⟩]
    simp only [and_iff_right named, Except.ok.injEq]
  · simp only [named, false_and, iff_false]
    split
    · exact fun built => nomatch built
    · rename_i column given
      exact absurd (nameOr_eq_ok.mp given).1 named

/-- Beside the column of the primary key, the properties can be taken exactly when each is
valid, their names differ, and all columns differ beyond letter case. -/
theorem takes_iff {spec : MappingSpec} :
    Takes isKnown spec.properties [] [Text.lower spec.idColumn] ↔
      (∀ property ∈ spec.properties, property.2.options.Valid isKnown property.1) ∧
      (spec.properties.map Prod.fst).Nodup ∧
      spec.columns.Pairwise fun first second => Text.sameIgnoringCase first second = false := by
  have apart : (spec.columns.Pairwise fun first second =>
      Text.sameIgnoringCase first second = false) ↔ (spec.columns.map Text.lower).Nodup := by
    rw [List.Nodup, List.pairwise_map]
    refine List.Pairwise.iff fun first second => ?_
    rw [← Bool.not_eq_true, Text.sameIgnoringCase_iff]
  rw [apart, MappingSpec.columns, List.map_cons, List.nodup_cons]
  constructor
  · rintro ⟨valid, distinctNames, -, distinctColumns, newColumns⟩
    refine ⟨valid, distinctNames, fun member => ?_, distinctColumns⟩
    obtain ⟨column, isColumn, same⟩ := List.mem_map.mp member
    exact newColumns column isColumn (same ▸ List.mem_singleton_self _)
  · rintro ⟨valid, distinctNames, notId, distinctColumns⟩
    refine ⟨valid, distinctNames, by simp, distinctColumns, fun column isColumn isId => ?_⟩
    exact notId (List.mem_singleton.mp isId ▸ List.mem_map_of_mem isColumn)

/-- Every valid specification describes a mapping. -/
theorem exists_mapping {entity : String} {spec : MappingSpec}
    (valid : spec.Valid entity isKnown) : ∃ mapping, spec.Describes entity mapping := by
  have stand : ∀ declared : List (String × PropertySpec),
      (∀ property ∈ declared, property.2.options.Valid isKnown property.1) →
      ∃ properties, List.Forall₂ (fun declared property =>
        declared.2.options.StandsFor declared.1 property) declared properties := by
    intro declared allValid
    induction declared with
    | nil => exact ⟨[], .nil⟩
    | cons first rest ih =>
        obtain ⟨property, stands⟩ :=
          (allValid first List.mem_cons_self).fits.exists_property first.1
        obtain ⟨properties, others⟩ :=
          ih fun other member => allValid other (List.mem_cons_of_mem first member)
        exact ⟨property :: properties, .cons stands others⟩
  obtain ⟨properties, stands⟩ := stand spec.properties valid.properties
  exact ⟨⟨entity, spec.table.getD entity, spec.schema, ⟨spec.idColumn, _⟩, properties⟩,
    ⟨rfl, rfl, rfl, rfl, rfl, stands⟩⟩

/-- What is built of a specification: nothing unless it is valid, and else the mapping that it
describes. -/
theorem build_eq_ok {entity : String} {spec : MappingSpec} {mapping : Mapping} :
    build entity spec isKnown = .ok mapping ↔
      spec.Valid entity isKnown ∧ spec.Describes entity mapping := by
  constructor
  · intro built
    unfold build at built
    simp only [bind, Except.bind, pure, Except.pure] at built
    split at built
    · cases built
    rename_i named
    split at built
    · cases built
    rename_i table givenTable
    split at built
    · cases built
    rename_i schema givenSchema
    split at built
    · cases built
    rename_i id givenId
    split at built
    · cases built
    rename_i properties givenProperties
    cases built
    obtain ⟨tableNamed, rfl⟩ := nameOr_eq_ok.mp givenTable
    obtain ⟨schemaNamed, rfl⟩ := checkSchema_eq_ok.mp givenSchema
    obtain ⟨idNamed, rfl⟩ := buildId_eq_ok.mp givenId
    obtain ⟨takes, stand⟩ := buildProperties_eq_ok.mp givenProperties
    obtain ⟨valid, distinctNames, distinctColumns⟩ := takes_iff.mp takes
    exact ⟨⟨by simpa using named, tableNamed, schemaNamed, idNamed, valid, distinctNames,
      distinctColumns⟩, ⟨rfl, rfl, rfl, rfl, rfl, stand⟩⟩
  · rintro ⟨valid, describes⟩
    obtain ⟨name, table, schema, ⟨column, sequence⟩, properties⟩ := mapping
    obtain ⟨sameName, sameTable, sameSchema, sameColumn, sameSequence, stand⟩ := describes
    dsimp only at sameName sameTable sameSchema sameColumn sameSequence stand
    subst sameName sameTable sameSchema sameColumn sameSequence
    have takes := takes_iff.mpr ⟨valid.properties, valid.distinctNames, valid.distinctColumns⟩
    unfold build
    rw [if_neg (by simp [valid.named]), nameOr_eq_ok.mpr ⟨valid.table, rfl⟩,
      checkSchema_eq_ok.mpr ⟨valid.schema, rfl⟩, buildId_eq_ok.mpr ⟨valid.idColumn, rfl⟩]
    simp only [bind, Except.bind, pure, Except.pure]
    have built := buildProperties_eq_ok.mpr ⟨takes, stand⟩
    unfold MappingSpec.idColumn at built
    rw [built]
    rfl

/-- A mapping is built of exactly the valid specifications, for any name of the type, any
properties and any known entity types, and it is the one that the specification describes. -/
theorem build_exactly_valid (entity : String) (spec : MappingSpec)
    (isKnown : String → Bool) :
    ((∃ mapping, build entity spec isKnown = .ok mapping) ↔ spec.Valid entity isKnown) ∧
      ∀ mapping, build entity spec isKnown = .ok mapping ↔
        spec.Valid entity isKnown ∧ spec.Describes entity mapping := by
  refine ⟨⟨fun ⟨mapping, built⟩ => (build_eq_ok.mp built).1, fun valid => ?_⟩,
    fun mapping => build_eq_ok⟩
  obtain ⟨mapping, describes⟩ := exists_mapping valid
  exact ⟨mapping, build_eq_ok.mpr ⟨valid, describes⟩⟩

end Mapping

end EntityStore
