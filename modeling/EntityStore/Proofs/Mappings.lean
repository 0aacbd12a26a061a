/-
What the checks of definitions guarantee. A mapping that was built has columns that
differ even when letter case is ignored, and property names that differ; a registry
holds such mappings under different names, and keeps those that it has.
-/

import EntityStore.Registry
import Mathlib.Data.List.Nodup

set_option autoImplicit false

namespace EntityStore

/-- What changes the errors of an outcome leaves its results. -/
theorem mapError_eq_ok {ε ε' α : Type} {outcome : Except ε α} {change : ε → ε'} {result : α} :
    outcome.mapError change = .ok result ↔ outcome = .ok result := by
  cases outcome <;> simp [Except.mapError]

namespace Mapping

/-- Columns, the one of the primary key included, differ beyond letter case, and
properties differ by name. -/
structure WellFormed (mapping : Mapping) : Prop where
  distinctColumns : (mapping.columns.map Text.lower).Nodup
  distinctNames : (mapping.properties.map Property.name).Nodup

/-! ### Building -/

private theorem name_of_buildProperty {name : String} {options : PropertyOptions}
    {isKnown : String → Bool} {property : Property}
    (built : buildProperty name options isKnown = .ok property) : property.name = name := by
  unfold buildProperty buildObject buildCollection buildScalar at built
  repeat' split at built
  all_goals first
    | cases built; rfl
    | cases built

/-- An accepted property has the name it was given, which was not taken, and a column
that was not used. -/
theorem accept_ok {name : String} {options : PropertyOptions} {isKnown : String → Bool}
    {taken columns : List String} {property : Property}
    (accepted : accept name options isKnown taken columns = .ok property) :
    property.name = name ∧ name ∉ taken ∧
      ∀ column, property.column? = some column → Text.lower column ∉ columns := by
  unfold accept at accepted
  split at accepted
  · cases accepted
  split at accepted
  · cases accepted
  split at accepted
  · cases accepted
  rename_i free
  split at accepted
  · cases accepted
  rename_i built fromOptions
  have named := name_of_buildProperty fromOptions
  have notTaken : name ∉ taken := by simpa using free
  split at accepted
  · rename_i none'
    cases accepted
    exact ⟨named, notTaken, fun column some' => by rw [none'] at some'; cases some'⟩
  · rename_i column some'
    split at accepted
    · cases accepted
    · rename_i unused
      cases accepted
      refine ⟨named, notTaken, fun other some'' => ?_⟩
      rw [some'] at some''
      cases some''
      simpa using unused

/-- The first property was accepted, and the others were built after it. -/
theorem buildProperties_cons {isKnown : String → Bool} {name : String} {spec : PropertySpec}
    {rest : List (String × PropertySpec)} {taken columns : List String}
    {properties : List Property}
    (built : buildProperties isKnown ((name, spec) :: rest) taken columns = .ok properties) :
    ∃ property later, accept name spec.options isKnown taken columns = .ok property ∧
      buildProperties isKnown rest (name :: taken)
        ((property.column?.map Text.lower).toList ++ columns) = .ok later ∧
      properties = property :: later := by
  unfold buildProperties at built
  split at built
  · cases built
  rename_i property accepted
  cases column : property.column? with
  | none =>
      simp only [column] at built
      split at built
      · cases built
      rename_i later builtLater
      cases built
      exact ⟨property, later, accepted, by simpa [column] using builtLater, rfl⟩
  | some content =>
      simp only [column] at built
      split at built
      · cases built
      rename_i later builtLater
      cases built
      exact ⟨property, later, accepted, by simpa [column] using builtLater, rfl⟩

/-- Properties that were built differ by name and by lower-cased column, from each other
and from what was used before them. -/
theorem buildProperties_distinct {isKnown : String → Bool}
    {specs : List (String × PropertySpec)} {taken columns : List String}
    {properties : List Property}
    (built : buildProperties isKnown specs taken columns = .ok properties) :
    (properties.map Property.name).Nodup ∧
      (∀ property ∈ properties, property.name ∉ taken) ∧
      ((properties.filterMap Property.column?).map Text.lower).Nodup ∧
      ∀ column ∈ properties.filterMap Property.column?, Text.lower column ∉ columns := by
  induction specs generalizing taken columns properties with
  | nil =>
      cases built
      simp
  | cons spec rest ih =>
      obtain ⟨name, content⟩ := spec
      obtain ⟨property, later, accepted, builtLater, rfl⟩ := buildProperties_cons built
      obtain ⟨rfl, notTaken, unused⟩ := accept_ok accepted
      obtain ⟨names, namesApart, lowered, columnsApart⟩ := ih builtLater
      refine ⟨?_, ?_, ?_, ?_⟩
      · rw [List.map_cons, List.nodup_cons]
        refine ⟨?_, names⟩
        intro member
        obtain ⟨other, otherMember, same⟩ := List.mem_map.mp member
        exact namesApart other otherMember (same ▸ List.mem_cons_self)
      · intro other member
        rcases List.mem_cons.mp member with rfl | isLater
        · exact notTaken
        · exact fun inTaken =>
            namesApart other isLater (List.mem_cons_of_mem property.name inTaken)
      · cases column : property.column? with
        | none =>
            rw [List.filterMap_cons_none column]
            exact lowered
        | some content =>
            rw [List.filterMap_cons_some column, List.map_cons, List.nodup_cons]
            refine ⟨?_, lowered⟩
            intro member
            obtain ⟨other, otherMember, same⟩ := List.mem_map.mp member
            apply columnsApart other otherMember
            simp [column, same]
      · intro column member used
        rw [← List.singleton_append, List.filterMap_append] at member
        rcases List.mem_append.mp member with isFirst | isLater
        · exact unused column (by simpa using isFirst) used
        · exact columnsApart column isLater (List.mem_append_right _ used)

/-- A built mapping has the name of its type and the properties that were built. -/
theorem build_parts {entity : String} {spec : MappingSpec} {isKnown : String → Bool}
    {mapping : Mapping} (built : build entity spec isKnown = .ok mapping) :
    mapping.entity = entity ∧
      buildProperties isKnown spec.properties [] [Text.lower mapping.id.column]
        = .ok mapping.properties := by
  unfold build at built
  simp only [bind, Except.bind, pure, Except.pure] at built
  split at built
  · cases built
  split at built
  · cases built
  split at built
  · cases built
  split at built
  · cases built
  split at built
  · cases built
  rename_i builtProperties
  cases built
  exact ⟨rfl, builtProperties⟩

theorem build_ok {entity : String} {spec : MappingSpec} {isKnown : String → Bool}
    {mapping : Mapping} (built : build entity spec isKnown = .ok mapping) :
    mapping.entity = entity ∧ mapping.WellFormed := by
  obtain ⟨named, builtProperties⟩ := build_parts built
  obtain ⟨names, _, lowered, apart⟩ := buildProperties_distinct builtProperties
  refine ⟨named, ⟨?_, names⟩⟩
  unfold columns
  rw [List.map_cons, List.nodup_cons]
  refine ⟨?_, lowered⟩
  intro member
  obtain ⟨column, columnMember, same⟩ := List.mem_map.mp member
  exact apart column columnMember (same ▸ List.mem_cons_self)

private theorem name_ne_of_accept {name : String} {options : PropertyOptions}
    {isKnown : String → Bool} {taken columns : List String} {property : Property}
    (accepted : accept name options isKnown taken columns = .ok property) :
    property.name ≠ idProperty := by
  rw [(accept_ok accepted).1]
  rintro rfl
  unfold accept at accepted
  split at accepted
  · cases accepted
  · rw [if_pos rfl] at accepted
    cases accepted

theorem name_ne_of_buildProperties {isKnown : String → Bool}
    {specs : List (String × PropertySpec)} {taken columns : List String}
    {properties : List Property}
    (built : buildProperties isKnown specs taken columns = .ok properties) :
    ∀ property ∈ properties, property.name ≠ idProperty := by
  induction specs generalizing taken columns properties with
  | nil =>
      cases built
      exact fun _ impossible => nomatch impossible
  | cons spec rest ih =>
      obtain ⟨property, later, accepted, builtLater, rfl⟩ := buildProperties_cons built
      intro other member
      rcases List.mem_cons.mp member with rfl | isLater
      · exact name_ne_of_accept accepted
      · exact ih builtLater other isLater

theorem buildAll_cons {isKnown : String → Bool} {definition : Definition} {rest : List Definition}
    {mappings : List Mapping} (built : buildAll isKnown (definition :: rest) = .ok mappings) :
    ∃ mapping later, build definition.1 definition.2 isKnown = .ok mapping ∧
      buildAll isKnown rest = .ok later ∧ mappings = mapping :: later := by
  unfold buildAll at built
  simp only [bind, Except.bind, pure, Except.pure] at built
  split at built
  · cases built
  rename_i mapping first
  split at built
  · cases built
  rename_i later builtLater
  cases built
  exact ⟨mapping, later, mapError_eq_ok.mp first, builtLater, rfl⟩

theorem mem_buildAll {isKnown : String → Bool} {batch : List Definition}
    {mappings : List Mapping} (built : buildAll isKnown batch = .ok mappings) {mapping : Mapping}
    (member : mapping ∈ mappings) :
    ∃ definition ∈ batch, build definition.1 definition.2 isKnown = .ok mapping := by
  induction batch generalizing mappings with
  | nil =>
      cases built
      cases member
  | cons definition rest ih =>
      obtain ⟨first, later, builtFirst, builtLater, rfl⟩ := buildAll_cons built
      rcases List.mem_cons.mp member with rfl | isLater
      · exact ⟨definition, List.mem_cons_self, builtFirst⟩
      · obtain ⟨other, isOther, builtOther⟩ := ih builtLater isLater
        exact ⟨other, List.mem_cons_of_mem definition isOther, builtOther⟩

theorem entity_buildAll {isKnown : String → Bool} {batch : List Definition}
    {mappings : List Mapping} (built : buildAll isKnown batch = .ok mappings) :
    mappings.map entity = batch.map Prod.fst := by
  induction batch generalizing mappings with
  | nil =>
      cases built
      rfl
  | cons definition rest ih =>
      obtain ⟨first, later, builtFirst, builtLater, rfl⟩ := buildAll_cons built
      rw [List.map_cons, List.map_cons, (build_ok builtFirst).1, ih builtLater]

end Mapping

namespace Registry

structure WellFormed (registry : Registry) : Prop where
  distinctNames : registry.names.Nodup
  mappings : ∀ mapping ∈ registry.mappings, mapping.WellFormed

theorem wellFormed_empty : WellFormed {} :=
  ⟨List.nodup_nil, fun _ member => by cases member⟩

theorem mem_of_mapping? {registry : Registry} {entity : String} {mapping : Mapping}
    (found : registry.mapping? entity = some mapping) :
    mapping ∈ registry.mappings ∧ mapping.entity = entity :=
  ⟨List.mem_of_find?_eq_some found, by simpa using List.find?_some found⟩

/-- A name means one mapping. -/
theorem WellFormed.unique {registry : Registry} (wellFormed : registry.WellFormed)
    {first second : Mapping} (firstMember : first ∈ registry.mappings)
    (secondMember : second ∈ registry.mappings) (same : first.entity = second.entity) :
    first = second :=
  List.inj_on_of_nodup_map wellFormed.distinctNames firstMember secondMember same

theorem WellFormed.mapping?_of_mem {registry : Registry} (wellFormed : registry.WellFormed)
    {mapping : Mapping} (member : mapping ∈ registry.mappings) :
    registry.mapping? mapping.entity = some mapping := by
  cases found : registry.mapping? mapping.entity with
  | none =>
      have missing := List.find?_eq_none.mp found mapping member
      exact absurd (beq_iff_eq.mpr rfl) missing
  | some other =>
      obtain ⟨isMember, isNamed⟩ := mem_of_mapping? found
      exact congrArg some (wellFormed.unique isMember member isNamed)

/-- A name that is known in a registry is known in a larger one. -/
theorem WellFormed.mapping?_of_subset {registry larger : Registry}
    (wellFormed : larger.WellFormed)
    (grown : ∀ mapping ∈ registry.mappings, mapping ∈ larger.mappings) {name : String}
    {mapping : Mapping} (found : registry.mapping? name = some mapping) :
    larger.mapping? name = some mapping := by
  obtain ⟨member, named⟩ := mem_of_mapping? found
  rw [← named]
  exact wellFormed.mapping?_of_mem (grown mapping member)

theorem repeated?_eq_none {taken names : List String} (fresh : repeated? taken names = none) :
    names.Nodup ∧ ∀ name ∈ names, name ∉ taken := by
  induction names generalizing taken with
  | nil => simp
  | cons name rest ih =>
      unfold repeated? at fresh
      split at fresh
      · cases fresh
      rename_i free
      obtain ⟨distinct, apart⟩ := ih fresh
      refine ⟨List.nodup_cons.mpr ⟨fun member => apart name member List.mem_cons_self, distinct⟩, ?_⟩
      intro other member
      rcases List.mem_cons.mp member with rfl | isLater
      · simpa using free
      · exact fun inTaken => apart other isLater (List.mem_cons_of_mem name inTaken)

theorem repeated?_of_nodup {taken names : List String} (distinct : names.Nodup)
    (apart : ∀ name ∈ names, name ∉ taken) : repeated? taken names = none := by
  induction names generalizing taken with
  | nil => rfl
  | cons name rest ih =>
      obtain ⟨isNew, distinctRest⟩ := List.nodup_cons.mp distinct
      unfold repeated?
      rw [if_neg (by simpa using apart name List.mem_cons_self)]
      apply ih distinctRest
      intro other member isTaken
      rcases List.mem_cons.mp isTaken with rfl | isTaken
      · exact isNew member
      · exact apart other (List.mem_cons_of_mem name member) isTaken

structure Defines (registry : Registry) (batch : List Definition) (mappings : List Mapping)
    (extended : Registry) : Prop where
  fresh : repeated? registry.names (batch.map Prod.fst) = none
  built : Mapping.buildAll (fun target => registry.contains target ||
    (batch.map Prod.fst).contains target) batch = .ok mappings
  checked : Mapping.checkCollections extended.mapping? mappings = .ok ()
  extended : extended.mappings = registry.mappings ++ mappings

theorem define_ok {registry extended : Registry} {batch : List Definition}
    {mappings : List Mapping} (defined : registry.define batch = .ok (mappings, extended)) :
    registry.Defines batch mappings extended := by
  unfold define at defined
  simp only [bind, Except.bind, pure, Except.pure] at defined
  split at defined
  · cases defined
  rename_i fresh
  split at defined
  · cases defined
  rename_i built allBuilt
  split at defined
  · cases defined
  rename_i checked
  cases defined
  exact ⟨fresh, allBuilt, checked, rfl⟩

/-- A batch is defined exactly when nothing stands against it. -/
theorem define_eq_ok {registry extended : Registry} {batch : List Definition}
    {mappings : List Mapping} :
    registry.define batch = .ok (mappings, extended) ↔
      registry.Defines batch mappings extended := by
  constructor
  · exact define_ok
  · rintro ⟨fresh, built, checked, same⟩
    have isExtended : registry.append mappings = extended := by
      cases extended
      exact congrArg Registry.mk same.symm
    unfold define
    simp only [fresh, built, isExtended, checked, bind, Except.bind, pure, Except.pure]

namespace Defines

variable {registry extended : Registry} {batch : List Definition} {mappings : List Mapping}

theorem kept (defines : registry.Defines batch mappings extended) {mapping : Mapping}
    (member : mapping ∈ registry.mappings) : mapping ∈ extended.mappings := by
  rw [defines.extended]
  exact List.mem_append_left mappings member

theorem wellFormed (defines : registry.Defines batch mappings extended)
    (wellFormed : registry.WellFormed) : extended.WellFormed := by
  obtain ⟨distinct, apart⟩ := repeated?_eq_none defines.fresh
  refine ⟨?_, fun mapping member => ?_⟩
  · unfold names
    rw [defines.extended, List.map_append, Mapping.entity_buildAll defines.built,
      List.nodup_append]
    refine ⟨wellFormed.distinctNames, distinct, ?_⟩
    intro name old other new same
    exact apart other new (same ▸ old)
  · rw [defines.extended] at member
    rcases List.mem_append.mp member with isOld | isNew
    · exact wellFormed.mappings mapping isOld
    · obtain ⟨_, _, built⟩ := Mapping.mem_buildAll defines.built isNew
      exact (Mapping.build_ok built).2

end Defines

end Registry

end EntityStore
