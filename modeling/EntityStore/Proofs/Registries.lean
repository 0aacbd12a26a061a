/-
The registry of a store. A batch of definitions is taken as a whole, in its order, or not at
all. So whatever has been defined, the names differ, relations refer to defined types, and
the queries of collections can be read and leave their placeholder open alone. What has been
defined stays as it is, and the text of a query means what it meant.
-/

import EntityStore.Proofs.Binding
import EntityStore.Proofs.InverseQueries
import EntityStore.Proofs.References
import EntityStore.Proofs.Runs
import EntityStore.Proofs.Steps

set_option autoImplicit false

namespace EntityStore

namespace Mapping

/-! ### Built relations -/

theorem mem_collectionRelations {mapping : Mapping} {relation : CollectionRelation} :
    relation ∈ mapping.collectionRelations ↔ .collection relation ∈ mapping.properties := by
  unfold collectionRelations
  rw [List.mem_filterMap]
  constructor
  · rintro ⟨property, member, selected⟩
    cases property with
    | collection other => exact Option.some.inj selected ▸ member
    | scalar _ | object _ => cases selected
  · exact fun member => ⟨_, member, rfl⟩

/-- What the check of a property sees to: a relation is to a known entity type, and the query
of a collection has one name for parameters, which is the placeholder. -/
def Checked (isKnown : String → Bool) : Property → Prop
  | .scalar _ => True
  | .object relation => isKnown relation.target = true
  | .collection relation => Token.namedParameters relation.query = .ok [relation.placeholder]

private theorem checked_of_buildProperty {name : String} {options : PropertyOptions}
    {isKnown : String → Bool} {property : Property}
    (built : buildProperty name options isKnown = .ok property) : Checked isKnown property := by
  unfold buildProperty at built
  split at built
  · cases built
  rename_i column _
  split at built
  · unfold buildObject at built
    split at built
    · cases built
    split at built
    · cases built
    split at built
    · rename_i isTarget
      cases built
      exact isTarget
    · cases built
  split at built
  · unfold buildCollection at built
    split at built
    · cases built
    split at built
    · cases built
    split at built
    · cases built
    · rename_i named
      cases built
      exact named
    · cases built
  · unfold buildScalar at built
    repeat' split at built
    all_goals first
      | cases built; trivial
      | cases built

private theorem checked_of_accept {name : String} {options : PropertyOptions}
    {isKnown : String → Bool} {taken columns : List String} {property : Property}
    (accepted : accept name options isKnown taken columns = .ok property) :
    Checked isKnown property := by
  unfold accept at accepted
  repeat' split at accepted
  all_goals first
    | cases accepted; exact checked_of_buildProperty (by assumption)
    | cases accepted

private theorem checked_of_buildProperties {isKnown : String → Bool}
    {specs : List (String × PropertySpec)} {taken columns : List String}
    {properties : List Property}
    (built : buildProperties isKnown specs taken columns = .ok properties) :
    ∀ property ∈ properties, Checked isKnown property := by
  induction specs generalizing taken columns properties with
  | nil =>
      cases built
      exact fun _ impossible => nomatch impossible
  | cons spec rest ih =>
      obtain ⟨property, later, accepted, builtLater, rfl⟩ := buildProperties_cons built
      intro other member
      rcases List.mem_cons.mp member with rfl | isLater
      · exact checked_of_accept accepted
      · exact ih builtLater other isLater

/-- A batch is built one definition after the other. -/
theorem forall₂_buildAll {isKnown : String → Bool} {batch : List Definition}
    {mappings : List Mapping} (built : buildAll isKnown batch = .ok mappings) :
    List.Forall₂ (fun definition mapping =>
      build definition.1 definition.2 isKnown = .ok mapping) batch mappings := by
  induction batch generalizing mappings with
  | nil =>
      cases built
      exact .nil
  | cons definition rest ih =>
      obtain ⟨first, later, builtFirst, builtLater, rfl⟩ := buildAll_cons built
      exact .cons builtFirst (ih builtLater)

theorem buildAll_of_forall₂ {isKnown : String → Bool} {batch : List Definition}
    {mappings : List Mapping} (built : List.Forall₂ (fun definition mapping =>
      build definition.1 definition.2 isKnown = .ok mapping) batch mappings) :
    buildAll isKnown batch = .ok mappings := by
  induction built with
  | nil => rfl
  | cons first _ ih =>
      unfold buildAll
      rw [mapError_eq_ok.mpr first, ih]
      rfl

theorem of_forM {α ε : Type} {check : α → Except ε Unit} {list : List α}
    (passes : list.forM check = .ok ()) : ∀ element ∈ list, check element = .ok () := by
  induction list with
  | nil => exact fun _ impossible => nomatch impossible
  | cons first rest ih =>
      unfold List.forM at passes
      simp only [bind, Except.bind] at passes
      split at passes
      · cases passes
      rename_i checked
      intro element member
      rcases List.mem_cons.mp member with rfl | isLater
      · exact checked
      · exact ih passes element isLater

theorem forM_of_all {α ε : Type} {check : α → Except ε Unit} {list : List α}
    (passes : ∀ element ∈ list, check element = .ok ()) : list.forM check = .ok () := by
  induction list with
  | nil => rfl
  | cons first rest ih =>
      unfold List.forM
      rw [passes first List.mem_cons_self]
      exact ih fun element member => passes element (List.mem_cons_of_mem first member)

/-- Of mappings that pass the check of collections, every collection has a query that can be
read. -/
theorem parses_of_checkCollections {find : String → Option Mapping} {mappings : List Mapping}
    (passes : checkCollections find mappings = .ok ()) {mapping : Mapping}
    (member : mapping ∈ mappings) {relation : CollectionRelation}
    (isRelation : relation ∈ mapping.collectionRelations) :
    ∃ query, Query.parse find relation.query = .ok query := by
  have checked := of_forM (of_forM passes mapping member) relation isRelation
  unfold checkCollection at checked
  split at checked
  · rename_i query parsed
    exact ⟨query, parsed⟩
  · cases checked

end Mapping

/-- Reading a query keeps the distinct names of its parameters. -/
theorem Query.namedParameters_of_parse {lookup : String → Option Mapping} {text : String}
    {query : Query} {names : List String} (parsed : Query.parse lookup text = .ok query)
    (named : Token.namedParameters text = .ok names) (dialect : Dialect) :
    (query.compile dialect).namedParameters = names := by
  unfold Token.namedParameters at named
  split at named
  · cases named
  rename_i tokens scanned
  cases named
  exact congrArg Token.distinct (Query.carries_of_parse parsed scanned).1.names

namespace Registry

variable {registry extended : Registry} {batch : List Definition} {mappings : List Mapping}

theorem contains_iff {name : String} : registry.contains name = true ↔ name ∈ registry.names :=
  List.contains_iff_mem

/-- Nothing that is defined refers to anything that is not. The query of a collection has no
parameter but the one that stands for the owner, in its text as well as in what it is
compiled to. -/
structure Closed (registry : Registry) : Prop where
  distinctNames : registry.names.Nodup
  targets : ∀ mapping ∈ registry.mappings, ∀ relation ∈ mapping.objectRelations,
    relation.target ∈ registry.names
  collections : ∀ mapping ∈ registry.mappings, ∀ relation ∈ mapping.collectionRelations,
    Token.namedParameters relation.query = .ok [relation.placeholder] ∧
    ∃ query, Query.parse registry.mapping? relation.query = .ok query ∧
      ∀ dialect, (query.compile dialect).namedParameters = [relation.placeholder]

theorem closed_empty : Closed {} where
  distinctNames := List.nodup_nil
  targets := fun _ impossible => nomatch impossible
  collections := fun _ impossible => nomatch impossible

namespace Defines

variable (defines : registry.Defines batch mappings extended)
include defines

theorem names : extended.names = registry.names ++ batch.map Prod.fst := by
  unfold Registry.names
  rw [defines.extended, List.map_append, Mapping.entity_buildAll defines.built]

theorem eq_append : extended = registry.append mappings := by
  cases extended
  exact congrArg Registry.mk defines.extended

private theorem known : extended.contains = fun target =>
    registry.contains target || (batch.map Prod.fst).contains target := by
  funext target
  rw [Bool.eq_iff_iff, contains_iff, defines.names]
  simp [contains_iff]

/-- A batch may refer to what is defined with it. -/
theorem forall₂_build : List.Forall₂ (fun definition mapping =>
    Mapping.build definition.1 definition.2 extended.contains = .ok mapping) batch mappings := by
  rw [defines.known]
  exact Mapping.forall₂_buildAll defines.built

private theorem checked_properties {mapping : Mapping} (member : mapping ∈ mappings) :
    ∀ property ∈ mapping.properties, Mapping.Checked extended.contains property := by
  obtain ⟨definition, _, built⟩ := Mapping.mem_buildAll defines.built member
  rw [defines.known]
  exact Mapping.checked_of_buildProperties (Mapping.build_parts built).2

private theorem mapping?_mono (wellFormed : registry.WellFormed) {name : String} {mapping : Mapping}
    (found : registry.mapping? name = some mapping) :
    extended.mapping? name = some mapping :=
  (defines.wellFormed wellFormed).mapping?_of_subset (fun _ => defines.kept) found

theorem closed (wellFormed : registry.WellFormed) (closed : registry.Closed) :
    extended.Closed where
  distinctNames := (defines.wellFormed wellFormed).distinctNames
  targets := by
    intro mapping member relation isRelation
    rw [defines.extended] at member
    rcases List.mem_append.mp member with isOld | isNew
    · rw [defines.names]
      exact List.mem_append_left _ (closed.targets mapping isOld relation isRelation)
    · exact contains_iff.mp
        (defines.checked_properties isNew _ (Mapping.mem_objectRelations.mp isRelation))
  collections := by
    intro mapping member relation isRelation
    rw [defines.extended] at member
    rcases List.mem_append.mp member with isOld | isNew
    · obtain ⟨named, query, parsed, asks⟩ := closed.collections mapping isOld relation isRelation
      exact ⟨named, query, Query.parse_mono (fun _ _ => defines.mapping?_mono wellFormed) parsed,
        asks⟩
    · have named : Token.namedParameters relation.query = .ok [relation.placeholder] :=
        defines.checked_properties isNew _ (Mapping.mem_collectionRelations.mp isRelation)
      obtain ⟨query, parsed⟩ :=
        Mapping.parses_of_checkCollections defines.checked isNew isRelation
      exact ⟨named, query, parsed, Query.namedParameters_of_parse parsed named⟩

end Defines

end Registry

/-! ### Stores -/

namespace Store

variable {World : Type}

theorem Becomes.append {registry later : Registry} (becomes : Becomes registry later) :
    ∃ mappings, later = registry.append mappings := by
  rcases becomes with rfl | ⟨_, mappings, defined⟩
  · exact ⟨[], by simp [Registry.append]⟩
  · exact ⟨mappings, (Registry.define_ok defined).eq_append⟩

/-- A batch is defined as a whole or not at all. -/
theorem run_define (batch : List Definition) (store : Store World) :
    (define batch).run store =
      if store.isOpen then
        match store.registry.define batch with
        | .ok (mappings, registry) => (.ok mappings, { store with registry := registry })
        | .error fault => (.error fault, store)
      else (.error .storeClosed, store) := by
  unfold define
  rw [run_bind, run_ensureOpen]
  by_cases isOpen : store.isOpen = true
  · rw [if_pos isOpen, if_pos isOpen]
    simp only
    rw [run_bind, run_get]
    simp only
    rw [run_bind, run_settleOutcome]
    cases store.registry.define batch with
    | error fault => rfl
    | ok defined => rfl
  · rw [if_neg isOpen, if_neg isOpen]

inductive Defining (batch : List Definition) (store : Store World) :
    Except Error (List Mapping) → Store World → Prop where
  | failed (fault : Error) : Defining batch store (.error fault) store
  | defined {mappings : List Mapping} :
      List.Forall₂ (fun definition mapping => Mapping.build definition.1 definition.2
        (store.registry.append mappings).contains = .ok mapping) batch mappings →
      Defining batch store (.ok mappings)
        { store with registry := store.registry.append mappings }

private theorem ensures_define (batch : List Definition) (store : Store World) :
    Ensures (define batch) store (Defining batch store) := by
  unfold Ensures
  rw [run_define]
  split
  · cases defined : store.registry.define batch with
    | error fault => exact .failed fault
    | ok pair =>
        obtain ⟨mappings, registry⟩ := pair
        have defines := Registry.define_ok defined
        obtain rfl := defines.eq_append
        exact .defined defines.forall₂_build
  · exact .failed .storeClosed

end Store

namespace Deployment

variable {World : Type} {deployment : Deployment World}
  {allowed : Store World → ThreadId → Action → Prop} {store : Store World}

theorem Run.registry_append {acts : List (Act World)} {later : Store World}
    (run : deployment.Run store acts later) (regular : store.Regular) :
    ∃ mappings, later.registry = store.registry.append mappings := by
  induction run with
  | nil store => exact ⟨[], by simp [Registry.append]⟩
  | @cons store between after thread action outcome rest inMemory ran _ ih =>
      have path := (Action.treads_perform regular inMemory).of_run ran
      obtain ⟨first, appended⟩ : ∃ mappings, between.registry = store.registry.append mappings := by
        refine path.invariant (fun between => ∃ mappings, between.registry =
          store.registry.append mappings) ⟨[], by simp [Registry.append]⟩ ?_
        rintro first second ok step ⟨mappings, same⟩
        obtain ⟨more, extended⟩ := step.registry.append
        exact ⟨mappings ++ more, by simp [extended, same, Registry.append]⟩
      obtain ⟨second, extended⟩ := ih (path.regular regular)
      exact ⟨first ++ second, by simp [extended, appended, Registry.append]⟩

theorem Reached.closed (reached : deployment.Reached allowed store) : store.registry.Closed := by
  refine reached.invariant (fun store => store.registry.Closed) ?_ ?_
  · intro store world created
    obtain ⟨_, _, rfl⟩ := create_ok created
    exact Registry.closed_empty
  · intro first second thread poses clears ok regular step closed
    rcases step.registry with same | ⟨batch, mappings, defined⟩
    · exact same ▸ closed
    · exact (Registry.define_ok defined).closed regular.sound.registry closed

/-- Whatever has been done with a store, its registry is closed under reference. Defining a
batch either fails, which leaves the store as it is, or adds the mappings of the batch in its
order and nothing else. Later registries begin with this one, and a query text that can be
read now is read as the same query then. -/
theorem registry_closed (reached : deployment.Reached allowed store) :
    store.registry.Closed ∧
    (∀ batch outcome after, (Store.define batch).run store = (outcome, after) →
      store.Defining batch outcome after) ∧
    ∀ acts later, deployment.Run store acts later →
      (∃ mappings, later.registry = store.registry.append mappings) ∧
      ∀ text query, Query.parse store.registry.mapping? text = .ok query →
        Query.parse later.registry.mapping? text = .ok query := by
  refine ⟨reached.closed, fun batch outcome after ran => (Store.ensures_define batch store).of_run ran,
    fun acts later run => ⟨run.registry_append reached.regular, fun text query parsed => ?_⟩⟩
  have grown := (run.grows reached.regular).registered
  have wellFormed := (run.regular reached.regular).sound.registry
  exact Query.parse_mono (fun _ _ found => wellFormed.mapping?_of_subset grown found) parsed

end Deployment

namespace Samples

def dogs : List Definition := [("Dog", ({} : MappingSpec)
  |>.withProperty "owner" (.detailed (PropertyOptions.object "Person"))
  |>.withProperty "friend" (.detailed (PropertyOptions.object "Dog"))
  |>.withProperty "friends"
    (.detailed (PropertyOptions.collection "from Dog where Dog.friend = :id")))]

end Samples

namespace Deployment

set_option maxRecDepth 100000 in
/-- People are defined and cannot be defined again; dogs can, and people are asked for as
before. -/
theorem registry_closed_dogs : ∃ store later : Store Tables.World, ∃ fault mappings query,
    store.registry.Closed ∧ store.registry.names = ["Person"] ∧
      store.Defining Samples.people (.error fault) store ∧
      store.Defining Samples.dogs (.ok mappings) later ∧
      later.registry.names = ["Person", "Dog"] ∧
      Query.parse store.registry.mapping? "from Person" = .ok query ∧
      Query.parse later.registry.mapping? "from Person" = .ok query := by
  obtain ⟨store, visited, facts⟩ := (Option.any_eq_true _ _).mp (show
      (Samples.deployment.visited? (Samples.settled 0)).any (fun store =>
        let again := (Store.define Samples.people).run store
        let more := (Store.define Samples.dogs).run store
        decide (store.registry.names = ["Person"] ∧ again.1.isOk = false ∧ more.1.isOk = true ∧
          more.2.registry.names = ["Person", "Dog"] ∧
          (Query.parse store.registry.mapping? "from Person").isOk = true)) = true by
    decide +kernel)
  obtain ⟨names, refused, defined, more, reads⟩ := of_decide_eq_true facts
  obtain ⟨closed, defines, keeps⟩ := @registry_closed _ _ (fun _ _ _ => True) _
    (reached_visited (fun _ _ _ _ => trivial) visited)
  generalize again : (Store.define Samples.people).run store = result at refused
  obtain ⟨fault | _, unchanged⟩ := result
  · generalize ran : (Store.define Samples.dogs).run store = result at defined more
    obtain ⟨_ | mappings, later⟩ := result
    · cases defined
    have failing := defines _ _ _ again
    obtain rfl : unchanged = store := by
      cases failing
      rfl
    have performed : ((Action.define Samples.dogs).perform (Samples.deployment.session 0)).run
        unchanged = (.ok (), later) := by
      unfold Action.perform
      rw [Store.run_bind, ran]
      rfl
    have run : Samples.deployment.Run unchanged [⟨0, .define Samples.dogs, .ok (), later⟩] later :=
      .cons trivial performed (.nil later)
    obtain ⟨_, reading⟩ := keeps _ later run
    cases parsed : Query.parse unchanged.registry.mapping? "from Person" with
    | error fault =>
        rw [parsed] at reads
        cases reads
    | ok query =>
        exact ⟨unchanged, later, fault, mappings, query, closed, names, failing, defines _ _ _ ran,
          more, parsed, reading _ _ parsed⟩
  · cases refused

end Deployment
end EntityStore
