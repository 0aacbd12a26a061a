/-
The names of parameters. A query text and what it is compiled to ask for the same names, each
once, in the order in which the text first uses them. So the one name in the query of a
collection is the one that is bound when the collection is read; that succeeds unless the
query has positional parameters beside it.
-/

import EntityStore.Proofs.CheckedGraphs
import Mathlib.Data.List.Induction

set_option autoImplicit false

namespace EntityStore

open Grammar (positionals)

/-! ### Names in the order of their first use -/

structure FirstUses (uses names : List String) : Prop where
  mem_iff : ∀ name, name ∈ names ↔ name ∈ uses
  ordered : names.Pairwise fun first second => uses.idxOf first < uses.idxOf second

theorem FirstUses.nodup {uses names : List String} (firstUses : FirstUses uses names) :
    names.Nodup :=
  firstUses.ordered.imp fun {_ _} earlier same => Nat.ne_of_lt earlier (congrArg uses.idxOf same)

namespace Token

private theorem distinct_append_singleton (names : List String) (name : String) :
    distinct (names ++ [name])
      = if (distinct names).contains name then distinct names else distinct names ++ [name] := by
  unfold distinct
  rw [List.foldl_append]
  rfl

private theorem pairwise_distinct (names : List String) :
    (distinct names).Pairwise fun first second => names.idxOf first < names.idxOf second := by
  induction names using List.reverseRecOn with
  | nil => exact List.Pairwise.nil
  | append_singleton names name ih =>
      have kept : (distinct names).Pairwise fun first second =>
          (names ++ [name]).idxOf first < (names ++ [name]).idxOf second := by
        refine ih.imp_of_mem fun {first second} isFirst isSecond earlier => ?_
        rwa [List.idxOf_append_of_mem (mem_distinct.mp isFirst),
          List.idxOf_append_of_mem (mem_distinct.mp isSecond)]
      rw [distinct_append_singleton]
      split
      · exact kept
      · rename_i isNew
        have absent : name ∉ names := fun used => isNew (by simpa using mem_distinct.mpr used)
        refine List.pairwise_append.mpr ⟨kept, List.pairwise_singleton _ _, ?_⟩
        intro first isFirst last isLast
        obtain rfl := List.mem_singleton.mp isLast
        have used := mem_distinct.mp isFirst
        rw [List.idxOf_append_of_mem used, List.idxOf_append_of_notMem absent]
        exact Nat.lt_add_right _ (List.idxOf_lt_length_of_mem used)

theorem firstUses_distinct (names : List String) : FirstUses names (distinct names) :=
  ⟨fun _ => mem_distinct, pairwise_distinct names⟩

end Token

/-- A query text that can be read and the query compiled from it for any dialect ask for the
same names: the slots use them as the tokens do, and both lists have each of them once, in the
order of its first use. -/
theorem Query.named_parameters_agree {lookup : String → Option Mapping} {text : String}
    {query : Query} (parsed : Query.parse lookup text = .ok query) (dialect : Dialect) :
    ∃ tokens, Token.ofText text = .ok tokens ∧
      (query.compile dialect).slots.filterMap Slot.name? = Token.parameterNames tokens ∧
      Token.namedParameters text = .ok (query.compile dialect).namedParameters ∧
      FirstUses (Token.parameterNames tokens) (query.compile dialect).namedParameters ∧
      (query.compile dialect).namedParameters.Nodup := by
  obtain ⟨words, last, scanned, _, _⟩ := Query.exists_derivation parsed
  have names : (query.compile dialect).slots.filterMap Slot.name?
      = Token.parameterNames (words ++ [last]) :=
    (Query.carries_of_parse parsed scanned).1.names
  have same : (query.compile dialect).namedParameters
      = Token.distinct (Token.parameterNames (words ++ [last])) :=
    congrArg Token.distinct names
  have firstUses := Token.firstUses_distinct (Token.parameterNames (words ++ [last]))
  rw [← same] at firstUses
  refine ⟨_, scanned, names, ?_, firstUses, firstUses.nodup⟩
  unfold Token.namedParameters
  rw [scanned, same]

namespace Samples

def namesText : String := "FROM Citizen WHERE name = :b OR NOT :a = name AND NULL <> :b"

end Samples

theorem Query.named_parameters_agree_names :
    ∃ query tokens, Query.parse Samples.citizens Samples.namesText = .ok query ∧
      Token.ofText Samples.namesText = .ok tokens ∧
      Token.parameterNames tokens = ["b", "a", "b"] ∧
      Token.namedParameters Samples.namesText = .ok ["b", "a"] ∧
      (query.compile .oracle).namedParameters = ["b", "a"] := by
  have reads : (Query.parse Samples.citizens Samples.namesText).toOption.isSome := by
    decide +kernel
  have asks : (Token.ofText Samples.namesText).toOption.map Token.parameterNames
      = some ["b", "a", "b"] := by
    decide +kernel
  cases parsed : Query.parse Samples.citizens Samples.namesText with
  | error fault =>
      rw [parsed] at reads
      cases reads
  | ok query =>
      obtain ⟨tokens, scanned, used, named, _, _⟩ := Query.named_parameters_agree parsed .oracle
      rw [scanned] at asks
      have names : Token.parameterNames tokens = ["b", "a", "b"] := Option.some.inj asks
      have distinct : (query.compile .oracle).namedParameters = ["b", "a"] := by
        show Token.distinct ((query.compile .oracle).slots.filterMap Slot.name?) = ["b", "a"]
        rw [used, names]
        decide
      exact ⟨query, tokens, rfl, scanned, names, distinct ▸ named, distinct⟩

/-! ### Binding the owner -/

section Binding

variable {lookup : String → Option Mapping} {text : String} {query : Query}
  {tokens : List Token} (parsed : Query.parse lookup text = .ok query)
  (scanned : Token.ofText text = .ok tokens)
include parsed scanned

/-- Values that fit the parameters of a text can be bound to what is compiled from it. -/
theorem Query.exists_bind {parameters : Parameters}
    (fits : parameters.Fits (Token.parameterNames tokens) (positionals tokens))
    (dialect : Dialect) :
    ∃ values, (query.compile dialect).bind parameters dialect = .ok values ∧
      List.Forall₂ (Slot.Gives dialect parameters) (query.compile dialect).slots values := by
  obtain ⟨carries, counted⟩ := Query.carries_of_parse parsed scanned
  rw [← carries.names, ← counted] at fits
  have passes : CompiledQuery.checkParameters (query.compile dialect).namedParameters
      (query.compile dialect).positional parameters = .ok () :=
    (CompiledQuery.checkParameters_eq_ok_iff
      fun _ => CompiledQuery.mem_namedParameters).mpr fits
  obtain ⟨values, bound⟩ := CompiledQuery.slotValues_ok_iff.mpr
    (CompiledQuery.slotValue_of_fits fits (counted ▸ carries.indices))
  refine ⟨values, ?_, CompiledQuery.gives_of_slotValues bound⟩
  unfold CompiledQuery.bind
  rw [passes]
  exact bound

theorem Query.bind_named_of_positional (some' : 0 < positionals tokens)
    (values : List (String × Value)) (dialect : Dialect) :
    (query.compile dialect).bind (.named values) dialect = .error .namedForPositional := by
  have counted : (query.compile dialect).positional = positionals tokens :=
    (Query.carries_of_parse parsed scanned).2
  unfold CompiledQuery.bind CompiledQuery.checkParameters
  rw [counted]
  simp only [if_pos some']

end Binding

def CollectionRelation.given (relation : CollectionRelation) (owner : Int64) : Parameters :=
  .named [(relation.placeholder, .integer owner)]

theorem CollectionRelation.fits_given {relation : CollectionRelation} {tokens : List Token}
    (named : Token.namedParameters relation.query = .ok [relation.placeholder])
    (scanned : Token.ofText relation.query = .ok tokens) (owner : Int64) :
    (relation.given owner).Fits (Token.parameterNames tokens) 0 := by
  unfold Token.namedParameters at named
  rw [scanned] at named
  have alone : Token.distinct (Token.parameterNames tokens) = [relation.placeholder] :=
    Except.ok.inj named
  refine ⟨rfl, fun other => ?_⟩
  have isName : other ∈ [relation.placeholder] ↔ other ∈ Token.parameterNames tokens :=
    alone ▸ Token.mem_distinct
  exact isName

/-! ### Errors in what was asked -/

def Error.BlamesQuery : Error → Prop
  | .query _ | .parameter _ => True
  | _ => False

theorem Error.not_blamesQuery_ofDatabase (fault : DatabaseError) :
    ¬(Error.ofDatabase fault).BlamesQuery := by
  cases fault <;> exact not_false

theorem Pool.not_blamesQuery_of_acquire {World : Type} {database : Database World}
    {pool after : Pool World} {error : Error}
    (refused : pool.acquire database = (.error error, after)) : ¬error.BlamesQuery := by
  have acquires := Pool.acquires database pool
  rw [refused] at acquires
  cases acquires with
  | closed _ => exact not_false
  | refused _ => exact Error.not_blamesQuery_ofDatabase _
  | exhausted _ _ _ => exact not_false

theorem Mapping.not_blamesQuery_of_hydrateAll {mapping : Mapping} {rows : List Row}
    {error : Error} (failed : mapping.hydrateAll rows = .error error) : ¬error.BlamesQuery := by
  induction rows with
  | nil => cases failed
  | cons row rest ih =>
      unfold hydrateAll hydrate at failed
      simp only [bind, Except.bind, pure, Except.pure] at failed
      split at failed
      · rename_i fault hydrated
        split at hydrated <;> cases hydrated
        cases failed
        exact not_false
      split at failed
      · rename_i fault hydrated
        cases failed
        exact ih hydrated
      · cases failed

namespace Store

variable {World α β : Type} {session : Session World} {store : Store World}

def Acquits (operation : Operation World α) (store : Store World) : Prop :=
  ∀ error after, operation.run store = (.error error, after) → ¬error.BlamesQuery

private theorem acquits_of_ok {operation : Operation World α} {result : α} {after : Store World}
    (ran : operation.run store = (.ok result, after)) : Acquits operation store := by
  intro error other failed
  rw [ran] at failed
  cases failed

private theorem acquits_of_error {operation : Operation World α} {error : Error}
    {after : Store World}
    (ran : operation.run store = (.error error, after)) (spared : ¬error.BlamesQuery) :
    Acquits operation store := by
  intro other final failed
  rw [ran] at failed
  cases failed
  exact spared

private theorem acquits_throw {error : Error} (spared : ¬error.BlamesQuery) :
    Acquits (throw error : Operation World α) store := by
  intro other after failed
  cases failed
  exact spared

private theorem acquits_settleOutcome {outcome : Except Error α}
    (spared : ∀ error, outcome = .error error → ¬error.BlamesQuery) :
    Acquits (settleOutcome outcome) store := by
  intro error after failed
  rw [run_settleOutcome] at failed
  exact spared error (congrArg Prod.fst failed)

private theorem acquits_bind {operation : Operation World α} {next : α → Operation World β}
    (first : Acquits operation store)
    (later : ∀ result after, operation.run store = (.ok result, after) →
      Acquits (next result) after) : Acquits (operation >>= next) store := by
  intro error final failed
  rw [run_bind] at failed
  generalize ran : operation.run store = ended at failed
  obtain ⟨outcome, after⟩ := ended
  cases outcome with
  | error fault =>
      cases failed
      exact first _ _ ran
  | ok result => exact later result after ran error final failed

private theorem acquits_attempt_bind {operation : Operation World α}
    {next : Except Error α → Operation World β} (first : Acquits operation store)
    (later : ∀ outcome after, (∀ error, outcome = .error error → ¬error.BlamesQuery) →
      Acquits (next outcome) after) : Acquits (attempt operation >>= next) store := by
  refine acquits_bind (acquits_of_ok (run_attempt operation store)) fun outcome after ran => ?_
  rw [run_attempt] at ran
  cases ran
  exact later _ _ fun error failed => first error _ (Prod.ext failed rfl)

private theorem acquits_call (lease : LeaseId) (request : ConnectionId → Call World α) :
    Acquits (call lease request) store := by
  intro error after failed
  rw [run_call] at failed
  obtain ⟨outcome, _⟩ := Prod.mk.inj failed
  cases answered : (store.pool.callLease lease request).1 with
  | ok result =>
      rw [answered] at outcome
      cases outcome
  | error fault =>
      rw [answered] at outcome
      cases outcome
      exact Error.not_blamesQuery_ofDatabase fault

private theorem acquits_ensureOpen : Acquits (ensureOpen : Operation World Unit) store := by
  intro error after failed
  rw [run_ensureOpen] at failed
  split at failed
  · cases failed
  · cases failed
    exact not_false

private theorem acquits_acquire : Acquits (acquire session) store := by
  intro error after failed
  rw [run_acquire] at failed
  have refused : (store.pool.acquire session.database).1 = .error error :=
    congrArg Prod.fst failed
  exact Pool.not_blamesQuery_of_acquire (Prod.ext refused rfl)

/-! ### Units that read -/

section Units

variable {work : Work World α} (acquits : ∀ lease store, Acquits (work lease) store)
include acquits

private theorem acquits_unitInside (transaction : Transaction) :
    Acquits (unitInside session transaction work) store := by
  unfold unitInside
  refine acquits_attempt_bind (acquits _ _) fun outcome after spared => ?_
  cases outcome with
  | ok result =>
      exact acquits_bind (acquits_of_ok (run_modify _ _)) fun _ _ _ => acquits_of_ok rfl
  | error error =>
      refine acquits_bind (acquits_of_ok (run_modify _ _)) fun _ _ _ => ?_
      refine acquits_bind ?_ fun _ _ _ => ?_
      · exact acquits_attempt_bind (acquits_call _ _) fun _ _ _ => acquits_of_ok rfl
      refine acquits_bind (acquits_of_ok (run_modify _ _)) fun _ _ _ => ?_
      exact acquits_bind (acquits_of_ok (run_modify _ _)) fun _ _ _ => acquits_throw (spared _ rfl)

private theorem acquits_unitOutside : Acquits (unitOutside session false work) store := by
  unfold unitOutside
  refine acquits_bind (acquits_of_ok (run_get _)) fun _ _ _ => ?_
  refine acquits_bind acquits_acquire fun lease between _ => ?_
  refine acquits_attempt_bind (acquits lease between) fun outcome after spared => ?_
  cases outcome with
  | ok result =>
      refine acquits_bind (acquits_of_ok (run_modify _ _)) fun _ _ _ => ?_
      exact acquits_bind (acquits_of_ok (run_modify _ _)) fun _ _ _ => acquits_of_ok rfl
  | error error =>
      exact acquits_bind (acquits_of_ok (run_modify _ _)) fun _ _ _ => acquits_throw (spared _ rfl)

private theorem acquits_unit : Acquits (unit session false work) store := by
  unfold unit
  refine acquits_bind acquits_ensureOpen fun _ _ _ => ?_
  refine acquits_bind (acquits_of_ok (run_get _)) fun current _ _ => ?_
  split
  · exact acquits_unitInside acquits _
  · exact acquits_unitOutside acquits

end Units

/-! ### Queries -/

theorem run_prepare_of_parse {text : String} {query : Query}
    (parsed : Query.parse store.registry.mapping? text = .ok query) :
    (prepare text).run store
      = if store.isOpen then (.ok query, store) else (.error .storeClosed, store) := by
  unfold prepare
  rw [run_bind, run_ensureOpen]
  cases store.isOpen with
  | false => rfl
  | true =>
      simp only [↓reduceIte]
      rw [run_bind, run_get]
      simp only [parsed]
      exact run_settleOutcome _ _

private theorem acquits_rememberLoaded (mapping : Mapping) (entries : List (Key × Row)) :
    Acquits (rememberLoaded mapping entries) store := by
  induction entries generalizing store with
  | nil => exact acquits_of_ok rfl
  | cons entry rest ih =>
      unfold rememberLoaded
      refine acquits_bind (acquits_of_ok (run_get _)) fun _ _ _ => ?_
      refine acquits_bind (acquits_of_ok rfl) fun _ _ _ => ?_
      exact acquits_bind ih fun _ _ _ => acquits_of_ok rfl

private theorem acquits_run {query : Query} {parameters : Parameters} {values : List Value}
    (known : store.registry.mapping? query.root.entity = some query.root)
    (bound : (query.compile session.dialect).bind parameters session.dialect = .ok values)
    (page : Page) : Acquits (run session query parameters page) store := by
  unfold run
  dsimp only
  rw [bound]
  refine acquits_bind (acquits_of_ok (run_settleOutcome _ _)) fun _ _ ran => ?_
  cases ran
  refine acquits_bind ?_ fun _ _ _ => ?_
  · have found : (entityType query.root.entity).run store = (.ok query.root, store) := by
      unfold entityType
      rw [run_bind, run_get]
      simp only [mapping?, known]
      rfl
    exact acquits_of_ok found
  refine acquits_bind (acquits_unit fun lease _ => ?_) fun _ _ _ => acquits_rememberLoaded _ _
  refine acquits_bind (acquits_call lease _) fun rows _ _ => ?_
  refine acquits_bind (acquits_settleOutcome fun error failed => ?_) fun _ _ _ => acquits_of_ok rfl
  exact Mapping.not_blamesQuery_of_hydrateAll failed

private theorem run_unbound {query : Query} {parameters : Parameters} {fault : ParameterFault}
    (unbound : (query.compile session.dialect).bind parameters session.dialect = .error fault)
    (page : Page) :
    (run session query parameters page).run store = (.error (.parameter fault), store) := by
  unfold run
  dsimp only
  rw [unbound, run_bind, run_settleOutcome]
  rfl

private theorem acquits_checkUsable (content : Instance) :
    Acquits (settleOutcome content.checkUsable : Operation World Unit) store := by
  refine acquits_settleOutcome fun error failed => ?_
  unfold Instance.checkUsable at failed
  split at failed
  · cases failed
    exact not_false
  split at failed
  · cases failed
    exact not_false
  · cases failed

/-! ### Collections -/

section Collections

variable {subject : InstanceId} {relation : CollectionRelation} {query : Query}
  (declared : (store.instanceAt subject).mapping.property? relation.name
    = some (.collection relation))
include declared

private theorem property_of_declared :
    (store.instanceAt subject).property relation.name = .ok (.collection relation) := by
  unfold Instance.property
  rw [declared]

variable (parsed : Query.parse store.registry.mapping? relation.query = .ok query)
include parsed

/-- A collection of a known entity type whose query can be read and bound to every owner is
not at fault when it cannot be read. -/
theorem acquits_readCollection
    (known : store.registry.mapping? query.root.entity = some query.root)
    (binds : ∀ owner, ∃ values, (query.compile session.dialect).bind (relation.given owner)
      session.dialect = .ok values) :
    Acquits (readCollection session subject relation.name) store := by
  unfold readCollection
  refine acquits_bind (acquits_of_ok (run_get _)) fun _ _ got => ?_
  cases got
  dsimp only
  rw [property_of_declared declared]
  refine acquits_bind (acquits_of_ok (run_settleOutcome _ _)) fun _ _ ran => ?_
  cases ran
  refine acquits_bind (acquits_checkUsable _) fun _ _ usable => ?_
  rw [run_settleOutcome] at usable
  obtain rfl := congrArg Prod.snd usable
  split
  · exact acquits_of_ok rfl
  · exact acquits_of_ok rfl
  rename_i owner _ _
  have prepares := run_prepare_of_parse parsed
  cases isOpen : store.isOpen with
  | false =>
      rw [isOpen] at prepares
      exact acquits_bind (acquits_of_error prepares not_false) fun _ _ ran =>
        nomatch prepares.symm.trans ran
  | true =>
      rw [isOpen] at prepares
      refine acquits_bind (acquits_of_ok prepares) fun _ _ ran => ?_
      cases prepares.symm.trans ran
      obtain ⟨values, bound⟩ := binds owner
      refine acquits_bind (acquits_run known bound _) fun _ _ _ => ?_
      refine acquits_bind (acquits_of_ok (run_modify _ _)) fun _ _ _ => ?_
      exact acquits_bind (acquits_of_ok (run_modify _ _)) fun _ _ _ => acquits_of_ok rfl

private theorem run_readCollection_unbound {owner : Int64} {fault : ParameterFault}
    (isOpen : store.isOpen = true)
    (usable : (store.instanceAt subject).checkUsable = .ok ())
    (hasId : (store.instanceAt subject).key.id = some owner)
    (notHeld : (store.instanceAt subject).collections.lookup relation.name = none)
    (unbound : (query.compile session.dialect).bind (relation.given owner) session.dialect
      = .error fault) :
    (readCollection session subject relation.name).run store
      = (.error (.parameter fault), store) := by
  have prepares := run_prepare_of_parse parsed
  rw [isOpen] at prepares
  have refused : (run session query (.named [(relation.placeholder, .integer owner)]) {}).run store
      = (.error (.parameter fault), store) := run_unbound unbound {}
  unfold readCollection
  rw [run_bind, run_get]
  simp only
  rw [run_bind, run_settleOutcome, property_of_declared declared]
  simp only
  rw [run_bind, run_settleOutcome, usable]
  simp only [notHeld, hasId]
  rw [run_bind, prepares]
  simp only [↓reduceIte]
  rw [run_bind, refused]

end Collections

end Store

theorem Store.define_ok {World : Type} {store after : Store World} {batch : List Definition}
    {mappings : List Mapping} (defined : (Store.define batch).run store = (.ok mappings, after)) :
    ∃ registry, store.registry.define batch = .ok (mappings, registry) ∧
      after = { store with registry := registry } := by
  rw [run_define] at defined
  split at defined
  · split at defined
    · rename_i mappings registry accepted
      cases defined
      exact ⟨registry, accepted, rfl⟩
    · cases defined
  · cases defined

namespace Deployment

variable {World : Type} {deployment : Deployment World}
  {allowed : Store World → ThreadId → Action → Prop} {store after later : Store World}
  {batch : List Definition} {mappings : List Mapping} {acts : List (Act World)}

/-- A collection that was accepted with a batch can be read ever after, unless its query has a
positional parameter. Its query is read, and the id of any owner is bound to it in any dialect;
where it cannot be read, neither the query nor the value is at fault. With a positional
parameter it is accepted as well, but the id of an owner cannot be bound. -/
theorem collections_bind (reached : deployment.Reached allowed store)
    (defined : (Store.define batch).run store = (.ok mappings, after))
    (run : deployment.Run after acts later) {mapping : Mapping} (member : mapping ∈ mappings)
    {relation : CollectionRelation} (isRelation : relation ∈ mapping.collectionRelations) :
    ∃ query tokens, Token.ofText relation.query = .ok tokens ∧
      Query.parse later.registry.mapping? relation.query = .ok query ∧
      (later.isOpen = true → (Store.prepare relation.query).run later = (.ok query, later)) ∧
      (positionals tokens = 0 →
        (∀ dialect owner, ∃ values,
          (query.compile dialect).bind (relation.given owner) dialect = .ok values ∧
          List.Forall₂ (Slot.Gives dialect (relation.given owner))
            (query.compile dialect).slots values) ∧
        ∀ session subject error final, (later.instanceAt subject).mapping = mapping →
          (Store.readCollection session subject relation.name).run later
            = (.error error, final) → ¬error.BlamesQuery) ∧
      (0 < positionals tokens →
        (∀ dialect owner, (query.compile dialect).bind (relation.given owner) dialect
          = .error .namedForPositional) ∧
        ∀ session subject owner, (later.instanceAt subject).mapping = mapping →
          later.isOpen = true → (later.instanceAt subject).checkUsable = .ok () →
          (later.instanceAt subject).key.id = some owner →
          (later.instanceAt subject).collections.lookup relation.name = none →
          (Store.readCollection session subject relation.name).run later
            = (.error (.parameter .namedForPositional), later)) := by
  have performed : ((Action.define batch).perform (deployment.session 0)).run store
      = (.ok (), after) := by
    unfold Action.perform
    rw [Store.run_bind, defined]
    rfl
  have acted : deployment.Run store [⟨0, .define batch, .ok (), after⟩] after :=
    .cons trivial performed (.nil after)
  have regular := acted.regular reached.regular
  have wellFormed := (run.regular regular).sound.registry
  have grown := (run.grows regular).registered
  obtain ⟨registry, accepted, rfl⟩ := Store.define_ok defined
  have defines := Registry.define_ok accepted
  have registered : mapping ∈ registry.mappings := by
    rw [defines.extended]
    exact List.mem_append_right _ member
  obtain ⟨named, query, parsedFirst, _⟩ :=
    (defines.closed reached.regular.sound.registry reached.closed).collections mapping registered
      relation isRelation
  have parsed : Query.parse later.registry.mapping? relation.query = .ok query :=
    Query.parse_mono (fun _ _ found => wellFormed.mapping?_of_subset grown found) parsedFirst
  obtain ⟨words, last, scanned, _, _⟩ := Query.exists_derivation parsed
  have known : later.registry.mapping? query.root.entity = some query.root := by
    obtain ⟨name, found⟩ := Query.parse_ok parsed
    rwa [(Registry.mem_of_mapping? found).2]
  have declared {subject : InstanceId} (isOwner : (later.instanceAt subject).mapping = mapping) :
      (later.instanceAt subject).mapping.property? relation.name = some (.collection relation) := by
    rw [isOwner]
    exact Graph.property?_of_mem (wellFormed.mappings mapping (grown mapping registered))
      (Mapping.mem_collectionRelations.mp isRelation)
  refine ⟨query, _, scanned, parsed, fun isOpen => ?_, fun none' => ?_, fun some' => ?_⟩
  · rw [Store.run_prepare_of_parse parsed, if_pos isOpen]
  · have binds (dialect : Dialect) (owner : Int64) :=
      Query.exists_bind parsed scanned (none' ▸ relation.fits_given named scanned owner) dialect
    refine ⟨binds, fun session subject error final isOwner failed => ?_⟩
    refine Store.acquits_readCollection (declared isOwner) parsed known (fun owner => ?_) error
      final failed
    obtain ⟨values, bound, _⟩ := binds session.dialect owner
    exact ⟨values, bound⟩
  · have unbound (dialect : Dialect) (owner : Int64) :=
      Query.bind_named_of_positional parsed scanned some'
        [(relation.placeholder, .integer owner)] dialect
    exact ⟨unbound, fun session subject owner isOwner isOpen usable hasId notHeld =>
      Store.run_readCollection_unbound (declared isOwner) parsed isOpen usable hasId notHeld
        (unbound session.dialect owner)⟩

end Deployment

namespace Samples

/-- Dogs with two collections, of which one asks for more than the owner. -/
def kennel : List Definition := [("Dog", ({} : MappingSpec)
  |>.withProperty "friend" (.detailed (PropertyOptions.object "Dog"))
  |>.withProperty "friends"
    (.detailed (PropertyOptions.collection "from Dog where friend = :id or :id = Dog.friend"))
  |>.withProperty "rivals"
    (.detailed (PropertyOptions.collection "from Dog where friend <> :id and friend = ?")))]

end Samples

namespace Deployment

set_option maxRecDepth 100000 in
/-- Both collections are accepted; friends can be asked for, rivals cannot. -/
theorem collections_bind_kennel : ∃ (store later : Store Tables.World) (mappings : List Mapping)
    (friends rivals : CollectionRelation) (first second : Query),
    (Store.define Samples.kennel).run store = (.ok mappings, later) ∧
      mappings.flatMap Mapping.collectionRelations = [friends, rivals] ∧
      Query.parse later.registry.mapping? friends.query = .ok first ∧
      Query.parse later.registry.mapping? rivals.query = .ok second ∧
      (∀ dialect owner, ∃ values,
        (first.compile dialect).bind (friends.given owner) dialect = .ok values) ∧
      ∀ dialect owner, (second.compile dialect).bind (rivals.given owner) dialect
        = .error .namedForPositional := by
  obtain ⟨store, visited, facts⟩ := (Option.any_eq_true _ _).mp (show
      (Samples.deployment.visited? (Samples.settled 0)).any (fun store =>
        decide ((((Store.define Samples.kennel).run store).1.toOption.map fun mappings =>
          (mappings.flatMap Mapping.collectionRelations).map fun relation =>
            (Token.ofText relation.query).toOption.map positionals)
          = some [some 0, some 1])) = true by
    decide +kernel)
  have reached : Samples.deployment.Reached (fun _ _ _ => True) store :=
    reached_visited (fun _ _ _ _ => trivial) visited
  have asked := of_decide_eq_true facts
  generalize ran : (Store.define Samples.kennel).run store = result at asked
  obtain ⟨outcome, later⟩ := result
  cases outcome with
  | error error => cases asked
  | ok mappings =>
  obtain ⟨friends, others, relations, none', more⟩ :=
    List.map_eq_cons_iff.mp (Option.some.inj asked)
  obtain ⟨rivals, rest, rfl, one, last⟩ := List.map_eq_cons_iff.mp more
  obtain rfl := List.map_eq_nil_iff.mp last
  have isFriends : friends ∈ [friends, rivals] := List.mem_cons_self
  have isRivals : rivals ∈ [friends, rivals] := List.mem_cons_of_mem _ List.mem_cons_self
  rw [← relations] at isFriends isRivals
  obtain ⟨owner, isOwner, ownsFriends⟩ := List.mem_flatMap.mp isFriends
  obtain ⟨rival, isRival, ownsRivals⟩ := List.mem_flatMap.mp isRivals
  obtain ⟨first, tokens, scanned, parsed, _, alone, _⟩ :=
    collections_bind reached ran (.nil later) isOwner ownsFriends
  obtain ⟨second, others, scannedOthers, parsedOthers, _, _, mixed⟩ :=
    collections_bind reached ran (.nil later) isRival ownsRivals
  rw [scanned] at none'
  rw [scannedOthers] at one
  have noneAsked : positionals tokens = 0 := Option.some.inj none'
  have oneAsked : positionals others = 1 := Option.some.inj one
  refine ⟨store, later, mappings, friends, rivals, first, second, ran, relations, parsed,
    parsedOthers, fun dialect owner => ?_, (mixed (by omega)).1⟩
  obtain ⟨values, bound, _⟩ := (alone noneAsked).1 dialect owner
  exact ⟨values, bound⟩

end Deployment

end EntityStore
