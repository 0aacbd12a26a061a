/-
What operations do to collections. Nobody comes to hold any but an instance whose
collection is read, by an action that succeeds; it is listed then. So whoever holds
collections after a run has held them before or has read one meanwhile.
-/

import EntityStore.Proofs.Collections
import EntityStore.Proofs.KeptSnapshots

set_option autoImplicit false

namespace EntityStore
namespace Store

variable {World α β : Type} {session : Session World} {store between after : Store World}
  {subject : InstanceId}

/-! ### Rules -/

def Discreet (operation : Operation World α) (store : Store World) : Prop :=
  Ensures operation store fun _ after => store.Sheds after

private theorem discreet_pure (result : α) :
    Discreet (pure result : Operation World α) store := .refl store

private theorem discreet_throw (error : Error) : Discreet (throw error : Operation World α) store :=
  .refl store

private theorem discreet_bind {operation : Operation World α} {next : α → Operation World β}
    (first : Discreet operation store) (later : ∀ result between, Discreet (next result) between) :
    Discreet (operation >>= next) store := by
  apply ensures_bind
  refine first.weaken fun outcome between sheds => ?_
  cases outcome with
  | ok result => exact (later result between).weaken fun _ _ further => sheds.trans further
  | error error => exact sheds

/-- A check changes nothing, and what follows finds the store as it was. -/
theorem discreet_bind_same {operation : Operation World α} {next : α → Operation World β}
    {outcome : Except Error α} (ran : operation.run store = (outcome, store))
    (later : ∀ result, outcome = .ok result → Discreet (next result) store) :
    Discreet (operation >>= next) store := by
  apply ensures_bind
  unfold Ensures
  rw [ran]
  cases outcome with
  | ok result => exact later result rfl
  | error error => exact .refl store

private theorem discreet_get_bind {next : Store World → Operation World β}
    (later : Discreet (next store) store) : Discreet (get >>= next) store := by
  refine discreet_bind_same (run_get store) ?_
  rintro _ ⟨⟩
  exact later

private theorem discreet_settleOutcome_bind {outcome : Except Error α}
    {next : α → Operation World β}
    (later : ∀ result, outcome = .ok result → Discreet (next result) store) :
    Discreet (settleOutcome outcome >>= next) store :=
  discreet_bind_same (run_settleOutcome outcome store) later

private theorem discreet_ensureOpen_bind {next : Unit → Operation World β}
    (later : Discreet (next ()) store) : Discreet (ensureOpen >>= next) store := by
  unfold Discreet Ensures
  rw [run_bind, run_ensureOpen]
  cases store.isOpen with
  | true => exact later
  | false => exact .refl store

private theorem discreet_entityType_bind {entity : String} {next : Mapping → Operation World β}
    (later : ∀ mapping ∈ store.registry.mappings, Discreet (next mapping) store) :
    Discreet (entityType entity >>= next) store := by
  obtain ⟨outcome, ran, found⟩ := run_entityType entity store
  exact discreet_bind_same ran fun mapping same => later mapping (found mapping same).1

private theorem discreet_modify {change : Store World → Store World}
    (sheds : store.Sheds (change store)) :
    Discreet (modify change : Operation World Unit) store := sheds

private theorem discreet_remember {content : Instance} (none : content.collections = []) :
    Discreet (remember content : Operation World InstanceId) store :=
  sheds_addInstance none store

private theorem discreet_change {edit : Instance → Instance}
    (edits : ∀ content : Instance, content.Sheds (edit content)) :
    Discreet (change subject edit : Operation World Unit) store :=
  sheds_modifyInstance (edits _)

theorem discreet_unit {issued : Question → Prop} {transactional : Bool} {work : Work World α}
    {gives : α × WriteSet → List Event → Prop} (regular : store.Regular)
    (asks : ∀ lease, Asks session.database issued lease (work lease) gives) :
    Discreet (unit session transactional work) store :=
  (ensures_unit asks fun _ inside => regular.leased.connection inside).weaken
    fun _ _ ends => ends.sheds

/-! ### Memory -/

private theorem discreet_define (batch : List Definition) :
    Discreet (define batch : Operation World (List Mapping)) store := by
  unfold define
  refine discreet_ensureOpen_bind (discreet_get_bind (discreet_settleOutcome_bind fun _ _ => ?_))
  exact discreet_bind (sheds_of_same rfl rfl rfl) fun _ _ => discreet_pure _

private theorem discreet_reference (entity : String) (id : Int64) :
    Discreet (reference entity id : Operation World InstanceId) store :=
  discreet_entityType_bind fun _ _ => discreet_get_bind (discreet_remember rfl)

private theorem discreet_assign (subject : InstanceId) (name : String) (value : PropertyValue) :
    Discreet (assign subject name value : Operation World Unit) store := by
  unfold assign
  refine discreet_get_bind ?_
  dsimp only
  split
  · exact .refl store
  refine discreet_settleOutcome_bind fun property _ => ?_
  split
  · exact discreet_throw _
  split
  · exact .refl store
  · exact discreet_change fun _ => .of_same rfl rfl

private theorem discreet_assignAll (subject : InstanceId) (values : List (String × PropertyValue)) :
    Discreet (assignAll subject values : Operation World Unit) store := by
  induction values generalizing store with
  | nil => exact discreet_pure ()
  | cons entry rest ih => exact discreet_bind (discreet_assign subject entry.1 entry.2) fun _ _ => ih

private theorem discreet_createInstance (mapping : Mapping)
    (values : List (String × PropertyValue)) :
    Discreet (createInstance mapping values : Operation World InstanceId) store := by
  unfold createInstance
  refine discreet_get_bind (discreet_bind (discreet_remember rfl) fun subject _ => ?_)
  exact discreet_bind (discreet_assignAll subject values) fun _ _ => discreet_pure subject

private theorem discreet_rememberLoaded (mapping : Mapping) (entries : List (Key × Row)) :
    Discreet (rememberLoaded mapping entries : Operation World (List InstanceId)) store := by
  induction entries generalizing store with
  | nil => exact discreet_pure []
  | cons entry rest ih =>
      unfold rememberLoaded
      refine discreet_get_bind (discreet_bind (discreet_remember rfl) fun _ _ => ?_)
      exact discreet_bind ih fun _ _ => discreet_pure _

private theorem discreet_forgetCollections (subject : InstanceId) :
    Discreet (forgetCollections subject : Operation World Unit) store :=
  discreet_change fun _ => Or.inl rfl

private theorem sheds_rememberInTransaction (thread : ThreadId) (subject : InstanceId)
    (store : Store World) : store.Sheds (store.rememberInTransaction thread subject) := by
  unfold rememberInTransaction
  split
  · exact .refl store
  · exact sheds_of_same rfl rfl rfl

theorem discreet_settleAll (written : List Written) :
    Discreet (settleAll session written) store := by
  induction written generalizing store with
  | nil => exact discreet_pure ()
  | cons one rest ih =>
      unfold settleAll
      refine discreet_bind (sheds_rememberInTransaction _ _ store) fun _ _ => ?_
      exact discreet_bind (discreet_modify (sheds_modifyInstance (Instance.sheds_settle _ _ _))) fun _ _ => ih

theorem discreet_withdraw (subject : InstanceId) : Discreet (withdraw session subject) store :=
  discreet_bind (sheds_rememberInTransaction _ _ store) fun _ _ =>
    discreet_modify (sheds_modifyInstance (Or.inl rfl))

/-! ### Reading -/

section Reading

variable (regular : store.Regular)
include regular

theorem discreet_run {prepared : Query} (fit : prepared.root ∈ store.registry.mappings)
    (parameters : Parameters) (page : Page) :
    Discreet (run session prepared parameters page) store := by
  unfold run
  refine discreet_settleOutcome_bind fun values _ => ?_
  refine discreet_entityType_bind fun mapping _ => ?_
  have asks (lease : LeaseId) := @asks_selection _ session lease (· ∈ store.registry.mappings)
    prepared fit page values
  exact discreet_bind (discreet_unit regular asks) fun entries _ =>
    discreet_rememberLoaded mapping entries

private theorem discreet_loadRow {mapping : Mapping}
    (registered : mapping ∈ store.registry.mappings)
    (key : Key) : Discreet (loadRow session mapping key) store := by
  have looked : store.Sheds { store with cache := (store.cache.get key).2 } :=
    sheds_of_same rfl rfl rfl
  have regularLooked := regular.looked key
  unfold loadRow
  refine discreet_ensureOpen_bind ?_
  unfold Discreet Ensures
  rw [run_bind, run_cachedRow]
  dsimp only
  cases (store.cache.get key).1 with
  | some row => exact looked
  | none =>
      have asks (lease : LeaseId) := @asks_load _ session (· ∈ store.registry.mappings)
        mapping lease registered key
      exact looked.trans (discreet_unit regularLooked asks)

private theorem discreet_find {mapping : Mapping} (registered : mapping ∈ store.registry.mappings)
    (id : Int64) : Discreet (find session mapping id) store := by
  unfold find
  refine discreet_bind (discreet_loadRow regular registered _) fun found _ => ?_
  cases found with
  | none => exact discreet_pure _
  | some row =>
      exact discreet_get_bind (discreet_bind (discreet_remember rfl) fun _ _ => discreet_pure _)

variable (inMemory : subject < store.memory.size)
include inMemory

private theorem discreet_rowOf : Discreet (rowOf session subject) store := by
  have registered := (regular.sound.instanceAt inMemory).registered
  unfold rowOf
  refine discreet_get_bind ?_
  dsimp only
  split
  · exact .refl store
  split
  · exact discreet_pure _
  refine discreet_bind (discreet_loadRow regular registered _) fun found _ => ?_
  cases found with
  | some row => exact discreet_bind (discreet_change fun _ => .of_same rfl rfl) fun _ _ => discreet_pure _
  | none => exact discreet_bind (discreet_change fun _ => .of_same rfl rfl) fun _ _ => discreet_throw _

private theorem discreet_columnOf (column : String) :
    Discreet (columnOf session subject column) store :=
  discreet_bind (discreet_rowOf regular inMemory) fun _ _ => discreet_pure _

private theorem discreet_readScalar (property : ScalarProperty) :
    Discreet (readScalar session subject property) store := by
  unfold readScalar
  refine discreet_get_bind ?_
  dsimp only
  split
  · exact discreet_pure _
  · exact discreet_pure _
  · exact discreet_throw _
  · split
    · exact discreet_pure _
    · exact discreet_bind (discreet_columnOf regular inMemory _) fun _ _ => discreet_pure _

private theorem discreet_readReference (relation : ObjectRelation) :
    Discreet (readReference session subject relation) store := by
  unfold readReference
  refine discreet_get_bind ?_
  dsimp only
  split
  · exact discreet_pure _
  · exact discreet_pure _
  · exact discreet_pure _
  · split
    · exact discreet_pure _
    · exact discreet_columnOf regular inMemory _

private theorem discreet_read (name : String) : Discreet (read session subject name) store := by
  unfold read
  refine discreet_get_bind ?_
  dsimp only
  split
  · exact discreet_get_bind (discreet_pure _)
  refine discreet_settleOutcome_bind fun property _ => discreet_settleOutcome_bind fun _ _ => ?_
  cases property with
  | collection relation => exact discreet_throw _
  | scalar property => exact discreet_readScalar regular inMemory property
  | object relation => exact discreet_readReference regular inMemory relation

private theorem discreet_readObject (name : String) :
    Discreet (readObject session subject name) store := by
  unfold readObject
  refine discreet_get_bind ?_
  dsimp only
  refine discreet_settleOutcome_bind fun property _ => ?_
  cases property with
  | collection relation => exact discreet_throw _
  | scalar property => exact discreet_throw _
  | object relation =>
      refine discreet_settleOutcome_bind fun _ _ => ?_
      split
      · exact discreet_pure _
      · exact discreet_pure _
      · exact discreet_pure _
      · exact discreet_throw _
      · split
        · exact discreet_pure _
        · refine discreet_bind (discreet_columnOf regular inMemory _) fun value _ => ?_
          split
          · exact discreet_pure _
          · exact discreet_bind (discreet_reference _ _) fun _ _ => discreet_pure _

end Reading

/-! ### Reading a collection -/

/-- The row that comes first is made the next instance. -/
theorem rememberLoaded_cons_ok {mapping : Mapping} {entry : Key × Row} {rest : List (Key × Row)}
    {members : List InstanceId}
    (ran : (rememberLoaded mapping (entry :: rest)).run store = (.ok members, after)) :
    ∃ later, members = store.memory.size :: later ∧
      (rememberLoaded mapping rest).run
        (store.addInstance (Instance.loaded store.id mapping entry.1 entry.2)).2
          = (.ok later, after) := by
  unfold rememberLoaded at ran
  obtain ⟨_, _, got, ran⟩ := run_bind_eq_ok.mp ran
  cases got
  obtain ⟨_, _, remembered, ran⟩ := run_bind_eq_ok.mp ran
  cases remembered
  obtain ⟨later, _, ranRest, ran⟩ := run_bind_eq_ok.mp ran
  cases ran
  exact ⟨later, rfl, ranRest⟩

theorem instanceAt_rememberLoaded {mapping : Mapping} {entries : List (Key × Row)}
    {members : List InstanceId} {subject : InstanceId} (inMemory : subject < store.memory.size)
    (ran : (rememberLoaded mapping entries).run store = (.ok members, after)) :
    after.instanceAt subject = store.instanceAt subject := by
  induction entries generalizing store members with
  | nil =>
      cases ran
      rfl
  | cons entry rest ih =>
      obtain ⟨_, _, ranRest⟩ := rememberLoaded_cons_ok ran
      refine (ih ?_ ranRest).trans ?_
      · show subject < (store.memory.push _).size
        rw [Array.size_push]
        exact Nat.lt_succ_of_lt inMemory
      · show ((store.memory.push _)[subject]?).getD _ = (store.memory[subject]?).getD _
        rw [Array.getElem?_push_lt inMemory, Array.getElem?_eq_getElem inMemory]

/-- A query that succeeds has selected rows in a unit and made instances of them. -/
theorem run_ok {prepared : Query} {parameters : Parameters} {page : Page}
    {members : List InstanceId}
    (ran : (run session prepared parameters page).run store = (.ok members, after)) :
    ∃ values mapping entries between,
      (prepared.compile session.dialect).bind parameters session.dialect = .ok values ∧
      (unit session false fun lease => do
        let rows ← query session lease (Statement.select session.dialect prepared page values)
        let entries ← settleOutcome (prepared.root.hydrateAll rows)
        return (entries, WriteSet.ofFills entries)).run store = (.ok entries, between) ∧
      (rememberLoaded mapping entries).run between = (.ok members, after) := by
  unfold run at ran
  obtain ⟨values, bound, ran⟩ := run_settleOutcome_bind_eq_ok.mp ran
  obtain ⟨mapping, between, found, ran⟩ := run_bind_eq_ok.mp ran
  obtain ⟨_, ranType, _⟩ := run_entityType prepared.root.entity store
  obtain rfl : store = between := congrArg Prod.snd (ranType.symm.trans found)
  obtain ⟨entries, between, ranUnit, ran⟩ := run_bind_eq_ok.mp ran
  refine ⟨values, mapping, entries, between, ?_, ranUnit, ran⟩
  cases bind : (prepared.compile session.dialect).bind parameters session.dialect with
  | error fault =>
      rw [bind] at bound
      cases bound
  | ok found =>
      rw [bind] at bound
      cases bound
      rfl

/-- A query that succeeds leaves the instances that were there as they looked. -/
theorem look_of_run {prepared : Query} {parameters : Parameters} {page : Page}
    {members : List InstanceId} {subject : InstanceId} (regular : store.Regular)
    (fit : prepared.root ∈ store.registry.mappings) (inMemory : subject < store.memory.size)
    (ran : (run session prepared parameters page).run store = (.ok members, after)) :
    after.look subject = store.look subject := by
  obtain ⟨values, _, _, worked, _, ranUnit, ran⟩ := run_ok ran
  have asks (lease : LeaseId) := @asks_selection _ session lease (· ∈ store.registry.mappings)
    prepared fit page values
  have silent : store.Silent worked := (read_unit regular asks).of_run ranUnit
  rw [look, instanceAt_rememberLoaded (silent.size.symm ▸ inMemory) ran]
  exact silent.look subject

private theorem gathers_collected {subject : InstanceId} {edit : Instance → Instance} {key : Key}
    (isKey : (store.instanceAt subject).key = key) (hasId : key.hasId = true)
    (kept : ∀ content, (edit content).key = content.key) :
    Gathers (· = subject) store (registerOwner key subject (store.modifyInstance edit subject)) := by
  have owns (other : InstanceId) (owner : Key)
      (owns : Owns (registerOwner key subject (store.modifyInstance edit subject)) other owner) :
      store.Owns other owner ∨ (other = subject ∧ owner = key) := by
    obtain ⟨held, isOwner⟩ := owns
    rw [show (registerOwner key subject (store.modifyInstance edit subject)).instanceAt other
      = (store.modifyInstance edit subject).instanceAt other from rfl, instanceAt_modifyInstance]
      at held isOwner
    split at held
    · rename_i both
      rw [if_pos both, kept, both.1, isKey] at isOwner
      exact Or.inr ⟨both.1, isOwner.symm⟩
    · rename_i apart
      rw [if_neg apart] at isOwner
      exact Or.inl ⟨held, isOwner⟩
  refine ⟨fun knows => ⟨fun other owner held => ?_, fun isOpen other owner held => ?_⟩,
    fun _ other owner held => (owns other owner held).imp_right And.left, fun other apart => ?_⟩
  case refine_3 =>
    refine Or.inr (congrArg Instance.collections ?_)
    show (store.modifyInstance edit subject).instanceAt other = store.instanceAt other
    rw [instanceAt_modifyInstance, if_neg fun both => apart both.1]
  · rcases owns other owner held with before | ⟨_, rfl⟩
    · exact knows.keyed other owner before
    · exact hasId
  · unfold Lists registerOwner
    rcases owns other owner held with before | ⟨rfl, rfl⟩
    · obtain ⟨members, found, isMember⟩ := knows.lists isOpen other owner before
      by_cases same : owner = key
      · subst same
        refine ⟨_, Row.lookup_place_self _ _ _, ?_⟩
        by_cases own : other = subject
        · exact List.mem_append_right _ (List.mem_singleton.mpr own)
        · refine List.mem_append_left _ (List.mem_filter.mpr ⟨?_, bne_iff_ne.mpr own⟩)
          rw [show (store.modifyInstance edit subject).owners = store.owners from rfl, found]
          exact isMember
      · exact ⟨members, (Row.lookup_place_of_ne _ _ same).trans found, isMember⟩
    · exact ⟨_, Row.lookup_place_self _ _ _, List.mem_append_right _ (List.mem_singleton.mpr rfl)⟩

def Collects (subject : InstanceId) (operation : Operation World α) (store : Store World) : Prop :=
  Ensures operation store fun outcome after =>
    Gathers (fun other => outcome.isOk = true ∧ other = subject) store after

theorem Discreet.collects {operation : Operation World α} (discreet : Discreet operation store)
    (subject : InstanceId) : Collects subject operation store :=
  discreet.weaken fun _ _ sheds => sheds.gathers _

private theorem collects_bind_same {operation : Operation World α} {next : α → Operation World β}
    {outcome : Except Error α} (ran : operation.run store = (outcome, store))
    (later : ∀ result, outcome = .ok result → Collects subject (next result) store) :
    Collects subject (operation >>= next) store := by
  apply ensures_bind
  unfold Ensures
  rw [ran]
  cases outcome with
  | ok result => exact later result rfl
  | error error => exact (Sheds.refl store).gathers _

private theorem collects_bind {operation : Operation World α} {next : α → Operation World β}
    (first : Discreet operation store)
    (later : ∀ result between, operation.run store = (.ok result, between) →
      Collects subject (next result) between) :
    Collects subject (operation >>= next) store := by
  unfold Collects Ensures
  rw [run_bind]
  rcases ran : operation.run store with ⟨outcome, between⟩
  have sheds : store.Sheds between := first.of_run ran
  cases outcome with
  | ok result => exact sheds.trans_gathers (later result between ran)
  | error error => exact sheds.gathers _

private theorem collects_readCollection {name : String} (regular : store.Regular)
    (inMemory : subject < store.memory.size) :
    Collects subject (readCollection session subject name) store := by
  unfold readCollection
  refine collects_bind_same (run_get store) ?_
  rintro _ ⟨⟩
  dsimp only
  refine collects_bind_same (run_settleOutcome _ _) fun property _ => ?_
  cases property with
  | scalar property => exact (discreet_throw _).collects _
  | object relation => exact (discreet_throw _).collects _
  | collection relation =>
      refine collects_bind_same (run_settleOutcome _ _) fun _ _ => ?_
      split
      · exact (discreet_pure _).collects _
      · exact (discreet_pure _).collects _
      · rename_i id _ keyed
        obtain ⟨_, ran, known⟩ := run_prepare relation.query store
        refine collects_bind_same ran fun prepared ok => ?_
        have fit := known prepared ok
        refine collects_bind (discreet_run regular fit _ _) fun members between ran => ?_
        have isKey := congrArg Snapshot.key (look_of_run regular fit inMemory ran)
        have hasId : (store.instanceAt subject).key.hasId = true := by
          unfold Key.hasId
          rw [keyed]
          rfl
        have gathers := @gathers_collected _ between subject (fun current =>
          { current with collections := Row.place name members current.collections }) _
          isKey hasId fun _ => rfl
        exact gathers.mono fun other same => ⟨rfl, same⟩

/-! ### Writing -/

section Writing

variable (regular : store.Regular)
include regular

private theorem discreet_save (subject : InstanceId) : Discreet (save session subject) store := by
  unfold save
  refine discreet_ensureOpen_bind (discreet_get_bind ?_)
  refine discreet_settleOutcome_bind fun graph collected => ?_
  cases graph.needsWrite with
  | false => exact discreet_pure ()
  | true =>
      have fit : ∀ planned ∈ graph.plan session.dialect, planned.content.needsWrite = true →
          planned.Fit (· ∈ store.registry.mappings) :=
        fun planned member _ => regular.sound.fit_of_plan collected member
      have asks (lease : LeaseId) := @asks_save _ session lease _ _ fit
      exact discreet_bind (discreet_unit regular asks) fun written _ => discreet_settleAll written

private theorem discreet_remove {subject : InstanceId} (inMemory : subject < store.memory.size) :
    Discreet (remove session subject) store := by
  have registered := (regular.sound.instanceAt inMemory).registered
  unfold remove
  refine discreet_ensureOpen_bind (discreet_get_bind ?_)
  dsimp only
  split
  · exact discreet_throw _
  · exact discreet_withdraw subject
  · exact discreet_throw _
  · rename_i id keyed _ _
    have asks (lease : LeaseId) := @asks_removal _ session lease
      (· ∈ store.registry.mappings) (store.instanceAt subject) registered id keyed
    exact discreet_bind (discreet_unit regular asks) fun _ _ => discreet_withdraw subject

private theorem discreet_sync : Discreet (sync session) store := by
  unfold sync
  refine discreet_get_bind ?_
  dsimp only
  exact discreet_unit regular fun lease => asks_sync fun _ member => member

private theorem discreet_drop : Discreet (drop session) store := by
  unfold drop
  refine discreet_get_bind ?_
  dsimp only
  have asks (lease : LeaseId) := @asks_drop _ session (· ∈ store.registry.mappings) lease
    store.registry.mappings.reverse
  refine discreet_bind (discreet_unit regular asks) fun names _ => ?_
  exact discreet_bind (discreet_modify (sheds_of_same rfl rfl rfl)) fun _ _ => discreet_pure names

end Writing

end Store

/-! ### Acts -/

namespace Action

variable {World : Type} {session : Session World} {store : Store World} {action : Action}

def Collects (action : Action) (subject : InstanceId) : Prop :=
  ∃ name, action = .readCollection subject name

/-- Nobody comes to hold collections but by reading one. -/
theorem gathers_perform (regular : store.Regular) (inMemory : action.InMemory store.memory.size) :
    Store.Ensures (action.perform session) store fun outcome after =>
      Store.Gathers (fun subject => outcome.isOk = true ∧ action.Collects subject) store after := by
  have discreet (sheds : Store.Discreet (action.perform session) store) :
      Store.Ensures (action.perform session) store fun outcome after =>
        Store.Gathers (fun subject => outcome.isOk = true ∧ action.Collects subject) store after :=
    sheds.weaken fun _ _ sheds => sheds.gathers _
  cases action with
  | define batch =>
      exact discreet (Store.discreet_bind (Store.discreet_define batch) fun _ _ =>
        Store.discreet_pure ())
  | sync =>
      exact discreet (Store.discreet_bind (Store.discreet_sync regular) fun _ _ =>
        Store.discreet_pure ())
  | drop =>
      exact discreet (Store.discreet_bind (Store.discreet_drop regular) fun _ _ =>
        Store.discreet_pure ())
  | create entity values =>
      refine discreet (Store.discreet_entityType_bind fun mapping _ => ?_)
      exact Store.discreet_bind (Store.discreet_createInstance mapping values) fun _ _ =>
        Store.discreet_pure ()
  | reference entity id =>
      exact discreet (Store.discreet_bind (Store.discreet_reference entity id) fun _ _ =>
        Store.discreet_pure ())
  | find entity id =>
      refine discreet (Store.discreet_entityType_bind fun mapping registered => ?_)
      exact Store.discreet_bind (Store.discreet_find regular registered id) fun _ _ =>
        Store.discreet_pure ()
  | query text parameters page =>
      obtain ⟨_, ran, known⟩ := Store.run_prepare text store
      refine discreet (Store.discreet_bind_same ran fun prepared ok => ?_)
      exact Store.discreet_bind (Store.discreet_run regular (known prepared ok) parameters page)
        fun _ _ => Store.discreet_pure ()
  | read subject name =>
      exact discreet (Store.discreet_bind (Store.discreet_read regular inMemory name) fun _ _ =>
        Store.discreet_pure ())
  | readObject subject name =>
      exact discreet (Store.discreet_bind (Store.discreet_readObject regular inMemory name)
        fun _ _ => Store.discreet_pure ())
  | readCollection subject name =>
      refine Store.ensures_bind ((Store.collects_readCollection regular inMemory).weaken
        fun outcome between gathers => ?_)
      cases outcome with
      | ok members => exact gathers.mono fun other same => ⟨rfl, name, by rw [same.2]⟩
      | error error => exact gathers.mono fun other impossible => by cases impossible.1
  | assign subject name value => exact discreet (Store.discreet_assign subject name value)
  | forgetCollections subject => exact discreet (Store.discreet_forgetCollections subject)
  | save subject => exact discreet (Store.discreet_save regular subject)
  | remove subject => exact discreet (Store.discreet_remove regular inMemory)
  | begin =>
      exact discreet ((Store.ensures_beginTransaction session store).weaken
        fun _ _ ends => ends.sheds)
  | commit =>
      exact discreet ((Store.ensures_commitTransaction fun _ inside =>
        regular.leased.connection inside).weaken fun _ _ ends => ends.sheds)
  | rollback =>
      exact discreet ((Store.ensures_rollbackTransaction fun _ inside =>
        regular.leased.connection inside).weaken fun _ _ ends => ends.sheds)
  | clearCache => exact discreet (Store.discreet_modify (Store.sheds_of_same rfl rfl rfl))
  | close =>
      obtain ⟨after, ends, ran⟩ := Store.run_close session store
      refine discreet ?_
      unfold Store.Discreet Store.Ensures
      rw [show (Action.close.perform session).run store = (.ok (), after) from ran]
      exact ends.sheds

end Action

namespace Deployment

variable {World : Type} {deployment : Deployment World} {store after : Store World}
  {allowed : Store World → ThreadId → Action → Prop} {acts : List (Act World)}

theorem Reached.knowsOwners (reached : deployment.Reached allowed store) : store.KnowsOwners := by
  induction reached with
  | created created =>
      obtain ⟨pool, _, rfl⟩ := create_ok created
      exact ⟨fun _ _ owns => absurd rfl owns.held, fun _ _ _ owns => absurd rfl owns.held⟩
  | acted reached _ inMemory ran ih =>
      exact ((Action.gathers_perform reached.regular inMemory).of_run ran).knows ih

theorem Run.knowsOwners (run : deployment.Run store acts after) (regular : store.Regular)
    (knows : store.KnowsOwners) : after.KnowsOwners := by
  induction run with
  | nil store => exact knows
  | cons inMemory ran _ ih =>
      exact ih (((Action.follows_perform regular inMemory).of_run ran).regular regular)
        (((Action.gathers_perform regular inMemory).of_run ran).knows knows)

/-- Whoever holds collections after a run held them before, or has read one meanwhile. -/
theorem Run.owns (run : deployment.Run store acts after) (regular : store.Regular)
    (knows : store.KnowsOwners) {subject : InstanceId} {key : Key} (owns : after.Owns subject key) :
    store.Owns subject key ∨ ∃ earlier act later, acts = earlier ++ act :: later ∧
      act.action.Collects subject ∧ ¬(left store earlier).Owns subject key ∧
      act.after.Owns subject key := by
  induction run with
  | nil store => exact Or.inl owns
  | @cons store between after other action outcome rest inMemory ran _ ih =>
      have gathers := (Action.gathers_perform regular inMemory).of_run ran
      rcases ih (((Action.follows_perform regular inMemory).of_run ran).regular regular)
        (gathers.knows knows) owns with held | ⟨earlier, act, later, rfl, collects, before, reads⟩
      · by_cases holds : store.Owns subject key
        · exact Or.inl holds
        · have collects := (gathers.owns knows subject key held).resolve_left holds
          exact Or.inr ⟨[], _, rest, rfl, collects.2, holds, held⟩
      · exact Or.inr ⟨⟨other, action, outcome, between⟩ :: earlier, act, later, rfl, collects,
          before, reads⟩

end Deployment
end EntityStore
