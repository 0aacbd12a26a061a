/-
Instances that share a key. A saved instance that nobody has changed reads its row, which it
knows or loads. Where rows stay current, two such instances of one key read alike: one may know
a value as it was written and the other as the database gave it back, but both agree with what
is held.
-/

import EntityStore.Proofs.CurrentRows

set_option autoImplicit false

namespace EntityStore

/-! ### Properties of saved instances -/

inductive Reading where
  | known (outcome : Except Error Value)
  | column (name : String) (form : Value → Value)

def Key.idValue (key : Key) : Value :=
  match key.id with
  | some id => .integer id
  | none => .null

def Mapping.reading (mapping : Mapping) (key : Key) (name : String) : Reading :=
  if name = idProperty then .known (.ok key.idValue)
  else
    match mapping.property? name with
    | none => .known (.error (.unknownProperty mapping.entity name))
    | some (.collection _) => .known (.error (.invalidState (.readsCollection mapping.entity name)))
    | some (.scalar property) => .column property.column property.type.normalize
    | some (.object relation) => .column relation.column fun value => value

theorem Mapping.mem_columns_of_reading {mapping : Mapping} {key : Key} {name column : String}
    {form : Value → Value} (reads : mapping.reading key name = .column column form) :
    column ∈ mapping.columns := by
  unfold reading at reads
  split at reads
  · cases reads
  · have declared {property : Property} (found : mapping.property? name = some property) :
        property ∈ mapping.properties := List.mem_of_find?_eq_some found
    split at reads
    · cases reads
    · cases reads
    · rename_i property found
      cases reads
      exact List.mem_cons_of_mem _ (List.mem_filterMap.mpr ⟨_, declared found, rfl⟩)
    · rename_i relation found
      cases reads
      exact List.mem_cons_of_mem _ (List.mem_filterMap.mpr ⟨_, declared found, rfl⟩)

namespace Layout

variable {layout : Layout} {mapping : Mapping} {contents : Contents} {key : Key}
  {reading : Reading} {left right : Except Error Value}

inductive Tells (layout : Layout) (mapping : Mapping) (contents : Contents) (key : Key) :
    Except Error Row → Prop where
  | found {row : Row} : layout.Finds mapping contents key (some row) →
      Tells layout mapping contents key (.ok row)
  | missing : layout.Finds mapping contents key none →
      Tells layout mapping contents key (.error (.notFound key))

inductive Reads (layout : Layout) (mapping : Mapping) (contents : Contents) (key : Key) :
    Reading → Except Error Value → Prop where
  | known (outcome : Except Error Value) :
      Reads layout mapping contents key (.known outcome) outcome
  | column {name : String} {form : Value → Value} {outcome : Except Error Row} :
      layout.Tells mapping contents key outcome →
      Reads layout mapping contents key (.column name form)
        (outcome.map fun row => form ((row.get? name).getD .null))

def Alike (layout : Layout) (left right : Value) : Prop :=
  ∃ first ∈ [left, layout.stored left], ∃ second ∈ [right, layout.stored right],
    first.Alike second

theorem Agree.stands {value held : Value} (agree : layout.Agree value held) :
    ∃ form ∈ [value, layout.stored value], form.Alike held := by
  rcases agree with plain | stored
  · exact ⟨value, by simp, plain⟩
  · exact ⟨layout.stored value, by simp, stored⟩

/-- Values that agree with the same one are alike. -/
theorem Agree.alike {left right held : Value} (leftAgrees : layout.Agree left held)
    (rightAgrees : layout.Agree right held) : layout.Alike left right := by
  obtain ⟨first, isFirst, firstAlike⟩ := leftAgrees.stands
  obtain ⟨second, isSecond, secondAlike⟩ := rightAgrees.stands
  exact ⟨first, isFirst, second, isSecond, firstAlike.trans secondAlike.symm⟩

inductive ReadAlike (layout : Layout) :
    Reading → Except Error Value → Except Error Value → Prop where
  | same (reading : Reading) (outcome : Except Error Value) :
      ReadAlike layout reading outcome outcome
  | values {name : String} {form : Value → Value} {left right : Value} :
      layout.Alike left right →
      ReadAlike layout (.column name form) (.ok (form left)) (.ok (form right))

theorem Reads.alike (keyed : key.id.isSome = true)
    (known : ∀ column form, reading = .column column form → column ∈ mapping.columns)
    (first : layout.Reads mapping contents key reading left)
    (second : layout.Reads mapping contents key reading right) :
    layout.ReadAlike reading left right := by
  obtain ⟨id, isId⟩ := Option.isSome_iff_exists.mp keyed
  cases first with
  | known outcome =>
      cases second
      exact .same _ _
  | @column name form outcome tells =>
      obtain _ | tellsToo := second
      cases tells with
      | missing missing =>
          cases tellsToo with
          | missing _ => exact .same _ _
          | found finds =>
              obtain ⟨other, fields, isOther, found, _⟩ := finds
              exact nomatch (missing other isOther).symm.trans found
      | found finds =>
          obtain ⟨other, fields, isOther, found, agrees⟩ := finds
          cases tellsToo with
          | missing missing => exact nomatch (missing other isOther).symm.trans found
          | found findsToo =>
              obtain ⟨another, fieldsToo, isAnother, foundToo, agreesToo⟩ := findsToo
              obtain rfl : other = another := Option.some.inj (isOther.symm.trans isAnother)
              obtain rfl : fields = fieldsToo := Option.some.inj (found.symm.trans foundToo)
              have member := known name form rfl
              obtain ⟨leftValue, isLeft, leftAgrees⟩ := agrees name member
              obtain ⟨rightValue, isRight, rightAgrees⟩ := agreesToo name member
              simp only [Except.map, isLeft, isRight, Option.getD_some]
              exact .values (leftAgrees.alike rightAgrees)

end Layout

namespace Store

variable {World : Type} {layout : Layout} {session : Session World}
  {faithful : Faithful layout session.database} {store after : Store World}
  {subject : InstanceId} {name : String}

theorem inMemory_of_clean (clean : (store.instanceAt subject).state = .clean) :
    subject < store.memory.size :=
  inMemory_of_present (by rw [clean]; exact nofun)

/-- A saved instance that nobody has changed reads as its type says. -/
theorem run_read (clean : (store.instanceAt subject).state = .clean)
    (visible : (store.instanceAt subject).vanished = false)
    (settled : (store.instanceAt subject).pending = []) :
    (read session subject name).run store =
      match (store.instanceAt subject).mapping.reading (store.instanceAt subject).key name with
      | .known outcome => (outcome, store)
      | .column column form =>
          (do return form (← columnOf session subject column) : Operation World Value).run
            store := by
  have usable : (store.instanceAt subject).checkUsable = .ok () := by
    simp [Instance.checkUsable, clean, visible]
  have old : (store.instanceAt subject).isNew = false := by
    simp [Instance.isNew, clean]
  unfold read Mapping.reading
  rw [run_bind, run_get]
  simp only
  split
  · rfl
  rw [run_bind, run_settleOutcome]
  unfold Instance.property
  cases found : (store.instanceAt subject).mapping.property? name with
  | none => rfl
  | some property =>
      simp only
      rw [run_bind, run_settleOutcome, usable]
      cases property with
      | collection relation => rfl
      | scalar property =>
          simp only [readScalar]
          rw [run_bind, run_get]
          simp only [settled, List.lookup_nil, old, Bool.false_eq_true, ↓reduceIte]
      | object relation =>
          simp only [readReference]
          rw [run_bind, run_get]
          simp only [settled, List.lookup_nil, old, Bool.false_eq_true, ↓reduceIte, bind_pure]

def Unloadable (session : Session World) (store : Store World) (subject : InstanceId)
    (error : Error) : Prop :=
  (store.instanceAt subject).row = none ∧
    ∃ after, (loadRow session (store.instanceAt subject).mapping (store.instanceAt subject).key).run
      store = (.error error, after)

structure LeavesOthers (faithful : Faithful layout session.database) (subject : InstanceId)
    (store after : Store World) : Prop where
  extent : after.extent = store.extent
  inside : after.inTransaction session.thread = store.inTransaction session.thread
  view : after.view faithful session.thread = store.view faithful session.thread
  others : ∀ other, other ≠ subject → after.look other = store.look other ∧
    (after.instanceAt other).vanished = (store.instanceAt other).vanished

theorem LeavesOthers.refl (subject : InstanceId) (store : Store World) :
    LeavesOthers faithful subject store store :=
  ⟨rfl, rfl, rfl, fun _ _ => ⟨rfl, rfl⟩⟩

theorem LeavesOthers.modify (leaves : LeavesOthers faithful subject store after)
    (edit : Instance → Instance) :
    LeavesOthers faithful subject store (after.modifyInstance edit subject) := by
  refine ⟨?_, leaves.inside, leaves.view, fun other apart => ?_⟩
  · unfold Store.extent
    rw [size_modifyInstance]
    exact leaves.extent
  unfold look
  rw [instanceAt_modifyInstance, if_neg fun both => apart both.1]
  exact leaves.others other apart

theorem extent_loadRow {mapping : Mapping} {key : Key} (regular : store.Regular)
    (registered : mapping ∈ store.registry.mappings) :
    Ensures (loadRow session mapping key) store fun _ after => after.extent = store.extent := by
  unfold loadRow Ensures
  rw [run_bind, run_ensureOpen]
  cases isOpen : store.isOpen with
  | false => rfl
  | true =>
      simp only [↓reduceIte]
      rw [run_bind, run_cachedRow]
      dsimp only
      cases (store.cache.get key).1 with
      | some row => rfl
      | none =>
          have asks (lease : LeaseId) := @asks_sought _ session mapping
            (· ∈ store.registry.mappings) lease registered key
          show Ensures _ _ fun _ after => after.extent = store.extent
          exact (ensures_unit asks fun _ inside =>
            (regular.looked key).leased.connection inside).weaken fun _ _ ends => ends.extent

section Reading

variable (current : store.Current faithful session.thread) (regular : store.Regular)
  (orderly : store.Orderly faithful)
  (fits : ∀ mapping ∈ store.registry.mappings, layout.Fits mapping)
  (clean : (store.instanceAt subject).state = .clean)
  (visible : (store.instanceAt subject).vanished = false)
include current regular orderly fits clean visible

/-- The row of a saved instance is the one that is held, or none is held, unless it cannot be
loaded. -/
theorem tells_rowOf : Ensures (rowOf session subject) store fun outcome after =>
    (∃ error, outcome = .error error ∧ store.Unloadable session subject error) ∨
      (layout.Tells (store.instanceAt subject).mapping (store.view faithful session.thread)
        (store.instanceAt subject).key outcome ∧ LeavesOthers faithful subject store after) := by
  have present : (store.instanceAt subject).state ≠ .removed := by
    rw [clean]
    exact nofun
  have content := regular.sound.instanceAt (inMemory_of_clean clean)
  unfold Ensures rowOf
  rw [run_bind, run_get]
  simp only [visible, Bool.false_eq_true, ↓reduceIte]
  cases known : (store.instanceAt subject).row with
  | some row =>
      exact Or.inr ⟨.found (finds_of_row regular.sound current.rows present known), .refl _ _⟩
  | none =>
      have cached (row : Row) (isShown : store.cache.Shows (store.instanceAt subject).key row) :=
        (current.cached.reflects _ row isShown).finds regular.sound.registry content.registered
          content.sound.entity
      have gaining : Gaining faithful (fun _ _ => True) (loadRow session
          (store.instanceAt subject).mapping (store.instanceAt subject).key) store :=
        gaining_loadRow regular orderly fits content.registered content.sound.entity
      simp only
      rw [run_bind]
      generalize ran : (loadRow session (store.instanceAt subject).mapping
        (store.instanceAt subject).key).run store = result
      obtain ⟨outcome, between⟩ := result
      cases outcome with
      | error error => exact Or.inl ⟨error, rfl, known, between, ran⟩
      | ok found =>
          have silent : store.Silent between :=
            (read_loadRow regular content.registered _).of_run ran
          have told : layout.Finds (store.instanceAt subject).mapping
              (store.view faithful session.thread) (store.instanceAt subject).key found :=
            (finds_loadRow regular orderly fits content.registered cached).of_run ran found rfl
          have leaves : LeavesOthers faithful subject store between := by
            obtain gains | ⟨impossible, _⟩ := gaining.of_run ran
            · exact ⟨(extent_loadRow regular content.registered).of_run ran, gains.inside,
                gains.sees, fun other _ => ⟨silent.look other, silent.vanished other⟩⟩
            · cases impossible
          cases found with
          | some row =>
              exact Or.inr ⟨.found told,
                leaves.modify fun content => { content with row := some row }⟩
          | none =>
              exact Or.inr ⟨.missing told,
                leaves.modify fun content => { content with vanished := true }⟩

private theorem reads_of_clean : Ensures (read session subject name) store fun outcome after =>
    (∃ error, outcome = .error error ∧ store.Unloadable session subject error) ∨
      (layout.Reads (store.instanceAt subject).mapping (store.view faithful session.thread)
        (store.instanceAt subject).key
        ((store.instanceAt subject).mapping.reading (store.instanceAt subject).key name) outcome ∧
        LeavesOthers faithful subject store after) := by
  have content := regular.sound.instanceAt (inMemory_of_clean clean)
  have tells := tells_rowOf current regular orderly fits clean visible
  unfold Ensures at tells ⊢
  rw [run_read clean visible (content.sound.settled clean)]
  cases (store.instanceAt subject).mapping.reading (store.instanceAt subject).key name with
  | known outcome => exact Or.inr ⟨.known outcome, .refl _ _⟩
  | column column form =>
      simp only [columnOf, bind_assoc]
      rw [run_bind]
      rcases ran : (rowOf session subject).run store with ⟨outcome, after⟩
      rw [ran] at tells
      rcases tells with ⟨error, rfl, unloadable⟩ | ⟨tells, leaves⟩
      · exact Or.inl ⟨error, rfl, unloadable⟩
      · refine Or.inr ?_
        cases outcome with
        | ok row => exact ⟨.column tells, leaves⟩
        | error error => exact ⟨.column tells, leaves⟩

end Reading

end Store

/-! ### Runs -/

namespace Samples

def paired : List (ThreadId × Action) := settled 0 ++ [
  (0, .begin), (0, person "Ada"), (0, .save 0), (0, .commit), (0, .reference "Person" 1)]

end Samples

namespace Deployment

variable {World : Type} {layout : Layout} {deployment : Deployment World}
  {faithful : Faithful layout deployment.database} {thread : ThreadId}
  {store between after : Store World} {first second : InstanceId} {name : String}
  {outcome other : Except Error Value}

/-- A property reads the same on two saved instances of one key that nobody has changed, up to
the form in which the database holds a value, unless the row of one of them cannot be loaded.
One thread acts; what it saves or removes is the only instance of its key that knows a row, and
its transactions end by commits. -/
theorem same_key_reads_same (rest : faithful.AtRest deployment.world)
    (keyed : layout.Keyed (faithful.published deployment.world))
    (reached : deployment.Reached (Solely faithful thread) store)
    (fits : ∀ mapping ∈ store.registry.mappings, layout.Fits mapping)
    (separates : layout.Separates (· ∈ store.registry.mappings)) (apart : second ≠ first)
    (firstClean : (store.instanceAt first).state = .clean)
    (secondClean : (store.instanceAt second).state = .clean)
    (firstVisible : (store.instanceAt first).vanished = false)
    (secondVisible : (store.instanceAt second).vanished = false)
    (sameKey : (store.instanceAt second).key = (store.instanceAt first).key)
    (ranFirst : (Store.read (deployment.session thread) first name).run store = (outcome, between))
    (ranSecond : (Store.read (deployment.session thread) second name).run between
      = (other, after)) :
    (∃ error, outcome = .error error ∧
        store.Unloadable (deployment.session thread) first error) ∨
      (∃ error, other = .error error ∧
        between.Unloadable (deployment.session thread) second error) ∨
      layout.ReadAlike ((store.instanceAt first).mapping.reading (store.instanceAt first).key name)
        outcome other := by
  have regular := reached.regular
  have sound := regular.sound
  have firstInMemory := Store.inMemory_of_clean firstClean
  have firstSound := sound.instanceAt firstInMemory
  have readFirst := (Store.reads_of_clean (reached.current rest keyed fits separates) regular
    (reached.orderly rest fits) fits firstClean firstVisible).of_run ranFirst
  rcases readFirst with refused | ⟨reads, leaves⟩
  · exact Or.inl refused
  right
  -- The first reading is an act that has left the other instance alone.
  have ran : ((Action.read first name).perform (deployment.session thread)).run store
      = (outcome.map fun _ => (), between) := by
    show (Store.read (deployment.session thread) first name >>= fun _ => pure ()).run store = _
    rw [Store.run_bind, ranFirst]
    cases outcome <;> rfl
  have concludes : (Action.read first name).Concludes (deployment.session thread) store := by
    unfold Action.Concludes Store.Ensures
    rw [ran]
    exact fun inside => Or.inl (leaves.inside.trans inside)
  have reachedBetween : deployment.Reached (Solely faithful thread) between :=
    .acted reached
      ⟨rfl, show (Action.read first name).Solely faithful thread store from trivial, concludes⟩
      firstInMemory ran
  have sameRegistry : between.registry = store.registry := congrArg Prod.fst leaves.extent
  have fitsBetween : ∀ mapping ∈ between.registry.mappings, layout.Fits mapping := by
    rw [sameRegistry]
    exact fits
  have separatesBetween : layout.Separates (· ∈ between.registry.mappings) := by
    rw [sameRegistry]
    exact separates
  obtain ⟨look, vanished⟩ := leaves.others second apart
  have keyBetween : (between.instanceAt second).key = (store.instanceAt first).key :=
    (congrArg Snapshot.key look).trans sameKey
  have cleanBetween : (between.instanceAt second).state = .clean :=
    (congrArg Snapshot.state look).trans secondClean
  have secondBetween := reachedBetween.regular.sound.instanceAt
    (Store.inMemory_of_clean cleanBetween)
  have typeBetween : (between.instanceAt second).mapping = (store.instanceAt first).mapping := by
    refine sound.registry.unique (sameRegistry ▸ secondBetween.registered) firstSound.registered ?_
    exact secondBetween.sound.entity.symm.trans
      ((congrArg Key.entityType keyBetween).trans firstSound.sound.entity)
  have readSecond := (Store.reads_of_clean
    (reachedBetween.current rest keyed fitsBetween separatesBetween) reachedBetween.regular
    (reachedBetween.orderly rest fitsBetween) fitsBetween cleanBetween
    (vanished.trans secondVisible)).of_run ranSecond
  rcases readSecond with refused | ⟨readsToo, _⟩
  · exact Or.inl refused
  right
  rw [typeBetween, keyBetween, leaves.view] at readsToo
  exact reads.alike (firstSound.sound.keyed (Or.inl firstClean))
    (fun _ _ => Mapping.mem_columns_of_reading) readsToo

set_option maxRecDepth 100000 in
/-- The instance with which Ada was saved knows her name, and another one of her key loads it. -/
theorem same_key_reads_same_ada : ∃ store between after : Store Tables.World,
    Samples.deployment.Reached (Solely Samples.faithful 0) store ∧
      (store.instanceAt 0).row.isSome = true ∧ (store.instanceAt 1).row.isSome = false ∧
      (store.instanceAt 1).key = (store.instanceAt 0).key ∧
      (Store.read (Samples.deployment.session 0) 0 "name").run store
        = (.ok (.text "Ada"), between) ∧
      (Store.read (Samples.deployment.session 0) 1 "name").run between
        = (.ok (.text "Ada"), after) ∧
      (Tables.layout fun _ => "id").ReadAlike
        ((store.instanceAt 0).mapping.reading (store.instanceAt 0).key "name")
        (.ok (.text "Ada")) (.ok (.text "Ada")) := by
  have outside : ∀ count ∈ [0, 1, 2, 6],
      ∀ store ∈ Samples.deployment.visited? (Samples.paired.take count),
      store.inTransaction 0 = false := by
    decide +kernel
  have new : ∀ store ∈ Samples.deployment.visited? (Samples.paired.take 4),
      (store.instanceAt 0).state = .transient ∧
        (Node.ofMemory store.memory 0).content.targets = [] := by
    decide +kernel
  have inside : ∀ entry ∈ [(3, Samples.person "Ada"), (4, .save 0)],
      ∀ store ∈ Samples.deployment.visited? (Samples.paired.take entry.1),
      (((entry.2 : Action).perform (Samples.deployment.session 0)).run store).2.inTransaction 0
        = true := by
    decide +kernel
  have committed : ∀ store ∈ Samples.deployment.visited? (Samples.paired.take 5),
      (((.commit : Action).perform (Samples.deployment.session 0)).run store).1.isOk = true := by
    decide +kernel
  obtain ⟨store, visited, facts⟩ := (Option.any_eq_true _ _).mp (show
      (Samples.deployment.visited? Samples.paired).any (fun store =>
        let first := (Store.read (Samples.deployment.session 0) 0 "name").run store
        let second := (Store.read (Samples.deployment.session 0) 1 "name").run first.2
        decide (
        (store.instanceAt 0).row.isSome = true ∧ (store.instanceAt 1).row.isSome = false ∧
        (store.instanceAt 0).state = .clean ∧ (store.instanceAt 1).state = .clean ∧
        (store.instanceAt 0).vanished = false ∧ (store.instanceAt 1).vanished = false ∧
        (store.instanceAt 1).key = (store.instanceAt 0).key ∧
        first.1.toOption = some (.text "Ada") ∧ second.1.toOption = some (.text "Ada") ∧
        (∀ mapping ∈ store.registry.mappings, (Tables.layout fun _ => "id").column
          mapping.id.column = (Tables.layout fun _ => "id").column "id") ∧
        ∀ first ∈ store.registry.mappings, ∀ second ∈ store.registry.mappings,
          first = second)) = true by decide +kernel)
  obtain ⟨known, unknown, firstClean, secondClean, firstVisible, secondVisible, sameKey, isFirst,
    isSecond, keyColumns, single⟩ := of_decide_eq_true facts
  have opened (store : Store Tables.World) (visited : Samples.deployment.visited? [] = some store) :
      Samples.deployment.Reached (Solely Samples.faithful 0) store :=
    reached_visited (fun _ _ _ member => by cases member) visited
  have defined := @reached_snoc _ _ _ _ 0 (.define Samples.people) opened fun store visited =>
    ⟨rfl, trivial, Action.concludes_of_outside (outside 0 (by decide) store visited)⟩
  have synced := @reached_snoc _ _ _ _ 0 .sync defined fun store visited =>
    ⟨rfl, trivial, Action.concludes_of_outside (outside 1 (by decide) store visited)⟩
  have begun := @reached_snoc _ _ _ _ 0 .begin synced fun store visited =>
    ⟨rfl, trivial, Action.concludes_of_outside (outside 2 (by decide) store visited)⟩
  have created := @reached_snoc _ _ _ _ 0 (Samples.person "Ada") begun fun store visited =>
    ⟨rfl, trivial, fun _ => Or.inl (inside (3, Samples.person "Ada") (by simp) store visited)⟩
  have saved := @reached_snoc _ _ _ _ 0 (.save 0) created fun store visited =>
    ⟨rfl, Store.savesAlone_of_new (new store visited).1 (new store visited).2,
      fun _ => Or.inl (inside (4, .save 0) (by simp) store visited)⟩
  have ended := @reached_snoc _ _ _ _ 0 .commit saved fun store visited =>
    ⟨rfl, trivial, fun _ => Or.inr ⟨rfl, committed store visited⟩⟩
  have reached : Samples.deployment.Reached (Solely Samples.faithful 0) store :=
    @reached_snoc _ _ _ _ 0 (.reference "Person" 1) ended (fun store visited =>
      ⟨rfl, trivial, Action.concludes_of_outside (outside 6 (by decide) store visited)⟩) store
      visited
  generalize ranFirst : (Store.read (Samples.deployment.session 0) 0 "name").run store = read
    at isFirst isSecond
  obtain ⟨_ | value, between⟩ := read
  · cases isFirst
  cases isFirst
  generalize ranSecond : (Store.read (Samples.deployment.session 0) 1 "name").run between = read
    at isSecond
  obtain ⟨_ | value, after⟩ := read
  · cases isSecond
  cases isSecond
  refine ⟨store, between, after, reached, known, unknown, sameKey, ranFirst, ranSecond, ?_⟩
  have alike := same_key_reads_same (Tables.atRest_empty _ _)
    (fun _ _ _ impossible => by cases impossible) reached (fun mapping member =>
      ⟨reached.regular.sound.registry.mappings mapping member, keyColumns mapping member⟩)
    (fun first second isFirst isSecond _ => single first isFirst second isSecond) (by decide)
    firstClean secondClean firstVisible secondVisible sameKey ranFirst ranSecond
  rcases alike with ⟨_, impossible, _⟩ | ⟨_, impossible, _⟩ | alike
  · cases impossible
  · cases impossible
  · exact alike

end Deployment
end EntityStore
