/-
Values are never part of a text that is sent. Queries of one shape are sent as one text;
saves insert by the same texts where memory has the same shape, whatever is assigned and
whatever the ids are; and what removes or loads a row is sent as a text of its mapping.
-/

import EntityStore.Proofs.QueryShapes
import EntityStore.Proofs.Runs
import EntityStore.Proofs.SentTexts

set_option autoImplicit false

namespace EntityStore

namespace Store

structure Alike {World World' : Type} (store : Store World) (other : Store World') : Prop where
  id : store.id = other.id
  memory : store.memory.map Instance.shape = other.memory.map Instance.shape

def insertTexts {World : Type} (dialect : Dialect) (store : Store World) (root : InstanceId) :
    List String :=
  match Graph.collect store.id (store.memory.map Instance.shape) root with
  | .ok graph => planTexts dialect (graph.plan dialect)
  | .error _ => []

theorem Alike.insertTexts {World World' : Type} {store : Store World} {other : Store World'}
    (alike : store.Alike other) (dialect : Dialect) (root : InstanceId) :
    store.insertTexts dialect root = other.insertTexts dialect root := by
  unfold Store.insertTexts
  rw [alike.id, alike.memory]

private theorem planTexts_of_collect {World : Type} {store : Store World} {root : InstanceId}
    {graph : Graph} (collected : Graph.collect store.id store.memory root = .ok graph)
    (dialect : Dialect) :
    planTexts dialect (graph.plan dialect) = store.insertTexts dialect root := by
  unfold insertTexts
  rw [Graph.collect_shape collected]
  refine planTexts_congr_shape ?_ dialect
  rw [List.map_map]
  exact List.map_congr_left fun node _ => node.shape_shape.symm

end Store

namespace Deployment

open Store

variable {World World' : Type} {inner : Deployment World} {inner' : Deployment World'}
  {allowed : Store (Traced World) → ThreadId → Action → Prop}
  {allowed' : Store (Traced World') → ThreadId → Action → Prop}
  {store : Store (Traced World)} {other : Store (Traced World')}

/-- Of two stores with the same dialect: queries that differ in literals other than null and
in names of parameters are sent as the same text, whatever they are given. Where the stores
are alike, saves insert by the same texts. Of loading and removing a row the texts are those
of the mapping, whatever the id. -/
theorem texts_without_values (sameDialect : inner.dialect = inner'.dialect)
    (reached : inner.traced.Reached allowed store)
    (otherReached : inner'.traced.Reached allowed' other) (thread thread' : ThreadId) :
    (∀ (text text' : String) (query query' : Query),
      Query.parse store.registry.mapping? text = .ok query →
      Query.parse other.registry.mapping? text' = .ok query' →
      query.shape = query'.shape → ∀ page : Page, ∃ sql : String,
        (inner.dialect.paging page).text (query.compile inner.dialect).text = sql ∧
        (inner'.dialect.paging page).text (query'.compile inner'.dialect).text = sql ∧
        ∀ parameters parameters' : Parameters,
          Ensures (run (inner.traced.session thread) query parameters page) store
            (store.Prolongs (Sent Deed.text? [sql])) ∧
          Ensures (run (inner'.traced.session thread') query' parameters' page) other
            (other.Prolongs (Sent Deed.text? [sql]))) ∧
    (store.Alike other → ∀ root : InstanceId, ∃ texts : List String,
      Ensures (save (inner.traced.session thread) root) store
        (store.Prolongs (Sent Deed.insertText? texts)) ∧
      Ensures (save (inner'.traced.session thread') root) other
        (other.Prolongs (Sent Deed.insertText? texts))) ∧
    (∀ subject : InstanceId,
      Ensures (remove (inner.traced.session thread) subject) store
        (store.Prolongs (Sent Deed.text?
          (removalTexts inner.dialect (store.instanceAt subject)))) ∧
      Ensures (rowOf (inner.traced.session thread) subject) store
        (store.Prolongs (Sent Deed.text?
          (loadTexts inner.dialect (store.instanceAt subject).mapping
            ((store.instanceAt subject).row.isSome ||
              ((store.cache.get (store.instanceAt subject).key).1.isSome ||
                (store.instanceAt subject).key.id.isNone)))))) ∧
    ∀ (mapping : Mapping) (id : Int64),
      Ensures (find (inner.traced.session thread) mapping id) store
        (store.Prolongs (Sent Deed.text? (loadTexts inner.dialect mapping
          (store.cache.get (Key.withId mapping.entity id)).1.isSome))) := by
  have leased := reached.regular.leased
  have otherLeased := otherReached.regular.leased
  refine ⟨fun text text' query query' _ _ sameShape page => ?_, fun alike root => ?_,
    fun subject => ⟨sent_remove leased subject, sent_rowOf leased subject⟩, sent_find leased⟩
  · have same : (query'.compile inner'.dialect).text = (query.compile inner.dialect).text := by
      rw [← sameDialect]
      exact Query.text_congr_shape sameShape.symm inner.dialect
    refine ⟨_, rfl, ?_, fun parameters parameters' => ⟨sent_run leased _ _ _, ?_⟩⟩
    · rw [same, sameDialect]
    · have sent := @sent_run _ inner' thread' _ otherLeased query' parameters' page
      rw [same, ← sameDialect] at sent
      exact sent
  · refine ⟨store.insertTexts inner.dialect root, sent_save leased fun graph collected => ?_,
      sent_save otherLeased fun graph collected => ?_⟩
    · exact planTexts_of_collect collected inner.dialect
    · rw [planTexts_of_collect collected, ← sameDialect]
      exact (alike.insertTexts inner.dialect root).symm

end Deployment

namespace Samples

def newFriends (first second : String) : List (ThreadId × Action) := settled 0 ++ [
  (0, person first),
  (0, .create "Person" [("name", .value (.text second)), ("friend", .entity 0)]),
  (0, .assign 0 "friend" (.entity 1))]

def unfriendly : String := "from Person where name = 'Ada' and friend <> :friend"

/-- Asks for the same with another name, which looks like a part of a statement. -/
def injected : String := "from Person where name = 'x'' OR ''1'' = ''1' and friend <> :enemy"

end Samples

namespace Deployment

open Store

set_option maxRecDepth 100000 in
/-- A name that closes a literal and goes on with a statement of its own changes neither the
text of a query nor those of the insertions. -/
theorem texts_without_values_injected :
    ∃ (store other : Store (Traced Tables.World)) (query query' : Query),
      Query.parse store.registry.mapping? Samples.unfriendly = .ok query ∧
      Query.parse other.registry.mapping? Samples.injected = .ok query' ∧
      query ≠ query' ∧ query.shape = query'.shape ∧
      store.memory ≠ other.memory ∧ store.Alike other ∧
      (∃ sql, (Samples.deployment.dialect.paging ⟨some 5, none⟩).text
          (query.compile Samples.deployment.dialect).text = sql ∧
        (Samples.deployment.dialect.paging ⟨some 5, none⟩).text
          (query'.compile Samples.deployment.dialect).text = sql) ∧
      ∃ texts : List String,
        Ensures (save (Samples.deployment.traced.session 0) 0) store
          (store.Prolongs (Sent Deed.insertText? texts)) ∧
        Ensures (save (Samples.deployment.traced.session 0) 0) other
          (other.Prolongs (Sent Deed.insertText? texts)) := by
  obtain ⟨store, visited⟩ : ∃ store,
      Samples.deployment.traced.visited? (Samples.newFriends "Ada" "Bo") = some store :=
    Option.isSome_iff_exists.mp (by decide +kernel)
  obtain ⟨other, otherVisited⟩ : ∃ other,
      Samples.deployment.traced.visited?
        (Samples.newFriends "'); DROP TABLE person; --" "") = some other :=
    Option.isSome_iff_exists.mp (by decide +kernel)
  have facts : ∀ store ∈ Samples.deployment.traced.visited? (Samples.newFriends "Ada" "Bo"),
      ∀ other ∈ Samples.deployment.traced.visited?
        (Samples.newFriends "'); DROP TABLE person; --" ""),
      ∀ query ∈ (Query.parse store.registry.mapping? Samples.unfriendly).toOption,
      ∀ query' ∈ (Query.parse other.registry.mapping? Samples.injected).toOption,
        query ≠ query' ∧ query.shape = query'.shape ∧ store.memory ≠ other.memory ∧
        store.id = other.id ∧
        store.memory.map Instance.shape = other.memory.map Instance.shape := by
    decide +kernel
  have reads : ∀ store ∈ Samples.deployment.traced.visited? (Samples.newFriends "Ada" "Bo"),
      (Query.parse store.registry.mapping? Samples.unfriendly).toOption.isSome = true := by
    decide +kernel
  have readsOther : ∀ other ∈ Samples.deployment.traced.visited?
      (Samples.newFriends "'); DROP TABLE person; --" ""),
      (Query.parse other.registry.mapping? Samples.injected).toOption.isSome = true := by
    decide +kernel
  obtain ⟨query, parsed⟩ := Option.isSome_iff_exists.mp (reads store visited)
  obtain ⟨query', parsed'⟩ := Option.isSome_iff_exists.mp (readsOther other otherVisited)
  obtain ⟨different, sameShape, apart, sameId, sameMemory⟩ :=
    facts store visited other otherVisited query parsed query' parsed'
  rw [toOption_eq_some] at parsed parsed'
  have reached := Deployment.reached_visited (fun _ _ _ _ => trivial) visited
  have otherReached := Deployment.reached_visited (fun _ _ _ _ => trivial) otherVisited
  have alike : store.Alike other := ⟨sameId, sameMemory⟩
  obtain ⟨queries, saves, _⟩ := texts_without_values rfl reached otherReached 0 0
  obtain ⟨sql, first, second, _⟩ := queries _ _ query query' parsed parsed' sameShape ⟨some 5, none⟩
  exact ⟨store, other, query, query', parsed, parsed', different, sameShape, apart, alike,
    ⟨sql, first, second⟩, saves alike 0⟩

end Deployment
end EntityStore
