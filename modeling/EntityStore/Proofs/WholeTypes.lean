/-
Asking for all instances of a type. The name of the type is written into a query text behind
`from`; where it is a word, the text is read as the query that has the type for its root and
nothing else, which gives a row for each row of the table. Where the name is no word the text
is not read as a query of the type, though such names can be defined.
-/

import EntityStore.Proofs.Collecting
import EntityStore.Proofs.KeyedContents
import EntityStore.Proofs.Placeholders
import EntityStore.Proofs.Renderings

set_option autoImplicit false

namespace EntityStore

/-! ### Words are names -/

namespace Token

private theorem isName_of_spelling {kind : TokenKind} {name : String} {text : List Char}
    (isWord : kind = .word name) (spelling : Spelling kind text) : IsName name.toList := by
  subst isWord
  cases spelling with
  | written written =>
      cases written with
      | word isName => exact isName

private theorem isName_of_scan {position : Nat} {text : List Char} {tokens : List Token}
    (scanned : scan position text = .ok tokens) {token : Token} (member : token ∈ tokens)
    {name : String} (isWord : token.kind = .word name) : IsName name.toList := by
  fun_induction scan position text generalizing tokens with
  | case1 position =>
      cases scanned
      rw [List.mem_singleton.mp member] at isWord
      cases isWord
  | case2 position first tail isBlank ih => exact ih scanned member
  | case3 position first tail notBlank cause found => cases scanned
  | case4 position first tail notBlank kind rest found _ fault failed => cases scanned
  | case5 =>
      rename_i found _ _ _ rested ih
      cases scanned
      rcases List.mem_cons.mp member with rfl | isLater
      · obtain ⟨_, _, spelling, _⟩ := lexeme_sound found
        exact isName_of_spelling isWord spelling
      · exact ih rested isLater

private theorem isName_from : IsName "from".toList :=
  .name (by decide) (List.all_eq_true.mp (by decide))

def fromLayout (name : String) (isName : IsName name.toList) : Layout where
  pieces := [
    ⟨noGap, .word "from", "from".toList, .word isName_from⟩,
    ⟨oneBlank, .word name, name.toList, .word isName⟩]
  last := noGap
  apart := by
    intro piece member
    rw [List.mem_singleton.mp member]
    exact List.cons_ne_nil _ _

private theorem text_fromLayout {name : String} (isName : IsName name.toList) :
    (fromLayout name isName).text = "from " ++ name := by
  apply String.toList_inj.mp
  simp [Layout.text, fromLayout, Layout.charsFrom, noGap, oneBlank]

end Token

/-! ### The query of a whole type -/

namespace Query

def whole (mapping : Mapping) : Query := ⟨mapping, [], none, [], 0⟩

private theorem parse_whole {lookup : String → Option Mapping} {mapping : Mapping} {name : String}
    (isName : Token.IsName name.toList) (known : lookup name = some mapping) :
    parse lookup ("from " ++ name) = .ok (whole mapping) := by
  apply (parse_eq_ok_iff lookup _ _).mpr
  have scanned := (Token.fromLayout name isName).ofText_text
  rw [Token.text_fromLayout] at scanned
  refine ⟨[⟨.word "from", 0⟩, ⟨.word name, 5⟩], _, scanned, rfl, ?_⟩
  have isEntity : Grammar.Entity lookup [] ⟨.word name, 5⟩ mapping :=
    ⟨⟨name, rfl, known⟩, List.not_mem_nil⟩
  exact .query (by decide) isEntity .none .none .none

/-- What stands behind `from` is a word if the query has the type of this name for its root. -/
theorem isName_of_parse {lookup : String → Option Mapping} {text : String} {query : Query}
    (sound : ∀ name mapping, lookup name = some mapping → mapping.entity = name)
    (parsed : parse lookup text = .ok query) : Token.IsName query.root.entity.toList := by
  obtain ⟨words, last, scanned, _, derived⟩ := exists_derivation parsed
  cases derived with
  | query _ isEntity _ _ _ =>
      obtain ⟨name, isWord, known⟩ := isEntity.known
      have named := Token.isName_of_scan scanned
        (List.mem_append_left _ (List.mem_cons_of_mem _ List.mem_cons_self)) isWord
      rw [← sound _ _ known] at named
      exact named

private theorem rows_whole (mapping : Mapping) (source : Mapping → List Row) (values : List Value) :
    (whole mapping).rows source values = (source mapping).map (project mapping) := by
  have accepted : (whole mapping).accepts values = fun _ => true := rfl
  have ordered : ((source mapping).map fun row => [some row]).mergeSort (OrderKey.precedes []) =
      (source mapping).map fun row => [some row] := by
    apply List.mergeSort_of_pairwise
    exact List.pairwise_of_forall fun _ _ => rfl
  unfold rows combinations
  simp only [accepted, List.filter_true]
  show List.filterMap _ (((source mapping).map fun row => [some row]).mergeSort
    (OrderKey.precedes [])) = _
  rw [ordered, List.filterMap_map, ← List.filterMap_eq_map]
  rfl

end Query

structure Layout.Enumerates (layout : Layout) (contents : Contents) (mapping : Mapping)
    (ids : List Int64) : Prop where
  distinct : ids.Nodup
  mem_iff : ∀ id, id ∈ ids ↔ contents (layout.tableOf mapping) id ≠ none

theorem Layout.Lists.enumerates {layout : Layout} {contents : Contents} {mapping : Mapping}
    {rows : List Row} {entries : List (Key × Row)} (lists : layout.Lists contents mapping rows)
    (fits : layout.Fits mapping) (keyed : layout.Keyed contents)
    (hydrated : mapping.hydrateAll (rows.map (Query.project mapping)) = .ok entries) :
    ∃ ids, layout.Enumerates contents mapping ids ∧
      entries.map Prod.fst = ids.map (Key.withId mapping.entity) := by
  obtain ⟨ids, distinct, complete, reads⟩ := lists
  have shown : List.Forall₂ (layout.ShowsRow contents mapping) ids
      (rows.map (Query.project mapping)) :=
    List.forall₂_map_right_iff.mpr
      (reads.imp fun id row => Layout.ReadsRow.project fits.wellFormed)
  refine ⟨ids, ⟨distinct, fun id => ⟨fun member => ?_, complete id⟩⟩, ?_⟩
  · obtain ⟨row, _, fields, found, _⟩ := exists_of_forall₂ reads member
    rw [found]
    exact Option.some_ne_none fields
  · exact Mapping.keys_of_hydrates fits keyed shown
      (Mapping.hydrateAll_forall₂ fits.wellFormed hydrated)

namespace Store

variable {World : Type} {layout : Layout} {session : Session World}
  {faithful : Faithful layout session.database} {store after : Store World} {mapping : Mapping}
  {members : List InstanceId}

private theorem run_prepare_whole (wellFormed : store.registry.WellFormed)
    (isOpen : store.isOpen = true) (registered : mapping ∈ store.registry.mappings)
    (isName : Token.IsName mapping.entity.toList) :
    (prepare ("from " ++ mapping.entity)).run store = (.ok (Query.whole mapping), store) := by
  have known := wellFormed.mapping?_of_mem registered
  rw [run_prepare_of_parse (Query.parse_whole isName known), if_pos isOpen]

/-- Asking for a type as a whole gives an instance for each row that the thread sees. -/
theorem keys_of_all (regular : store.Regular) (orderly : store.Orderly faithful)
    (fits : ∀ mapping ∈ store.registry.mappings, layout.Fits mapping)
    (registered : mapping ∈ store.registry.mappings)
    (isName : Token.IsName mapping.entity.toList) (full : faithful.AnswersInFull)
    (keyed : layout.Keyed (store.view faithful session.thread))
    (ran : (all session mapping.entity).run store = (.ok members, after)) :
    ∃ ids, layout.Enumerates (store.view faithful session.thread) mapping ids ∧
      after.keysOf members = ids.map (Key.withId mapping.entity) := by
  unfold all at ran
  obtain ⟨query, between, prepared, ran⟩ := run_bind_eq_ok.mp ran
  obtain ⟨rfl, parsed⟩ := prepare_ok prepared
  have known := regular.sound.registry.mapping?_of_mem registered
  obtain rfl : query = Query.whole mapping :=
    Except.ok.inj (parsed.symm.trans (Query.parse_whole isName known))
  obtain ⟨values, connection, moment, rows, entries, _, valid, seen, answered, hydrated, keys⟩ :=
    answered_of_run regular orderly fits registered ran
  obtain ⟨source, lists, rfl⟩ := full connection moment session.dialect (Query.whole mapping)
    values rows valid (fun other member => List.mem_singleton.mp member ▸ fits _ registered)
    answered
  have listsRoot := lists mapping List.mem_cons_self
  rw [seen] at listsRoot
  rw [Query.rows_whole] at hydrated
  obtain ⟨ids, enumerates, same⟩ := listsRoot.enumerates (fits _ registered) keyed hydrated
  exact ⟨ids, enumerates, keys.trans same⟩

end Store

namespace Deployment

variable {World : Type} {deployment : Deployment World}
  {allowed : Store World → ThreadId → Action → Prop} {store : Store World}

/-- Whatever types have been defined, those whose names are words, and only those, can be asked
for as a whole: the text is read as a query with the type for its root and without joins,
condition and order, whose result has a row for each row of the table, in their order. From a
database that answers in full there is an instance for each row that the thread sees. -/
theorem whole_types (reached : deployment.Reached allowed store) (isOpen : store.isOpen = true)
    {mapping : Mapping} (registered : mapping ∈ store.registry.mappings) :
    ((∃ query, (Store.prepare ("from " ++ mapping.entity)).run store = (.ok query, store) ∧
        query.root = mapping) ↔ Token.IsName mapping.entity.toList) ∧
    (Token.IsName mapping.entity.toList →
      (∃ query, (Store.prepare ("from " ++ mapping.entity)).run store = (.ok query, store) ∧
        query.root = mapping ∧ query.joins = [] ∧ query.predicate = none ∧ query.order = [] ∧
        ∀ source values, query.rows source values
          = (source mapping).map (Query.project mapping)) ∧
      ∀ {layout : Layout} {faithful : Faithful layout deployment.database},
        faithful.AtRest deployment.world →
        layout.Keyed (faithful.published deployment.world) → faithful.AnswersInFull →
        (∀ mapping ∈ store.registry.mappings, layout.Fits mapping) →
        ∀ thread members after,
          (Store.all (deployment.session thread) mapping.entity).run store
            = (.ok members, after) →
          ∃ ids, layout.Enumerates (store.view faithful thread) mapping ids ∧
            after.keysOf members = ids.map (Key.withId mapping.entity)) := by
  have wellFormed := reached.regular.sound.registry
  refine ⟨⟨?_, ?_⟩, fun isName => ⟨?_, ?_⟩⟩
  · rintro ⟨query, prepared, rfl⟩
    exact Query.isName_of_parse (fun _ _ found => (Registry.mem_of_mapping? found).2)
      (Store.prepare_ok prepared).2
  · intro isName
    exact ⟨_, Store.run_prepare_whole wellFormed isOpen registered isName, rfl⟩
  · exact ⟨_, Store.run_prepare_whole wellFormed isOpen registered isName, rfl, rfl, rfl, rfl,
      Query.rows_whole mapping⟩
  · intro layout faithful rest keyed full fits thread members after ran
    exact Store.keys_of_all reached.regular (reached.orderly rest fits) fits registered isName full
      ((reached.keyed rest keyed fits).view thread) ran

set_option maxRecDepth 100000 in
/-- Ada is the only person in the tables. -/
theorem whole_types_ada : ∃ store after mapping members query,
    Samples.deployment.Reached (fun _ _ _ => True) store ∧
      mapping ∈ store.registry.mappings ∧
      (Store.prepare "from Person").run store = (.ok query, store) ∧ query.root = mapping ∧
      (Store.all (Samples.deployment.session 0) "Person").run store = (.ok members, after) ∧
      after.keysOf members = [Key.withId "Person" 1] ∧
      ∃ ids, (Tables.layout fun _ => "id").Enumerates (store.view Samples.faithful 0) mapping ids ∧
        after.keysOf members = ids.map (Key.withId "Person") := by
  obtain ⟨store, visited, facts⟩ := (Option.any_eq_true _ _).mp (show
      (Samples.deployment.visited? Samples.saved).any (fun store =>
        let asked := (Store.all (Samples.deployment.session 0) "Person").run store
        decide (store.isOpen = true ∧
          (∀ mapping ∈ store.registry.mappings, (Tables.layout fun _ => "id").column
            mapping.id.column = (Tables.layout fun _ => "id").column "id") ∧
          (store.registry.mapping? "Person").isSome = true ∧
          asked.1.toOption.map asked.2.keysOf = some [Key.withId "Person" 1])) = true by
    decide +kernel)
  obtain ⟨isOpen, keyColumns, known, keys⟩ := of_decide_eq_true facts
  have reached : Samples.deployment.Reached (fun _ _ _ => True) store :=
    reached_visited (fun _ _ _ _ => trivial) visited
  obtain ⟨mapping, found⟩ := Option.isSome_iff_exists.mp known
  obtain ⟨registered, named⟩ := Registry.mem_of_mapping? found
  have isName : Token.IsName mapping.entity.toList := by
    rw [named]
    exact .name (by decide) (List.all_eq_true.mp (by decide))
  generalize asked : (Store.all (Samples.deployment.session 0) "Person").run store = result at keys
  obtain ⟨_ | members, after⟩ := result
  · cases keys
  obtain ⟨⟨query, prepared, root, _⟩, complete⟩ :=
    (whole_types reached isOpen registered).2 isName
  have enumerates := @complete _ Samples.faithful (Tables.atRest_empty _ _)
    (fun _ _ _ impossible => by cases impossible) (Tables.answersInFull _ _)
    (fun mapping member =>
      ⟨reached.regular.sound.registry.mappings mapping member, keyColumns mapping member⟩)
  rw [named] at prepared enumerates
  exact ⟨store, after, mapping, members, query, reached, registered, prepared, root, asked,
    Option.some.inj keys, enumerates 0 members after asked⟩

set_option maxRecDepth 100000 in
/-- A type can be defined whose name is two words, and its instances cannot be asked for. -/
theorem whole_types_two_words : ∃ store after mappings fault,
    Samples.deployment.Reached (fun _ _ _ => True) store ∧
      (Store.define [("Order Item", {})]).run store = (.ok mappings, after) ∧
      after.registry.names = ["Order Item"] ∧
      (Store.prepare ("from " ++ "Order Item")).run after = (.error fault, after) ∧
      ∀ session : Session Tables.World,
        ((Store.all session "Order Item").run after).1 = .error fault := by
  obtain ⟨store, visited, facts⟩ := (Option.any_eq_true _ _).mp (show
      (Samples.deployment.visited? []).any (fun store =>
        let defined := (Store.define [("Order Item", {})]).run store
        let prepared := (Store.prepare ("from " ++ "Order Item")).run defined.2
        decide (defined.1.isOk = true ∧ defined.2.registry.names = ["Order Item"] ∧
          prepared.1.isOk = false)) = true by
    decide +kernel)
  obtain ⟨accepted, names, refused⟩ := of_decide_eq_true facts
  generalize defined : (Store.define [("Order Item", {})]).run store = result
    at accepted names refused
  obtain ⟨_ | mappings, after⟩ := result
  · cases accepted
  obtain ⟨outcome, prepared, _⟩ := Store.run_prepare ("from " ++ "Order Item") after
  rw [prepared] at refused
  cases outcome with
  | ok query => cases refused
  | error fault =>
      refine ⟨store, after, mappings, fault, reached_visited (fun _ _ _ _ => trivial) visited,
        defined, names, prepared, fun session => ?_⟩
      unfold Store.all
      rw [Store.run_bind, prepared]

end Deployment
end EntityStore
