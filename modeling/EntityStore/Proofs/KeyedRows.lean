/-
Rows by their keys. A database that keeps every row under the id in its key column goes on
doing so: whatever a store has executed conforms, and no statement that conforms changes
the column of the id.
-/

import EntityStore.Proofs.Units

set_option autoImplicit false

namespace EntityStore

def Layout.Keyed (layout : Layout) (contents : Contents) : Prop :=
  ∀ table id fields, contents table id = some fields →
    fields (layout.column (layout.key table)) = .integer id

namespace Layout.Keyed

variable {layout : Layout} {before after : Contents}

private theorem set (keyed : layout.Keyed before) {table : String} {id : Int64}
    {row : Option Fields}
    (own : ∀ fields, row = some fields → fields (layout.column (layout.key table)) = .integer id) :
    layout.Keyed (before.set table id row) := by
  intro other number fields found
  by_cases same : other = table ∧ number = id
  · obtain ⟨rfl, rfl⟩ := same
    rw [Contents.set_self] at found
    exact own fields found
  · rw [Contents.set_of_ne _ _ same] at found
    exact keyed other number fields found

private theorem executes (keyed : layout.Keyed before) {statement : Statement}
    {generated : Option Int64} (conforms : statement.Conforms layout.Fits)
    (executed : layout.Executes statement before after generated) : layout.Keyed after := by
  have unchanged (same : after = before ∧ generated = none) : layout.Keyed after := same.1 ▸ keyed
  cases conforms with
  | insert dialect fits _ _ _ =>
      obtain ⟨id, fields, _, idField, _, rfl, _⟩ := Layout.executes_insert.mp executed
      refine keyed.set fun other same => ?_
      cases same
      rw [← fits.keyed]
      exact idField
  | @update _ mapping columns id fits _ known =>
      obtain ⟨rfl, _⟩ := Layout.executes_update.mp executed
      refine keyed.set fun fields same => ?_
      obtain ⟨old, isOld, rfl⟩ := Option.map_eq_some_iff.mp same
      rw [Layout.write_of_not_mem]
      · exact keyed _ _ _ isOld
      · -- What is updated are properties, and no property shares the column of the id.
        intro entry member isKey
        have distinct := fits.wellFormed.distinctColumns
        rw [Mapping.columns, List.map_cons, List.nodup_cons] at distinct
        refine distinct.1 ?_
        rw [← layout.lower_of_column (isKey.trans fits.keyed.symm)]
        exact List.mem_map_of_mem (known entry member)
  | delete dialect id fits =>
      obtain ⟨rfl, _⟩ := Layout.executes_delete.mp executed
      exact keyed.set fun _ impossible => by cases impossible
  | dropTable mapping =>
      obtain ⟨rfl, _⟩ := executed
      intro table id fields found
      unfold Contents.clear at found
      split at found
      · cases found
      · exact keyed table id fields found
  | selectById dialect id fits => exact unchanged executed
  | select dialect page values fits => exact unchanged executed
  | createTable dialect fits created =>
      unfold Layout.Executes at executed
      rw [Statement.request_of_createTable created] at executed
      exact unchanged executed
  | createSequence sequence same =>
      unfold Layout.Executes at executed
      rw [same] at executed
      exact unchanged executed
  | dropSequence sequence same =>
      unfold Layout.Executes at executed
      rw [same] at executed
      exact unchanged executed
  | nextValue sequence same =>
      unfold Layout.Executes at executed
      rw [same] at executed
      exact unchanged executed
  | defaultSchema same =>
      unfold Layout.Executes at executed
      rw [same] at executed
      exact unchanged executed

theorem replays {honest : Contents → Statement → List Row → Prop} {before after : Ledger}
    {log : List Event} (keyed : layout.Keyed before.contents)
    (conform : ∀ statement, .executed statement ∈ log → statement.Conforms layout.Fits)
    (replays : Ledger.Replays layout honest before log after) : layout.Keyed after.contents := by
  induction replays with
  | nil ledger => exact keyed
  | @cons before between after event log step _ ih =>
      refine ih ?_ fun statement member => conform statement (List.mem_cons_of_mem event member)
      cases step with
      | executed executes => exact keyed.executes (conform _ List.mem_cons_self) executes
      | answered _ => exact keyed
      | generated => exact keyed
      | lookedUp _ _ => exact keyed

end Layout.Keyed

theorem Database.question_of_executed {World : Type} {database : Database World}
    {connection : ConnectionId} {question : Question} {world after : World}
    {statement : Statement}
    (answer : database.ask connection question world = (.ok (.executed statement), after)) :
    question = .execute statement := by
  rcases Database.ask_ok answer with
    ⟨_, rfl, same⟩ | ⟨_, _, _, same, _⟩ | ⟨_, _, same⟩ | ⟨_, _, _, same⟩ <;> cases same
  rfl

theorem Asked.conforms {World : Type} {database : Database World} {fits : Mapping → Prop}
    {writes : Bool} {connection : ConnectionId} {world after : World} {log : List Event}
    (asked : Asked database (Question.Issued fits writes) connection world log after) :
    ∀ statement, .executed statement ∈ log → statement.Conforms fits := by
  induction asked with
  | done world => exact fun _ member => by cases member
  | answered issued answer _ ih =>
      intro statement member
      rcases List.mem_cons.mp member with rfl | isLater
      · obtain rfl := Database.question_of_executed answer
        cases issued with
        | execute _ conforms => exact conforms
      · exact ih statement isLater
  | refused _ _ _ ih => exact ih

theorem Bracketed.conforming {World α : Type} {database : Database World} {fits : Mapping → Prop}
    {transactional : Bool} {connection : ConnectionId}
    {gives : α × WriteSet → List Event → Prop} {world after : World}
    {outcome : Except Error (α × WriteSet)}
    (bracketed : Bracketed database (Question.Issued fits transactional) connection gives
      transactional world outcome after) :
    Bracketed database (Question.Issued fits transactional) connection
      (fun result log => gives result log ∧
        ∀ statement, .executed statement ∈ log → statement.Conforms fits)
      transactional world outcome after := by
  cases bracketed with
  | done asked given => exact .done asked ⟨given, asked.conforms⟩
  | undone asked => exact .undone asked
  | notBegun begins => exact .notBegun begins
  | failed begins asked rolledBack => exact .failed begins asked rolledBack
  | notCommitted begins asked refused rolledBack =>
      exact .notCommitted begins asked refused rolledBack
  | committed begins asked given commits =>
      exact .committed begins asked ⟨given, asked.conforms⟩ commits

end EntityStore
