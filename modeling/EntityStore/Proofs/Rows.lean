/-
Rows and named lists. A column that was set is found again under its name, and a column
whose name differs in more than letter case is not disturbed. Rows whose names differ
even when case is ignored are read like functions.
-/

import EntityStore.Store.Save
import Mathlib.Data.List.Nodup

set_option autoImplicit false

namespace EntityStore

namespace Text

theorem sameIgnoringCase_iff {left right : String} :
    sameIgnoringCase left right = true ↔ lower left = lower right := by
  unfold sameIgnoringCase lower
  rw [beq_iff_eq]
  constructor
  · intro same
    rw [same]
  · intro same
    exact String.ofList_injective same

end Text

namespace Row

/-! ### Named lists -/

section Place

variable {ν α : Type} [DecidableEq ν]

theorem place_ne_nil (name : ν) (value : α) (entries : List (ν × α)) :
    place name value entries ≠ [] := by
  cases entries with
  | nil => exact List.cons_ne_nil _ _
  | cons entry rest =>
      unfold place
      split <;> exact List.cons_ne_nil _ _

@[simp] theorem lookup_place_self (name : ν) (value : α) (entries : List (ν × α)) :
    (place name value entries).lookup name = some value := by
  induction entries with
  | nil => simp [place]
  | cons entry rest ih =>
      unfold place
      by_cases same : entry.1 = name
      · simp [same]
      · rw [if_neg same, List.lookup_cons]
        have different : (name == entry.1) = false := by
          simpa using fun equal : name = entry.1 => same equal.symm
        rw [different]
        exact ih

theorem lookup_place_of_ne {name other : ν} (value : α) (entries : List (ν × α))
    (different : other ≠ name) :
    (place name value entries).lookup other = entries.lookup other := by
  have apart : (other == name) = false := by simpa using different
  induction entries with
  | nil => simp [place, different]
  | cons entry rest ih =>
      unfold place
      by_cases same : entry.1 = name
      · rw [if_pos same, List.lookup_cons, List.lookup_cons, same, apart]
      · rw [if_neg same, List.lookup_cons, List.lookup_cons, ih]

end Place

/-! ### Columns of a row -/

def Distinct (columns : List (String × Value)) : Prop :=
  (columns.map fun entry => Text.lower entry.1).Nodup

theorem get?_eq_none_iff {columns : List (String × Value)} {name : String} :
    (Row.mk columns).get? name = none ↔
      ∀ entry ∈ columns, Text.lower entry.1 ≠ Text.lower name := by
  unfold get? named?
  constructor
  · intro missing entry member equal
    cases found : columns.lookup name with
    | some value => simp [found] at missing
    | none =>
        simp only [found, Option.map_eq_none_iff, List.find?_eq_none] at missing
        exact missing entry member (Text.sameIgnoringCase_iff.mpr equal)
  · intro different
    have noExact : columns.lookup name = none := by
      rw [List.lookup_eq_none_iff]
      intro entry member
      have apart := different entry member
      simpa using fun same : name = entry.1 => apart (by rw [same])
    rw [noExact]
    simp only [Option.map_eq_none_iff, List.find?_eq_none]
    intro entry member same
    exact different entry member (Text.sameIgnoringCase_iff.mp same)

theorem exists_of_get? {columns : List (String × Value)} {name : String} {value : Value}
    (found : (Row.mk columns).get? name = some value) :
    ∃ entry ∈ columns, Text.lower entry.1 = Text.lower name ∧ entry.2 = value := by
  unfold get? named? at found
  cases exact' : columns.lookup name with
  | some other =>
      simp only [exact'] at found
      cases found
      obtain ⟨before, after, split, _⟩ := List.lookup_eq_some_iff.mp exact'
      exact ⟨(name, value), by rw [split]; simp, rfl, rfl⟩
  | none =>
      simp only [exact'] at found
      obtain ⟨entry, foundEntry, sameValue⟩ := Option.map_eq_some_iff.mp found
      have sameName : Text.sameIgnoringCase entry.1 name = true := by
        simpa using List.find?_some foundEntry
      exact ⟨entry, List.mem_of_find?_eq_some foundEntry,
        Text.sameIgnoringCase_iff.mp sameName, sameValue⟩

/-- Among distinct columns a name in any case finds its only entry. -/
theorem get?_eq_some_of_mem {columns : List (String × Value)} (distinct : Distinct columns)
    {entry : String × Value} (member : entry ∈ columns) {name : String}
    (same : Text.lower entry.1 = Text.lower name) :
    (Row.mk columns).get? name = some entry.2 := by
  cases found : (Row.mk columns).get? name with
  | none => exact absurd same (get?_eq_none_iff.mp found entry member)
  | some value =>
      obtain ⟨other, otherMember, otherSame, rfl⟩ := exists_of_get? found
      have equal : other = entry :=
        List.inj_on_of_nodup_map distinct otherMember member (otherSame.trans same.symm)
      rw [equal]

@[simp] theorem get?_insert_self (row : Row) (column : String) (value : Value) :
    (row.insert column value).get? column = some value := by
  simp [get?, named?, insert]

private theorem find?_place_of_lower_ne {name other : String} (value : Value)
    (columns : List (String × Value)) (different : Text.lower other ≠ Text.lower name) :
    ((place name value columns).find? fun entry => Text.sameIgnoringCase entry.1 other)
      = columns.find? fun entry => Text.sameIgnoringCase entry.1 other := by
  have apart : Text.sameIgnoringCase name other = false := by
    rw [Bool.eq_false_iff]
    intro same
    exact different (Text.sameIgnoringCase_iff.mp same).symm
  induction columns with
  | nil => simp [place, apart]
  | cons entry rest ih =>
      unfold place
      by_cases same : entry.1 = name
      · rw [if_pos same, List.find?_cons, List.find?_cons, same, apart]
      · rw [if_neg same, List.find?_cons, List.find?_cons, ih]

private theorem get?_insert_of_lower_ne {column other : String} (row : Row) (value : Value)
    (different : Text.lower other ≠ Text.lower column) :
    (row.insert column value).get? other = row.get? other := by
  have apart : other ≠ column := fun same => different (by rw [same])
  unfold get? named? insert
  simp only
  rw [lookup_place_of_ne value row.columns apart,
    find?_place_of_lower_ne value row.columns different]

/-! ### Rows built from lists -/

theorem ofList_eq_update (columns : List (String × Value)) :
    ofList columns = empty.update columns := rfl

theorem update_cons (row : Row) (entry : String × Value) (columns : List (String × Value)) :
    row.update (entry :: columns) = (row.insert entry.1 entry.2).update columns := rfl

theorem get?_update_of_lower_ne (row : Row) (columns : List (String × Value)) {name : String}
    (different : ∀ entry ∈ columns, Text.lower name ≠ Text.lower entry.1) :
    (row.update columns).get? name = row.get? name := by
  induction columns generalizing row with
  | nil => rfl
  | cons entry rest ih =>
      rw [update_cons, ih (row.insert entry.1 entry.2) fun other member =>
          different other (List.mem_cons_of_mem entry member)]
      exact get?_insert_of_lower_ne row entry.2 (different entry List.mem_cons_self)

theorem get?_update_of_mem (row : Row) {columns : List (String × Value)}
    (distinct : Distinct columns) {entry : String × Value} (member : entry ∈ columns) :
    (row.update columns).get? entry.1 = some entry.2 := by
  induction columns generalizing row with
  | nil => cases member
  | cons head rest ih =>
      obtain ⟨fresh, distinctRest⟩ := List.nodup_cons.mp distinct
      rw [update_cons]
      rcases List.mem_cons.mp member with isHead | isLater
      · subst isHead
        rw [get?_update_of_lower_ne _ rest]
        · exact get?_insert_self row entry.1 entry.2
        · intro other otherMember same
          exact fresh (List.mem_map.mpr ⟨other, otherMember, same.symm⟩)
      · exact ih (row.insert head.1 head.2) distinctRest isLater

theorem get?_ofList_of_mem {columns : List (String × Value)} (distinct : Distinct columns)
    {entry : String × Value} (member : entry ∈ columns) :
    (ofList columns).get? entry.1 = some entry.2 := by
  rw [ofList_eq_update]
  exact get?_update_of_mem empty distinct member

end Row

end EntityStore
