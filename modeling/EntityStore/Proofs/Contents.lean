/-
What the statements of a store mean for the contents of a database. A table keeps its
rows by id and a row is a function on columns; a layout says how names and values
reach the database. An insertion gives every column it names its value and leaves the
others to the database; an update changes the columns it names and nothing else.
-/

import EntityStore.Proofs.Rows
import EntityStore.Proofs.Values

set_option autoImplicit false

namespace EntityStore

/-- A row without order: the values of its columns. -/
abbrev Fields := String → Value

/-- The rows of all tables by id. -/
abbrev Contents := String → Int64 → Option Fields

namespace Contents

def set (contents : Contents) (table : String) (id : Int64) (row : Option Fields) : Contents :=
  fun other number => if other = table ∧ number = id then row else contents other number

def change (contents : Contents) (table : String) (id : Int64) (edit : Fields → Fields) :
    Contents :=
  contents.set table id ((contents table id).map edit)

def clear (contents : Contents) (table : String) : Contents :=
  fun other number => if other = table then none else contents other number

@[simp] theorem set_self (contents : Contents) (table : String) (id : Int64)
    (row : Option Fields) : contents.set table id row table id = row := by
  simp [set]

theorem set_of_ne (contents : Contents) {table other : String} {id number : Int64}
    (row : Option Fields) (different : ¬(other = table ∧ number = id)) :
    contents.set table id row other number = contents other number := by
  simp only [set, if_neg different]

@[simp] theorem change_self (contents : Contents) (table : String) (id : Int64)
    (edit : Fields → Fields) :
    contents.change table id edit table id = (contents table id).map edit := by
  simp [change]

theorem change_of_ne (contents : Contents) {table other : String} {id number : Int64}
    (edit : Fields → Fields) (different : ¬(other = table ∧ number = id)) :
    contents.change table id edit other number = contents other number :=
  contents.set_of_ne _ different

end Contents

/-- How the names of a store stand for those of its database, and how values are held
there. Column names that are the same to the database differ at most in case. -/
structure Layout where
  table : QualifiedName → String
  column : String → String
  stored : Value → Value
  /-- The column of a table that holds the id under which a row is kept. -/
  key : String → String
  lower_of_column : ∀ {left right}, column left = column right → Text.lower left = Text.lower right
  stored_integer : ∀ number, stored (.integer number) = .integer number
  stored_same : ∀ {left right}, left.same right = true → (stored left).Alike (stored right)

namespace Layout

variable (layout : Layout)

def tableOf (mapping : Mapping) : String := layout.table (Statement.tableOf mapping)

def Sets (columns : List (String × Value)) (fields : Fields) : Prop :=
  ∀ entry ∈ columns, fields (layout.column entry.1) = layout.stored entry.2

def write (columns : List (String × Value)) (fields : Fields) : Fields := fun column =>
  match columns.find? fun entry => layout.column entry.1 == column with
  | some entry => layout.stored entry.2
  | none => fields column

def Shows (columns : List String) (fields : Fields) (row : Row) : Prop :=
  ∀ column ∈ columns, row.get? column = some (fields (layout.column column))

/-- A value of the store and what the database holds for it: the value itself or its
stored form, up to what a database takes for the same. -/
def Agree (value held : Value) : Prop :=
  value.Alike held ∨ (layout.stored value).Alike held

def Agrees (mapping : Mapping) (row : Row) (fields : Fields) : Prop :=
  ∀ column ∈ mapping.columns, ∃ value,
    row.get? column = some value ∧ layout.Agree value (fields (layout.column column))

variable {layout}

theorem write_of_mem {columns : List (String × Value)} (distinct : Row.Distinct columns)
    (fields : Fields) {entry : String × Value} (member : entry ∈ columns) :
    layout.write columns fields (layout.column entry.1) = layout.stored entry.2 := by
  unfold write
  cases found : columns.find? fun other => layout.column other.1 == layout.column entry.1 with
  | none =>
      have missing := List.find?_eq_none.mp found entry member
      simp at missing
  | some other =>
      have sameColumn : layout.column other.1 = layout.column entry.1 := by
        simpa using List.find?_some found
      have equal : other = entry :=
        List.inj_on_of_nodup_map distinct (List.mem_of_find?_eq_some found) member
          (layout.lower_of_column sameColumn)
      rw [equal]

theorem write_of_not_mem {columns : List (String × Value)} (fields : Fields) {column : String}
    (different : ∀ entry ∈ columns, layout.column entry.1 ≠ column) :
    layout.write columns fields column = fields column := by
  have missing : (columns.find? fun entry => layout.column entry.1 == column) = none := by
    rw [List.find?_eq_none]
    intro entry member
    simpa using different entry member
  unfold write
  rw [missing]

theorem Agree.of_stored {value held : Value} (same : held = layout.stored value) :
    layout.Agree value held := Or.inr (same ▸ Value.Alike.refl _)

/-- A value that a database takes for the same as one that agrees agrees too. -/
theorem Agree.of_same {old value held : Value} (agree : layout.Agree old held)
    (same : old.same value = true) : layout.Agree value held := by
  have back : Value.Alike value old := (Value.Alike.of_same same).symm
  rcases agree with alike | alike
  · exact Or.inl (back.trans alike)
  · exact Or.inr ((layout.stored_same same).symm.trans alike)

theorem Agrees.of_shows {mapping : Mapping} {row : Row} {fields : Fields}
    (shown : layout.Shows mapping.columns fields row) : layout.Agrees mapping row fields :=
  fun column member => ⟨_, shown column member, Or.inl (Value.Alike.refl _)⟩

end Layout

end EntityStore
