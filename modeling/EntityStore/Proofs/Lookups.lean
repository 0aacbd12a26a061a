/-
Lists of named contents, as they stand in plans, pools and caches: what is found under a
name, and what is found once a name is taken out.
-/

set_option autoImplicit false

namespace EntityStore

variable {ν α : Type}

theorem exists_lookup [BEq ν] [LawfulBEq ν] {entries : List (ν × α)} {name : ν}
    (member : name ∈ entries.map Prod.fst) : ∃ content, entries.lookup name = some content := by
  cases found : entries.lookup name with
  | some content => exact ⟨content, rfl⟩
  | none =>
      obtain ⟨entry, isEntry, same⟩ := List.mem_map.mp member
      have apart := List.lookup_eq_none_iff.mp found entry isEntry
      simp [same] at apart

theorem mem_of_lookup [BEq ν] [LawfulBEq ν] {entries : List (ν × α)} {name : ν}
    {content : α} (found : entries.lookup name = some content) : (name, content) ∈ entries := by
  obtain ⟨before, after, rfl, _⟩ := List.lookup_eq_some_iff.mp found
  simp

/-- Among entries with names of their own, what is found is what is there. -/
theorem lookup_eq_some_iff_mem [BEq ν] [LawfulBEq ν] {entries : List (ν × α)}
    (distinct : (entries.map Prod.fst).Nodup) {name : ν} {content : α} :
    entries.lookup name = some content ↔ (name, content) ∈ entries := by
  refine ⟨mem_of_lookup, fun member => ?_⟩
  induction entries with
  | nil => cases member
  | cons entry rest ih =>
      obtain ⟨fresh, distinctRest⟩ := List.nodup_cons.mp distinct
      rw [List.lookup_cons]
      rcases List.mem_cons.mp member with rfl | isLater
      · simp
      · have apart : (name == entry.1) = false :=
          beq_eq_false_iff_ne.mpr fun same =>
            fresh (same ▸ List.mem_map_of_mem (f := Prod.fst) isLater)
        rw [apart]
        exact ih distinctRest isLater

/-- Among entries with names of their own, those of a name are what is found under it. -/
theorem filter_eq_lookup [BEq ν] [LawfulBEq ν] {entries : List (ν × α)}
    (distinct : (entries.map Prod.fst).Nodup) (name : ν) :
    entries.filter (fun entry => entry.1 == name)
      = (entries.lookup name).toList.map (Prod.mk name) := by
  induction entries with
  | nil => rfl
  | cons entry rest ih =>
      obtain ⟨fresh, distinctRest⟩ := List.nodup_cons.mp distinct
      rw [List.lookup_cons]
      by_cases same : name = entry.1
      · have others : rest.filter (fun other => other.1 == name) = [] := by
          rw [List.filter_eq_nil_iff]
          intro other member isName
          refine fresh (List.mem_map.mpr ⟨other, member, ?_⟩)
          rw [beq_iff_eq.mp isName, same]
        rw [List.filter_cons_of_pos (by simp [same]), others]
        simp [same]
      · have apart : (name == entry.1) = false := beq_eq_false_iff_ne.mpr same
        rw [List.filter_cons_of_neg (by simpa using fun isName => same isName.symm), apart]
        exact ih distinctRest

theorem lookup_map_content [BEq ν] [LawfulBEq ν] (change : ν → α → α)
    (entries : List (ν × α)) (name : ν) :
    (entries.map fun entry => (entry.1, change entry.1 entry.2)).lookup name
      = (entries.lookup name).map (change name) := by
  induction entries with
  | nil => rfl
  | cons entry rest ih =>
      rw [List.map_cons, List.lookup_cons, List.lookup_cons]
      by_cases same : name = entry.1
      · simp [same]
      · rw [beq_eq_false_iff_ne.mpr same]
        exact ih

/-- A name is found where its entries are among those that are kept. -/
theorem lookup_filter_of_kept [BEq ν] [LawfulBEq ν] {kept : ν → Bool} {name : ν}
    (isKept : kept name = true) (entries : List (ν × α)) :
    (entries.filter fun entry => kept entry.1).lookup name = entries.lookup name := by
  induction entries with
  | nil => rfl
  | cons entry rest ih =>
      by_cases keeps : kept entry.1 = true
      · rw [List.filter_cons_of_pos (by simpa using keeps), List.lookup_cons, List.lookup_cons, ih]
      · have different : name ≠ entry.1 := by
          rintro rfl
          exact keeps isKept
        rw [List.filter_cons_of_neg (by simpa using keeps), List.lookup_cons, ih,
          beq_eq_false_iff_ne.mpr different]

def withoutName [BEq ν] (name : ν) (entries : List (ν × α)) : List (ν × α) :=
  entries.filter fun entry => entry.1 != name

theorem lookup_withoutName_self [BEq ν] [LawfulBEq ν] (entries : List (ν × α)) (name : ν) :
    (withoutName name entries).lookup name = none := by
  rw [List.lookup_eq_none_iff]
  intro entry member
  have different := (List.mem_filter.mp member).2
  simp only [bne_iff_ne, ne_eq] at different
  simpa using fun same : name = entry.1 => different same.symm

theorem lookup_withoutName_of_ne [BEq ν] [LawfulBEq ν] (entries : List (ν × α))
    {name other : ν} (different : other ≠ name) :
    (withoutName name entries).lookup other = entries.lookup other :=
  @lookup_filter_of_kept _ _ _ _ (fun known => known != name) _ (bne_iff_ne.mpr different) entries

end EntityStore
