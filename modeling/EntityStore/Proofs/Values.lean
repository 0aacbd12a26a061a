/-
Values that a database takes for the same, and the form in which it holds them.
-/

import EntityStore.Value

set_option autoImplicit false

namespace EntityStore

theorem Double.equal_trans {first second third : Double}
    (firstSecond : first.equal second = true) (secondThird : second.equal third = true) :
    first.equal third = true := by
  unfold Double.equal at *
  simp only [Bool.and_eq_true, Bool.or_eq_true, Bool.not_eq_true', beq_iff_eq] at *
  obtain ⟨⟨numberFirst, _⟩, sameFirst⟩ := firstSecond
  obtain ⟨⟨_, numberThird⟩, sameThird⟩ := secondThird
  refine ⟨⟨numberFirst, numberThird⟩, ?_⟩
  rcases sameFirst with bits | ⟨zeroFirst, zeroSecond⟩
  · rcases sameThird with bits' | ⟨zeroSecond, zeroThird⟩
    · exact Or.inl (bits.trans bits')
    · exact Or.inr ⟨by simpa [Double.isZero, Double.exponentField, Double.fraction, bits]
        using zeroSecond, zeroThird⟩
  · rcases sameThird with bits' | ⟨_, zeroThird⟩
    · exact Or.inr ⟨zeroFirst, by simpa [Double.isZero, Double.exponentField, Double.fraction, bits']
        using zeroSecond⟩
    · exact Or.inr ⟨zeroFirst, zeroThird⟩

theorem Double.equal_symm {first second : Double} (same : first.equal second = true) :
    second.equal first = true := by
  unfold Double.equal at *
  simp only [Bool.and_eq_true, Bool.or_eq_true, Bool.not_eq_true', beq_iff_eq] at *
  obtain ⟨⟨numberFirst, numberSecond⟩, equal | ⟨zeroFirst, zeroSecond⟩⟩ := same
  · exact ⟨⟨numberSecond, numberFirst⟩, Or.inl equal.symm⟩
  · exact ⟨⟨numberSecond, numberFirst⟩, Or.inr ⟨zeroSecond, zeroFirst⟩⟩

namespace Value

private theorem same_eq_of_not_float {left right : Value}
    (notFloats : ∀ first second, ¬(left = .float first ∧ right = .float second)) :
    left.same right = (left == right) := by
  unfold same
  split
  · rename_i first second
    exact absurd ⟨rfl, rfl⟩ (notFloats first second)
  · rfl

/-- Either the same value or one that a database takes for the same. -/
def Alike (left right : Value) : Prop := left = right ∨ left.same right = true

@[simp] theorem Alike.refl (value : Value) : Alike value value := Or.inl rfl

theorem Alike.of_same {left right : Value} (same : left.same right = true) :
    Alike left right := Or.inr same

/-- Values that are alike and not both floats are equal. -/
theorem alike_iff {left right : Value} :
    Alike left right ↔ left = right ∨
      ∃ first second, left = .float first ∧ right = .float second ∧ first.equal second = true := by
  constructor
  · rintro (equal | same)
    · exact Or.inl equal
    · by_cases floats : ∃ first second, left = .float first ∧ right = .float second
      · obtain ⟨first, second, rfl, rfl⟩ := floats
        exact Or.inr ⟨first, second, rfl, rfl, same⟩
      · rw [same_eq_of_not_float fun first second both => floats ⟨first, second, both⟩,
          beq_iff_eq] at same
        exact Or.inl same
  · rintro (equal | ⟨first, second, rfl, rfl, same⟩)
    · exact Or.inl equal
    · exact Or.inr same

theorem Alike.symm {left right : Value} (alike : Alike left right) : Alike right left := by
  rcases alike_iff.mp alike with equal | ⟨first, second, isFirst, isSecond, same⟩
  · exact Or.inl equal.symm
  · exact alike_iff.mpr (Or.inr ⟨second, first, isSecond, isFirst, Double.equal_symm same⟩)

theorem Alike.trans {first second third : Value} (left : Alike first second)
    (right : Alike second third) : Alike first third := by
  rcases alike_iff.mp left with rfl | ⟨one, two, rfl, rfl, same⟩
  · exact right
  · rcases alike_iff.mp right with rfl | ⟨two', three, isTwo, rfl, same'⟩
    · exact left
    · cases isTwo
      exact alike_iff.mpr (Or.inr ⟨one, three, rfl, rfl, Double.equal_trans same same'⟩)

end Value

end EntityStore
