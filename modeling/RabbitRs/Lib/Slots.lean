import Mathlib.Data.List.Basic

/-!
Values numbered in the order they were added: what stands under a number after one was added,
replaced or changed.
-/

namespace Slots

universe u

variable {Value : Type u} {values : List Value} {value new : Value} {i j : Nat}

theorem concat_cases (found : (values ++ [new])[j]? = some value) :
    values[j]? = some value ∨ j = values.length ∧ value = new := by
  rcases Nat.lt_trichotomy j values.length with inside | same | beyond
  · rw [List.getElem?_append_left inside] at found
    exact .inl found
  · rw [same, List.getElem?_concat_length] at found
    exact .inr ⟨same, (Option.some.inj found).symm⟩
  · rw [List.getElem?_eq_none (by rw [List.length_append]; exact beyond)] at found
    cases found

theorem set_cases (found : (values.set i new)[j]? = some value) :
    j = i ∧ value = new ∨ j ≠ i ∧ values[j]? = some value := by
  by_cases same : i = j
  · subst same
    rw [List.getElem?_set_self'] at found
    cases inside : values[i]? with
    | none =>
      rw [inside] at found
      cases found
    | some old =>
      rw [inside] at found
      exact .inl ⟨rfl, (Option.some.inj found).symm⟩
  · rw [List.getElem?_set_ne same] at found
    exact .inr ⟨Ne.symm same, found⟩

theorem modify_cases {change : Value → Value} (found : (values.modify i change)[j]? = some value) :
    (j = i ∧ ∃ old, values[j]? = some old ∧ value = change old) ∨ j ≠ i ∧ values[j]? = some value := by
  rw [List.getElem?_modify] at found
  obtain ⟨old, known, same⟩ := Option.map_eq_some_iff.mp found
  by_cases here : i = j
  · rw [if_pos here] at same
    exact .inl ⟨here.symm, old, known, same.symm⟩
  · rw [if_neg here] at same
    exact .inr ⟨Ne.symm here, same ▸ known⟩

theorem modify_self {change : Value → Value} (found : values[i]? = some value) :
    (values.modify i change)[i]? = some (change value) := by
  rw [List.getElem?_modify_eq, found]
  rfl

end Slots
