import NamedQuery.Bounded
import Mathlib.Algebra.Group.Int.Defs

namespace NamedQuery

theorem int64?_eq_some {n : Int} {m : Int64} : int64? n = some m ↔ m.toInt = n := by
  rw [int64?, Int64.toInt_minValue, Int64.toInt_maxValue, Option.ite_none_right_eq_some,
    Option.some_inj]
  constructor
  · rintro ⟨⟨low, high⟩, rfl⟩
    exact Int64.toInt_ofInt_of_le low (by omega)
  · rintro rfl
    exact ⟨⟨m.le_toInt, m.toInt_le⟩, m.ofInt_toInt⟩

theorem int32?_eq_some {n : Int} {m : Int32} : int32? n = some m ↔ m.toInt = n := by
  rw [int32?, Int32.toInt_minValue, Int32.toInt_maxValue, Option.ite_none_right_eq_some,
    Option.some_inj]
  constructor
  · rintro ⟨⟨low, high⟩, rfl⟩
    exact Int32.toInt_ofInt_of_le low (by omega)
  · rintro rfl
    exact ⟨⟨m.le_toInt, m.toInt_le⟩, m.ofInt_toInt⟩

theorem int16?_eq_some {n : Int} {m : Int16} : int16? n = some m ↔ m.toInt = n := by
  rw [int16?, Int16.toInt_minValue, Int16.toInt_maxValue, Option.ite_none_right_eq_some,
    Option.some_inj]
  constructor
  · rintro ⟨⟨low, high⟩, rfl⟩
    exact Int16.toInt_ofInt_of_le low (by omega)
  · rintro rfl
    exact ⟨⟨m.le_toInt, m.toInt_le⟩, m.ofInt_toInt⟩

theorem int32?_of_outside {n : Int} (h : ¬ (-2 ^ 31 ≤ n ∧ n < 2 ^ 31)) : int32? n = none := by
  rw [int32?, Int32.toInt_minValue, Int32.toInt_maxValue]
  exact if_neg (by omega)

theorem int16?_of_outside {n : Int} (h : ¬ (-2 ^ 15 ≤ n ∧ n < 2 ^ 15)) : int16? n = none := by
  rw [int16?, Int16.toInt_minValue, Int16.toInt_maxValue]
  exact if_neg (by omega)

end NamedQuery
