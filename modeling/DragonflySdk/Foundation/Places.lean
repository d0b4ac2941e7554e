import Mathlib.Algebra.GroupWithZero.Nat
import Mathlib.Data.List.Basic

/-!
# Lists with places

What holds of a list, and what its elements sum up to, when the element at one place is replaced, or
one more is added at the end.
-/

namespace DragonflySdk.Foundation

variable {β : Type*} {bs : List β} {i : Nat} {old new last b : β}

theorem getElem?_concat_eq_some :
    (bs ++ [last])[i]? = some b ↔ bs[i]? = some b ∨ (i = bs.length ∧ last = b) := by
  rcases Nat.lt_trichotomy i bs.length with hlt | rfl | hgt
  · rw [List.getElem?_append_left hlt]
    simp [Nat.ne_of_lt hlt]
  · rw [List.getElem?_concat_length, List.getElem?_eq_none (Nat.le_refl _)]
    simp
  · have hlength : (bs ++ [last]).length ≤ i := by
      rw [List.length_append]
      exact hgt
    rw [List.getElem?_eq_none hlength, List.getElem?_eq_none (Nat.le_of_lt hgt)]
    simp [Nat.ne_of_gt hgt]

theorem forall_set {P : Nat → β → Prop} (h : ∀ j b, bs[j]? = some b → P j b) (hnew : P i new) :
    ∀ j b, (bs.set i new)[j]? = some b → P j b := by
  intro j b hj
  rw [List.getElem?_set] at hj
  by_cases hij : i = j
  · subst hij
    rw [if_pos rfl] at hj
    split at hj
    · obtain rfl := Option.some.inj hj
      exact hnew
    · cases hj
  · rw [if_neg hij] at hj
    exact h j b hj

theorem sum_map_set (f : β → Nat) (hold : bs[i]? = some old) (new : β) :
    ((bs.set i new).map f).sum + f old = (bs.map f).sum + f new := by
  induction bs generalizing i with
  | nil => cases hold
  | cons b bs ih =>
    cases i with
    | zero =>
      obtain rfl : b = old := Option.some.inj hold
      simp only [List.set_cons_zero, List.map_cons, List.sum_cons]
      omega
    | succ i =>
      have hrest := ih (i := i) hold
      simp only [List.set_cons_succ, List.map_cons, List.sum_cons]
      omega

end DragonflySdk.Foundation
