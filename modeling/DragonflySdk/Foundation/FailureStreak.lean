import Mathlib.Data.List.DropRight
import Mathlib.Data.List.ReduceOption
import Mathlib.Tactic.Common

/-!
# Failures in a row

A history of failures (`some` time) and successes (`none`). What counts is the failures after the
last success (`failuresInRow`). Each time there are another `limit` of them, the last one trips
(`trippedAt`).

Both can be kept up one entry at a time, with a counter that starts over when it trips
(`length_concat_mod`, `trippedAt_concat`).
-/

namespace DragonflySdk.Foundation

variable {τ : Type*}

/-- The failures after the last success. -/
def failuresInRow (history : List (Option τ)) : List τ :=
  (history.rtakeWhile Option.isSome).reduceOption

@[simp] theorem failuresInRow_concat_failure (history : List (Option τ)) (time : τ) :
    failuresInRow (history ++ [some time]) = failuresInRow history ++ [time] := by
  rw [failuresInRow, List.rtakeWhile_concat_pos _ _ _ rfl, List.reduceOption_append]
  rfl

@[simp] theorem failuresInRow_concat_success (history : List (Option τ)) :
    failuresInRow (history ++ [none]) = [] := by
  rw [failuresInRow, List.rtakeWhile_concat_neg _ _ _ (by simp)]
  rfl

/-- When the last of the failures that come in full rounds of `limit` was, if there is a round. -/
def trippedAt (limit : Nat) (failures : List τ) : Option τ :=
  if limit ≤ failures.length then failures[limit * (failures.length / limit) - 1]? else none

section
variable {limit : Nat} (hlimit : 0 < limit) (failures : List τ) (time : τ)
include hlimit

theorem length_concat_mod :
    (failures ++ [time]).length % limit =
      if limit ≤ failures.length % limit + 1 then 0 else failures.length % limit + 1 := by
  have hlt := Nat.mod_lt failures.length hlimit
  have hdiv := Nat.div_add_mod failures.length limit
  rw [List.length_append, List.length_singleton]
  by_cases hfull : limit ≤ failures.length % limit + 1
  · have hround : failures.length + 1 = limit * (failures.length / limit + 1) := by
      rw [Nat.mul_add]
      omega
    rw [if_pos hfull, hround, Nat.mul_mod_right]
  · have hnext : failures.length + 1 =
        limit * (failures.length / limit) + (failures.length % limit + 1) := by omega
    rw [if_neg hfull]
    nth_rewrite 1 [hnext]
    rw [Nat.mul_add_mod, Nat.mod_eq_of_lt (by omega)]

theorem trippedAt_concat :
    trippedAt limit (failures ++ [time]) =
      if limit ≤ failures.length % limit + 1 then some time else trippedAt limit failures := by
  have hmod := length_concat_mod hlimit failures time
  have hlt := Nat.mod_lt failures.length hlimit
  have hdiv := Nat.div_add_mod failures.length limit
  unfold trippedAt
  rw [List.length_append, List.length_singleton] at hmod ⊢
  by_cases hfull : limit ≤ failures.length % limit + 1
  · rw [if_pos hfull] at hmod ⊢
    have hround : limit * (failures.length / limit + 1) - 1 = failures.length := by
      rw [Nat.mul_add]
      omega
    have hle : limit ≤ failures.length + 1 := by
      have := Nat.mod_le failures.length limit
      omega
    rw [if_pos hle, Nat.succ_div_of_mod_eq_zero hmod, hround, List.getElem?_concat_length]
  · rw [if_neg hfull] at hmod ⊢
    rw [Nat.succ_div_of_mod_ne_zero (by omega)]
    by_cases hle : limit ≤ failures.length
    · have hround : 0 < limit * (failures.length / limit) :=
        Nat.mul_pos hlimit (Nat.div_pos hle hlimit)
      rw [if_pos hle, if_pos (by omega), List.getElem?_append_left (by omega)]
    · rw [if_neg hle, if_neg]
      intro heq
      rw [Nat.mod_eq_of_lt (by omega)] at hfull
      exact hfull heq

end

end DragonflySdk.Foundation
