import Mathlib.Data.List.Induction
import Mathlib.Data.List.Basic
import Mathlib.Tactic.Common

/-!
# The last write of a key

A list that is written into a map leaves the last entry of each key (`lastWrite`). Written in another
order, it leaves the same just when no two entries of one key differ (`lastWrite_of_unambiguous`,
`unambiguous_of_last`).

Tasks that are collected as they finish come in the order of a permutation of their numbers
(`collected`), in which any of them may be the last (`lastOrder`).
-/

namespace DragonflySdk.Foundation

variable {α κ : Type*}

/-! ### Writes -/

section
variable [DecidableEq κ] (key : α → κ)

/-- The last entry of a key. -/
def lastWrite (l : List α) (k : κ) : Option α := l.reverse.find? fun a => key a = k

/-- No two entries of one key differ. -/
def Unambiguous (l : List α) : Prop := ∀ a ∈ l, ∀ b ∈ l, key a = key b → a = b

variable {key} {l : List α} {k : κ} {a : α}

theorem lastWrite_concat (l : List α) (a : α) (k : κ) :
    lastWrite key (l ++ [a]) k = if k = key a then some a else lastWrite key l k := by
  rw [lastWrite, List.reverse_append, List.reverse_singleton, List.singleton_append,
    List.find?_cons]
  by_cases h : k = key a
  · rw [if_pos h, decide_eq_true h.symm]
  · rw [if_neg h, decide_eq_false (Ne.symm h)]
    rfl

theorem mem_of_lastWrite (h : lastWrite key l k = some a) : a ∈ l ∧ key a = k := by
  unfold lastWrite at h
  have hkey := List.find?_some h
  exact ⟨List.mem_reverse.mp (List.mem_of_find?_eq_some h), of_decide_eq_true hkey⟩

theorem lastWrite_isSome_iff : (lastWrite key l k).isSome = true ↔ ∃ a ∈ l, key a = k := by
  rw [lastWrite, List.find?_isSome]
  simp only [List.mem_reverse, decide_eq_true_iff]

theorem lastWrite_of_unambiguous (h : Unambiguous key l) (ha : a ∈ l) :
    lastWrite key l (key a) = some a := by
  have hsome : (lastWrite key l (key a)).isSome = true := lastWrite_isSome_iff.mpr ⟨a, ha, rfl⟩
  obtain ⟨b, hb⟩ := Option.isSome_iff_exists.mp hsome
  obtain ⟨hmem, hkey⟩ := mem_of_lastWrite hb
  rw [hb, h b hmem a ha hkey]

theorem lastWrite_perm {l' : List α} (h : Unambiguous key l) (hperm : l'.Perm l) (k : κ) :
    lastWrite key l' k = lastWrite key l k := by
  have h' : Unambiguous key l' := fun a ha b hb =>
    h a (hperm.mem_iff.mp ha) b (hperm.mem_iff.mp hb)
  rcases hlast : lastWrite key l k with _ | a
  · rw [← Option.not_isSome_iff_eq_none, lastWrite_isSome_iff] at hlast ⊢
    intro hmem
    obtain ⟨a, ha, hkey⟩ := hmem
    exact hlast ⟨a, hperm.mem_iff.mp ha, hkey⟩
  · obtain ⟨hmem, rfl⟩ := mem_of_lastWrite hlast
    exact lastWrite_of_unambiguous h' (hperm.mem_iff.mpr hmem)

theorem unambiguous_of_last (left : κ → Option α)
    (h : ∀ a ∈ l, ∃ before, ∀ k, lastWrite key (before ++ [a]) k = left k) : Unambiguous key l := by
  intro a ha b hb hkey
  obtain ⟨_, hlast⟩ := h a ha
  obtain ⟨_, hlast'⟩ := h b hb
  have hleft := (hlast (key a)).symm
  have hleft' := (hlast' (key a)).symm
  rw [lastWrite_concat, if_pos rfl] at hleft
  rw [lastWrite_concat, if_pos hkey] at hleft'
  exact Option.some.inj (hleft.symm.trans hleft')

end

/-! ### Tasks in the order they finish -/

/-- The results of tasks, by their numbers in some order. -/
def collected (order : List Nat) (results : List α) : List α := order.filterMap fun i => results[i]?

theorem collected_range (results : List α) : collected (List.range results.length) results = results := by
  induction results using List.reverseRecOn with
  | nil => rfl
  | append_singleton results result ih =>
    rw [List.length_append, List.length_singleton, List.range_succ, collected, List.filterMap_append,
      List.filterMap_cons_some (List.getElem?_concat_length ..), List.filterMap_nil]
    have hfirst : (List.range results.length).filterMap (fun i => (results ++ [result])[i]?) =
        (List.range results.length).filterMap fun i => results[i]? := by
      apply List.filterMap_congr
      intro i hi
      exact List.getElem?_append_left (List.mem_range.mp hi)
    rw [hfirst, show (List.range results.length).filterMap (fun i => results[i]?) = results from ih]

theorem collected_perm {order : List Nat} {results : List α}
    (h : order.Perm (List.range results.length)) : (collected order results).Perm results := by
  have hperm := h.filterMap fun i => results[i]?
  rwa [show (List.range results.length).filterMap (fun i => results[i]?) = results from
    collected_range results] at hperm

/-- The order in which task `i` is the last to finish. -/
def lastOrder (i tasks : Nat) : List Nat :=
  if i < tasks then (List.range tasks).erase i ++ [i] else List.range tasks

theorem lastOrder_perm (i tasks : Nat) : (lastOrder i tasks).Perm (List.range tasks) := by
  unfold lastOrder
  by_cases h : i < tasks
  · rw [if_pos h]
    exact (List.perm_append_singleton _ _).trans
      (List.perm_cons_erase (List.mem_range.mpr h)).symm
  · rw [if_neg h]

theorem collected_lastOrder {i : Nat} {results : List α} (h : i < results.length) :
    ∃ before, collected (lastOrder i results.length) results = before ++ [results[i]] := by
  refine ⟨collected ((List.range results.length).erase i) results, ?_⟩
  rw [lastOrder, if_pos h, collected, List.filterMap_append,
    List.filterMap_cons_some (List.getElem?_eq_getElem h), List.filterMap_nil]
  rfl

end DragonflySdk.Foundation
