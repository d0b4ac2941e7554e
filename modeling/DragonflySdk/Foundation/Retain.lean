import Mathlib.Data.Finmap
import Mathlib.Data.Finset.Sort
import Mathlib.Tactic.Common

/-!
# Retaining what passes

A hash map yields its keys in some order (`KeyOrder`). Retaining what passes a test goes over them in
that order, and takes out one key after the other (`retain`).
-/

namespace DragonflySdk.Foundation

/-- The order in which a map of given keys yields them. -/
structure KeyOrder (κ : Type*) where
  order : Finset κ → List κ
  nodup : ∀ keys, (order keys).Nodup
  mem_iff : ∀ keys key, key ∈ order keys ↔ key ∈ keys

/-- The keys in the order of a list of all keys. -/
def KeyOrder.ofList {κ : Type*} [DecidableEq κ] (all : List κ) (nodup : all.Nodup)
    (mem : ∀ key, key ∈ all) : KeyOrder κ where
  order keys := all.filter (· ∈ keys)
  nodup keys := nodup.filter _
  mem_iff keys key := by simp [mem]

/-- The keys in their own order. -/
def KeyOrder.sorted {κ : Type*} [LinearOrder κ] : KeyOrder κ where
  order keys := keys.sort
  nodup keys := keys.sort_nodup _
  mem_iff keys key := keys.mem_sort _

variable {κ β : Type*} [DecidableEq κ] {keep : κ → β → Bool}

/-- Takes out what does not pass, with the keys of it in order. -/
def retain (keep : κ → β → Bool) :
    List κ → Finmap (fun _ : κ => β) → Finmap (fun _ : κ => β) × List κ
  | [], m => (m, [])
  | key :: keys, m =>
    match m.lookup key with
    | some value =>
      if keep key value then retain keep keys m
      else ((retain keep keys (m.erase key)).1, key :: (retain keep keys (m.erase key)).2)
    | none => retain keep keys m

theorem retain_kept {key : κ} {keys : List κ} {m : Finmap fun _ : κ => β}
    (h : ∀ value, m.lookup key = some value → keep key value = true) :
    retain keep (key :: keys) m = retain keep keys m := by
  rw [retain]
  rcases hlookup : m.lookup key with _ | value
  · rfl
  · exact if_pos (h value hlookup)

theorem retain_removed {key : κ} {keys : List κ} {m : Finmap fun _ : κ => β} {value : β}
    (h : m.lookup key = some value) (hkeep : keep key value = false) :
    retain keep (key :: keys) m =
      ((retain keep keys (m.erase key)).1, key :: (retain keep keys (m.erase key)).2) := by
  rw [retain, h]
  exact if_neg (by rw [hkeep]; exact Bool.false_ne_true)

theorem lookup_retain (keys : List κ) (m : Finmap fun _ : κ => β) (key : κ) :
    (retain keep keys m).1.lookup key =
      if key ∈ keys then (m.lookup key).filter (keep key) else m.lookup key := by
  induction keys generalizing m with
  | nil => exact (if_neg List.not_mem_nil).symm
  | cons first keys ih =>
    by_cases hkept : ∀ value, m.lookup first = some value → keep first value = true
    · rw [retain_kept hkept, ih]
      by_cases hkey : key = first
      · rw [if_pos (List.mem_cons.mpr (.inl hkey)), hkey, ite_eq_left_iff]
        intro _
        rcases hlookup : m.lookup first with _ | value
        · rfl
        · rw [Option.filter_some, if_pos (hkept value hlookup)]
      · simp only [List.mem_cons, hkey, false_or]
    · push Not at hkept
      obtain ⟨value, hlookup, hkeep⟩ := hkept
      have hfalse := Bool.eq_false_of_not_eq_true hkeep
      rw [retain_removed hlookup hfalse, ih]
      by_cases hkey : key = first
      · rw [if_pos (List.mem_cons.mpr (.inl hkey)), hkey, Finmap.lookup_erase, hlookup,
          Option.filter_some, hfalse, Option.filter_none, ite_self]
        rfl
      · simp only [List.mem_cons, hkey, false_or, Finmap.lookup_erase_ne hkey]

theorem mem_retain (keys : List κ) (m : Finmap fun _ : κ => β) (key : κ) :
    key ∈ (retain keep keys m).2 ↔
      key ∈ keys ∧ ∃ value, m.lookup key = some value ∧ keep key value = false := by
  induction keys generalizing m with
  | nil => simp [retain]
  | cons first keys ih =>
    by_cases hkept : ∀ value, m.lookup first = some value → keep first value = true
    · rw [retain_kept hkept, ih, List.mem_cons]
      constructor
      · rintro ⟨hmem, hvalue⟩
        exact ⟨.inr hmem, hvalue⟩
      · rintro ⟨rfl | hmem, value, hlookup, hkeep⟩
        · rw [hkept value hlookup] at hkeep
          cases hkeep
        · exact ⟨hmem, value, hlookup, hkeep⟩
    · push Not at hkept
      obtain ⟨value, hlookup, hkeep⟩ := hkept
      have hfalse := Bool.eq_false_of_not_eq_true hkeep
      rw [retain_removed hlookup hfalse, List.mem_cons, ih, List.mem_cons]
      by_cases hkey : key = first
      · rw [hkey]
        exact iff_of_true (.inl rfl) ⟨.inl rfl, value, hlookup, hfalse⟩
      · rw [Finmap.lookup_erase_ne hkey]
        simp only [hkey, false_or]

theorem lookup_retain_order (order : KeyOrder κ) (m : Finmap fun _ : κ => β) (key : κ) :
    (retain keep (order.order m.keys) m).1.lookup key = (m.lookup key).filter (keep key) := by
  rw [lookup_retain, ite_eq_left_iff]
  intro hnot
  rw [order.mem_iff, Finmap.mem_keys] at hnot
  rw [Finmap.lookup_eq_none.mpr hnot]
  rfl

theorem mem_retain_order (order : KeyOrder κ) (m : Finmap fun _ : κ => β) (key : κ) :
    key ∈ (retain keep (order.order m.keys) m).2 ↔
      ∃ value, m.lookup key = some value ∧ keep key value = false := by
  rw [mem_retain, order.mem_iff, Finmap.mem_keys]
  constructor
  · exact fun h => h.2
  · rintro ⟨value, hlookup, hkeep⟩
    exact ⟨Finmap.mem_of_lookup_eq_some hlookup, value, hlookup, hkeep⟩

theorem mem_retain_order_iff (order : KeyOrder κ) (m : Finmap fun _ : κ => β) (key : κ) :
    key ∈ (retain keep (order.order m.keys) m).2 ↔
      key ∈ m.keys ∧ key ∉ (retain keep (order.order m.keys) m).1.keys := by
  rw [mem_retain_order, Finmap.mem_keys, Finmap.mem_keys, ← Finmap.lookup_eq_none,
    lookup_retain_order, ← Finmap.lookup_isSome]
  rcases m.lookup key with _ | value
  · simp
  · simp [Option.filter_some]

end DragonflySdk.Foundation
