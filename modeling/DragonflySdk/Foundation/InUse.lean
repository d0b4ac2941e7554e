import Mathlib.Logic.Function.Basic
import Mathlib.Logic.Relation
import Mathlib.Tactic.Common

/-!
# Entries in use

A store of entries under keys, and for each entry a count of its uses. An entry is removed in two
steps: it is seen that it is not used, and then it is taken out. A use that begins in between is not
seen. If none does, and none begins on an entry that is no longer in the store, then whatever the
interleaving the entries in use are in the store (`Reaches.inv`).
-/

namespace DragonflySdk.Foundation.InUse

/-- The entries in the store, the key and the uses of each entry, and the key of the one that is about
to be taken out. -/
structure State (κ ε : Type*) where
  kept : κ → Option ε
  keyOf : ε → κ
  uses : ε → Int
  doomed : Option κ

variable {κ ε : Type*}

/-- The entry is in the store, and stays. -/
def State.Stays (s : State κ ε) (e : ε) : Prop :=
  s.kept (s.keyOf e) = some e ∧ s.doomed ≠ some (s.keyOf e)

/-- What holds in every state: entries in use are in the store, and not the one that is about to be
taken out. -/
structure Inv (s : State κ ε) : Prop where
  keyOf_eq : ∀ key e, s.kept key = some e → s.keyOf e = key
  kept : ∀ e, 0 < s.uses e → s.kept (s.keyOf e) = some e
  doomed : ∀ key e, s.doomed = some key → s.kept key = some e → s.uses e ≤ 0

theorem Inv.empty (keyOf : ε → κ) : Inv ⟨fun _ => none, keyOf, fun _ => 0, none⟩ where
  keyOf_eq _ _ h := by cases h
  kept e h := by
    have hzero : (0 : Int) < 0 := h
    omega
  doomed _ _ h := by cases h

variable [DecidableEq κ] [DecidableEq ε]

/-- One step, where uses begin only on entries that stay. -/
inductive Step : State κ ε → State κ ε → Prop
  | put {s} (key : κ) (e : ε) (hfree : s.kept key = none) (hfresh : ∀ key, s.kept key ≠ some e)
      (hunused : s.uses e = 0) :
      Step s { s with
        kept := Function.update s.kept key (some e)
        keyOf := Function.update s.keyOf e key }
  | doom {s} (key : κ) (e : ε) (hkept : s.kept key = some e) (hunused : s.uses e ≤ 0) :
      Step s { s with doomed := some key }
  | remove {s} (key : κ) (hdoomed : s.doomed = some key) :
      Step s { s with kept := Function.update s.kept key none, doomed := none }
  | use {s} (e : ε) (hstays : s.Stays e) :
      Step s { s with uses := Function.update s.uses e (s.uses e + 1) }
  | giveBack {s} (e : ε) : Step s { s with uses := Function.update s.uses e (s.uses e - 1) }

/-- Any number of steps. -/
abbrev Reaches : State κ ε → State κ ε → Prop := Relation.ReflTransGen Step

variable {s s' : State κ ε}

namespace Inv

variable (h : Inv s)
include h

theorem put {key : κ} {e : ε} (hfree : s.kept key = none) (hfresh : ∀ key, s.kept key ≠ some e)
    (hunused : s.uses e = 0) :
    Inv { s with
      kept := Function.update s.kept key (some e)
      keyOf := Function.update s.keyOf e key } := by
  refine ⟨?_, ?_, ?_⟩
  · intro key' e' hkept
    simp only at hkept ⊢
    by_cases hkey : key' = key
    · rw [hkey, Function.update_self] at hkept
      obtain rfl := Option.some.inj hkept
      rw [Function.update_self, hkey]
    · rw [Function.update_of_ne hkey] at hkept
      have hne : e' ≠ e := fun heq => hfresh key' (heq ▸ hkept)
      rw [Function.update_of_ne hne]
      exact h.keyOf_eq key' e' hkept
  · intro e' huse
    simp only at huse ⊢
    have hne : e' ≠ e := by
      intro heq
      rw [heq, hunused] at huse
      omega
    have hkept := h.kept e' huse
    have hkey : s.keyOf e' ≠ key := by
      intro heq
      rw [heq, hfree] at hkept
      cases hkept
    rw [Function.update_of_ne hne, Function.update_of_ne hkey]
    exact hkept
  · intro key' e' hdoomed hkept
    simp only at hdoomed hkept ⊢
    by_cases hkey : key' = key
    · rw [hkey, Function.update_self] at hkept
      obtain rfl := Option.some.inj hkept
      exact Int.le_of_eq hunused
    · rw [Function.update_of_ne hkey] at hkept
      exact h.doomed key' e' hdoomed hkept

omit [DecidableEq κ] [DecidableEq ε] in
theorem doom {key : κ} {e : ε} (hkept : s.kept key = some e) (hunused : s.uses e ≤ 0) :
    Inv { s with doomed := some key } := by
  refine ⟨h.keyOf_eq, h.kept, ?_⟩
  intro key' e' hdoomed hkept'
  obtain rfl := Option.some.inj hdoomed
  obtain rfl := Option.some.inj (hkept.symm.trans hkept')
  exact hunused

omit [DecidableEq ε] in
theorem remove {key : κ} (hdoomed : s.doomed = some key) :
    Inv { s with kept := Function.update s.kept key none, doomed := none } := by
  refine ⟨?_, ?_, fun key' e' hnone => by cases hnone⟩
  · intro key' e' hkept
    simp only at hkept
    by_cases hkey : key' = key
    · rw [hkey, Function.update_self] at hkept
      cases hkept
    · rw [Function.update_of_ne hkey] at hkept
      exact h.keyOf_eq key' e' hkept
  · intro e' huse
    have hkept := h.kept e' huse
    have hkey : s.keyOf e' ≠ key := by
      intro heq
      rw [heq] at hkept
      have hunused := h.doomed key e' hdoomed hkept
      simp only at huse
      omega
    simp only
    rw [Function.update_of_ne hkey]
    exact hkept

omit [DecidableEq κ] in
theorem use {e : ε} (hstays : s.Stays e) :
    Inv { s with uses := Function.update s.uses e (s.uses e + 1) } := by
  refine ⟨h.keyOf_eq, ?_, ?_⟩
  · intro e' huse
    simp only at huse
    by_cases he : e' = e
    · rw [he]
      exact hstays.1
    · rw [Function.update_of_ne he] at huse
      exact h.kept e' huse
  · intro key e' hdoomed hkept
    simp only at hdoomed hkept ⊢
    have hne : e' ≠ e := by
      intro heq
      have hkey := h.keyOf_eq key e' hkept
      apply hstays.2
      rw [← heq, hkey]
      exact hdoomed
    rw [Function.update_of_ne hne]
    exact h.doomed key e' hdoomed hkept

omit [DecidableEq κ] in
theorem giveBack (e : ε) : Inv { s with uses := Function.update s.uses e (s.uses e - 1) } := by
  have hle : ∀ e', Function.update s.uses e (s.uses e - 1) e' ≤ s.uses e' := by
    intro e'
    by_cases he : e' = e
    · rw [he, Function.update_self]
      omega
    · exact Int.le_of_eq (Function.update_of_ne he _ _)
  refine ⟨h.keyOf_eq, ?_, ?_⟩
  · intro e' huse
    exact h.kept e' (Int.lt_of_lt_of_le huse (hle e'))
  · intro key e' hdoomed hkept
    exact Int.le_trans (hle e') (h.doomed key e' hdoomed hkept)

end Inv

theorem Step.inv (hstep : Step s s') (h : Inv s) : Inv s' := by
  cases hstep with
  | put key e hfree hfresh hunused => exact h.put hfree hfresh hunused
  | doom key e hkept hunused => exact h.doom hkept hunused
  | remove key hdoomed => exact h.remove hdoomed
  | use e hstays => exact h.use hstays
  | giveBack e => exact h.giveBack e

/-- **Entries in use are in the store** in every state that is reached. -/
theorem Reaches.inv (hrun : Reaches s s') (h : Inv s) : Inv s' := by
  induction hrun with
  | refl => exact h
  | tail _ hstep ih => exact hstep.inv ih

end DragonflySdk.Foundation.InUse
