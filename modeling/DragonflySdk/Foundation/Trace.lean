import Mathlib.Data.List.Induction
import Mathlib.Tactic.Common

/-!
# Traces

What a system shows of any number of steps (`Trace`). What each step keeps, given what was shown so
far, holds at the end (`Trace.keeps`); and a system whose steps lower a measure makes no more steps
than that (`Trace.length_le`).
-/

namespace DragonflySdk.Foundation

variable {σ β : Type*} {step : σ → β → σ → Prop} {s s' s'' : σ} {b : β} {bs bs' : List β}

theorem filterMap_concat {α γ : Type*} (f : α → Option γ) (l : List α) (a : α) :
    (l ++ [a]).filterMap f = l.filterMap f ++ (f a).toList := by
  rw [List.filterMap_append]
  cases h : f a with
  | none => rw [List.filterMap_cons_none h]; rfl
  | some b => rw [List.filterMap_cons_some h]; rfl

/-- Any number of steps, with what each of them shows. -/
def Trace (step : σ → β → σ → Prop) : σ → List β → σ → Prop
  | s, [], s' => s' = s
  | s, b :: bs, s'' => ∃ s', step s b s' ∧ Trace step s' bs s''

namespace Trace

theorem append_iff :
    Trace step s (bs ++ bs') s'' ↔ ∃ s', Trace step s bs s' ∧ Trace step s' bs' s'' := by
  induction bs generalizing s with
  | nil => exact ⟨fun h => ⟨s, rfl, h⟩, fun ⟨s', hs', h⟩ => by rwa [hs'] at h⟩
  | cons b bs ih =>
    constructor
    · rintro ⟨s₁, hstep, hrest⟩
      obtain ⟨s', hbs, hbs'⟩ := ih.mp hrest
      exact ⟨s', ⟨s₁, hstep, hbs⟩, hbs'⟩
    · rintro ⟨s', ⟨s₁, hstep, hbs⟩, hbs'⟩
      exact ⟨s₁, hstep, ih.mpr ⟨s', hbs, hbs'⟩⟩

theorem concat_iff :
    Trace step s (bs ++ [b]) s'' ↔ ∃ s', Trace step s bs s' ∧ step s' b s'' := by
  rw [append_iff]
  constructor
  · rintro ⟨s', hbs, s₁, hstep, rfl⟩
    exact ⟨s', hbs, hstep⟩
  · rintro ⟨s', hbs, hstep⟩
    exact ⟨s', hbs, s'', hstep, rfl⟩

theorem keeps {Kept : List β → σ → Prop} (h : Trace step s bs s') (hnew : Kept [] s)
    (hstep : ∀ bs s b s', Kept bs s → step s b s' → Kept (bs ++ [b]) s') : Kept bs s' := by
  induction bs using List.reverseRecOn generalizing s' with
  | nil =>
    obtain rfl : s' = s := h
    exact hnew
  | append_singleton bs b ih =>
    obtain ⟨s₁, hbs, hlast⟩ := concat_iff.mp h
    exact hstep bs s₁ b s' (ih hbs) hlast

theorem map {τ : Type*} {step' : τ → β → τ → Prop} (view : σ → τ) (h : Trace step s bs s')
    (hstep : ∀ s b s', step s b s' → step' (view s) b (view s')) :
    Trace step' (view s) bs (view s') := by
  induction bs generalizing s with
  | nil => exact congrArg view h
  | cons b bs ih =>
    obtain ⟨s₁, hfirst, hrest⟩ := h
    exact ⟨view s₁, hstep s b s₁ hfirst, ih hrest⟩

theorem length_le {measure : σ → Nat} (h : Trace step s bs s')
    (hstep : ∀ s b s', step s b s' → measure s' < measure s) : bs.length ≤ measure s := by
  induction bs generalizing s with
  | nil => exact Nat.zero_le _
  | cons b bs ih =>
    obtain ⟨s₁, hfirst, hrest⟩ := h
    have hlt := hstep s b s₁ hfirst
    have hle := ih hrest
    rw [List.length_cons]
    omega

end Trace

end DragonflySdk.Foundation
