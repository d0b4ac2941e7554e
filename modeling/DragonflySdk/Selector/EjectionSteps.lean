import DragonflySdk.Foundation.Linearization
import DragonflySdk.Selector.Ejection

/-!
# Concurrent calls on the ejections

Each call is a single step under a lock, but a success: it looks for an entry first, and removes it
in another step. In between, a failure may have been recorded or the entry may be gone. Still the
removal is what a success does at once, and so is finding nothing (`ejectionSteps_actsAtLastStep`).
So the calls are linearizable (`ejections_linearizable`), in Rust and in Go.
-/

namespace DragonflySdk

open Foundation

/-- How far a call has come; `present` is a success that has found an entry. -/
inductive EjectionProgress
  | start | present

/-- The steps of `on_failure`, `on_success` and `is_ejected`; only the last one has an answer. -/
def ejectionSteps : Stepped EjectionCall EjectionProgress (Option Bool) Ejections where
  start := .start
  step
    | .onFailure now endpoint, _, s => (s.onFailure now endpoint, .inr none)
    | .onSuccess endpoint, .start, s => if endpoint ∈ s then (s, .inl .present) else (s, .inr none)
    | .onSuccess endpoint, .present, s => (s.erase endpoint, .inr none)
    | .isEjected now endpoint, _, s => (s, .inr (some (s.isEjected now endpoint)))

/-- The steps of `OnFailure`, `OnSuccess` and `IsEjected`. -/
def Go.ejectionSteps : Stepped EjectionCall EjectionProgress (Option Bool) Ejections where
  start := .start
  step
    | .onFailure now endpoint, _, s => (Go.onFailure s now endpoint, .inr none)
    | .onSuccess endpoint, .start, s => if endpoint ∉ s then (s, .inr none) else (s, .inl .present)
    | .onSuccess endpoint, .present, s => (s.erase endpoint, .inr none)
    | .isEjected now endpoint, _, s => (s, .inr (some (Go.isEjected s now endpoint)))

/-- A call at once, with its answer. -/
def perform (after : Ejections → EjectionCall → Ejections)
    (isEjected : Ejections → Nat → Str → Bool) (call : EjectionCall) (s : Ejections) :
    Ejections × Option Bool :=
  (after s call,
    match call with
    | .isEjected now endpoint => some (isEjected s now endpoint)
    | .onFailure _ _ | .onSuccess _ => none)

theorem erase_eq_onSuccess (s : Ejections) (endpoint : Str) :
    s.erase endpoint = s.onSuccess endpoint := by
  unfold Ejections.onSuccess
  by_cases h : endpoint ∈ s
  · rw [if_pos h]
  · rw [if_neg h]
    refine Finmap.ext_lookup fun other => ?_
    by_cases hother : other = endpoint
    · rw [hother, Finmap.lookup_erase, Finmap.lookup_eq_none.mpr h]
    · rw [Finmap.lookup_erase_ne hother]

theorem ejectionSteps_actsAtLastStep :
    ejectionSteps.ActsAtLastStep (perform Ejections.after Ejections.isEjected) := by
  intro call progress s
  cases call with
  | onFailure now endpoint => exact Or.inr rfl
  | onSuccess endpoint =>
    cases progress with
    | start =>
      by_cases h : endpoint ∈ s
      · exact Or.inl ⟨.present, if_pos h⟩
      · right
        -- there was nothing to clear
        have hsame : s.onSuccess endpoint = s := if_neg h
        have hstep : ejectionSteps.step (.onSuccess endpoint) .start s = (s, .inr none) := if_neg h
        rw [hstep]
        exact Prod.ext hsame.symm rfl
    | present =>
      right
      show (s.erase endpoint, Sum.inr none) = (s.onSuccess endpoint, .inr none)
      rw [erase_eq_onSuccess]
  | isEjected now endpoint => exact Or.inr rfl

theorem Go.ejectionSteps_eq : Go.ejectionSteps = DragonflySdk.ejectionSteps := by
  unfold Go.ejectionSteps DragonflySdk.ejectionSteps
  congr
  funext call progress s
  cases call with
  | onFailure now endpoint =>
    show (Go.onFailure s now endpoint, Sum.inr none) = _
    rw [Go.onFailure_eq]
  | onSuccess endpoint =>
    cases progress with
    | start =>
      show (if endpoint ∉ s then (s, Sum.inr none) else (s, Sum.inl EjectionProgress.present)) = _
      rw [ite_not]
    | present => rfl
  | isEjected now endpoint =>
    show (s, Sum.inr (some (Go.isEjected s now endpoint))) = _
    rw [Go.isEjected_eq]

/-- **Concurrent calls on the ejections are linearizable**, in Rust and in Go. -/
theorem ejections_linearizable {ι : Type} [DecidableEq ι] (calls : ι → EjectionCall)
    (initial : Ejections) :
    Stepped.Linearizable ejectionSteps calls (perform Ejections.after Ejections.isEjected) initial ∧
      Stepped.Linearizable Go.ejectionSteps calls (perform Go.after Go.isEjected) initial := by
  have hrust := ejectionSteps_actsAtLastStep.linearizable calls initial
  have hgo : Go.isEjected = Ejections.isEjected := by
    funext ejections now endpoint
    exact Go.isEjected_eq ejections now endpoint
  refine ⟨hrust, ?_⟩
  rw [Go.ejectionSteps_eq, Go.after_eq, hgo]
  exact hrust

end DragonflySdk
