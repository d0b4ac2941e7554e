import DragonflySdk.Foundation.FailureStreak
import DragonflySdk.Selector.Go

/-!
# The history of an ejection

What the ejections say of an endpoint after any calls is decided by the failures since its last
success: they count up to `maxFailedCount` and start over, and the last one that completes a round
ejects for the cooldown (`ejections_follow_history`). Calls for other endpoints make no difference.
Rust and Go agree.
-/

namespace DragonflySdk

open Foundation

/-- A call on the ejections, with what the clock says where it is read. -/
inductive EjectionCall
  | onFailure (now : Nat) (endpoint : Str)
  | onSuccess (endpoint : Str)
  | isEjected (now : Nat) (endpoint : Str)
deriving DecidableEq

namespace EjectionCall

def endpoint : EjectionCall → Str
  | .onFailure _ endpoint | .onSuccess endpoint | .isEjected _ endpoint => endpoint

/-- What the call records: the time of a failure, or a success. -/
def recorded : EjectionCall → Option (Option Nat)
  | .onFailure now _ => some (some now)
  | .onSuccess _ => some none
  | .isEjected _ _ => none

end EjectionCall

/-- The times of the failures at `endpoint` after its last success. -/
def failuresAt (endpoint : Str) (calls : List EjectionCall) : List Nat :=
  failuresInRow ((calls.filter (·.endpoint = endpoint)).filterMap EjectionCall.recorded)

/-- What a call in Rust makes of the ejections. -/
def Ejections.after (ejections : Ejections) : EjectionCall → Ejections
  | .onFailure now endpoint => ejections.onFailure now endpoint
  | .onSuccess endpoint => ejections.onSuccess endpoint
  | .isEjected _ _ => ejections

/-- What a call in Go makes of the ejections. -/
def Go.after (ejections : Ejections) : EjectionCall → Ejections
  | .onFailure now endpoint => Go.onFailure ejections now endpoint
  | .onSuccess endpoint => Go.onSuccess ejections endpoint
  | .isEjected _ _ => ejections

theorem Go.after_eq : Go.after = Ejections.after := by
  funext ejections call
  cases call with
  | onFailure now endpoint => exact Go.onFailure_eq ejections now endpoint
  | onSuccess endpoint => exact Go.onSuccess_eq ejections endpoint
  | isEjected now endpoint => rfl

/-! ### The entry of an endpoint -/

/-- The entry of an endpoint with these failures since its last success. -/
def entryOf (failures : List Nat) : Option Ejection :=
  if failures = [] then none
  else some ⟨failures.length % maxFailedCount, trippedAt maxFailedCount failures⟩

theorem entryOf_getD (failures : List Nat) : (entryOf failures).getD ⟨0, none⟩ =
    ⟨failures.length % maxFailedCount, trippedAt maxFailedCount failures⟩ := by
  unfold entryOf
  by_cases h : failures = []
  · rw [if_pos h, h]
    rfl
  · rw [if_neg h]
    rfl

theorem entryOf_concat (failures : List Nat) (now : Nat) :
    entryOf (failures ++ [now]) = some
      (if maxFailedCount ≤ failures.length % maxFailedCount + 1 then ⟨0, some now⟩
      else ⟨failures.length % maxFailedCount + 1, trippedAt maxFailedCount failures⟩) := by
  have hpos : 0 < maxFailedCount := by decide
  rw [entryOf, if_neg (by simp), length_concat_mod hpos, trippedAt_concat hpos]
  split <;> rfl

namespace Ejections

variable (ejections : Ejections) (endpoint : Str)

theorem lookup_onFailure_self (now : Nat) :
    (ejections.onFailure now endpoint).lookup endpoint = some
      (if maxFailedCount ≤ ((ejections.lookup endpoint).getD ⟨0, none⟩).failedCount + 1 then
        ⟨0, some now⟩
      else
        ⟨((ejections.lookup endpoint).getD ⟨0, none⟩).failedCount + 1,
          ((ejections.lookup endpoint).getD ⟨0, none⟩).ejectedAt⟩) :=
  Finmap.lookup_insert _

theorem lookup_onSuccess_self : (ejections.onSuccess endpoint).lookup endpoint = none := by
  unfold onSuccess
  by_cases h : endpoint ∈ ejections
  · rw [if_pos h, Finmap.lookup_erase]
  · rw [if_neg h, Finmap.lookup_eq_none]
    exact h

variable {endpoint}

theorem lookup_after_of_ne (call : EjectionCall) (h : call.endpoint ≠ endpoint) :
    (ejections.after call).lookup endpoint = ejections.lookup endpoint := by
  cases call with
  | onFailure now other => exact Finmap.lookup_insert_of_ne _ (Ne.symm h)
  | onSuccess other =>
    show (ejections.onSuccess other).lookup endpoint = _
    unfold onSuccess
    split
    · exact Finmap.lookup_erase_ne (Ne.symm h)
    · rfl
  | isEjected now other => rfl

theorem lookup_after_self {failures : List Nat} (h : ejections.lookup endpoint = entryOf failures)
    (history : List (Option Nat)) (hhistory : failuresInRow history = failures)
    (call : EjectionCall) (hcall : call.endpoint = endpoint) :
    (ejections.after call).lookup endpoint =
      entryOf (failuresInRow (history ++ call.recorded.toList)) := by
  subst hcall
  cases call with
  | onFailure now endpoint =>
    show (ejections.onFailure now endpoint).lookup endpoint =
      entryOf (failuresInRow (history ++ [some now]))
    rw [lookup_onFailure_self, failuresInRow_concat_failure, hhistory, entryOf_concat]
    change ejections.lookup endpoint = entryOf failures at h
    rw [h, entryOf_getD]
  | onSuccess endpoint =>
    show (ejections.onSuccess endpoint).lookup endpoint =
      entryOf (failuresInRow (history ++ [none]))
    rw [lookup_onSuccess_self, failuresInRow_concat_success]
    rfl
  | isEjected now endpoint =>
    show ejections.lookup endpoint = entryOf (failuresInRow (history ++ []))
    rw [List.append_nil, hhistory]
    exact h

/-- **The entry of an endpoint is that of its failures since the last success.** -/
theorem lookup_foldl_after (calls : List EjectionCall) (endpoint : Str) :
    (calls.foldl after ∅).lookup endpoint = entryOf (failuresAt endpoint calls) := by
  induction calls using List.reverseRecOn with
  | nil => exact Finmap.lookup_empty endpoint
  | append_singleton calls call ih =>
    rw [List.foldl_append, List.foldl_cons, List.foldl_nil, failuresAt, List.filter_append,
      List.filterMap_append]
    by_cases h : call.endpoint = endpoint
    · have hrecorded : ([call].filter (·.endpoint = endpoint)).filterMap EjectionCall.recorded =
          call.recorded.toList := by
        rw [List.filter_cons_of_pos (by simpa using h), List.filter_nil]
        cases hcall : call.recorded <;> simp [hcall]
      rw [hrecorded]
      exact lookup_after_self _ ih _ rfl call h
    · rw [lookup_after_of_ne _ call h, ih, List.filter_cons_of_neg (by simpa using h),
        List.filter_nil, List.filterMap_nil, List.append_nil]
      rfl

theorem isEjected_of_lookup {ejections : Ejections} {failures : List Nat}
    (h : ejections.lookup endpoint = entryOf failures) (now : Nat) :
    ejections.isEjected now endpoint = true ↔
      ∃ ejectedAt, trippedAt maxFailedCount failures = some ejectedAt ∧
        now - ejectedAt < ejectionCooldown := by
  have hbind : (ejections.lookup endpoint).bind Ejection.ejectedAt =
      trippedAt maxFailedCount failures := by
    rw [h, entryOf]
    by_cases hnil : failures = []
    · rw [if_pos hnil, hnil]
      rfl
    · rw [if_neg hnil]
      rfl
  rw [isEjected, hbind]
  cases trippedAt maxFailedCount failures <;> simp

end Ejections

/-! ### The whole history -/

/-- What the ejections after some calls say of an endpoint. -/
structure FollowsHistory (after : Ejections → EjectionCall → Ejections)
    (isEjected : Ejections → Nat → Str → Bool) (calls : List EjectionCall) (endpoint : Str) :
    Prop where
  /-- It is ejected for the cooldown from the failure that completed the last round. -/
  isEjected_iff : ∀ now, isEjected (calls.foldl after ∅) now endpoint = true ↔
    maxFailedCount ≤ (failuresAt endpoint calls).length ∧
      ∃ ejectedAt, (failuresAt endpoint calls)[maxFailedCount *
          ((failuresAt endpoint calls).length / maxFailedCount) - 1]? = some ejectedAt ∧
        now - ejectedAt < ejectionCooldown
  /-- The count is that of the failures after that round, none being the same as no entry. -/
  failedCount_eq : ((calls.foldl after ∅).lookup endpoint).elim 0 Ejection.failedCount =
    (failuresAt endpoint calls).length % maxFailedCount
  failedCount_lt : ∀ ejection, (calls.foldl after ∅).lookup endpoint = some ejection →
    ejection.failedCount < maxFailedCount
  /-- Calls for other endpoints make no difference. -/
  others : ∀ now, isEjected (calls.foldl after ∅) now endpoint =
    isEjected ((calls.filter (·.endpoint = endpoint)).foldl after ∅) now endpoint

theorem Ejections.followsHistory (calls : List EjectionCall) (endpoint : Str) :
    FollowsHistory Ejections.after Ejections.isEjected calls endpoint where
  isEjected_iff now := by
    rw [isEjected_of_lookup (lookup_foldl_after calls endpoint), trippedAt]
    split <;> simp [*]
  failedCount_eq := by
    rw [lookup_foldl_after, entryOf]
    by_cases h : failuresAt endpoint calls = []
    · rw [if_pos h, h]
      rfl
    · rw [if_neg h]
      rfl
  failedCount_lt ejection h := by
    rw [lookup_foldl_after, entryOf] at h
    split at h
    · simp at h
    · rw [← Option.some.inj h]
      exact Nat.mod_lt _ (by decide)
  others now := by
    have hsame : failuresAt endpoint (calls.filter (·.endpoint = endpoint)) =
        failuresAt endpoint calls := by
      rw [failuresAt, List.filter_filter]
      simp only [Bool.and_self]
      rfl
    rw [Bool.eq_iff_iff, isEjected_of_lookup (lookup_foldl_after _ endpoint),
      isEjected_of_lookup (lookup_foldl_after _ endpoint), hsame]

/-- **The ejections match their history**, in Rust and in Go. -/
theorem ejections_follow_history (calls : List EjectionCall) (endpoint : Str) :
    FollowsHistory Ejections.after Ejections.isEjected calls endpoint ∧
      FollowsHistory Go.after Go.isEjected calls endpoint := by
  have hgo : Go.isEjected = Ejections.isEjected := by
    funext ejections now endpoint
    exact Go.isEjected_eq ejections now endpoint
  refine ⟨Ejections.followsHistory calls endpoint, ?_⟩
  rw [Go.after_eq, hgo]
  exact Ejections.followsHistory calls endpoint

end DragonflySdk
