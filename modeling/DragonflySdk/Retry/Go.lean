import DragonflySdk.Errors.Wrapped
import DragonflySdk.Foundation.Retry

/-!
# Retries in Go

`retry.go`: the loop is that of the module `backoff` (`BackoffModule`), which counts the tries itself
and gives up on an error marked as permanent. The context of the request neither expires nor is it
cancelled. With given outcomes, a run over endpoints attempts as often as one in Rust would, as far
as both find the same errors worth another attempt (`runWithEndpoints_noting`).
-/

namespace DragonflySdk.Go

open Foundation

/-- The error of an operation that is retried, marked by `backoff.Permanent` or not. -/
inductive Failure
  | transient (err : Error)
  | permanent (err : Error)

def Failure.unwrap : Failure → Error
  | .transient err | .permanent err => err

/-- What is called of `backoff`; the nil backoff stands for a `ZeroBackOff`. -/
structure BackoffModule where
  ExponentialBackOff : Type
  /-- `backoff.Retry(ctx, operation, WithBackOff(b), WithMaxTries(n), WithMaxElapsedTime(0))` -/
  retry : {σ T : Type} → Option ExponentialBackOff → (maxTries : Nat) →
    (σ → σ × Except Failure T) → σ → σ × Except Failure T

/-- The documented behaviour: the operation is tried until it succeeds, fails for good, or has been
tried often enough. Whether the mark is taken off the last error is left open. -/
structure BackoffModule.Lawful (module : BackoffModule) : Prop where
  retry_eq : ∀ {σ T : Type} (b : Option module.ExponentialBackOff) (maxTries : Nat)
    (operation : σ → σ × Except Failure T) (s : σ), 0 < maxTries →
    (module.retry b maxTries operation s).map id (·.mapError Failure.unwrap) =
      match operation s with
      | (s', .ok value) => (s', .ok value)
      | (s', .error (.permanent err)) => (s', .error err)
      | (s', .error (.transient err)) =>
        if maxTries = 1 then (s', .error err)
        else (module.retry b (maxTries - 1) operation s').map id (·.mapError Failure.unwrap)

/-- How often a request is retried and how long each retry waits. -/
structure RetryPolicy (module : BackoffModule) where
  maxRetries : Nat
  backoff : Option module.ExponentialBackOff

namespace RetryPolicy

variable {module : BackoffModule} (policy : RetryPolicy module) {σ T : Type}

/-- The operation that is retried: an error not worth another attempt is permanent. -/
def operation (attempt : σ → σ × Except Error Unit) (s : σ) : σ × Except Failure Unit :=
  match attempt s with
  | (s, .ok ()) => (s, .ok ())
  | (s, .error err) =>
    (s, .error (if !err.isRetryable then .permanent err else .transient err))

/-- Runs `attempt` until it succeeds, fails definitively, or has been retried `maxRetries` times. -/
def run (attempt : σ → σ × Except Error Unit) (s : σ) : σ × Except Error Unit :=
  match module.retry policy.backoff (policy.maxRetries + 1) (operation attempt) s with
  | (s, .ok ()) => (s, .ok ())
  | (s, .error (.permanent err)) => (s, .error err)
  | (s, .error (.transient .deadlineExceeded)) =>
    (s, .error (.requestTimeout ⟨"%w: %v".toList, ["context deadline exceeded".toList]⟩))
  | (s, .error (.transient .canceled)) =>
    (s, .error (.internal ⟨"%w: %v".toList, ["context canceled".toList]⟩))
  | (s, .error (.transient err)) => (s, .error err)

/-- The closure on its count of attempts and the response: aims at the next endpoint. -/
def attemptNext (shuffled : List Str) (send : σ → Str → σ × Except Error T) :
    σ × Nat × Option T → (σ × Nat × Option T) × Except Error Unit
  | (s, attempts, resp) =>
    let endpoint := shuffled.getD (attempts % shuffled.length) []
    match send s endpoint with
    | (s, .error err) => ((s, attempts + 1, resp), .error err)
    | (s, .ok attemptResp) => ((s, attempts + 1, some attemptResp), .ok ())

/-- Runs `send` like `run`, every attempt aimed at the next endpoint of a shuffled order. -/
def runWithEndpoints (endpoints shuffled : List Str) (send : σ → Str → σ × Except Error T) (s : σ) :
    σ × Except Error (Option T) :=
  if endpoints.length = 0 then
    (s, .error (.invalidArgument ⟨"%w: no endpoints to send request".toList, []⟩))
  else
    match policy.run (attemptNext shuffled send) (s, 0, none) with
    | ((s, _, _), .error err) => (s, .error err)
    | ((s, _, resp), .ok ()) => (s, .ok resp)

/-! ### What a run comes to -/

/-- The loop of `backoff` without the marks on its errors, on the tries that are left. -/
def retryUnmarked (attempt : σ → σ × Except Error Unit) (left : List Unit) (s : σ) :
    σ × Except Error Unit :=
  (module.retry policy.backoff (left.length + 1) (operation attempt) s).map id
    (·.mapError Failure.unwrap)

theorem retryUnmarked_loop (hmodule : module.Lawful) (attempt : σ → σ × Except Error Unit) :
    RetryLoop attempt Error.isRetryable (policy.retryUnmarked attempt) := by
  intro left s
  rw [retryUnmarked, hmodule.retry_eq _ _ _ _ (Nat.succ_pos _), operation]
  rcases attempt s with ⟨s', err | value⟩
  · by_cases hretryable : err.isRetryable = true
    · simp only [hretryable, Bool.not_true, Bool.false_eq_true, if_false]
      cases left with
      | nil => exact if_pos rfl
      | cons _ left =>
        rw [if_neg (by simp)]
        exact (if_pos hretryable).symm
    · simp only [hretryable, Bool.not_false, if_true]
      cases left with
      | nil => rfl
      | cons _ left => exact (if_neg hretryable).symm
  · rfl

/-- Unless an attempt fails with the error of a context, which none does here. -/
theorem run_eq (attempt : σ → σ × Except Error Unit) (s : σ)
    (hcontext : ∀ err,
      (policy.retryUnmarked attempt (List.replicate policy.maxRetries ()) s).2 = .error err →
        err ≠ .deadlineExceeded ∧ err ≠ .canceled) :
    policy.run attempt s =
      policy.retryUnmarked attempt (List.replicate policy.maxRetries ()) s := by
  unfold retryUnmarked at hcontext ⊢
  unfold run
  rw [List.length_replicate] at hcontext ⊢
  rcases hretry : module.retry policy.backoff (policy.maxRetries + 1) (operation attempt) s with
    ⟨s', (err | err) | value⟩
  · rw [hretry] at hcontext
    obtain ⟨hdeadline, hcanceled⟩ := hcontext err rfl
    cases err <;> first | rfl | contradiction
  · rfl
  · rfl

/-- An attempt that notes the endpoint it is given, with the outcomes in order. -/
def noting (outcomes : Nat → Except Error T) (log : List Str) (endpoint : Str) :
    List Str × Except Error T :=
  (log ++ [endpoint], outcomes log.length)

/-- The response that is kept before attempt `i`. -/
def respAt (outcomes : Nat → Except Error T) : Nat → Option T
  | 0 => none
  | i + 1 =>
    match outcomes i with
    | .ok resp => some resp
    | .error _ => respAt outcomes i

section
variable (shuffled : List Str) (outcomes : Nat → Except Error T)

theorem attemptNext_noting (log : List Str) (attempts : Nat) (resp : Option T) :
    attemptNext shuffled (noting outcomes) (log, attempts, resp) =
      ((log ++ [shuffled.getD (attempts % shuffled.length) []], attempts + 1,
          match outcomes log.length with
          | .ok resp => some resp
          | .error _ => resp),
        (outcomes log.length).map fun _ => ()) := by
  rw [attemptNext, noting]
  rcases outcomes log.length with err | attemptResp <;> rfl

theorem stateAt_attemptNext (i : Nat) :
    stateAt (attemptNext shuffled (noting outcomes)) ([], 0, none) i =
      ((List.range i).map fun i => shuffled.getD (i % shuffled.length) [], i,
        respAt outcomes i) := by
  induction i with
  | zero => rfl
  | succ i ih =>
    rw [stateAt_succ, ih, attemptNext_noting, List.length_map, List.length_range,
      List.range_succ, List.map_append, List.map_singleton]
    rfl

theorem outcomeAt_attemptNext (i : Nat) :
    outcomeAt (attemptNext shuffled (noting outcomes)) ([], 0, none) i =
      (outcomes i).map fun _ => () := by
  rw [outcomeAt, stateAt_attemptNext, attemptNext_noting, List.length_map, List.length_range]

end

theorem runWithEndpoints_noting (hmodule : module.Lawful) {endpoints : List Str}
    (hendpoints : endpoints ≠ []) (shuffled : List Str) (outcomes : Nat → Except Error T)
    (hcontext : ∀ i err, outcomes i = .error err → err ≠ .deadlineExceeded ∧ err ≠ .canceled) :
    let a := attempts (fun i => decisive Error.isRetryable (outcomes i)) (1 + policy.maxRetries)
    policy.runWithEndpoints endpoints shuffled (noting outcomes) [] =
      ((List.range a).map fun i => shuffled.getD (i % shuffled.length) [],
        (outcomes (a - 1)).map some) := by
  intro a
  have hloop := (policy.retryUnmarked_loop hmodule (attemptNext shuffled (noting outcomes))).eq
    (List.replicate policy.maxRetries ()) ([], 0, none)
  have hdecisive : ∀ i, decisive Error.isRetryable ((outcomes i).map fun _ => ()) =
      decisive Error.isRetryable (outcomes i) := by
    intro i
    rcases outcomes i with err | resp <;> rfl
  simp only [stateAt_attemptNext, outcomeAt_attemptNext, hdecisive, List.length_replicate]
    at hloop
  change _ = (((List.range a).map _, a, respAt outcomes a), (outcomes (a - 1)).map _) at hloop
  rw [runWithEndpoints, if_neg (by simpa using hendpoints), policy.run_eq, hloop]
  · have hlast : respAt outcomes a = respAt outcomes (a - 1 + 1) := by
      rw [Nat.sub_add_cancel (attempts_pos (by omega))]
    rw [hlast, respAt]
    rcases outcomes (a - 1) with err | resp <;> rfl
  · intro err herr
    rw [hloop] at herr
    rcases hlast : outcomes (a - 1) with err' | resp
    · rw [hlast] at herr
      exact hcontext (a - 1) err (hlast.trans (congrArg Except.error (Except.error.inj herr)))
    · rw [hlast] at herr
      cases herr

end RetryPolicy

/-! ### A loop without delays -/

/-- The loop of `backoff.Retry`, as documented. -/
def exampleRetry {σ T : Type} (operation : σ → σ × Except Failure T) :
    (maxTries : Nat) → σ → σ × Except Failure T
  | 0, s => operation s
  | tries + 1, s =>
    match operation s with
    | (s', .ok value) => (s', .ok value)
    | (s', .error (.permanent err)) => (s', .error (.permanent err))
    | (s', .error (.transient err)) =>
      if tries = 0 then (s', .error (.transient err)) else exampleRetry operation tries s'

def exampleBackoff : BackoffModule where
  ExponentialBackOff := Unit
  retry _ maxTries operation s := exampleRetry operation maxTries s

theorem exampleBackoff_lawful : exampleBackoff.Lawful where
  retry_eq {σ T} b maxTries operation s hpos := by
    obtain ⟨tries, rfl⟩ := Nat.exists_eq_add_one.mpr hpos
    show (exampleRetry operation (tries + 1) s).map id _ = _
    rw [exampleRetry]
    rcases operation s with ⟨s', (err | err) | value⟩
    · show (if tries = 0 then _ else _ : σ × Except Failure T).map id _ =
        if tries + 1 = 1 then _ else _
      by_cases htries : tries = 0
      · rw [if_pos htries, if_pos (by rw [htries])]
        rfl
      · rw [if_neg htries, if_neg (by omega)]
        rfl
    · rfl
    · rfl

end DragonflySdk.Go
