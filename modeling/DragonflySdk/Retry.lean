import DragonflySdk.Errors
import DragonflySdk.Foundation.Retry
import DragonflySdk.Request
import Mathlib.Data.List.GetD

/-!
# Retries

`retry.rs`: a request is attempted, and on a transient failure attempted again on the next endpoint
of a shuffled order, `max_retries` times. The loop and the delays are those of the crate `backon`
(`BackonCrate`).

The policy overrides how many delays the backoff builder may yield, but not its limit on their sum:
a builder with a total delay may yield fewer than `max_retries`, and the loop then gives up early.
Otherwise it attempts exactly as often as the policy allows (`retry_iff`).
-/

namespace DragonflySdk

open Foundation

/-- What is called of `backon`. An attempt is a closure on the state it captures, together with the
context it is handed. -/
structure BackonCrate where
  ExponentialBuilder : Type
  /-- The delays of `backoff.with_max_times(max_times).build()`. -/
  delays : ExponentialBuilder → (maxTimes : Nat) → List Duration
  /-- `attempt.retry(delays).when(retryable)` -/
  retry : {σ T : Type} → (σ → σ × Except Error T) → (retryable : Error → Bool) →
    List Duration → σ → σ × Except Error T
  /-- `attempt.retry(delays).context(ctx).when(retryable)` -/
  retryWithContext : {σ Ctx T : Type} → (σ × Ctx → (σ × Ctx) × Except Error T) →
    (retryable : Error → Bool) → List Duration → σ × Ctx → (σ × Ctx) × Except Error T

/-- The documented behaviour: no more delays than asked for, and an attempt after each of them. -/
structure BackonCrate.Lawful (crate : BackonCrate) : Prop where
  length_delays_le : ∀ backoff maxTimes, (crate.delays backoff maxTimes).length ≤ maxTimes
  retry_loop : ∀ {σ T : Type} (attempt : σ → σ × Except Error T) retryable,
    RetryLoop attempt retryable (crate.retry attempt retryable)
  retryWithContext_loop : ∀ {σ Ctx T : Type} (attempt : σ × Ctx → (σ × Ctx) × Except Error T)
    retryable, RetryLoop attempt retryable (crate.retryWithContext attempt retryable)

/-- The retry policy of a client: how often a request is retried and how long each retry waits. -/
structure RetryPolicy (crate : BackonCrate) where
  maxRetries : Nat
  backoff : Option crate.ExponentialBuilder

namespace RetryPolicy

variable {crate : BackonCrate} (policy : RetryPolicy crate)

/-- The delay before each retry. -/
def delays : List Duration :=
  match policy.backoff with
  | some backoff => crate.delays backoff policy.maxRetries
  | none => List.replicate policy.maxRetries 0

variable {σ Ctx T : Type}

/-- Runs `attempt` until it succeeds, fails definitively, or the delays run out. -/
def run (attempt : σ → σ × Except Error T) (s : σ) : σ × Except Error T :=
  crate.retry attempt Error.isRetryable policy.delays s

/-- Where attempt `i` is aimed at; the order is not empty. -/
def target (shuffled : List Str) (i : Nat) : Str := shuffled.getD (i % shuffled.length) []

/-- The closure on its count of attempts: aims at the next endpoint. -/
def attemptNext (shuffled : List Str) (attempt : σ → Ctx → Str → (σ × Ctx) × Except Error T) :
    (Nat × σ) × Ctx → ((Nat × σ) × Ctx) × Except Error T
  | ((attempts, s), ctx) =>
    let ((s, ctx), result) := attempt s ctx (target shuffled attempts)
    (((attempts + 1, s), ctx), result)

/-- Runs `attempt` like `run`, every attempt aimed at the next endpoint of a shuffled order. -/
def runWithEndpoints (endpoints shuffled : List Str) (ctx : Ctx)
    (attempt : σ → Ctx → Str → (σ × Ctx) × Except Error T) (s : σ) : (σ × Ctx) × Except Error T :=
  if endpoints = [] then ((s, ctx), .error (.invalidArgument "no endpoints to send request".toList))
  else
    let (((_, s), ctx), result) := crate.retryWithContext (attemptNext shuffled attempt)
      Error.isRetryable policy.delays ((0, s), ctx)
    ((s, ctx), result)

/-! ### Attempts with given outcomes -/

/-- An attempt that notes the context and the endpoint it is given, with the outcomes in order. -/
def noting (outcomes : Nat → Ctx × Except Error T) (log : List (Ctx × Str)) (ctx : Ctx)
    (endpoint : Str) : (List (Ctx × Str) × Ctx) × Except Error T :=
  ((log ++ [(ctx, endpoint)], (outcomes log.length).1), (outcomes log.length).2)

/-- An attempt that counts, with the outcomes in order. -/
def counting (outcomes : Nat → Except Error T) (made : Nat) : Nat × Except Error T :=
  (made + 1, outcomes made)

/-- The context handed to attempt `i`: that of the one before. -/
def contextAt (ctx : Ctx) (outcomes : Nat → Ctx × Except Error T) : Nat → Ctx
  | 0 => ctx
  | i + 1 => (outcomes i).1

/-- How many attempts the policy allows with these outcomes. -/
def allowed (outcomes : Nat → Except Error T) : Nat :=
  attempts (fun i => decisive Error.isRetryable (outcomes i)) (1 + policy.maxRetries)

/-- What a run over endpoints comes to that makes `a` attempts, with `limit` allowed. -/
structure Rotates (a limit : Nat) (endpoints shuffled : List Str) (ctx : Ctx)
    (outcomes : Nat → Ctx × Except Error T) (run : (List (Ctx × Str) × Ctx) × Except Error T) :
    Prop where
  /-- Each attempt is aimed at its position and gets the context of the one before. -/
  log_eq : run.1.1 = (List.range a).map fun i => (contextAt ctx outcomes i, target shuffled i)
  /-- The context and the outcome of the last one are handed back. -/
  ctx_eq : run.1.2 = contextAt ctx outcomes a
  result_eq : run.2 = (outcomes (a - 1)).2
  /-- Attempts in a row, as many as there are endpoints, aim at different positions. -/
  distinct : ∀ k, k + min a endpoints.length ≤ a →
    ((List.range' k (min a endpoints.length)).map (· % shuffled.length)).Nodup
  /-- Every position is tried as often as any other, up to one. -/
  balanced : ∀ j < endpoints.length,
    Nat.count (· % shuffled.length = j) a = a / endpoints.length ∨
      Nat.count (· % shuffled.length = j) a = (a + endpoints.length - 1) / endpoints.length
  /-- With enough attempts allowed, a retryable error comes after every endpoint was tried. -/
  exhausted : ∀ err, run.2 = .error err → err.isRetryable = true → endpoints.length ≤ limit →
    ∀ endpoint ∈ endpoints, endpoint ∈ run.1.1.map Prod.snd

/-- How many retries the backoff leaves. -/
def backoffRetries : Nat :=
  match policy.backoff with
  | some backoff => (crate.delays backoff policy.maxRetries).length
  | none => policy.maxRetries

theorem length_delays : policy.delays.length = policy.backoffRetries := by
  unfold delays backoffRetries
  cases policy.backoff with
  | none => exact List.length_replicate
  | some backoff => rfl

theorem backoffRetries_le (hcrate : crate.Lawful) : policy.backoffRetries ≤ policy.maxRetries := by
  unfold backoffRetries
  cases policy.backoff with
  | none => exact Nat.le_refl _
  | some backoff => exact hcrate.length_delays_le backoff _

/-! ### What a run comes to -/

section
variable (shuffled : List Str) (ctx : Ctx) (outcomes : Nat → Ctx × Except Error T)

theorem stateAt_attemptNext (i : Nat) :
    stateAt (attemptNext shuffled (noting outcomes)) ((0, []), ctx) i =
      ((i, (List.range i).map fun i => (contextAt ctx outcomes i, target shuffled i)),
        contextAt ctx outcomes i) := by
  induction i with
  | zero => rfl
  | succ i ih =>
    rw [stateAt_succ, ih, List.range_succ, List.map_append, List.map_singleton]
    show (((i + 1, _), _) : (Nat × List (Ctx × Str)) × Ctx) = _
    simp only [List.length_map, List.length_range, contextAt]

theorem outcomeAt_attemptNext (i : Nat) :
    outcomeAt (attemptNext shuffled (noting outcomes)) ((0, []), ctx) i = (outcomes i).2 := by
  rw [outcomeAt, stateAt_attemptNext]
  simp only [attemptNext, noting, List.length_map, List.length_range]

end

theorem stateAt_counting (outcomes : Nat → Except Error T) (i : Nat) :
    stateAt (counting outcomes) 0 i = i := by
  induction i with
  | zero => rfl
  | succ i ih => rw [stateAt_succ, ih, counting]

theorem outcomeAt_counting (outcomes : Nat → Except Error T) (i : Nat) :
    outcomeAt (counting outcomes) 0 i = outcomes i := by
  rw [outcomeAt, stateAt_counting, counting]

/-- The attempts there are delays for. -/
def made (outcomes : Nat → Except Error T) : Nat :=
  attempts (fun i => decisive Error.isRetryable (outcomes i)) (1 + policy.backoffRetries)

theorem run_counting (hcrate : crate.Lawful) (outcomes : Nat → Except Error T) :
    policy.run (counting outcomes) 0 =
      (policy.made outcomes, outcomes (policy.made outcomes - 1)) := by
  rw [run, (hcrate.retry_loop (counting outcomes) Error.isRetryable).eq, length_delays]
  simp only [stateAt_counting, outcomeAt_counting]
  rfl

theorem runWithEndpoints_noting (hcrate : crate.Lawful) {endpoints : List Str}
    (hendpoints : endpoints ≠ []) (shuffled : List Str) (ctx : Ctx)
    (outcomes : Nat → Ctx × Except Error T) :
    policy.runWithEndpoints endpoints shuffled ctx (noting outcomes) [] =
      (((List.range (policy.made fun i => (outcomes i).2)).map fun i =>
          (contextAt ctx outcomes i, target shuffled i),
        contextAt ctx outcomes (policy.made fun i => (outcomes i).2)),
        (outcomes ((policy.made fun i => (outcomes i).2) - 1)).2) := by
  rw [runWithEndpoints, if_neg hendpoints,
    (hcrate.retryWithContext_loop (attemptNext shuffled (noting outcomes)) Error.isRetryable).eq,
    length_delays]
  simp only [stateAt_attemptNext, outcomeAt_attemptNext]
  rfl

theorem made_eq_allowed_iff (hcrate : crate.Lawful) (outcomes : Nat → Except Error T) :
    policy.made outcomes = policy.allowed outcomes ↔
      policy.backoffRetries = policy.maxRetries ∨
        ∃ i ≤ policy.backoffRetries, decisive Error.isRetryable (outcomes i) = true := by
  have hle := policy.backoffRetries_le hcrate
  rw [made, allowed, attempts_eq_iff (by omega), Nat.add_left_cancel_iff]
  simp only [Nat.one_add, Nat.lt_succ_iff]

theorem target_mem {shuffled : List Str} {endpoint : Str} (h : endpoint ∈ shuffled) :
    ∃ i < shuffled.length, target shuffled i = endpoint := by
  obtain ⟨i, hi, heq⟩ := List.getElem_of_mem h
  refine ⟨i, hi, ?_⟩
  rw [target, Nat.mod_eq_of_lt hi, List.getD_eq_getElem _ _ hi, heq]

theorem rotates {endpoints shuffled : List Str}
    (hshuffled : shuffled.Perm endpoints) (ctx : Ctx) (outcomes : Nat → Ctx × Except Error T)
    {a : Nat} (ha : a = policy.allowed fun i => (outcomes i).2) :
    Rotates a (1 + policy.maxRetries) endpoints shuffled ctx outcomes
      (((List.range a).map fun i => (contextAt ctx outcomes i, target shuffled i),
        contextAt ctx outcomes a), (outcomes (a - 1)).2) where
  log_eq := rfl
  ctx_eq := rfl
  result_eq := rfl
  distinct k _ := by
    rw [hshuffled.length_eq]
    exact nodup_positions k (Nat.min_le_right _ _)
  balanced j hj := by
    rw [hshuffled.length_eq]
    exact count_position a hj
  exhausted err herr hretryable hlimit endpoint hmem := by
    have hall : 1 + policy.maxRetries ≤ a := by
      by_contra hlt
      rw [ha] at hlt herr
      have hdecisive := decisive_of_attempts_lt (Nat.lt_of_not_le hlt)
      change decisive Error.isRetryable (outcomes _).2 = true at hdecisive
      have hoffending : (outcomes
          (attempts (fun i => decisive Error.isRetryable (outcomes i).2) (1 + policy.maxRetries)
            - 1)).2 = .error err := herr
      rw [hoffending] at hdecisive
      simp [decisive, hretryable] at hdecisive
    obtain ⟨i, hi, htarget⟩ := target_mem (hshuffled.mem_iff.mpr hmem)
    rw [hshuffled.length_eq] at hi
    have hlt : i < a := by omega
    rw [List.map_map, List.mem_map]
    exact ⟨i, List.mem_range.mpr hlt, htarget⟩

end RetryPolicy

/-- **A request is attempted as often as the policy allows, over all endpoints in turn**, if and
only if the backoff leaves the policy its retries, or an outcome within what it leaves is
decisive. -/
theorem retry_iff (crate : BackonCrate) (hcrate : crate.Lawful) (policy : RetryPolicy crate)
    {Ctx T : Type} (endpoints shuffled : List Str) (hendpoints : endpoints ≠ [])
    (hshuffled : shuffled.Perm endpoints) (ctx : Ctx) (outcomes : Nat → Ctx × Except Error T) :
    RetryPolicy.Rotates (policy.allowed fun i => (outcomes i).2) (1 + policy.maxRetries) endpoints
          shuffled ctx outcomes
          (policy.runWithEndpoints endpoints shuffled ctx (RetryPolicy.noting outcomes) []) ∧
        policy.run (RetryPolicy.counting fun i => (outcomes i).2) 0 =
          (policy.allowed fun i => (outcomes i).2,
            (outcomes ((policy.allowed fun i => (outcomes i).2) - 1)).2) ∧
        (∀ shuffled, policy.runWithEndpoints [] shuffled ctx (RetryPolicy.noting outcomes) [] =
          (([], ctx), .error (.invalidArgument "no endpoints to send request".toList))) ↔
      policy.backoffRetries = policy.maxRetries ∨
        ∃ i ≤ policy.backoffRetries, decisive Error.isRetryable (outcomes i).2 = true := by
  rw [← policy.made_eq_allowed_iff hcrate fun i => (outcomes i).2,
    policy.runWithEndpoints_noting hcrate hendpoints, policy.run_counting hcrate]
  constructor
  · intro h
    obtain ⟨_, hrun, _⟩ := h
    exact congrArg Prod.fst hrun
  · intro heq
    refine ⟨?_, ?_, fun _ => rfl⟩
    · rw [← heq]
      exact policy.rotates hshuffled ctx outcomes heq
    · rw [heq]

/-! ### A backoff with a limit on the sum of its delays -/

/-- An exponential backoff of factor two, in nanoseconds. -/
structure ExampleBuilder where
  minDelay : Duration
  maxDelay : Duration
  totalDelay : Option Duration

/-- The delays as long as their sum stays within the total delay. -/
def withinTotal (totalDelay : Option Duration) : (elapsed : Duration) → List Duration → List Duration
  | _, [] => []
  | elapsed, delay :: delays =>
    if totalDelay.any (· < elapsed + delay) then []
    else delay :: withinTotal totalDelay (elapsed + delay) delays

theorem length_withinTotal_le (totalDelay : Option Duration) (elapsed : Duration)
    (delays : List Duration) : (withinTotal totalDelay elapsed delays).length ≤ delays.length := by
  induction delays generalizing elapsed with
  | nil => exact Nat.le_refl 0
  | cons delay delays ih =>
    unfold withinTotal
    split
    · exact Nat.zero_le _
    · exact Nat.succ_le_succ (ih _)

/-- The loop of `backon`, as documented. -/
def exampleLoop {S T : Type} (attempt : S → S × Except Error T) (retryable : Error → Bool) :
    List Duration → S → S × Except Error T
  | [], s => attempt s
  | _ :: delays, s =>
    match attempt s with
    | (s', .ok value) => (s', .ok value)
    | (s', .error err) =>
      if retryable err then exampleLoop attempt retryable delays s' else (s', .error err)

theorem exampleLoop_retryLoop {S T : Type} (attempt : S → S × Except Error T)
    (retryable : Error → Bool) : RetryLoop attempt retryable (exampleLoop attempt retryable) := by
  intro delays s
  cases delays with
  | nil =>
    show attempt s = _
    rcases attempt s with ⟨s', err | value⟩ <;> rfl
  | cons delay delays =>
    rw [exampleLoop]
    rcases attempt s with ⟨s', err | value⟩ <;> rfl

def exampleBackon : BackonCrate where
  ExponentialBuilder := ExampleBuilder
  delays backoff maxTimes := withinTotal backoff.totalDelay 0
    ((List.range maxTimes).map fun i => min (backoff.minDelay * 2 ^ i) backoff.maxDelay)
  retry := exampleLoop
  retryWithContext := exampleLoop

theorem exampleBackon_lawful : exampleBackon.Lawful where
  length_delays_le backoff maxTimes := by
    refine (length_withinTotal_le _ _ _).trans ?_
    rw [List.length_map, List.length_range]
  retry_loop := exampleLoop_retryLoop
  retryWithContext_loop := exampleLoop_retryLoop

/-- Three retries, backed off by one second and more; two seconds in all. -/
def examplePolicy : RetryPolicy exampleBackon :=
  ⟨3, some ⟨1000000000, 60000000000, some 2000000000⟩⟩

/-- The first attempt times out, the second succeeds. -/
def exampleOutcomes (i : Nat) : Unit × Except Error Unit :=
  ((), if i = 0 then .error (.requestTimeout []) else .ok ())

/-- At a policy cut short, and an outcome that comes before. -/
theorem retry_iff_second :
    RetryPolicy.Rotates (examplePolicy.allowed fun i => (exampleOutcomes i).2)
          (1 + examplePolicy.maxRetries) ["a".toList, "b".toList] ["b".toList, "a".toList] ()
          exampleOutcomes
          (examplePolicy.runWithEndpoints ["a".toList, "b".toList] ["b".toList, "a".toList] ()
            (RetryPolicy.noting exampleOutcomes) []) ∧
        examplePolicy.run (RetryPolicy.counting fun i => (exampleOutcomes i).2) 0 =
          (examplePolicy.allowed fun i => (exampleOutcomes i).2,
            (exampleOutcomes ((examplePolicy.allowed fun i => (exampleOutcomes i).2) - 1)).2) ∧
        (∀ shuffled, examplePolicy.runWithEndpoints [] shuffled ()
            (RetryPolicy.noting exampleOutcomes) [] =
          (([], ()), .error (.invalidArgument "no endpoints to send request".toList))) ↔
      examplePolicy.backoffRetries = examplePolicy.maxRetries ∨
        ∃ i ≤ examplePolicy.backoffRetries,
          decisive Error.isRetryable (exampleOutcomes i).2 = true :=
  retry_iff exampleBackon exampleBackon_lawful examplePolicy _ _ (by decide)
    (List.Perm.swap _ _ _) () exampleOutcomes

/-- The second delay would exceed the total: of the four attempts only two are made. -/
theorem not_retry :
    ¬ ∀ (crate : BackonCrate), crate.Lawful → ∀ (policy : RetryPolicy crate) (Ctx T : Type)
      (endpoints shuffled : List Str), endpoints ≠ [] → shuffled.Perm endpoints → ∀ (ctx : Ctx)
      (outcomes : Nat → Ctx × Except Error T),
        RetryPolicy.Rotates (policy.allowed fun i => (outcomes i).2) (1 + policy.maxRetries)
          endpoints shuffled ctx outcomes
          (policy.runWithEndpoints endpoints shuffled ctx (RetryPolicy.noting outcomes) []) := by
  intro h
  have hlog := (h exampleBackon exampleBackon_lawful examplePolicy Unit Unit ["a".toList]
    ["a".toList] (by decide) (List.Perm.refl _) ()
    fun _ => ((), .error (.requestTimeout []))).log_eq
  have hlength := congrArg List.length hlog
  revert hlength
  decide +kernel

end DragonflySdk
