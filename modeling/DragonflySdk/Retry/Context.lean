import DragonflySdk.Retry.Go

/-!
# Retries in Go under a context

`run` of `retry.go` for a context that may end, cancelled or expired, while an attempt is made or a
delay is waited for. `backoff.Retry` then gives up with the cause of the context (`ContextBackoff`),
and `run` tells by that cause how the context ended.

It knows the causes a context has by itself. A context that is ended with a cause of its own is
reported as that cause; and an error of the last attempt that wraps `context.Canceled` or
`context.DeadlineExceeded` is taken for that of the context. Otherwise the retries end as documented
(`run_context_iff`). Under a context that does not end, the runs are those of `Retry.Go` (`run_tree`).
-/

namespace DragonflySdk.Go

open Foundation

/-- How a context ends, with what `context.Cause` then returns. -/
inductive ContextEnd
  | cancelled (cause : WrappedError)
  | expired (cause : WrappedError)

namespace ContextEnd

def cause : ContextEnd → WrappedError
  | cancelled cause | expired cause => cause

/-- The error that is documented for it. -/
def sentinel : ContextEnd → Sentinel
  | cancelled _ => .internal
  | expired _ => .requestTimeout

end ContextEnd

/-- What is called of `backoff`; the nil backoff stands for a `ZeroBackOff`. -/
structure ContextBackoff where
  ExponentialBackOff : Type
  /-- Whether the mark is taken off a permanent error, with tries left or without. -/
  unmarks : (triesLeft : Bool) → Bool
  /-- `backoff.Retry(ctx, operation, WithBackOff(b), WithMaxTries(n), WithMaxElapsedTime(0))`;
  `ended` is how the context has ended by the end of the delay after a try, if it has. -/
  retry : {σ : Type} → Option ExponentialBackOff → (maxTries : Nat) →
    (ended : σ → Option ContextEnd) → (σ → σ × Except WrappedError Unit) → σ →
    σ × Except WrappedError Unit

/-- The error of the operation when it is not tried again. -/
def ContextBackoff.lastError (module : ContextBackoff) (triesLeft : Bool) (err : WrappedError) :
    WrappedError :=
  match permanent? err with
  | some marked => if module.unmarks triesLeft then marked else err
  | none => err

/-- The documented behaviour: it stops after the last try and at a permanent error with the error of
the operation, and when the context has ended with the cause of that. -/
structure ContextBackoff.Lawful (module : ContextBackoff) : Prop where
  retry_eq : ∀ {σ : Type} (b : Option module.ExponentialBackOff) (maxTries : Nat)
    (ended : σ → Option ContextEnd) (operation : σ → σ × Except WrappedError Unit) (s : σ),
    0 < maxTries → module.retry b maxTries ended operation s =
      match operation s with
      | (s', .ok ()) => (s', .ok ())
      | (s', .error err) =>
        if maxTries = 1 then (s', .error (module.lastError false err))
        else if (permanent? err).isSome then (s', .error (module.lastError true err))
        else
          match ended s' with
          | some ending => (s', .error ending.cause)
          | none => module.retry b (maxTries - 1) ended operation s'

/-- How often a request is retried and how long each retry waits. -/
structure ContextRetryPolicy (module : ContextBackoff) where
  maxRetries : Nat
  backoff : Option module.ExponentialBackOff

/-- What `run` returns for the error of `backoff.Retry`. -/
def reported (err : WrappedError) : WrappedError :=
  match permanent? err with
  | some marked => marked
  | none =>
    if errorsIs err .deadlineExceeded then
      errorf ⟨"%w: %v".toList, []⟩ [.node (.sentinel .requestTimeout) []]
    else if errorsIs err .canceled then
      errorf ⟨"%w: %v".toList, []⟩ [.node (.sentinel .internal) []]
    else err

/-- The error of an attempt, as the operation returns it. -/
def operationError (err : WrappedError) : WrappedError :=
  if !isRetryable err then markPermanent err else err

namespace ContextRetryPolicy

variable {module : ContextBackoff} (policy : ContextRetryPolicy module) {σ : Type}

/-- The operation that is retried. -/
def operation (attempt : σ → σ × Except WrappedError Unit) (s : σ) : σ × Except WrappedError Unit :=
  match attempt s with
  | (s, .ok ()) => (s, .ok ())
  | (s, .error err) => (s, .error (operationError err))

/-- Runs `attempt` until it succeeds, fails definitively, or has been retried `maxRetries` times. -/
def run (ended : σ → Option ContextEnd) (attempt : σ → σ × Except WrappedError Unit) (s : σ) :
    σ × Except WrappedError Unit :=
  match module.retry policy.backoff (policy.maxRetries + 1) ended (operation attempt) s with
  | (s, .ok ()) => (s, .ok ())
  | (s, .error err) => (s, .error (reported err))

end ContextRetryPolicy

/-! ### Attempts with given outcomes -/

/-- An attempt that counts, with the outcomes in order. -/
def counting (outcomes : Nat → Except WrappedError Unit) (made : Nat) :
    Nat × Except WrappedError Unit :=
  (made + 1, outcomes made)

/-- How the context has ended after some attempts and the delay after them, given the attempt
during or after which it does. -/
def endedBy (moment : Option (Nat × ContextEnd)) (made : Nat) : Option ContextEnd :=
  moment.bind fun (i, ending) => if i < made then some ending else none

/-- A failure that is worth another attempt, and is not marked as permanent by the attempt. -/
def Transient? (err : WrappedError) : Bool := isRetryable err && (permanent? err).isNone

/-- No attempt follows attempt `i`. -/
def stopsAt (outcomes : Nat → Except WrappedError Unit) (moment : Option (Nat × ContextEnd))
    (i : Nat) : Bool :=
  match outcomes i with
  | .ok () => true
  | .error err => !Transient? err || (endedBy moment (i + 1)).isSome

theorem stopsAt_error {outcomes : Nat → Except WrappedError Unit}
    {moment : Option (Nat × ContextEnd)} {i : Nat} {err : WrappedError}
    (h : outcomes i = .error err) :
    stopsAt outcomes moment i = (!Transient? err || (endedBy moment (i + 1)).isSome) := by
  rw [stopsAt, h]

/-- The attempts that are made: up to the first that none follows. -/
def attemptsMade (maxRetries : Nat) (outcomes : Nat → Except WrappedError Unit)
    (moment : Option (Nat × ContextEnd)) : Nat :=
  attempts (stopsAt outcomes moment) (1 + maxRetries)

/-- The error of `backoff.Retry` when the last of the attempts made fails. -/
def retryError (module : ContextBackoff) (maxRetries made : Nat) (ended : Option ContextEnd)
    (err : WrappedError) : WrappedError :=
  if Transient? err = true ∧ made ≤ maxRetries then
    match ended with
    | some ending => ending.cause
    | none => err
  else module.lastError (decide (made ≤ maxRetries)) (operationError err)

/-- The error of `run` then. -/
def runError (module : ContextBackoff) (maxRetries made : Nat) (ended : Option ContextEnd)
    (err : WrappedError) : WrappedError :=
  reported (retryError module maxRetries made ended err)

theorem permanent?_operationError (err : WrappedError) :
    (permanent? (operationError err)).isSome = !Transient? err := by
  unfold operationError Transient?
  by_cases hretryable : isRetryable err = true
  · rw [hretryable]
    show (permanent? err).isSome = !(permanent? err).isNone
    cases permanent? err <;> rfl
  · rw [Bool.eq_false_of_not_eq_true hretryable]
    show (permanent? (markPermanent err)).isSome = true
    rw [permanent?_mark, Option.isSome_some]

theorem retryError_ended {module : ContextBackoff} {maxRetries made : Nat} {ending : ContextEnd}
    {err : WrappedError} (h : Transient? err = true) (hmade : made ≤ maxRetries) :
    retryError module maxRetries made (some ending) err = ending.cause :=
  if_pos ⟨h, hmade⟩

theorem retryError_of_not {module : ContextBackoff} {maxRetries made : Nat}
    {ended : Option ContextEnd} {err : WrappedError}
    (h : ¬ (Transient? err = true ∧ made ≤ maxRetries)) :
    retryError module maxRetries made ended err =
      module.lastError (decide (made ≤ maxRetries)) (operationError err) :=
  if_neg h

theorem retryError_succ (module : ContextBackoff) (maxRetries made : Nat) :
    retryError module (maxRetries + 1) (made + 1) = retryError module maxRetries made := by
  funext ended err
  simp only [retryError, Nat.add_le_add_iff_right]

section
variable {module : ContextBackoff} (hmodule : module.Lawful)
variable (b : Option module.ExponentialBackOff) (outcomes : Nat → Except WrappedError Unit)
variable (moment : Option (Nat × ContextEnd))
include hmodule

theorem retry_last (m : Nat) :
    module.retry b 1 (endedBy moment) (ContextRetryPolicy.operation (counting outcomes)) m =
      (m + 1, (outcomes m).mapError (retryError module 0 1 (endedBy moment (m + 1)))) := by
  rw [hmodule.retry_eq _ _ _ _ _ (by omega), ContextRetryPolicy.operation, counting]
  rcases outcomes m with err | value
  · show (if 0 + 1 = 1 then _ else _) = (m + 1, Except.error (retryError module 0 1 _ err))
    rw [if_pos rfl, retryError_of_not (by omega)]
    rfl
  · rfl

theorem retry_stops {retries m : Nat} (hstops : stopsAt outcomes moment m = true) :
    module.retry b (retries + 1 + 1) (endedBy moment)
        (ContextRetryPolicy.operation (counting outcomes)) m =
      (m + 1, (outcomes m).mapError
        (retryError module (retries + 1) 1 (endedBy moment (m + 1)))) := by
  rw [hmodule.retry_eq _ _ _ _ _ (by omega), ContextRetryPolicy.operation, counting]
  rcases houtcome : outcomes m with err | value
  · show (if retries + 1 + 1 = 1 then _ else _) =
      (m + 1, Except.error (retryError module (retries + 1) 1 _ err))
    rw [if_neg (by omega), permanent?_operationError]
    rw [stopsAt_error houtcome] at hstops
    by_cases htransient : Transient? err = true
    · -- the context has ended
      rw [htransient] at hstops
      obtain ⟨ending, hended⟩ := Option.isSome_iff_exists.mp hstops
      rw [if_neg (by rw [htransient]; exact Bool.false_ne_true), hended,
        retryError_ended htransient (by omega)]
    · rw [Bool.eq_false_of_not_eq_true htransient, retryError_of_not fun h => htransient h.1,
        decide_eq_true (show 1 ≤ retries + 1 by omega)]
      rfl
  · rfl

theorem retry_goes_on {retries m : Nat} (hstops : stopsAt outcomes moment m = false) :
    module.retry b (retries + 1 + 1) (endedBy moment)
        (ContextRetryPolicy.operation (counting outcomes)) m =
      module.retry b (retries + 1) (endedBy moment)
        (ContextRetryPolicy.operation (counting outcomes)) (m + 1) := by
  rw [hmodule.retry_eq _ _ _ _ _ (by omega), ContextRetryPolicy.operation, counting]
  rcases houtcome : outcomes m with err | value
  · rw [stopsAt_error houtcome] at hstops
    obtain ⟨htransient, hended⟩ := Bool.or_eq_false_iff.mp hstops
    show (if retries + 1 + 1 = 1 then _ else _) = _
    rw [if_neg (by omega), permanent?_operationError, htransient, if_neg Bool.false_ne_true]
    show (match endedBy moment (m + 1) with
      | some ending => _
      | none => _) = _
    rw [Option.isNone_iff_eq_none.mp (Option.isSome_eq_false_iff.mp hended)]
    rfl
  · rw [stopsAt, houtcome] at hstops
    cases hstops

theorem retry_counting (retries m : Nat) :
    let made := attempts (fun i => stopsAt outcomes moment (m + i)) (retries + 1)
    module.retry b (retries + 1) (endedBy moment)
        (ContextRetryPolicy.operation (counting outcomes)) m =
      (m + made, (outcomes (m + made - 1)).mapError
        (retryError module retries made (endedBy moment (m + made)))) := by
  induction retries generalizing m with
  | zero =>
    have hone : attempts (fun i => stopsAt outcomes moment (m + i)) 1 = 1 :=
      Nat.le_antisymm (attempts_le 1) (attempts_pos (by omega))
    intro made
    rw [show made = 1 from hone, Nat.add_sub_cancel]
    exact retry_last hmodule b outcomes moment m
  | succ retries ih =>
    intro made
    have hmade : made = if stopsAt outcomes moment m = true then 1
        else attempts (fun i => stopsAt outcomes moment (m + (i + 1))) (retries + 1) + 1 :=
      attempts_succ _
    by_cases hstops : stopsAt outcomes moment m = true
    · rw [if_pos hstops] at hmade
      rw [hmade, Nat.add_sub_cancel]
      exact retry_stops hmodule b outcomes moment hstops
    · -- the rest is the run from the next attempt on
      have hshift : (fun i => stopsAt outcomes moment (m + (i + 1))) =
          fun i => stopsAt outcomes moment (m + 1 + i) := by
        funext i
        rw [Nat.add_assoc, Nat.add_comm 1 i]
      rw [if_neg hstops, hshift] at hmade
      have hrest := ih (m + 1)
      set made' := attempts (fun i => stopsAt outcomes moment (m + 1 + i)) (retries + 1)
      have hpos : 0 < made' := attempts_pos (Nat.succ_pos retries)
      have hcount : m + made = m + 1 + made' := by omega
      rw [retry_goes_on hmodule b outcomes moment (Bool.eq_false_of_not_eq_true hstops), hmade,
        retryError_succ, ← hmade, hcount]
      exact hrest

theorem run_counting (policy : ContextRetryPolicy module) :
    let made := attemptsMade policy.maxRetries outcomes moment
    policy.run (endedBy moment) (counting outcomes) 0 =
      (made, (outcomes (made - 1)).mapError
        (runError module policy.maxRetries made (endedBy moment made))) := by
  have hmade : attempts (fun i => stopsAt outcomes moment (0 + i)) (policy.maxRetries + 1) =
      attemptsMade policy.maxRetries outcomes moment := by
    rw [attemptsMade, Nat.add_comm 1]
    simp only [Nat.zero_add]
  have hretry := retry_counting hmodule policy.backoff outcomes moment policy.maxRetries 0
  intro made
  rw [ContextRetryPolicy.run, hretry, hmade, Nat.zero_add]
  rcases outcomes (made - 1) with err | value <;> rfl

end

/-! ### The error that is returned -/

/-- The cause tells how the context has ended. -/
def ContextEnd.Told : ContextEnd → Prop
  | .cancelled cause => errorsIs cause .deadlineExceeded = false ∧
      (errorsIs cause .canceled = true ∨ errorsIs cause .internal = true)
  | .expired cause => errorsIs cause .deadlineExceeded = true ∨
      errorsIs cause .canceled = false ∧ errorsIs cause .requestTimeout = true

/-- By what is returned for the cause, the context has ended as it has. -/
def ContextEnd.Reported (ending : ContextEnd) : Prop :=
  match permanent? ending.cause with
  | some marked => errorsIs marked ending.sentinel = true
  | none => ending.Told

theorem errorsIs_unmarked_iff (ending : ContextEnd) :
    errorsIs (if errorsIs ending.cause .deadlineExceeded = true then
        errorf ⟨"%w: %v".toList, []⟩ [.node (.sentinel .requestTimeout) []]
      else if errorsIs ending.cause .canceled = true then
        errorf ⟨"%w: %v".toList, []⟩ [.node (.sentinel .internal) []]
      else ending.cause) ending.sentinel = true ↔ ending.Told := by
  by_cases hdeadline : errorsIs ending.cause .deadlineExceeded = true
  · rw [if_pos hdeadline]
    cases ending with
    | cancelled cause =>
      exact ⟨fun h => absurd h Bool.false_ne_true,
        fun h => absurd (h.1.symm.trans hdeadline) Bool.false_ne_true⟩
    | expired cause => exact ⟨fun _ => Or.inl hdeadline, fun _ => rfl⟩
  · rw [if_neg hdeadline]
    by_cases hcanceled : errorsIs ending.cause .canceled = true
    · rw [if_pos hcanceled]
      cases ending with
      | cancelled cause =>
        exact ⟨fun _ => ⟨Bool.eq_false_of_not_eq_true hdeadline, Or.inl hcanceled⟩, fun _ => rfl⟩
      | expired cause =>
        refine ⟨fun h => absurd h Bool.false_ne_true, fun h => ?_⟩
        have hnot := (h.resolve_left hdeadline).1
        exact absurd (hnot.symm.trans hcanceled) Bool.false_ne_true
    · rw [if_neg hcanceled]
      cases ending with
      | cancelled cause =>
        exact ⟨fun h => ⟨Bool.eq_false_of_not_eq_true hdeadline, Or.inr h⟩,
          fun h => h.2.resolve_left hcanceled⟩
      | expired cause =>
        exact ⟨fun h => Or.inr ⟨Bool.eq_false_of_not_eq_true hcanceled, h⟩,
          fun h => (h.resolve_left hdeadline).2⟩

theorem errorsIs_reported_iff (ending : ContextEnd) :
    errorsIs (reported ending.cause) ending.sentinel = true ↔ ending.Reported := by
  unfold reported ContextEnd.Reported
  rcases permanent? ending.cause with _ | marked
  · exact errorsIs_unmarked_iff ending
  · exact Iff.rfl

/-- An error that is not marked and not of a context. -/
def Plain (err : WrappedError) : Prop :=
  permanent? err = none ∧ errorsIs err .deadlineExceeded = false ∧ errorsIs err .canceled = false

theorem permanent?_reported {err : WrappedError} (h : permanent? err = none) :
    permanent? (reported err) = none := by
  unfold reported
  rw [h]
  show permanent? (if errorsIs err .deadlineExceeded = true then _ else _) = none
  split
  · rfl
  · split
    · rfl
    · exact h

theorem sizeOf_reported_le (err : WrappedError) :
    sizeOf (reported err) ≤ sizeOf err ∨ permanent? (reported err) = none := by
  rcases hmark : permanent? err with _ | marked
  · exact Or.inr (permanent?_reported hmark)
  · left
    have hlt := sizeOf_of_permanent? hmark
    unfold reported
    rw [hmark]
    exact Nat.le_of_lt hlt

theorem reported_eq_self_iff (err : WrappedError) : reported err = err ↔ Plain err := by
  constructor
  · intro h
    have hmark : permanent? err = none := by
      rcases hmark : permanent? err with _ | marked
      · rfl
      · have hlt := sizeOf_of_permanent? hmark
        unfold reported at h
        rw [hmark] at h
        change marked = err at h
        rw [h] at hlt
        omega
    have hself := h
    unfold reported at h
    rw [hmark] at h
    change (if errorsIs err .deadlineExceeded = true then _ else
      if errorsIs err .canceled = true then _ else err) = err at h
    by_cases hdeadline : errorsIs err .deadlineExceeded = true
    · rw [if_pos hdeadline] at h
      rw [← h] at hdeadline
      cases hdeadline
    · rw [if_neg hdeadline] at h
      by_cases hcanceled : errorsIs err .canceled = true
      · rw [if_pos hcanceled] at h
        rw [← h] at hcanceled
        cases hcanceled
      · exact ⟨hmark, Bool.eq_false_of_not_eq_true hdeadline, Bool.eq_false_of_not_eq_true hcanceled⟩
  · rintro ⟨hmark, hdeadline, hcanceled⟩
    unfold reported
    rw [hmark, hdeadline, hcanceled]
    rfl

theorem reported_marked_ne {err marked : WrappedError} (h : permanent? err = some marked) :
    reported marked ≠ err := by
  intro heq
  rcases sizeOf_reported_le marked with hle | hnone
  · have hlt := sizeOf_of_permanent? h
    rw [heq] at hle
    omega
  · rw [heq, h] at hnone
    cases hnone

/-- Whether the error of the last attempt is returned as it is. -/
def Kept (unmarks : Bool) (err : WrappedError) : Prop :=
  if isRetryable err = false ∧ unmarks = false then unwrapPermanent? err = none else Plain err

theorem reported_lastError_iff (module : ContextBackoff) (triesLeft : Bool) (err : WrappedError) :
    reported (module.lastError triesLeft (operationError err)) = err ∧
      unwrapPermanent? err = none ↔ Kept (module.unmarks triesLeft) err := by
  have hself : reported err = err ∧ unwrapPermanent? err = none ↔ Plain err := by
    rw [reported_eq_self_iff]
    exact ⟨And.left, fun h => ⟨h, unwrapPermanent?_of_permanent? h.1⟩⟩
  unfold operationError ContextBackoff.lastError
  by_cases hretryable : isRetryable err = true
  · have hkept : Kept (module.unmarks triesLeft) err ↔ Plain err := by
      rw [Kept, if_neg fun h => Bool.false_ne_true (h.1.symm.trans hretryable)]
    rw [hkept, hretryable]
    show reported (match permanent? err with
      | some marked => if module.unmarks triesLeft = true then marked else err
      | none => err) = err ∧ _ ↔ _
    rcases hmark : permanent? err with _ | marked
    · exact hself
    · by_cases hunmarks : module.unmarks triesLeft = true
      · rw [hunmarks]
        refine ⟨fun h => absurd h.1 (reported_marked_ne hmark), fun h => ?_⟩
        rw [Plain, hmark] at h
        cases h.1
      · rw [Bool.eq_false_of_not_eq_true hunmarks]
        exact hself
  · have hfalse := Bool.eq_false_of_not_eq_true hretryable
    rw [hfalse]
    show reported (match permanent? (markPermanent err) with
      | some marked => if module.unmarks triesLeft = true then marked else markPermanent err
      | none => markPermanent err) = err ∧ _ ↔ _
    rw [permanent?_mark]
    by_cases hunmarks : module.unmarks triesLeft = true
    · have hkept : Kept true err ↔ Plain err := by
        rw [Kept, if_neg fun h => Bool.false_ne_true h.2.symm]
      rw [hunmarks, hkept]
      exact hself
    · have hreported : reported (markPermanent err) = err := by
        unfold reported
        rw [permanent?_mark]
      rw [Bool.eq_false_of_not_eq_true hunmarks, Kept, if_pos ⟨hfalse, rfl⟩]
      show reported (markPermanent err) = err ∧ _ ↔ _
      rw [hreported]
      exact and_iff_right rfl

/-- How the retries end: after all attempts that the outcomes and the context leave, with the error
of the last one, unless it would have been retried and the context has ended. -/
structure EndsAsDocumented (maxRetries : Nat) (outcomes : Nat → Except WrappedError Unit)
    (moment : Option (Nat × ContextEnd)) (result : Nat × Except WrappedError Unit) : Prop where
  made_pos : 0 < result.1
  made_le : result.1 ≤ 1 + maxRetries
  retried : ∀ i, i + 1 < result.1 →
    (∃ err, outcomes i = .error err ∧ Transient? err = true) ∧ endedBy moment (i + 1) = none
  ok : outcomes (result.1 - 1) = .ok () → result.2 = .ok ()
  failed : ∀ err, outcomes (result.1 - 1) = .error err →
    if Transient? err = true ∧ result.1 ≤ maxRetries then
      ∃ ending, endedBy moment result.1 = some ending ∧
        ∃ err', result.2 = .error err' ∧ errorsIs err' ending.sentinel = true
    else result.2 = .error err ∧ unwrapPermanent? err = none

/-- The errors are such that `run` reports them as documented. -/
def Reportable (module : ContextBackoff) (maxRetries : Nat)
    (outcomes : Nat → Except WrappedError Unit) (moment : Option (Nat × ContextEnd)) : Prop :=
  let made := attemptsMade maxRetries outcomes moment
  ∀ err, outcomes (made - 1) = .error err →
    if Transient? err = true ∧ made ≤ maxRetries then
      ∀ ending, endedBy moment made = some ending → ending.Reported
    else Kept (module.unmarks (decide (made ≤ maxRetries))) err

theorem retried_of_lt_attemptsMade {maxRetries : Nat} {outcomes : Nat → Except WrappedError Unit}
    {moment : Option (Nat × ContextEnd)} {i : Nat}
    (h : i + 1 < attemptsMade maxRetries outcomes moment) :
    (∃ err, outcomes i = .error err ∧ Transient? err = true) ∧ endedBy moment (i + 1) = none := by
  have hstops := (lt_attempts_iff.mp h).2 i (Nat.lt_succ_self i)
  unfold stopsAt at hstops
  rcases houtcome : outcomes i with err | value
  · rw [houtcome] at hstops
    change (!Transient? err || (endedBy moment (i + 1)).isSome) = false at hstops
    rw [Bool.or_eq_false_iff, Bool.not_eq_false', Option.isSome_eq_false_iff,
      Option.isNone_iff_eq_none] at hstops
    exact ⟨⟨err, rfl, hstops.1⟩, hstops.2⟩
  · rw [houtcome] at hstops
    cases hstops

theorem ended_of_last {maxRetries : Nat} {outcomes : Nat → Except WrappedError Unit}
    {moment : Option (Nat × ContextEnd)} {err : WrappedError}
    (herr : outcomes (attemptsMade maxRetries outcomes moment - 1) = .error err)
    (htransient : Transient? err = true) (hle : attemptsMade maxRetries outcomes moment ≤ maxRetries) :
    ∃ ending, endedBy moment (attemptsMade maxRetries outcomes moment) = some ending := by
  have hpos : 0 < attemptsMade maxRetries outcomes moment := attempts_pos (by omega)
  have hlt : attempts (stopsAt outcomes moment) (1 + maxRetries) < 1 + maxRetries := by
    show attemptsMade maxRetries outcomes moment < _
    omega
  have hstops : stopsAt outcomes moment (attemptsMade maxRetries outcomes moment - 1) = true :=
    decisive_of_attempts_lt hlt
  rw [stopsAt, herr, Nat.sub_add_cancel hpos] at hstops
  change (!Transient? err || _) = true at hstops
  rw [htransient] at hstops
  exact Option.isSome_iff_exists.mp hstops

theorem failed_iff {module : ContextBackoff} {maxRetries : Nat}
    {outcomes : Nat → Except WrappedError Unit} {moment : Option (Nat × ContextEnd)}
    {err : WrappedError}
    (herr : outcomes (attemptsMade maxRetries outcomes moment - 1) = .error err) :
    let made := attemptsMade maxRetries outcomes moment
    let result : Except WrappedError Unit :=
      .error (runError module maxRetries made (endedBy moment made) err)
    (if Transient? err = true ∧ made ≤ maxRetries then
      ∃ ending, endedBy moment made = some ending ∧
        ∃ err', result = .error err' ∧ errorsIs err' ending.sentinel = true
    else result = .error err ∧ unwrapPermanent? err = none) ↔
    if Transient? err = true ∧ made ≤ maxRetries then
      ∀ ending, endedBy moment made = some ending → ending.Reported
    else Kept (module.unmarks (decide (made ≤ maxRetries))) err := by
  intro made result
  by_cases hlast : Transient? err = true ∧ made ≤ maxRetries
  · obtain ⟨ending, hended⟩ := ended_of_last herr hlast.1 hlast.2
    have hcause : retryError module maxRetries made (endedBy moment made) err = ending.cause := by
      rw [hended]
      exact retryError_ended hlast.1 hlast.2
    have hresult : result = .error (reported ending.cause) :=
      congrArg (Except.error ∘ reported) hcause
    rw [if_pos hlast, if_pos hlast, hresult]
    constructor
    · rintro ⟨_, hended', _, heq, his⟩ ending' hending'
      obtain rfl := Option.some.inj (hended'.symm.trans hending')
      obtain rfl := Option.some.inj (hended.symm.trans hended')
      obtain rfl := Except.error.inj heq
      exact (errorsIs_reported_iff ending).mp his
    · intro hcan
      exact ⟨ending, hended, _, rfl, (errorsIs_reported_iff ending).mpr (hcan ending hended)⟩
  · have hresult : result =
        .error (reported (module.lastError (decide (made ≤ maxRetries)) (operationError err))) :=
      congrArg (Except.error ∘ reported) (retryError_of_not hlast)
    rw [if_neg hlast, if_neg hlast, hresult, Except.error.injEq]
    exact reported_lastError_iff module _ err

section
variable {module : ContextBackoff} (hmodule : module.Lawful)
include hmodule

/-- **The retries end as documented just when `run` can report the error for what it is**: at the
last attempt either the context is ended with a cause that tells how, or the error is neither marked
as permanent nor taken for that of a context. -/
theorem run_context_iff (policy : ContextRetryPolicy module)
    (outcomes : Nat → Except WrappedError Unit) (moment : Option (Nat × ContextEnd)) :
    EndsAsDocumented policy.maxRetries outcomes moment
        (policy.run (endedBy moment) (counting outcomes) 0) ↔
      Reportable module policy.maxRetries outcomes moment := by
  rw [run_counting hmodule]
  constructor
  · intro h err herr
    have hfailed := h.failed err herr
    simp only [herr] at hfailed
    exact (failed_iff herr).mp hfailed
  · intro h
    refine ⟨attempts_pos (by omega), attempts_le _, fun i hi => retried_of_lt_attemptsMade hi,
      fun hok => ?_, fun err herr => ?_⟩
    · simp only at hok ⊢
      rw [hok]
      rfl
    · simp only at herr ⊢
      rw [herr]
      exact (failed_iff herr).mpr (h err herr)

end

/-! ### A context that does not end -/

/-- An attempt, with the errors that its error wraps. -/
def treeOf {σ : Type} (attempt : σ → σ × Except Error Unit) (s : σ) : σ × Except WrappedError Unit :=
  (attempt s).map id (·.mapError Error.tree)

theorem plain_tree {err : Error} (h : err ≠ .deadlineExceeded ∧ err ≠ .canceled) :
    Plain err.tree := by
  obtain ⟨hdeadline, hcanceled⟩ := h
  cases err <;> first | contradiction | exact ⟨rfl, rfl, rfl⟩

theorem reported_lastError_tree (module : ContextBackoff) (triesLeft : Bool) {err : Error}
    (h : err ≠ .deadlineExceeded ∧ err ≠ .canceled) :
    reported (module.lastError triesLeft (operationError err.tree)) = err.tree := by
  have hplain := plain_tree h
  refine ((reported_lastError_iff module triesLeft err.tree).mpr ?_).1
  unfold Kept
  split
  · exact unwrapPermanent?_of_permanent? hplain.1
  · exact hplain

theorem Transient?_tree (err : Error) : Transient? err.tree = err.isRetryable := by
  rw [Transient?, permanent?_tree, Option.isNone_none, Bool.and_true, Error.isRetryable]

section
variable {module : ContextBackoff} (hmodule : module.Lawful) {σ : Type}
  {attempt : σ → σ × Except Error Unit}
  (hcontext : ∀ s err, (attempt s).2 = .error err → err ≠ .deadlineExceeded ∧ err ≠ .canceled)
include hmodule hcontext

theorem retry_tree (b : Option module.ExponentialBackOff)
    {loop : List Unit → σ → σ × Except Error Unit}
    (hloop : RetryLoop attempt Error.isRetryable loop) (left : List Unit) (s : σ) :
    (module.retry b (left.length + 1) (fun _ => none)
        (ContextRetryPolicy.operation (treeOf attempt)) s).map id (·.mapError reported) =
      treeOf (loop left) s := by
  induction left generalizing s with
  | nil =>
    have hlast := hcontext s
    rw [treeOf, hmodule.retry_eq _ _ _ _ _ (Nat.succ_pos _), hloop, ContextRetryPolicy.operation,
      treeOf]
    rcases hattempt : attempt s with ⟨s', err | value⟩
    · rw [hattempt] at hlast
      show (s', Except.error (reported (module.lastError false (operationError err.tree)))) = _
      rw [reported_lastError_tree module false (hlast err rfl)]
      rfl
    · rfl
  | cons _ left ih =>
    have hlast := hcontext s
    rw [treeOf, hmodule.retry_eq _ _ _ _ _ (Nat.succ_pos _), hloop, ContextRetryPolicy.operation,
      treeOf]
    rcases hattempt : attempt s with ⟨s', err | value⟩
    · rw [hattempt] at hlast
      show (if left.length + 1 + 1 = 1 then _ else if (permanent? _).isSome = true then _
        else module.retry b (left.length + 1) _ _ s' : σ × Except WrappedError Unit).map id _ = _
      rw [if_neg (by omega), permanent?_operationError, Transient?_tree]
      by_cases hretryable : err.isRetryable = true
      · rw [if_neg (by simp [hretryable]), ih]
        show treeOf (loop left) s' = (if err.isRetryable = true then loop left s' else _).map id _
        rw [if_pos hretryable]
        rfl
      · rw [if_pos (by simp [hretryable])]
        show (s', Except.error (reported (module.lastError true (operationError err.tree)))) =
          (if err.isRetryable = true then loop left s' else _).map id _
        rw [if_neg hretryable, reported_lastError_tree module true (hlast err rfl)]
        rfl
    · rfl

/-- **Under a context that does not end, a run is one of `Retry.Go`.** -/
theorem run_tree {plain : BackoffModule} (hplain : plain.Lawful) (policy : ContextRetryPolicy module)
    (plainPolicy : RetryPolicy plain) (hretries : policy.maxRetries = plainPolicy.maxRetries)
    (s : σ) :
    policy.run (fun _ => none) (treeOf attempt) s = treeOf (plainPolicy.run attempt) s := by
  have hloop := plainPolicy.retryUnmarked_loop hplain attempt
  have hlast : ∀ err, (plainPolicy.retryUnmarked attempt
      (List.replicate plainPolicy.maxRetries ()) s).2 = .error err →
        err ≠ .deadlineExceeded ∧ err ≠ .canceled := by
    intro err herr
    obtain ⟨last, _, heq⟩ := hloop.exists_last (fun _ _ (_ : True) _ => trivial)
      (List.replicate plainPolicy.maxRetries ()) trivial
    rw [heq] at herr
    exact hcontext last err herr
  have htree := retry_tree hmodule hcontext policy.backoff hloop
    (List.replicate plainPolicy.maxRetries ()) s
  rw [List.length_replicate] at htree
  rw [treeOf, plainPolicy.run_eq attempt s hlast]
  refine Eq.trans ?_ htree
  rw [ContextRetryPolicy.run, hretries]
  rcases module.retry policy.backoff (plainPolicy.maxRetries + 1) (fun _ => none)
    (ContextRetryPolicy.operation (treeOf attempt)) s with ⟨s', err | value⟩ <;> rfl

end

/-! ### A loop without delays -/

/-- The loop of `backoff.Retry`, as documented. -/
def exampleContextRetry {σ : Type} (ended : σ → Option ContextEnd)
    (operation : σ → σ × Except WrappedError Unit) :
    (maxTries : Nat) → σ → σ × Except WrappedError Unit
  | 0, s => operation s
  | tries + 1, s =>
    match operation s with
    | (s', .ok ()) => (s', .ok ())
    | (s', .error err) =>
      if tries = 0 then (s', .error err)
      else
        match permanent? err with
        | some marked => (s', .error marked)
        | none =>
          match ended s' with
          | some ending => (s', .error ending.cause)
          | none => exampleContextRetry ended operation tries s'

def exampleContextBackoff : ContextBackoff where
  ExponentialBackOff := Unit
  unmarks triesLeft := triesLeft
  retry _ maxTries ended operation s := exampleContextRetry ended operation maxTries s

theorem exampleContextBackoff_lawful : exampleContextBackoff.Lawful where
  retry_eq {σ} b maxTries ended operation s hpos := by
    obtain ⟨tries, rfl⟩ := Nat.exists_eq_add_one.mpr hpos
    show exampleContextRetry ended operation (tries + 1) s = _
    rw [exampleContextRetry]
    rcases operation s with ⟨s', err | value⟩
    · by_cases htries : tries = 0
      · rw [htries]
        show (s', Except.error err) = (s', .error (exampleContextBackoff.lastError false err))
        unfold ContextBackoff.lastError
        rcases permanent? err with _ | marked <;> rfl
      · show (if tries = 0 then _ else _) = if tries + 1 = 1 then _ else _
        rw [if_neg htries, if_neg (by omega)]
        unfold ContextBackoff.lastError
        rcases permanent? err with _ | marked <;> rfl
    · rfl

/-- A failure to connect, once, and a context that is cancelled with a cause of its own. -/
def exampleOutcomes (_ : Nat) : Except WrappedError Unit :=
  .error (Error.internal ⟨"%w: boom".toList, []⟩).tree

def exampleShutdown : ContextEnd := .cancelled (.node (.other "shutdown".toList []) [])

def exampleContextPolicy (maxRetries : Nat) : ContextRetryPolicy exampleContextBackoff :=
  ⟨maxRetries, none⟩

theorem run_context_iff_shutdown :
    EndsAsDocumented 1 exampleOutcomes (some (0, exampleShutdown))
        ((exampleContextPolicy 1).run (endedBy (some (0, exampleShutdown)))
          (counting exampleOutcomes) 0) ↔
      Reportable exampleContextBackoff 1 exampleOutcomes (some (0, exampleShutdown)) :=
  run_context_iff exampleContextBackoff_lawful (exampleContextPolicy 1) exampleOutcomes
    (some (0, exampleShutdown))

/-- The cause is returned, and it is not `ErrInternal`. -/
theorem not_endsAsDocumented : ¬ ∀ (maxRetries : Nat) (outcomes : Nat → Except WrappedError Unit)
    (moment : Option (Nat × ContextEnd)),
    EndsAsDocumented maxRetries outcomes moment
      ((exampleContextPolicy maxRetries).run (endedBy moment) (counting outcomes) 0) := by
  intro h
  have hfailed := (h 1 exampleOutcomes (some (0, exampleShutdown))).failed _ rfl
  obtain ⟨ending, hended, err', hresult, his⟩ := hfailed
  obtain rfl := Option.some.inj hended
  obtain rfl := Except.error.inj hresult
  exact absurd his (by decide)

end DragonflySdk.Go
