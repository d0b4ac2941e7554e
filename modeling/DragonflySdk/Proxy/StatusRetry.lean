import DragonflySdk.Proxy.Download
import DragonflySdk.Retry.Context

/-!
# Which failed calls are retried

A seed peer that fails to download or to delete a task answers with a gRPC status. Rust looks at its
details first, which may say what the origin answered; Go wraps the status as it is and looks at its
code. Both find the same failures worth another attempt as far as the origin's answer is as transient
as the code it came under (`retried_alike_iff`): a `404` that is reported as `Internal` is definitive
in Rust and retried in Go.
-/

namespace DragonflySdk

open Foundation

/-! ### The attempts in Go -/

namespace Go

/-- The error of an attempt to have a seed peer download the task, for the status it fails with. -/
def downloadError (id : Str) (status : Status) : WrappedError :=
  errorf ⟨"%w: failed to download task %s: %w".toList, [id]⟩
    [.node (.sentinel .internal) [], .node (.status status) []]

/-- An attempt to have a seed peer download the task, draining the response stream. -/
def downloadTask (id : Str) (messages : Nat) (failure : Option Status) : Except WrappedError Unit :=
  (drain messages failure).2.mapError (downloadError id)

/-- The error of an attempt to have a seed peer delete the task. -/
def deleteError (taskId : Str) (status : Status) : WrappedError :=
  errorf ⟨"%w: failed to delete task %s: %w".toList, [taskId]⟩
    [.node (.sentinel .internal) [], .node (.status status) []]

/-- An attempt to have a seed peer delete the task; `NotFound` counts as deleted. -/
def deleteTask (taskId : Str) : (failure : Option Status) → Except WrappedError Unit
  | none => .ok ()
  | some status => if status.code ≠ .notFound then .error (deleteError taskId status) else .ok ()

theorem isRetryable_wrapped (text : Format) (status : Status) :
    isRetryable (errorf text [.node (.sentinel .internal) [], .node (.status status) []]) =
      isRetryableCode status.code :=
  rfl

theorem permanent?_wrapped (text : Format) (status : Status) :
    permanent? (errorf text [.node (.sentinel .internal) [], .node (.status status) []]) = none :=
  rfl

end Go

/-! ### The failures that are worth another attempt -/

/-- What the origin answered marks a transient failure, or it is not known. -/
def Backend.Transient (backend : Backend) : Prop :=
  ∀ code, backend.statusCode = some code → 100 ≤ code → code ≤ 999 →
    500 ≤ code ∧ code ≤ 599 ∨ code = 408 ∨ code = 429

/-- The details of the status, if they tell what the origin answered, are as transient as its
code. -/
def Status.Consistent (decode : List UInt8 → Option Backend) (status : Status) : Prop :=
  ∀ backend, decode status.details = some backend →
    (backend.Transient ↔ Go.isRetryableCode status.code = true)

theorem isRetryable_statusCodeOf_iff (backend : Backend) (message : Option Str)
    (header : List (Str × Str)) :
    AnswerError.isRetryable ⟨message, header, backend.statusCode.bind statusCodeOf⟩ = true ↔
      backend.Transient := by
  unfold Backend.Transient AnswerError.isRetryable statusCodeOf
  rcases backend.statusCode with _ | code
  · simp
  · by_cases hvalid : 100 ≤ code ∧ code ≤ 999
    · obtain ⟨n, rfl⟩ := Int.eq_ofNat_of_zero_le (by omega : 0 ≤ code)
      simp [hvalid]
      omega
    · simp [hvalid]
      omega

/-- The details win in Rust, in Go the code does. -/
theorem isRetryable_fromStatus_iff (decode : List UInt8 → Option Backend) (status : Status) :
    (Error.fromStatus decode status).isRetryable = Go.isRetryableCode status.code ↔
      status.Consistent decode := by
  unfold Error.fromStatus Status.Consistent
  rcases hdecode : decode status.details with _ | backend
  · refine ⟨fun _ _ h => absurd h.symm (Option.some_ne_none _), fun _ => ?_⟩
    obtain ⟨code, message, details⟩ := status
    cases code <;> rfl
  · show AnswerError.isRetryable _ = _ ↔ _
    rw [Bool.eq_iff_iff, isRetryable_statusCodeOf_iff]
    exact ⟨fun h backend' heq => Option.some.inj heq ▸ h, fun h => h backend rfl⟩

/-! ### The attempts -/

/-- The failures that are `answered` are classified alike by both, and both attempt equally often. -/
structure RetriedAlike (decode : List UInt8 → Option Backend) (answered : Nat → Status → Prop)
    (wrap : Status → Go.WrappedError) (rustMade goMade : Nat) : Prop where
  classified : ∀ i status, answered i status →
    (Error.fromStatus decode status).isRetryable = Go.isRetryable (wrap status)
  attempts_eq : rustMade = goMade

section
variable (decode : List UInt8 → Option Backend) (addr id : Str)

theorem downloadTask_streamed (messages : Nat) (failure : Option Status) :
    downloadTask decode addr (.streamed messages failure) =
        (match failure with
          | none => .ok ()
          | some status => .error (.fromStatus decode status)) ∧
      Go.downloadTask id messages failure =
        match failure with
        | none => .ok ()
        | some status => .error (Go.downloadError id status) := by
  rcases failure with _ | status
  · rw [downloadTask, Go.downloadTask, drain_none]
    exact ⟨rfl, rfl⟩
  · rw [downloadTask, Go.downloadTask, drain_some]
    exact ⟨rfl, rfl⟩

variable {decode} {status : Status} {text : Go.Format}

theorem decisive_wrapped (h : status.Consistent decode) :
    decisive (T := Unit) Error.isRetryable (.error (.fromStatus decode status)) =
      !Go.Transient? (Go.errorf text [.node (.sentinel .internal) [], .node (.status status) []]) := by
  have halike := (isRetryable_fromStatus_iff decode status).mpr h
  rw [decisive, Go.Transient?, Go.permanent?_wrapped, Go.isRetryable_wrapped, halike,
    Option.isNone_none, Bool.and_true]

variable {addr id} (messages : Nat → Nat) (answers : Nat → Option Status)

theorem decisive_downloadTask {i : Nat}
    (h : ∀ status, answers i = some status → status.Consistent decode) :
    decisive Error.isRetryable (downloadTask decode addr (.streamed (messages i) (answers i))) =
      Go.stopsAt (fun i => Go.downloadTask id (messages i) (answers i)) none i := by
  obtain ⟨hrust, hgo⟩ := downloadTask_streamed decode addr id (messages i) (answers i)
  rw [Go.stopsAt, hrust, hgo]
  rcases hanswer : answers i with _ | status
  · rfl
  · show decisive _ _ = (!Go.Transient? (Go.downloadError id status) || false)
    rw [Bool.or_false]
    exact decisive_wrapped (h status hanswer)

theorem decisive_deleteTask {i : Nat}
    (h : ∀ status, answers i = some status → status.code ≠ .notFound → status.Consistent decode) :
    decisive Error.isRetryable (deleteTask decode addr (.answered (answers i))) =
      Go.stopsAt (fun i => Go.deleteTask id (answers i)) none i := by
  rw [Go.stopsAt]
  rcases hanswer : answers i with _ | status
  · rfl
  · by_cases hcode : status.code = .notFound
    · rw [deleteTask, Go.deleteTask, if_pos hcode, if_neg (fun hne => hne hcode)]
      rfl
    · rw [deleteTask, Go.deleteTask, if_neg hcode, if_pos hcode]
      show decisive _ _ = (!Go.Transient? (Go.deleteError id status) || false)
      rw [Bool.or_false]
      exact decisive_wrapped (h status hanswer hcode)

end

section
variable {crate : BackonCrate} (hcrate : crate.Lawful) (policy : RetryPolicy crate)
variable {module : Go.ContextBackoff} (hmodule : module.Lawful)
variable (goPolicy : Go.ContextRetryPolicy module)
include hcrate hmodule

theorem attempts_eq_of_decisive (hretries : policy.backoffRetries = goPolicy.maxRetries)
    (rust : Nat → Except Error Unit) (go : Nat → Except Go.WrappedError Unit)
    (h : ∀ i, decisive Error.isRetryable (rust i) = Go.stopsAt go none i) :
    (policy.run (RetryPolicy.counting rust) 0).1 =
      (goPolicy.run (Go.endedBy none) (Go.counting go) 0).1 := by
  rw [policy.run_counting hcrate, Go.run_counting hmodule]
  show attempts (fun i => decisive Error.isRetryable (rust i)) (1 + policy.backoffRetries) =
    attempts (Go.stopsAt go none) (1 + goPolicy.maxRetries)
  rw [hretries, funext h]

/-- **Rust and Go find the same failed calls worth another attempt just when what the details of
each status tell is as transient as its code.** -/
theorem retried_alike_iff (hretries : policy.backoffRetries = goPolicy.maxRetries)
    (decode : List UInt8 → Option Backend) (addr id : Str) (messages : Nat → Nat)
    (answers : Nat → Option Status) :
    (RetriedAlike decode (fun i status => answers i = some status) (Go.downloadError id)
        (policy.run (RetryPolicy.counting fun i =>
          downloadTask decode addr (.streamed (messages i) (answers i))) 0).1
        (goPolicy.run (Go.endedBy none)
          (Go.counting fun i => Go.downloadTask id (messages i) (answers i)) 0).1 ↔
      ∀ i status, answers i = some status → status.Consistent decode) ∧
    (RetriedAlike decode (fun i status => answers i = some status ∧ status.code ≠ .notFound)
        (Go.deleteError id)
        (policy.run (RetryPolicy.counting fun i =>
          deleteTask decode addr (.answered (answers i))) 0).1
        (goPolicy.run (Go.endedBy none) (Go.counting fun i => Go.deleteTask id (answers i)) 0).1 ↔
      ∀ i status, answers i = some status → status.code ≠ .notFound →
        status.Consistent decode) := by
  constructor
  · constructor
    · intro h i status hanswer
      exact (isRetryable_fromStatus_iff decode status).mp (h.classified i status hanswer)
    · intro h
      refine ⟨fun i status hanswer => ?_, ?_⟩
      · exact (isRetryable_fromStatus_iff decode status).mpr (h i status hanswer)
      · exact attempts_eq_of_decisive hcrate policy hmodule goPolicy hretries _ _ fun i =>
          decisive_downloadTask messages answers (h i)
  · constructor
    · intro h i status hanswer hcode
      exact (isRetryable_fromStatus_iff decode status).mp (h.classified i status ⟨hanswer, hcode⟩)
    · intro h
      refine ⟨fun i status hanswer => ?_, ?_⟩
      · exact (isRetryable_fromStatus_iff decode status).mpr (h i status hanswer.1 hanswer.2)
      · exact attempts_eq_of_decisive hcrate policy hmodule goPolicy hretries _ _ fun i =>
          decisive_deleteTask answers (h i)

end

/-! ### An origin without the file -/

/-- The details by which the dfdaemon reports a `404` of the origin. -/
def exampleDetails : List UInt8 :=
  utf8 "\x7b\"message\":\"not found\",\"header\":\x7b\x7d,\"status_code\":404\x7d".toList

/-- As `serde_json::from_slice` decodes them. -/
def exampleDecode (details : List UInt8) : Option Backend :=
  if details = exampleDetails then some ⟨"not found".toList, [], some 404⟩ else none

def exampleStatus : Status := ⟨.internal, "origin failed".toList, exampleDetails⟩

def exampleRustPolicy : RetryPolicy exampleBackon := ⟨1, none⟩

theorem retried_alike_iff_origin :
    (RetriedAlike exampleDecode (fun _ status => some exampleStatus = some status)
        (Go.downloadError "id".toList)
        (exampleRustPolicy.run (RetryPolicy.counting fun _ =>
          downloadTask exampleDecode "a:1".toList (.streamed 0 (some exampleStatus))) 0).1
        ((Go.exampleContextPolicy 1).run (Go.endedBy none)
          (Go.counting fun _ => Go.downloadTask "id".toList 0 (some exampleStatus)) 0).1 ↔
      ∀ (_ : Nat) status, some exampleStatus = some status → status.Consistent exampleDecode) ∧
    (RetriedAlike exampleDecode
        (fun _ status => some exampleStatus = some status ∧ status.code ≠ .notFound)
        (Go.deleteError "id".toList)
        (exampleRustPolicy.run (RetryPolicy.counting fun _ =>
          deleteTask exampleDecode "a:1".toList (.answered (some exampleStatus))) 0).1
        ((Go.exampleContextPolicy 1).run (Go.endedBy none)
          (Go.counting fun _ => Go.deleteTask "id".toList (some exampleStatus)) 0).1 ↔
      ∀ (_ : Nat) status, some exampleStatus = some status → status.code ≠ .notFound →
        status.Consistent exampleDecode) :=
  retried_alike_iff exampleBackon_lawful exampleRustPolicy Go.exampleContextBackoff_lawful
    (Go.exampleContextPolicy 1) rfl exampleDecode "a:1".toList "id".toList (fun _ => 0)
    fun _ => some exampleStatus

/-- The origin's `404` is definitive in Rust, after one attempt; in Go it is attempted once more. -/
theorem not_retriedAlike :
    ¬ RetriedAlike exampleDecode (fun _ status => some exampleStatus = some status)
        (Go.downloadError "id".toList)
        (exampleRustPolicy.run (RetryPolicy.counting fun _ =>
          downloadTask exampleDecode "a:1".toList (.streamed 0 (some exampleStatus))) 0).1
        ((Go.exampleContextPolicy 1).run (Go.endedBy none)
          (Go.counting fun _ => Go.downloadTask "id".toList 0 (some exampleStatus)) 0).1 := by
  intro h
  have hrust : (Error.fromStatus exampleDecode exampleStatus).isRetryable = false := by
    decide +kernel
  have hgo : Go.isRetryable (Go.downloadError "id".toList exampleStatus) = true := rfl
  have halike := h.classified 0 exampleStatus rfl
  rw [hrust, hgo] at halike
  exact Bool.false_ne_true halike

end DragonflySdk
