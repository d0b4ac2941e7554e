import DragonflySdk.Proxy.GetInto
import DragonflySdk.Response.Go
import DragonflySdk.Retry.Go

/-!
# Retrying in Rust and in Go

Both clients retry a GET request on the answers that may be transient: the documentation of both
says `5xx`, `408` and `429`. Rust's `is_server_error` ends at `599`, Go compares with `500` only. So
they make the same attempts and end alike just when no answer with a status of `600` or more comes
while there are retries left (`clients_retry_alike_iff`).
-/

namespace DragonflySdk

open Foundation

/-! ### Answers -/

/-- A final answer of a proxy, as it is sent: the fields of its header, and its body. -/
structure Answer where
  status : Nat
  fields : List (Str × Str)
  chunks : List (List UInt8)
  ending : BodyEnd

/-- The answer as `reqwest` sees it. -/
def Answer.response (answer : Answer) : Response where
  status := answer.status
  headers := answer.fields.map fun (name, value) => (headerName name, value)
  chunks := answer.chunks
  ending := answer.ending

/-- The answer as `net/http` sees it. -/
def Go.Response.ofAnswer (answer : Answer) : Go.Response where
  statusCode := answer.status
  header := Header.ofFields answer.fields
  body := answer.chunks.flatten

/-- The answers that are retried: `5xx`, `408` and `429`. -/
def Transient (status : Nat) : Prop :=
  500 ≤ status ∧ status ≤ 599 ∨ status = 408 ∨ status = 429

instance (status : Nat) : Decidable (Transient status) := by
  unfold Transient
  infer_instance

theorem isRetryable_of_answer {err : Error} {kind : AnswerKind} {error : AnswerError}
    (h : err.answer = some (kind, error)) : err.isRetryable = error.isRetryable := by
  cases err <;> cases h <;> rfl

theorem Go.isRetryable_of_answer {err : Go.Error} {kind : AnswerKind} {error : Go.AnswerError}
    (h : err.answer = some (kind, error)) :
    err.isRetryable = Go.isRetryableStatus error.statusCode := by
  cases err <;> cases h <;> rfl

/-! ### One answer -/

section
variable {crate : HttpCrate} {request : GetRequest} {headers : HeaderMap}
  (hheaders : request.proxyHeaders crate = .ok headers) (answer : Answer)
include hheaders

theorem send_answer : request.send crate (fun _ _ _ => .ok answer.response) =
    if isSuccess answer.status then .ok answer.response
    else .error (.fromResponse crate answer.response) := by
  unfold GetRequest.send
  rw [hheaders]
  by_cases hsuccess : isSuccess answer.status = true
  · simp [bind, Except.bind, Answer.response, hsuccess]
  · simp [bind, Except.bind, Answer.response, hsuccess]

/-- In Rust just the transient answers are retried. -/
theorem decisive_send :
    decisive Error.isRetryable (request.send crate fun _ _ _ => .ok answer.response) =
      !decide (Transient answer.status) := by
  rw [send_answer hheaders]
  by_cases hsuccess : isSuccess answer.status = true
  · rw [if_pos hsuccess]
    rw [isSuccess, Bool.and_eq_true, decide_eq_true_iff, decide_eq_true_iff] at hsuccess
    have htransient : ¬Transient answer.status := by
      unfold Transient
      omega
    rw [decide_eq_false htransient]
    rfl
  · rw [if_neg hsuccess]
    obtain ⟨error, herror, hstatus⟩ := answer_fromResponse crate answer.response
    rw [decisive, isRetryable_of_answer herror, AnswerError.isRetryable, hstatus]
    show (!((500 ≤ answer.status && answer.status ≤ 599) || answer.status == 408 ||
      answer.status == 429)) = _
    congr 1
    rw [Bool.eq_iff_iff, decide_eq_true_iff, Transient]
    simp [or_assoc]

end

namespace Go

section
variable {module : HttpModule} {r : GetRequest} {headers : Header}
  (hheaders : r.proxyHeaders module = .ok headers) (hurl : module.newRequest r.url = .ok ())
  (answer : Answer)
include hheaders hurl

theorem send_answer : r.send module (fun _ _ => .ok (.ofAnswer answer)) =
    if 200 ≤ answer.status && answer.status < 300 then .ok (.ofAnswer answer)
    else .error (answerErrorOf (.ofAnswer answer)) := by
  unfold GetRequest.send
  rw [hheaders]
  simp only [bind, Except.bind, hurl]
  rfl

/-- In Go those from `600` on are retried too. -/
theorem decisive_send :
    decisive Error.isRetryable (r.send module fun _ _ => .ok (.ofAnswer answer)) =
      !isRetryableStatus answer.status := by
  rw [send_answer hheaders hurl]
  by_cases hsuccess : (200 ≤ answer.status && answer.status < 300) = true
  · rw [if_pos hsuccess]
    rw [Bool.and_eq_true, decide_eq_true_iff, decide_eq_true_iff] at hsuccess
    have hstatus : isRetryableStatus answer.status = false := by
      unfold isRetryableStatus
      simp only [Bool.or_eq_false_iff, decide_eq_false_iff_not, beq_eq_false_iff_ne]
      omega
    rw [hstatus]
    rfl
  · rw [if_neg hsuccess]
    obtain ⟨error, herror, hstatus⟩ := answer_answerErrorOf (Response.ofAnswer answer)
    rw [decisive, isRetryable_of_answer herror, hstatus]
    rfl

end

end Go

/-! ### All answers -/

/-- `Get` with the endpoints to send to. -/
def Go.RetryPolicy.get {module : BackoffModule} (policy : RetryPolicy module) {σ : Type}
    (endpoints shuffled : List Str) (sendTo : σ → Str → σ × Except Error Response) (s : σ) :
    σ × Except Error (Option GetResponse) :=
  let (s, result) := policy.runWithEndpoints endpoints shuffled sendTo s
  (s, result.map fun resp => resp.map .ofResponse)

/-- Both end on an answer with this status: in a response, or in errors of the same kind. -/
inductive EndAlike (status : Nat) :
    Except Error GetResponse → Except Go.Error (Option Go.GetResponse) → Prop
  | succeeded (response : GetResponse) (resp : Go.GetResponse)
      (hrust : response.statusCode = some status) (hgo : resp.statusCode = status) :
      EndAlike status (.ok response) (.ok (some resp))
  | failed (kind : AnswerKind) {err : Error} {error : AnswerError} {goErr : Go.Error}
      {goError : Go.AnswerError} (hrust : err.answer = some (kind, error))
      (hrustStatus : error.statusCode = some status) (hgo : goErr.answer = some (kind, goError))
      (hgoStatus : goError.statusCode = status) : EndAlike status (.error err) (.error goErr)

/-- Of some attempts, those with retries left are followed by another one just when their answer is
transient. -/
def RetriesTransient (answers : Nat → Answer) (maxRetries made : Nat) : Prop :=
  ∀ i < made, i < maxRetries → (i + 1 < made ↔ Transient (answers i).status)

/-- Runs of both clients against the same answers, with the endpoints each has sent to. -/
structure RetriesAlike (answers : Nat → Answer) (maxRetries : Nat)
    (rust : List (Unit × Str) × Except Error GetResponse)
    (go : List Str × Except Go.Error (Option Go.GetResponse)) : Prop where
  /-- They attempt the same endpoints in the same order. -/
  log_eq : rust.1.map Prod.snd = go.1
  ends : EndAlike (answers (rust.1.length - 1)).status rust.2 go.2
  transient_rust : RetriesTransient answers maxRetries rust.1.length
  transient_go : RetriesTransient answers maxRetries go.1.length

theorem retryable_of_transient {status : Nat} (h : Transient status) :
    Go.isRetryableStatus status = true := by
  simp only [Go.isRetryableStatus, Bool.or_eq_true, decide_eq_true_iff, beq_iff_eq]
  unfold Transient at h
  omega

theorem transient_of_retryable {status : Nat} (h : Go.isRetryableStatus status = true)
    (hlt : status < 600) : Transient status := by
  simp only [Go.isRetryableStatus, Bool.or_eq_true, decide_eq_true_iff, beq_iff_eq] at h
  unfold Transient
  omega

section
variable (answers : Nat → Answer) (maxRetries : Nat)

/-- The attempts of Rust. -/
def madeRust : Nat := attempts (fun i => !decide (Transient (answers i).status)) (1 + maxRetries)

/-- The attempts of Go. -/
def madeGo : Nat := attempts (fun i => !Go.isRetryableStatus (answers i).status) (1 + maxRetries)

variable {answers maxRetries}

theorem lt_madeRust_iff {i : Nat} : i < madeRust answers maxRetries ↔
    i ≤ maxRetries ∧ ∀ j < i, Transient (answers j).status := by
  simp only [madeRust, lt_attempts_iff, Bool.not_eq_false', decide_eq_true_iff, Nat.one_add,
    Nat.lt_succ_iff]

theorem lt_madeGo_iff {i : Nat} : i < madeGo answers maxRetries ↔
    i ≤ maxRetries ∧ ∀ j < i, Go.isRetryableStatus (answers j).status = true := by
  simp only [madeGo, lt_attempts_iff, Bool.not_eq_false', Nat.one_add, Nat.lt_succ_iff]

theorem retriesTransient_madeRust :
    RetriesTransient answers maxRetries (madeRust answers maxRetries) := by
  intro i hi hleft
  rw [lt_madeRust_iff] at hi ⊢
  rw [Nat.forall_lt_succ_right]
  exact ⟨fun h => h.2.2, fun h => ⟨hleft, hi.2, h⟩⟩

theorem transient_of_retried (hbelow : ∀ i < maxRetries,
      (∀ j < i, Transient (answers j).status) → (answers i).status < 600) {i : Nat}
    (hi : i ≤ maxRetries)
    (hretried : ∀ j < i, Go.isRetryableStatus (answers j).status = true) :
    ∀ j < i, Transient (answers j).status := by
  induction i with
  | zero => exact fun j hj => absurd hj (Nat.not_lt_zero j)
  | succ i ih =>
    rw [Nat.forall_lt_succ_right] at hretried ⊢
    have hbefore := ih (by omega) hretried.1
    exact ⟨hbefore, transient_of_retryable hretried.2 (hbelow i hi hbefore)⟩

theorem madeGo_eq (hbelow : ∀ i < maxRetries,
      (∀ j < i, Transient (answers j).status) → (answers i).status < 600) :
    madeGo answers maxRetries = madeRust answers maxRetries := by
  apply eq_of_forall_lt_iff
  intro i
  rw [lt_madeGo_iff, lt_madeRust_iff]
  constructor
  · intro h
    exact ⟨h.1, transient_of_retried hbelow h.1 h.2⟩
  · intro h
    exact ⟨h.1, fun j hj => retryable_of_transient (h.2 j hj)⟩

theorem below_of_retriesTransient
    (h : RetriesTransient answers maxRetries (madeGo answers maxRetries)) :
    ∀ i < maxRetries, (∀ j < i, Transient (answers j).status) → (answers i).status < 600 := by
  intro i hi hbefore
  by_contra hbeyond
  have hretryable : Go.isRetryableStatus (answers i).status = true := by
    simp only [Go.isRetryableStatus, Bool.or_eq_true, decide_eq_true_iff]
    omega
  have hmade : i < madeGo answers maxRetries :=
    lt_madeGo_iff.mpr ⟨hi.le, fun j hj => retryable_of_transient (hbefore j hj)⟩
  have hnext : i + 1 < madeGo answers maxRetries := by
    rw [lt_madeGo_iff, Nat.forall_lt_succ_right]
    exact ⟨hi, fun j hj => retryable_of_transient (hbefore j hj), hretryable⟩
  have htransient := (h i hmade hi).mp hnext
  unfold Transient at htransient
  omega

end

theorem endAlike_send {crate : HttpCrate} {request : GetRequest} {headers : HeaderMap}
    (hheaders : request.proxyHeaders crate = .ok headers) {module : Go.HttpModule}
    {r : Go.GetRequest} {header : Go.Header} (hheader : r.proxyHeaders module = .ok header)
    (hurl : module.newRequest r.url = .ok ()) (answer : Answer) :
    EndAlike answer.status
      ((request.send crate fun _ _ _ => .ok answer.response).map .ofResponse)
      (((r.send module fun _ _ => .ok (.ofAnswer answer)).map some).map fun resp =>
        resp.map .ofResponse) := by
  rw [send_answer hheaders, Go.send_answer hheader hurl, isSuccess]
  by_cases hsuccess : (200 ≤ answer.status && answer.status < 300) = true
  · rw [if_pos hsuccess, if_pos hsuccess]
    exact .succeeded _ _ rfl rfl
  · rw [if_neg hsuccess, if_neg hsuccess]
    obtain ⟨error, herror, hstatus⟩ := answer_fromResponse crate answer.response
    obtain ⟨goError, hgoError, hgoStatus⟩ :=
      Go.answer_answerErrorOf (Go.Response.ofAnswer answer)
    have hkind : (Go.Response.ofAnswer answer).header.get "X-Dragonfly-Error-Type".toList =
        (HeaderMap.get answer.response.headers "X-Dragonfly-Error-Type".toList).getD [] :=
      Go.get_ofFields _ _
    rw [hkind] at hgoError
    exact .failed _ herror hstatus hgoError hgoStatus

section
variable {backon : BackonCrate} (hbackon : backon.Lawful) {backoff : Go.BackoffModule}
  (hbackoff : backoff.Lawful) {crate : HttpCrate} {request : GetRequest} {headers : HeaderMap}
  (hheaders : request.proxyHeaders crate = .ok headers) {module : Go.HttpModule}
  {r : Go.GetRequest} {header : Go.Header} (hheader : r.proxyHeaders module = .ok header)
  (hurl : module.newRequest r.url = .ok ()) {endpoints : List Str} (hendpoints : endpoints ≠ [])
  (shuffled : List Str) (answers : Nat → Answer) (maxRetries : Nat)

include hbackon hheaders hendpoints in
theorem get_rust :
    (⟨maxRetries, none⟩ : RetryPolicy backon).get endpoints shuffled
        (RetryPolicy.noting fun i =>
          ((), request.send crate fun _ _ _ => .ok (answers i).response)) [] =
      ((List.range (madeRust answers maxRetries)).map fun i =>
          ((), RetryPolicy.target shuffled i),
        (request.send crate fun _ _ _ =>
          .ok (answers (madeRust answers maxRetries - 1)).response).map .ofResponse) := by
  have hmade : (⟨maxRetries, none⟩ : RetryPolicy backon).made (fun i =>
      request.send crate fun _ _ _ => .ok (answers i).response) =
        madeRust answers maxRetries := by
    rw [RetryPolicy.made, madeRust]
    simp only [decisive_send hheaders]
    rfl
  rw [RetryPolicy.get, RetryPolicy.runWithEndpoints_noting _ hbackon hendpoints, hmade]

include hbackoff hheader hurl hendpoints in
theorem get_go :
    (⟨maxRetries, none⟩ : Go.RetryPolicy backoff).get endpoints shuffled
        (Go.RetryPolicy.noting fun i =>
          r.send module fun _ _ => .ok (.ofAnswer (answers i))) [] =
      ((List.range (madeGo answers maxRetries)).map (RetryPolicy.target shuffled),
        ((r.send module fun _ _ =>
          .ok (.ofAnswer (answers (madeGo answers maxRetries - 1)))).map some).map fun resp =>
            resp.map .ofResponse) := by
  have hcontext : ∀ i err, (r.send module fun _ _ => .ok (.ofAnswer (answers i))) = .error err →
      err ≠ .deadlineExceeded ∧ err ≠ .canceled := by
    intro i err herr
    rw [Go.send_answer hheader hurl] at herr
    obtain ⟨error, herror, _⟩ := Go.answer_answerErrorOf (Go.Response.ofAnswer (answers i))
    split at herr
    · cases herr
    · obtain rfl := Except.error.inj herr
      constructor
      · intro heq
        rw [heq] at herror
        cases herror
      · intro heq
        rw [heq] at herror
        cases herror
  have hmade : attempts (fun i => decisive Go.Error.isRetryable
      (r.send module fun _ _ => .ok (.ofAnswer (answers i)))) (1 + maxRetries) =
        madeGo answers maxRetries := by
    rw [madeGo]
    simp only [Go.decisive_send hheader hurl]
  rw [Go.RetryPolicy.get,
    Go.RetryPolicy.runWithEndpoints_noting _ hbackoff hendpoints _ _ hcontext, hmade]
  rfl

end

/-- **Both clients retry alike just when no status from `600` on comes with retries left.** -/
theorem clients_retry_alike_iff (backon : BackonCrate) (hbackon : backon.Lawful)
    (backoff : Go.BackoffModule) (hbackoff : backoff.Lawful) (crate : HttpCrate)
    (request : GetRequest) (headers : HeaderMap)
    (hheaders : request.proxyHeaders crate = .ok headers) (module : Go.HttpModule)
    (r : Go.GetRequest) (header : Go.Header) (hheader : r.proxyHeaders module = .ok header)
    (hurl : module.newRequest r.url = .ok ()) (endpoints : List Str) (hendpoints : endpoints ≠ [])
    (shuffled : List Str) (answers : Nat → Answer) (maxRetries : Nat) :
    RetriesAlike answers maxRetries
        ((⟨maxRetries, none⟩ : RetryPolicy backon).get endpoints shuffled
          (RetryPolicy.noting fun i =>
            ((), request.send crate fun _ _ _ => .ok (answers i).response)) [])
        ((⟨maxRetries, none⟩ : Go.RetryPolicy backoff).get endpoints shuffled
          (Go.RetryPolicy.noting fun i =>
            r.send module fun _ _ => .ok (.ofAnswer (answers i))) []) ↔
      ∀ i < maxRetries, (∀ j < i, Transient (answers j).status) → (answers i).status < 600 := by
  rw [get_rust hbackon hheaders hendpoints, get_go hbackoff hheader hurl hendpoints]
  constructor
  · intro h
    have hgo := h.transient_go
    rw [List.length_map, List.length_range] at hgo
    exact below_of_retriesTransient hgo
  · intro hbelow
    rw [madeGo_eq hbelow]
    refine ⟨by rw [List.map_map]; rfl, ?_, ?_, ?_⟩
    · rw [List.length_map, List.length_range]
      exact endAlike_send hheaders hheader hurl _
    · rw [List.length_map, List.length_range]
      exact retriesTransient_madeRust
    · rw [List.length_map, List.length_range]
      exact retriesTransient_madeRust

/-- Go code that takes every header and url. -/
def exampleModule : Go.HttpModule := ⟨fun _ => true, fun _ => true, fun _ => .ok ()⟩

def exampleGoGet : Go.GetRequest where
  url := "https://example.com/file".toList
  header := []
  pieceLength := none
  tag := []
  application := []
  filteredQueryParams := []
  contentForCalculatingTaskId := "content".toList
  enableTaskIdBasedBlobDigest := true
  priority := none
  replicas := 1

/-- An answer with this status from the origin, and then one that is a success. -/
def exampleAnswers (status : Nat) (i : Nat) : Answer :=
  if i = 0 then ⟨status, [("X-Dragonfly-Error-Type".toList, "backend".toList)], [], .complete⟩
  else ⟨200, [], [], .complete⟩

theorem proxyHeaders_example : ∃ headers,
    (lookupRequest 1).proxyHeaders exampleHttp = .ok headers := ⟨_, rfl⟩

theorem Go.proxyHeaders_example : ∃ header,
    exampleGoGet.proxyHeaders exampleModule = .ok header := ⟨_, rfl⟩

/-- At an answer `503`, which is retried. -/
theorem clients_retry_alike_iff_unavailable :
    RetriesAlike (exampleAnswers 503) 1
        ((⟨1, none⟩ : RetryPolicy exampleBackon).get ["a".toList] ["a".toList]
          (RetryPolicy.noting fun i => ((), (lookupRequest 1).send exampleHttp fun _ _ _ =>
            .ok (exampleAnswers 503 i).response)) [])
        ((⟨1, none⟩ : Go.RetryPolicy Go.exampleBackoff).get ["a".toList] ["a".toList]
          (Go.RetryPolicy.noting fun i => exampleGoGet.send exampleModule fun _ _ =>
            .ok (.ofAnswer (exampleAnswers 503 i))) []) ↔
      ∀ i < 1, (∀ j < i, Transient (exampleAnswers 503 j).status) →
        (exampleAnswers 503 i).status < 600 := by
  obtain ⟨headers, hheaders⟩ := proxyHeaders_example
  obtain ⟨header, hheader⟩ := Go.proxyHeaders_example
  exact clients_retry_alike_iff exampleBackon exampleBackon_lawful Go.exampleBackoff
    Go.exampleBackoff_lawful exampleHttp (lookupRequest 1) headers hheaders exampleModule
    exampleGoGet header hheader rfl _ (by decide) _ _ 1

/-- An answer `600` is the last one for Rust, while Go makes another attempt. -/
theorem not_clients_retry_alike :
    ¬ ∀ (backon : BackonCrate), backon.Lawful → ∀ (backoff : Go.BackoffModule), backoff.Lawful →
      ∀ (crate : HttpCrate) (request : GetRequest) (headers : HeaderMap),
      request.proxyHeaders crate = .ok headers →
      ∀ (module : Go.HttpModule) (r : Go.GetRequest) (header : Go.Header),
      r.proxyHeaders module = .ok header → module.newRequest r.url = .ok () →
      ∀ (endpoints : List Str), endpoints ≠ [] → ∀ (shuffled : List Str)
        (answers : Nat → Answer),
      (∀ i, 200 ≤ (answers i).status ∧ (answers i).status ≤ 999) → ∀ maxRetries ≤ 10,
        RetriesAlike answers maxRetries
          ((⟨maxRetries, none⟩ : RetryPolicy backon).get endpoints shuffled
            (RetryPolicy.noting fun i =>
              ((), request.send crate fun _ _ _ => .ok (answers i).response)) [])
          ((⟨maxRetries, none⟩ : Go.RetryPolicy backoff).get endpoints shuffled
            (Go.RetryPolicy.noting fun i =>
              r.send module fun _ _ => .ok (.ofAnswer (answers i))) []) := by
  intro h
  obtain ⟨headers, hheaders⟩ := proxyHeaders_example
  obtain ⟨header, hheader⟩ := Go.proxyHeaders_example
  have hstatus : ∀ i, 200 ≤ (exampleAnswers 600 i).status ∧ (exampleAnswers 600 i).status ≤ 999 := by
    intro i
    unfold exampleAnswers
    split <;> decide
  have hlog := (h exampleBackon exampleBackon_lawful Go.exampleBackoff Go.exampleBackoff_lawful
    exampleHttp (lookupRequest 1) headers hheaders exampleModule exampleGoGet header hheader rfl
    ["a".toList] (by decide) ["a".toList] (exampleAnswers 600) hstatus 1 (by decide)).log_eq
  revert hlog
  decide +kernel

end DragonflySdk
