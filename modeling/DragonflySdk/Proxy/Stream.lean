import DragonflySdk.Proxy.Replicas
import DragonflySdk.Response.Go
import DragonflySdk.Retry.Cancel

/-!
# The body of a response in Go

`Get` of `proxy.go` with the body as a stream: a `cancelReadCloser`, which calls the cancel function
of the attempt the response is of. The body can be read as long as that context is not cancelled,
and it is cancelled just from the first erring read or the first close on
(`calls_cancelsInTime`). So of the contexts of a request none is left over, and none cancelled early
(`contexts_released`).
-/

namespace DragonflySdk.Go

open Foundation

/-- What a read fails with. -/
inductive ReadError
  | eof
  | failed (err : WrappedError)

/-- A call of a stream. -/
inductive Call
  /-- `Read(p)` -/
  | read (len : Nat)
  /-- `Close()` -/
  | close

/-- What a call comes to. -/
inductive Outcome
  | read (bytes : List UInt8) (err : Option ReadError)
  | closed (err : Option WrappedError)

/-- The call is an erring read or a close. -/
def Outcome.ends : Outcome → Bool
  | read _ err => err.isSome
  | closed _ => true

/-- The bodies of `net/http`. What a call comes to depends on whether the context of the request has
been cancelled by its cancel function; when it ends by itself is up to the body. -/
structure BodyModule where
  Body : Type
  read : Body → (cancelled : Bool) → (len : Nat) → Body × List UInt8 × Option ReadError
  close : Body → (cancelled : Bool) → Body × Option WrappedError

/-- A call of the body. -/
def BodyModule.call (module : BodyModule) (body : module.Body) (cancelled : Bool) :
    Call → module.Body × Outcome
  | .read len =>
    let (body, n, err) := module.read body cancelled len
    (body, .read n err)
  | .close =>
    let (body, err) := module.close body cancelled
    (body, .closed err)

/-- `resp.Body`, with the context of the request. -/
structure ResponseBody (module : BodyModule) where
  content : module.Body
  ctx : AttemptContext

/-- `http.Response` -/
structure HttpResponse (module : BodyModule) where
  statusCode : Nat
  header : Header
  body : ResponseBody module

/-- Cancels the context of the request when the body is fully read or closed. -/
structure CancelReadCloser (module : BodyModule) where
  body : ResponseBody module
  cancel : AttemptContext

namespace CancelReadCloser

variable {module : BodyModule}

def read (c : CancelReadCloser module) (contexts : Contexts) (len : Nat) :
    (CancelReadCloser module × Contexts) × List UInt8 × Option ReadError :=
  let (content, n, err) := module.read c.body.content (contexts.released c.body.ctx.id) len
  let contexts := if err.isSome then Contexts.cancel contexts c.cancel else contexts
  (({ c with body := { c.body with content } }, contexts), n, err)

def close (c : CancelReadCloser module) (contexts : Contexts) :
    (CancelReadCloser module × Contexts) × Option WrappedError :=
  let (content, err) := module.close c.body.content (contexts.released c.body.ctx.id)
  (({ c with body := { c.body with content } }, Contexts.cancel contexts c.cancel), err)

def call (s : CancelReadCloser module × Contexts) :
    Call → (CancelReadCloser module × Contexts) × Outcome
  | .read len =>
    let (s, n, err) := s.1.read s.2 len
    (s, .read n err)
  | .close =>
    let (s, err) := s.1.close s.2
    (s, .closed err)

end CancelReadCloser

/-- A response of the Dragonfly with a streaming body. -/
structure StreamedResponse (module : BodyModule) where
  success : Bool
  header : Header
  statusCode : Nat
  body : CancelReadCloser module

/-- The response, with the cancel function of its context; `none` where a nil pointer would be
dereferenced. -/
def StreamedResponse.of? {module : BodyModule} :
    Option (HttpResponse module) × Option AttemptContext → Option (StreamedResponse module)
  | (some resp, some cancel) => some ⟨true, resp.header, resp.statusCode, ⟨resp.body, cancel⟩⟩
  | _ => none

section
variable {σ : Type} {module : BodyModule}

/-- Sends the request once. The context it is sent under is that of the body of its response. -/
def sendTo
    (answer : σ → AttemptContext → Str → σ × Except WrappedError (Nat × Header × module.Body))
    (s : σ) (ctx : AttemptContext) (endpoint : Str) :
    σ × Except WrappedError (HttpResponse module) :=
  match answer s ctx endpoint with
  | (s, .error err) => (s, .error err)
  | (s, .ok (statusCode, header, content)) => (s, .ok ⟨statusCode, header, ⟨content, ctx⟩⟩)

/-- Sends a GET request to a remote server via the Dragonfly, under a context that may end. -/
def Proxy.get {modules : Modules} (p : Proxy modules) {backoff : ContextBackoff}
    (b : Option backoff.ExponentialBackOff) (parse : Str → Except WrappedError ParsedUrl)
    (fuel now : Nat) (ended : σ → Option ContextEnd) (shuffle : List Str → List Str)
    (timeout : Int)
    (answer : σ → AttemptContext → Str → σ × Except WrappedError (Nat × Header × module.Body))
    (req : GetRequest) (s : σ) :
    Option ((σ × Contexts) × Except WrappedError (Option (StreamedResponse module))) :=
  match req.validate parse with
  | .error err => some ((s, .empty), .error err)
  | .ok () =>
    (p.lookupProxyEndpoints fuel now req).map fun looked =>
      match looked with
      | .error err => ((s, .empty), .error err.tree)
      | .ok endpoints =>
        let retry : ContextRetryPolicy backoff := ⟨p.retry.maxRetries, b⟩
        let (s, result) := retry.runWithEndpoints ended endpoints (shuffle endpoints) timeout
          (sendTo answer) s
        (s, result.map StreamedResponse.of?)

end

/-! ### Reading the body -/

section
variable {module : BodyModule}

/-- What comes of the calls: the context is cancelled just when an erring read or a close was among
them, the other contexts are as they were, and as long as only the last call ends the body, all come
to what they do when the context is never cancelled. -/
structure CancelsInTime (c : CancelReadCloser module) (contexts : Contexts) (calls : List Call) :
    Prop where
  cancelled_iff :
    (runs CancelReadCloser.call (c, contexts) calls).1.2.released c.body.ctx.id = true ↔
      ∃ outcome ∈ (runs CancelReadCloser.call (c, contexts) calls).2, outcome.ends = true
  others : ∀ i, i ≠ c.body.ctx.id →
    (runs CancelReadCloser.call (c, contexts) calls).1.2.count i = contexts.count i
  uncut : (∀ outcome ∈ (runs CancelReadCloser.call (c, contexts) calls).2.dropLast,
      outcome.ends = false) →
    (runs CancelReadCloser.call (c, contexts) calls).2 =
      (runs (fun content => module.call content false) c.body.content calls).2

/-- A body that cancels the context of its own request, and the contexts. -/
def ownContext (ctx : AttemptContext) (s : module.Body × Contexts) :
    CancelReadCloser module × Contexts :=
  (⟨⟨s.1, ctx⟩, ctx⟩, s.2)

theorem call_ownContext (ctx : AttemptContext) (s : module.Body × Contexts) (call : Call) :
    CancelReadCloser.call (ownContext ctx s) call =
      (ownContext ctx (guarded module.call Outcome.ends ctx.id s call).1,
        (guarded module.call Outcome.ends ctx.id s call).2) := by
  cases call <;> rfl

/-- **The context is cancelled from the first erring read or the first close on, and no earlier.** -/
theorem calls_cancelsInTime {contexts : Contexts} {ctx : AttemptContext}
    (h : contexts.AllReleasedBut ctx.id) (content : module.Body) (calls : List Call) :
    CancelsInTime (⟨⟨content, ctx⟩, ctx⟩ : CancelReadCloser module) contexts calls := by
  have hruns : runs CancelReadCloser.call
      ((⟨⟨content, ctx⟩, ctx⟩, contexts) : CancelReadCloser module × Contexts) calls = _ :=
    runs_map (call_ownContext ctx) (content, contexts) calls
  have hheld : contexts.released ctx.id = false := h.released_eq
  constructor
  · rw [hruns]
    show (runs (guarded module.call Outcome.ends ctx.id) (content, contexts) calls).1.2.released
      ctx.id = true ↔ _
    rw [released_runs_guarded h.kept_lt, hheld]
    exact or_iff_right Bool.false_ne_true
  · intro i hi
    rw [hruns]
    exact count_runs_guarded hi calls
  · rw [hruns]
    exact runs_guarded_eq hheld calls

end

/-! ### The contexts of a request -/

section
variable {σ : Type} {module : BodyModule}

/-- The contexts of the attempts of a request: with an error all have been cancelled, and with a
response all but its own, which is cancelled in time whatever calls are made. -/
inductive StreamsInTime :
    (σ × Contexts) × Except WrappedError (Option (StreamedResponse module)) → Prop
  | failed {s : σ} {contexts : Contexts} {err : WrappedError} (hall : contexts.AllReleased) :
      StreamsInTime ((s, contexts), .error err)
  | returned {s : σ} {contexts : Contexts} {response : StreamedResponse module}
      (hcancel : response.body.cancel = response.body.body.ctx)
      (hall : contexts.AllReleasedBut response.body.body.ctx.id)
      (hcalls : ∀ calls, CancelsInTime response.body contexts calls) :
      StreamsInTime ((s, contexts), .ok (some response))

theorem ctx_of_sentUnder
    {answer : σ → AttemptContext → Str → σ × Except WrappedError (Nat × Header × module.Body)}
    {ctx : AttemptContext} {resp : HttpResponse module} (h : SentUnder (sendTo answer) ctx resp) :
    resp.body.ctx = ctx := by
  obtain ⟨s, endpoint, hsent⟩ := h
  unfold sendTo at hsent
  rcases hanswer : answer s ctx endpoint with ⟨s', err | ⟨statusCode, header, content⟩⟩
  · rw [hanswer] at hsent
    cases hsent
  · rw [hanswer] at hsent
    obtain rfl := Except.ok.inj hsent
    rfl

theorem ReleasesContexts.streamsInTime
    {answer : σ → AttemptContext → Str → σ × Except WrappedError (Nat × Header × module.Body)}
    {got : (σ × Contexts) ×
      Except WrappedError (Option (HttpResponse module) × Option AttemptContext)}
    (h : ReleasesContexts (sendTo answer) got) :
    StreamsInTime (got.1, got.2.map StreamedResponse.of?) := by
  cases h with
  | failed hall => exact .failed hall
  | @returned _ _ resp ctx hresp hall =>
    obtain ⟨statusCode, header, content, ctx'⟩ := resp
    obtain rfl : ctx' = ctx := ctx_of_sentUnder hresp
    exact .returned rfl hall (calls_cancelsInTime hall content)

/-- **No context of an attempt is left over, and none is cancelled early.** -/
theorem contexts_released {backoff : ContextBackoff} (hbackoff : backoff.Lawful) :
    (∀ {σ T : Type} (policy : ContextRetryPolicy backoff) (ended : σ → Option ContextEnd)
      (endpoints shuffled : List Str) (timeout : Int)
      (send : σ → AttemptContext → Str → σ × Except WrappedError T) (s : σ),
      ReleasesContexts send (policy.runWithEndpoints ended endpoints shuffled timeout send s)) ∧
    ∀ {σ : Type} {module : BodyModule} {modules : Modules} (p : Proxy modules)
      (b : Option backoff.ExponentialBackOff) (parse : Str → Except WrappedError ParsedUrl)
      (fuel now : Nat) (ended : σ → Option ContextEnd) (shuffle : List Str → List Str)
      (timeout : Int)
      (answer : σ → AttemptContext → Str → σ × Except WrappedError (Nat × Header × module.Body))
      (req : GetRequest) (s : σ),
      ∀ got ∈ p.get b parse fuel now ended shuffle timeout answer req s, StreamsInTime got := by
  constructor
  · intro σ T policy ended endpoints shuffled timeout send s
    exact policy.runWithEndpoints_releases hbackoff ended endpoints shuffled timeout s
  · intro σ module modules p b parse fuel now ended shuffle timeout answer req s got hgot
    unfold Proxy.get at hgot
    rcases hvalidate : req.validate parse with err | value
    · rw [hvalidate] at hgot
      obtain rfl := Option.some.inj hgot
      exact .failed Handles.allReleased_empty
    · rw [hvalidate] at hgot
      obtain ⟨looked, _, rfl⟩ := Option.map_eq_some_iff.mp hgot
      rcases looked with err | endpoints
      · exact .failed Handles.allReleased_empty
      · exact (ContextRetryPolicy.runWithEndpoints_releases hbackoff _ ended endpoints
          (shuffle endpoints) timeout s).streamsInTime

end

/-! ### A second attempt -/

/-- Bodies that end with their bytes, and cannot be read once the context is cancelled. -/
def exampleBodies : BodyModule where
  Body := List UInt8
  read content cancelled len :=
    if cancelled then (content, [], some (.failed (.node (.sentinel .canceled) [])))
    else (content.drop len, content.take len, if content.length ≤ len then some .eof else none)
  close content _ := (content, none)

/-- The first attempt fails to connect, those after it are answered. -/
def exampleAnswer (made : Nat) (_ : AttemptContext) (_ : Str) :
    Nat × Except WrappedError (Nat × Header × exampleBodies.Body) :=
  (made + 1,
    if made = 0 then .error (Error.internal ⟨"%w: boom".toList, []⟩).tree
    else .ok (200, [], [1, 2, 3]))

/-- `url.Parse` of the url of the example. -/
def exampleParse (_ : Str) : Except WrappedError ParsedUrl :=
  .ok ⟨"https".toList, "example.com".toList⟩

/-- Retries at once. -/
def exampleAtOnce : Option exampleContextBackoff.ExponentialBackOff := none

/-- The context of the first attempt is cancelled, that of the second one is left to its body. -/
theorem contexts_released_second :
    ReleasesContexts exampleAnswer ((exampleContextPolicy 1).runWithEndpoints (fun _ => none)
        ["a".toList, "b".toList] ["b".toList, "a".toList] 1 exampleAnswer 0) ∧
      ∃ got ∈ twoProxy.get exampleAtOnce exampleParse 3 0 (fun _ => none) List.reverse 1
          exampleAnswer lookupRequest 0,
        got.1.2 = ⟨[1, 0]⟩ ∧ StreamsInTime got := by
  obtain ⟨hruns, hgets⟩ := contexts_released exampleContextBackoff_lawful
  have hlookup : twoProxy.lookupProxyEndpoints 3 0 lookupRequest =
      some (.ok ["http://127.0.0.1:4001".toList, "http://127.0.0.1:4001".toList]) := by
    decide +kernel
  have hgot : ∃ got ∈ twoProxy.get exampleAtOnce exampleParse 3 0 (fun _ => none) List.reverse 1
      exampleAnswer lookupRequest 0, got.1.2 = ⟨[1, 0]⟩ := by
    unfold Proxy.get
    rw [hlookup]
    exact ⟨_, rfl, rfl⟩
  obtain ⟨got, hmem, hcontexts⟩ := hgot
  exact ⟨hruns _ _ _ _ _ _ _, got, hmem, hcontexts, hgets _ _ _ _ _ _ _ _ _ _ _ got hmem⟩

end DragonflySdk.Go
