import DragonflySdk.Proxy.Lookup
import DragonflySdk.Response

/-!
# Reading an answer into a buffer

`get` and `get_into` of both proxies. `get` returns the answer with its body as a stream. For
`get_into` the buffer is taken from the caller, handed from attempt to attempt as the context of the
retries, and given back with the result. An attempt that fails has cut it back to the length it
found, so the buffer ends up with the chunks of the one attempt that was read to its end, or as it
was (`get_into_appends`).
-/

namespace DragonflySdk

open Foundation

/-- A response received via the Dragonfly; the body is what is still to be read of it. -/
structure GetResponse where
  success : Bool
  header : HeaderMap
  statusCode : Option Nat
  body : Option (List (Except Error (List UInt8)))
deriving DecidableEq

/-- The response with its body as a stream. -/
def GetResponse.ofResponse (response : Response) : GetResponse where
  success := isSuccess response.status
  header := response.headers
  statusCode := some response.status
  body := some (response.chunks.map .ok ++
    match response.ending with
    | .complete => []
    | .timeout err | .failed err => [.error (.internal err)])

/-- A shuffle of endpoints. -/
structure Shuffle where
  shuffled : List Str → List Str
  perm : ∀ endpoints, (shuffled endpoints).Perm endpoints

/-! ### One attempt -/

/-- Reads what is left of a body onto `body`, which is cut back to `len` when that fails. -/
def readChunks (len : Nat) (ending : BodyEnd) :
    List (List UInt8) → List UInt8 → List UInt8 × Except Error Unit
  | chunk :: chunks, body => readChunks len ending chunks (body ++ chunk)
  | [], body =>
    match ending with
    | .complete => (body, .ok ())
    | .timeout err => (body.take len, .error (.requestTimeout err))
    | .failed err =>
      (body.take len, .error (.internal ("failed to read response body: ".toList ++ err)))

/-- What an attempt makes of the answer and the bytes it is handed. -/
def readInto (sent : Except Error Response) (body : List UInt8) :
    List UInt8 × Except Error GetResponse :=
  match sent with
  | .error err => (body, .error err)
  | .ok response =>
    let (body, result) := readChunks body.length response.ending response.chunks body
    (body, result.map fun () =>
      ⟨isSuccess response.status, response.headers, some response.status, none⟩)

theorem readChunks_complete (len : Nat) (chunks : List (List UInt8)) (body : List UInt8) :
    readChunks len .complete chunks body = (body ++ chunks.flatten, .ok ()) := by
  induction chunks generalizing body with
  | nil => rw [readChunks, List.flatten_nil, List.append_nil]
  | cons chunk chunks ih => rw [readChunks, ih, List.flatten_cons, List.append_assoc]

theorem readChunks_incomplete (len : Nat) {ending : BodyEnd} (hending : ending ≠ .complete)
    (chunks : List (List UInt8)) (body : List UInt8) :
    ∃ err, readChunks len ending chunks body = ((body ++ chunks.flatten).take len, .error err) := by
  induction chunks generalizing body with
  | nil =>
    rw [List.flatten_nil, List.append_nil]
    cases ending with
    | complete => exact absurd rfl hending
    | timeout err => exact ⟨_, rfl⟩
    | failed err => exact ⟨_, rfl⟩
  | cons chunk chunks ih =>
    rw [readChunks, List.flatten_cons, ← List.append_assoc]
    exact ih (body ++ chunk)

/-- The answer was read to its end. -/
def EndsCleanly (sent : Except Error Response) : Prop :=
  ∃ answered, sent = .ok answered ∧ answered.ending = .complete

theorem readInto_eq_error {sent : Except Error Response} {body : List UInt8} {err : Error}
    (h : (readInto sent body).2 = .error err) :
    ¬EndsCleanly sent ∧ (readInto sent body).1 = body := by
  rcases sent with err' | response
  · exact ⟨nofun, rfl⟩
  · by_cases hending : response.ending = .complete
    · simp only [readInto, hending, readChunks_complete] at h
      cases h
    · constructor
      · intro hclean
        obtain ⟨answered, hanswered, hcomplete⟩ := hclean
        obtain rfl := Except.ok.inj hanswered
        exact hending hcomplete
      · obtain ⟨err', hread⟩ :=
          readChunks_incomplete body.length hending response.chunks body
        simp only [readInto, hread, List.take_left]

theorem readInto_eq_ok {sent : Except Error Response} {body : List UInt8} {response : GetResponse}
    (h : (readInto sent body).2 = .ok response) :
    ∃ answered, sent = .ok answered ∧ answered.ending = .complete ∧
      (readInto sent body).1 = body ++ answered.chunks.flatten := by
  rcases sent with err | answered
  · cases h
  · refine ⟨answered, rfl, ?_⟩
    by_cases hending : answered.ending = .complete
    · simp only [readInto, hending, readChunks_complete, and_self]
    · obtain ⟨err, hread⟩ := readChunks_incomplete body.length hending answered.chunks body
      simp only [readInto, hread] at h
      cases h

/-! ### All attempts -/

/-- The closure that is retried, on its count of attempts; `sendTo i` is what comes of the `i`-th
attempt at an endpoint. -/
def readNext (sendTo : Nat → Str → Except Error Response) (made : Nat) (body : List UInt8)
    (endpoint : Str) : (Nat × List UInt8) × Except Error GetResponse :=
  let (body, result) := readInto (sendTo made endpoint) body
  ((made + 1, body), result)

/-- `get` with the endpoints to send to. -/
def RetryPolicy.get {crate : BackonCrate} (policy : RetryPolicy crate) {σ : Type}
    (endpoints shuffled : List Str)
    (sendTo : σ → Unit → Str → (σ × Unit) × Except Error Response) (s : σ) :
    σ × Except Error GetResponse :=
  let ((s, _), result) := policy.runWithEndpoints endpoints shuffled () sendTo s
  (s, result.map .ofResponse)

/-- `get_into` with the endpoints to send to. -/
def RetryPolicy.getInto {crate : BackonCrate} (policy : RetryPolicy crate)
    (endpoints shuffled : List Str) (sendTo : Nat → Str → Except Error Response)
    (buf : List UInt8) : List UInt8 × Except Error GetResponse :=
  let ((_, body), result) := policy.runWithEndpoints endpoints shuffled buf (readNext sendTo) 0
  (body, result)

/-- Sends the request once through the pooled client of a seed peer proxy, if there is one. -/
def Proxy.sendTo (crate : HttpCrate) (request : GetRequest) (entry : Except Error Client) :
    Except Error Response := do
  let client ← entry
  request.send crate client

/-- Sends a GET request and appends the response body to `buf`; `pool i` is what the entries of the
client pool are at the `i`-th attempt. -/
def Proxy.getInto {crates : ProxyCrates} (proxy : Proxy crates) (crate : HttpCrate)
    (fuel now : Nat) (shuffle : Shuffle) (pool : Nat → Str → Except Error Client)
    (request : GetRequest) (buf : List UInt8) :
    Option (List UInt8 × Except Error GetResponse) :=
  match request.validate crates.id.url with
  | .error err => some (buf, .error err)
  | .ok () =>
    (proxy.lookupProxyEndpoints fuel now request).map fun
      | .error err => (buf, .error err)
      | .ok endpoints => proxy.retry.getInto endpoints (shuffle.shuffled endpoints)
          (fun i endpoint => Proxy.sendTo crate request (pool i endpoint)) buf

/-- The proxy client of fixed endpoints, with the clients keyed by endpoint. -/
structure ProxyWithEndpoints (crate : BackonCrate) (γ : Type) where
  endpoints : List Str
  retry : RetryPolicy crate
  clients : List (Str × γ)

section
variable {backon : BackonCrate} {γ : Type} (proxy : ProxyWithEndpoints backon γ)

/-- Sends the request once to an endpoint through its client; `answer` is what comes of sending
through a client. -/
def ProxyWithEndpoints.sendTo (crate : HttpCrate) (answer : γ → Client) (endpoint : Str)
    (request : GetRequest) : Except Error Response :=
  match proxy.clients.lookup endpoint with
  | none => .error (.internal ("no client for endpoint ".toList ++ endpoint))
  | some client => request.send crate (answer client)

/-- Sends a GET request and appends the response body to `buf`; `answer i` is what comes of sending
through a client at the `i`-th attempt. -/
def ProxyWithEndpoints.getInto (url : UrlCrate) (crate : HttpCrate) (shuffle : Shuffle)
    (answer : Nat → γ → Client) (request : GetRequest) (buf : List UInt8) :
    List UInt8 × Except Error GetResponse :=
  match request.validate url with
  | .error err => (buf, .error err)
  | .ok () => proxy.retry.getInto proxy.endpoints (shuffle.shuffled proxy.endpoints)
      (fun i endpoint => proxy.sendTo crate (answer i) endpoint request) buf

end

/-- What becomes of the buffer `buf` when the `i`-th attempt is answered with `sent i`. -/
structure Appends (buf : List UInt8) (sent : Nat → Except Error Response)
    (result : List UInt8 × Except Error GetResponse) : Prop where
  /-- The chunks of the one attempt that ended cleanly are appended. -/
  appended : ∀ response, result.2 = .ok response → ∃ last answered,
    (∀ i < last, ¬EndsCleanly (sent i)) ∧ sent last = .ok answered ∧
      answered.ending = .complete ∧ result.1 = buf ++ answered.chunks.flatten
  /-- Otherwise it is left as it is. -/
  unchanged : ∀ err, result.2 = .error err → result.1 = buf

theorem Appends.of_error (buf : List UInt8) (sent : Nat → Except Error Response) (err : Error) :
    Appends buf sent (buf, .error err) :=
  ⟨nofun, fun _ _ => rfl⟩

/-- Before an attempt: the bytes it is handed are those at first, as all before it have failed. -/
structure Untouched (buf : List UInt8) (sent : Nat → Except Error Response)
    (s : (Nat × Nat) × List UInt8) : Prop where
  count_eq : s.1.1 = s.1.2
  body_eq : s.2 = buf
  failed : ∀ i < s.1.2, ¬EndsCleanly (sent i)

section
variable {shuffled : List Str} {sendTo : Nat → Str → Except Error Response} {buf : List UInt8}
  {s : (Nat × Nat) × List UInt8}
  (hs : Untouched buf (fun i => sendTo i (RetryPolicy.target shuffled i)) s)
include hs

theorem attemptNext_readNext : RetryPolicy.attemptNext shuffled (readNext sendTo) s =
    (((s.1.1 + 1, s.1.2 + 1),
        (readInto (sendTo s.1.2 (RetryPolicy.target shuffled s.1.2)) buf).1),
      (readInto (sendTo s.1.2 (RetryPolicy.target shuffled s.1.2)) buf).2) := by
  rw [← hs.body_eq, RetryPolicy.attemptNext, hs.count_eq, readNext]

theorem Untouched.step {err : Error}
    (h : (RetryPolicy.attemptNext shuffled (readNext sendTo) s).2 = .error err) :
    Untouched buf (fun i => sendTo i (RetryPolicy.target shuffled i))
      (RetryPolicy.attemptNext shuffled (readNext sendTo) s).1 := by
  rw [attemptNext_readNext hs] at h ⊢
  obtain ⟨hunclean, hbody⟩ := readInto_eq_error h
  refine ⟨congrArg (· + 1) hs.count_eq, hbody, fun i hi => ?_⟩
  rcases Nat.lt_succ_iff_lt_or_eq.mp hi with hlt | rfl
  · exact hs.failed i hlt
  · exact hunclean

theorem Untouched.appends :
    Appends buf (fun i => sendTo i (RetryPolicy.target shuffled i))
      ((RetryPolicy.attemptNext shuffled (readNext sendTo) s).1.2,
        (RetryPolicy.attemptNext shuffled (readNext sendTo) s).2) := by
  rw [attemptNext_readNext hs]
  constructor
  · intro response hok
    obtain ⟨answered, hsent, hending, hbody⟩ := readInto_eq_ok hok
    exact ⟨s.1.2, answered, hs.failed, hsent, hending, hbody⟩
  · intro err herr
    exact (readInto_eq_error herr).2

end

theorem getInto_appends {backon : BackonCrate} (hbackon : backon.Lawful)
    (policy : RetryPolicy backon) (endpoints shuffled : List Str)
    (sendTo : Nat → Str → Except Error Response) (buf : List UInt8) :
    Appends buf (fun i => sendTo i (RetryPolicy.target shuffled i))
      (policy.getInto endpoints shuffled sendTo buf) := by
  unfold RetryPolicy.getInto RetryPolicy.runWithEndpoints
  by_cases hendpoints : endpoints = []
  · rw [if_pos hendpoints]
    exact Appends.of_error _ _ _
  · rw [if_neg hendpoints]
    have hfirst : Untouched buf (fun i => sendTo i (RetryPolicy.target shuffled i))
        ((0, 0), buf) := ⟨rfl, rfl, fun i hi => absurd hi (Nat.not_lt_zero i)⟩
    obtain ⟨last, hlast, hrun⟩ := (hbackon.retryWithContext_loop
      (RetryPolicy.attemptNext shuffled (readNext sendTo)) Error.isRetryable).exists_last
      (fun s err hs herr => hs.step herr) policy.delays hfirst
    rw [hrun]
    exact hlast.appends

/-- **A buffer is appended to by one attempt that ends cleanly, or not at all.** -/
theorem get_into_appends (crates : ProxyCrates) (hbackon : crates.backon.Lawful)
    (crate : HttpCrate) (shuffle : Shuffle) (request : GetRequest) (buf : List UInt8) :
    (∀ (proxy : Proxy crates) (fuel now : Nat) (pool : Nat → Str → Except Error Client)
        (result : List UInt8 × Except Error GetResponse),
      proxy.getInto crate fuel now shuffle pool request buf = some result →
      ∃ endpoints, (∀ response, result.2 = .ok response →
          proxy.lookupProxyEndpoints fuel now request = some (.ok endpoints)) ∧
        Appends buf (fun i => Proxy.sendTo crate request
          (pool i (RetryPolicy.target (shuffle.shuffled endpoints) i))) result) ∧
    (∀ {γ : Type} (proxy : ProxyWithEndpoints crates.backon γ) (answer : Nat → γ → Client),
      Appends buf (fun i => proxy.sendTo crate (answer i)
          (RetryPolicy.target (shuffle.shuffled proxy.endpoints) i) request)
        (proxy.getInto crates.id.url crate shuffle answer request buf)) := by
  constructor
  · intro proxy fuel now pool result h
    unfold Proxy.getInto at h
    rcases hvalid : request.validate crates.id.url with err | _
    · rw [hvalid] at h
      obtain rfl := Option.some.inj h
      exact ⟨[], nofun, Appends.of_error _ _ _⟩
    · rw [hvalid] at h
      obtain ⟨looked, hlookup, rfl⟩ := Option.map_eq_some_iff.mp h
      rcases looked with err | endpoints
      · exact ⟨[], nofun, Appends.of_error _ _ _⟩
      · exact ⟨endpoints, fun _ _ => hlookup, getInto_appends hbackon _ _ _
          (fun i endpoint => Proxy.sendTo crate request (pool i endpoint)) buf⟩
  · intro γ proxy answer
    unfold ProxyWithEndpoints.getInto
    rcases request.validate crates.id.url with err | _
    · exact Appends.of_error _ _ _
    · exact getInto_appends hbackon _ _ _
        (fun i endpoint => proxy.sendTo crate (answer i) endpoint request) buf

/-- Every text is the value of a header. -/
def exampleHttp : HttpCrate := ⟨.ok, fun _ _ => [], fun status => status.repr.toList⟩

def unshuffled : Shuffle := ⟨id, fun _ => List.Perm.refl _⟩

/-- The first body times out after one chunk, the second is complete. -/
def exampleClient (made : Nat) : Client := fun _ _ _ =>
  .ok (if made = 0 then ⟨200, [], [[3]], .timeout "timed out".toList⟩
    else ⟨200, [], [[3], [4]], .complete⟩)

theorem getInto_example : addressedProxy.proxy.getInto exampleHttp 3 0 unshuffled
    (fun made _ => .ok (exampleClient made)) (lookupRequest 1) [1, 2] =
      some ([1, 2, 3, 4], .ok ⟨true, [], some 200, none⟩) := by
  decide +kernel

/-- At a body that times out and one that does not. -/
theorem get_into_appends_second :
    (∃ endpoints, (∀ response, (.ok ⟨true, [], some 200, none⟩ : Except Error GetResponse) =
          .ok response → addressedProxy.proxy.lookupProxyEndpoints 3 0 (lookupRequest 1) =
            some (.ok endpoints)) ∧
        Appends [1, 2] (fun i => Proxy.sendTo exampleHttp (lookupRequest 1) (.ok (exampleClient i)))
          ([1, 2, 3, 4], .ok ⟨true, [], some 200, none⟩)) ∧
    let proxy : ProxyWithEndpoints exampleBackon Unit := ⟨["a".toList], ⟨1, none⟩, [("a".toList, ())]⟩
    Appends [1, 2] (fun i => proxy.sendTo exampleHttp (fun _ => exampleClient i)
        (RetryPolicy.target (unshuffled.shuffled proxy.endpoints) i) (lookupRequest 1))
      (proxy.getInto httpsCrate exampleHttp unshuffled (fun made _ => exampleClient made)
        (lookupRequest 1) [1, 2]) := by
  obtain ⟨hproxy, hendpoints⟩ := get_into_appends lookupCrates exampleBackon_lawful exampleHttp
    unshuffled (lookupRequest 1) [1, 2]
  exact ⟨hproxy addressedProxy.proxy 3 0 (fun made _ => .ok (exampleClient made)) _ getInto_example,
    hendpoints ⟨["a".toList], ⟨1, none⟩, [("a".toList, ())]⟩ fun made _ => exampleClient made⟩

end DragonflySdk
