import DragonflySdk.Proxy.GetInto
import DragonflySdk.Proxy.GoGetInto

/-!
# The proxy client of fixed endpoints

`ProxyWithEndpoints` in Rust and in Go: it is built from a list of endpoints, with a client made for
each of them, and sends to these in rotation through their clients.

`sendTo` fails for an endpoint without a client. It never does for one that was built: building makes
a client for each distinct endpoint (`OneEach.foldlM`), and no attempt is aimed at anything else. So
each attempt is sent through the client made for its endpoint (`built_sends`), whatever list the
proxy was built from, and however often an endpoint is in it.
-/

namespace DragonflySdk

open Foundation

/-! ### One client for each endpoint -/

section
variable {ε γ : Type} (make : Str → Except ε γ)

/-- A client is made for the endpoint, unless there is one. -/
def insertMissing (clients : List (Str × γ)) (endpoint : Str) : Except ε (List (Str × γ)) :=
  if endpoint ∈ clients.map Prod.fst then .ok clients
  else (make endpoint).map fun client => clients ++ [(endpoint, client)]

/-- There is one client for each of the endpoints: what was made for it. -/
structure OneEach (endpoints : List Str) (clients : List (Str × γ)) : Prop where
  nodup : (clients.map Prod.fst).Nodup
  mem_iff : ∀ endpoint, endpoint ∈ clients.map Prod.fst ↔ endpoint ∈ endpoints
  made : ∀ endpoint client, (endpoint, client) ∈ clients → make endpoint = .ok client

variable {make}

theorem OneEach.insertMissing {front : List Str} {clients clients' : List (Str × γ)}
    (h : OneEach make front clients) {endpoint : Str}
    (hinsert : insertMissing make clients endpoint = .ok clients') :
    OneEach make (front ++ [endpoint]) clients' := by
  unfold DragonflySdk.insertMissing at hinsert
  by_cases hmem : endpoint ∈ clients.map Prod.fst
  · rw [if_pos hmem] at hinsert
    obtain rfl := Except.ok.inj hinsert
    refine ⟨h.nodup, fun other => ?_, h.made⟩
    rw [List.mem_append, List.mem_singleton, h.mem_iff]
    exact ⟨Or.inl, fun hor => hor.elim id fun heq => heq ▸ (h.mem_iff endpoint).mp hmem⟩
  · rw [if_neg hmem] at hinsert
    obtain ⟨client, hclient, rfl⟩ := map_eq_ok_iff.mp hinsert
    refine ⟨?_, fun other => ?_, fun other client' hother => ?_⟩
    · rw [List.map_append, List.map_singleton]
      exact h.nodup.append (List.nodup_singleton _) (List.disjoint_singleton.mpr hmem)
    · rw [List.map_append, List.map_singleton, List.mem_append, List.mem_append, h.mem_iff]
    · rcases List.mem_append.mp hother with hother | hother
      · exact h.made other client' hother
      · obtain ⟨rfl, rfl⟩ := Prod.mk.inj (List.mem_singleton.mp hother)
        exact hclient

theorem OneEach.foldlM {front endpoints : List Str} {clients clients' : List (Str × γ)}
    (h : OneEach make front clients)
    (hfold : endpoints.foldlM (DragonflySdk.insertMissing make) clients = .ok clients') :
    OneEach make (front ++ endpoints) clients' := by
  induction endpoints generalizing front clients with
  | nil =>
    obtain rfl := Except.ok.inj hfold
    rwa [List.append_nil]
  | cons endpoint endpoints ih =>
    rw [List.foldlM_cons] at hfold
    obtain ⟨clients₁, hinsert, hrest⟩ := bind_eq_ok_iff.mp hfold
    have hall := ih (h.insertMissing hinsert) hrest
    rwa [List.append_assoc] at hall

theorem exists_foldlM_insertMissing {endpoints : List Str}
    (hmake : ∀ endpoint ∈ endpoints, ∃ client, make endpoint = .ok client)
    (clients : List (Str × γ)) :
    ∃ clients', endpoints.foldlM (insertMissing make) clients = .ok clients' := by
  induction endpoints generalizing clients with
  | nil => exact ⟨clients, rfl⟩
  | cons endpoint endpoints ih =>
    obtain ⟨client, hclient⟩ := hmake endpoint List.mem_cons_self
    obtain ⟨clients₁, hinsert⟩ : ∃ clients₁, insertMissing make clients endpoint = .ok clients₁ := by
      unfold insertMissing
      rw [hclient]
      by_cases hmem : endpoint ∈ clients.map Prod.fst
      · exact ⟨_, if_pos hmem⟩
      · exact ⟨_, if_neg hmem⟩
    obtain ⟨clients', hrest⟩ := ih (fun other hother => hmake other (List.mem_cons_of_mem _ hother))
      clients₁
    exact ⟨clients', by rw [List.foldlM_cons, hinsert]; exact hrest⟩

theorem oneEach_nil : OneEach make [] [] :=
  ⟨List.nodup_nil, fun _ => Iff.rfl, nofun⟩

theorem OneEach.exists_lookup {endpoints : List Str} {clients : List (Str × γ)}
    (h : OneEach make endpoints clients) {endpoint : Str} (hmem : endpoint ∈ endpoints) :
    ∃ client, clients.lookup endpoint = some client ∧ make endpoint = .ok client := by
  cases hlookup : clients.lookup endpoint with
  | none =>
    obtain ⟨⟨endpoint', client⟩, hpair, heq⟩ := List.mem_map.mp ((h.mem_iff endpoint).mpr hmem)
    exact absurd heq.symm (bne_iff_ne.mp (List.lookup_eq_none_iff.mp hlookup _ hpair))
  | some client =>
    obtain ⟨front, back, rfl, _⟩ := List.lookup_eq_some_iff.mp hlookup
    exact ⟨client, rfl, h.made _ _ (List.mem_append_right _ List.mem_cons_self)⟩

end

/-! ### In Rust -/

/-- What `make_client` calls of `reqwest`. -/
structure ReqwestCrate where
  Proxy : Type
  Client : Type
  /-- `reqwest::Proxy::all` -/
  proxyAll : Str → Except Str Proxy
  /-- `Client::builder()` with the proxy, and then `build()`. -/
  build : Proxy → Except Str Client

/-- Creates a client configured to use the specified proxy address. -/
def ReqwestCrate.makeClient (crate : ReqwestCrate) (proxyAddr : Str) :
    Except Error crate.Client := do
  let proxy ← (crate.proxyAll proxyAddr).mapError fun err =>
    .internal ("failed to set proxy ".toList ++ proxyAddr ++ ": ".toList ++ err)
  (crate.build proxy).mapError fun err =>
    .internal ("failed to build reqwest client: ".toList ++ err)

structure ProxyWithEndpointsBuilder (backon : BackonCrate) where
  endpoints : List Str
  retry : RetryPolicy backon

namespace ProxyWithEndpointsBuilder

variable {backon : BackonCrate} (builder : ProxyWithEndpointsBuilder backon)

/-- Validates the input parameters. -/
def validate : Except Error Unit :=
  if builder.endpoints = [] then .error (.invalidArgument "endpoints must not be empty".toList)
  else if 10 < builder.retry.maxRetries then
    .error (.invalidArgument "max retries must be between 0 and 10".toList)
  else .ok ()

/-- Builds a proxy, with a client per endpoint. -/
def build (crate : ReqwestCrate) : Except Error (ProxyWithEndpoints backon crate.Client) := do
  builder.validate
  let clients ← builder.endpoints.foldlM (insertMissing crate.makeClient) []
  return ⟨builder.endpoints, builder.retry, clients⟩

theorem validate_eq_ok_iff :
    builder.validate = .ok () ↔ builder.endpoints ≠ [] ∧ builder.retry.maxRetries ≤ 10 := by
  unfold validate
  split_ifs with hnil hmany
  · exact iff_of_false nofun fun h => h.1 hnil
  · exact iff_of_false nofun fun h => absurd h.2 (Nat.not_le.mpr hmany)
  · exact iff_of_true rfl ⟨hnil, Nat.not_lt.mp hmany⟩

theorem build_eq_ok {crate : ReqwestCrate} {proxy : ProxyWithEndpoints backon crate.Client}
    (h : builder.build crate = .ok proxy) :
    builder.validate = .ok () ∧ proxy.endpoints = builder.endpoints ∧ proxy.retry = builder.retry ∧
      OneEach crate.makeClient builder.endpoints proxy.clients := by
  obtain ⟨_, hvalid, hbuild⟩ := bind_eq_ok_iff.mp h
  obtain ⟨clients, hclients, hproxy⟩ := bind_eq_ok_iff.mp hbuild
  obtain rfl := Except.ok.inj hproxy
  exact ⟨hvalid, rfl, rfl, oneEach_nil.foldlM hclients⟩

theorem exists_build_iff {crate : ReqwestCrate} :
    (∃ proxy, builder.build crate = .ok proxy) ↔
      builder.endpoints ≠ [] ∧ builder.retry.maxRetries ≤ 10 ∧
        ∀ endpoint ∈ builder.endpoints, ∃ client, crate.makeClient endpoint = .ok client := by
  constructor
  · rintro ⟨proxy, hbuild⟩
    obtain ⟨hvalid, _, _, hone⟩ := builder.build_eq_ok hbuild
    obtain ⟨hne, hretries⟩ := builder.validate_eq_ok_iff.mp hvalid
    refine ⟨hne, hretries, fun endpoint hmem => ?_⟩
    obtain ⟨client, _, hmake⟩ := hone.exists_lookup hmem
    exact ⟨client, hmake⟩
  · rintro ⟨hne, hretries, hmake⟩
    obtain ⟨clients, hclients⟩ := exists_foldlM_insertMissing hmake []
    exact ⟨_, bind_eq_ok_iff.mpr ⟨(), builder.validate_eq_ok_iff.mpr ⟨hne, hretries⟩,
      bind_eq_ok_iff.mpr ⟨clients, hclients, rfl⟩⟩⟩

end ProxyWithEndpointsBuilder

/-- The closure that `get` retries, on its count of attempts. -/
def sendNext (sendTo : Nat → Str → Except Error Response) (made : Nat) (_ : Unit)
    (endpoint : Str) : (Nat × Unit) × Except Error Response :=
  ((made + 1, ()), sendTo made endpoint)

/-- Sends a GET request and returns a response with a streaming body. -/
def ProxyWithEndpoints.get {backon : BackonCrate} {γ : Type} (proxy : ProxyWithEndpoints backon γ)
    (url : UrlCrate) (crate : HttpCrate) (shuffle : Shuffle) (answer : Nat → γ → Client)
    (request : GetRequest) : Except Error GetResponse :=
  match request.validate url with
  | .error err => .error err
  | .ok () => (proxy.retry.get proxy.endpoints (shuffle.shuffled proxy.endpoints)
      (sendNext fun i endpoint => proxy.sendTo crate (answer i) endpoint request) 0).2

theorem getD_mod_mem {shuffled : List Str} (hne : shuffled ≠ []) (i : Nat) :
    shuffled.getD (i % shuffled.length) [] ∈ shuffled := by
  have hlt : i % shuffled.length < shuffled.length := Nat.mod_lt i (List.length_pos_iff.mpr hne)
  rw [List.getD_eq_getElem _ _ hlt]
  exact List.getElem_mem hlt

theorem RetryPolicy.runWithEndpoints_congr {backon : BackonCrate} {σ Ctx T : Type}
    (policy : RetryPolicy backon) {shuffled : List Str} (hne : shuffled ≠ [])
    {attempt attempt' : σ → Ctx → Str → (σ × Ctx) × Except Error T}
    (h : ∀ s ctx, ∀ endpoint ∈ shuffled, attempt s ctx endpoint = attempt' s ctx endpoint)
    (endpoints : List Str) (ctx : Ctx) (s : σ) :
    policy.runWithEndpoints endpoints shuffled ctx attempt s =
      policy.runWithEndpoints endpoints shuffled ctx attempt' s := by
  have hnext : attemptNext shuffled attempt = attemptNext shuffled attempt' := by
    funext ⟨⟨attempts, s⟩, ctx⟩
    unfold attemptNext target
    dsimp only
    rw [h s ctx _ (getD_mod_mem hne attempts)]
  unfold runWithEndpoints
  rw [hnext]

section
variable {backon : BackonCrate} (policy : RetryPolicy backon) {shuffled : List Str}
  (hne : shuffled ≠ []) {sendTo sendTo' : Nat → Str → Except Error Response}
  (h : ∀ i, ∀ endpoint ∈ shuffled, sendTo i endpoint = sendTo' i endpoint) (endpoints : List Str)
include hne h

theorem RetryPolicy.get_congr :
    policy.get endpoints shuffled (sendNext sendTo) 0 =
      policy.get endpoints shuffled (sendNext sendTo') 0 := by
  have hnext : ∀ made ctx, ∀ endpoint ∈ shuffled,
      sendNext sendTo made ctx endpoint = sendNext sendTo' made ctx endpoint := by
    intro made ctx endpoint hmem
    unfold sendNext
    rw [h made endpoint hmem]
  unfold RetryPolicy.get
  rw [policy.runWithEndpoints_congr hne hnext]

theorem RetryPolicy.getInto_congr (buf : List UInt8) :
    policy.getInto endpoints shuffled sendTo buf =
      policy.getInto endpoints shuffled sendTo' buf := by
  have hnext : ∀ made body, ∀ endpoint ∈ shuffled,
      readNext sendTo made body endpoint = readNext sendTo' made body endpoint := by
    intro made body endpoint hmem
    unfold readNext
    rw [h made endpoint hmem]
  unfold RetryPolicy.getInto
  rw [policy.runWithEndpoints_congr hne hnext]

end

/-- What a proxy built for its endpoints does: it sends to each through the client made for it. -/
structure SendsTo {backon : BackonCrate} {γ : Type} (clientOf : Str → γ)
    (proxy : ProxyWithEndpoints backon γ) : Prop where
  streams : ∀ (url : UrlCrate) (crate : HttpCrate) (shuffle : Shuffle) (answer : Nat → γ → Client)
    (request : GetRequest), request.validate url = .ok () →
    proxy.get url crate shuffle answer request =
      (proxy.retry.get proxy.endpoints (shuffle.shuffled proxy.endpoints)
        (sendNext fun i endpoint => request.send crate (answer i (clientOf endpoint))) 0).2
  drains : ∀ (url : UrlCrate) (crate : HttpCrate) (shuffle : Shuffle) (answer : Nat → γ → Client)
    (request : GetRequest) (buf : List UInt8), request.validate url = .ok () →
    proxy.getInto url crate shuffle answer request buf =
      proxy.retry.getInto proxy.endpoints (shuffle.shuffled proxy.endpoints)
        (fun i endpoint => request.send crate (answer i (clientOf endpoint))) buf

theorem sendsTo_of_lookup {backon : BackonCrate} {γ : Type} {proxy : ProxyWithEndpoints backon γ}
    (hne : proxy.endpoints ≠ []) {clientOf : Str → γ}
    (hlookup : ∀ endpoint ∈ proxy.endpoints,
      proxy.clients.lookup endpoint = some (clientOf endpoint)) : SendsTo clientOf proxy := by
  have hsend : ∀ (crate : HttpCrate) (shuffle : Shuffle) (answer : γ → Client)
      (request : GetRequest), ∀ endpoint ∈ shuffle.shuffled proxy.endpoints,
      proxy.sendTo crate answer endpoint request =
        request.send crate (answer (clientOf endpoint)) := by
    intro crate shuffle answer request endpoint hmem
    unfold ProxyWithEndpoints.sendTo
    rw [hlookup endpoint ((shuffle.perm proxy.endpoints).mem_iff.mp hmem)]
  have hshuffled : ∀ shuffle : Shuffle, shuffle.shuffled proxy.endpoints ≠ [] :=
    fun shuffle hnil => hne (List.Perm.eq_nil (hnil ▸ shuffle.perm proxy.endpoints).symm)
  constructor
  · intro url crate shuffle answer request hvalid
    unfold ProxyWithEndpoints.get
    rw [hvalid]
    exact congrArg Prod.snd (proxy.retry.get_congr (hshuffled shuffle)
      (fun i => hsend crate shuffle (answer i) request) proxy.endpoints)
  · intro url crate shuffle answer request buf hvalid
    unfold ProxyWithEndpoints.getInto
    rw [hvalid]
    exact proxy.retry.getInto_congr (hshuffled shuffle)
      (fun i => hsend crate shuffle (answer i) request) proxy.endpoints buf

/-! ### In Go -/

namespace Go

/-- A client of `net/http`, by the proxy it is configured to use. -/
structure HttpClient where
  proxyUrl : ParsedUrl

/-- Creates a client configured to use the specified proxy address; `parse` is `url.Parse`. -/
def newHttpClient (parse : Str → Except WrappedError ParsedUrl) (proxyAddr : Str) :
    Except WrappedError HttpClient :=
  match parse proxyAddr with
  | .error _ => .error (Error.internal ⟨"%w: failed to set proxy %s: %v".toList, [proxyAddr]⟩).tree
  | .ok proxyUrl => .ok ⟨proxyUrl⟩

structure ProxyWithEndpoints (backoff : ContextBackoff) where
  retry : ContextRetryPolicy backoff
  endpoints : List Str
  clients : List (Str × HttpClient)

namespace ProxyWithEndpoints

variable {backoff : ContextBackoff}

/-- Creates a proxy, its options applied to the retry policy, with a client per endpoint. -/
def newWithEndpoints (parse : Str → Except WrappedError ParsedUrl) (endpoints : List Str)
    (retry : ContextRetryPolicy backoff) : Except WrappedError (ProxyWithEndpoints backoff) :=
  if endpoints.length = 0 then
    .error (Error.invalidArgument ⟨"%w: endpoints must not be empty".toList, []⟩).tree
  else if 3 < retry.maxRetries then
    .error (Error.invalidArgument ⟨"%w: max retries must be between 0 and 3".toList, []⟩).tree
  else (endpoints.foldlM (insertMissing (newHttpClient parse)) []).map fun clients =>
    ⟨retry, endpoints, clients⟩

variable {σ : Type} {module : BodyModule} {writers : WriterModule}

/-- Sends the request once to the endpoint through its client. -/
def sendTo (p : ProxyWithEndpoints backoff)
    (answer : HttpClient → σ → AttemptContext → σ × Except WrappedError (Nat × Header × module.Body))
    (s : σ) (ctx : AttemptContext) (endpoint : Str) :
    σ × Except WrappedError (HttpResponse module) :=
  match p.clients.lookup endpoint with
  | none => (s, .error (Error.internal ⟨"%w: no client for endpoint %s".toList, [endpoint]⟩).tree)
  | some client => Go.sendTo (fun s ctx _ => answer client s ctx) s ctx endpoint

/-- Sends a GET request via the endpoints and returns a response with a streaming body. -/
def get (p : ProxyWithEndpoints backoff) (parse : Str → Except WrappedError ParsedUrl)
    (ended : σ → Option ContextEnd) (shuffle : List Str → List Str) (timeout : Int)
    (answer : HttpClient → σ → AttemptContext → σ × Except WrappedError (Nat × Header × module.Body))
    (req : GetRequest) (s : σ) :
    (σ × Contexts) × Except WrappedError (Option (StreamedResponse module)) :=
  match req.validate parse with
  | .error err => ((s, .empty), .error err)
  | .ok () =>
    let (s, result) := p.retry.runWithEndpoints ended p.endpoints (shuffle p.endpoints) timeout
      (p.sendTo answer) s
    (s, result.map StreamedResponse.of?)

/-- Sends a GET request via the endpoints and writes the response body into the provided writer. -/
def getInto (p : ProxyWithEndpoints backoff) (parse : Str → Except WrappedError ParsedUrl)
    (ended : σ → Option ContextEnd) (shuffle : List Str → List Str) (timeout : Int)
    (answer : HttpClient → σ → AttemptContext → σ × Except WrappedError (Nat × Header × module.Body))
    (req : GetRequest) (reads : Nat) (s : σ) (w : writers.Writer) :
    Option (Left σ module writers × Except WrappedError IntoResponse) :=
  match req.validate parse with
  | .error err => some (⟨s, .empty, w, none⟩, .error err)
  | .ok () => copyInto reads w (p.retry.runWithEndpoints ended p.endpoints (shuffle p.endpoints)
      timeout (p.sendTo answer) s)

theorem newWithEndpoints_eq_ok {parse : Str → Except WrappedError ParsedUrl} {endpoints : List Str}
    {retry : ContextRetryPolicy backoff} {p : ProxyWithEndpoints backoff}
    (h : newWithEndpoints parse endpoints retry = .ok p) :
    endpoints ≠ [] ∧ retry.maxRetries ≤ 3 ∧ p.retry = retry ∧ p.endpoints = endpoints ∧
      OneEach (newHttpClient parse) endpoints p.clients := by
  unfold newWithEndpoints at h
  by_cases hnil : endpoints.length = 0
  · rw [if_pos hnil] at h
    cases h
  · rw [if_neg hnil] at h
    by_cases hmany : 3 < retry.maxRetries
    · rw [if_pos hmany] at h
      cases h
    · rw [if_neg hmany] at h
      obtain ⟨clients, hclients, rfl⟩ := map_eq_ok_iff.mp h
      have hone := oneEach_nil.foldlM hclients
      exact ⟨fun heq => hnil (List.length_eq_zero_iff.mpr heq), Nat.not_lt.mp hmany, rfl, rfl, hone⟩

theorem exists_newWithEndpoints_iff {parse : Str → Except WrappedError ParsedUrl}
    {endpoints : List Str} {retry : ContextRetryPolicy backoff} :
    (∃ p, newWithEndpoints parse endpoints retry = .ok p) ↔
      endpoints ≠ [] ∧ retry.maxRetries ≤ 3 ∧
        ∀ endpoint ∈ endpoints, ∃ client, newHttpClient parse endpoint = .ok client := by
  constructor
  · rintro ⟨p, hnew⟩
    obtain ⟨hne, hretries, _, _, hone⟩ := newWithEndpoints_eq_ok hnew
    refine ⟨hne, hretries, fun endpoint hmem => ?_⟩
    obtain ⟨client, _, hmake⟩ := hone.exists_lookup hmem
    exact ⟨client, hmake⟩
  · rintro ⟨hne, hretries, hmake⟩
    obtain ⟨clients, hclients⟩ := exists_foldlM_insertMissing hmake []
    refine ⟨⟨retry, endpoints, clients⟩, ?_⟩
    unfold newWithEndpoints
    rw [if_neg fun hnil => hne (List.length_eq_zero_iff.mp hnil), if_neg (Nat.not_lt.mpr hretries),
      hclients]
    rfl

end ProxyWithEndpoints

theorem ContextRetryPolicy.runWithEndpoints_congr {backoff : ContextBackoff} {σ T : Type}
    (policy : ContextRetryPolicy backoff) {shuffled : List Str} (hne : shuffled ≠ [])
    {send send' : σ → AttemptContext → Str → σ × Except WrappedError T}
    (h : ∀ s ctx, ∀ endpoint ∈ shuffled, send s ctx endpoint = send' s ctx endpoint)
    (ended : σ → Option ContextEnd) (endpoints : List Str) (timeout : Int) (s : σ) :
    policy.runWithEndpoints ended endpoints shuffled timeout send s =
      policy.runWithEndpoints ended endpoints shuffled timeout send' s := by
  have hnext : attemptNext shuffled timeout send = attemptNext shuffled timeout send' := by
    funext a
    unfold attemptNext
    dsimp only
    rw [h _ _ _ (getD_mod_mem hne a.attempts)]
  unfold runWithEndpoints
  rw [hnext]

/-- What a proxy created for `endpoints` does: it sends to each through the client made for it. -/
structure SendsTo {backoff : ContextBackoff} (clientOf : Str → HttpClient)
    (p : ProxyWithEndpoints backoff) : Prop where
  /-- No attempt fails for want of a client. -/
  direct : ∀ {σ : Type} {module : BodyModule} (ended : σ → Option ContextEnd)
    (shuffle : List Str → List Str), (∀ l, (shuffle l).Perm l) → ∀ (timeout : Int)
    (answer : HttpClient → σ → AttemptContext → σ × Except WrappedError (Nat × Header × module.Body))
    (s : σ),
    p.retry.runWithEndpoints ended p.endpoints (shuffle p.endpoints) timeout (p.sendTo answer) s =
      p.retry.runWithEndpoints ended p.endpoints (shuffle p.endpoints) timeout
        (sendTo fun s ctx endpoint => answer (clientOf endpoint) s ctx) s
  streams : ∀ {σ : Type} {module : BodyModule} (parse : Str → Except WrappedError ParsedUrl)
    (ended : σ → Option ContextEnd) (shuffle : List Str → List Str), (∀ l, (shuffle l).Perm l) →
    ∀ (timeout : Int)
    (answer : HttpClient → σ → AttemptContext → σ × Except WrappedError (Nat × Header × module.Body))
    (req : GetRequest) (s : σ), StreamsInTime (p.get parse ended shuffle timeout answer req s)
  drains : ∀ {σ : Type} {module : BodyModule} {writers : WriterModule}
    (parse : Str → Except WrappedError ParsedUrl) (ended : σ → Option ContextEnd)
    (shuffle : List Str → List Str), (∀ l, (shuffle l).Perm l) → ∀ (timeout : Int)
    (answer : HttpClient → σ → AttemptContext → σ × Except WrappedError (Nat × Header × module.Body))
    (req : GetRequest) (reads : Nat) (s : σ) (w : writers.Writer),
    ∀ into ∈ p.getInto parse ended shuffle timeout answer req reads s w,
      Drains (fun s ctx endpoint => answer (clientOf endpoint) s ctx) w into

theorem sendsTo_of_lookup {backoff : ContextBackoff} (hbackoff : backoff.Lawful)
    {p : ProxyWithEndpoints backoff} (hne : p.endpoints ≠ []) {clientOf : Str → HttpClient}
    (hlookup : ∀ endpoint ∈ p.endpoints, p.clients.lookup endpoint = some (clientOf endpoint)) :
    SendsTo clientOf p := by
  have hdirect : ∀ {σ : Type} {module : BodyModule} (ended : σ → Option ContextEnd)
      (shuffle : List Str → List Str), (∀ l, (shuffle l).Perm l) → ∀ (timeout : Int)
      (answer : HttpClient → σ → AttemptContext →
        σ × Except WrappedError (Nat × Header × module.Body)) (s : σ),
      p.retry.runWithEndpoints ended p.endpoints (shuffle p.endpoints) timeout (p.sendTo answer) s =
        p.retry.runWithEndpoints ended p.endpoints (shuffle p.endpoints) timeout
          (sendTo fun s ctx endpoint => answer (clientOf endpoint) s ctx) s := by
    intro σ module ended shuffle hshuffle timeout answer s
    have hshuffled : shuffle p.endpoints ≠ [] := fun hnil =>
      hne (List.Perm.eq_nil (hnil ▸ hshuffle p.endpoints).symm)
    refine p.retry.runWithEndpoints_congr hshuffled (fun s ctx endpoint hmem => ?_) ended _ timeout s
    unfold ProxyWithEndpoints.sendTo
    rw [hlookup endpoint ((hshuffle p.endpoints).mem_iff.mp hmem)]
    rfl
  refine ⟨hdirect, ?_, ?_⟩
  · intro σ module parse ended shuffle hshuffle timeout answer req s
    unfold ProxyWithEndpoints.get
    rcases req.validate parse with err | value
    · exact .failed Handles.allReleased_empty
    · dsimp only
      rw [hdirect ended shuffle hshuffle timeout answer s]
      exact (ContextRetryPolicy.runWithEndpoints_releases hbackoff _ ended p.endpoints
        (shuffle p.endpoints) timeout s).streamsInTime
  · intro σ module writers parse ended shuffle hshuffle timeout answer req reads s w into hinto
    unfold ProxyWithEndpoints.getInto at hinto
    rcases hvalidate : req.validate parse with err | value
    · rw [hvalidate] at hinto
      obtain rfl := Option.some.inj hinto
      exact .failed Handles.allReleased_empty
    · rw [hvalidate] at hinto
      dsimp only at hinto
      rw [hdirect ended shuffle hshuffle timeout answer s] at hinto
      exact copyInto_drains (ContextRetryPolicy.runWithEndpoints_releases hbackoff _ ended p.endpoints
        (shuffle p.endpoints) timeout s) hinto

end Go

/-! ### Whatever it is built from -/

section
variable {ε γ : Type} {make : Str → Except ε γ} {endpoints : List Str} {clients : List (Str × γ)}

theorem OneEach.exists_clientOf (h : OneEach make endpoints clients) (hne : endpoints ≠ []) :
    ∃ clientOf : Str → γ, ∀ endpoint ∈ endpoints,
      clients.lookup endpoint = some (clientOf endpoint) ∧ make endpoint = .ok (clientOf endpoint) := by
  obtain ⟨first, hfirst⟩ := List.exists_mem_of_ne_nil endpoints hne
  obtain ⟨client₀, _, _⟩ := h.exists_lookup hfirst
  refine ⟨fun endpoint => (clients.lookup endpoint).getD client₀, fun endpoint hmem => ?_⟩
  obtain ⟨client, hlookup, hmake⟩ := h.exists_lookup hmem
  dsimp only
  rw [hlookup, hmake]
  exact ⟨rfl, rfl⟩

end

/-- **A proxy built from a list of endpoints sends to each of them through the client made for it**,
in Rust and in Go. It is built if a client can be made for each of them. -/
theorem built_sends :
    (∀ {backon : BackonCrate} (builder : ProxyWithEndpointsBuilder backon) (reqwest : ReqwestCrate),
      ((∃ proxy, builder.build reqwest = .ok proxy) ↔
        builder.endpoints ≠ [] ∧ builder.retry.maxRetries ≤ 10 ∧
          ∀ endpoint ∈ builder.endpoints, ∃ client, reqwest.makeClient endpoint = .ok client) ∧
      ∀ proxy, builder.build reqwest = .ok proxy →
        (proxy.endpoints = builder.endpoints ∧ proxy.retry = builder.retry ∧
          OneEach reqwest.makeClient builder.endpoints proxy.clients) ∧
        ∃ clientOf : Str → reqwest.Client,
          (∀ endpoint ∈ builder.endpoints, reqwest.makeClient endpoint = .ok (clientOf endpoint)) ∧
            SendsTo clientOf proxy) ∧
    ∀ {backoff : Go.ContextBackoff}, backoff.Lawful →
      ∀ (parse : Str → Except Go.WrappedError Go.ParsedUrl) (endpoints : List Str)
        (retry : Go.ContextRetryPolicy backoff),
        ((∃ p, Go.ProxyWithEndpoints.newWithEndpoints parse endpoints retry = .ok p) ↔
          endpoints ≠ [] ∧ retry.maxRetries ≤ 3 ∧
            ∀ endpoint ∈ endpoints, ∃ client, Go.newHttpClient parse endpoint = .ok client) ∧
        ∀ p, Go.ProxyWithEndpoints.newWithEndpoints parse endpoints retry = .ok p →
          (p.endpoints = endpoints ∧ p.retry = retry ∧
            OneEach (Go.newHttpClient parse) endpoints p.clients) ∧
          ∃ clientOf : Str → Go.HttpClient,
            (∀ endpoint ∈ endpoints, Go.newHttpClient parse endpoint = .ok (clientOf endpoint)) ∧
              Go.SendsTo clientOf p := by
  constructor
  · intro backon builder reqwest
    refine ⟨builder.exists_build_iff, fun proxy hbuild => ?_⟩
    obtain ⟨hvalid, hendpoints, hretry, hone⟩ := builder.build_eq_ok hbuild
    have hne := (builder.validate_eq_ok_iff.mp hvalid).1
    obtain ⟨clientOf, hclientOf⟩ := hone.exists_clientOf hne
    refine ⟨⟨hendpoints, hretry, hone⟩, clientOf, fun endpoint hmem => (hclientOf endpoint hmem).2, ?_⟩
    rw [← hendpoints] at hne hclientOf
    exact sendsTo_of_lookup hne fun endpoint hmem => (hclientOf endpoint hmem).1
  · intro backoff hbackoff parse endpoints retry
    refine ⟨Go.ProxyWithEndpoints.exists_newWithEndpoints_iff, fun p hnew => ?_⟩
    obtain ⟨hne, _, hretry, hendpoints, hone⟩ := Go.ProxyWithEndpoints.newWithEndpoints_eq_ok hnew
    obtain ⟨clientOf, hclientOf⟩ := hone.exists_clientOf hne
    refine ⟨⟨hendpoints, hretry, hone⟩, clientOf, fun endpoint hmem => (hclientOf endpoint hmem).2, ?_⟩
    rw [← hendpoints] at hne hclientOf
    exact Go.sendsTo_of_lookup hbackoff hne fun endpoint hmem => (hclientOf endpoint hmem).1

/-- Two endpoints, one of them given twice. -/
def twiceEndpoints : List Str := ["a".toList, "b".toList, "a".toList]

/-- Every proxy address is accepted, and a client known by it. -/
def exampleReqwest : ReqwestCrate := ⟨Str, Str, .ok, .ok⟩

/-- The body through the client of the first endpoint times out. -/
def answerThrough (client : Str) : Client := exampleClient (if client = "a".toList then 0 else 1)

/-- At two endpoints, for a request that the second of them answers in full. -/
theorem built_sends_twice :
    (∃ (proxy : ProxyWithEndpoints exampleBackon Str) (clientOf : Str → Str),
      ProxyWithEndpointsBuilder.build ⟨twiceEndpoints, ⟨1, none⟩⟩ exampleReqwest = .ok proxy ∧
      proxy.clients.length = 2 ∧
      clientOf "a".toList = "a".toList ∧ clientOf "b".toList = "b".toList ∧
      proxy.getInto httpsCrate exampleHttp unshuffled (fun _ => answerThrough)
          (lookupRequest 1) [1, 2] =
        proxy.retry.getInto proxy.endpoints (unshuffled.shuffled proxy.endpoints)
          (fun _ endpoint => (lookupRequest 1).send exampleHttp (answerThrough (clientOf endpoint)))
          [1, 2]) ∧
    ∃ p : Go.ProxyWithEndpoints Go.exampleContextBackoff, p.clients.length = 2 ∧
      ∃ clientOf, Go.SendsTo clientOf p := by
  obtain ⟨hrust, hgo⟩ := built_sends
  constructor
  · obtain ⟨_, clientOf, hclientOf, hsends⟩ :=
      (hrust (⟨twiceEndpoints, ⟨1, none⟩⟩ : ProxyWithEndpointsBuilder exampleBackon)
        exampleReqwest).2 _ rfl
    refine ⟨_, clientOf, rfl, rfl, (Except.ok.inj (hclientOf _ ?_)).symm,
      (Except.ok.inj (hclientOf _ ?_)).symm, hsends.drains httpsCrate exampleHttp unshuffled
        (fun _ => answerThrough) (lookupRequest 1) [1, 2] rfl⟩
    · exact List.mem_cons_self
    · exact List.mem_cons_of_mem _ List.mem_cons_self
  · obtain ⟨_, clientOf, _, hsends⟩ := (hgo Go.exampleContextBackoff_lawful Go.exampleParse
      twiceEndpoints (Go.exampleContextPolicy 1)).2 _ rfl
    exact ⟨_, rfl, clientOf, hsends⟩

end DragonflySdk
