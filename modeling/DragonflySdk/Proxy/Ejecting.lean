import DragonflySdk.Foundation.Breaker
import DragonflySdk.Foundation.ErrorTree
import DragonflySdk.Proxy.GetInto
import DragonflySdk.Proxy.Replicas
import DragonflySdk.Proxy.Stream
import DragonflySdk.Response.Retry
import DragonflySdk.Selector.Ejection

/-!
# Ejecting the proxies that cannot be reached

The client of a seed peer proxy records what it shows of its proxy: `EjectionMiddleware` in Rust and
`ejectionTransport` in Go. An answer counts as a success, and a refused or unreachable proxy as a
failure. The ejections are breakers, and `Get` and `GetInto` of a proxy requests that look at them
before they try the proxies in turn (`Proxy.client`).

So in any interleaving of requests, an ejected proxy is spared by all requests that had not looked at
it before (`ejected_proxy_spared`), it has been ejected for what attempts have recorded of it
(`ejected_by_attempts`), and the attempts of a request are those of its retry loop over the endpoints
that it has found (`requests_run_loop`).
-/

namespace DragonflySdk

open Foundation Breaker

/-! ### The ejections as breakers -/

/-- When the proxy at an endpoint was ejected. -/
def Ejections.ejectedAt (ejections : Ejections) (endpoint : Str) : Option Nat :=
  (ejections.lookup endpoint).bind Ejection.ejectedAt

theorem Ejections.ejectedAt_onFailure_self (ejections : Ejections) (now : Nat) (endpoint : Str) :
    (ejections.onFailure now endpoint).ejectedAt endpoint = some now ∨
      (ejections.onFailure now endpoint).ejectedAt endpoint = ejections.ejectedAt endpoint := by
  unfold ejectedAt
  rw [lookup_onFailure_self]
  split
  · exact .inl rfl
  · right
    cases ejections.lookup endpoint <;> rfl

/-- The ejections in Rust. -/
def ejectionBreaker : Breaker Str where
  State := Ejections
  cooldown := ejectionCooldown
  failed := Ejections.onFailure
  answered := Ejections.onSuccess
  openedAt := Ejections.ejectedAt
  cooldown_pos := by decide
  openedAt_failed_self := Ejections.ejectedAt_onFailure_self
  openedAt_failed_ne ejections now _ _ hne :=
    congrArg (Option.bind · _) (Ejections.lookup_after_of_ne ejections (.onFailure now _) hne.symm)
  openedAt_answered_self ejections endpoint :=
    congrArg (Option.bind · _) (Ejections.lookup_onSuccess_self ejections endpoint)
  openedAt_answered_ne ejections _ _ hne :=
    congrArg (Option.bind · _) (Ejections.lookup_after_of_ne ejections (.onSuccess _) hne.symm)

/-- The ejections in Go. -/
def Go.ejectionBreaker : Breaker Str where
  State := Ejections
  cooldown := ejectionCooldown
  failed := Go.onFailure
  answered := Go.onSuccess
  openedAt := Ejections.ejectedAt
  cooldown_pos := by decide
  openedAt_failed_self ejections now endpoint := by
    rw [Go.onFailure_eq]
    exact DragonflySdk.ejectionBreaker.openedAt_failed_self ejections now endpoint
  openedAt_failed_ne ejections now endpoint other hne := by
    rw [Go.onFailure_eq]
    exact DragonflySdk.ejectionBreaker.openedAt_failed_ne ejections now endpoint other hne
  openedAt_answered_self ejections endpoint := by
    rw [Go.onSuccess_eq]
    exact DragonflySdk.ejectionBreaker.openedAt_answered_self ejections endpoint
  openedAt_answered_ne ejections endpoint other hne := by
    rw [Go.onSuccess_eq]
    exact DragonflySdk.ejectionBreaker.openedAt_answered_ne ejections endpoint other hne

theorem isOpen_ejectionBreaker (ejections : Ejections) (now : Nat) (endpoint : Str) :
    ejectionBreaker.isOpen ejections now endpoint = ejections.isEjected now endpoint := rfl

theorem Go.isOpen_ejectionBreaker (ejections : Ejections) (now : Nat) (endpoint : Str) :
    Go.ejectionBreaker.isOpen ejections now endpoint = Go.isEjected ejections now endpoint := by
  rw [Go.isEjected_eq]
  rfl

/-! ### What the client of a proxy records, in Rust -/

/-- The kind of an I/O error. -/
inductive IoErrorKind
  | connectionRefused | hostUnreachable | networkUnreachable | other
deriving DecidableEq, Repr

/-- `reqwest::Error`, with the kinds of the I/O errors among its sources, in order. -/
structure ReqwestError where
  isTimeout : Bool
  isConnect : Bool
  kinds : List IoErrorKind
  text : Str
deriving DecidableEq, Repr

/-- `reqwest_middleware::Error` -/
inductive MiddlewareError
  | middleware (text : Str)
  | reqwest (err : ReqwestError)
deriving DecidableEq, Repr

/-- What `EjectionMiddleware` makes of the ejections when sending has come to the result. -/
def EjectionMiddleware.handle (ejections : Ejections) (now : Nat) (endpoint : Str) :
    Except MiddlewareError Response → Ejections
  | .ok _ => ejections.onSuccess endpoint
  | .error (.reqwest err) =>
    if err.isConnect && err.kinds.any (fun kind => kind = .connectionRefused ∨
        kind = .hostUnreachable ∨ kind = .networkUnreachable) then
      ejections.onFailure now endpoint
    else ejections
  | .error (.middleware _) => ejections

/-- The proxy cannot be connected to. -/
def MiddlewareError.unreachable : MiddlewareError → Bool
  | .reqwest err => err.isConnect && err.kinds.any fun kind => kind = .connectionRefused ∨
      kind = .hostUnreachable ∨ kind = .networkUnreachable
  | .middleware _ => false

/-- What the result of sending shows of the proxy. -/
def recordedOf : Except MiddlewareError Response → List Recorded
  | .ok _ => [.answered]
  | .error err => if err.unreachable then [.failed] else []

theorem EjectionMiddleware.handle_eq (ejections : Ejections) (now : Nat) (endpoint : Str)
    (result : Except MiddlewareError Response) :
    handle ejections now endpoint result = (recordedOf result).foldl
      (fun ejections recorded => ejectionBreaker.record ejections now endpoint recorded)
      ejections := by
  rcases result with (text | err) | response
  · rfl
  · unfold handle recordedOf MiddlewareError.unreachable
    dsimp only
    split <;> rfl
  · rfl

/-- What `send` is told of the error. -/
def MiddlewareError.toSendError : MiddlewareError → SendError
  | .reqwest err => if err.isTimeout then .timeout err.text else .failed err.text
  | .middleware text => .failed text

/-- What comes of an attempt: the pool has no client for the endpoint, or sending comes to a
result. -/
abbrev Attempt := Except Error (Except MiddlewareError Response)

/-- The entry of the client pool that the attempt is made with. -/
def Attempt.entry (attempt : Attempt) : Except Error Client :=
  attempt.map fun result _ _ _ => result.mapError MiddlewareError.toSendError

/-- How the answer of a request is wanted. -/
inductive Wanted
  | stream | buffer
deriving DecidableEq, Repr

/-- What an attempt of `get` or `get_into` comes to. -/
def Proxy.outcome (crate : HttpCrate) (request : Wanted × GetRequest) (attempt : Attempt) :
    Except Error Unit :=
  let sent := Proxy.sendTo crate request.2 attempt.entry
  match request.1 with
  | .stream => sent.map fun _ => ()
  | .buffer => (readInto sent []).2.map fun _ => ()

/-- What an attempt shows of the proxy: nothing, unless the request is sent. -/
def recordedAt (crate : HttpCrate) (request : GetRequest) : Attempt → List Recorded
  | .error _ => []
  | .ok result =>
    match request.proxyHeaders crate with
    | .error _ => []
    | .ok _ => recordedOf result

/-- `get` and `get_into` as requests that look at the ejections; what is shared is the seed peers. -/
def Proxy.client {crates : ProxyCrates} (proxy : Proxy crates) (crate : HttpCrate) :
    Breaker.Client Str (SeedPeers crates.ring) (Wanted × GetRequest) Attempt where
  limit := 1 + proxy.retry.backoffRetries
  limit_pos := by omega
  Selects seedPeers request candidates := request.2.validate crates.id.url = .ok () ∧
    ∃ id fuel hosts, taskId crates.id request.2.toTaskFields = .ok id ∧
      seedPeers.select fuel id (Proxy.replicasOf request.2.replicas) = some (.ok hosts) ∧
      hosts.mapM proxyEndpoint = .ok candidates
  recorded request _ attempt := recordedAt crate request.2 attempt
  ends request _ attempt := decisive Error.isRetryable (Proxy.outcome crate request attempt)

/-! ### In Go -/

namespace Go

/-- The number of an error of the system. -/
inductive Errno
  | connrefused | hostunreach | netunreach | other
deriving DecidableEq, Repr

/-- A value in the tree of an error that a transport returns. -/
inductive TransportErrorValue
  | errno (errno : Errno)
  | other (text : Str)
deriving DecidableEq, Repr

abbrev TransportError := ErrorTree TransportErrorValue

/-- `errors.Is`, of the number of an error -/
def errorsIsErrno (err : TransportError) (target : Errno) : Bool := err.has (· = .errno target)

/-- What `RoundTrip` makes of the ejections when its transport has come to the result. -/
def roundTrip {T : Type} (ejections : Ejections) (now : Nat) (endpoint : Str) :
    Except TransportError T → Ejections
  | .ok _ => onSuccess ejections endpoint
  | .error err =>
    if errorsIsErrno err .connrefused then onFailure ejections now endpoint
    else if errorsIsErrno err .hostunreach then onFailure ejections now endpoint
    else if errorsIsErrno err .netunreach then onFailure ejections now endpoint
    else ejections

/-- What a round trip shows of the proxy. -/
def recordedOf {T : Type} : Except TransportError T → Option Recorded
  | .ok _ => some .answered
  | .error err =>
    if errorsIsErrno err .connrefused ∨ errorsIsErrno err .hostunreach ∨
        errorsIsErrno err .netunreach then some .failed
    else none

theorem roundTrip_eq {T : Type} (ejections : Ejections) (now : Nat) (endpoint : Str)
    (result : Except TransportError T) :
    roundTrip ejections now endpoint result = (recordedOf result).toList.foldl
      (fun ejections recorded => Go.ejectionBreaker.record ejections now endpoint recorded)
      ejections := by
  rcases result with err | value
  · unfold roundTrip recordedOf
    dsimp only
    by_cases hrefused : errorsIsErrno err .connrefused = true
    · rw [if_pos hrefused, if_pos (.inl hrefused)]
      rfl
    · by_cases hhost : errorsIsErrno err .hostunreach = true
      · rw [if_neg hrefused, if_pos hhost, if_pos (.inr (.inl hhost))]
        rfl
      · by_cases hnet : errorsIsErrno err .netunreach = true
        · rw [if_neg hrefused, if_neg hhost, if_pos hnet, if_pos (.inr (.inr hnet))]
          rfl
        · rw [if_neg hrefused, if_neg hhost, if_neg hnet, if_neg (by simp [hrefused, hhost, hnet])]
          rfl
  · rfl

/-- What comes of an attempt: the pool has no client for the endpoint, or `Do` makes some round
trips, one after another as far as it is redirected, and comes to a result. -/
structure Attempt where
  /-- the error of `url.Parse` -/
  entry : Except Str Unit
  trips : List (Except TransportError Unit)
  sent : Except DoError Response
  /-- The context of the request is over by then. -/
  cut : Bool

/-- Sends the request once to the seed peer proxy at `endpoint`. -/
def Proxy.sendTo (module : HttpModule) (endpoint : Str) (req : GetRequest) (attempt : Attempt) :
    Except Error Response :=
  match attempt.entry with
  | .error err => .error (.internal ⟨"%w: failed to set proxy %s: %v".toList, [endpoint, err]⟩)
  | .ok () => req.send module fun _ _ => attempt.sent

/-- What an attempt shows of the proxy: nothing, unless the request is sent. -/
def recordedAt (module : HttpModule) (req : GetRequest) (attempt : Attempt) : List Recorded :=
  match attempt.entry with
  | .error _ => []
  | .ok () =>
    match req.proxyHeaders module with
    | .error _ => []
    | .ok _ =>
      match module.newRequest req.url with
      | .error _ => []
      | .ok () => attempt.trips.filterMap recordedOf

/-- `Get` and `GetInto`, which attempt alike, as requests that look at the ejections. -/
def Proxy.client {modules : Modules} (p : Proxy modules)
    (parse : Str → Except WrappedError ParsedUrl) (module : HttpModule) :
    Breaker.Client Str (SeedPeers modules.ring) GetRequest Attempt where
  limit := 1 + p.retry.maxRetries
  limit_pos := by omega
  Selects seedPeers req candidates := req.validate parse = .ok () ∧
    ∃ id fuel hosts, Proxy.taskId modules req = .ok id ∧
      select seedPeers fuel id (uint32Of req.replicas) = some (.ok hosts) ∧
      candidates = hosts.map proxyEndpoint
  recorded req _ attempt := recordedAt module req attempt
  ends req endpoint attempt := attempt.cut ||
    decisive Error.isRetryable (Proxy.sendTo module endpoint req attempt)

end Go

/-! ### Looking up -/

/-- When nothing else happens meanwhile, a request finds what `lookup_proxy_endpoints` does. -/
theorem Proxy.exists_trace_lookup {crates : ProxyCrates} (proxy : Proxy crates) (crate : HttpCrate)
    {fuel : Nat} {request : Wanted × GetRequest} {endpoints : List Str}
    (hvalid : request.2.validate crates.id.url = .ok ())
    (s : Traffic ejectionBreaker (SeedPeers crates.ring) (Wanted × GetRequest) Attempt)
    (hshared : s.shared = proxy.seedPeerSelector.seedPeers)
    (hbreakers : s.breakers = proxy.seedPeerSelector.ejections)
    (h : proxy.lookupProxyEndpoints fuel s.now request.2 = some (.ok endpoints)) :
    ∃ candidates events, Trace (Step (proxy.client crate)) s events
      { s with flights := s.flights ++ [⟨request, candidates, .looking [] endpoints⟩] } := by
  unfold Proxy.lookupProxyEndpoints at h
  rcases hid : taskId crates.id request.2.toTaskFields with err | id
  · rw [hid] at h
    cases h
  · rw [hid] at h
    obtain ⟨selected, hselect, hrest⟩ := Option.map_eq_some_iff.mp h
    obtain ⟨hosts, hmapError, hlive⟩ := bind_eq_ok_iff.mp hrest
    obtain rfl := mapError_eq_ok_iff.mp hmapError
    obtain ⟨candidates, hcandidates, hfilter⟩ := bind_eq_ok_iff.mp hlive
    dsimp only at hfilter
    split at hfilter
    · cases hfilter
    · obtain rfl := Except.ok.inj hfilter
      rw [← hbreakers]
      rw [← hshared] at hselect
      have hselects : (proxy.client crate).Selects s.shared request candidates :=
        ⟨hvalid, id, fuel, hosts, hid, hselect, hcandidates⟩
      exact ⟨candidates, _, trace_lookup s hselects⟩

/-- When nothing else happens meanwhile, a request finds what `lookupProxyEndpoints` does. -/
theorem Go.Proxy.exists_trace_lookup {modules : Modules} (p : Proxy modules)
    (parse : Str → Except WrappedError ParsedUrl) (module : HttpModule) {fuel : Nat}
    {req : GetRequest} {endpoints : List Str} (hvalid : req.validate parse = .ok ())
    (s : Traffic ejectionBreaker (SeedPeers modules.ring) GetRequest Attempt)
    (hshared : s.shared = p.seedPeerSelector.seedPeers)
    (hbreakers : s.breakers = p.seedPeerSelector.ejections)
    (h : p.lookupProxyEndpoints fuel s.now req = some (.ok endpoints)) :
    ∃ candidates events, Trace (Step (p.client parse module)) s events
      { s with flights := s.flights ++ [⟨req, candidates, .looking [] endpoints⟩] } := by
  unfold Proxy.lookupProxyEndpoints at h
  rcases hid : Proxy.taskId modules req with err | id
  · rw [hid] at h
    cases h
  · rw [hid] at h
    obtain ⟨selected, hselect, hlive⟩ := Option.map_eq_some_iff.mp h
    rcases selected with err | hosts
    · cases hlive
    · dsimp only [Proxy.liveEndpoints] at hlive
      split at hlive
      · cases hlive
      · obtain rfl := Except.ok.inj hlive
        rw [← hshared] at hselect
        have hselects : (p.client parse module).Selects s.shared req (hosts.map proxyEndpoint) :=
          ⟨hvalid, id, fuel, hosts, hid, hselect, rfl⟩
        have htrace := trace_lookup s hselects
        have hsame : ∀ endpoint, ejectionBreaker.isOpen s.breakers s.now endpoint =
            isEjected p.seedPeerSelector.ejections s.now endpoint := fun endpoint =>
          (isOpen_ejectionBreaker _ _ endpoint).trans (congrArg (isEjected · s.now endpoint) hbreakers)
        simp only [hsame] at htrace
        exact ⟨hosts.map proxyEndpoint, _, htrace⟩

/-! ### What is recorded in a run -/

/-- The call on the ejections that records it. -/
def ejectionCallOf : Nat × Str × Recorded → EjectionCall
  | (now, endpoint, .failed) => .onFailure now endpoint
  | (_, endpoint, .answered) => .onSuccess endpoint

/-- The calls on the ejections, in order. -/
def ejectionCalls {ρ α : Type} (events : List (Event Str ρ α)) : List EjectionCall :=
  (records events).map ejectionCallOf

section
variable {S ρ α : Type} {client : Breaker.Client Str S ρ α} {events : List (Event Str ρ α)}

theorem record_eq_after : (fun (ejections : Ejections) (note : Nat × Str × Recorded) =>
    ejectionBreaker.record ejections note.1 note.2.1 note.2.2) =
      fun ejections note => ejections.after (ejectionCallOf note) := by
  funext ejections note
  obtain ⟨now, endpoint, recorded⟩ := note
  cases recorded <;> rfl

theorem Go.record_eq_after : (fun (ejections : Ejections) (note : Nat × Str × Recorded) =>
    Go.ejectionBreaker.record ejections note.1 note.2.1 note.2.2) =
      fun ejections note => ejections.after (ejectionCallOf note) := by
  funext ejections note
  obtain ⟨now, endpoint, recorded⟩ := note
  cases recorded with
  | answered => exact Go.onSuccess_eq ejections endpoint
  | failed => exact Go.onFailure_eq ejections now endpoint

theorem ejections_of_trace
    {client : Breaker.Client Str S ρ α} {s s' : Traffic ejectionBreaker S ρ α}
    (h : Trace (Step client) s events s') (hnew : s.breakers = (∅ : Ejections)) :
    s'.breakers = (ejectionCalls events).foldl Ejections.after ∅ := by
  rw [breakers_eq_foldl h, hnew, ejectionCalls, List.foldl_map, ← record_eq_after]
  rfl

theorem Go.ejections_of_trace
    {client : Breaker.Client Str S ρ α} {s s' : Traffic Go.ejectionBreaker S ρ α}
    (h : Trace (Step client) s events s') (hnew : s.breakers = (∅ : Ejections)) :
    s'.breakers = (ejectionCalls events).foldl Ejections.after ∅ := by
  rw [breakers_eq_foldl h, hnew, ejectionCalls, List.foldl_map, ← Go.record_eq_after]
  rfl

/-- What the ejections say of an endpoint after a run that began with none. -/
structure EjectedByAttempts (client : Breaker.Client Str S ρ α) (events : List (Event Str ρ α))
    (isEjected : Nat → Str → Bool) (endpoint : Str) : Prop where
  /-- It is ejected by the last round of failures in a row. -/
  isEjected_iff : ∀ now, isEjected now endpoint = true ↔ ∃ ejectedAt,
    trippedAt maxFailedCount (failuresAt endpoint (ejectionCalls events)) = some ejectedAt ∧
      now - ejectedAt < ejectionCooldown
  /-- Whatever was recorded, an attempt at it has shown. -/
  noted : ∀ now recorded, .noted now endpoint recorded ∈ events → ∃ i request outcome,
    .sent i request endpoint outcome ∈ events ∧ recorded ∈ client.recorded request endpoint outcome
  /-- It is not ejected as long as it could be connected to. -/
  reachable : (∀ i request outcome, .sent i request endpoint outcome ∈ events →
    .failed ∉ client.recorded request endpoint outcome) → ∀ now, isEjected now endpoint = false

theorem mem_failuresInRow {τ : Type} {history : List (Option τ)} {time : τ}
    (h : time ∈ failuresInRow history) : some time ∈ history := by
  induction history using List.reverseRecOn with
  | nil => cases h
  | append_singleton history last ih =>
    cases last with
    | none =>
      rw [failuresInRow_concat_success] at h
      cases h
    | some last =>
      rw [failuresInRow_concat_failure] at h
      rcases List.mem_append.mp h with hbefore | hlast
      · exact List.mem_append_left _ (ih hbefore)
      · rw [List.mem_singleton.mp hlast]
        exact List.mem_append_right _ (List.mem_singleton_self _)

theorem noted_of_mem_failuresAt {endpoint : Str} {now : Nat}
    (h : now ∈ failuresAt endpoint (ejectionCalls events)) :
    .noted now endpoint .failed ∈ events := by
  obtain ⟨call, hcall, hrecorded⟩ := List.mem_filterMap.mp (mem_failuresInRow h)
  obtain ⟨hmem, hendpoint⟩ := List.mem_filter.mp hcall
  obtain ⟨note, hnote, rfl⟩ := List.mem_map.mp hmem
  obtain ⟨event, hevent, hsome⟩ := List.mem_filterMap.mp hnote
  obtain ⟨time, target, recorded⟩ := note
  cases event with
  | sent i request target outcome => cases hsome
  | other => cases hsome
  | noted time' target' recorded' =>
    cases hsome
    cases recorded with
    | answered => cases hrecorded
    | failed =>
      cases hrecorded
      obtain rfl := of_decide_eq_true hendpoint
      exact hevent

theorem ejectedByAttempts_of_foldl {isEjected : Nat → Str → Bool} {endpoint : Str}
    (hcalls : ∀ now, isEjected now endpoint =
      Ejections.isEjected ((ejectionCalls events).foldl Ejections.after ∅) now endpoint)
    (hnoted : ∀ now recorded, .noted now endpoint recorded ∈ events → ∃ i request outcome,
      .sent i request endpoint outcome ∈ events ∧
        recorded ∈ client.recorded request endpoint outcome) :
    EjectedByAttempts client events isEjected endpoint := by
  have hiff : ∀ now, isEjected now endpoint = true ↔ ∃ ejectedAt,
      trippedAt maxFailedCount (failuresAt endpoint (ejectionCalls events)) = some ejectedAt ∧
        now - ejectedAt < ejectionCooldown := by
    intro now
    rw [hcalls]
    exact Ejections.isEjected_of_lookup (Ejections.lookup_foldl_after _ endpoint) now
  refine ⟨hiff, hnoted, fun hconnects now => ?_⟩
  rw [← Bool.not_eq_true, hiff]
  rintro ⟨ejectedAt, htripped, _⟩
  have hmem : ejectedAt ∈ failuresAt endpoint (ejectionCalls events) := by
    rw [trippedAt] at htripped
    split at htripped
    · exact List.mem_of_getElem? htripped
    · cases htripped
  obtain ⟨i, request, outcome, hsent, hfailed⟩ := hnoted _ _ (noted_of_mem_failuresAt hmem)
  exact hconnects i request outcome hsent hfailed

end

/-! ### In every interleaving -/

/-- **An ejected proxy is spared**, in Rust and in Go: until its cooldown ends or it answers, it
stays ejected, and only requests that had not found it ejected send to it, no more often than they
had attempts left. -/
theorem ejected_proxy_spared :
    (∀ {crates : ProxyCrates} (proxy : Proxy crates) (crate : HttpCrate)
        {s₀ s s' : Traffic ejectionBreaker (SeedPeers crates.ring) (Wanted × GetRequest) Attempt}
        {earlier during : List (Event Str (Wanted × GetRequest) Attempt)} {endpoint : Str}
        {ejectedAt : Nat}, s₀.flights = [] →
        (∀ endpoint ejectedAt, Ejections.ejectedAt s₀.breakers endpoint = some ejectedAt →
          ejectedAt ≤ s₀.now) →
        Trace (Step (proxy.client crate)) s₀ earlier s →
        Trace (Step (proxy.client crate)) s during s' →
        Ejections.ejectedAt s.breakers endpoint = some ejectedAt →
        (∀ now, .noted now endpoint .answered ∉ during) → s'.now < ejectedAt + ejectionCooldown →
          Ejections.isEjected s'.breakers s'.now endpoint = true ∧
            Sheds (proxy.client crate) endpoint s.flights during s') ∧
      ∀ {modules : Go.Modules} (p : Go.Proxy modules)
        (parse : Str → Except Go.WrappedError Go.ParsedUrl) (module : Go.HttpModule)
        {s₀ s s' : Traffic Go.ejectionBreaker (SeedPeers modules.ring) Go.GetRequest Go.Attempt}
        {earlier during : List (Event Str Go.GetRequest Go.Attempt)} {endpoint : Str}
        {ejectedAt : Nat}, s₀.flights = [] →
        (∀ endpoint ejectedAt, Ejections.ejectedAt s₀.breakers endpoint = some ejectedAt →
          ejectedAt ≤ s₀.now) →
        Trace (Step (p.client parse module)) s₀ earlier s →
        Trace (Step (p.client parse module)) s during s' →
        Ejections.ejectedAt s.breakers endpoint = some ejectedAt →
        (∀ now, .noted now endpoint .answered ∉ during) → s'.now < ejectedAt + ejectionCooldown →
          Go.isEjected s'.breakers s'.now endpoint = true ∧
            Sheds (p.client parse module) endpoint s.flights during s' := by
  constructor
  · intro crates proxy crate s₀ s s' earlier during endpoint ejectedAt hnone hstart hearlier hduring
      hejected hanswer hnow
    have hsheds := sheds_of_trace hnone hstart hearlier hduring hejected hanswer hnow
    exact ⟨hsheds.isOpen, hsheds⟩
  · intro modules p parse module s₀ s s' earlier during endpoint ejectedAt hnone hstart hearlier
      hduring hejected hanswer hnow
    have hsheds := sheds_of_trace hnone hstart hearlier hduring hejected hanswer hnow
    exact ⟨(Go.isOpen_ejectionBreaker _ _ _).symm.trans hsheds.isOpen, hsheds⟩

/-- **A proxy is ejected for what attempts have recorded of it**, in Rust and in Go. -/
theorem ejected_by_attempts :
    (∀ {crates : ProxyCrates} (proxy : Proxy crates) (crate : HttpCrate)
        {s s' : Traffic ejectionBreaker (SeedPeers crates.ring) (Wanted × GetRequest) Attempt}
        {events : List (Event Str (Wanted × GetRequest) Attempt)}, s.flights = [] →
        s.breakers = (∅ : Ejections) → Trace (Step (proxy.client crate)) s events s' →
        ∀ endpoint, EjectedByAttempts (proxy.client crate) events
          (Ejections.isEjected s'.breakers) endpoint) ∧
      ∀ {modules : Go.Modules} (p : Go.Proxy modules)
        (parse : Str → Except Go.WrappedError Go.ParsedUrl) (module : Go.HttpModule)
        {s s' : Traffic Go.ejectionBreaker (SeedPeers modules.ring) Go.GetRequest Go.Attempt}
        {events : List (Event Str Go.GetRequest Go.Attempt)}, s.flights = [] →
        s.breakers = (∅ : Ejections) → Trace (Step (p.client parse module)) s events s' →
        ∀ endpoint, EjectedByAttempts (p.client parse module) events
          (Go.isEjected s'.breakers) endpoint := by
  constructor
  · intro crates proxy crate s s' events hnone hnew h endpoint
    refine ejectedByAttempts_of_foldl (fun now => ?_)
      fun now recorded hnoted => sent_of_noted h hnone hnoted
    rw [ejections_of_trace h hnew]
  · intro modules p parse module s s' events hnone hnew h endpoint
    refine ejectedByAttempts_of_foldl (fun now => ?_)
      fun now recorded hnoted => sent_of_noted h hnone hnoted
    rw [Go.ejections_of_trace h hnew, Go.isEjected_eq]

/-! ### The attempts of a request -/

theorem Go.error_of_proxyHeaders {module : HttpModule} {r : GetRequest} {err : Error}
    (h : r.proxyHeaders module = .error err) : ∃ text, err = .invalidArgument text := by
  have hcheck : ∀ headers, checkHeaders module headers = .error err →
      ∃ text, err = .invalidArgument text := by
    intro headers
    induction headers with
    | nil => nofun
    | cons header headers ih =>
      obtain ⟨name, values⟩ := header
      rw [checkHeaders]
      intro herr
      split at herr
      · exact ⟨_, (Except.error.inj herr).symm⟩
      · split at herr
        · exact ⟨_, (Except.error.inj herr).symm⟩
        · exact ih herr
  rcases bind_eq_error_iff.mp h with herr | ⟨_, _, hreturn⟩
  · exact hcheck _ herr
  · cases hreturn

theorem Go.Proxy.sendTo_ne_context {module : HttpModule} {endpoint : Str} {req : GetRequest}
    {attempt : Attempt} {err : Error} (h : Proxy.sendTo module endpoint req attempt = .error err) :
    err ≠ .deadlineExceeded ∧ err ≠ .canceled := by
  unfold Proxy.sendTo at h
  rcases hentry : attempt.entry with text | _
  · rw [hentry] at h
    obtain rfl := Except.error.inj h
    exact ⟨nofun, nofun⟩
  · rw [hentry] at h
    rcases bind_eq_error_iff.mp h with hheaders | ⟨headers, _, hrest⟩
    · obtain ⟨text, rfl⟩ := error_of_proxyHeaders hheaders
      exact ⟨nofun, nofun⟩
    · rcases hnew : module.newRequest req.url with text | _
      · rw [hnew] at hrest
        obtain rfl := Except.error.inj hrest
        exact ⟨nofun, nofun⟩
      · rw [hnew] at hrest
        rcases hsent : attempt.sent with (text | text) | resp
        · rw [hsent] at hrest
          obtain rfl := Except.error.inj hrest
          exact ⟨nofun, nofun⟩
        · rw [hsent] at hrest
          obtain rfl := Except.error.inj hrest
          exact ⟨nofun, nofun⟩
        · rw [hsent] at hrest
          obtain ⟨error, herror, _⟩ := answer_answerErrorOf resp
          by_cases hsuccess : (200 ≤ resp.statusCode && resp.statusCode < 300) = true
          · dsimp only at hrest
            rw [if_pos hsuccess] at hrest
            cases hrest
          · dsimp only at hrest
            rw [if_neg hsuccess] at hrest
            obtain rfl := Except.error.inj hrest
            constructor
            · intro heq
              rw [heq] at herror
              cases herror
            · intro heq
              rw [heq] at herror
              cases herror

/-- The request has made the attempts of `run_with_endpoints` on some of its candidates, whatever
attempts might have come after. -/
def Proxy.RunsLoop {crates : ProxyCrates} (proxy : Proxy crates) (crate : HttpCrate)
    (request : Wanted × GetRequest) (candidates targets : List Str)
    (attempts : List (Str × Attempt)) : Prop :=
  ∃ endpoints : List Str, endpoints.Sublist candidates ∧ targets.Perm endpoints ∧
    ∀ (later : Nat → Str × Attempt) (outcomes : Nat → Except Error Unit),
      (∀ k, outcomes k = Proxy.outcome crate request (attemptAt attempts later k).2) →
      proxy.retry.runWithEndpoints endpoints targets ()
          (RetryPolicy.noting fun k => ((), outcomes k)) [] =
        ((attempts.map fun attempt => ((), attempt.1), ()), outcomes (attempts.length - 1))

/-- The request has made the attempts of `runWithEndpoints` on some of its candidates, whatever
attempts might have come after. -/
def Go.Proxy.RunsLoop {modules : Modules} (p : Proxy modules) (module : HttpModule)
    (req : GetRequest) (candidates targets : List Str) (attempts : List (Str × Attempt)) : Prop :=
  ∃ endpoints : List Str, endpoints.Sublist candidates ∧ targets.Perm endpoints ∧
    ∀ (later : Nat → Str × Attempt) (outcomes : Nat → Except Error Response),
      (∀ k, outcomes k = Proxy.sendTo module (attemptAt attempts later k).1 req
        (attemptAt attempts later k).2) →
      p.retry.runWithEndpoints endpoints targets (RetryPolicy.noting outcomes) [] =
        (attempts.map Prod.fst, (outcomes (attempts.length - 1)).map some)

theorem attemptAt_of_getElem? {α : Type} {attempts : List (Str × α)} {attempt : Str × α} {k : Nat}
    (h : attempts[k]? = some attempt) (later : Nat → Str × α) :
    attemptAt attempts later k = attempt := by
  rw [attemptAt, h, Option.getD_some]

theorem Proxy.runsLoop {crates : ProxyCrates} (hbackon : crates.backon.Lawful)
    {proxy : Proxy crates} {crate : HttpCrate} {request : Wanted × GetRequest}
    {candidates targets : List Str} {attempts : List (Str × Attempt)}
    (h : Progress.Known (proxy.client crate) request candidates attempts (.settled targets))
    (htargets : targets ≠ []) :
    proxy.RunsLoop crate request candidates targets attempts := by
  obtain ⟨endpoints, hsub, hperm⟩ := h.1
  refine ⟨endpoints, hsub, hperm, fun later outcomes houtcomes => ?_⟩
  have hendpoints : endpoints ≠ [] := by
    rintro rfl
    exact htargets hperm.eq_nil
  have hmade : proxy.retry.made outcomes = attempts.length := by
    refine attempts_eq_length h htargets fun k attempt hk => ?_
    rw [houtcomes, attemptAt_of_getElem? hk]
    rfl
  rw [proxy.retry.runWithEndpoints_noting hbackon hendpoints targets, hmade]
  have hlog := targets_eq_map h.2.1 []
  have hpairs : (attempts.map fun attempt => ((), attempt.1)) =
      (attempts.map Prod.fst).map fun endpoint => ((), endpoint) := by
    rw [List.map_map]
    rfl
  rw [hpairs, hlog, List.map_map]
  rfl

theorem Go.Proxy.runsLoop {modules : Modules} (hbackoff : modules.backoff.Lawful)
    {p : Proxy modules} {parse : Str → Except WrappedError ParsedUrl} {module : HttpModule}
    {req : GetRequest} {candidates targets : List Str} {attempts : List (Str × Attempt)}
    (h : Progress.Known (p.client parse module) req candidates attempts (.settled targets))
    (htargets : targets ≠ []) (hcut : ∀ attempt ∈ attempts, attempt.2.cut = false) :
    p.RunsLoop module req candidates targets attempts := by
  obtain ⟨endpoints, hsub, hperm⟩ := h.1
  refine ⟨endpoints, hsub, hperm, fun later outcomes houtcomes => ?_⟩
  have hendpoints : endpoints ≠ [] := by
    rintro rfl
    exact htargets hperm.eq_nil
  have hmade : Foundation.attempts (fun k => decisive Error.isRetryable (outcomes k))
      (1 + p.retry.maxRetries) = attempts.length := by
    refine attempts_eq_length h htargets fun k attempt hk => ?_
    show _ = (attempt.2.cut || _)
    rw [houtcomes, attemptAt_of_getElem? hk, hcut attempt (List.mem_of_getElem? hk),
      Bool.false_or]
  have hrun := p.retry.runWithEndpoints_noting hbackoff hendpoints targets outcomes
    fun k err herr => sendTo_ne_context (houtcomes k ▸ herr)
  dsimp only at hrun
  rw [hmade] at hrun
  rw [hrun, targets_eq_map h.2.1 []]

/-- **A request makes the attempts of its retry loop** in every interleaving, in Rust and in Go, on
endpoints that are some of those it has selected; in Go as long as its context is not over. -/
theorem requests_run_loop :
    (∀ {crates : ProxyCrates}, crates.backon.Lawful → ∀ (proxy : Proxy crates) (crate : HttpCrate)
        {s s' : Traffic ejectionBreaker (SeedPeers crates.ring) (Wanted × GetRequest) Attempt}
        {events : List (Event Str (Wanted × GetRequest) Attempt)}, s.flights = [] →
        Trace (Step (proxy.client crate)) s events s' →
        ∀ i request candidates targets,
          s'.flights[i]? = some ⟨request, candidates, .settled targets⟩ → targets ≠ [] →
          (∃ seedPeers, (proxy.client crate).Selects seedPeers request candidates) ∧
            proxy.RunsLoop crate request candidates targets (attemptsOf i events)) ∧
      ∀ {modules : Go.Modules}, modules.backoff.Lawful → ∀ (p : Go.Proxy modules)
        (parse : Str → Except Go.WrappedError Go.ParsedUrl) (module : Go.HttpModule)
        {s s' : Traffic Go.ejectionBreaker (SeedPeers modules.ring) Go.GetRequest Go.Attempt}
        {events : List (Event Str Go.GetRequest Go.Attempt)}, s.flights = [] →
        Trace (Step (p.client parse module)) s events s' →
        ∀ i req candidates targets,
          s'.flights[i]? = some ⟨req, candidates, .settled targets⟩ → targets ≠ [] →
          (∀ attempt ∈ attemptsOf i events, attempt.2.cut = false) →
          (∃ seedPeers, (p.client parse module).Selects seedPeers req candidates) ∧
            p.RunsLoop module req candidates targets (attemptsOf i events) := by
  constructor
  · intro crates hbackon proxy crate s s' events hnone h i request candidates targets hflight
      htargets
    obtain ⟨hselected, hprogress⟩ := (inv_of_trace h hnone).known i _ hflight
    exact ⟨hselected, Proxy.runsLoop hbackon hprogress htargets⟩
  · intro modules hbackoff p parse module s s' events hnone h i req candidates targets hflight
      htargets hcut
    obtain ⟨hselected, hprogress⟩ := (inv_of_trace h hnone).known i _ hflight
    exact ⟨hselected, Go.Proxy.runsLoop hbackoff hprogress htargets hcut⟩

/-! ### A proxy that refuses while requests are under way -/

/-- A request that selects the endpoint twice, and attempts it twice, where attempts are refused. -/
structure RefusedTwice {S ρ α : Type} (client : Breaker.Client Str S ρ α) (shared : S) (request : ρ)
    (endpoint : Str) (refused : α) : Prop where
  limit_eq : client.limit = 2
  selects : client.Selects shared request [endpoint, endpoint]
  recorded_eq : client.recorded request endpoint refused = [.failed]
  ends_eq : client.ends request endpoint refused = false

section
variable {breaker : Breaker Str} {S ρ α : Type} {client : Breaker.Client Str S ρ α}
  {s : Traffic breaker S ρ α} {shared : S} {request : ρ} {endpoint : Str} {refused : α}

/-- The request that came last has come this far. -/
def withLast (s : Traffic breaker S ρ α) (request : ρ) (endpoint : Str)
    (progress : Progress Str α) : Traffic breaker S ρ α :=
  { s with flights := s.flights ++ [⟨request, [endpoint, endpoint], progress⟩] }

theorem step_withLast {b : breaker.State} {now : Nat} {event : Event Str ρ α}
    {progress progress' : Progress Str α}
    (h : Step client (withLast s request endpoint progress) event { s with
      breakers := b
      now := now
      flights := (withLast s request endpoint progress).flights.set s.flights.length
        ⟨request, [endpoint, endpoint], progress'⟩ }) :
    Step client (withLast s request endpoint progress) event
      (withLast { s with breakers := b, now := now } request endpoint progress') := by
  rw [withLast, List.set_append_right _ _ (Nat.le_refl _), Nat.sub_self] at h
  exact h

theorem step_send (h : RefusedTwice client shared request endpoint refused)
    (s : Traffic breaker S ρ α) (made : Nat) :
    Step client (withLast s request endpoint (.trying [endpoint, endpoint] made))
      (.sent s.flights.length request endpoint refused)
      (withLast s request endpoint
        (.attempting [endpoint, endpoint] made endpoint refused [.failed])) := by
  have htarget : [endpoint, endpoint][made % 2]? = some endpoint := by
    rcases Nat.mod_two_eq_zero_or_one made with heven | hodd
    · rw [heven]
      rfl
    · rw [hodd]
      rfl
  rw [← h.recorded_eq]
  exact step_withLast
    (.send _ request _ _ made endpoint refused List.getElem?_concat_length htarget)

theorem step_record (client : Breaker.Client Str S ρ α) (s : Traffic breaker S ρ α) (request : ρ)
    (endpoint : Str) (refused : α) (made : Nat) :
    Step client
      (withLast s request endpoint
        (.attempting [endpoint, endpoint] made endpoint refused [.failed]))
      (.noted s.now endpoint .failed)
      (withLast { s with breakers := breaker.failed s.breakers s.now endpoint } request endpoint
        (.attempting [endpoint, endpoint] made endpoint refused [])) :=
  step_withLast
    (.record _ request _ _ made endpoint refused .failed [] List.getElem?_concat_length)

theorem step_settle (h : RefusedTwice client shared request endpoint refused)
    (s : Traffic breaker S ρ α) (made : Nat) :
    Step client
      (withLast s request endpoint (.attempting [endpoint, endpoint] made endpoint refused [])) .other
      (withLast s request endpoint (if 2 ≤ made + 1 then .settled [endpoint, endpoint]
        else .trying [endpoint, endpoint] (made + 1))) := by
  have hstep : Step client _ .other (withLast s request endpoint
      (if client.ends request endpoint refused = true ∨ client.limit ≤ made + 1 then
        .settled [endpoint, endpoint] else .trying [endpoint, endpoint] (made + 1))) :=
    step_withLast (.settle _ request _ _ made endpoint refused List.getElem?_concat_length)
  simpa only [h.ends_eq, h.limit_eq, Bool.false_eq_true, false_or] using hstep

theorem trace_refused (h : RefusedTwice client s.shared request endpoint refused)
    (hclosed : breaker.isOpen s.breakers s.now endpoint = false) :
    Trace (Step client) s
      ([.other, .other, .other] ++
        [.other, .sent s.flights.length request endpoint refused, .noted s.now endpoint .failed])
      (withLast { s with breakers := breaker.failed s.breakers s.now endpoint } request endpoint
        (.attempting [endpoint, endpoint] 0 endpoint refused [])) := by
  have hlooked := trace_lookup s h.selects
  rw [List.filter_eq_self.mpr (by simp [hclosed])] at hlooked
  have hbegin : Step client (withLast s request endpoint (.looking [] [endpoint, endpoint])) .other
      (withLast s request endpoint (.trying [endpoint, endpoint] 0)) :=
    step_withLast (.begin _ _ _ _ _ List.getElem?_concat_length (List.cons_ne_nil _ _) (.refl _))
  exact Trace.append_iff.mpr ⟨_, hlooked, _, hbegin, _, step_send h s 0, _,
    step_record client s request endpoint refused 0, rfl⟩

theorem trace_refused_again (h : RefusedTwice client shared request endpoint refused)
    (s : Traffic breaker S ρ α) :
    Trace (Step client)
      (withLast s request endpoint (.attempting [endpoint, endpoint] 0 endpoint refused []))
      [.other, .other, .sent s.flights.length request endpoint refused]
      (withLast { s with now := s.now + 1 } request endpoint
        (.attempting [endpoint, endpoint] 1 endpoint refused [.failed])) :=
  ⟨_, step_settle h s 0, _, .tick (s.now + 1) (Nat.le_succ _), _,
    step_send h { s with now := s.now + 1 } 1, rfl⟩

theorem trace_settled (h : RefusedTwice client shared request endpoint refused)
    (s : Traffic breaker S ρ α) :
    Trace (Step client)
      (withLast s request endpoint (.attempting [endpoint, endpoint] 1 endpoint refused [.failed]))
      [.noted s.now endpoint .failed, .other]
      (withLast { s with breakers := breaker.failed s.breakers s.now endpoint } request endpoint
        (.settled [endpoint, endpoint])) :=
  ⟨_, step_record client s request endpoint refused 1, _, step_settle h _ 1, rfl⟩

theorem trace_refused_twice (h : RefusedTwice client s.shared request endpoint refused)
    (hclosed : breaker.isOpen s.breakers s.now endpoint = false) :
    ∃ events, Trace (Step client) s events (withLast { s with
      breakers := breaker.failed (breaker.failed s.breakers s.now endpoint) (s.now + 1) endpoint
      now := s.now + 1 } request endpoint (.settled [endpoint, endpoint])) :=
  ⟨_, Trace.append_iff.mpr ⟨_, trace_refused h hclosed, Trace.append_iff.mpr
    ⟨_, trace_refused_again h _, trace_settled h _⟩⟩⟩

end

/-! ### A proxy that is ejected while a request is under way -/

/-- The endpoint of both seed peers of the example. -/
def exampleEndpoint : Str := "http://127.0.0.1:4001".toList

/-- The proxy at the endpoint has been refused four times in a row. -/
def fourFailures : Ejections := (∅ : Ejections).insert exampleEndpoint ⟨4, none⟩

/-- The connection to the proxy is refused. -/
def exampleRefused : Attempt := .ok (.error (.reqwest ⟨false, true, [.connectionRefused], []⟩))

def exampleTraffic (ejections : Ejections) (now : Nat) (progress : List (Progress Str Attempt)) :
    Traffic ejectionBreaker (SeedPeers lookupCrates.ring) (Wanted × GetRequest) Attempt :=
  ⟨exampleRust, ejections, now, progress.map fun progress =>
    ⟨(.stream, lookupRequest 2), [exampleEndpoint, exampleEndpoint], progress⟩⟩

theorem selects_example : (twoProxy.client exampleHttp).Selects exampleRust
    (.stream, lookupRequest 2) [exampleEndpoint, exampleEndpoint] := by
  refine ⟨by decide +kernel, _, 3, [exampleHost "seed-peer-1".toList, exampleHost "seed-peer-2".toList],
    taskId_lookupRequest 2, ?_, ?_⟩
  · decide +kernel
  · decide +kernel

theorem refusedTwice_example : RefusedTwice (twoProxy.client exampleHttp) exampleRust
    (.stream, lookupRequest 2) exampleEndpoint exampleRefused :=
  ⟨rfl, selects_example, rfl, rfl⟩

namespace Go

/-- The connection to the proxy is refused. -/
def exampleRefused : Attempt :=
  ⟨.ok (), [.error (.node (.other "dial".toList) [.node (.errno .connrefused) []])],
    .error (.failed "dial".toList), false⟩

def exampleTraffic (ejections : Ejections) (now : Nat) (progress : List (Progress Str Attempt)) :
    Traffic ejectionBreaker (SeedPeers exampleModules.ring) GetRequest Attempt :=
  ⟨exampleGo, ejections, now, progress.map fun progress =>
    ⟨lookupRequest, [exampleEndpoint, exampleEndpoint], progress⟩⟩

theorem selects_example : (twoProxy.client exampleParse exampleModule).Selects exampleGo
    lookupRequest [exampleEndpoint, exampleEndpoint] := by
  refine ⟨rfl, _, 3, [exampleHost "seed-peer-1".toList, exampleHost "seed-peer-2".toList],
    rfl, ?_, ?_⟩
  · decide +kernel
  · decide +kernel

theorem refusedTwice_example : RefusedTwice (twoProxy.client exampleParse exampleModule) exampleGo
    lookupRequest exampleEndpoint exampleRefused :=
  ⟨rfl, selects_example, rfl, rfl⟩

end Go

/-- The fifth refusal in a row ejects the proxy, and the request that has found it before tries it
once more. -/
theorem ejected_proxy_spared_refused :
    (Ejections.isEjected (fourFailures.onFailure 7 exampleEndpoint) 8 exampleEndpoint = true ∧
      Sheds (twoProxy.client exampleHttp) exampleEndpoint
        (exampleTraffic fourFailures 7
          [.attempting [exampleEndpoint, exampleEndpoint] 0 exampleEndpoint exampleRefused []]).flights
        [.other, .other, .sent 0 (.stream, lookupRequest 2) exampleEndpoint exampleRefused]
        (exampleTraffic (fourFailures.onFailure 7 exampleEndpoint) 8 [.attempting
          [exampleEndpoint, exampleEndpoint] 1 exampleEndpoint exampleRefused [.failed]])) ∧
      Go.isEjected (Go.onFailure fourFailures 7 exampleEndpoint) 8 exampleEndpoint = true ∧
        Sheds (Go.twoProxy.client Go.exampleParse exampleModule) exampleEndpoint
          (Go.exampleTraffic fourFailures 7 [.attempting
            [exampleEndpoint, exampleEndpoint] 0 exampleEndpoint Go.exampleRefused []]).flights
          [.other, .other, .sent 0 Go.lookupRequest exampleEndpoint Go.exampleRefused]
          (Go.exampleTraffic (Go.onFailure fourFailures 7 exampleEndpoint) 8 [.attempting
            [exampleEndpoint, exampleEndpoint] 1 exampleEndpoint Go.exampleRefused [.failed]]) := by
  have hnone : ∀ endpoint ejectedAt, Ejections.ejectedAt fourFailures endpoint = some ejectedAt →
      ejectedAt ≤ 7 := by
    intro endpoint ejectedAt h
    rw [Ejections.ejectedAt, fourFailures] at h
    by_cases hendpoint : endpoint = exampleEndpoint
    · rw [hendpoint, Finmap.lookup_insert] at h
      cases h
    · rw [Finmap.lookup_insert_of_ne _ hendpoint, Finmap.lookup_empty] at h
      cases h
  have hejected : Ejections.ejectedAt (fourFailures.onFailure 7 exampleEndpoint) exampleEndpoint =
      some 7 := by decide +kernel
  have hgoEjected : Ejections.ejectedAt (Go.onFailure fourFailures 7 exampleEndpoint)
      exampleEndpoint = some 7 := by decide +kernel
  have hclosed : fourFailures.isEjected 7 exampleEndpoint = false := by decide +kernel
  have hrefused : Trace (Step (twoProxy.client exampleHttp)) (exampleTraffic fourFailures 7 []) _ _ :=
    trace_refused refusedTwice_example hclosed
  have hgoRefused : Trace (Step (Go.twoProxy.client Go.exampleParse exampleModule))
      (Go.exampleTraffic fourFailures 7 []) _ _ :=
    trace_refused Go.refusedTwice_example hclosed
  exact ⟨ejected_proxy_spared.1 twoProxy exampleHttp rfl hnone hrefused
      (trace_refused_again refusedTwice_example _) hejected (by simp) (by decide),
    ejected_proxy_spared.2 Go.twoProxy Go.exampleParse exampleModule rfl hnone hgoRefused
      (trace_refused_again Go.refusedTwice_example _) hgoEjected (by simp) (by decide)⟩

/-- The proxy at the endpoint has been refused at these times. -/
def exampleFailures (times : List Nat) : Ejections :=
  times.foldl (fun ejections now => ejections.onFailure now exampleEndpoint) ∅

/-- The same in Go. -/
def Go.exampleFailures (times : List Nat) : Ejections :=
  times.foldl (fun ejections now => Go.onFailure ejections now exampleEndpoint) ∅

/-- The attempts of three requests, one after the other, eject the proxy. -/
theorem ejected_by_attempts_refused :
    ((∃ events, EjectedByAttempts (twoProxy.client exampleHttp) events
        (exampleFailures [7, 8, 8, 9, 9, 10]).isEjected exampleEndpoint) ∧
      (exampleFailures [7, 8, 8, 9, 9, 10]).isEjected 10 exampleEndpoint = true) ∧
      (∃ events, EjectedByAttempts (Go.twoProxy.client Go.exampleParse exampleModule) events
        (Go.isEjected (Go.exampleFailures [7, 8, 8, 9, 9, 10])) exampleEndpoint) ∧
      Go.isEjected (Go.exampleFailures [7, 8, 8, 9, 9, 10]) 10 exampleEndpoint = true := by
  constructor
  · have hfirst : (exampleFailures []).isEjected 7 exampleEndpoint = false := by decide +kernel
    have hsecond : (exampleFailures [7, 8]).isEjected 8 exampleEndpoint = false := by decide +kernel
    have hthird : (exampleFailures [7, 8, 8, 9]).isEjected 9 exampleEndpoint = false := by
      decide +kernel
    obtain ⟨_, htrace⟩ :=
      trace_refused_twice (s := exampleTraffic ∅ 7 []) refusedTwice_example hfirst
    obtain ⟨_, htrace'⟩ := trace_refused_twice
      (s := exampleTraffic (exampleFailures [7, 8]) 8 [.settled [exampleEndpoint, exampleEndpoint]])
      refusedTwice_example hsecond
    obtain ⟨_, htrace''⟩ := trace_refused_twice
      (s := exampleTraffic (exampleFailures [7, 8, 8, 9]) 9
        [.settled [exampleEndpoint, exampleEndpoint], .settled [exampleEndpoint, exampleEndpoint]])
      refusedTwice_example hthird
    have hall := Trace.append_iff.mpr ⟨_, htrace, Trace.append_iff.mpr ⟨_, htrace', htrace''⟩⟩
    exact ⟨⟨_, ejected_by_attempts.1 twoProxy exampleHttp rfl rfl hall _⟩, by decide +kernel⟩
  · have hfirst : Go.isEjected (Go.exampleFailures []) 7 exampleEndpoint = false := by decide +kernel
    have hsecond : Go.isEjected (Go.exampleFailures [7, 8]) 8 exampleEndpoint = false := by
      decide +kernel
    have hthird : Go.isEjected (Go.exampleFailures [7, 8, 8, 9]) 9 exampleEndpoint = false := by
      decide +kernel
    obtain ⟨_, htrace⟩ :=
      trace_refused_twice (s := Go.exampleTraffic ∅ 7 []) Go.refusedTwice_example hfirst
    obtain ⟨_, htrace'⟩ := trace_refused_twice
      (s := Go.exampleTraffic (Go.exampleFailures [7, 8]) 8
        [.settled [exampleEndpoint, exampleEndpoint]])
      Go.refusedTwice_example hsecond
    obtain ⟨_, htrace''⟩ := trace_refused_twice
      (s := Go.exampleTraffic (Go.exampleFailures [7, 8, 8, 9]) 9
        [.settled [exampleEndpoint, exampleEndpoint], .settled [exampleEndpoint, exampleEndpoint]])
      Go.refusedTwice_example hthird
    have hall := Trace.append_iff.mpr ⟨_, htrace, Trace.append_iff.mpr ⟨_, htrace', htrace''⟩⟩
    exact ⟨⟨_, ejected_by_attempts.2 Go.twoProxy Go.exampleParse exampleModule rfl rfl hall _⟩,
      by decide +kernel⟩

/-- Both attempts of a request that is refused. -/
theorem requests_run_loop_refused :
    twoProxy.RunsLoop exampleHttp (.stream, lookupRequest 2)
        [exampleEndpoint, exampleEndpoint] [exampleEndpoint, exampleEndpoint]
        [(exampleEndpoint, exampleRefused), (exampleEndpoint, exampleRefused)] ∧
      Go.twoProxy.RunsLoop exampleModule Go.lookupRequest
        [exampleEndpoint, exampleEndpoint] [exampleEndpoint, exampleEndpoint]
        [(exampleEndpoint, Go.exampleRefused), (exampleEndpoint, Go.exampleRefused)] := by
  have hclosed : Ejections.isEjected ∅ 7 exampleEndpoint = false := by decide +kernel
  have hsettled : Trace (Step (twoProxy.client exampleHttp)) (exampleTraffic ∅ 7 []) _ _ :=
    Trace.append_iff.mpr ⟨_, trace_refused refusedTwice_example hclosed, Trace.append_iff.mpr
      ⟨_, trace_refused_again refusedTwice_example _, trace_settled refusedTwice_example _⟩⟩
  have hgoSettled : Trace (Step (Go.twoProxy.client Go.exampleParse exampleModule))
      (Go.exampleTraffic ∅ 7 []) _ _ :=
    Trace.append_iff.mpr ⟨_, trace_refused Go.refusedTwice_example hclosed, Trace.append_iff.mpr
      ⟨_, trace_refused_again Go.refusedTwice_example _, trace_settled Go.refusedTwice_example _⟩⟩
  exact ⟨(requests_run_loop.1 exampleBackon_lawful twoProxy exampleHttp rfl hsettled 0 _ _ _ rfl
      (by decide)).2,
    (requests_run_loop.2 Go.exampleBackoff_lawful Go.twoProxy Go.exampleParse exampleModule rfl
      hgoSettled 0 _ _ _ rfl (by decide) (by decide)).2⟩

end DragonflySdk
