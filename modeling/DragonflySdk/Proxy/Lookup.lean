import DragonflySdk.Proxy.SeedPeers
import DragonflySdk.Proxy.ValidRequest

/-!
# Looking up endpoints

What a lookup makes of the replicas of a task is the same in both languages (`conclude`): the
endpoints of those that are usable, healthy and not ejected. In Rust an endpoint takes an address
that can be parsed, and one replica without fails the lookup for all of them. So a lookup finds the
usable replicas unless such a replica is among them (`lookup_finds_usable_iff`).
-/

namespace DragonflySdk

open Foundation

variable {crate : HashRingCrate} {ε : Type}

/-- Looks up the endpoints for a request that is valid. -/
def Proxy.lookupEndpoints {crates : ProxyCrates} (proxy : Proxy crates) (fuel now : Nat)
    (request : GetRequest) : Option (Except Error (List Str)) :=
  match request.validate crates.id.url with
  | .error err => some (.error err)
  | .ok () => proxy.lookupProxyEndpoints fuel now request

/-! ### What a lookup makes of the replicas -/

section conclude
variable (endpointOf : Host → Except ε Str) (ejected : Str → Bool)

/-- What a lookup makes of the replicas. -/
def conclude (noneHealthy allEjected : ε) (replicas : List SeedPeer) : Except ε (List Str) :=
  if healthyHosts replicas = [] then .error noneHealthy
  else do
    let endpoints ← (healthyHosts replicas).mapM endpointOf
    let endpoints := endpoints.filter fun endpoint => !ejected endpoint
    if endpoints = [] then .error allEjected else .ok endpoints

/-- Every healthy one has an endpoint. -/
def Addressable (replicas : List SeedPeer) : Prop :=
  ∀ seedPeer ∈ replicas, seedPeer.healthy = true → ∃ endpoint, endpointOf seedPeer.host = .ok endpoint

/-- The endpoint of a seed peer that is healthy, has one and is not ejected. -/
def usableEndpoint (seedPeer : SeedPeer) : Option Str :=
  if seedPeer.healthy then
    (endpointOf seedPeer.host).toOption.filter fun endpoint => !ejected endpoint
  else none

variable {endpointOf ejected} {noneHealthy allEjected : ε} {replicas : List SeedPeer}

theorem usableEndpoint_eq_some {seedPeer : SeedPeer} {endpoint : Str} :
    usableEndpoint endpointOf ejected seedPeer = some endpoint ↔ seedPeer.healthy = true ∧
      endpointOf seedPeer.host = .ok endpoint ∧ ejected endpoint = false := by
  unfold usableEndpoint
  cases seedPeer.healthy with
  | false => simp
  | true =>
    rw [if_pos rfl, Option.filter_eq_some_iff]
    cases endpointOf seedPeer.host <;> simp [Except.toOption]

theorem healthyHosts_cons (seedPeer : SeedPeer) (replicas : List SeedPeer) :
    healthyHosts (seedPeer :: replicas) =
      if seedPeer.healthy = true then seedPeer.host :: healthyHosts replicas
      else healthyHosts replicas := by
  unfold healthyHosts
  by_cases h : seedPeer.healthy = true
  · rw [if_pos h, List.filter_cons_of_pos h, List.map_cons]
  · rw [if_neg h, List.filter_cons_of_neg h]

theorem addressable_iff :
    Addressable endpointOf replicas ↔ ∃ endpoints, (healthyHosts replicas).mapM endpointOf = .ok endpoints := by
  constructor
  · intro h
    apply exists_mapM_eq_ok
    intro host hmem
    obtain ⟨seedPeer, hseedPeer, rfl⟩ := List.mem_map.mp hmem
    exact h seedPeer (List.mem_of_mem_filter hseedPeer) (List.mem_filter.mp hseedPeer).2
  · rintro ⟨endpoints, h⟩ seedPeer hmem hhealthy
    have hhost : seedPeer.host ∈ healthyHosts replicas :=
      List.mem_map_of_mem (List.mem_filter.mpr ⟨hmem, hhealthy⟩)
    obtain ⟨i, hi, hget⟩ := List.getElem_of_mem hhost
    have hpairs := mapM_eq_ok_iff.mp h
    have hi' : i < endpoints.length := hpairs.length_eq ▸ hi
    refine ⟨endpoints[i], ?_⟩
    rw [← hget]
    exact hpairs.get hi hi'

theorem filter_eq_filterMap {endpoints : List Str}
    (h : (healthyHosts replicas).mapM endpointOf = .ok endpoints) :
    endpoints.filter (fun endpoint => !ejected endpoint) =
      replicas.filterMap (usableEndpoint endpointOf ejected) := by
  have hpairs := mapM_eq_ok_iff.mp h
  clear h
  induction replicas generalizing endpoints with
  | nil =>
    rw [List.forall₂_nil_left_iff.mp hpairs]
    rfl
  | cons seedPeer replicas ih =>
    rw [healthyHosts_cons] at hpairs
    by_cases hhealthy : seedPeer.healthy = true
    · rw [if_pos hhealthy] at hpairs
      obtain ⟨endpoint, endpoints, hendpoint, hrest, rfl⟩ := List.forall₂_cons_left_iff.mp hpairs
      by_cases hejected : ejected endpoint = true
      · have hnone : usableEndpoint endpointOf ejected seedPeer = none := by
          simp [usableEndpoint, hhealthy, hendpoint, Except.toOption, hejected]
        rw [List.filter_cons_of_neg (by simp [hejected]), List.filterMap_cons_none hnone, ih hrest]
      · have hsome : usableEndpoint endpointOf ejected seedPeer = some endpoint :=
          usableEndpoint_eq_some.mpr ⟨hhealthy, hendpoint, Bool.eq_false_of_not_eq_true hejected⟩
        rw [List.filter_cons_of_pos (by simpa using hejected), List.filterMap_cons_some hsome,
          ih hrest]
    · rw [if_neg hhealthy] at hpairs
      have hnone : usableEndpoint endpointOf ejected seedPeer = none := by
        rw [usableEndpoint, if_neg hhealthy]
      rw [List.filterMap_cons_none hnone, ih hpairs]

theorem conclude_eq_ok {endpoints : List Str} :
    conclude endpointOf ejected noneHealthy allEjected replicas = .ok endpoints ↔
      Addressable endpointOf replicas ∧ endpoints ≠ [] ∧
        endpoints = replicas.filterMap (usableEndpoint endpointOf ejected) := by
  unfold conclude
  by_cases hhealthy : healthyHosts replicas = []
  · rw [if_pos hhealthy]
    refine ⟨nofun, fun ⟨_, hne, heq⟩ => ?_⟩
    have hmapM : (healthyHosts replicas).mapM endpointOf = .ok [] := by
      rw [hhealthy]
      rfl
    rw [← filter_eq_filterMap hmapM] at heq
    exact absurd heq hne
  · rw [if_neg hhealthy, addressable_iff, bind_eq_ok_iff]
    constructor
    · rintro ⟨all, hall, h⟩
      simp only at h
      split at h
      · simp at h
      · rename_i hne
        obtain rfl := Except.ok.inj h
        exact ⟨⟨all, hall⟩, hne, filter_eq_filterMap hall⟩
    · rintro ⟨⟨all, hall⟩, hne, heq⟩
      refine ⟨all, hall, ?_⟩
      simp only
      rw [filter_eq_filterMap hall, ← heq, if_neg hne]

end conclude

/-! ### In Rust -/

section
variable {crates : ProxyCrates} (proxy : Proxy crates)

/-- Whether the proxy at the endpoint is ejected. -/
def Proxy.ejected (now : Nat) : Str → Bool := proxy.seedPeerSelector.ejections.isEjected now

/-- What `lookup_proxy_endpoints` makes of the replicas. -/
def Proxy.concludeLookup (now : Nat) (taskId : Str) (replicas : List SeedPeer) :
    Except Error (List Str) :=
  conclude proxyEndpoint (proxy.ejected now)
    (.internalOf "failed to select seed peers: ".toList
      (.hostNotFound "selected seed peers".toList))
    (.internal ("seed peers of task ".toList ++ taskId ++ " are all ejected".toList)) replicas

theorem Proxy.bind_liveEndpoints (now : Nat) (taskId : Str) (replicas : List SeedPeer) :
    (do
      let seedPeers ← (SeedPeers.selectHealthy replicas).mapError
        (.internalOf "failed to select seed peers: ".toList)
      proxy.liveEndpoints now taskId seedPeers) = proxy.concludeLookup now taskId replicas := by
  unfold SeedPeers.selectHealthy Proxy.concludeLookup conclude
  show (do
    let seedPeers ← (if healthyHosts replicas = [] then _ else _ : Except Error (List Host)).mapError _
    proxy.liveEndpoints now taskId seedPeers) = _
  by_cases h : healthyHosts replicas = []
  · rw [if_pos h, if_pos h]
    rfl
  · rw [if_neg h, if_neg h]
    rfl

theorem Proxy.lookup_of_taskId (fuel now : Nat) {request : GetRequest} {id : Str}
    (hid : taskId crates.id request.toTaskFields = .ok id) :
    proxy.lookupProxyEndpoints fuel now request =
      (proxy.seedPeerSelector.seedPeers.select fuel id (replicasOf request.replicas)).map
        (fun selected => do
          let seedPeers ← selected.mapError (.internalOf "failed to select seed peers: ".toList)
          proxy.liveEndpoints now id seedPeers) := by
  rw [lookupProxyEndpoints, hid]

theorem Proxy.lookup_iff (hring : crates.ring.Lawful) (now : Nat) {request : GetRequest} {id : Str}
    (hid : taskId crates.id request.toTaskFields = .ok id) (hpos : 0 < request.replicas)
    (hlt : request.replicas < 2 ^ 32) (hhosts : proxy.seedPeerSelector.seedPeers.hosts.len ≠ 0)
    (result : Except Error (List Str)) :
    (∃ fuel, proxy.lookupProxyEndpoints fuel now request = some result) ↔
      result = proxy.concludeLookup now id
        (proxy.seedPeerSelector.seedPeers.replicaSeedPeers id request.replicas) := by
  simp only [proxy.lookup_of_taskId _ now hid, Proxy.replicasOf, Nat.mod_eq_of_lt hlt,
    Option.map_eq_some_iff]
  constructor
  · intro h
    obtain ⟨fuel, selected, hselect, rfl⟩ := h
    rw [selects_rust.eq_finish hring hpos hhosts hselect]
    exact proxy.bind_liveEndpoints now id _
  · rintro rfl
    obtain ⟨fuel, hselect⟩ := selects_rust.exists_eq hring _ id hpos hhosts
    exact ⟨fuel, _, hselect, proxy.bind_liveEndpoints now id _⟩

end

/-! ### The usable replicas -/

/-- A lookup finds endpoints just when one of the replicas is usable, and then theirs. -/
def FindsUsable {crates : ProxyCrates} (proxy : Proxy crates) (now : Nat) (request : GetRequest)
    (replicas : List SeedPeer) : Prop :=
  ∃ fuel result, proxy.lookupEndpoints fuel now request = some result ∧
    ((∃ endpoints, result = .ok endpoints) ↔ ∃ seedPeer ∈ replicas, ∃ endpoint,
      usableEndpoint proxyEndpoint (proxy.ejected now) seedPeer = some endpoint) ∧
    ∀ endpoints, result = .ok endpoints →
      endpoints = replicas.filterMap (usableEndpoint proxyEndpoint (proxy.ejected now))

theorem exists_proxyEndpoint_iff {host : Host} :
    (∃ endpoint, proxyEndpoint host = .ok endpoint) ↔ (IpAddr.parse host.ip).isSome = true := by
  unfold proxyEndpoint
  cases IpAddr.parse host.ip <;> simp

theorem filterMap_ne_nil_iff {α β : Type} {f : α → Option β} {l : List α} :
    l.filterMap f ≠ [] ↔ ∃ a ∈ l, ∃ b, f a = some b := by
  rw [Ne, List.filterMap_eq_nil_iff]
  push Not
  simp only [Option.ne_none_iff_exists']

section
variable {crates : ProxyCrates} {proxy : Proxy crates} {now : Nat}

theorem addressable_proxyEndpoint_iff {replicas : List SeedPeer} :
    Addressable proxyEndpoint replicas ↔ ∀ seedPeer ∈ replicas, seedPeer.healthy = true →
      (IpAddr.parse seedPeer.host.ip).isSome = true := by
  unfold Addressable
  simp only [exists_proxyEndpoint_iff]

theorem findsUsable_iff (hring : crates.ring.Lawful) {request : GetRequest}
    (hvalid : request.validate crates.id.url = .ok ()) (hlt : request.replicas < 2 ^ 32) {id : Str}
    (hid : taskId crates.id request.toTaskFields = .ok id)
    (hhosts : proxy.seedPeerSelector.seedPeers.hosts.len ≠ 0) {replicas : List SeedPeer}
    (hreplicas : proxy.seedPeerSelector.seedPeers.replicaSeedPeers id request.replicas = replicas) :
    FindsUsable proxy now request replicas ↔ Addressable proxyEndpoint replicas ∨
      ∀ seedPeer ∈ replicas, seedPeer.healthy = true →
        (IpAddr.parse seedPeer.host.ip).isSome = true →
          ∃ endpoint, proxyEndpoint seedPeer.host = .ok endpoint ∧
            proxy.seedPeerSelector.ejections.isEjected now endpoint = true := by
  have hlookup := proxy.lookup_iff hring now hid (GetRequest.replicas_pos hvalid) hlt hhosts
  rw [hreplicas] at hlookup
  -- the result is what the replicas come to
  have hfinds : FindsUsable proxy now request replicas ↔
      ((∃ endpoints, proxy.concludeLookup now id replicas = .ok endpoints) ↔
        ∃ seedPeer ∈ replicas, ∃ endpoint,
          usableEndpoint proxyEndpoint (proxy.ejected now) seedPeer = some endpoint) := by
    unfold FindsUsable Proxy.lookupEndpoints
    rw [hvalid]
    simp only
    constructor
    · rintro ⟨fuel, result, hresult, hiff, _⟩
      rwa [(hlookup result).mp ⟨fuel, hresult⟩] at hiff
    · intro hiff
      obtain ⟨fuel, hfuel⟩ := (hlookup _).mpr rfl
      exact ⟨fuel, _, hfuel, hiff, fun endpoints h => (conclude_eq_ok.mp h).2.2⟩
  have hok : (∃ endpoints, proxy.concludeLookup now id replicas = .ok endpoints) ↔
      Addressable proxyEndpoint replicas ∧ ∃ seedPeer ∈ replicas, ∃ endpoint,
        usableEndpoint proxyEndpoint (proxy.ejected now) seedPeer = some endpoint := by
    unfold Proxy.concludeLookup
    simp only [conclude_eq_ok, ← filterMap_ne_nil_iff]
    constructor
    · rintro ⟨endpoints, haddressable, hne, rfl⟩
      exact ⟨haddressable, hne⟩
    · rintro ⟨haddressable, hne⟩
      exact ⟨_, haddressable, hne, rfl⟩
  rw [hfinds, hok]
  constructor
  · intro hiff
    by_cases hall : Addressable proxyEndpoint replicas
    · exact Or.inl hall
    · -- the lookup fails, so none is usable: those with an endpoint are ejected
      refine Or.inr fun seedPeer hmem hhealthy hparse => ?_
      obtain ⟨endpoint, hendpoint⟩ := exists_proxyEndpoint_iff.mpr hparse
      refine ⟨endpoint, hendpoint, ?_⟩
      by_contra hejected
      exact hall (hiff.mpr ⟨seedPeer, hmem, endpoint, usableEndpoint_eq_some.mpr
        ⟨hhealthy, hendpoint, Bool.eq_false_of_not_eq_true hejected⟩⟩).1
  · rintro (hall | hejected)
    · exact and_iff_right hall
    · have hnone : ¬ ∃ seedPeer ∈ replicas, ∃ endpoint,
          usableEndpoint proxyEndpoint (proxy.ejected now) seedPeer = some endpoint := by
        rintro ⟨seedPeer, hmem, endpoint, husable⟩
        obtain ⟨hhealthy, hendpoint, hlive⟩ := usableEndpoint_eq_some.mp husable
        obtain ⟨endpoint', hendpoint', hdead⟩ := hejected seedPeer hmem hhealthy
          (exists_proxyEndpoint_iff.mp ⟨endpoint, hendpoint⟩)
        rw [hendpoint, Except.ok.injEq] at hendpoint'
        rw [Proxy.ejected, hendpoint', hdead] at hlive
        simp at hlive
      exact ⟨And.right, fun h => absurd h hnone⟩

end

/-- **A lookup finds the usable replicas**, unless one that is healthy has an address that cannot be
parsed while another one is usable. -/
theorem lookup_finds_usable_iff (crates : ProxyCrates) (hring : crates.ring.Lawful)
    (preferredLocalIp : Option IpAddr) (hostname : Except Str Str) (built : Listing hostsOf)
    (retry : RetryPolicy crates.backon) (p : ProxyWithSeedPeers crates)
    (hbuild : ProxyWithSeedPeers.build preferredLocalIp hostname built retry = .ok p)
    (events : List (SeedPeersEvent hostsOf)) (now : Nat) (request : GetRequest)
    (hvalid : request.validate crates.id.url = .ok ()) (hle : request.replicas ≤ 2 ^ 32 - 1)
    (id : Str) (hid : taskId crates.id request.toTaskFields = .ok id) :
    let proxy := (p.run events).proxy
    let replicas := proxy.seedPeerSelector.seedPeers.replicaSeedPeers id request.replicas
    FindsUsable proxy now request replicas ↔
      (∀ seedPeer ∈ replicas, seedPeer.healthy = true →
        (IpAddr.parse seedPeer.host.ip).isSome = true) ∨
      ∀ seedPeer ∈ replicas, seedPeer.healthy = true →
        (IpAddr.parse seedPeer.host.ip).isSome = true →
          ∃ endpoint, proxyEndpoint seedPeer.host = .ok endpoint ∧
            proxy.seedPeerSelector.ejections.isEjected now endpoint = true := by
  intro proxy replicas
  obtain ⟨listing, hserves⟩ := ProxyWithSeedPeers.serves_run hbuild events
  rw [← addressable_proxyEndpoint_iff]
  exact findsUsable_iff hring hvalid (by omega) hid (validates_rust.len_pos hserves).ne' rfl

/-! ### A seed peer known by name only -/

/-- Third-party code that takes `https` urls. -/
def lookupCrates : ProxyCrates := { exampleCrates with id := httpsCrates }

/-- The address of the first seed peer is the name of its host; that of the second one is not. -/
def namedSeedPeers : List SeedPeer :=
  [⟨{ exampleHost "seed-peer-1".toList with ip := "localhost".toList }, true⟩,
    ⟨exampleHost "seed-peer-2".toList, true⟩]

def namedListing : Listing hostsOf :=
  ⟨namedSeedPeers, namedSeedPeers.map fun seedPeer => seedPeer.host.name, yields_hostsOf (by decide)⟩

def namedProxy : ProxyWithSeedPeers lookupCrates :=
  ⟨⟨namedListing.applyTo SeedPeers.update ⟨SeedPeers.new, ∅⟩, ⟨1, none⟩⟩⟩

/-- A request for a file served by so many seed peers. -/
def lookupRequest (replicas : Nat) : GetRequest :=
  { requestFor "https://example.com/file".toList with
    contentForCalculatingTaskId := some "content".toList
    replicas := replicas }

theorem taskId_lookupRequest (replicas : Nat) :
    taskId lookupCrates.id (lookupRequest replicas).toTaskFields =
      .ok (hexEncode (utf8 "content".toList)) :=
  @taskId_content httpsCrates (lookupRequest replicas).toTaskFields "content".toList rfl

/-- The proxy with two seed peers that have an address. -/
def addressedProxy : ProxyWithSeedPeers lookupCrates :=
  ⟨⟨exampleListing.applyTo SeedPeers.update ⟨SeedPeers.new, ∅⟩, ⟨1, none⟩⟩⟩

/-- After a failure at the endpoint of both. -/
theorem lookup_finds_usable_iff_failure :
    let proxy :=
      (addressedProxy.run [.ejection (.onFailure 0 "http://127.0.0.1:4001".toList)]).proxy
    let replicas := proxy.seedPeerSelector.seedPeers.replicaSeedPeers
      (hexEncode (utf8 "content".toList)) 2
    FindsUsable proxy 1 (lookupRequest 2) replicas ↔
      (∀ seedPeer ∈ replicas, seedPeer.healthy = true →
        (IpAddr.parse seedPeer.host.ip).isSome = true) ∨
      ∀ seedPeer ∈ replicas, seedPeer.healthy = true →
        (IpAddr.parse seedPeer.host.ip).isSome = true →
          ∃ endpoint, proxyEndpoint seedPeer.host = .ok endpoint ∧
            proxy.seedPeerSelector.ejections.isEjected 1 endpoint = true :=
  lookup_finds_usable_iff lookupCrates nameRing.lawful _ _ exampleListing ⟨1, none⟩ addressedProxy
    (ProxyWithSeedPeers.build_valid exampleIp [] (show Valid (entries exampleSeedPeers) by decide)
      (by decide)) _ 1 (lookupRequest 2) (by decide +kernel) (by decide) _ (taskId_lookupRequest 2)

theorem replicas_named : namedProxy.proxy.seedPeerSelector.seedPeers.replicaSeedPeers
    (hexEncode (utf8 "content".toList)) 2 = namedSeedPeers := by
  decide +kernel

/-- Of the two replicas one is usable, but the lookup fails over the other one. -/
theorem not_lookup_finds_usable :
    ¬ ∀ (crates : ProxyCrates), crates.ring.Lawful →
      ∀ preferredLocalIp hostname built retry (p : ProxyWithSeedPeers crates),
      ProxyWithSeedPeers.build preferredLocalIp hostname built retry = .ok p →
      ∀ events now (request : GetRequest), request.validate crates.id.url = .ok () →
      request.replicas ≤ 2 ^ 32 - 1 → ∀ id, taskId crates.id request.toTaskFields = .ok id →
        FindsUsable (p.run events).proxy now request
          ((p.run events).proxy.seedPeerSelector.seedPeers.replicaSeedPeers id
            request.replicas) := by
  intro h
  have hvalid : (lookupRequest 2).validate lookupCrates.id.url = .ok () := by decide +kernel
  have hid := taskId_lookupRequest 2
  have hfinds := h lookupCrates nameRing.lawful _ _ namedListing ⟨1, none⟩ namedProxy
    (ProxyWithSeedPeers.build_valid exampleIp [] (show Valid (entries namedSeedPeers) by decide)
      (by decide)) [] 0 (lookupRequest 2) hvalid (by decide) _ hid
  have hhosts : namedProxy.proxy.seedPeerSelector.seedPeers.hosts.len ≠ 0 := by decide +kernel
  have hnamed : FindsUsable namedProxy.proxy 0 (lookupRequest 2) namedSeedPeers :=
    replicas_named ▸ hfinds
  rcases (findsUsable_iff nameRing.lawful hvalid (by decide) hid hhosts replicas_named).mp hnamed
    with haddressable | hejected
  · have := addressable_proxyEndpoint_iff.mp haddressable _ List.mem_cons_self rfl
    revert this
    decide +kernel
  · obtain ⟨endpoint, _, hdead⟩ := hejected ⟨exampleHost "seed-peer-2".toList, true⟩
      (List.mem_cons_of_mem _ List.mem_cons_self) rfl (by decide +kernel)
    have hlive : namedProxy.proxy.seedPeerSelector.ejections = ∅ := rfl
    rw [hlive, Ejections.isEjected, Finmap.lookup_empty] at hdead
    simp at hdead

end DragonflySdk
