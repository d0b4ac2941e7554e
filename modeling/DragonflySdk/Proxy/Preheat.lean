import DragonflySdk.Foundation.Except
import DragonflySdk.Proxy
import DragonflySdk.Selector.Select

/-!
# A preheat and the downloads after it

A preheat of `r` replicas that succeeds has written to the first `r` seed peers clockwise from the
task, all of which were healthy (`preheat_eq_ok`). Which these are depends on the host names only:
health, addresses and ejections may change, and a lookup of as many replicas or fewer still finds
none but these (`preheat_lookup`).
-/

namespace DragonflySdk

open Foundation

/-! ### What was selected -/

section select
variable {crate : HashRingCrate} {s : SeedPeers crate} {fuel : Nat} {taskId : Str}
  {selected : List Host}

theorem selectHealthy_eq_ok {replicas : List SeedPeer}
    (h : SeedPeers.selectHealthy replicas = .ok selected) : selected = healthyHosts replicas := by
  unfold SeedPeers.selectHealthy at h
  simp only at h
  split at h
  · simp at h
  · exact (Except.ok.inj h).symm

theorem select_eq_ok (hcrate : crate.Lawful) {n : Nat} (hn : 0 < n)
    (h : s.select fuel taskId n = some (.ok selected)) :
    selected = healthyHosts (s.replicaSeedPeers taskId n) := by
  have hhosts : s.hosts.len ≠ 0 := by
    intro hzero
    rw [SeedPeers.select, if_pos hzero] at h
    simp at h
  exact selectHealthy_eq_ok (selects_rust.eq_finish hcrate hn hhosts h).symm

theorem length_select_zero_le (h : s.select fuel taskId 0 = some (.ok selected)) :
    selected.length ≤ (crate.vnodes s.hashring taskId 0).length := by
  unfold SeedPeers.select at h
  by_cases hhosts : s.hosts.len = 0
  · rw [if_pos hhosts] at h
    simp at h
  · rw [if_neg hhosts, Nat.zero_min] at h
    obtain ⟨found, hfound, hselected⟩ := Option.map_eq_some_iff.mp h
    obtain ⟨hfound, _⟩ := windowLoop_zero_iff.mp ⟨fuel, hfound⟩
    rw [selectHealthy_eq_ok hselected, healthyHosts, List.length_map, hfound]
    calc _ ≤ ((crate.vnodes s.hashring taskId 0).eraseDups.filterMap s.hosts.get).length :=
          List.length_filter_le _ _
      _ ≤ (crate.vnodes s.hashring taskId 0).eraseDups.length := List.length_filterMap_le _ _
      _ ≤ (crate.vnodes s.hashring taskId 0).length := length_eraseDups_le _

end select

/-! ### A preheat that succeeds -/

section preheat
variable {crates : ProxyCrates} {proxy : Proxy crates}

theorem joinAll_eq_ok_iff {finish : FinishOrder} {results : List (Except Error Unit)} :
    joinAll finish results = .ok () ↔ ∀ result ∈ results, result = .ok () := by
  have horder : ∀ i, i ∈ finish.order results.length ↔ i < results.length := by
    intro i
    rw [(finish.perm results.length).mem_iff, List.mem_range]
  rw [joinAll, forM_eq_ok_iff]
  simp only [horder]
  constructor
  · intro h result hmem
    obtain ⟨i, hi, rfl⟩ := List.getElem_of_mem hmem
    have hresult := h i hi
    rwa [List.getD_eq_getElem _ _ hi] at hresult
  · intro h i hi
    rw [List.getD_eq_getElem _ _ hi]
    exact h _ (List.getElem_mem hi)

theorem downloadAll_eq_ok {download : Nat → Str → Download → Nat → Except Error Unit}
    {finish : FinishOrder} {request : Download} {seedPeers downloaded : List Host}
    (h : proxy.downloadAll download finish request seedPeers = .ok downloaded) :
    downloaded = seedPeers := by
  obtain ⟨addrs, haddrs, h⟩ := bind_eq_ok_iff.mp h
  obtain ⟨_, hjoin, h⟩ := bind_eq_ok_iff.mp h
  have hlength : seedPeers.length = addrs.length := (mapM_eq_ok_iff.mp haddrs).length_eq
  have hok := joinAll_eq_ok_iff.mp hjoin
  rw [← Except.ok.inj h, List.filter_eq_self.mpr]
  · rw [List.map_fst_zip]
    rw [List.length_mapIdx]
    exact hlength.le
  · rintro ⟨seedPeer, result⟩ hmem
    show result.isOk = true
    rw [hok result (List.of_mem_zip hmem).2]
    rfl

theorem checkSelected_eq_ok_iff {request : PreheatRequest} (hscope : request.scope = .default)
    {selected : Except Error (List Host)} {seedPeers : List Host} :
    Proxy.checkSelected request selected = .ok seedPeers ↔
      selected = .ok seedPeers ∧ request.replicas ≤ seedPeers.length := by
  rcases selected with err | seedPeers'
  · simp [Proxy.checkSelected]
  · unfold Proxy.checkSelected
    simp only [hscope, true_and]
    by_cases hshort : seedPeers'.length < request.replicas
    · rw [if_pos hshort]
      refine ⟨nofun, fun h => ?_⟩
      obtain ⟨heq, hle⟩ := h
      obtain rfl := Except.ok.inj heq
      omega
    · rw [if_neg hshort, Except.ok.injEq]
      refine ⟨fun heq => ⟨heq, ?_⟩, And.left⟩
      rw [← heq]
      omega

theorem preheat_steps {fuel : Nat} {names : List Str} {preferredLocalIp : Option IpAddr}
    {download : Nat → Str → Download → Nat → Except Error Unit} {finish : FinishOrder}
    {request : PreheatRequest} (hscope : request.scope = .default) {preheated : List Host}
    (h : proxy.preheat fuel names preferredLocalIp download finish request
      = some (.ok preheated)) :
    0 < request.replicas ∧ request.replicas ≤ preheated.length ∧
      ∃ id, taskId crates.id request.toTaskFields = .ok id ∧
        proxy.seedPeerSelector.seedPeers.select fuel id (Proxy.replicasOf request.replicas)
          = some (.ok preheated) := by
  unfold Proxy.preheat at h
  split at h
  · simp at h
  · rename_i id hid
    obtain ⟨_, hvalidate, hid⟩ := bind_eq_ok_iff.mp hid
    have hpos : 0 < request.replicas := validateReplicas_eq_ok.mp hvalidate
    obtain ⟨selected, hselected, h⟩ := Option.map_eq_some_iff.mp h
    obtain ⟨seedPeers, hcheck, h⟩ := bind_eq_ok_iff.mp h
    obtain ⟨downloadRequest, _, h⟩ := bind_eq_ok_iff.mp h
    obtain rfl := downloadAll_eq_ok h
    obtain ⟨rfl, hle⟩ := (checkSelected_eq_ok_iff hscope).mp hcheck
    unfold Proxy.selectSeedPeers at hselected
    rw [hscope] at hselected
    exact ⟨hpos, hle, id, hid, hselected⟩

theorem healthyHosts_eq_map {seedPeers : List SeedPeer}
    (h : seedPeers.length ≤ (healthyHosts seedPeers).length) :
    (∀ seedPeer ∈ seedPeers, seedPeer.healthy = true) ∧
      healthyHosts seedPeers = seedPeers.map SeedPeer.host := by
  rw [healthyHosts, List.length_map] at h
  have hall := List.filter_eq_self.mp
    (List.filter_sublist.eq_of_length (Nat.le_antisymm (List.length_filter_le _ _) h))
  exact ⟨hall, by rw [healthyHosts, List.filter_eq_self.mpr hall]⟩

/-- **What a successful preheat has written to**: the replicas asked for, all of them healthy. -/
theorem preheat_eq_ok (hring : crates.ring.Lawful)
    (hnext : crates.ring.AtMostNext)
    {fuel : Nat} {names : List Str} {preferredLocalIp : Option IpAddr}
    {download : Nat → Str → Download → Nat → Except Error Unit} {finish : FinishOrder}
    {request : PreheatRequest} (hscope : request.scope = .default) {preheated : List Host}
    (h : proxy.preheat fuel names preferredLocalIp download finish request
      = some (.ok preheated)) :
    0 < request.replicas ∧ request.replicas < 2 ^ 32 ∧
      ∃ id, taskId crates.id request.toTaskFields = .ok id ∧
        preheated = (proxy.seedPeerSelector.seedPeers.replicaSeedPeers id request.replicas).map
          SeedPeer.host ∧ preheated.length = request.replicas := by
  obtain ⟨hpos, hle, id, hid, hselect⟩ := preheat_steps hscope h
  have hlt : request.replicas < 2 ^ 32 := by
    by_contra hge
    by_cases hzero : Proxy.replicasOf request.replicas = 0
    · -- cut to 32 bits, no replicas are left: at most one vnode is looked at
      rw [hzero] at hselect
      have := length_select_zero_le hselect
      have := hnext proxy.seedPeerSelector.seedPeers.hashring id 0
      omega
    · have heq := select_eq_ok hring (Nat.pos_of_ne_zero hzero) hselect
      have hshort : preheated.length ≤ Proxy.replicasOf request.replicas := by
        rw [heq, healthyHosts, List.length_map]
        exact (List.length_filter_le _ _).trans (SeedPeers.length_replicaSeedPeers_le _ _ _)
      have : Proxy.replicasOf request.replicas < 2 ^ 32 := Nat.mod_lt _ (by omega)
      omega
  rw [Proxy.replicasOf, Nat.mod_eq_of_lt hlt] at hselect
  have heq := select_eq_ok hring hpos hselect
  have hreplicas := SeedPeers.length_replicaSeedPeers_le proxy.seedPeerSelector.seedPeers id
    request.replicas
  rw [heq] at hle
  obtain ⟨_, hmap⟩ := healthyHosts_eq_map (hreplicas.trans hle)
  refine ⟨hpos, hlt, id, hid, heq.trans hmap, ?_⟩
  rw [heq]
  rw [hmap, List.length_map] at hle ⊢
  omega

end preheat

/-! ### A lookup after it -/

/-- The endpoint of the proxy of the host of this name, as it is listed now. -/
def EndpointOf (hosts : Hosts) (name endpoint : Str) : Prop :=
  ∃ seedPeer, hosts.get name = some seedPeer ∧ proxyEndpoint seedPeer.host = .ok endpoint

section lookup
variable {crates : ProxyCrates} {proxy : Proxy crates}

theorem liveEndpoints_subset {now : Nat} {id : Str} {seedPeers : List Host} {endpoints : List Str}
    (h : proxy.liveEndpoints now id seedPeers = .ok endpoints) :
    ∀ endpoint ∈ endpoints, ∃ seedPeer ∈ seedPeers, proxyEndpoint seedPeer = .ok endpoint := by
  obtain ⟨all, hall, h⟩ := bind_eq_ok_iff.mp h
  simp only at h
  split at h
  · simp at h
  · intro endpoint hmem
    rw [← Except.ok.inj h] at hmem
    exact exists_of_mem_mapM hall (List.mem_of_mem_filter hmem)

theorem lookup_eq_ok (hring : crates.ring.Lawful) {fuel now : Nat} {get : GetRequest}
    (hpos : 0 < get.replicas) (hlt : get.replicas < 2 ^ 32) {id : Str}
    (hid : taskId crates.id get.toTaskFields = .ok id) {endpoints : List Str}
    (h : proxy.lookupProxyEndpoints fuel now get = some (.ok endpoints)) :
    ∀ endpoint ∈ endpoints, ∃ seedPeer ∈
      proxy.seedPeerSelector.seedPeers.replicaSeedPeers id get.replicas,
        proxyEndpoint seedPeer.host = .ok endpoint := by
  unfold Proxy.lookupProxyEndpoints at h
  rw [hid] at h
  obtain ⟨selected, hselected, h⟩ := Option.map_eq_some_iff.mp h
  obtain ⟨seedPeers, hseedPeers, h⟩ := bind_eq_ok_iff.mp h
  rcases selected with err | selected
  · simp [Except.mapError] at hseedPeers
  · obtain rfl := Except.ok.inj hseedPeers
    rw [Proxy.replicasOf, Nat.mod_eq_of_lt hlt] at hselected
    rw [select_eq_ok hring hpos hselected] at h
    intro endpoint hmem
    obtain ⟨host, hhost, hendpoint⟩ := liveEndpoints_subset h endpoint hmem
    obtain ⟨seedPeer, hseedPeer, rfl⟩ := List.mem_map.mp hhost
    exact ⟨seedPeer, List.mem_of_mem_filter hseedPeer, hendpoint⟩

theorem exists_lookup_eq_ok (hring : crates.ring.Lawful) {now : Nat} {get : GetRequest}
    (hpos : 0 < get.replicas) (hlt : get.replicas < 2 ^ 32) {id : Str}
    (hid : taskId crates.id get.toTaskFields = .ok id)
    (hne : proxy.seedPeerSelector.seedPeers.replicaSeedPeers id get.replicas ≠ [])
    (hall : ∀ seedPeer ∈ proxy.seedPeerSelector.seedPeers.replicaSeedPeers id get.replicas,
      seedPeer.healthy = true ∧ ∃ endpoint, proxyEndpoint seedPeer.host = .ok endpoint ∧
        proxy.seedPeerSelector.ejections.isEjected now endpoint = false) :
    ∃ fuel endpoints, proxy.lookupProxyEndpoints fuel now get = some (.ok endpoints) ∧
      List.Forall₂ (fun seedPeer endpoint => proxyEndpoint seedPeer.host = .ok endpoint)
        (proxy.seedPeerSelector.seedPeers.replicaSeedPeers id get.replicas) endpoints := by
  have hhosts : proxy.seedPeerSelector.seedPeers.hosts.len ≠ 0 := by
    intro hzero
    rw [SeedPeers.replicaSeedPeers, hzero, Nat.min_zero, List.take_zero] at hne
    exact hne rfl
  obtain ⟨fuel, hfuel⟩ := selects_rust.exists_eq hring _ id hpos hhosts
  generalize proxy.seedPeerSelector.seedPeers.replicaSeedPeers id get.replicas = replicas
    at hne hall hfuel ⊢
  have hselected : SeedPeers.selectHealthy replicas = .ok (replicas.map SeedPeer.host) := by
    have hhealthy : replicas.filter SeedPeer.healthy = replicas :=
      List.filter_eq_self.mpr fun seedPeer hmem => (hall seedPeer hmem).1
    unfold SeedPeers.selectHealthy
    rw [hhealthy]
    exact if_neg (by simpa using hne)
  obtain ⟨endpoints, hendpoints⟩ : ∃ endpoints,
      (replicas.map SeedPeer.host).mapM proxyEndpoint = .ok endpoints := by
    apply exists_mapM_eq_ok
    intro host hmem
    obtain ⟨seedPeer, hseedPeer, rfl⟩ := List.mem_map.mp hmem
    obtain ⟨endpoint, hendpoint, _⟩ := (hall seedPeer hseedPeer).2
    exact ⟨endpoint, hendpoint⟩
  have hpairs := List.forall₂_map_left_iff.mp (mapM_eq_ok_iff.mp hendpoints)
  have hlive : endpoints.filter (fun endpoint =>
      !proxy.seedPeerSelector.ejections.isEjected now endpoint) = endpoints := by
    refine List.filter_eq_self.mpr fun endpoint hmem => ?_
    obtain ⟨host, hhost, heq⟩ := exists_of_mem_mapM hendpoints hmem
    obtain ⟨seedPeer, hseedPeer, rfl⟩ := List.mem_map.mp hhost
    obtain ⟨endpoint', hendpoint', hejected⟩ := (hall seedPeer hseedPeer).2
    rw [heq, Except.ok.injEq] at hendpoint'
    rw [hendpoint', hejected]
    rfl
  have hendpointsNe : endpoints ≠ [] := by
    rintro rfl
    exact hne (List.forall₂_nil_right_iff.mp hpairs)
  refine ⟨fuel, endpoints, ?_, hpairs⟩
  unfold Proxy.lookupProxyEndpoints
  rw [hid, Proxy.replicasOf, Nat.mod_eq_of_lt hlt]
  simp only [hfuel, hselected, Option.map_some, Option.some.injEq]
  refine bind_eq_ok_iff.mpr ⟨_, rfl, bind_eq_ok_iff.mpr ⟨endpoints, hendpoints, ?_⟩⟩
  simp only [hlive, if_neg hendpointsNe]

/-- **A download addresses only seed peers the preheat wrote to**, and when these are all there,
exactly these in the same order. -/
theorem preheat_lookup (crates : ProxyCrates) (hring : crates.ring.Lawful)
    (hnext : crates.ring.AtMostNext)
    (proxy : Proxy crates) (request : PreheatRequest) (hscope : request.scope = .default)
    (fuel : Nat) (names : List Str) (preferredLocalIp : Option IpAddr)
    (download : Nat → Str → Download → Nat → Except Error Unit) (finish : FinishOrder)
    (preheated : List Host) (hpreheat : proxy.preheat fuel names preferredLocalIp download finish
      request = some (.ok preheated))
    (events : List SelectorEvent) (hevents : ∀ event ∈ events,
      event.KeepsNames proxy.seedPeerSelector.seedPeers.hosts.keys)
    (get : GetRequest) (hsame : get.toTaskFields = request.toTaskFields)
    (hpos : 1 ≤ get.replicas) (hle : get.replicas ≤ request.replicas) (now : Nat) :
    let later := proxy.after events
    let hosts := later.seedPeerSelector.seedPeers.hosts
    (∀ fuel endpoints, later.lookupProxyEndpoints fuel now get = some (.ok endpoints) →
      ∀ endpoint ∈ endpoints, ∃ host ∈ preheated, EndpointOf hosts host.name endpoint) ∧
    (get.replicas = request.replicas →
      (∀ host ∈ preheated, ∃ seedPeer endpoint, hosts.get host.name = some seedPeer ∧
        seedPeer.healthy = true ∧ proxyEndpoint seedPeer.host = .ok endpoint ∧
        later.seedPeerSelector.ejections.isEjected now endpoint = false) →
      ∃ fuel endpoints, later.lookupProxyEndpoints fuel now get = some (.ok endpoints) ∧
        List.Forall₂ (fun host endpoint => EndpointOf hosts host.name endpoint)
          preheated endpoints) := by
  intro later hosts
  obtain ⟨_, hlt, id, hid, hpreheated, hlength⟩ := preheat_eq_ok hring hnext hscope hpreheat
  rw [← hsame] at hid
  obtain ⟨hsameRing, hkeys⟩ := SeedPeerSelector.run_keepsNames hevents
  have hnames : (later.seedPeerSelector.seedPeers.replicaSeedPeers id request.replicas).map
      (fun seedPeer => seedPeer.host.name) = preheated.map Host.name := by
    rw [hpreheated, List.map_map]
    exact SeedPeers.map_name_replicaSeedPeers hsameRing hkeys id request.replicas
  have hreplica : ∀ seedPeer ∈
      later.seedPeerSelector.seedPeers.replicaSeedPeers id request.replicas,
      ∃ host ∈ preheated, hosts.get host.name = some seedPeer := by
    intro seedPeer hmem
    have hname : seedPeer.host.name ∈ preheated.map Host.name := by
      rw [← hnames]
      exact List.mem_map_of_mem hmem
    obtain ⟨host, hhost, heq⟩ := List.mem_map.mp hname
    exact ⟨host, hhost, heq ▸ SeedPeers.get_name_of_mem_replicas hmem⟩
  constructor
  · intro fuel endpoints hlookup endpoint hmem
    obtain ⟨seedPeer, hseedPeer, hendpoint⟩ :=
      lookup_eq_ok hring hpos (by omega) hid hlookup endpoint hmem
    obtain ⟨host, hhost, hget⟩ :=
      hreplica seedPeer ((SeedPeers.replicaSeedPeers_prefix _ id hle).subset hseedPeer)
    exact ⟨host, hhost, seedPeer, hget, hendpoint⟩
  · intro heq hall
    have hreplicas : ∀ seedPeer ∈
        later.seedPeerSelector.seedPeers.replicaSeedPeers id get.replicas,
        seedPeer.healthy = true ∧ ∃ endpoint, proxyEndpoint seedPeer.host = .ok endpoint ∧
          later.seedPeerSelector.ejections.isEjected now endpoint = false := by
      intro seedPeer hmem
      rw [heq] at hmem
      obtain ⟨host, hhost, hget⟩ := hreplica seedPeer hmem
      obtain ⟨seedPeer', endpoint, hget', hhealthy, hendpoint, hejected⟩ := hall host hhost
      obtain rfl := Option.some.inj (hget.symm.trans hget')
      exact ⟨hhealthy, endpoint, hendpoint, hejected⟩
    have hne : later.seedPeerSelector.seedPeers.replicaSeedPeers id get.replicas ≠ [] := by
      intro hnil
      rw [heq] at hnil
      rw [hnil] at hnames
      have := congrArg List.length hnames
      simp only [List.map_nil, List.length_nil, List.length_map] at this
      omega
    obtain ⟨fuel, endpoints, hlookup, hpairs⟩ :=
      exists_lookup_eq_ok hring hpos (by omega) hid hne hreplicas
    refine ⟨fuel, endpoints, hlookup, ?_⟩
    rw [heq] at hpairs
    have hnamed := (List.forall₂_and_left _ _).mpr
      ⟨fun seedPeer hmem => SeedPeers.get_name_of_mem_replicas hmem, hpairs⟩
    have hendpoints : List.Forall₂ (EndpointOf hosts) (preheated.map Host.name) endpoints := by
      rw [← hnames, List.forall₂_map_left_iff]
      exact hnamed.imp fun seedPeer endpoint h => ⟨seedPeer, h.1, h.2⟩
    exact List.forall₂_map_left_iff.mp hendpoints

end lookup

/-! ### One preheat -/

def exampleCrates : ProxyCrates where
  id := identityCrates
  ring := nameRing
  backon := exampleBackon
  durationTryFrom timeout := .ok ⟨timeout / 1000000000, timeout % 1000000000⟩

def exampleProxy : Proxy exampleCrates := ⟨⟨exampleRust, ∅⟩, ⟨1, none⟩⟩

def exampleFields : TaskFields :=
  { exampleTask with contentForCalculatingTaskId := some "content".toList }

def examplePreheat : PreheatRequest := ⟨exampleFields, [], none, 1, .default, 0⟩

def exampleGet : GetRequest := ⟨exampleFields, [], none, 1, 0⟩

/-- In the order of their starts. -/
def inOrder : FinishOrder := ⟨List.range, fun _ => List.Perm.refl _⟩

theorem preheat_example : exampleProxy.preheat 3 exampleNames none (fun _ _ _ _ => .ok ()) inOrder
    examplePreheat = some (.ok [exampleHost "seed-peer-1".toList]) := by
  rfl

/-- At a preheat of one replica, before its seed peer becomes unhealthy and then fails once. -/
theorem preheat_lookup_example :
    let later := exampleProxy.after
      [.update [⟨exampleHost "seed-peer-1".toList, false⟩, ⟨exampleHost "seed-peer-2".toList, true⟩]
        exampleNames, .onFailure 0 "http://127.0.0.1:4001".toList]
    let hosts := later.seedPeerSelector.seedPeers.hosts
    (∀ fuel endpoints, later.lookupProxyEndpoints fuel 1 exampleGet = some (.ok endpoints) →
      ∀ endpoint ∈ endpoints, ∃ host ∈ [exampleHost "seed-peer-1".toList],
        EndpointOf hosts host.name endpoint) ∧
    (exampleGet.replicas = examplePreheat.replicas →
      (∀ host ∈ [exampleHost "seed-peer-1".toList], ∃ seedPeer endpoint,
        hosts.get host.name = some seedPeer ∧ seedPeer.healthy = true ∧
        proxyEndpoint seedPeer.host = .ok endpoint ∧
        later.seedPeerSelector.ejections.isEjected 1 endpoint = false) →
      ∃ fuel endpoints, later.lookupProxyEndpoints fuel 1 exampleGet = some (.ok endpoints) ∧
        List.Forall₂ (fun host endpoint => EndpointOf hosts host.name endpoint)
          [exampleHost "seed-peer-1".toList] endpoints) := by
  refine preheat_lookup exampleCrates nameRing.lawful nameRing.atMostNext exampleProxy
    examplePreheat rfl 3 exampleNames none (fun _ _ _ _ => .ok ()) inOrder _ preheat_example _ ?_
    exampleGet rfl (by decide) (by decide) 1
  intro event hmem
  rcases List.mem_pair.mp hmem with rfl | rfl
  · show (hostsOf _).keys = exampleRust.hosts.keys
    decide +kernel
  · trivial

end DragonflySdk
