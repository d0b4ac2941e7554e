import DragonflySdk.Net.ReadBack
import DragonflySdk.Pool
import DragonflySdk.Proxy.Lookup
import DragonflySdk.Selector.Ejection

/-!
# The endpoint of a seed peer

An endpoint is the key of the ejections and of the client pool, and the address of the client. It is
formatted of the address of a host and of its proxy port, which is cut to 16 bits. Where nothing is
cut off, the endpoint is read back as the address and the port of the host, so no two hosts that
differ in them share one, and what is done at one does not touch the other
(`ejected_individually_iff`).
-/

namespace DragonflySdk

open Foundation

/-! ### What calls for one endpoint make of another -/

theorem Ejections.lookup_foldl_of_ne {endpoint : Str} (calls : List EjectionCall)
    (h : ∀ call ∈ calls, call.endpoint ≠ endpoint) (ejections : Ejections) :
    (calls.foldl after ejections).lookup endpoint = ejections.lookup endpoint := by
  induction calls generalizing ejections with
  | nil => rfl
  | cons call calls ih =>
    obtain ⟨hcall, hcalls⟩ := List.forall_mem_cons.mp h
    rw [List.foldl_cons, ih hcalls, ejections.lookup_after_of_ne call hcall]

section
variable {crates : ProxyCrates} (proxy : Proxy crates)

/-- The proxy after some calls on its ejections. -/
def Proxy.afterCalls (calls : List EjectionCall) : Proxy crates :=
  { proxy with
    seedPeerSelector := { proxy.seedPeerSelector with
      ejections := calls.foldl Ejections.after proxy.seedPeerSelector.ejections } }

/-- A lookup finds the endpoint, and does not skip it. -/
def Proxy.Finds (fuel now : Nat) (request : GetRequest) (endpoint : Str) : Prop :=
  ∃ endpoints, proxy.lookupProxyEndpoints fuel now request = some (.ok endpoints) ∧
    endpoint ∈ endpoints

variable {proxy}

theorem Proxy.mem_liveEndpoints {now : Nat} (taskId : Str) {endpoint : Str}
    {seedPeers : List Host} :
    (∃ endpoints, proxy.liveEndpoints now taskId seedPeers = .ok endpoints ∧
        endpoint ∈ endpoints) ↔
      (∃ all, seedPeers.mapM proxyEndpoint = .ok all ∧ endpoint ∈ all) ∧
        proxy.ejected now endpoint = false := by
  have hmem : ∀ all : List Str, endpoint ∈ all.filter (fun endpoint =>
      !proxy.seedPeerSelector.ejections.isEjected now endpoint) ↔
        endpoint ∈ all ∧ proxy.ejected now endpoint = false := by
    intro all
    rw [List.mem_filter, Bool.not_eq_true']
    rfl
  unfold liveEndpoints
  constructor
  · intro h
    obtain ⟨endpoints, hok, hendpoint⟩ := h
    obtain ⟨all, hall, hok⟩ := bind_eq_ok_iff.mp hok
    simp only at hok
    split at hok
    · cases hok
    · obtain rfl := Except.ok.inj hok
      obtain ⟨hlisted, hejected⟩ := (hmem all).mp hendpoint
      exact ⟨⟨all, hall, hlisted⟩, hejected⟩
  · intro h
    obtain ⟨⟨all, hall, hlisted⟩, hejected⟩ := h
    have hlive := (hmem all).mpr ⟨hlisted, hejected⟩
    refine ⟨_, bind_eq_ok_iff.mpr ⟨all, hall, if_neg (List.ne_nil_of_mem hlive)⟩, hlive⟩

theorem Proxy.finds_iff {fuel now : Nat} {request : GetRequest} {endpoint : Str} :
    proxy.Finds fuel now request endpoint ↔
      (∃ id seedPeers, taskId crates.id request.toTaskFields = .ok id ∧
        proxy.seedPeerSelector.seedPeers.select fuel id (replicasOf request.replicas) =
          some (.ok seedPeers) ∧ ∃ all, seedPeers.mapM proxyEndpoint = .ok all ∧ endpoint ∈ all) ∧
        proxy.ejected now endpoint = false := by
  unfold Finds
  constructor
  · intro h
    obtain ⟨endpoints, hlookup, hendpoint⟩ := h
    rcases hid : taskId crates.id request.toTaskFields with err | id
    · rw [lookupProxyEndpoints, hid] at hlookup
      cases hlookup
    · rw [proxy.lookup_of_taskId fuel now hid] at hlookup
      obtain ⟨selected, hselect, hok⟩ := Option.map_eq_some_iff.mp hlookup
      obtain ⟨seedPeers, hselected, hlive⟩ := bind_eq_ok_iff.mp hok
      rw [mapError_eq_ok_iff.mp hselected] at hselect
      obtain ⟨hlisted, hejected⟩ := (mem_liveEndpoints id).mp ⟨endpoints, hlive, hendpoint⟩
      exact ⟨⟨id, seedPeers, rfl, hselect, hlisted⟩, hejected⟩
  · intro h
    obtain ⟨⟨id, seedPeers, hid, hselect, hlisted⟩, hejected⟩ := h
    obtain ⟨endpoints, hlive, hendpoint⟩ := (mem_liveEndpoints id).mpr ⟨hlisted, hejected⟩
    refine ⟨endpoints, ?_, hendpoint⟩
    rw [proxy.lookup_of_taskId fuel now hid, hselect, Option.map_some]
    exact congrArg some hlive

end

/-- Nothing that is done at an endpoint touches another one. -/
structure Separate (endpoint other : Str) : Prop where
  isEjected_eq : ∀ (crates : ProxyCrates) (proxy : Proxy crates) (calls : List EjectionCall),
    (∀ call ∈ calls, call.endpoint = endpoint) → ∀ now,
      (proxy.afterCalls calls).ejected now other = proxy.ejected now other
  finds_iff : ∀ (crates : ProxyCrates) (proxy : Proxy crates) (calls : List EjectionCall),
    (∀ call ∈ calls, call.endpoint = endpoint) → ∀ fuel now request,
      ((proxy.afterCalls calls).Finds fuel now request other ↔
        proxy.Finds fuel now request other)
  /-- A client that is taken from the pool, or put there, leaves the other entries to the cleanup. -/
  entry_eq : ∀ {γ ε : Type} (pool : Pool Str γ ε) (call : Pool.Call Str Str γ ε)
    (s : Pool.State Str γ), call.key = endpoint →
    (pool.entry call s).1.clients.lookup other =
      (pool.cleanupIdleEntries call.order call.now s).1.clients.lookup other

theorem separate_of_ne {endpoint other : Str} (h : endpoint ≠ other) : Separate endpoint other := by
  have hejected : ∀ (crates : ProxyCrates) (proxy : Proxy crates) (calls : List EjectionCall),
      (∀ call ∈ calls, call.endpoint = endpoint) → ∀ now,
        (proxy.afterCalls calls).ejected now other = proxy.ejected now other := by
    intro crates proxy calls hcalls now
    have hother : ∀ call ∈ calls, call.endpoint ≠ other :=
      fun call hmem heq => h ((hcalls call hmem).symm.trans heq)
    have hlookup := Ejections.lookup_foldl_of_ne calls hother proxy.seedPeerSelector.ejections
    unfold Proxy.ejected Proxy.afterCalls Ejections.isEjected
    simp only [hlookup]
  refine ⟨hejected, ?_, ?_⟩
  · intro crates proxy calls hcalls fuel now request
    rw [Proxy.finds_iff, Proxy.finds_iff, hejected crates proxy calls hcalls now]
    rfl
  · intro γ ε pool call s hkey
    exact Pool.lookup_getOrCreate_of_ne call _ (hkey ▸ h.symm)

/-! ### Two seed peers -/

/-- The endpoint is that of the address and the port of the host, and of no others. -/
def Denotes (endpoint : Str) (host : Host) : Prop :=
  ∃ ip port, IpAddr.parse host.ip = some ip ∧ readEndpoint endpoint = some (ip, port) ∧
    (port : Int) = host.proxyPort

/-- The two seed peers have endpoints of their own, if they have any. -/
def EjectedIndividually (a b : Host) : Prop :=
  (∃ err, proxyEndpoint a = .error err) ∨ (∃ err, proxyEndpoint b = .error err) ∨
    ∃ endpoint other, proxyEndpoint a = .ok endpoint ∧ proxyEndpoint b = .ok other ∧
      endpoint ≠ other ∧ Denotes endpoint a ∧ Denotes other b ∧
      Separate endpoint other ∧ Separate other endpoint

theorem proxyEndpoint_of_parse {host : Host} {ip : IpAddr} (h : IpAddr.parse host.ip = some ip) :
    proxyEndpoint host = .ok (formatUrl "http".toList ip (portOf host.proxyPort)) := by
  unfold proxyEndpoint
  rw [h]

theorem readEndpoint_of_parse (host : Host) (ip : IpAddr) :
    readEndpoint (formatUrl "http".toList ip (portOf host.proxyPort)) =
      some (ip, portOf host.proxyPort) := by
  have hport : portOf host.proxyPort < 65536 := by
    unfold portOf
    omega
  exact readEndpoint_formatUrl ip hport

/-- The endpoint of a host denotes it if and only if nothing of the port is cut off. -/
theorem denotes_iff {host : Host} {ip : IpAddr} (h : IpAddr.parse host.ip = some ip) :
    Denotes (formatUrl "http".toList ip (portOf host.proxyPort)) host ↔
      0 ≤ host.proxyPort ∧ host.proxyPort < 65536 := by
  have hport : (portOf host.proxyPort : Int) = host.proxyPort ↔
      0 ≤ host.proxyPort ∧ host.proxyPort < 65536 := by
    unfold portOf
    omega
  rw [← hport]
  constructor
  · intro hdenotes
    obtain ⟨ip', port, -, hread, heq⟩ := hdenotes
    rw [readEndpoint_of_parse] at hread
    obtain ⟨-, rfl⟩ := Prod.mk.inj (Option.some.inj hread)
    exact heq
  · intro heq
    exact ⟨ip, portOf host.proxyPort, h, readEndpoint_of_parse host ip, heq⟩

/-- **Two seed peers are ejected individually** if and only if their proxy ports fit in 16 bits. -/
theorem ejected_individually_iff (a b : Host) (ip ip' : IpAddr) (ha : IpAddr.parse a.ip = some ip)
    (hb : IpAddr.parse b.ip = some ip') (hdiffer : (ip, a.proxyPort) ≠ (ip', b.proxyPort)) :
    EjectedIndividually a b ↔
      (0 ≤ a.proxyPort ∧ a.proxyPort < 65536) ∧ (0 ≤ b.proxyPort ∧ b.proxyPort < 65536) := by
  have hok := proxyEndpoint_of_parse ha
  have hok' := proxyEndpoint_of_parse hb
  rw [← denotes_iff ha, ← denotes_iff hb]
  constructor
  · rintro (⟨err, herr⟩ | ⟨err, herr⟩ | ⟨endpoint, other, h, h', -, hdenotes, hdenotes', -⟩)
    · rw [hok] at herr
      cases herr
    · rw [hok'] at herr
      cases herr
    · rw [hok] at h
      rw [hok'] at h'
      obtain rfl := Except.ok.inj h
      obtain rfl := Except.ok.inj h'
      exact ⟨hdenotes, hdenotes'⟩
  · intro h
    have hport := (denotes_iff ha).mp h.1
    have hport' := (denotes_iff hb).mp h.2
    have hne : formatUrl "http".toList ip (portOf a.proxyPort) ≠
        formatUrl "http".toList ip' (portOf b.proxyPort) := by
      intro heq
      have hread := readEndpoint_of_parse a ip
      rw [heq, readEndpoint_of_parse b ip'] at hread
      obtain ⟨hip, hports⟩ := Prod.mk.inj (Option.some.inj hread)
      apply hdiffer
      rw [hip]
      unfold portOf at hports
      congr 1
      omega
    exact .inr (.inr ⟨_, _, hok, hok', hne, h.1, h.2, separate_of_ne hne, separate_of_ne hne.symm⟩)

/-- At two ports of one address. -/
theorem ejected_individually_iff_ports :
    EjectedIndividually ⟨"a".toList, "::1".toList, 4000, 4001⟩ ⟨"b".toList, "::1".toList, 4000, 4003⟩ := by
  have hparse : IpAddr.parse "::1".toList = some (.v6 ⟨[0, 0, 0, 0, 0, 0, 0, 1], rfl⟩) := by
    decide +kernel
  exact (ejected_individually_iff _ _ _ _ hparse hparse (by decide)).mpr (by decide)

/-- Ports that differ in what is cut off have one endpoint. -/
theorem not_ejectedIndividually : ¬ ∀ (a b : Host) (ip ip' : IpAddr),
    IpAddr.parse a.ip = some ip → IpAddr.parse b.ip = some ip' →
      (ip, a.proxyPort) ≠ (ip', b.proxyPort) → EjectedIndividually a b := by
  intro h
  have hparse : IpAddr.parse "127.0.0.1".toList = some (.v4 ⟨[127, 0, 0, 1], rfl⟩) := by
    decide +kernel
  rcases h ⟨"a".toList, "127.0.0.1".toList, 4000, 4001⟩ ⟨"b".toList, "127.0.0.1".toList, 4000, 69537⟩
    _ _ hparse hparse (by decide) with ⟨err, herr⟩ | ⟨err, herr⟩ | ⟨_, _, hok, hok', hne, -⟩
  · rw [proxyEndpoint_of_parse hparse] at herr
    cases herr
  · rw [proxyEndpoint_of_parse hparse] at herr
    cases herr
  · rw [proxyEndpoint_of_parse hparse] at hok
    rw [proxyEndpoint_of_parse hparse] at hok'
    obtain rfl := Except.ok.inj hok
    obtain rfl := Except.ok.inj hok'
    exact hne rfl

end DragonflySdk
