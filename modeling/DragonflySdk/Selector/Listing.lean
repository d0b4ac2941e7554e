import DragonflySdk.Foundation.Except
import DragonflySdk.Foundation.LastWrite
import DragonflySdk.Proxy
import DragonflySdk.Proxy.Go
import DragonflySdk.Selector.Update

/-!
# Listing the seed peers

`list_seed_peers` asks the scheduler for the hosts of seed peers and each of these for its health, and
`refresh` replaces the seed peers by what comes of it. A health check that fails makes its own seed
peer unhealthy, and no more. But in Rust the address of every host is parsed before it is asked, and
one that cannot be parsed fails the listing as a whole; and the port is cut to 16 bits, so that who
answers may be another seed peer (`listing_isolates_iff`).
-/

namespace DragonflySdk

open Foundation

/-- What comes of asking a seed peer for its health. -/
inductive HealthCheck
  | invalidAddr (err : Str)
  | notConnected (err : Str)
  | timedOut
  | refused (status : Status)
  /-- the serving status it answers with -/
  | answered (servingStatus : Int)
deriving DecidableEq

/-- `ServingStatus::Serving` -/
def serving : Int := 1

/-! ### In Rust -/

/-- Checks the health of a seed peer. -/
def checkHealth (addr : Str) : HealthCheck → Except Error Int
  | .invalidAddr err | .notConnected err => .error (.tonicTransportError err)
  | .timedOut => .error (.requestTimeout ("health check of ".toList ++ addr ++ " timed out".toList))
  | .refused status => .error (.tonicStatus status)
  | .answered servingStatus => .ok servingStatus

/-- The seed peer after its check. -/
def checked (host : Host) (check : Except Error Int) : SeedPeer :=
  match check with
  | .ok servingStatus => ⟨host, servingStatus = serving⟩
  | .error _ => ⟨host, false⟩

/-- The address of the health service of a host. -/
def healthAddr (host : Host) : Except Error Str :=
  match IpAddr.parse host.ip with
  | some ip => .ok (formatUrl "http".toList ip (portOf host.port))
  | none => .error .netAddrParseError

/-- Lists the seed peers with their health, as their checks finish; `listed` is what the scheduler
answers, `check i addr` what comes of the check of the `i`-th host. The tasks do not panic. -/
def listSeedPeers (listed : Except Status (List Host)) (check : Nat → Str → HealthCheck)
    (finish : FinishOrder) : Except Error (List SeedPeer) := do
  let hosts ← listed.mapError .tonicStatus
  let addrs ← hosts.mapM healthAddr
  let seedPeers := (hosts.zip addrs).mapIdx fun i (host, addr) =>
    checked host (checkHealth addr (check i addr))
  return collected (finish.order seedPeers.length) seedPeers

variable {crate : HashRingCrate}

/-- Refreshes the seed peers, unless another refresh is running; `names` is what the keys of the new
map yield. -/
def SeedPeers.refresh (s : SeedPeers crate) (running : Bool) (listed : Except Status (List Host))
    (check : Nat → Str → HealthCheck) (finish : FinishOrder) (names : List Str) :
    SeedPeers crate × Except Error Unit :=
  if running then (s, .ok ())
  else
    match listSeedPeers listed check finish with
    | .error err => (s, .error err)
    | .ok seedPeers => (s.update seedPeers names, .ok ())

/-! ### In Go -/

namespace Go

/-- Why a check finds a seed peer unhealthy. -/
inductive HealthError
  /-- the error of the connection or the call -/
  | call (check : HealthCheck)
  | notServing (addr : Str) (servingStatus : Int)

/-- Checks the health of a seed peer. -/
def checkHealth (addr : Str) : HealthCheck → Option HealthError
  | .answered servingStatus =>
    if servingStatus ≠ serving then some (.notServing addr servingStatus) else none
  | check => some (.call check)

/-- The address of the health service of a host. -/
def healthAddr (host : Host) : Str := joinHostPort host.ip (toString host.port).toList

/-- Lists the seed peers with their health, in the order of the hosts; `ctxErr` is the error of the
context after the checks. -/
def listSeedPeers (listed : Except Status (List Host)) (check : Nat → Str → HealthCheck)
    (ctxErr : Option Error) : Except Error (List SeedPeer) :=
  match listed with
  | .error status => .error (.status status)
  | .ok hosts =>
    let seedPeers := hosts.mapIdx fun i host =>
      (⟨some host, (checkHealth (healthAddr host) (check i (healthAddr host))).isNone⟩ : SeedPeer)
    match ctxErr with
    | some err => .error err
    | none => .ok seedPeers

/-- Refreshes the seed peers, unless another refresh is running. -/
def refresh (s : SeedPeers crate) (running : Bool) (listed : Except Status (List Host))
    (check : Nat → Str → HealthCheck) (ctxErr : Option Error) (names : List Str) :
    SeedPeers crate × Except Error Unit :=
  if running then (s, .ok ())
  else
    match listSeedPeers listed check ctxErr with
    | .error err => (s, .error err)
    | .ok seedPeers => (update s seedPeers names, .ok ())

end Go

/-! ### What is to be listed -/

/-- The seed peers of the hosts: healthy are those that have an address and answer there that they
are serving. -/
def seedPeersOf (addrOf : Host → Option Str) (check : Nat → Str → HealthCheck) (hosts : List Host) :
    List SeedPeer :=
  hosts.mapIdx fun i host =>
    ⟨host, (addrOf host).any fun addr => check i addr = .answered serving⟩

/-- What is listed in Rust, if every host has an address. -/
abbrev rustSeedPeers (check : Nat → Str → HealthCheck) (hosts : List Host) : List SeedPeer :=
  seedPeersOf (fun host => (healthAddr host).toOption) check hosts

/-- What is listed in Go. -/
abbrev goSeedPeers (check : Nat → Str → HealthCheck) (hosts : List Host) : List SeedPeer :=
  seedPeersOf (fun host => some (Go.healthAddr host)) check hosts

theorem checked_checkHealth (host : Host) (addr : Str) (check : HealthCheck) :
    checked host (checkHealth addr check) = ⟨host, check = .answered serving⟩ := by
  cases check <;> simp [checkHealth, checked]

theorem isNone_checkHealth (addr : Str) (check : HealthCheck) :
    (Go.checkHealth addr check).isNone = decide (check = .answered serving) := by
  cases check with
  | answered servingStatus =>
    by_cases h : servingStatus = serving <;> simp [Go.checkHealth, h]
  | _ => rfl

theorem exists_healthAddr_iff {host : Host} :
    (∃ addr, healthAddr host = .ok addr) ↔ (IpAddr.parse host.ip).isSome = true := by
  unfold healthAddr
  cases IpAddr.parse host.ip <;> simp

theorem listSeedPeers_eq {hosts : List Host}
    (hips : ∀ host ∈ hosts, (IpAddr.parse host.ip).isSome = true)
    (check : Nat → Str → HealthCheck) (finish : FinishOrder) :
    listSeedPeers (.ok hosts) check finish =
      .ok (collected (finish.order (rustSeedPeers check hosts).length)
        (rustSeedPeers check hosts)) := by
  obtain ⟨addrs, haddrs⟩ := exists_mapM_eq_ok fun host hmem => exists_healthAddr_iff.mpr (hips host hmem)
  have hpairs := mapM_eq_ok_iff.mp haddrs
  have hseedPeers : ((hosts.zip addrs).mapIdx fun i (host, addr) =>
      checked host (checkHealth addr (check i addr))) = rustSeedPeers check hosts := by
    refine List.ext_getElem (by simp [seedPeersOf, hpairs.length_eq]) fun i hi hi' => ?_
    have hlt : i < hosts.length := by simpa [seedPeersOf] using hi'
    have hlt' : i < addrs.length := hpairs.length_eq ▸ hlt
    have haddr : healthAddr hosts[i] = .ok addrs[i] := hpairs.get hlt hlt'
    rw [List.getElem_mapIdx, List.getElem_zip]
    simp only [checked_checkHealth, seedPeersOf, List.getElem_mapIdx, haddr, Except.toOption,
      Option.any_some]
  have hlisted : listSeedPeers (.ok hosts) check finish = (do
      let addrs ← hosts.mapM healthAddr
      let seedPeers := (hosts.zip addrs).mapIdx fun i (host, addr) =>
        checked host (checkHealth addr (check i addr))
      return collected (finish.order seedPeers.length) seedPeers) := rfl
  rw [hlisted, haddrs, ← hseedPeers]
  rfl

/-- One host without an address, and nothing is listed. -/
theorem isSome_of_listSeedPeers_eq_ok {hosts : List Host} {check : Nat → Str → HealthCheck}
    {finish : FinishOrder} {seedPeers : List SeedPeer}
    (h : listSeedPeers (.ok hosts) check finish = .ok seedPeers) :
    ∀ host ∈ hosts, (IpAddr.parse host.ip).isSome = true := by
  obtain ⟨hosts', heq, hrest⟩ := bind_eq_ok_iff.mp h
  obtain rfl := Except.ok.inj heq
  obtain ⟨addrs, haddrs, _⟩ := bind_eq_ok_iff.mp hrest
  have hpairs := mapM_eq_ok_iff.mp haddrs
  intro host hmem
  obtain ⟨i, hi, rfl⟩ := List.getElem_of_mem hmem
  exact exists_healthAddr_iff.mp ⟨_, hpairs.get hi (hpairs.length_eq ▸ hi)⟩

/-- A seed peer as Go lists it. -/
def Go.ofSeedPeer (seedPeer : DragonflySdk.SeedPeer) : Go.SeedPeer :=
  ⟨some seedPeer.host, seedPeer.healthy⟩

/-- The seed peers that Go lists, those without a host left out. -/
def Go.withHosts (seedPeers : List Go.SeedPeer) : List DragonflySdk.SeedPeer :=
  seedPeers.filterMap fun seedPeer => seedPeer.host.map fun host => ⟨host, seedPeer.healthy⟩

theorem withHosts_map (seedPeers : List SeedPeer) :
    Go.withHosts (seedPeers.map Go.ofSeedPeer) = seedPeers := by
  rw [Go.withHosts, List.filterMap_map]
  exact List.filterMap_some

theorem go_hostsOf_map (seedPeers : List SeedPeer) :
    Go.hostsOf (seedPeers.map Go.ofSeedPeer) = hostsOf seedPeers := by
  rw [Go.hostsOf_eq]
  exact congrArg hostsOf (withHosts_map seedPeers)

theorem go_listSeedPeers_eq (hosts : List Host) (check : Nat → Str → HealthCheck) :
    Go.listSeedPeers (.ok hosts) check none =
      .ok ((goSeedPeers check hosts).map Go.ofSeedPeer) := by
  refine congrArg Except.ok (List.ext_getElem (by simp [seedPeersOf]) fun i hi hi' => ?_)
  simp only [List.getElem_map, seedPeersOf, List.getElem_mapIdx, isNone_checkHealth,
    Option.any_some, Go.ofSeedPeer]

/-! ### What one host does to the others -/

/-- A listing and the refresh by it, where the seed peers to be listed are known: each is listed once,
and the refresh leaves one of each name. -/
structure Isolates {ε : Type} (seedPeers : List SeedPeer) (listed : Except ε (List SeedPeer))
    (refreshed : SeedPeers crate × Except ε Unit) : Prop where
  listed_perm : ∃ list, listed = .ok list ∧ list.Perm seedPeers
  refreshed_ok : refreshed.2 = .ok ()
  mem_of_get : ∀ name seedPeer, refreshed.1.hosts.get name = some seedPeer → seedPeer ∈ seedPeers
  get_isSome : ∀ seedPeer ∈ seedPeers, (refreshed.1.hosts.get seedPeer.host.name).isSome = true

theorem get_isSome_hostsOf {seedPeers : List SeedPeer} {seedPeer : SeedPeer}
    (h : seedPeer ∈ seedPeers) : ((hostsOf seedPeers).get seedPeer.host.name).isSome = true :=
  Hosts.get_isSome_iff.mpr (mem_keys_hostsOf.mpr (List.mem_map_of_mem h))

theorem Isolates.of_perm {ε : Type} {seedPeers list : List SeedPeer} {listed : Except ε (List SeedPeer)}
    {refreshed : SeedPeers crate × Except ε Unit} (hlisted : listed = .ok list)
    (hperm : list.Perm seedPeers) (hok : refreshed.2 = .ok ())
    (hhosts : refreshed.1.hosts = hostsOf list) : Isolates seedPeers listed refreshed where
  listed_perm := ⟨list, hlisted, hperm⟩
  refreshed_ok := hok
  mem_of_get name seedPeer hget := hperm.mem_iff.mp (mem_of_get_hostsOf (hhosts ▸ hget))
  get_isSome seedPeer hmem := by
    rw [hhosts]
    exact get_isSome_hostsOf (hperm.mem_iff.mpr hmem)

theorem refresh_eq {hosts : List Host} (hips : ∀ host ∈ hosts, (IpAddr.parse host.ip).isSome = true)
    (s : SeedPeers crate) (check : Nat → Str → HealthCheck) (finish : FinishOrder)
    (names : List Str) : s.refresh false (.ok hosts) check finish names =
      (s.update (collected (finish.order (rustSeedPeers check hosts).length)
        (rustSeedPeers check hosts)) names, .ok ()) := by
  unfold SeedPeers.refresh
  rw [if_neg Bool.false_ne_true, listSeedPeers_eq hips]

theorem go_refresh_eq (hosts : List Host) (s : SeedPeers crate) (check : Nat → Str → HealthCheck)
    (names : List Str) : Go.refresh s false (.ok hosts) check none names =
      (Go.update s ((goSeedPeers check hosts).map Go.ofSeedPeer) names, .ok ()) := by
  unfold Go.refresh
  rw [if_neg Bool.false_ne_true, go_listSeedPeers_eq]

theorem go_update_hosts (s : SeedPeers crate) (seedPeers : List SeedPeer) (names : List Str) :
    (Go.update s (seedPeers.map Go.ofSeedPeer) names).hosts = hostsOf seedPeers := by
  rw [← go_hostsOf_map]
  unfold Go.update
  simp only
  split <;> rfl

/-! ### The two listings -/

/-- Both clients ask the same seed peers for their health: at an IP address and a port of 16 bits they
come to the same, and at another port Go comes to no answer. -/
structure SamePeers (hosts : List Host) (check goCheck : Nat → Str → HealthCheck) : Prop where
  same : ∀ i host ip, hosts[i]? = some host → IpAddr.parse host.ip = some ip →
    0 ≤ host.port → host.port < 65536 →
      check i (formatUrl "http".toList ip host.port.toNat) = goCheck i (Go.healthAddr host)
  invalid : ∀ i host, hosts[i]? = some host → ¬ (0 ≤ host.port ∧ host.port < 65536) →
    ∀ servingStatus, goCheck i (Go.healthAddr host) ≠ .answered servingStatus

/-- The `i`-th host is asked at its own address, or else nobody is serving where it is asked: the port
that is left of its own, cut to 16 bits. -/
def AskedAtAddress (check : Nat → Str → HealthCheck) (i : Nat) (host : Host) : Prop :=
  ∃ ip, IpAddr.parse host.ip = some ip ∧ ((0 ≤ host.port ∧ host.port < 65536) ∨
    check i (formatUrl "http".toList ip (portOf host.port)) ≠ .answered serving)

theorem portOf_eq {port : Int} (hpos : 0 ≤ port) (hlt : port < 65536) :
    portOf port = port.toNat := by
  rw [portOf, Int.emod_eq_of_lt hpos hlt]

theorem count_true_le {bs cs : List Bool}
    (h : List.Forall₂ (fun b c => c = true → b = true) bs cs) : cs.count true ≤ bs.count true := by
  induction h with
  | nil => exact Nat.le_refl _
  | @cons b c bs cs himp _ ih =>
    cases c with
    | true =>
      rw [himp rfl, List.count_cons_self, List.count_cons_self]
      omega
    | false =>
      rw [List.count_cons_of_ne Bool.false_ne_true]
      exact ih.trans (List.count_le_count_cons)

theorem eq_of_count_true_eq {bs cs : List Bool}
    (h : List.Forall₂ (fun b c => c = true → b = true) bs cs)
    (hcount : bs.count true = cs.count true) : bs = cs := by
  induction h with
  | nil => rfl
  | @cons b c bs cs himp hrest ih =>
    have hle := count_true_le hrest
    cases c with
    | true =>
      rw [himp rfl, List.count_cons_self, List.count_cons_self] at hcount
      rw [himp rfl, ih (by omega)]
    | false =>
      cases b with
      | true =>
        rw [List.count_cons_self, List.count_cons_of_ne Bool.false_ne_true] at hcount
        omega
      | false =>
        rw [List.count_cons_of_ne Bool.false_ne_true, List.count_cons_of_ne Bool.false_ne_true]
          at hcount
        rw [ih hcount]

section same
variable {hosts : List Host} {check goCheck : Nat → Str → HealthCheck}

theorem rust_serving_iff {i : Nat} {host : Host} {ip : IpAddr}
    (hip : IpAddr.parse host.ip = some ip) :
    ((healthAddr host).toOption.any fun addr => decide (check i addr = .answered serving)) = true ↔
      check i (formatUrl "http".toList ip (portOf host.port)) = .answered serving := by
  rw [healthAddr, hip]
  exact decide_eq_true_iff

/-- A host with an IP address is serving for Go only where it is for Rust, and, when it is asked at its
address, wherever it is for Rust. -/
theorem SamePeers.host (h : SamePeers hosts check goCheck) {i : Nat} {host : Host} {ip : IpAddr}
    (hi : hosts[i]? = some host) (hip : IpAddr.parse host.ip = some ip) :
    (goCheck i (Go.healthAddr host) = .answered serving →
      check i (formatUrl "http".toList ip (portOf host.port)) = .answered serving) ∧
    (AskedAtAddress check i host → check i (formatUrl "http".toList ip (portOf host.port)) =
      .answered serving → goCheck i (Go.healthAddr host) = .answered serving) := by
  by_cases hport : 0 ≤ host.port ∧ host.port < 65536
  · have hcheck := h.same i host ip hi hip hport.1 hport.2
    rw [portOf_eq hport.1 hport.2, hcheck]
    exact ⟨id, fun _ => id⟩
  · refine ⟨fun hserving => absurd hserving (h.invalid i host hi hport _), ?_⟩
    rintro ⟨ip', hip', hcase⟩ hserving
    obtain rfl := Option.some.inj (hip'.symm.trans hip)
    exact absurd hserving (hcase.resolve_left hport)

/-- Both list the same just when every host is asked at its address: Go finds no more of them healthy,
and if as many, then the same. -/
theorem perm_goSeedPeers_iff (hsame : SamePeers hosts check goCheck)
    (hips : ∀ host ∈ hosts, (IpAddr.parse host.ip).isSome = true) :
    (rustSeedPeers check hosts).Perm (goSeedPeers goCheck hosts) ↔
      ∀ i host, hosts[i]? = some host → AskedAtAddress check i host := by
  have hlength : (rustSeedPeers check hosts).length = (goSeedPeers goCheck hosts).length := by
    simp [seedPeersOf]
  constructor
  · intro hperm
    have hforall : List.Forall₂ (fun b c => c = true → b = true)
        ((rustSeedPeers check hosts).map SeedPeer.healthy)
        ((goSeedPeers goCheck hosts).map SeedPeer.healthy) := by
      rw [List.forall₂_iff_get]
      refine ⟨by simpa using hlength, fun i hi hi' => ?_⟩
      have hlt : i < hosts.length := by simpa [seedPeersOf] using hi
      obtain ⟨ip, hip⟩ := Option.isSome_iff_exists.mp (hips hosts[i] (List.getElem_mem hlt))
      simp only [List.get_eq_getElem, List.getElem_map, seedPeersOf, List.getElem_mapIdx,
        rust_serving_iff hip, Option.any_some, decide_eq_true_eq]
      exact (hsame.host (List.getElem?_eq_getElem hlt) hip).1
    have heq := eq_of_count_true_eq hforall ((hperm.map SeedPeer.healthy).count_eq true)
    intro i host hi
    obtain ⟨hlt, rfl⟩ := List.getElem?_eq_some_iff.mp hi
    obtain ⟨ip, hip⟩ := Option.isSome_iff_exists.mp (hips hosts[i] (List.getElem_mem hlt))
    refine ⟨ip, hip, ?_⟩
    by_contra hcase
    obtain ⟨hport, hserving⟩ := not_or.mp hcase
    have hflag := congrArg (fun flags => flags[i]?) heq
    simp only [seedPeersOf, List.getElem?_map, List.getElem?_mapIdx, hi, Option.map_some,
      Option.any_some, Option.some.injEq] at hflag
    rw [(rust_serving_iff hip).mpr (not_not.mp hserving)] at hflag
    exact hsame.invalid i _ hi hport _ (decide_eq_true_iff.mp hflag.symm)
  · intro hasked
    refine List.Perm.of_eq (List.ext_getElem hlength fun i hi hi' => ?_)
    have hlt : i < hosts.length := by simpa [seedPeersOf] using hi
    have hget : hosts[i]? = some hosts[i] := List.getElem?_eq_getElem hlt
    obtain ⟨ip, hip⟩ := Option.isSome_iff_exists.mp (hips hosts[i] (List.getElem_mem hlt))
    obtain ⟨himp, hback⟩ := hsame.host hget hip
    simp only [seedPeersOf, List.getElem_mapIdx, Option.any_some, SeedPeer.mk.injEq, true_and]
    rw [Bool.eq_iff_iff, rust_serving_iff hip, decide_eq_true_iff]
    exact ⟨hback (hasked i _ hget), himp⟩

end same

/-- **One host does not keep the others from being listed, as Go lists them, just when every host has
an IP address** and nobody else is asked in its place; in Go none does. -/
theorem listing_isolates_iff (rust go : HashRingCrate) (s : SeedPeers rust) (goState : SeedPeers go)
    (hosts : List Host) (check goCheck : Nat → Str → HealthCheck)
    (hsame : SamePeers hosts check goCheck) (finish : FinishOrder) (names goNames : List Str) :
    (Isolates (goSeedPeers goCheck hosts) (listSeedPeers (.ok hosts) check finish)
        (s.refresh false (.ok hosts) check finish names) ↔
      ∀ i host, hosts[i]? = some host → AskedAtAddress check i host) ∧
    Isolates (goSeedPeers goCheck hosts)
      ((Go.listSeedPeers (.ok hosts) goCheck none).map Go.withHosts)
      (Go.refresh goState false (.ok hosts) goCheck none goNames) := by
  constructor
  · constructor
    · intro h
      obtain ⟨list, hlisted, hperm⟩ := h.listed_perm
      have hips := isSome_of_listSeedPeers_eq_ok hlisted
      rw [listSeedPeers_eq hips] at hlisted
      obtain rfl := Except.ok.inj hlisted
      exact (perm_goSeedPeers_iff hsame hips).mp
        ((collected_perm (finish.perm _)).symm.trans hperm)
    · intro hasked
      have hips : ∀ host ∈ hosts, (IpAddr.parse host.ip).isSome = true := by
        intro host hmem
        obtain ⟨i, hi⟩ := List.mem_iff_getElem?.mp hmem
        obtain ⟨ip, hip, _⟩ := hasked i host hi
        rw [hip]
        rfl
      have hrefresh := refresh_eq hips s check finish names
      refine Isolates.of_perm (listSeedPeers_eq hips check finish)
        ((collected_perm (finish.perm _)).trans ((perm_goSeedPeers_iff hsame hips).mpr hasked)) ?_ ?_
      · rw [hrefresh]
      · rw [hrefresh]
        exact SeedPeers.update_hosts _ _ _
  · have hrefresh := go_refresh_eq hosts goState goCheck goNames
    refine Isolates.of_perm ?_ (List.Perm.refl _) ?_ ?_
    · rw [go_listSeedPeers_eq]
      exact congrArg Except.ok (withHosts_map _)
    · rw [hrefresh]
    · rw [hrefresh]
      exact go_update_hosts _ _ _

/-- One seed peer at its address, one whose port has no 16 bits. -/
def exampleListed : List Host :=
  [exampleHost "seed-peer-1".toList,
    { exampleHost "seed-peer-2".toList with ip := "::0001".toList, port := 69537 }]

/-- The first one is serving, and nobody is at the port left of the second. -/
def exampleCheck : Nat → Str → HealthCheck
  | 0, _ => .answered serving
  | _, _ => .timedOut

theorem listing_isolates_iff_ports :
    Isolates (goSeedPeers exampleCheck exampleListed)
      (listSeedPeers (.ok exampleListed) exampleCheck ⟨List.range, fun _ => List.Perm.refl _⟩)
      ((@SeedPeers.new nameRing).refresh false (.ok exampleListed) exampleCheck
        ⟨List.range, fun _ => List.Perm.refl _⟩ []) := by
  have hsame : SamePeers exampleListed exampleCheck exampleCheck := by
    refine ⟨fun i host ip _ _ _ _ => ?_, fun i host hi hport => ?_⟩
    · cases i <;> rfl
    · cases i with
      | zero =>
        obtain rfl := Option.some.inj hi
        exact absurd (by decide) hport
      | succ i => exact nofun
  refine (listing_isolates_iff nameRing nameRing _ SeedPeers.new exampleListed exampleCheck
    exampleCheck hsame _ [] []).1.mpr fun i host hi => ?_
  have hips : ∀ host ∈ exampleListed, (IpAddr.parse host.ip).isSome = true := by decide +kernel
  obtain ⟨ip, hip⟩ := Option.isSome_iff_exists.mp (hips host (List.mem_of_getElem? hi))
  refine ⟨ip, hip, ?_⟩
  cases i with
  | zero =>
    obtain rfl := Option.some.inj hi
    exact .inl (by decide)
  | succ i => exact .inr nofun

/-- The first host has no address, the second one is as it should be. -/
def exampleMalformed : List Host :=
  [{ exampleHost "seed-peer-1".toList with ip := [] }, exampleHost "seed-peer-2".toList]

/-- The second seed peer is serving, and not listed. -/
theorem not_isolates :
    ¬ Isolates (goSeedPeers (fun _ _ => .answered serving) exampleMalformed)
      (listSeedPeers (.ok exampleMalformed) (fun _ _ => .answered serving)
        ⟨List.range, fun _ => List.Perm.refl _⟩)
      ((@SeedPeers.new nameRing).refresh false (.ok exampleMalformed)
        (fun _ _ => .answered serving) ⟨List.range, fun _ => List.Perm.refl _⟩ []) := by
  intro h
  have hok := h.refreshed_ok
  revert hok
  decide +kernel

end DragonflySdk
