import DragonflySdk.Selector.Listing
import DragonflySdk.Selector.Select

/-!
# Health checks that finish in any order

A refresh in Rust collects the seed peers as their health checks finish, and writes them into a map
by host name, in which the last of a name stays; in Go they are collected in the order of the hosts.
So whichever check finishes last does not matter just when no two listed seed peers of one name
differ (`refresh_order_iff`): of a restarted seed peer and its stale record, either may stay.
-/

namespace DragonflySdk

open Foundation

variable {crate : HashRingCrate}

/-- The name by which a seed peer is kept. -/
abbrev SeedPeer.name (seedPeer : SeedPeer) : Str := seedPeer.host.name

theorem get_hostsOf_eq (seedPeers : List SeedPeer) (name : Str) :
    (hostsOf seedPeers).get name = lastWrite SeedPeer.name seedPeers name := by
  induction seedPeers using List.reverseRecOn with
  | nil => exact Finmap.lookup_empty name
  | append_singleton seedPeers seedPeer ih =>
    rw [hostsOf_concat, Hosts.get_insert, lastWrite_concat, ih]

theorem Hosts.ext_get {hosts hosts' : Hosts} (h : ∀ name, hosts.get name = hosts'.get name) :
    hosts = hosts' :=
  Hosts.ext (Finmap.ext_lookup h)

theorem hostsOf_eq_of_perm {seedPeers list : List SeedPeer}
    (h : Unambiguous SeedPeer.name seedPeers) (hperm : list.Perm seedPeers) :
    hostsOf list = hostsOf seedPeers := by
  apply Hosts.ext_get
  intro name
  rw [get_hostsOf_eq, get_hostsOf_eq, lastWrite_perm h hperm]

/-! ### What refreshes leave -/

section
variable (hosts : List Host) (check : Nat → Str → HealthCheck)

/-- What a refresh may leave, for some order in which the checks finish and the map yields its
keys. -/
def Refreshes (s : SeedPeers crate) (left : SeedPeers crate) : Prop :=
  ∃ (finish : FinishOrder) (names : List Str),
    (hostsOf (collected (finish.order (rustSeedPeers check hosts).length)
      (rustSeedPeers check hosts))).Yields names ∧
    s.refresh false (.ok hosts) check finish names = (left, .ok ())

/-- What a refresh in Go may leave. -/
def Go.Refreshes (s : SeedPeers crate) (left : SeedPeers crate) : Prop :=
  ∃ names, (Go.hostsOf ((goSeedPeers check hosts).map Go.ofSeedPeer)).Yields names ∧
    Go.refresh s false (.ok hosts) check none names = (left, .ok ())

/-- Refreshes by the same hosts and outcomes leave the same, whatever the order, and in Go. -/
structure OrderIrrelevant {rust go : HashRingCrate} (s : SeedPeers rust) (goState : SeedPeers go) :
    Prop where
  left_eq : ∀ left left', Refreshes hosts check s left → Refreshes hosts check s left' → left = left'
  /-- All healthy seed peers are the same, in whatever order the maps yield their keys. -/
  selectAll_eq : ∀ left left' names names', Refreshes hosts check s left →
    Refreshes hosts check s left' → left.hosts.Yields names → left'.hosts.Yields names' →
    (left.selectAll names).map Multiset.ofList = (left'.selectAll names').map Multiset.ofList
  /-- Go has the same hosts, and the ring of their names. -/
  go_eq : ∀ left goLeft, Refreshes hosts check s left → Go.Refreshes hosts check goState goLeft →
    left.hosts = goLeft.hosts ∧ ∀ names, left.hosts.Yields names →
      left.hashring = rust.build names ∧ goLeft.hashring = go.build names

variable {hosts check}

theorem Refreshes.exists_perm (hcrate : crate.Lawful)
    (hips : ∀ host ∈ hosts, (IpAddr.parse host.ip).isSome = true) {s left : SeedPeers crate}
    (hs : Builds crate s.hosts s.hashring) (h : Refreshes hosts check s left) :
    ∃ list names, list.Perm (rustSeedPeers check hosts) ∧ (hostsOf list).Yields names ∧
      left = ⟨hostsOf list, crate.build names⟩ := by
  obtain ⟨finish, names, hnames, hrefresh⟩ := h
  rw [refresh_eq hips, updates_rust.update_eq_rebuild hcrate hs _ hnames] at hrefresh
  exact ⟨_, names, collected_perm (finish.perm _), hnames, (congrArg Prod.fst hrefresh).symm⟩

theorem eq_of_go_refreshes (hcrate : crate.Lawful) {s left : SeedPeers crate}
    (hs : Builds crate s.hosts s.hashring) (h : Go.Refreshes hosts check s left) :
    ∃ names, (hostsOf (goSeedPeers check hosts)).Yields names ∧
      left = ⟨hostsOf (goSeedPeers check hosts), crate.build names⟩ := by
  obtain ⟨names, hnames, hrefresh⟩ := h
  rw [go_refresh_eq, updates_go.update_eq_rebuild hcrate hs _ hnames, go_hostsOf_map] at hrefresh
  rw [go_hostsOf_map] at hnames
  exact ⟨names, hnames, (congrArg Prod.fst hrefresh).symm⟩

theorem Refreshes.left_of_unambiguous (hcrate : crate.Lawful)
    (hips : ∀ host ∈ hosts, (IpAddr.parse host.ip).isSome = true) {s left : SeedPeers crate}
    (hs : Builds crate s.hosts s.hashring)
    (hunambiguous : Unambiguous SeedPeer.name (rustSeedPeers check hosts))
    (h : Refreshes hosts check s left) :
    left.hosts = hostsOf (rustSeedPeers check hosts) ∧
      ∀ names, left.hosts.Yields names → left.hashring = crate.build names := by
  obtain ⟨list, names, hperm, hnames, rfl⟩ := h.exists_perm hcrate hips hs
  refine ⟨hostsOf_eq_of_perm hunambiguous hperm, fun names' hnames' => ?_⟩
  exact hcrate.build_perm _ _ (hnames.perm hnames' rfl) hnames.nodup

theorem Refreshes.eq_of_unambiguous (hcrate : crate.Lawful)
    (hips : ∀ host ∈ hosts, (IpAddr.parse host.ip).isSome = true) {s left left' : SeedPeers crate}
    (hs : Builds crate s.hosts s.hashring)
    (hunambiguous : Unambiguous SeedPeer.name (rustSeedPeers check hosts))
    (h : Refreshes hosts check s left) (h' : Refreshes hosts check s left') : left = left' := by
  obtain ⟨hhosts, hring⟩ := h.left_of_unambiguous hcrate hips hs hunambiguous
  obtain ⟨hhosts', hring'⟩ := h'.left_of_unambiguous hcrate hips hs hunambiguous
  obtain ⟨names, hnames⟩ := Hosts.exists_yields left.hosts
  have hnames' : left'.hosts.Yields names := by rwa [hhosts', ← hhosts]
  exact SeedPeers.ext (hhosts.trans hhosts'.symm)
    ((hring names hnames).trans (hring' names hnames').symm)

theorem exists_refreshes_last (hips : ∀ host ∈ hosts, (IpAddr.parse host.ip).isSome = true)
    (s : SeedPeers crate) {seedPeer : SeedPeer} (hmem : seedPeer ∈ rustSeedPeers check hosts) :
    ∃ left before, Refreshes hosts check s left ∧ left.hosts = hostsOf (before ++ [seedPeer]) := by
  obtain ⟨i, hi, rfl⟩ := List.getElem_of_mem hmem
  obtain ⟨before, hbefore⟩ := collected_lastOrder hi
  obtain ⟨names, hnames⟩ := Hosts.exists_yields (hostsOf (collected
    (lastOrder i (rustSeedPeers check hosts).length) (rustSeedPeers check hosts)))
  refine ⟨_, before, ⟨⟨lastOrder i, lastOrder_perm i⟩, names, hnames, refresh_eq hips _ _ _ _⟩, ?_⟩
  rw [SeedPeers.update_hosts, hbefore]

end

theorem goSeedPeers_eq {hosts : List Host}
    (hips : ∀ host ∈ hosts, (IpAddr.parse host.ip).isSome = true) (outcomes : Nat → HealthCheck) :
    goSeedPeers (fun i _ => outcomes i) hosts = rustSeedPeers (fun i _ => outcomes i) hosts := by
  refine List.ext_getElem (by simp [seedPeersOf]) fun i hi hi' => ?_
  have hlt : i < hosts.length := by simpa [seedPeersOf] using hi
  obtain ⟨addr, haddr⟩ := exists_healthAddr_iff.mpr (hips _ (List.getElem_mem hlt))
  simp only [seedPeersOf, List.getElem_mapIdx, haddr, Except.toOption, Option.any_some]

theorem perm_selectAll {s : SeedPeers crate} {names names' : List Str}
    (h : s.hosts.Yields names) (h' : s.hosts.Yields names') :
    (s.selectAll names).map Multiset.ofList = (s.selectAll names').map Multiset.ofList := by
  have hperm : (((names.filterMap s.hosts.get).filter SeedPeer.healthy).map SeedPeer.host).Perm
      (((names'.filterMap s.hosts.get).filter SeedPeer.healthy).map SeedPeer.host) :=
    (((h.perm h' rfl).filterMap _).filter _).map _
  unfold SeedPeers.selectAll
  simp only
  by_cases hnil : ((names.filterMap s.hosts.get).filter SeedPeer.healthy).map SeedPeer.host = []
  · have hnil' := hperm
    rw [hnil] at hnil'
    rw [if_pos hnil, if_pos hnil'.nil_eq.symm]
  · have hnil' : ((names'.filterMap s.hosts.get).filter SeedPeer.healthy).map SeedPeer.host ≠ [] := by
      intro hzero
      rw [hzero] at hperm
      exact hnil hperm.eq_nil
    rw [if_neg hnil, if_neg hnil']
    exact congrArg Except.ok (Multiset.coe_eq_coe.mpr hperm)

/-- **The order in which the health checks finish does not matter just when no two of the listed seed
peers have the same name** and another host or health. -/
theorem refresh_order_iff (rust go : HashRingCrate) (hrust : rust.Lawful) (hgo : go.Lawful)
    (s : SeedPeers rust) (hs : Reachable (updateSteps rust) s) (goState : SeedPeers go)
    (hgoState : Reachable (Go.updateSteps go) goState) (hosts : List Host)
    (hips : ∀ host ∈ hosts, (IpAddr.parse host.ip).isSome = true) (outcomes : Nat → HealthCheck) :
    OrderIrrelevant hosts (fun i _ => outcomes i) s goState ↔
      Unambiguous SeedPeer.name (rustSeedPeers (fun i _ => outcomes i) hosts) := by
  have hbuilds := updates_rust.builds_of_reachable hs
  have hgoBuilds := updates_go.builds_of_reachable hgoState
  constructor
  · intro h
    rcases hlist : rustSeedPeers (fun i _ => outcomes i) hosts with _ | ⟨first, rest⟩
    · exact fun a ha => absurd ha List.not_mem_nil
    · rw [← hlist]
      have hfirst : first ∈ rustSeedPeers (fun i _ => outcomes i) hosts := by
        rw [hlist]
        exact List.mem_cons_self
      obtain ⟨left, _, hleft, _⟩ := exists_refreshes_last hips s hfirst
      apply unambiguous_of_last left.hosts.get
      intro seedPeer hmem
      obtain ⟨left', before, hleft', hhosts⟩ := exists_refreshes_last hips s hmem
      refine ⟨before, fun name => ?_⟩
      rw [h.left_eq left left' hleft hleft', hhosts, get_hostsOf_eq]
  · intro h
    have hsame : ∀ left left', Refreshes hosts (fun i _ => outcomes i) s left →
        Refreshes hosts (fun i _ => outcomes i) s left' → left = left' :=
      fun left left' hrefreshes hrefreshes' => hrefreshes.eq_of_unambiguous hrust hips hbuilds h
        hrefreshes'
    refine ⟨hsame, fun left left' names names' hrefreshes hrefreshes' hnames hnames' => ?_,
      fun left goLeft hrefreshes hgoRefreshes => ?_⟩
    · rw [← hsame left left' hrefreshes hrefreshes'] at hnames' ⊢
      exact perm_selectAll hnames hnames'
    · obtain ⟨hhosts, hring⟩ := hrefreshes.left_of_unambiguous hrust hips hbuilds h
      obtain ⟨goNames, hgoNames, rfl⟩ := eq_of_go_refreshes hgo hgoBuilds hgoRefreshes
      rw [goSeedPeers_eq hips] at hgoNames ⊢
      refine ⟨hhosts, fun names hnames => ⟨hring names hnames, ?_⟩⟩
      rw [hhosts] at hnames
      exact hgo.build_perm _ _ (hgoNames.perm hnames rfl) hgoNames.nodup

/-! ### A restarted seed peer -/

/-- The scheduler still lists the seed peer where it was before. -/
def exampleRestarted : List Host :=
  [exampleHost "seed-peer-1".toList,
    { exampleHost "seed-peer-1".toList with ip := "127.0.0.2".toList }]

/-- It does not answer there. -/
def exampleChecks (i : Nat) : HealthCheck := if i = 0 then .answered serving else .timedOut

theorem refresh_order_iff_restarted :
    OrderIrrelevant exampleRestarted (fun i _ => exampleChecks i) exampleRust exampleGo ↔
      Unambiguous SeedPeer.name (rustSeedPeers (fun i _ => exampleChecks i) exampleRestarted) :=
  refresh_order_iff nameRing nameRing nameRing.lawful nameRing.lawful exampleRust
    reachable_exampleRust exampleGo reachable_exampleGo exampleRestarted (by decide +kernel)
    exampleChecks

/-- Whichever check finishes last, its seed peer stays. -/
theorem not_orderIrrelevant :
    ¬ OrderIrrelevant exampleRestarted (fun i _ => exampleChecks i) exampleRust exampleGo := by
  intro h
  have hips : ∀ host ∈ exampleRestarted, (IpAddr.parse host.ip).isSome = true := by decide +kernel
  have hfirst : ⟨exampleHost "seed-peer-1".toList, true⟩ ∈
      rustSeedPeers (fun i _ => exampleChecks i) exampleRestarted := by decide +kernel
  have hsecond : ⟨{ exampleHost "seed-peer-1".toList with ip := "127.0.0.2".toList }, false⟩ ∈
      rustSeedPeers (fun i _ => exampleChecks i) exampleRestarted := by decide +kernel
  obtain ⟨left, before, hleft, hhosts⟩ := exists_refreshes_last hips exampleRust hfirst
  obtain ⟨left', before', hleft', hhosts'⟩ := exists_refreshes_last hips exampleRust hsecond
  have hget : ∀ (left : SeedPeers nameRing) (before : List SeedPeer) (seedPeer : SeedPeer),
      left.hosts = hostsOf (before ++ [seedPeer]) → left.hosts.get seedPeer.name = some seedPeer := by
    intro left before seedPeer hhosts
    rw [hhosts, get_hostsOf_eq, lastWrite_concat, if_pos rfl]
  have hserving := hget left before _ hhosts
  have hstale := hget left' before' _ hhosts'
  rw [h.left_eq left left' hleft hleft'] at hserving
  have hsame := congrArg (Option.map SeedPeer.healthy) (hserving.symm.trans hstale)
  exact Bool.false_ne_true (Option.some.inj hsame).symm

end DragonflySdk
