import DragonflySdk.Selector.Update

/-!
# The windowed walk of `select`

What a select of `replicas` should return is naive: of the host names in the order they first
appear on the walk round the ring, the first `replicas`, and of these the healthy ones
(`naiveSelect`). `select` grows a window instead.

For a positive number of replicas it returns just that, in Rust and in Go. For `0` the window is `0`
and never grows: unless the first round settles it, the loop does not end
(`select_eq_naive_iff`).
-/

namespace DragonflySdk

open Foundation

variable {crate : HashRingCrate} {ε : Type}

/-- The hosts of the healthy ones. -/
def healthyHosts (seedPeers : List SeedPeer) : List Host :=
  (seedPeers.filter SeedPeer.healthy).map SeedPeer.host

/-- The hosts, or nothing when there is none. -/
def answer (selected : List Host) : Option (List Host) :=
  if selected = [] then none else some selected

/-- What to select, from the whole walk round the ring. -/
def naiveSelect (hosts : Hosts) (walk : List Str) (replicas : Nat) : List Host :=
  healthyHosts ((walk.eraseDups.take (min replicas hosts.len)).filterMap hosts.get)

/-- What both languages do, up to their errors. -/
structure Selects (select : SeedPeers crate → Nat → Str → Nat → Option (Except ε (List Host)))
    (nobody : ε) (finish : List SeedPeer → Except ε (List Host)) : Prop where
  toOption_finish : ∀ seedPeers, (finish seedPeers).toOption = answer (healthyHosts seedPeers)
  select_eq : ∀ s fuel taskId replicas, select s fuel taskId replicas =
    if s.hosts.len = 0 then some (.error nobody)
    else (windowLoop (crate.vnodes s.hashring taskId) s.hosts.get (min replicas s.hosts.len)
      (crate.len s.hashring) fuel (min replicas s.hosts.len * 2)).map finish

theorem selects_rust : Selects (@SeedPeers.select crate) (.hostNotFound "seed peers".toList)
    SeedPeers.selectHealthy := by
  refine ⟨fun seedPeers => ?_, fun _ _ _ _ => rfl⟩
  unfold SeedPeers.selectHealthy answer healthyHosts
  simp only
  split <;> rfl

theorem selects_go : Selects (@Go.select crate) "host not found: seed peers".toList
    Go.selectHealthy := by
  refine ⟨fun seedPeers => ?_, fun _ _ _ _ => rfl⟩
  unfold Go.selectHealthy answer healthyHosts
  simp only [List.length_eq_zero_iff]
  split <;> rfl

theorem answer_eq_none_iff {selected : List Host} : answer selected = none ↔ selected = [] := by
  unfold answer
  split <;> simp [*]

theorem healthyHosts_eq_nil_iff {seedPeers : List SeedPeer} :
    healthyHosts seedPeers = [] ↔ ∀ seedPeer ∈ seedPeers, seedPeer.healthy = false := by
  rw [healthyHosts, List.map_eq_nil_iff, List.filter_eq_nil_iff]
  simp only [Bool.not_eq_true]

/-! ### Hosts and ring in step -/

section
variable (hcrate : crate.Lawful) {s : SeedPeers crate} (hs : Builds crate s.hosts s.hashring)
  (taskId : Str)
include hcrate hs

theorem get_isSome_of_mem_walk : ∀ name ∈ (crate.walk s.hashring taskId).eraseDups,
    (s.hosts.get name).isSome := by
  intro name hname
  rw [Hosts.get_isSome_iff, ← hs.mem_walk hcrate taskId name]
  exact List.mem_eraseDups.mp hname

/-- Every name on the ring is that of a host, so cutting off commutes with looking up. -/
theorem replicaSeedPeers_eq (n : Nat) : s.replicaSeedPeers taskId n =
    ((crate.walk s.hashring taskId).eraseDups.take (min n s.hosts.len)).filterMap s.hosts.get :=
  take_filterMap_of_isSome (get_isSome_of_mem_walk hcrate hs taskId) _

theorem length_walk_eraseDups : (crate.walk s.hashring taskId).eraseDups.length = s.hosts.len := by
  have hyields : s.hosts.Yields (crate.walk s.hashring taskId).eraseDups := by
    refine ⟨nodup_eraseDups _, fun name => ?_⟩
    rw [List.mem_eraseDups, hs.mem_walk hcrate]
  exact hyields.length_eq

theorem map_name_replicaSeedPeers_eq (n : Nat) :
    (s.replicaSeedPeers taskId n).map (fun seedPeer => seedPeer.host.name) =
      (crate.walk s.hashring taskId).eraseDups.take (min n s.hosts.len) := by
  rw [replicaSeedPeers_eq hcrate hs, SeedPeers.map_name_filterMap_get, List.filter_eq_self]
  intro name hmem
  rw [decide_eq_true_iff, ← hs.mem_walk hcrate taskId]
  exact List.mem_eraseDups.mp (List.mem_of_mem_take hmem)

theorem length_replicaSeedPeers (n : Nat) :
    (s.replicaSeedPeers taskId n).length = min n s.hosts.len := by
  have hnames := congrArg List.length (map_name_replicaSeedPeers_eq hcrate hs taskId n)
  rw [List.length_map, List.length_take, length_walk_eraseDups hcrate hs] at hnames
  omega

theorem nodup_replicaSeedPeers (n : Nat) :
    ((s.replicaSeedPeers taskId n).map fun seedPeer => seedPeer.host.name).Nodup := by
  rw [map_name_replicaSeedPeers_eq hcrate hs]
  exact (nodup_eraseDups _).sublist (List.take_sublist _ _)

theorem naiveSelect_eq (n : Nat) : naiveSelect s.hosts (crate.walk s.hashring taskId) n =
    healthyHosts (s.replicaSeedPeers taskId n) := by
  rw [naiveSelect, replicaSeedPeers_eq hcrate hs]

end

/-! ### No replicas -/

/-- The first round settles a select of no replicas: there are no vnodes to look at, or they are all
there are and no host is healthy. -/
def SettlesAtOnce (s : SeedPeers crate) (taskId : Str) : Prop :=
  crate.vnodes s.hashring taskId 0 = [] ∨
    crate.len s.hashring ≤ (crate.vnodes s.hashring taskId 0).length ∧
      ∀ name seedPeer, s.hosts.get name = some seedPeer → seedPeer.healthy = false

section
variable (hcrate : crate.Lawful) {s : SeedPeers crate} (hs : Builds crate s.hosts s.hashring)
  (taskId : Str)
include hcrate hs

theorem settlesAtOnce_iff : SettlesAtOnce s taskId ↔
    ∃ fuel found, windowLoop (crate.vnodes s.hashring taskId) s.hosts.get 0
      (crate.len s.hashring) fuel 0 = some found ∧ healthyHosts found = [] := by
  have hwalk := hcrate.followsWalk s.hashring taskId
  have hsome := get_isSome_of_mem_walk hcrate hs taskId
  rw [exists_comm]
  simp only [exists_and_right, windowLoop_zero_iff]
  constructor
  · rintro (hnil | ⟨hcovered, hunhealthy⟩)
    · exact ⟨[], by simp [hnil], rfl⟩
    · refine ⟨_, ⟨rfl, Or.inr hcovered⟩, healthyHosts_eq_nil_iff.mpr ?_⟩
      intro seedPeer hmem
      obtain ⟨name, _, hget⟩ := List.mem_filterMap.mp hmem
      exact hunhealthy name seedPeer hget
  · intro h
    obtain ⟨found, ⟨rfl, hnil | hcovered⟩, hunhealthy⟩ := h
    · -- every vnode is that of a host, so none was found only if there is none
      left
      rw [List.filterMap_eq_nil_iff] at hnil
      refine List.eq_nil_iff_forall_not_mem.mpr fun name hname => ?_
      have hname' : name ∈ (crate.vnodes s.hashring taskId 0).eraseDups :=
        List.mem_eraseDups.mpr hname
      have hget := hsome name ((hwalk.eraseDups_prefix 0).subset hname')
      rw [hnil name hname'] at hget
      simp at hget
    · refine Or.inr ⟨hcovered, fun name seedPeer hget => ?_⟩
      rw [← hcrate.length_walk s.hashring taskId] at hcovered
      rw [hwalk.eraseDups_eq hcovered] at hunhealthy
      refine healthyHosts_eq_nil_iff.mp hunhealthy seedPeer (List.mem_filterMap.mpr ⟨name, ?_, hget⟩)
      rw [List.mem_eraseDups, hs.mem_walk hcrate, ← Hosts.get_isSome_iff, hget]
      rfl

end

theorem exists_windowLoop_eq (hcrate : crate.Lawful) (s : SeedPeers crate) (taskId : Str)
    {replicas : Nat} (hreplicas : 0 < replicas) (hhosts : s.hosts.len ≠ 0) :
    ∃ fuel, windowLoop (crate.vnodes s.hashring taskId) s.hosts.get (min replicas s.hosts.len)
      (crate.len s.hashring) fuel (min replicas s.hosts.len * 2) =
        some (s.replicaSeedPeers taskId replicas) := by
  have hexpected : 0 < min replicas s.hosts.len := by omega
  have hwindow : 0 < min replicas s.hosts.len * 2 := by omega
  obtain ⟨fuel, hfuel⟩ :=
    windowLoop_eq (hcrate.followsWalk s.hashring taskId) s.hosts.get hexpected hwindow
  rw [hcrate.length_walk] at hfuel
  exact ⟨fuel, hfuel⟩

theorem Selects.exists_eq (hcrate : crate.Lawful)
    {select : SeedPeers crate → Nat → Str → Nat → Option (Except ε (List Host))} {nobody : ε}
    {finish : List SeedPeer → Except ε (List Host)} (h : Selects select nobody finish)
    (s : SeedPeers crate) (taskId : Str) {replicas : Nat} (hreplicas : 0 < replicas)
    (hhosts : s.hosts.len ≠ 0) :
    ∃ fuel, select s fuel taskId replicas = some (finish (s.replicaSeedPeers taskId replicas)) := by
  obtain ⟨fuel, hfuel⟩ := exists_windowLoop_eq hcrate s taskId hreplicas hhosts
  refine ⟨fuel, ?_⟩
  rw [h.select_eq, if_neg hhosts, hfuel]
  rfl

theorem Selects.exists_result (hcrate : crate.Lawful)
    {select : SeedPeers crate → Nat → Str → Nat → Option (Except ε (List Host))} {nobody : ε}
    {finish : List SeedPeer → Except ε (List Host)} (h : Selects select nobody finish)
    (s : SeedPeers crate) (taskId : Str) {replicas : Nat} (hreplicas : 0 < replicas) :
    ∃ fuel result, select s fuel taskId replicas = some result := by
  by_cases hhosts : s.hosts.len = 0
  · exact ⟨0, _, (h.select_eq s 0 taskId replicas).trans (if_pos hhosts)⟩
  · obtain ⟨fuel, hfuel⟩ := h.exists_eq hcrate s taskId hreplicas hhosts
    exact ⟨fuel, _, hfuel⟩

theorem Selects.eq_finish (hcrate : crate.Lawful)
    {select : SeedPeers crate → Nat → Str → Nat → Option (Except ε (List Host))} {nobody : ε}
    {finish : List SeedPeer → Except ε (List Host)} (h : Selects select nobody finish)
    {s : SeedPeers crate} {taskId : Str} {replicas : Nat} (hreplicas : 0 < replicas)
    (hhosts : s.hosts.len ≠ 0) {fuel : Nat} {result : Except ε (List Host)}
    (hselect : select s fuel taskId replicas = some result) :
    result = finish (s.replicaSeedPeers taskId replicas) := by
  obtain ⟨fuel', hfuel'⟩ := exists_windowLoop_eq hcrate s taskId hreplicas hhosts
  rw [h.select_eq, if_neg hhosts] at hselect
  obtain ⟨found, hfound, rfl⟩ := Option.map_eq_some_iff.mp hselect
  rw [windowLoop_unique hfound hfuel']

theorem Selects.exists_iff (hcrate : crate.Lawful)
    {select : SeedPeers crate → Nat → Str → Nat → Option (Except ε (List Host))} {nobody : ε}
    {finish : List SeedPeer → Except ε (List Host)} (h : Selects select nobody finish)
    {s : SeedPeers crate} (hs : Builds crate s.hosts s.hashring) (taskId : Str) (replicas : Nat) :
    (∃ fuel result, select s fuel taskId replicas = some result ∧ result.toOption =
        answer (naiveSelect s.hosts (crate.walk s.hashring taskId) replicas)) ↔
      0 < replicas ∨ s.hosts.len = 0 ∨ SettlesAtOnce s taskId := by
  by_cases hhosts : s.hosts.len = 0
  · refine ⟨fun _ => Or.inr (Or.inl hhosts), fun _ => ⟨0, .error nobody, ?_, ?_⟩⟩
    · rw [h.select_eq, if_pos hhosts]
    · rw [naiveSelect, hhosts, Nat.min_zero, List.take_zero]
      rfl
  · rcases Nat.eq_zero_or_pos replicas with hzero | hpos
    · subst hzero
      have hnone : answer (naiveSelect s.hosts (crate.walk s.hashring taskId) 0) = none := by
        rw [naiveSelect, Nat.zero_min, List.take_zero]
        rfl
      rw [hnone, or_iff_right (Nat.lt_irrefl 0), or_iff_right hhosts,
        settlesAtOnce_iff hcrate hs]
      apply exists_congr
      intro fuel
      rw [h.select_eq, if_neg hhosts, Nat.zero_min, Nat.zero_mul]
      simp only [Option.map_eq_some_iff, exists_exists_and_eq_and, h.toOption_finish,
        answer_eq_none_iff]
    · refine ⟨fun _ => Or.inl hpos, fun _ => ?_⟩
      obtain ⟨fuel, hfuel⟩ := h.exists_eq hcrate s taskId hpos hhosts
      refine ⟨fuel, _, hfuel, ?_⟩
      rw [h.toOption_finish, naiveSelect_eq hcrate hs]

/-! ### How many replicas are counted -/

/-- How many replicas a select of `n` counts, when it ends. Of none it looks at the vnodes the ring
answers with all the same. -/
def counted (s : SeedPeers crate) (taskId : Str) (n : Nat) : Option Nat :=
  if 0 < n then some (min n s.hosts.len)
  else if crate.vnodes s.hashring taskId 0 = [] then some 0
  else if crate.len s.hashring ≤ (crate.vnodes s.hashring taskId 0).length then some s.hosts.len
  else none

theorem counted_le {s : SeedPeers crate} {taskId : Str} {n m : Nat}
    (h : counted s taskId n = some m) : m ≤ s.hosts.len := by
  unfold counted at h
  split at h
  · rw [← Option.some.inj h]
    omega
  · split at h
    · rw [← Option.some.inj h]
      omega
    · split at h
      · rw [← Option.some.inj h]
      · simp at h

section
variable (hcrate : crate.Lawful) {s : SeedPeers crate} (hs : Builds crate s.hosts s.hashring)
  (taskId : Str)
include hcrate hs

theorem filterMap_first_ne_nil (hvnodes : crate.vnodes s.hashring taskId 0 ≠ []) :
    (crate.vnodes s.hashring taskId 0).eraseDups.filterMap s.hosts.get ≠ [] := by
  have hwalk := hcrate.followsWalk s.hashring taskId
  obtain ⟨name, hname⟩ := List.exists_mem_of_ne_nil _ hvnodes
  have hname' := List.mem_eraseDups.mpr hname
  obtain ⟨seedPeer, hget⟩ := Option.isSome_iff_exists.mp
    (get_isSome_of_mem_walk hcrate hs taskId name ((hwalk.eraseDups_prefix 0).subset hname'))
  exact List.ne_nil_of_mem (List.mem_filterMap.mpr ⟨name, hname', hget⟩)

theorem filterMap_first_of_covered
    (hcovered : crate.len s.hashring ≤ (crate.vnodes s.hashring taskId 0).length) :
    (crate.vnodes s.hashring taskId 0).eraseDups.filterMap s.hosts.get =
      s.replicaSeedPeers taskId s.hosts.len := by
  rw [← hcrate.length_walk s.hashring taskId] at hcovered
  rw [(hcrate.followsWalk s.hashring taskId).eraseDups_eq hcovered, SeedPeers.replicaSeedPeers,
    Nat.min_self, List.take_of_length_le]
  rw [← length_walk_eraseDups hcrate hs taskId]
  exact List.length_filterMap_le _ _

variable {select : SeedPeers crate → Nat → Str → Nat → Option (Except ε (List Host))} {nobody : ε}
  {finish : List SeedPeer → Except ε (List Host)} (h : Selects select nobody finish)
  (hhosts : s.hosts.len ≠ 0) (result : Except ε (List Host))
include h hhosts

/-- Of no replicas a select looks at the vnodes the ring answers with all the same. -/
theorem Selects.exists_fuel_zero_iff : (∃ fuel, select s fuel taskId 0 = some result) ↔
    ∃ m, counted s taskId 0 = some m ∧ result = finish (s.replicaSeedPeers taskId m) := by
  have hloop : (∃ fuel, select s fuel taskId 0 = some result) ↔ ∃ found,
      (found = (crate.vnodes s.hashring taskId 0).eraseDups.filterMap s.hosts.get ∧
        (found = [] ∨
          crate.len s.hashring ≤ (crate.vnodes s.hashring taskId 0).length)) ∧
      finish found = result := by
    simp only [h.select_eq, if_neg hhosts, Nat.zero_min, Nat.zero_mul, Option.map_eq_some_iff]
    rw [exists_comm]
    simp only [exists_and_right, windowLoop_zero_iff]
  rw [hloop, counted, if_neg (Nat.lt_irrefl 0)]
  by_cases hnil : crate.vnodes s.hashring taskId 0 = []
  · have hzero : s.replicaSeedPeers taskId 0 = [] := by
      rw [SeedPeers.replicaSeedPeers, Nat.zero_min, List.take_zero]
    rw [if_pos hnil, hnil]
    constructor
    · rintro ⟨found, ⟨rfl, _⟩, rfl⟩
      exact ⟨0, rfl, by rw [hzero]; rfl⟩
    · rintro ⟨m, hm, rfl⟩
      rw [← Option.some.inj hm, hzero]
      exact ⟨[], ⟨rfl, Or.inl rfl⟩, rfl⟩
  · rw [if_neg hnil]
    have hfound := filterMap_first_ne_nil hcrate hs taskId hnil
    by_cases hcovered : crate.len s.hashring ≤ (crate.vnodes s.hashring taskId 0).length
    · have hall := filterMap_first_of_covered hcrate hs taskId hcovered
      rw [if_pos hcovered]
      constructor
      · rintro ⟨found, ⟨rfl, _⟩, rfl⟩
        exact ⟨_, rfl, by rw [hall]⟩
      · rintro ⟨m, hm, rfl⟩
        rw [← Option.some.inj hm, ← hall]
        exact ⟨_, ⟨rfl, Or.inr hcovered⟩, rfl⟩
    · rw [if_neg hcovered]
      constructor
      · rintro ⟨found, ⟨rfl, hempty | hlen⟩, _⟩
        · exact absurd hempty hfound
        · exact absurd hlen hcovered
      · intro h
        obtain ⟨m, hm, _⟩ := h
        cases hm

end

theorem Selects.exists_fuel_iff (hcrate : crate.Lawful)
    {select : SeedPeers crate → Nat → Str → Nat → Option (Except ε (List Host))} {nobody : ε}
    {finish : List SeedPeer → Except ε (List Host)} (h : Selects select nobody finish)
    {s : SeedPeers crate} (hs : Builds crate s.hosts s.hashring) (hhosts : s.hosts.len ≠ 0)
    (taskId : Str) (n : Nat) (result : Except ε (List Host)) :
    (∃ fuel, select s fuel taskId n = some result) ↔
      ∃ m, counted s taskId n = some m ∧ result = finish (s.replicaSeedPeers taskId m) := by
  rcases Nat.eq_zero_or_pos n with rfl | hpos
  · exact h.exists_fuel_zero_iff hcrate hs taskId hhosts result
  · have hsame : s.replicaSeedPeers taskId (min n s.hosts.len) = s.replicaSeedPeers taskId n := by
      rw [SeedPeers.replicaSeedPeers, SeedPeers.replicaSeedPeers, Nat.min_assoc, Nat.min_self]
    rw [counted, if_pos hpos]
    constructor
    · rintro ⟨fuel, hselect⟩
      exact ⟨_, rfl, by rw [hsame, h.eq_finish hcrate hpos hhosts hselect]⟩
    · rintro ⟨m, hm, rfl⟩
      rw [← Option.some.inj hm, hsame]
      exact h.exists_eq hcrate s taskId hpos hhosts

/-! ### Rust and Go -/

/-- **The windowed walk is the naive one, except for no replicas.** -/
theorem select_eq_naive_iff (rust go : HashRingCrate) (hrust : rust.Lawful) (hgo : go.Lawful)
    (hwalk : ∀ names : List Str, names.Nodup → ∀ key,
      rust.walk (rust.build names) key = go.walk (go.build names) key)
    (s : SeedPeers rust) (hs : Reachable (updateSteps rust) s)
    (g : SeedPeers go) (hg : Reachable (Go.updateSteps go) g) (hsg : s.hosts = g.hosts)
    (taskId : Str) (replicas : Nat) :
    (∃ fuel result fuel' result', s.select fuel taskId replicas = some result ∧
        Go.select g fuel' taskId replicas = some result' ∧
        result.toOption = answer (naiveSelect s.hosts (rust.walk s.hashring taskId) replicas) ∧
        result'.toOption = answer (naiveSelect s.hosts (rust.walk s.hashring taskId) replicas)) ↔
      0 < replicas ∨ s.hosts.len = 0 ∨ SettlesAtOnce s taskId ∧ SettlesAtOnce g taskId := by
  have hs' : Builds rust s.hosts s.hashring := updates_rust.builds_of_reachable hs
  have hg' : Builds go g.hosts g.hashring := updates_go.builds_of_reachable hg
  have hsame : rust.walk s.hashring taskId = go.walk g.hashring taskId := by
    obtain ⟨names, hnames, hring⟩ := hs'
    rw [hring, hg'.eq_build hgo (hsg ▸ hnames), hwalk names hnames.nodup]
  have hrustIff := selects_rust.exists_iff hrust hs' taskId replicas
  have hgoIff := selects_go.exists_iff hgo hg' taskId replicas
  rw [← hsg, ← hsame] at hgoIff
  rw [or_and_left, or_and_left, ← hrustIff, ← hgoIff]
  constructor
  · rintro ⟨fuel, result, fuel', result', h, h', heq, heq'⟩
    exact ⟨⟨fuel, result, h, heq⟩, ⟨fuel', result', h', heq'⟩⟩
  · rintro ⟨⟨fuel, result, h, heq⟩, ⟨fuel', result', h', heq'⟩⟩
    exact ⟨fuel, result, fuel', result', h, h', heq, heq'⟩

/-- The example's selector in Rust. -/
def exampleRust : SeedPeers nameRing := SeedPeers.new.update exampleSeedPeers exampleNames

/-- The example's selector in Go. -/
def exampleGo : SeedPeers nameRing := Go.update SeedPeers.new Go.exampleSeedPeers exampleNames

theorem reachable_exampleRust : Reachable (updateSteps nameRing) exampleRust :=
  updates_rust.reachable_update exampleSeedPeers yields_example

theorem reachable_exampleGo : Reachable (Go.updateSteps nameRing) exampleGo :=
  updates_go.reachable_update Go.exampleSeedPeers (Go.hostsOf_example ▸ yields_example)

theorem exampleRust_hosts : exampleRust.hosts = exampleGo.hosts := by
  rw [exampleRust, SeedPeers.update_hosts, ← Go.hostsOf_example]
  exact (updates_go.builds_update builds_new Go.exampleSeedPeers
    (Go.hostsOf_example ▸ yields_example)).1.symm

/-- At two seed peers and one replica. -/
theorem select_eq_naive_iff_one :
    (∃ fuel result fuel' result', exampleRust.select fuel "task".toList 1 = some result ∧
        Go.select exampleGo fuel' "task".toList 1 = some result' ∧
        result.toOption = answer (naiveSelect exampleRust.hosts
          (nameRing.walk exampleRust.hashring "task".toList) 1) ∧
        result'.toOption = answer (naiveSelect exampleRust.hosts
          (nameRing.walk exampleRust.hashring "task".toList) 1)) ↔
      0 < 1 ∨ exampleRust.hosts.len = 0 ∨
        SettlesAtOnce exampleRust "task".toList ∧ SettlesAtOnce exampleGo "task".toList :=
  select_eq_naive_iff nameRing nameRing nameRing.lawful nameRing.lawful (fun _ _ _ => rfl)
    exampleRust reachable_exampleRust exampleGo reachable_exampleGo exampleRust_hosts _ _

/-- Two seed peers and no replicas: the loop of `select` does not end. -/
theorem not_select_eq_naive :
    ¬ ∀ (rust go : HashRingCrate), rust.Lawful → go.Lawful →
      (∀ names : List Str, names.Nodup → ∀ key,
        rust.walk (rust.build names) key = go.walk (go.build names) key) →
      ∀ s : SeedPeers rust, Reachable (updateSteps rust) s →
      ∀ g : SeedPeers go, Reachable (Go.updateSteps go) g → s.hosts = g.hosts →
      ∀ taskId replicas, ∃ fuel result fuel' result',
        s.select fuel taskId replicas = some result ∧
        Go.select g fuel' taskId replicas = some result' ∧
        result.toOption = answer (naiveSelect s.hosts (rust.walk s.hashring taskId) replicas) ∧
        result'.toOption = answer (naiveSelect s.hosts (rust.walk s.hashring taskId) replicas) := by
  intro h
  obtain ⟨fuel, result, _, _, hselect, _, heq, _⟩ := h nameRing nameRing nameRing.lawful
    nameRing.lawful (fun _ _ _ => rfl) exampleRust reachable_exampleRust exampleGo
    reachable_exampleGo exampleRust_hosts "task".toList 0
  have hbuilds := updates_rust.builds_of_reachable reachable_exampleRust
  have hlen : exampleRust.hosts.len = 2 := yields_example.length_eq.symm
  rcases (selects_rust.exists_iff nameRing.lawful hbuilds _ _).mp ⟨fuel, result, hselect, heq⟩ with
    hpos | hnone | hnil | hcovered
  · omega
  · omega
  · revert hnil
    decide +kernel
  · have hvnodes : (nameRing.vnodes exampleRust.hashring "task".toList 0).length = 1 := by
      decide +kernel
    have hring : nameRing.len exampleRust.hashring = 2 := by decide +kernel
    omega

end DragonflySdk
