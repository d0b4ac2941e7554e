import DragonflySdk.Foundation.Except
import DragonflySdk.Foundation.SingleFlight
import DragonflySdk.Proxy.Preheat
import DragonflySdk.Proxy.Go
import DragonflySdk.Selector.Ejection
import DragonflySdk.Selector.Select

/-!
# The proxy with given seed peers

`ProxyWithSeedPeers` checks every list of seed peers it is given before the selector gets to see it.
A list that is empty, or has a seed peer without a name or a name twice, is rejected and leaves no
trace: the selector is what the accepted lists alone make of it, and has just the hosts of the last
one (`update_seed_peers_applies_valid`). So has a refresh from the scheduler that lists nothing or finds
another one running.
-/

namespace DragonflySdk

open Foundation

variable {crate : HashRingCrate} {α ε ε' : Type} {hostsIn : α → Hosts}

/-- A list of seed peers, with what the keys of the map collected from it yield. -/
structure Listing (hostsIn : α → Hosts) where
  list : α
  names : List Str
  yields : (hostsIn list).Yields names

/-- The selector with its seed peers replaced. -/
def Listing.applyTo (update : SeedPeers crate → α → List Str → SeedPeers crate)
    (s : SeedPeerSelector crate) (listing : Listing hostsIn) : SeedPeerSelector crate :=
  { s with seedPeers := update s.seedPeers listing.list listing.names }

/-- What happens to a proxy with given seed peers. -/
inductive SeedPeersEvent (hostsIn : α → Hosts)
  | updateSeedPeers (listing : Listing hostsIn)
  | ejection (call : EjectionCall)

/-! ### In Rust -/

structure ProxyWithSeedPeers (crates : ProxyCrates) where
  proxy : Proxy crates

namespace ProxyWithSeedPeers

variable {crates : ProxyCrates}

/-- The loop of `validate_seed_peers`, with the names seen before. -/
def validateNames (names : Finset Str) : List SeedPeer → Except Error Unit
  | [] => .ok ()
  | seedPeer :: seedPeers =>
    if seedPeer.host.name = [] then
      .error (.invalidArgument "seed peer name must not be empty".toList)
    else if seedPeer.host.name ∈ names then
      .error (.invalidArgument
        ("seed peer name ".toList ++ seedPeer.host.name ++ " is duplicated".toList))
    else validateNames (insert seedPeer.host.name names) seedPeers

/-- Validates the seed peers, which the hash ring keys by host name. -/
def validateSeedPeers (seedPeers : List SeedPeer) : Except Error Unit :=
  if seedPeers = [] then .error (.invalidArgument "seed peers must not be empty".toList)
  else validateNames ∅ seedPeers

/-- Validates the input parameters. -/
def validate (seedPeers : List SeedPeer) (retry : RetryPolicy crates.backon) : Except Error Unit :=
  match validateSeedPeers seedPeers with
  | .error err => .error err
  | .ok () =>
    if 10 < retry.maxRetries then
      .error (.invalidArgument "max retries must be between 0 and 10".toList)
    else .ok ()

/-- Builds a proxy; the address and the name of the local host may not be found. -/
def build (preferredLocalIp : Option IpAddr) (hostname : Except Str Str)
    (seedPeers : Listing hostsOf) (retry : RetryPolicy crates.backon) :
    Except Error (ProxyWithSeedPeers crates) := do
  validate seedPeers.list retry
  let seedPeerSelector := seedPeers.applyTo SeedPeers.update ⟨SeedPeers.new, ∅⟩
  match preferredLocalIp, hostname with
  | none, _ => .error (.internal "failed to detect a preferred local IP address".toList)
  | some _, .error err => .error (.internal ("failed to get hostname: ".toList ++ err))
  | some _, .ok _ => .ok ⟨⟨seedPeerSelector, retry⟩⟩

/-- Replaces the seed peers. Invalid seed peers, such as none, are ignored. -/
def updateSeedPeers (p : ProxyWithSeedPeers crates) (seedPeers : Listing hostsOf) :
    ProxyWithSeedPeers crates :=
  match validateSeedPeers seedPeers.list with
  | .error _ => p
  | .ok () =>
    ⟨{ p.proxy with
      seedPeerSelector := seedPeers.applyTo SeedPeers.update p.proxy.seedPeerSelector }⟩

def after (p : ProxyWithSeedPeers crates) :
    SeedPeersEvent hostsOf → ProxyWithSeedPeers crates
  | .updateSeedPeers listing => p.updateSeedPeers listing
  | .ejection call =>
    ⟨{ p.proxy with
      seedPeerSelector := { p.proxy.seedPeerSelector with
        ejections := p.proxy.seedPeerSelector.ejections.after call } }⟩

def run (p : ProxyWithSeedPeers crates) (events : List (SeedPeersEvent hostsOf)) :
    ProxyWithSeedPeers crates :=
  events.foldl after p

end ProxyWithSeedPeers

/-! ### In Go -/

namespace Go

structure ProxyWithSeedPeers (modules : Modules) where
  proxy : Proxy modules

namespace ProxyWithSeedPeers

variable {modules : Modules}

/-- The loop of `validateSeedPeers`, with the names seen before. -/
def validateNames (names : Finset Str) : List SeedPeer → Except Error Unit
  | [] => .ok ()
  | seedPeer :: seedPeers =>
    match seedPeer.host with
    | none => .error (.invalidArgument ⟨"%w: seed peer host must not be nil".toList, []⟩)
    | some host =>
      if host.name = [] then
        .error (.invalidArgument ⟨"%w: seed peer name must not be empty".toList, []⟩)
      else if host.name ∈ names then
        .error (.invalidArgument ⟨"%w: seed peer name %q is duplicated".toList, [host.name]⟩)
      else validateNames (insert host.name names) seedPeers

/-- Validates the seed peers, which the hash ring keys by host name. -/
def validateSeedPeers (seedPeers : List SeedPeer) : Except Error Unit :=
  if seedPeers.length = 0 then
    .error (.invalidArgument ⟨"%w: seed peers must not be empty".toList, []⟩)
  else validateNames ∅ seedPeers

/-- Creates a proxy, its options applied to the retry policy. -/
def newWithSeedPeers (seedPeers : Listing Go.hostsOf) (retry : RetryPolicy modules.backoff) :
    Except Error (ProxyWithSeedPeers modules) :=
  match validateSeedPeers seedPeers.list with
  | .error err => .error err
  | .ok () =>
    if 10 < retry.maxRetries then
      .error (.invalidArgument ⟨"%w: max retries must be between 0 and 10".toList, []⟩)
    else .ok ⟨⟨retry, seedPeers.applyTo Go.update ⟨SeedPeers.new, ∅⟩⟩⟩

/-- Replaces the seed peers. Invalid seed peers, such as none, are ignored. -/
def updateSeedPeers (p : ProxyWithSeedPeers modules) (seedPeers : Listing Go.hostsOf) :
    ProxyWithSeedPeers modules :=
  match validateSeedPeers seedPeers.list with
  | .error _ => p
  | .ok () =>
    ⟨{ p.proxy with seedPeerSelector := seedPeers.applyTo Go.update p.proxy.seedPeerSelector }⟩

def after (p : ProxyWithSeedPeers modules) :
    SeedPeersEvent Go.hostsOf → ProxyWithSeedPeers modules
  | .updateSeedPeers listing => p.updateSeedPeers listing
  | .ejection call =>
    ⟨{ p.proxy with
      seedPeerSelector := { p.proxy.seedPeerSelector with
        ejections := Go.after p.proxy.seedPeerSelector.ejections call } }⟩

def run (p : ProxyWithSeedPeers modules) (events : List (SeedPeersEvent Go.hostsOf)) :
    ProxyWithSeedPeers modules :=
  events.foldl after p

end ProxyWithSeedPeers

end Go

/-! ### Which lists are accepted -/

/-- A list is accepted: it is not empty, and every seed peer has a host with a name of its own. -/
structure Valid (seedPeers : List (Option SeedPeer)) : Prop where
  ne_nil : seedPeers ≠ []
  hosted : none ∉ seedPeers
  named : ∀ seedPeer ∈ seedPeers.reduceOption, seedPeer.host.name ≠ []
  nodup : (seedPeers.reduceOption.map fun seedPeer => seedPeer.host.name).Nodup

instance (seedPeers : List (Option SeedPeer)) : Decidable (Valid seedPeers) :=
  decidable_of_iff (seedPeers ≠ [] ∧ none ∉ seedPeers ∧
      (∀ seedPeer ∈ seedPeers.reduceOption, seedPeer.host.name ≠ []) ∧
      (seedPeers.reduceOption.map fun seedPeer => seedPeer.host.name).Nodup)
    ⟨fun ⟨hne, hhosted, hnamed, hnodup⟩ => ⟨hne, hhosted, hnamed, hnodup⟩,
      fun h => ⟨h.ne_nil, h.hosted, h.named, h.nodup⟩⟩

/-- The seed peers of a list in Rust, which all have a host. -/
def entries (seedPeers : List SeedPeer) : List (Option SeedPeer) := seedPeers.map some

/-- The seed peers of a list in Go. -/
def Go.entries (seedPeers : List Go.SeedPeer) : List (Option DragonflySdk.SeedPeer) :=
  seedPeers.map fun seedPeer => seedPeer.host.map fun host => ⟨host, seedPeer.healthy⟩

/-- Whoever accepts just the valid lists, and collects the hosts of a list. -/
structure Validates (hostsIn : α → Hosts) (entries : α → List (Option SeedPeer))
    (validate : α → Except ε Unit) : Prop where
  hostsOf_eq : ∀ list, hostsIn list = hostsOf (entries list).reduceOption
  eq_ok_iff : ∀ list, validate list = .ok () ↔ Valid (entries list)

theorem reduceOption_entries (seedPeers : List SeedPeer) :
    (entries seedPeers).reduceOption = seedPeers := by
  rw [entries, List.reduceOption, List.filterMap_map]
  exact List.filterMap_some

theorem validates_rust :
    Validates hostsOf entries ProxyWithSeedPeers.validateSeedPeers where
  hostsOf_eq list := by rw [reduceOption_entries]
  eq_ok_iff list := by
    have hloop := distinct_loop_eq_ok_iff (fun seedPeer : SeedPeer => seedPeer.host.name)
      (fun seedPeer => seedPeer.host.name ≠ [])
      (show ∀ seen, ProxyWithSeedPeers.validateNames seen [] = .ok () from fun _ => rfl)
      (fun seen seedPeer seedPeers => by
        rw [ProxyWithSeedPeers.validateNames]
        by_cases hname : seedPeer.host.name = []
        · simp [hname]
        · by_cases hseen : seedPeer.host.name ∈ seen <;> simp [hname, hseen]) ∅ list
    unfold ProxyWithSeedPeers.validateSeedPeers
    by_cases hnil : list = []
    · rw [if_pos hnil]
      exact ⟨nofun, fun h => absurd (congrArg entries hnil) h.ne_nil⟩
    · rw [if_neg hnil, hloop]
      constructor
      · rintro ⟨hnamed, _, hnodup⟩
        refine ⟨by simpa [entries] using hnil, by simp [entries], ?_, ?_⟩ <;>
          rwa [reduceOption_entries]
      · rintro ⟨_, _, hnamed, hnodup⟩
        rw [reduceOption_entries] at hnamed hnodup
        exact ⟨hnamed, by simp, hnodup⟩

theorem Go.mem_reduceOption_entries {seedPeers : List Go.SeedPeer} {seedPeer : DragonflySdk.SeedPeer} :
    seedPeer ∈ (Go.entries seedPeers).reduceOption ↔
      ∃ listed ∈ seedPeers, listed.host = some seedPeer.host ∧ listed.healthy = seedPeer.healthy := by
  obtain ⟨host', healthy'⟩ := seedPeer
  rw [List.reduceOption_mem_iff, Go.entries, List.mem_map]
  apply exists_congr
  intro h
  obtain ⟨host, healthy⟩ := h
  cases host <;> simp

theorem Go.none_notMem_entries {seedPeers : List Go.SeedPeer} :
    none ∉ Go.entries seedPeers ↔ ∀ seedPeer ∈ seedPeers, seedPeer.host ≠ none := by
  simp [Go.entries]

theorem Go.map_name_entries {seedPeers : List Go.SeedPeer} (h : none ∉ Go.entries seedPeers) :
    (Go.entries seedPeers).reduceOption.map (fun seedPeer => seedPeer.host.name) =
      seedPeers.map fun seedPeer => (seedPeer.host.map Host.name).getD [] := by
  induction seedPeers with
  | nil => rfl
  | cons seedPeer seedPeers ih =>
    obtain ⟨host, healthy⟩ := seedPeer
    cases host with
    | none => exact absurd List.mem_cons_self h
    | some host =>
      show host.name :: (Go.entries seedPeers).reduceOption.map _ = host.name :: _
      rw [ih fun hmem => h (List.mem_cons_of_mem _ hmem)]

theorem Go.validates :
    Validates Go.hostsOf Go.entries Go.ProxyWithSeedPeers.validateSeedPeers where
  hostsOf_eq list := by
    rw [Go.hostsOf_eq, Go.entries, List.reduceOption, List.filterMap_map]
    rfl
  eq_ok_iff list := by
    have hloop := distinct_loop_eq_ok_iff
      (fun seedPeer : Go.SeedPeer => (seedPeer.host.map Host.name).getD [])
      (fun seedPeer => ∃ host, seedPeer.host = some host ∧ host.name ≠ [])
      (show ∀ seen, Go.ProxyWithSeedPeers.validateNames seen [] = .ok () from fun _ => rfl)
      (fun seen seedPeer seedPeers => by
        rw [Go.ProxyWithSeedPeers.validateNames]
        cases hhost : seedPeer.host with
        | none => simp
        | some host =>
          by_cases hname : host.name = []
          · simp [hname]
          · by_cases hseen : host.name ∈ seen <;> simp [hname, hseen]) ∅ list
    unfold Go.ProxyWithSeedPeers.validateSeedPeers
    by_cases hnil : list = []
    · rw [if_pos (by rw [hnil, List.length_nil])]
      exact ⟨nofun, fun h => absurd (congrArg Go.entries hnil) h.ne_nil⟩
    · rw [if_neg (by simpa using hnil), hloop]
      constructor
      · rintro ⟨hgood, _, hnodup⟩
        have hhosted : none ∉ Go.entries list := Go.none_notMem_entries.mpr fun seedPeer hmem => by
          obtain ⟨host, hhost, _⟩ := hgood seedPeer hmem
          rw [hhost]
          exact Option.some_ne_none host
        refine ⟨by simpa [Go.entries] using hnil, hhosted, fun seedPeer hmem => ?_, ?_⟩
        · obtain ⟨listed, hlisted, hhost, _⟩ := Go.mem_reduceOption_entries.mp hmem
          obtain ⟨host, hhost', hname⟩ := hgood listed hlisted
          rw [hhost, Option.some_inj] at hhost'
          rwa [hhost']
        · rwa [Go.map_name_entries hhosted]
      · rintro ⟨_, hhosted, hnamed, hnodup⟩
        rw [Go.map_name_entries hhosted] at hnodup
        refine ⟨fun seedPeer hmem => ?_, by simp, hnodup⟩
        obtain ⟨host, hhost⟩ :=
          Option.ne_none_iff_exists'.mp (Go.none_notMem_entries.mp hhosted seedPeer hmem)
        exact ⟨host, hhost, hnamed ⟨host, seedPeer.healthy⟩
          (Go.mem_reduceOption_entries.mpr ⟨seedPeer, hmem, hhost, rfl⟩)⟩

/-! ### Runs -/

/-- What a list or a call makes of the selector, with no check. -/
def SeedPeersEvent.applyTo (update : SeedPeers crate → α → List Str → SeedPeers crate)
    (after : Ejections → EjectionCall → Ejections) (s : SeedPeerSelector crate) :
    SeedPeersEvent hostsIn → SeedPeerSelector crate
  | .updateSeedPeers listing => listing.applyTo update s
  | .ejection call => { s with ejections := after s.ejections call }

/-- What it makes of the selector of a proxy that checks the lists. -/
def SeedPeersEvent.handle (validate : α → Except ε Unit)
    (update : SeedPeers crate → α → List Str → SeedPeers crate)
    (after : Ejections → EjectionCall → Ejections) (s : SeedPeerSelector crate) :
    SeedPeersEvent hostsIn → SeedPeerSelector crate
  | .updateSeedPeers listing =>
    match validate listing.list with
    | .error _ => s
    | .ok () => listing.applyTo update s
  | .ejection call => { s with ejections := after s.ejections call }

/-- Anything but a list that is rejected. -/
def SeedPeersEvent.Accepted (entries : α → List (Option SeedPeer)) : SeedPeersEvent hostsIn → Prop
  | .updateSeedPeers listing => Valid (entries listing.list)
  | .ejection _ => True

instance (entries : α → List (Option SeedPeer)) (event : SeedPeersEvent hostsIn) :
    Decidable (event.Accepted entries) :=
  match event with
  | .updateSeedPeers listing => inferInstanceAs (Decidable (Valid (entries listing.list)))
  | .ejection _ => inferInstanceAs (Decidable True)

/-- The last list applied. -/
def lastApplied (entries : α → List (Option SeedPeer)) (built : Listing hostsIn)
    (events : List (SeedPeersEvent hostsIn)) : Listing hostsIn :=
  events.foldl (fun last event =>
    match event with
    | .updateSeedPeers listing => if Valid (entries listing.list) then listing else last
    | .ejection _ => last) built

/-- What the selector is after a proxy was built with a list and some events. -/
structure AppliesOnlyValid (entries : α → List (Option SeedPeer))
    (update : SeedPeers crate → α → List Str → SeedPeers crate)
    (after : Ejections → EjectionCall → Ejections)
    (select : SeedPeers crate → Nat → Str → Nat → Option (Except ε (List Host))) (unhealthy : ε)
    (built : Listing hostsIn) (events : List (SeedPeersEvent hostsIn))
    (s : SeedPeerSelector crate) : Prop where
  /-- Hosts, ring and ejections are those obtained without the rejected lists. -/
  selector_eq : s = (events.filter fun event => event.Accepted entries).foldl
    (SeedPeersEvent.applyTo update after) (built.applyTo update ⟨SeedPeers.new, ∅⟩)
  /-- There are as many hosts as the last list applied has entries, and these are they. -/
  len_eq : s.seedPeers.hosts.len = (entries (lastApplied entries built events).list).length
  get_eq : ∀ seedPeer, some seedPeer ∈ entries (lastApplied entries built events).list →
    s.seedPeers.hosts.get seedPeer.host.name = some seedPeer
  len_pos : 0 < s.seedPeers.hosts.len
  /-- A task has its replicas, and a select fails only when all of them are unhealthy. -/
  length_replicas : ∀ taskId replicas, (s.seedPeers.replicaSeedPeers taskId replicas).length =
    min replicas s.seedPeers.hosts.len
  select_error : ∀ fuel taskId replicas err,
    select s.seedPeers fuel taskId replicas = some (.error err) → err = unhealthy ∧
      ∀ seedPeer ∈ s.seedPeers.replicaSeedPeers taskId replicas, seedPeer.healthy = false

theorem Selects.eq_error (hcrate : crate.Lawful)
    {select : SeedPeers crate → Nat → Str → Nat → Option (Except ε (List Host))} {nobody : ε}
    {finish : List SeedPeer → Except ε (List Host)} (h : Selects select nobody finish)
    {unhealthy : ε} (hfinish : ∀ seedPeers err, finish seedPeers = .error err → err = unhealthy)
    {s : SeedPeers crate} (hhosts : s.hosts.len ≠ 0) {fuel : Nat} {taskId : Str} {replicas : Nat}
    {err : ε} (hselect : select s fuel taskId replicas = some (.error err)) :
    err = unhealthy ∧ ∀ seedPeer ∈ s.replicaSeedPeers taskId replicas, seedPeer.healthy = false := by
  have hfound := hselect
  rw [h.select_eq, if_neg hhosts] at hfound
  obtain ⟨found, _, herror⟩ := Option.map_eq_some_iff.mp hfound
  refine ⟨hfinish found err herror, ?_⟩
  rcases Nat.eq_zero_or_pos replicas with hzero | hpos
  · have hnone : s.replicaSeedPeers taskId replicas = [] := by
      rw [SeedPeers.replicaSeedPeers, hzero, Nat.zero_min, List.take_zero]
    rw [hnone]
    exact List.forall_mem_nil _
  · have hfinished := h.eq_finish hcrate hpos hhosts hselect
    have hanswer := h.toOption_finish (s.replicaSeedPeers taskId replicas)
    rw [← hfinished] at hanswer
    exact healthyHosts_eq_nil_iff.mp (answer_eq_none_iff.mp hanswer.symm)

/-- The selector has the hosts of a valid list, and a ring of their names. -/
structure Serves (entries : α → List (Option SeedPeer)) (listing : Listing hostsIn)
    (s : SeedPeers crate) : Prop where
  valid : Valid (entries listing.list)
  hosts_eq : s.hosts = hostsIn listing.list
  builds : Builds crate s.hosts s.hashring

section
variable {entries : α → List (Option SeedPeer)} {validate : α → Except ε' Unit}
  (hvalidates : Validates hostsIn entries validate) {unchanged : Hosts → Hosts → Bool}
  {update : SeedPeers crate → α → List Str → SeedPeers crate}
  (hupdates : Updates hostsIn unchanged update) {after : Ejections → EjectionCall → Ejections}

theorem Valid.length_reduceOption {seedPeers : List (Option SeedPeer)} (h : Valid seedPeers) :
    seedPeers.reduceOption.length = seedPeers.length :=
  List.reduceOption_length_eq_iff.mpr fun seedPeer hmem => by
    rw [Option.isSome_iff_ne_none]
    exact fun heq => h.hosted (heq ▸ hmem)

include hvalidates

theorem Validates.len_hostsOf {list : α} (h : Valid (entries list)) :
    (hostsIn list).len = (entries list).length := by
  rw [hvalidates.hostsOf_eq, ← (yields_hostsOf h.nodup).length_eq, List.length_map,
    h.length_reduceOption]

theorem Validates.get_hostsOf {list : α} (h : Valid (entries list)) {seedPeer : SeedPeer}
    (hmem : some seedPeer ∈ entries list) :
    (hostsIn list).get seedPeer.host.name = some seedPeer := by
  rw [hvalidates.hostsOf_eq]
  exact DragonflySdk.get_hostsOf h.nodup (List.reduceOption_mem_iff.mpr hmem)

theorem Validates.len_pos {listing : Listing hostsIn} {s : SeedPeers crate}
    (hs : Serves entries listing s) : 0 < s.hosts.len := by
  rw [hs.hosts_eq, hvalidates.len_hostsOf hs.valid]
  exact List.length_pos_iff.mpr hs.valid.ne_nil

theorem Validates.handle_eq (s : SeedPeerSelector crate) (event : SeedPeersEvent hostsIn) :
    event.handle validate update after s =
      if event.Accepted entries then event.applyTo update after s else s := by
  cases event with
  | ejection call => exact (if_pos trivial).symm
  | updateSeedPeers listing =>
    have hiff : SeedPeersEvent.Accepted entries (.updateSeedPeers listing) ↔
        validate listing.list = .ok () := (hvalidates.eq_ok_iff listing.list).symm
    rw [SeedPeersEvent.handle]
    cases hvalidate : validate listing.list with
    | error err => exact (if_neg (by rw [hiff, hvalidate]; nofun)).symm
    | ok _ => exact (if_pos (by rw [hiff, hvalidate])).symm

theorem Validates.foldl_handle_eq (s : SeedPeerSelector crate)
    (events : List (SeedPeersEvent hostsIn)) :
    events.foldl (SeedPeersEvent.handle validate update after) s =
      (events.filter fun event => event.Accepted entries).foldl
        (SeedPeersEvent.applyTo update after) s := by
  induction events generalizing s with
  | nil => rfl
  | cons event events ih =>
    rw [List.foldl_cons, hvalidates.handle_eq, ih]
    by_cases haccepted : event.Accepted entries
    · rw [if_pos haccepted, List.filter_cons_of_pos (by simpa using haccepted), List.foldl_cons]
    · rw [if_neg haccepted, List.filter_cons_of_neg (by simpa using haccepted)]

include hupdates

theorem Validates.serves_handle {last : Listing hostsIn} {s : SeedPeerSelector crate}
    (hs : Serves entries last s.seedPeers) (event : SeedPeersEvent hostsIn) :
    Serves entries (lastApplied entries last [event])
      (event.handle validate update after s).seedPeers := by
  rw [hvalidates.handle_eq]
  cases event with
  | ejection call =>
    rw [if_pos (show SeedPeersEvent.Accepted entries (.ejection call) from trivial)]
    exact hs
  | updateSeedPeers listing =>
    show Serves entries (if Valid (entries listing.list) then listing else last) _
    by_cases hvalid : SeedPeersEvent.Accepted entries (.updateSeedPeers listing)
    · obtain ⟨hhosts, hbuilds⟩ := hupdates.builds_update hs.builds listing.list listing.yields
      rw [if_pos hvalid, if_pos (show Valid (entries listing.list) from hvalid)]
      exact ⟨hvalid, hhosts, hhosts ▸ hbuilds⟩
    · rw [if_neg hvalid, if_neg (show ¬ Valid (entries listing.list) from hvalid)]
      exact hs

theorem Validates.serves_foldl {built : Listing hostsIn} {s : SeedPeerSelector crate}
    (hs : Serves entries built s.seedPeers) (events : List (SeedPeersEvent hostsIn)) :
    Serves entries (lastApplied entries built events)
      (events.foldl (SeedPeersEvent.handle validate update after) s).seedPeers := by
  induction events generalizing built s with
  | nil => exact hs
  | cons event events ih =>
    rw [List.foldl_cons]
    exact ih (hvalidates.serves_handle hupdates hs event)

omit hvalidates in
theorem serves_new {built : Listing hostsIn} (hvalid : Valid (entries built.list)) :
    Serves entries built (built.applyTo update ⟨SeedPeers.new, ∅⟩ : SeedPeerSelector crate).seedPeers := by
  obtain ⟨hhosts, hbuilds⟩ := hupdates.builds_update (s := SeedPeers.new) builds_new built.list built.yields
  exact ⟨hvalid, hhosts, hhosts ▸ hbuilds⟩

theorem Validates.appliesOnlyValid (hcrate : crate.Lawful)
    {select : SeedPeers crate → Nat → Str → Nat → Option (Except ε (List Host))} {nobody : ε}
    {finish : List SeedPeer → Except ε (List Host)} (hselects : Selects select nobody finish)
    {unhealthy : ε} (hfinish : ∀ seedPeers err, finish seedPeers = .error err → err = unhealthy)
    {built : Listing hostsIn} (hbuilt : validate built.list = .ok ())
    (events : List (SeedPeersEvent hostsIn)) :
    AppliesOnlyValid entries update after select unhealthy built events
      (events.foldl (SeedPeersEvent.handle validate update after)
        (built.applyTo update ⟨SeedPeers.new, ∅⟩)) := by
  have hvalid := (hvalidates.eq_ok_iff built.list).mp hbuilt
  have hserves : Serves entries (lastApplied entries built events)
      (events.foldl (SeedPeersEvent.handle validate update after)
        (built.applyTo update ⟨SeedPeers.new, ∅⟩)).seedPeers :=
    hvalidates.serves_foldl hupdates (serves_new hupdates hvalid) events
  have hlen := hvalidates.len_hostsOf hserves.valid
  rw [← hserves.hosts_eq] at hlen
  have hpos := hvalidates.len_pos hserves
  refine ⟨hvalidates.foldl_handle_eq _ _, hlen, fun seedPeer hmem => ?_, hpos, ?_, ?_⟩
  · rw [hserves.hosts_eq]
    exact hvalidates.get_hostsOf hserves.valid hmem
  · exact fun taskId replicas => length_replicaSeedPeers hcrate hserves.builds taskId replicas
  · intro fuel taskId replicas err hselect
    exact hselects.eq_error hcrate hfinish hpos.ne' hselect

end

/-! ### The proxies -/

section
variable {crates : ProxyCrates} {modules : Go.Modules}

theorem ProxyWithSeedPeers.after_selector (p : ProxyWithSeedPeers crates)
    (event : SeedPeersEvent hostsOf) :
    (p.after event).proxy.seedPeerSelector =
      event.handle validateSeedPeers SeedPeers.update Ejections.after p.proxy.seedPeerSelector := by
  cases event with
  | ejection call => rfl
  | updateSeedPeers listing =>
    rw [after, updateSeedPeers, SeedPeersEvent.handle]
    cases validateSeedPeers listing.list <;> rfl

theorem ProxyWithSeedPeers.run_selector (p : ProxyWithSeedPeers crates)
    (events : List (SeedPeersEvent hostsOf)) :
    (p.run events).proxy.seedPeerSelector =
      events.foldl (SeedPeersEvent.handle validateSeedPeers SeedPeers.update Ejections.after)
        p.proxy.seedPeerSelector := by
  induction events generalizing p with
  | nil => rfl
  | cons event events ih =>
    rw [List.foldl_cons, ← after_selector]
    exact ih (p.after event)

theorem ProxyWithSeedPeers.build_eq_ok {preferredLocalIp : Option IpAddr}
    {hostname : Except Str Str} {seedPeers : Listing hostsOf}
    {retry : RetryPolicy crates.backon} {p : ProxyWithSeedPeers crates}
    (h : build preferredLocalIp hostname seedPeers retry = .ok p) :
    validateSeedPeers seedPeers.list = .ok () ∧ retry.maxRetries ≤ 10 ∧
      p = ⟨⟨seedPeers.applyTo SeedPeers.update ⟨SeedPeers.new, ∅⟩, retry⟩⟩ := by
  obtain ⟨_, hvalidate, h⟩ := bind_eq_ok_iff.mp h
  unfold validate at hvalidate
  split at hvalidate
  · simp at hvalidate
  · rename_i hok
    split at hvalidate
    · simp at hvalidate
    · simp only at h
      split at h
      · simp at h
      · simp at h
      · exact ⟨hok, by omega, (Except.ok.inj h).symm⟩

theorem ProxyWithSeedPeers.build_valid (preferredLocalIp : IpAddr) (hostname : Str)
    {seedPeers : Listing hostsOf} {retry : RetryPolicy crates.backon}
    (hvalid : Valid (entries seedPeers.list)) (hretry : retry.maxRetries ≤ 10) :
    build (some preferredLocalIp) (.ok hostname) seedPeers retry =
      .ok ⟨⟨seedPeers.applyTo SeedPeers.update ⟨SeedPeers.new, ∅⟩, retry⟩⟩ := by
  have hretry' : ¬ 10 < retry.maxRetries := by omega
  rw [build, validate, (validates_rust.eq_ok_iff _).mpr hvalid]
  simp only [if_neg hretry']
  rfl

/-- Whatever happens to a proxy that was built, it serves a valid list. -/
theorem ProxyWithSeedPeers.serves_run {preferredLocalIp : Option IpAddr}
    {hostname : Except Str Str} {seedPeers : Listing hostsOf} {retry : RetryPolicy crates.backon}
    {p : ProxyWithSeedPeers crates} (h : build preferredLocalIp hostname seedPeers retry = .ok p)
    (events : List (SeedPeersEvent hostsOf)) :
    ∃ listing : Listing hostsOf,
      Serves entries listing (p.run events).proxy.seedPeerSelector.seedPeers := by
  obtain ⟨hvalid, _, rfl⟩ := build_eq_ok h
  rw [run_selector]
  exact ⟨_, validates_rust.serves_foldl updates_rust
    (serves_new updates_rust ((validates_rust.eq_ok_iff _).mp hvalid)) events⟩

theorem Go.ProxyWithSeedPeers.after_selector (p : Go.ProxyWithSeedPeers modules)
    (event : SeedPeersEvent Go.hostsOf) :
    (p.after event).proxy.seedPeerSelector =
      event.handle validateSeedPeers Go.update Go.after p.proxy.seedPeerSelector := by
  cases event with
  | ejection call => rfl
  | updateSeedPeers listing =>
    rw [after, updateSeedPeers, SeedPeersEvent.handle]
    cases validateSeedPeers listing.list <;> rfl

theorem Go.ProxyWithSeedPeers.run_selector (p : Go.ProxyWithSeedPeers modules)
    (events : List (SeedPeersEvent Go.hostsOf)) :
    (p.run events).proxy.seedPeerSelector =
      events.foldl (SeedPeersEvent.handle validateSeedPeers Go.update Go.after)
        p.proxy.seedPeerSelector := by
  induction events generalizing p with
  | nil => rfl
  | cons event events ih =>
    rw [List.foldl_cons, ← after_selector]
    exact ih (p.after event)

theorem Go.ProxyWithSeedPeers.new_eq_ok {seedPeers : Listing Go.hostsOf}
    {retry : Go.RetryPolicy modules.backoff} {p : Go.ProxyWithSeedPeers modules}
    (h : newWithSeedPeers seedPeers retry = .ok p) :
    validateSeedPeers seedPeers.list = .ok () ∧ retry.maxRetries ≤ 10 ∧
      p = ⟨⟨retry, seedPeers.applyTo Go.update ⟨SeedPeers.new, ∅⟩⟩⟩ := by
  unfold newWithSeedPeers at h
  split at h
  · simp at h
  · rename_i hok
    split at h
    · simp at h
    · exact ⟨hok, by omega, (Except.ok.inj h).symm⟩

end

/-! ### Refreshes -/

/-- What `refresh` returns. -/
def refreshResult : SingleFlight.Outcome ε → Except ε Unit
  | .busy | .wrote => .ok ()
  | .failed err => .error err

/-- The refreshes of a selector, which an update makes of what the scheduler lists. -/
def refreshes (update : SeedPeers crate → α → List Str → SeedPeers crate) :
    SingleFlight (Listing hostsIn) (SeedPeerSelector crate) :=
  ⟨Listing.applyTo update⟩

/-- What refreshes that list `listed` have made of the selector. -/
structure RefreshesApply {ι : Type} (update : SeedPeers crate → α → List Str → SeedPeers crate)
    (listed : ι → Except ε (Listing hostsIn)) (initial : SeedPeerSelector crate)
    (s : SingleFlight.State ι ε (SeedPeerSelector crate)) (order : List ι) : Prop where
  /-- Hosts, ring and ejections are those obtained from the lists of these refreshes. -/
  selector_eq : s.shared =
    (order.filterMap fun i => (listed i).toOption).foldl (Listing.applyTo update) initial
  nodup : order.Nodup
  /-- Among them is none whose listing fails, and none that found another one running. -/
  exists_listing : ∀ i ∈ order, ∃ listing, listed i = .ok listing
  not_busy : ∀ i, s.phase i = .ended .busy → i ∉ order
  /-- One that returns an error has failed to list. -/
  failed : ∀ i outcome err, s.phase i = .ended outcome → refreshResult outcome = .error err →
    listed i = .error err ∧ i ∉ order
  wrote : ∀ i, s.phase i = .ended .wrote → i ∈ order

theorem refreshes_apply {ι : Type} [DecidableEq ι]
    (update : SeedPeers crate → α → List Str → SeedPeers crate)
    (listed : ι → Except ε (Listing hostsIn)) (initial : SeedPeerSelector crate)
    {s : SingleFlight.State ι ε (SeedPeerSelector crate)}
    (h : SingleFlight.Reaches (refreshes update) listed (SingleFlight.init initial) s) :
    RefreshesApply update listed initial s s.writers := by
  have hinv := h.inv
  refine ⟨hinv.shared_eq, hinv.nodup, hinv.exists_fetched, fun i hbusy => ?_,
    fun i outcome err hended herr => ?_, fun i hwrote => ?_⟩
  · rw [hinv.mem_iff, hbusy]
    exact id
  · cases outcome with
    | busy => cases herr
    | wrote => cases herr
    | failed err' =>
      cases herr
      refine ⟨hinv.failed i err hended, ?_⟩
      rw [hinv.mem_iff, hended]
      exact id
  · rw [hinv.mem_iff, hwrote]
    trivial

/-! ### Rust and Go -/

theorem selectHealthy_eq_error {seedPeers : List SeedPeer} {err : Error}
    (h : SeedPeers.selectHealthy seedPeers = .error err) :
    err = .hostNotFound "selected seed peers".toList := by
  unfold SeedPeers.selectHealthy at h
  simp only at h
  split at h
  · exact (Except.error.inj h).symm
  · simp at h

theorem Go.selectHealthy_eq_error {seedPeers : List DragonflySdk.SeedPeer} {err : Str}
    (h : Go.selectHealthy seedPeers = .error err) :
    err = "host not found: selected seed peers".toList := by
  unfold Go.selectHealthy at h
  simp only at h
  split at h
  · exact (Except.error.inj h).symm
  · simp at h

/-- **Rejected lists and failed refreshes leave no trace**, in Rust and in Go. -/
theorem update_seed_peers_applies_valid (crates : ProxyCrates) (hring : crates.ring.Lawful)
    (modules : Go.Modules) (hgo : modules.ring.Lawful) :
    (∀ preferredLocalIp hostname built retry (p : ProxyWithSeedPeers crates),
      ProxyWithSeedPeers.build preferredLocalIp hostname built retry = .ok p → ∀ events,
        AppliesOnlyValid entries SeedPeers.update Ejections.after SeedPeers.select
          (.hostNotFound "selected seed peers".toList) built events
          (p.run events).proxy.seedPeerSelector) ∧
    (∀ built retry (p : Go.ProxyWithSeedPeers modules),
      Go.ProxyWithSeedPeers.newWithSeedPeers built retry = .ok p → ∀ events,
        AppliesOnlyValid Go.entries Go.update Go.after Go.select
          "host not found: selected seed peers".toList built events
          (p.run events).proxy.seedPeerSelector) ∧
    (∀ (ι : Type) [DecidableEq ι] (listed : ι → Except Error (Listing hostsOf))
      (initial : SeedPeerSelector crates.ring) s,
      SingleFlight.Reaches (refreshes SeedPeers.update) listed (SingleFlight.init initial) s →
        ∃ order, RefreshesApply SeedPeers.update listed initial s order) ∧
    (∀ (ι : Type) [DecidableEq ι] (listed : ι → Except Go.Error (Listing Go.hostsOf))
      (initial : SeedPeerSelector modules.ring) s,
      SingleFlight.Reaches (refreshes Go.update) listed (SingleFlight.init initial) s →
        ∃ order, RefreshesApply Go.update listed initial s order) := by
  refine ⟨?_, ?_, ?_, ?_⟩
  · intro preferredLocalIp hostname built retry p hbuild events
    obtain ⟨hbuilt, _, rfl⟩ := ProxyWithSeedPeers.build_eq_ok hbuild
    rw [ProxyWithSeedPeers.run_selector]
    exact validates_rust.appliesOnlyValid updates_rust hring selects_rust
      (fun _ _ => selectHealthy_eq_error) hbuilt events
  · intro built retry p hnew events
    obtain ⟨hbuilt, _, rfl⟩ := Go.ProxyWithSeedPeers.new_eq_ok hnew
    rw [Go.ProxyWithSeedPeers.run_selector]
    exact Go.validates.appliesOnlyValid updates_go hgo selects_go
      (fun _ _ => Go.selectHealthy_eq_error) hbuilt events
  · exact fun ι _ listed initial s h => ⟨s.writers, refreshes_apply _ listed initial h⟩
  · exact fun ι _ listed initial s h => ⟨s.writers, refreshes_apply _ listed initial h⟩

/-! ### Two seed peers, kept -/

def exampleListing : Listing hostsOf := ⟨exampleSeedPeers, exampleNames, yields_example⟩

def Go.exampleListing : Listing Go.hostsOf :=
  ⟨Go.exampleSeedPeers, exampleNames, Go.hostsOf_example ▸ yields_example⟩

/-- No seed peers at all. -/
def emptyListing : Listing hostsOf :=
  ⟨[], [], ⟨List.nodup_nil, by simp [hostsOf, Hosts.empty, Hosts.keys]⟩⟩

/-- A seed peer without a host. -/
def Go.nilListing : Listing Go.hostsOf :=
  ⟨[⟨none, true⟩], [], ⟨List.nodup_nil, by simp [Go.hostsOf, Hosts.empty, Hosts.keys]⟩⟩

/-- The listing of the scheduler fails. -/
def failedListing {ι : Type} (hostsIn : α → Hosts) (err : ε) (_ : ι) : Except ε (Listing hostsIn) := .error err

/-- After the only refresh has failed. -/
def failedRefresh (err : ε) (initial : SeedPeerSelector crate) :
    SingleFlight.State Unit ε (SeedPeerSelector crate) :=
  ((SingleFlight.init initial).goto () .fetching (some ())).goto () (.ended (.failed err)) none

theorem reaches_failedRefresh (p : SingleFlight (Listing hostsIn) (SeedPeerSelector crate)) (err : ε)
    (initial : SeedPeerSelector crate) :
    SingleFlight.Reaches p (failedListing hostsIn err) (SingleFlight.init initial)
      (failedRefresh err initial) := by
  have hfetching : ((SingleFlight.init initial : SingleFlight.State Unit ε _).goto () .fetching
      (some ())).phase () = .fetching := by
    rw [SingleFlight.State.goto_phase, if_pos rfl]
  exact .tail (.single (.takeOff () rfl rfl)) (.fail () err hfetching rfl)

def exampleIp : IpAddr := .v4 ⟨[127, 0, 0, 1], rfl⟩

/-- The proxy built with the two seed peers. -/
def exampleSeedPeersProxy : ProxyWithSeedPeers exampleCrates :=
  ⟨⟨exampleListing.applyTo SeedPeers.update ⟨SeedPeers.new, ∅⟩, ⟨1, none⟩⟩⟩

/-- Third-party code in Go, with the url as the task id. -/
def Go.exampleModules : Go.Modules := ⟨nameRing, Go.exampleBackoff, fun url _ _ _ _ _ _ => .ok url⟩

def Go.exampleSeedPeersProxy : Go.ProxyWithSeedPeers Go.exampleModules :=
  ⟨⟨⟨1, none⟩, Go.exampleListing.applyTo Go.update ⟨SeedPeers.new, ∅⟩⟩⟩

theorem Go.new_example : Go.ProxyWithSeedPeers.newWithSeedPeers Go.exampleListing ⟨1, none⟩ =
    .ok Go.exampleSeedPeersProxy := by
  have hvalid : Go.ProxyWithSeedPeers.validateSeedPeers Go.exampleListing.list = .ok () :=
    (Go.validates.eq_ok_iff _).mpr (by decide)
  rw [Go.ProxyWithSeedPeers.newWithSeedPeers, hvalid]
  rfl

/-- Two seed peers are not replaced by none, nor by one without a host, nor by a refresh that
fails. -/
theorem update_seed_peers_applies_valid_kept :
    AppliesOnlyValid entries SeedPeers.update Ejections.after SeedPeers.select
      (.hostNotFound "selected seed peers".toList) exampleListing [.updateSeedPeers emptyListing]
      (exampleSeedPeersProxy.run [.updateSeedPeers emptyListing]).proxy.seedPeerSelector ∧
    AppliesOnlyValid Go.entries Go.update Go.after Go.select
      "host not found: selected seed peers".toList Go.exampleListing
      [.updateSeedPeers Go.nilListing]
      (Go.exampleSeedPeersProxy.run [.updateSeedPeers Go.nilListing]).proxy.seedPeerSelector ∧
    (∃ order, RefreshesApply SeedPeers.update (failedListing hostsOf (.internal []))
      ⟨exampleRust, ∅⟩ (failedRefresh (Error.internal []) ⟨exampleRust, ∅⟩) order) ∧
    (∃ order, RefreshesApply Go.update (failedListing Go.hostsOf .canceled)
      ⟨exampleGo, ∅⟩ (failedRefresh Go.Error.canceled ⟨exampleGo, ∅⟩) order) := by
  obtain ⟨hrust, hgo, hrefresh, hgoRefresh⟩ := update_seed_peers_applies_valid exampleCrates
    nameRing.lawful Go.exampleModules nameRing.lawful
  refine ⟨?_, ?_, ?_, ?_⟩
  · exact hrust _ _ _ _ exampleSeedPeersProxy (ProxyWithSeedPeers.build_valid exampleIp []
      (show Valid (entries exampleSeedPeers) by decide) (by decide)) _
  · exact hgo _ _ Go.exampleSeedPeersProxy Go.new_example _
  · exact hrefresh Unit _ _ _ (reaches_failedRefresh _ _ _)
  · exact hgoRefresh Unit _ _ _ (reaches_failedRefresh _ _ _)

end DragonflySdk
