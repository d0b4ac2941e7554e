import Mathlib.Data.Finmap
import DragonflySdk.Errors
import DragonflySdk.HashRing
import DragonflySdk.Net

/-!
# The seed peer selector

`selector.rs`: the seed peers by host name, the ring of their names, and the ejections of their
proxies. Every seed peer is on the ring, healthy or not; a task is served by those of its replicas
that are healthy.

The order in which a hash map yields its keys is arbitrary (`Hosts.Yields`) and handed to the
functions that iterate over one. `select` runs its loop on fuel.
-/

namespace DragonflySdk

open Foundation

/-- The host of a seed peer. -/
structure Host where
  name : Str
  ip : Str
  port : Int
  proxyPort : Int
deriving DecidableEq, Repr

/-- A seed peer listed by the scheduler, with the result of its health check. -/
structure SeedPeer where
  host : Host
  healthy : Bool
deriving DecidableEq, Repr

/-! ### The hosts -/

/-- The seed peers by host name. -/
@[ext] structure Hosts where
  map : Finmap fun _ : Str => SeedPeer
  named : ∀ name seedPeer, map.lookup name = some seedPeer → seedPeer.host.name = name

namespace Hosts

def empty : Hosts := ⟨∅, by simp⟩

def get (hosts : Hosts) (name : Str) : Option SeedPeer := hosts.map.lookup name

def keys (hosts : Hosts) : Finset Str := hosts.map.keys

def len (hosts : Hosts) : Nat := hosts.keys.card

/-- A later seed peer of the same name replaces the earlier one. -/
def insert (hosts : Hosts) (seedPeer : SeedPeer) : Hosts where
  map := hosts.map.insert seedPeer.host.name seedPeer
  named name other h := by
    by_cases hname : name = seedPeer.host.name
    · rw [hname, Finmap.lookup_insert] at h
      rw [hname, Option.some.inj h]
    · rw [Finmap.lookup_insert_of_ne _ hname] at h
      exact hosts.named name other h

/-- `names` is what `hosts.keys()` yields, in one of the orders it may have. -/
structure Yields (hosts : Hosts) (names : List Str) : Prop where
  nodup : names.Nodup
  mem_iff : ∀ name, name ∈ names ↔ name ∈ hosts.keys

theorem get_isSome_iff {hosts : Hosts} {name : Str} :
    (hosts.get name).isSome ↔ name ∈ hosts.keys := by
  rw [get, keys, Finmap.lookup_isSome, Finmap.mem_keys]

theorem mem_keys_insert {hosts : Hosts} {seedPeer : SeedPeer} {name : Str} :
    name ∈ (hosts.insert seedPeer).keys ↔ name = seedPeer.host.name ∨ name ∈ hosts.keys := by
  rw [keys, keys, insert, Finmap.mem_keys, Finmap.mem_keys, Finmap.mem_insert]

theorem get_insert (hosts : Hosts) (seedPeer : SeedPeer) (name : Str) :
    (hosts.insert seedPeer).get name =
      if name = seedPeer.host.name then some seedPeer else hosts.get name := by
  by_cases h : name = seedPeer.host.name
  · rw [if_pos h, h, get, insert, Finmap.lookup_insert]
  · rw [if_neg h, get, insert, Finmap.lookup_insert_of_ne _ h]
    rfl

theorem name_of_get {hosts : Hosts} {name : Str} {seedPeer : SeedPeer}
    (h : hosts.get name = some seedPeer) : seedPeer.host.name = name :=
  hosts.named name seedPeer h

theorem exists_yields (hosts : Hosts) : ∃ names, hosts.Yields names :=
  ⟨hosts.keys.toList, hosts.keys.nodup_toList, fun _ => Finset.mem_toList⟩

namespace Yields

variable {hosts hosts' : Hosts} {names names' : List Str}

theorem length_eq (h : hosts.Yields names) : names.length = hosts.len := by
  have hkeys : names.toFinset = hosts.keys := by
    ext name
    rw [List.mem_toFinset, h.mem_iff]
  rw [len, ← hkeys, List.toFinset_card_of_nodup h.nodup]

theorem perm (h : hosts.Yields names) (h' : hosts'.Yields names') (hkeys : hosts.keys = hosts'.keys) :
    names.Perm names' := by
  rw [List.perm_ext_iff_of_nodup h.nodup h'.nodup]
  intro name
  rw [h.mem_iff, h'.mem_iff, hkeys]

theorem of_keys_eq (h : hosts.Yields names) (hkeys : hosts.keys = hosts'.keys) :
    hosts'.Yields names :=
  ⟨h.nodup, fun name => by rw [h.mem_iff, hkeys]⟩

end Yields

end Hosts

/-- The map `update` collects the listed seed peers into. -/
def hostsOf (seedPeers : List SeedPeer) : Hosts := seedPeers.foldl Hosts.insert Hosts.empty

theorem hostsOf_concat (seedPeers : List SeedPeer) (seedPeer : SeedPeer) :
    hostsOf (seedPeers ++ [seedPeer]) = (hostsOf seedPeers).insert seedPeer := by
  rw [hostsOf, List.foldl_append]
  rfl

theorem mem_keys_hostsOf {seedPeers : List SeedPeer} {name : Str} :
    name ∈ (hostsOf seedPeers).keys ↔ name ∈ seedPeers.map fun seedPeer => seedPeer.host.name := by
  induction seedPeers using List.reverseRecOn with
  | nil => simp [hostsOf, Hosts.empty, Hosts.keys]
  | append_singleton seedPeers seedPeer ih =>
    rw [hostsOf_concat, Hosts.mem_keys_insert, ih, List.map_append, List.mem_append, or_comm,
      List.map_singleton, List.mem_singleton]

theorem mem_of_get_hostsOf {seedPeers : List SeedPeer} {name : Str} {seedPeer : SeedPeer}
    (h : (hostsOf seedPeers).get name = some seedPeer) : seedPeer ∈ seedPeers := by
  induction seedPeers using List.reverseRecOn with
  | nil => simp [hostsOf, Hosts.get, Hosts.empty] at h
  | append_singleton seedPeers last ih =>
    rw [hostsOf_concat, Hosts.get_insert] at h
    rw [List.mem_append, List.mem_singleton]
    by_cases hname : name = last.host.name
    · rw [if_pos hname] at h
      exact Or.inr (Option.some.inj h).symm
    · rw [if_neg hname] at h
      exact Or.inl (ih h)

theorem yields_hostsOf {seedPeers : List SeedPeer}
    (h : (seedPeers.map fun seedPeer => seedPeer.host.name).Nodup) :
    (hostsOf seedPeers).Yields (seedPeers.map fun seedPeer => seedPeer.host.name) :=
  ⟨h, fun _ => mem_keys_hostsOf.symm⟩

theorem get_hostsOf {seedPeers : List SeedPeer}
    (h : (seedPeers.map fun seedPeer => seedPeer.host.name).Nodup) {seedPeer : SeedPeer}
    (hmem : seedPeer ∈ seedPeers) : (hostsOf seedPeers).get seedPeer.host.name = some seedPeer := by
  have hkey : seedPeer.host.name ∈ (hostsOf seedPeers).keys :=
    mem_keys_hostsOf.mpr (List.mem_map_of_mem hmem)
  obtain ⟨other, hother⟩ := Option.isSome_iff_exists.mp (Hosts.get_isSome_iff.mpr hkey)
  have hsame : other = seedPeer :=
    List.inj_on_of_nodup_map h (mem_of_get_hostsOf hother) hmem (Hosts.name_of_get hother)
  rw [hother, hsame]

/-! ### The ejections -/

/-- The maximum consecutive failures to connect to a seed peer proxy before it is ejected. -/
def maxFailedCount : Nat := 5

/-- The cooldown of an ejected seed peer proxy, in nanoseconds. -/
def ejectionCooldown : Nat := 30 * 1000000000

/-- The ejection state of a seed peer proxy; instants are in nanoseconds. -/
structure Ejection where
  failedCount : Nat
  ejectedAt : Option Nat
deriving DecidableEq, Repr

/-- The ejections of the seed peer proxies, keyed by proxy endpoint. -/
abbrev Ejections := Finmap fun _ : Str => Ejection

namespace Ejections

/-- Records a failure to connect to the proxy at `endpoint`. -/
def onFailure (ejections : Ejections) (now : Nat) (endpoint : Str) : Ejections :=
  let ejection := (ejections.lookup endpoint).getD ⟨0, none⟩
  let failedCount := ejection.failedCount + 1
  ejections.insert endpoint
    (if maxFailedCount ≤ failedCount then ⟨0, some now⟩ else ⟨failedCount, ejection.ejectedAt⟩)

/-- Records an answer of the proxy at `endpoint`, clearing its failures. -/
def onSuccess (ejections : Ejections) (endpoint : Str) : Ejections :=
  if endpoint ∈ ejections then ejections.erase endpoint else ejections

/-- Whether the proxy at `endpoint` is ejected. -/
def isEjected (ejections : Ejections) (now : Nat) (endpoint : Str) : Bool :=
  match (ejections.lookup endpoint).bind Ejection.ejectedAt with
  | some ejectedAt => now - ejectedAt < ejectionCooldown
  | none => false

end Ejections

/-- The endpoint of the proxy of the seed peer. -/
def proxyEndpoint (host : Host) : Except Error Str :=
  match IpAddr.parse host.ip with
  | some ip => .ok (formatUrl "http".toList ip (portOf host.proxyPort))
  | none => .error (.internal IpAddr.parseError)

/-! ### The seed peers -/

/-- The data of the seed peers; the ring is constructed from the hosts. -/
@[ext] structure SeedPeers (crate : HashRingCrate) where
  hosts : Hosts
  hashring : crate.Ring

namespace SeedPeers

variable {crate : HashRingCrate}

/-- A selector without any seed peer. -/
def new : SeedPeers crate := ⟨Hosts.empty, crate.new⟩

/-- Whether the host names are unchanged. -/
def unchanged (old new : Hosts) : Bool :=
  decide (old.len = new.len) && decide (∀ name ∈ new.keys, name ∈ old.keys)

/-- Replaces the seed peers and their health; `names` is what the keys of the new map yield. -/
def update (s : SeedPeers crate) (seedPeers : List SeedPeer) (names : List Str) :
    SeedPeers crate :=
  let hosts := hostsOf seedPeers
  if unchanged s.hosts hosts then { s with hosts := hosts }
  else { hosts := hosts, hashring := crate.build names }

/-- What `select` makes of the replicas: the hosts of the healthy ones, failing when there is
none. -/
def selectHealthy (replicaSeedPeers : List SeedPeer) : Except Error (List Host) :=
  let selected := (replicaSeedPeers.filter SeedPeer.healthy).map SeedPeer.host
  if selected = [] then .error (.hostNotFound "selected seed peers".toList) else .ok selected

/-- Selects the healthy replicas of the task, up to `replicas` of them. -/
def select (s : SeedPeers crate) (fuel : Nat) (taskId : Str) (replicas : Nat) :
    Option (Except Error (List Host)) :=
  if s.hosts.len = 0 then some (.error (.hostNotFound "seed peers".toList))
  else
    let expectedReplicas := min replicas s.hosts.len
    let replicaSeedPeers := windowLoop (crate.vnodes s.hashring taskId) s.hosts.get expectedReplicas
      (crate.len s.hashring) fuel (expectedReplicas * 2)
    replicaSeedPeers.map selectHealthy

/-- Selects every healthy seed peer; `names` is what the keys yield. -/
def selectAll (s : SeedPeers crate) (names : List Str) : Except Error (List Host) :=
  let selected := ((names.filterMap s.hosts.get).filter SeedPeer.healthy).map SeedPeer.host
  if selected = [] then .error (.hostNotFound "seed peers".toList) else .ok selected

theorem unchanged_iff {old new : Hosts} : unchanged old new = true ↔ old.keys = new.keys := by
  rw [unchanged, Bool.and_eq_true, decide_eq_true_iff, decide_eq_true_iff]
  constructor
  · rintro ⟨hlen, hsub⟩
    exact (Finset.eq_of_subset_of_card_le hsub hlen.le).symm
  · intro h
    exact ⟨by rw [Hosts.len, Hosts.len, h], fun name hname => h ▸ hname⟩

theorem update_hosts (s : SeedPeers crate) (seedPeers : List SeedPeer) (names : List Str) :
    (s.update seedPeers names).hosts = hostsOf seedPeers := by
  unfold update
  simp only
  split <;> rfl

theorem update_of_keys_eq {s : SeedPeers crate} {seedPeers : List SeedPeer} (names : List Str)
    (h : s.hosts.keys = (hostsOf seedPeers).keys) :
    s.update seedPeers names = { s with hosts := hostsOf seedPeers } :=
  if_pos (unchanged_iff.mpr h)

/-! ### The replicas -/

/-- The first `n` distinct seed peers clockwise from the task, healthy or not, or all of them. -/
def replicaSeedPeers (s : SeedPeers crate) (taskId : Str) (n : Nat) : List SeedPeer :=
  ((crate.walk s.hashring taskId).eraseDups.filterMap s.hosts.get).take (min n s.hosts.len)

theorem replicaSeedPeers_prefix (s : SeedPeers crate) (taskId : Str) {m n : Nat} (h : m ≤ n) :
    s.replicaSeedPeers taskId m <+: s.replicaSeedPeers taskId n :=
  List.take_prefix_take_left (by omega)

theorem length_replicaSeedPeers_le (s : SeedPeers crate) (taskId : Str) (n : Nat) :
    (s.replicaSeedPeers taskId n).length ≤ n := by
  rw [replicaSeedPeers, List.length_take]
  omega

theorem map_name_filterMap_get (hosts : Hosts) (names : List Str) :
    (names.filterMap hosts.get).map (fun seedPeer => seedPeer.host.name) =
      names.filter (· ∈ hosts.keys) := by
  induction names with
  | nil => rfl
  | cons name names ih =>
    rcases hget : hosts.get name with _ | seedPeer
    · have hname : name ∉ hosts.keys := by
        rw [← Hosts.get_isSome_iff, hget]
        simp
      rw [List.filterMap_cons_none hget, ih, List.filter_cons_of_neg (by simpa using hname)]
    · have hname : name ∈ hosts.keys := by
        rw [← Hosts.get_isSome_iff, hget]
        rfl
      rw [List.filterMap_cons_some hget, List.map_cons, ih, Hosts.name_of_get hget,
        List.filter_cons_of_pos (by simpa using hname)]

theorem map_name_replicaSeedPeers {s s' : SeedPeers crate} (hring : s'.hashring = s.hashring)
    (hkeys : s'.hosts.keys = s.hosts.keys) (taskId : Str) (n : Nat) :
    (s'.replicaSeedPeers taskId n).map (fun seedPeer => seedPeer.host.name) =
      (s.replicaSeedPeers taskId n).map (fun seedPeer => seedPeer.host.name) := by
  unfold replicaSeedPeers
  rw [List.map_take, List.map_take, map_name_filterMap_get, map_name_filterMap_get, Hosts.len,
    Hosts.len, hring, hkeys]

theorem get_name_of_mem_replicas {s : SeedPeers crate} {taskId : Str} {n : Nat}
    {seedPeer : SeedPeer} (h : seedPeer ∈ s.replicaSeedPeers taskId n) :
    s.hosts.get seedPeer.host.name = some seedPeer := by
  obtain ⟨name, _, hget⟩ := List.mem_filterMap.mp (List.mem_of_mem_take h)
  rw [Hosts.name_of_get hget, hget]

theorem select_unique {s : SeedPeers crate} {fuel fuel' : Nat} {taskId : Str} {replicas : Nat}
    {result result' : Except Error (List Host)} (h : s.select fuel taskId replicas = some result)
    (h' : s.select fuel' taskId replicas = some result') : result = result' := by
  unfold select at h h'
  by_cases hhosts : s.hosts.len = 0
  · rw [if_pos hhosts] at h h'
    exact Option.some.inj (h.symm.trans h')
  · rw [if_neg hhosts] at h h'
    obtain ⟨found, hfound, rfl⟩ := Option.map_eq_some_iff.mp h
    obtain ⟨found', hfound', rfl⟩ := Option.map_eq_some_iff.mp h'
    rw [windowLoop_unique hfound hfound']

end SeedPeers

/-- The selector: the seed peers and the ejections of their proxies. -/
structure SeedPeerSelector (crate : HashRingCrate) where
  seedPeers : SeedPeers crate
  ejections : Ejections

/-- What happens to a selector. -/
inductive SelectorEvent
  | update (seedPeers : List SeedPeer) (names : List Str)
  | onFailure (now : Nat) (endpoint : Str)
  | onSuccess (endpoint : Str)

/-- An update lists just the host names `keys`. -/
def SelectorEvent.KeepsNames (keys : Finset Str) : SelectorEvent → Prop
  | .update seedPeers _ => (hostsOf seedPeers).keys = keys
  | .onFailure _ _ | .onSuccess _ => True

namespace SeedPeerSelector

variable {crate : HashRingCrate}

def apply (s : SeedPeerSelector crate) : SelectorEvent → SeedPeerSelector crate
  | .update seedPeers names => { s with seedPeers := s.seedPeers.update seedPeers names }
  | .onFailure now endpoint => { s with ejections := s.ejections.onFailure now endpoint }
  | .onSuccess endpoint => { s with ejections := s.ejections.onSuccess endpoint }

def run (s : SeedPeerSelector crate) (events : List SelectorEvent) : SeedPeerSelector crate :=
  events.foldl apply s

theorem apply_keepsNames {s : SeedPeerSelector crate} {event : SelectorEvent}
    (h : event.KeepsNames s.seedPeers.hosts.keys) :
    (s.apply event).seedPeers.hashring = s.seedPeers.hashring ∧
      (s.apply event).seedPeers.hosts.keys = s.seedPeers.hosts.keys := by
  cases event with
  | update seedPeers names =>
    change (hostsOf seedPeers).keys = s.seedPeers.hosts.keys at h
    show (s.seedPeers.update seedPeers names).hashring = _ ∧
      (s.seedPeers.update seedPeers names).hosts.keys = _
    rw [SeedPeers.update_of_keys_eq names h.symm]
    exact ⟨rfl, h⟩
  | onFailure now endpoint => exact ⟨rfl, rfl⟩
  | onSuccess endpoint => exact ⟨rfl, rfl⟩

theorem run_keepsNames {s : SeedPeerSelector crate} {events : List SelectorEvent}
    (h : ∀ event ∈ events, event.KeepsNames s.seedPeers.hosts.keys) :
    (s.run events).seedPeers.hashring = s.seedPeers.hashring ∧
      (s.run events).seedPeers.hosts.keys = s.seedPeers.hosts.keys := by
  induction events generalizing s with
  | nil => exact ⟨rfl, rfl⟩
  | cons event events ih =>
    obtain ⟨hring, hkeys⟩ := apply_keepsNames (h event List.mem_cons_self)
    have hrest := @ih (s.apply event) fun event' hmem => by
      rw [hkeys]
      exact h event' (List.mem_cons_of_mem _ hmem)
    rw [hring, hkeys] at hrest
    exact hrest

end SeedPeerSelector

/-- A host whose proxy listens on port 4001. -/
def exampleHost (name : Str) : Host := ⟨name, "127.0.0.1".toList, 4000, 4001⟩

/-- Two healthy seed peers. -/
def exampleSeedPeers : List SeedPeer :=
  [⟨exampleHost "seed-peer-1".toList, true⟩, ⟨exampleHost "seed-peer-2".toList, true⟩]

def exampleNames : List Str := exampleSeedPeers.map fun seedPeer => seedPeer.host.name

theorem yields_example : (hostsOf exampleSeedPeers).Yields exampleNames :=
  yields_hostsOf (by decide)

end DragonflySdk
