import DragonflySdk.Selector

/-!
# The seed peer selector in Go

`selector.go`, where it is written differently: the listed seed peers may have no host, the
comparison of the names is a loop, and the errors are texts. The state is that of the selector in
Rust, over the ring of Go's own module; the zero time of an ejection is `none`.
-/

namespace DragonflySdk.Go

open Foundation

/-- A seed peer as listed; the pointer to its host may be nil. The map holds none of those. -/
structure SeedPeer where
  host : Option Host
  healthy : Bool
deriving DecidableEq, Repr

/-- The map `Update` collects the listed seed peers into. -/
def hostsOf (seedPeers : List SeedPeer) : Hosts :=
  seedPeers.foldl (fun hosts seedPeer =>
    match seedPeer.host with
    | none => hosts
    | some host => hosts.insert ⟨host, seedPeer.healthy⟩) Hosts.empty

/-- Those without a host are skipped. -/
theorem hostsOf_eq (seedPeers : List SeedPeer) :
    hostsOf seedPeers = DragonflySdk.hostsOf (seedPeers.filterMap fun seedPeer =>
      seedPeer.host.map fun host => ⟨host, seedPeer.healthy⟩) := by
  unfold hostsOf DragonflySdk.hostsOf
  rw [List.foldl_filterMap]
  congr 1
  funext hosts seedPeer
  cases seedPeer.host <;> rfl

/-- Whether the host names are unchanged. -/
def unchanged (old new : Hosts) : Bool :=
  if ∃ name ∈ new.keys, name ∉ old.keys then false else decide (new.len = old.len)

theorem unchanged_iff {old new : Hosts} : unchanged old new = true ↔ old.keys = new.keys := by
  rw [← SeedPeers.unchanged_iff, unchanged, SeedPeers.unchanged, Bool.and_eq_true,
    decide_eq_true_iff, decide_eq_true_iff]
  by_cases hnew : ∃ name ∈ new.keys, name ∉ old.keys
  · rw [if_pos hnew]
    obtain ⟨name, hname, hold⟩ := hnew
    exact ⟨fun h => absurd h (by simp), fun h => absurd (h.2 name hname) hold⟩
  · rw [if_neg hnew, decide_eq_true_iff]
    push Not at hnew
    exact ⟨fun h => ⟨h.symm, hnew⟩, fun h => h.1.symm⟩

variable {crate : HashRingCrate}

/-- Replaces the seed peers and their health; `names` is what ranging over the new map yields. -/
def update (s : SeedPeers crate) (seedPeers : List SeedPeer) (names : List Str) :
    SeedPeers crate :=
  let hosts := hostsOf seedPeers
  if unchanged s.hosts hosts then { s with hosts := hosts }
  else { hosts := hosts, hashring := crate.build names }

/-- What `Select` makes of the replicas. -/
def selectHealthy (replicaSeedPeers : List DragonflySdk.SeedPeer) : Except Str (List Host) :=
  let seedPeers := (replicaSeedPeers.filter (·.healthy)).map (·.host)
  if seedPeers.length = 0 then .error "host not found: selected seed peers".toList
  else .ok seedPeers

/-- Selects the healthy replicas of the task, up to `replicas` of them. -/
def select (s : SeedPeers crate) (fuel : Nat) (taskId : Str) (replicas : Nat) :
    Option (Except Str (List Host)) :=
  if s.hosts.len = 0 then some (.error "host not found: seed peers".toList)
  else
    let expectedReplicas := min replicas s.hosts.len
    let replicaSeedPeers := windowLoop (crate.vnodes s.hashring taskId) s.hosts.get expectedReplicas
      (crate.len s.hashring) fuel (expectedReplicas * 2)
    replicaSeedPeers.map selectHealthy

/-! ### The ejections -/

/-- Records a failure to connect to the proxy at `endpoint`. -/
def onFailure (ejections : Ejections) (now : Nat) (endpoint : Str) : Ejections :=
  let e := match ejections.lookup endpoint with
    | some e => e
    | none => ⟨0, none⟩
  let e := { e with failedCount := e.failedCount + 1 }
  let e := if maxFailedCount ≤ e.failedCount then { e with failedCount := 0, ejectedAt := some now }
    else e
  ejections.insert endpoint e

/-- Records an answer of the proxy at `endpoint`. -/
def onSuccess (ejections : Ejections) (endpoint : Str) : Ejections :=
  if endpoint ∉ ejections then ejections else ejections.erase endpoint

/-- Whether the proxy at `endpoint` is ejected. -/
def isEjected (ejections : Ejections) (now : Nat) (endpoint : Str) : Bool :=
  match ejections.lookup endpoint with
  | some ⟨_, some ejectedAt⟩ => now - ejectedAt < ejectionCooldown
  | _ => false

theorem onFailure_eq (ejections : Ejections) (now : Nat) (endpoint : Str) :
    onFailure ejections now endpoint = ejections.onFailure now endpoint := by
  unfold onFailure Ejections.onFailure
  cases ejections.lookup endpoint <;> rfl

theorem onSuccess_eq (ejections : Ejections) (endpoint : Str) :
    onSuccess ejections endpoint = ejections.onSuccess endpoint := by
  unfold onSuccess Ejections.onSuccess
  rw [ite_not]

theorem isEjected_eq (ejections : Ejections) (now : Nat) (endpoint : Str) :
    isEjected ejections now endpoint = ejections.isEjected now endpoint := by
  unfold isEjected Ejections.isEjected
  rcases ejections.lookup endpoint with _ | ⟨_, _ | _⟩ <;> rfl

/-- The seed peers of the example, as Go lists them. -/
def exampleSeedPeers : List SeedPeer :=
  DragonflySdk.exampleSeedPeers.map fun seedPeer => ⟨some seedPeer.host, seedPeer.healthy⟩

theorem hostsOf_example : hostsOf exampleSeedPeers = DragonflySdk.hostsOf DragonflySdk.exampleSeedPeers := by
  rw [hostsOf_eq]
  rfl

end DragonflySdk.Go
