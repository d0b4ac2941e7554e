import DragonflySdk.Foundation.Clockwise
import DragonflySdk.Selector.Select

/-!
# What moves when a seed peer joins

On a ring that places the vnodes of each name for itself (`HashRingCrate.PlacesVnodes`), a seed peer
that joins adds its vnodes and leaves those of the others where they are. The replicas of a task stay
the same, in order, unless the new seed peer is one of them; then at most the last one is dropped
(`select_moves_little`). A seed peer that leaves is the same the other way round.
-/

namespace DragonflySdk

open Foundation

variable {crate : HashRingCrate} {α ε : Type}

/-- Each name contributes a fixed set of vnodes, no two vnodes of the names in `all` share a position,
and a ring of some of these is the union of theirs, walked clockwise from the position of the key. -/
def HashRingCrate.PlacesVnodes (crate : HashRingCrate) {Pos : Type} [LinearOrder Pos]
    (vnodesOf : Str → Set Pos) (positionOf : Str → Pos) (all : Finset Str) : Prop :=
  ∀ names : List Str, names.Nodup → (∀ name ∈ names, name ∈ all) → ∃ ring : List (Pos × Str),
    Placed ring {point | point.2 ∈ names ∧ point.1 ∈ vnodesOf point.2} ∧
      ∀ key, crate.walk (crate.build names) key = clockwise (positionOf key) ring

/-- Every host is healthy. -/
def Hosts.AllHealthy (hosts : Hosts) : Prop :=
  ∀ name seedPeer, hosts.get name = some seedPeer → seedPeer.healthy = true

/-- The names of the hosts a select returns; none when it fails. -/
def selectedNames (result : Except ε (List Host)) : List Str :=
  (result.toOption.getD []).map Host.name

/-! ### The names of one select -/

theorem map_name_healthyHosts {hosts : Hosts} (hhealthy : hosts.AllHealthy) {names : List Str}
    (hnames : ∀ name ∈ names, name ∈ hosts.keys) :
    (healthyHosts (names.filterMap hosts.get)).map Host.name = names := by
  have hall : (names.filterMap hosts.get).filter SeedPeer.healthy = names.filterMap hosts.get := by
    refine List.filter_eq_self.mpr fun seedPeer hmem => ?_
    obtain ⟨name, _, hget⟩ := List.mem_filterMap.mp hmem
    exact hhealthy name seedPeer hget
  rw [healthyHosts, hall, List.map_map]
  show (names.filterMap hosts.get).map (fun seedPeer => seedPeer.host.name) = names
  rw [SeedPeers.map_name_filterMap_get, List.filter_eq_self.mpr]
  intro name hmem
  simpa using hnames name hmem

section
variable (hcrate : crate.Lawful) {s : SeedPeers crate} (hs : Builds crate s.hosts s.hashring)
include hcrate hs

theorem Selects.exists_names
    {select : SeedPeers crate → Nat → Str → Nat → Option (Except ε (List Host))} {nobody : ε}
    {finish : List SeedPeer → Except ε (List Host)} (h : Selects select nobody finish)
    (hhealthy : s.hosts.AllHealthy) (taskId : Str) {replicas : Nat} (hreplicas : 0 < replicas) :
    ∃ fuel result, select s fuel taskId replicas = some result ∧
      selectedNames result =
        (crate.walk s.hashring taskId).eraseDups.take (min replicas s.hosts.len) := by
  obtain ⟨fuel, result, hselect, hresult⟩ :=
    (h.exists_iff hcrate hs taskId replicas).mpr (Or.inl hreplicas)
  refine ⟨fuel, result, hselect, ?_⟩
  have hanswer : ∀ selected : List Host, (answer selected).getD [] = selected := by
    intro selected
    unfold answer
    split <;> simp [*]
  rw [selectedNames, hresult, hanswer, naiveSelect, map_name_healthyHosts hhealthy]
  intro name hmem
  rw [← hs.mem_walk hcrate taskId]
  exact List.mem_eraseDups.mp (List.mem_of_mem_take hmem)

end

/-! ### Before and after -/

/-- What the names selected before and after `joined` joins have to do with each other. -/
structure MovesLittle (joined : Str) (hosts replicas : Nat) (before after : List Str) : Prop where
  filter_prefix : after.filter (· ≠ joined) <+: before
  length_before : before.length = min replicas hosts
  length_after : after.length = min replicas (hosts + 1)
  /-- The replicas change only if the new seed peer becomes one of them. -/
  unchanged : joined ∉ after → after = before
  /-- At most the last replica is dropped. -/
  dropLast_prefix : before.dropLast <+: after.filter (· ≠ joined)

theorem movesLittle_take {joined : Str} {walk walk' : List Str} (hnodup : walk'.Nodup)
    (hwalk : walk = walk'.filter (· ≠ joined)) {hosts : Nat} (hlen : walk.length = hosts)
    (hlen' : walk'.length = hosts + 1) (replicas : Nat) :
    MovesLittle joined hosts replicas (walk.take (min replicas hosts))
      (walk'.take (min replicas (hosts + 1))) := by
  have hbefore : (walk.take (min replicas hosts)).length = min replicas hosts := by
    rw [List.length_take, hlen]
    omega
  have hafter : (walk'.take (min replicas (hosts + 1))).length = min replicas (hosts + 1) := by
    rw [List.length_take, hlen']
    omega
  have hinit : (walk'.take (min replicas (hosts + 1))).filter (· ≠ joined) <+:
      walk.take (min replicas hosts) := by
    subst hwalk
    exact take_filter_prefix _ (by omega)
  have hnodup' := hnodup.sublist (List.take_sublist (min replicas (hosts + 1)) walk')
  generalize walk'.take (min replicas (hosts + 1)) = after at hafter hinit hnodup' ⊢
  refine ⟨hinit, hbefore, hafter, fun hjoined => ?_, ?_⟩
  · have hall : after.filter (· ≠ joined) = after := by
      rw [List.filter_eq_self]
      intro name hmem
      simpa using fun heq : name = joined => hjoined (heq ▸ hmem)
    rw [hall] at hinit
    exact hinit.eq_of_length (Nat.le_antisymm hinit.length_le (by omega))
  · have herase : after.erase joined = after.filter (· ≠ joined) := by
      rw [hnodup'.erase_eq_filter]
      apply List.filter_congr
      intro name _
      simp [bne, Bool.beq_eq_decide_eq]
    have hlength := List.le_length_erase (a := joined) (l := after)
    rw [herase] at hlength
    refine List.prefix_of_prefix_length_le (List.dropLast_prefix _) hinit ?_
    rw [List.length_dropLast]
    omega

/-- A join moves little, in one language, if no two vnodes of the old and the new seed peers share a
position. -/
def JoinMovesLittle {Pos : Type} [LinearOrder Pos] (vnodesOf : Str → Set Pos)
    (positionOf : Str → Pos) (steps : SplitUpdate α Hosts crate.Ring)
    (update : SeedPeers crate → α → List Str → SeedPeers crate)
    (select : SeedPeers crate → Nat → Str → Nat → Option (Except ε (List Host))) : Prop :=
  ∀ s s' : SeedPeers crate, Reachable steps s → Reachable steps s' →
  ∀ (list list' : α) (names names' : List Str), (steps.dataOf list).Yields names →
    (steps.dataOf list').Yields names' → (steps.dataOf list).AllHealthy →
    (steps.dataOf list').AllHealthy →
  ∀ joined ∉ (steps.dataOf list).keys,
    (steps.dataOf list').keys = insert joined (steps.dataOf list).keys →
    crate.PlacesVnodes vnodesOf positionOf (steps.dataOf list').keys →
  ∀ (taskId : Str) (replicas : Nat), 1 ≤ replicas →
    ∃ fuel fuel' result result', select (update s list names) fuel taskId replicas = some result ∧
      select (update s' list' names') fuel' taskId replicas = some result' ∧
      MovesLittle joined (steps.dataOf list).len replicas (selectedNames result)
        (selectedNames result')

theorem joinMovesLittle (hcrate : crate.Lawful) {Pos : Type} [LinearOrder Pos]
    (vnodesOf : Str → Set Pos) (positionOf : Str → Pos) {hostsOf : α → Hosts}
    {unchanged : Hosts → Hosts → Bool} {update : SeedPeers crate → α → List Str → SeedPeers crate}
    (hupdates : Updates hostsOf unchanged update)
    {select : SeedPeers crate → Nat → Str → Nat → Option (Except ε (List Host))} {nobody : ε}
    {finish : List SeedPeer → Except ε (List Host)} (hselects : Selects select nobody finish) :
    JoinMovesLittle vnodesOf positionOf (splitUpdate crate hostsOf unchanged) update select := by
  intro s s' hs hs' list list' names names' hnames hnames' hhealthy hhealthy' joined hjoined hkeys
    hplaces taskId replicas hreplicas
  change (hostsOf list).Yields names at hnames
  change (hostsOf list').Yields names' at hnames'
  change (hostsOf list).AllHealthy at hhealthy
  change (hostsOf list').AllHealthy at hhealthy'
  change joined ∉ (hostsOf list).keys at hjoined
  change (hostsOf list').keys = insert joined (hostsOf list).keys at hkeys
  change crate.PlacesVnodes vnodesOf positionOf (hostsOf list').keys at hplaces
  -- after either update, the ring is that of the names
  have hbuilds : Builds crate (hostsOf list) (crate.build names) := ⟨names, hnames, rfl⟩
  have hbuilds' : Builds crate (hostsOf list') (crate.build names') := ⟨names', hnames', rfl⟩
  rw [hupdates.update_eq_rebuild hcrate (hupdates.builds_of_reachable hs) list hnames,
    hupdates.update_eq_rebuild hcrate (hupdates.builds_of_reachable hs') list' hnames']
  obtain ⟨fuel, result, hselect, hresult⟩ := hselects.exists_names (s := ⟨_, crate.build names⟩)
    hcrate hbuilds hhealthy taskId hreplicas
  obtain ⟨fuel', result', hselect', hresult'⟩ := hselects.exists_names
    (s := ⟨_, crate.build names'⟩) hcrate hbuilds' hhealthy' taskId hreplicas
  refine ⟨fuel, fuel', result, result', hselect, hselect', ?_⟩
  have hlen : (hostsOf list').len = (hostsOf list).len + 1 := by
    rw [Hosts.len, hkeys, Finset.card_insert_of_notMem hjoined, Hosts.len]
  -- the walk of the old names is that of the new ones without `joined`
  have hold : ∀ name ∈ names, name ∈ (hostsOf list').keys := by
    intro name hmem
    rw [hkeys]
    exact Finset.mem_insert_of_mem ((hnames.mem_iff name).mp hmem)
  obtain ⟨ring, hplaced, hwalk⟩ := hplaces names hnames.nodup hold
  obtain ⟨ring', hplaced', hwalk'⟩ := hplaces names' hnames'.nodup fun name => (hnames'.mem_iff name).mp
  have hpoints : {point : Pos × Str | point.2 ∈ names ∧ point.1 ∈ vnodesOf point.2} =
      {point ∈ {point : Pos × Str | point.2 ∈ names' ∧ point.1 ∈ vnodesOf point.2} |
        decide (point.2 ≠ joined) = true} := by
    ext ⟨pos, name⟩
    simp only [Set.mem_ofPred_eq, decide_eq_true_iff, hnames.mem_iff, hnames'.mem_iff, hkeys,
      Finset.mem_insert]
    constructor
    · intro h
      obtain ⟨hname, hpos⟩ := h
      exact ⟨⟨Or.inr hname, hpos⟩, fun heq => hjoined (heq ▸ hname)⟩
    · intro h
      obtain ⟨⟨hname, hpos⟩, hne⟩ := h
      exact ⟨hname.resolve_left hne, hpos⟩
  have hfilter : crate.walk (crate.build names) taskId =
      (crate.walk (crate.build names') taskId).filter (· ≠ joined) := by
    rw [hwalk, hwalk', hplaced.clockwise_filter hplaced' (fun name => decide (name ≠ joined)) hpoints]
  have heraseDups : (crate.walk (crate.build names) taskId).eraseDups =
      (crate.walk (crate.build names') taskId).eraseDups.filter (· ≠ joined) := by
    rw [hfilter, eraseDups_filter]
  rw [hresult, hresult']
  show MovesLittle joined (hostsOf list).len replicas _
    ((crate.walk (crate.build names') taskId).eraseDups.take (min replicas (hostsOf list').len))
  rw [hlen]
  exact movesLittle_take (nodup_eraseDups _) heraseDups
    (length_walk_eraseDups (s := ⟨_, crate.build names⟩) hcrate hbuilds taskId)
    ((length_walk_eraseDups (s := ⟨_, crate.build names'⟩) hcrate hbuilds' taskId).trans hlen)
    replicas

/-- **A join moves little**, in Rust and in Go. What is selected before and after may be asked in any
order, so a leave is the same the other way round. -/
theorem select_moves_little (rust go : HashRingCrate) (hrust : rust.Lawful) (hgo : go.Lawful)
    {Pos Pos' : Type} [LinearOrder Pos] [LinearOrder Pos']
    (vnodesOf : Str → Set Pos) (positionOf : Str → Pos) (vnodesOf' : Str → Set Pos')
    (positionOf' : Str → Pos') :
    JoinMovesLittle vnodesOf positionOf (updateSteps rust) SeedPeers.update SeedPeers.select ∧
      JoinMovesLittle vnodesOf' positionOf' (Go.updateSteps go) Go.update Go.select :=
  ⟨joinMovesLittle hrust vnodesOf positionOf updates_rust selects_rust,
    joinMovesLittle hgo vnodesOf' positionOf' updates_go selects_go⟩

/-! ### A ring by name -/

namespace nameRing

theorem placesVnodes (all : Finset Str) :
    nameRing.PlacesVnodes (fun name => {textOrder name}) textOrder all := by
  intro names hnames _
  obtain ⟨hsorted, hperm⟩ := build_pairwise_perm names
  refine ⟨(nameRing.build names).map fun name => (textOrder name, name), ⟨?_, ?_⟩, fun key => ?_⟩
  · rw [List.pairwise_map]
    have hne : (nameRing.build names).Nodup := hperm.nodup_iff.mpr hnames
    exact hsorted.imp₂ (fun a b hle hne => lt_of_le_of_ne hle (textOrder_injective.ne hne)) hne
  · intro h
    obtain ⟨pos, name⟩ := h
    simp only [List.mem_map, Prod.mk.injEq, hperm.mem_iff, Set.mem_ofPred_eq,
      Set.mem_singleton_iff]
    constructor
    · intro h
      obtain ⟨name', hmem, rfl, rfl⟩ := h
      exact ⟨hmem, rfl⟩
    · intro h
      obtain ⟨hmem, rfl⟩ := h
      exact ⟨name, hmem, rfl, rfl⟩
  · have hsnd : (Prod.snd ∘ fun name : Str => (textOrder name, name)) = id := rfl
    rw [walk_eq, namesFrom, clockwise, List.filter_map, List.filter_map, List.map_append,
      List.map_map, List.map_map, hsnd, List.map_id, List.map_id]
    congr 1
    exact List.filter_congr fun name _ => decide_eq_decide.mpr Iff.rfl

end nameRing

theorem allHealthy_hostsOf {seedPeers : List SeedPeer}
    (h : ∀ seedPeer ∈ seedPeers, seedPeer.healthy = true) : (hostsOf seedPeers).AllHealthy :=
  fun _ seedPeer hget => h seedPeer (mem_of_get_hostsOf hget)

/-- The second of two seed peers joins the first. -/
theorem select_moves_little_second :
    ∃ fuel fuel' result result',
      ((SeedPeers.new : SeedPeers nameRing).update (exampleSeedPeers.take 1)
          (exampleNames.take 1)).select fuel "task".toList 1 = some result ∧
        exampleRust.select fuel' "task".toList 1 = some result' ∧
        MovesLittle "seed-peer-2".toList (hostsOf (exampleSeedPeers.take 1)).len 1
          (selectedNames result) (selectedNames result') := by
  have hnew : Reachable (updateSteps nameRing) SeedPeers.new :=
    ⟨fun _ => [], SelectorState.new nameRing, .refl, rfl⟩
  exact (select_moves_little nameRing nameRing nameRing.lawful nameRing.lawful
    (fun name => {textOrder name}) textOrder (fun name => {textOrder name}) textOrder).1
    SeedPeers.new SeedPeers.new hnew hnew (exampleSeedPeers.take 1) exampleSeedPeers
    (exampleNames.take 1) exampleNames (yields_hostsOf (by decide)) yields_example
    (allHealthy_hostsOf (by decide)) (allHealthy_hostsOf (by decide)) "seed-peer-2".toList
    (by decide +kernel) (by decide +kernel) (nameRing.placesVnodes _) "task".toList 1 (Nat.le_refl 1)

end DragonflySdk
