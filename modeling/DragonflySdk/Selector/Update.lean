import DragonflySdk.Foundation.SplitUpdate
import DragonflySdk.Selector.Go

/-!
# Concurrent updates of the selector

`update` compares the host names under the write lock, but builds the ring without it. Its steps
are those of `SplitUpdate`, with the hosts as data and the ring as index. Run on its own, they are
the function `update` (`reaches_update`); among any number of others, they leave a selector like the
one built afresh from the last list written (`update_linearizable`), in Rust and in Go.
-/

namespace DragonflySdk

open Foundation

variable {crate : HashRingCrate} {α : Type}

/-- The ring is one that is built from the hosts. -/
def Builds (crate : HashRingCrate) (hosts : Hosts) (ring : crate.Ring) : Prop :=
  ∃ names, hosts.Yields names ∧ ring = crate.build names

/-- The steps of an update that collects its hosts and compares them with the current ones. -/
def splitUpdate (crate : HashRingCrate) (hostsOf : α → Hosts) (unchanged : Hosts → Hosts → Bool) :
    SplitUpdate α Hosts crate.Ring where
  dataOf := hostsOf
  unchanged := unchanged
  Builds := Builds crate

/-- The steps of `SeedPeerSelector::update`. -/
def updateSteps (crate : HashRingCrate) : SplitUpdate (List SeedPeer) Hosts crate.Ring :=
  splitUpdate crate hostsOf SeedPeers.unchanged

/-- The steps of `SeedPeerSelector.Update`. -/
def Go.updateSteps (crate : HashRingCrate) : SplitUpdate (List Go.SeedPeer) Hosts crate.Ring :=
  splitUpdate crate Go.hostsOf Go.unchanged

/-- A new selector, before any call. -/
abbrev SelectorState.new {ι : Type} (crate : HashRingCrate) :
    SplitUpdate.State ι Hosts crate.Ring :=
  SplitUpdate.init Hosts.empty crate.new

/-- What a select sees. -/
def current {ι : Type} (s : SplitUpdate.State ι Hosts crate.Ring) : SeedPeers crate :=
  ⟨s.data, s.index⟩

/-- The seed peers that concurrent updates can leave. -/
def Reachable (steps : SplitUpdate α Hosts crate.Ring) (seedPeers : SeedPeers crate) : Prop :=
  ∃ (lists : Nat → α) (s : SplitUpdate.State Nat Hosts crate.Ring),
    steps.Reaches lists (SelectorState.new crate) s ∧ current s = seedPeers

/-! ### Hosts and ring in step -/

theorem builds_new : Builds crate Hosts.empty crate.new :=
  ⟨[], ⟨List.nodup_nil, by simp [Hosts.empty, Hosts.keys]⟩, rfl⟩

theorem Builds.of_keys_eq {hosts hosts' : Hosts} {ring : crate.Ring}
    (hkeys : hosts.keys = hosts'.keys) (h : Builds crate hosts ring) : Builds crate hosts' ring := by
  obtain ⟨names, hnames, hring⟩ := h
  exact ⟨names, hnames.of_keys_eq hkeys, hring⟩

theorem Builds.eq_build (hcrate : crate.Lawful) {hosts : Hosts} {ring : crate.Ring}
    (h : Builds crate hosts ring) {names : List Str} (hnames : hosts.Yields names) :
    ring = crate.build names := by
  obtain ⟨names', hnames', hring⟩ := h
  rw [hring]
  exact hcrate.build_perm names' names (hnames'.perm hnames rfl) hnames'.nodup

theorem Builds.mem_walk (hcrate : crate.Lawful) {hosts : Hosts} {ring : crate.Ring}
    (h : Builds crate hosts ring) (key name : Str) :
    name ∈ crate.walk ring key ↔ name ∈ hosts.keys := by
  obtain ⟨names, hnames, hring⟩ := h
  rw [hring, hcrate.mem_walk names hnames.nodup, hnames.mem_iff]

/-- Whoever collects the hosts and compares the names as sets. -/
structure Updates (hostsOf : α → Hosts) (unchanged : Hosts → Hosts → Bool)
    (update : SeedPeers crate → α → List Str → SeedPeers crate) : Prop where
  unchanged_iff : ∀ old new, unchanged old new = true ↔ old.keys = new.keys
  update_eq : ∀ s list names, update s list names =
    if unchanged s.hosts (hostsOf list) = true then ⟨hostsOf list, s.hashring⟩
    else ⟨hostsOf list, crate.build names⟩

theorem updates_rust : Updates hostsOf SeedPeers.unchanged (@SeedPeers.update crate) :=
  ⟨fun _ _ => SeedPeers.unchanged_iff, fun _ _ _ => rfl⟩

theorem updates_go : Updates Go.hostsOf Go.unchanged (@Go.update crate) :=
  ⟨fun _ _ => Go.unchanged_iff, fun _ _ _ => rfl⟩

section
variable {hostsOf : α → Hosts} {unchanged : Hosts → Hosts → Bool}
  {update : SeedPeers crate → α → List Str → SeedPeers crate}
  (h : Updates hostsOf unchanged update)
include h

theorem Updates.inv {ι : Type} [DecidableEq ι] {lists : ι → α}
    {s : SplitUpdate.State ι Hosts crate.Ring}
    (hrun : (splitUpdate crate hostsOf unchanged).Reaches lists (SelectorState.new crate) s) :
    (splitUpdate crate hostsOf unchanged).Inv lists Hosts.empty s :=
  SplitUpdate.Reaches.inv
    (fun old new _ hsame hbuilds => hbuilds.of_keys_eq ((h.unchanged_iff old new).mp hsame))
    builds_new hrun

theorem Updates.builds_of_reachable {s : SeedPeers crate}
    (hs : Reachable (splitUpdate crate hostsOf unchanged) s) : Builds crate s.hosts s.hashring := by
  obtain ⟨lists, state, hrun, rfl⟩ := hs
  exact (h.inv hrun).builds

theorem Updates.builds_update {s : SeedPeers crate} (hs : Builds crate s.hosts s.hashring) (list : α)
    {names : List Str} (hnames : (hostsOf list).Yields names) :
    (update s list names).hosts = hostsOf list ∧
      Builds crate (hostsOf list) (update s list names).hashring := by
  rw [h.update_eq]
  by_cases hsame : unchanged s.hosts (hostsOf list) = true
  · rw [if_pos hsame]
    exact ⟨rfl, hs.of_keys_eq ((h.unchanged_iff _ _).mp hsame)⟩
  · rw [if_neg hsame]
    exact ⟨rfl, names, hnames, rfl⟩

/-- The fast path is a rebuild. -/
theorem Updates.update_eq_rebuild (hcrate : crate.Lawful) {s : SeedPeers crate}
    (hs : Builds crate s.hosts s.hashring) (list : α) {names : List Str}
    (hnames : (hostsOf list).Yields names) :
    update s list names = ⟨hostsOf list, crate.build names⟩ := by
  obtain ⟨hhosts, hbuilds⟩ := h.builds_update hs list hnames
  exact SeedPeers.ext hhosts (hbuilds.eq_build hcrate hnames)

theorem Updates.reaches_update {ι : Type} [DecidableEq ι] {lists : ι → α}
    {s : SplitUpdate.State ι Hosts crate.Ring} {i : ι} (hidle : s.phase i = .idle)
    (hfree : s.holder = none) {names : List Str} (hnames : (hostsOf (lists i)).Yields names) :
    ∃ s', (splitUpdate crate hostsOf unchanged).Reaches lists s s' ∧ s'.phase i = .returned ∧
      s'.holder = none ∧ current s' = update (current s) (lists i) names := by
  let steps := splitUpdate crate hostsOf unchanged
  let s₁ := s.goto i .called s.holder
  have hcall : steps.Step lists s s₁ := .call i hidle
  have hcalled : s₁.phase i = .called := s.goto_phase_self i _ _
  rw [h.update_eq]
  by_cases hsame : unchanged s.data (hostsOf (lists i)) = true
  · rw [if_pos (show unchanged (current s).hosts _ = true from hsame)]
    let s₂ := s₁.write i (hostsOf (lists i)) s₁.index
    have hcompare : steps.Step lists s₁ s₂ := .compareFast i hcalled hfree hsame
    have hfinish : steps.Step lists s₂ (s₂.goto i .returned none) :=
      .finish i (s₁.write_phase_self i _ _) rfl
    exact ⟨_, .tail (.tail (.single hcall) hcompare) hfinish, s₂.goto_phase_self i _ _, rfl, rfl⟩
  · rw [if_neg (show ¬ unchanged (current s).hosts _ = true from hsame)]
    let s₂ := s₁.goto i .compared (some i)
    let s₃ := s₂.goto i .released none
    let s₄ := s₃.goto i (.built (crate.build names)) s₃.holder
    let s₅ := s₄.write i (hostsOf (lists i)) (crate.build names)
    have hcompare : steps.Step lists s₁ s₂ :=
      .compareSlow i hcalled hfree (Bool.eq_false_of_not_eq_true hsame)
    have hrelease : steps.Step lists s₂ s₃ := .release i (s₁.goto_phase_self i _ _) rfl
    have hbuild : steps.Step lists s₃ s₄ :=
      .build i _ (s₂.goto_phase_self i _ _) ⟨names, hnames, rfl⟩
    have hwrite : steps.Step lists s₄ s₅ := .write i _ (s₃.goto_phase_self i _ _) rfl
    have hfinish : steps.Step lists s₅ (s₅.goto i .returned none) :=
      .finish i (s₄.write_phase_self i _ _) rfl
    exact ⟨_, .tail (.tail (.tail (.tail (.tail (.single hcall) hcompare) hrelease) hbuild) hwrite)
      hfinish, s₅.goto_phase_self i _ _, rfl, rfl⟩

theorem Updates.reachable_update (list : α) {names : List Str} (hnames : (hostsOf list).Yields names) :
    Reachable (splitUpdate crate hostsOf unchanged) (update SeedPeers.new list names) := by
  obtain ⟨s, hrun, _, _, hs⟩ := @Updates.reaches_update _ _ _ _ _ h ℕ _ (fun _ => list)
    (SelectorState.new crate) 0 rfl rfl names hnames
  exact ⟨fun _ => list, s, hrun, hs⟩

end

/-! ### Linearizability -/

/-- What concurrent updates with these lists come to. -/
structure Linearizable {ι ε : Type} [DecidableEq ι] (steps : SplitUpdate α Hosts crate.Ring)
    (update : SeedPeers crate → α → List Str → SeedPeers crate)
    (select : SeedPeers crate → Nat → Str → Nat → Option (Except ε (List Host)))
    (lists : ι → α) : Prop where
  /-- The names on the ring are the keys of the hosts. -/
  names_eq : ∀ s, steps.Reaches lists (SelectorState.new crate) s →
    ∀ key name, name ∈ crate.walk s.index key ↔ name ∈ s.data.keys
  /-- The ring is the one a rebuild gives. -/
  index_eq : ∀ s, steps.Reaches lists (SelectorState.new crate) s →
    ∀ names, s.data.Yields names → s.index = crate.build names
  /-- A select returns what it does on a selector freshly updated with the last list written. -/
  select_eq : ∀ s, steps.Reaches lists (SelectorState.new crate) s →
    ∀ i, s.lastWriter = some i → ∀ names, (steps.dataOf (lists i)).Yields names →
      ∀ fuel taskId replicas, select (current s) fuel taskId replicas =
        select (update SeedPeers.new (lists i) names) fuel taskId replicas
  /-- Before the first write, it returns what it does on a new selector. -/
  select_new : ∀ s, steps.Reaches lists (SelectorState.new crate) s → s.lastWriter = none →
    ∀ fuel taskId replicas, select (current s) fuel taskId replicas =
      select SeedPeers.new fuel taskId replicas
  /-- Once an update has returned, its list is not the one in effect after the return of any update
  called later. -/
  overtaken : ∀ s s', steps.Reaches lists (SelectorState.new crate) s → steps.Reaches lists s s' →
    ∀ a b, s.phase a = .returned → s.phase b = .idle → s'.phase b = .returned →
      s'.lastWriter ≠ some a

theorem Updates.linearizable {ι ε : Type} [DecidableEq ι] (hcrate : crate.Lawful)
    {hostsOf : α → Hosts} {unchanged : Hosts → Hosts → Bool}
    {update : SeedPeers crate → α → List Str → SeedPeers crate}
    (h : Updates hostsOf unchanged update)
    (select : SeedPeers crate → Nat → Str → Nat → Option (Except ε (List Host)))
    (lists : ι → α) : Linearizable (splitUpdate crate hostsOf unchanged) update select lists where
  names_eq s hrun := (h.inv hrun).builds.mem_walk hcrate
  index_eq s hrun names hnames := (h.inv hrun).builds.eq_build hcrate hnames
  select_eq s hrun i hwriter names hnames fuel taskId replicas := by
    have hdata : s.data = hostsOf (lists i) := by
      rw [(h.inv hrun).data_eq, hwriter]
      rfl
    have hnames' : s.data.Yields names := hdata ▸ hnames
    have hfresh : update SeedPeers.new (lists i) names = ⟨hostsOf (lists i), crate.build names⟩ :=
      h.update_eq_rebuild hcrate builds_new (lists i) hnames
    rw [hfresh, current, hdata, (h.inv hrun).builds.eq_build hcrate hnames']
  select_new s hrun hwriter fuel taskId replicas := by
    have hdata : s.data = Hosts.empty := by
      rw [(h.inv hrun).data_eq, hwriter]
      rfl
    have hnames : s.data.Yields [] := by
      rw [hdata]
      exact ⟨List.nodup_nil, by simp [Hosts.empty, Hosts.keys]⟩
    rw [current, hdata, (h.inv hrun).builds.eq_build hcrate hnames]
    rfl
  overtaken s s' _ hrun a b ha hb hb' := SplitUpdate.lastWriter_ne ha hb hrun hb'

/-- **Concurrent updates are linearizable**, in Rust and in Go. -/
theorem update_linearizable (rust go : HashRingCrate) (hrust : rust.Lawful) (hgo : go.Lawful)
    {ι : Type} [DecidableEq ι] (lists : ι → List SeedPeer) (goLists : ι → List Go.SeedPeer) :
    Linearizable (updateSteps rust) SeedPeers.update SeedPeers.select lists ∧
      Linearizable (Go.updateSteps go) Go.update Go.select goLists :=
  ⟨updates_rust.linearizable hrust _ lists, updates_go.linearizable hgo _ goLists⟩

/-- Two writers: one with the example's seed peers, one with none. -/
theorem update_linearizable_two :
    Linearizable (updateSteps nameRing) SeedPeers.update SeedPeers.select
        (fun writer : Bool => if writer then exampleSeedPeers else []) ∧
      Linearizable (Go.updateSteps nameRing) Go.update Go.select
        (fun writer : Bool => if writer then Go.exampleSeedPeers else [⟨none, true⟩]) :=
  update_linearizable nameRing nameRing nameRing.lawful nameRing.lawful _ _

end DragonflySdk
