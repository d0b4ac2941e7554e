import DragonflySdk.Foundation.Holding
import DragonflySdk.Selector.Select
import Mathlib.Data.ENat.Basic

/-!
# Placing a task on the seed peers

Preheats place a task on seed peers, gets may do so, and deletes reclaim it, while the seed peers
are updated and lose what they hold by themselves. All of these choose among the first seed peers
clockwise from the task, healthy or not: the reach of a request is how many, and a request of the
other scope reaches all (`SeedPeers.reach`). They call the healthy ones among them.

As long as the names of the seed peers stay, the reaches do. So the task is only in the largest
reach of what places it; a delete that reaches as far leaves it nowhere but on seed peers that were
not healthy when it was called; and after a preheat every lookup of at most as many replicas finds
seed peers that hold the task (`Reclaiming.reclaims`).
-/

namespace DragonflySdk

open Foundation

variable {crate : HashRingCrate}

/-! ### The reach of a request -/

namespace SeedPeers

/-- The names of all seed peers, clockwise from the task. -/
def clockwise (s : SeedPeers crate) (taskId : Str) : List Str :=
  (crate.walk s.hashring taskId).eraseDups.filter (· ∈ s.hosts.keys)

/-- The names of the first `n` of them, or of all. -/
def reach (s : SeedPeers crate) (taskId : Str) (n : ℕ∞) : Set Str :=
  {name | ∃ i : ℕ, i < n ∧ (s.clockwise taskId)[i]? = some name}

/-- The seed peer of this name is healthy, as it is listed now. -/
def Healthy (s : SeedPeers crate) (name : Str) : Prop :=
  ∃ seedPeer, s.hosts.get name = some seedPeer ∧ seedPeer.healthy = true

/-- The seed peers are those of the same names, on the same ring. -/
structure SameNames (s s' : SeedPeers crate) : Prop where
  hashring_eq : s'.hashring = s.hashring
  keys_eq : s'.hosts.keys = s.hosts.keys

theorem SameNames.trans {s s' s'' : SeedPeers crate} (h : SameNames s s') (h' : SameNames s' s'') :
    SameNames s s'' :=
  ⟨h'.hashring_eq.trans h.hashring_eq, h'.keys_eq.trans h.keys_eq⟩

theorem SameNames.reach_eq {s s' : SeedPeers crate} (h : SameNames s s') (taskId : Str) (n : ℕ∞) :
    s'.reach taskId n = s.reach taskId n := by
  unfold reach clockwise
  rw [h.hashring_eq, h.keys_eq]

theorem SameNames.builds {s s' : SeedPeers crate} (h : SameNames s s')
    (hs : Builds crate s.hosts s.hashring) : Builds crate s'.hosts s'.hashring :=
  h.hashring_eq ▸ hs.of_keys_eq h.keys_eq.symm

theorem reach_mono (s : SeedPeers crate) (taskId : Str) {m n : ℕ∞} (h : m ≤ n) :
    s.reach taskId m ⊆ s.reach taskId n :=
  fun _ ⟨i, hi, hname⟩ => ⟨i, hi.trans_le h, hname⟩

section
variable (hcrate : crate.Lawful) {s : SeedPeers crate} (hs : Builds crate s.hosts s.hashring)
  {taskId name : Str}
include hcrate hs

theorem clockwise_eq : s.clockwise taskId = (crate.walk s.hashring taskId).eraseDups := by
  refine List.filter_eq_self.mpr fun name hmem => decide_eq_true ?_
  exact (hs.mem_walk hcrate taskId name).mp (List.mem_eraseDups.mp hmem)

theorem mem_reach_top : name ∈ s.reach taskId ⊤ ↔ name ∈ s.hosts.keys := by
  rw [← hs.mem_walk hcrate taskId, ← List.mem_eraseDups, ← clockwise_eq hcrate hs,
    List.mem_iff_getElem?]
  exact exists_congr fun i => and_iff_right (ENat.natCast_lt_top i)

theorem mem_reach_natCast {n : ℕ} : name ∈ s.reach taskId n ↔
    ∃ seedPeer ∈ s.replicaSeedPeers taskId n, seedPeer.host.name = name := by
  rw [← List.mem_map, map_name_replicaSeedPeers_eq hcrate hs, ← clockwise_eq hcrate hs]
  have hlength := length_walk_eraseDups hcrate hs taskId
  rw [← clockwise_eq hcrate hs] at hlength
  rw [← hlength, ← List.take_eq_take_min, List.mem_iff_getElem?]
  refine exists_congr fun i => ?_
  rw [List.getElem?_take, Nat.cast_lt]
  by_cases hi : i < n
  · rw [if_pos hi, and_iff_right hi]
  · rw [if_neg hi]
    exact ⟨fun h => absurd h.1 hi, nofun⟩

end

/-- The operation addresses the healthy ones among the first `n` seed peers, or among all. -/
def Addresses (s : SeedPeers crate) (taskId : Str) (n : ℕ∞) (op : Holding.Operation Str) : Prop :=
  ∀ name, name ∈ op.addressed ↔ name ∈ s.reach taskId n ∧ s.Healthy name

end SeedPeers

/-! ### Runs -/

/-- What happens to the seed peers, and to one task of theirs. -/
inductive TaskEvent (ι α : Type)
  | updated (list : α)
  | task (event : Holding.Event ι Str)

namespace TaskEvent

variable {ι α : Type}

def task? : TaskEvent ι α → Option (Holding.Event ι Str)
  | updated _ => none
  | task event => some event

/-- It may take a seed peer away from what `aim` is. -/
def Disturbs (aim : Bool) (event : TaskEvent ι α) : Prop :=
  ∃ e name, event.task? = some e ∧ e.Disturbs aim name

end TaskEvent

/-- One step: an update that lists just the names there are, or one of the operations on the task,
which are called as the seed peers are then. -/
inductive TaskStep {ι α : Type} [DecidableEq ι] (hostsOf : α → Hosts)
    (update : SeedPeers crate → α → List Str → SeedPeers crate)
    (Calls : SeedPeers crate → Holding.Operation Str → Prop) :
    SeedPeers crate × Holding.State ι Str → TaskEvent ι α →
      SeedPeers crate × Holding.State ι Str → Prop
  | update {s h} (list : α) (names : List Str) (hkeys : (hostsOf list).keys = s.hosts.keys) :
      TaskStep hostsOf update Calls (s, h) (.updated list) (update s list names, h)
  | task {s h h'} (event : Holding.Event ι Str) (hstep : Holding.Step h event h')
      (hcall : ∀ i op, event = .called i op → Calls s op) :
      TaskStep hostsOf update Calls (s, h) (.task event) (s, h')

section
variable {ι α : Type} [DecidableEq ι] {hostsOf : α → Hosts} {unchanged : Hosts → Hosts → Bool}
  {update : SeedPeers crate → α → List Str → SeedPeers crate}
  {Calls : SeedPeers crate → Holding.Operation Str → Prop}

/-- What is known of a run: the names stay, and the operations make steps of their own. -/
structure Ran (Calls : SeedPeers crate → Holding.Operation Str → Prop) (s : SeedPeers crate)
    (h : Holding.State ι Str) (events : List (TaskEvent ι α)) (s' : SeedPeers crate)
    (h' : Holding.State ι Str) : Prop where
  names : s.SameNames s'
  steps : Trace Holding.Step h (events.filterMap TaskEvent.task?) h'
  calls : ∀ i op, .called i op ∈ events.filterMap TaskEvent.task? →
    ∃ s'', s.SameNames s'' ∧ Calls s'' op

theorem Updates.ran (hupdate : Updates hostsOf unchanged update) {s s' : SeedPeers crate}
    {h h' : Holding.State ι Str} {events : List (TaskEvent ι α)}
    (htrace : Trace (TaskStep hostsOf update Calls) (s, h) events (s', h')) :
    Ran Calls s h events s' h' := by
  induction events generalizing s h with
  | nil =>
    obtain ⟨rfl, rfl⟩ := Prod.mk.inj htrace
    exact ⟨⟨rfl, rfl⟩, rfl, fun _ _ => nofun⟩
  | cons event events ih =>
    obtain ⟨⟨s₁, h₁⟩, hstep, hrest⟩ := htrace
    have hran := ih hrest
    cases hstep with
    | update list names hkeys =>
      have hsame : s.SameNames (update s list names) := by
        rw [hupdate.update_eq, if_pos ((hupdate.unchanged_iff _ _).mpr hkeys.symm)]
        exact ⟨rfl, hkeys⟩
      refine ⟨hsame.trans hran.names, hran.steps, fun i op hmem => ?_⟩
      obtain ⟨s'', hsame', hcalls⟩ := hran.calls i op hmem
      exact ⟨s'', hsame.trans hsame', hcalls⟩
    | task event hstep hcall =>
      refine ⟨hran.names, ⟨h₁, hstep, hran.steps⟩, fun i op hmem => ?_⟩
      rcases List.mem_cons.mp hmem with heq | hmem
      · exact ⟨s, ⟨rfl, rfl⟩, hcall i op heq.symm⟩
      · exact hran.calls i op hmem

/-- What is known of the operations: those that put the task somewhere do so in the reach of `r`,
and the deletes and preheats of some reach that return with success. -/
structure Reclaiming (Calls : SeedPeers crate → Holding.Operation Str → Prop)
    (Deletes Preheats : SeedPeers crate → ℕ∞ → Holding.Operation Str → Prop) (taskId : Str)
    (r : ℕ∞) : Prop where
  bounded : ∀ s op, Builds crate s.hosts s.hashring → Calls s op → op.aim = true →
    ∀ name ∈ op.addressed, name ∈ s.reach taskId r
  deletes : ∀ s n op, Builds crate s.hosts s.hashring → Deletes s n op →
    op.ok = true ∧ op.aim = false ∧ s.Addresses taskId n op
  preheats : ∀ s n op, Builds crate s.hosts s.hashring → Preheats s n op →
    op.ok = true ∧ op.aim = true ∧ s.Addresses taskId n op ∧
      (n ≠ ⊤ → ∀ name ∈ s.reach taskId n, s.Healthy name)

/-- What is known of the task when it is on the seed peers `h` says, of those in `s`. -/
structure Reclaims {ε : Type} (hostsOf : α → Hosts)
    (update : SeedPeers crate → α → List Str → SeedPeers crate)
    (select : SeedPeers crate → Nat → Str → Nat → Option (Except ε (List Host)))
    (Calls : SeedPeers crate → Holding.Operation Str → Prop)
    (Deletes Preheats : SeedPeers crate → ℕ∞ → Holding.Operation Str → Prop) (taskId : Str)
    (r : ℕ∞) (s : SeedPeers crate) (h : Holding.State ι Str) : Prop where
  /-- It is only in the reach of what has placed it. -/
  within : ∀ name, h.held name = true → name ∈ s.reach taskId r
  /-- After a delete of that reach which has returned with success, when it has been put nowhere
  since the call, it is only on seed peers that were not healthy at the call. -/
  reclaimed : ∀ i n op, Deletes s n op → r ≤ n → ∀ events s' h',
    Trace (TaskStep hostsOf update Calls) (s, h) (.task (.called i op) :: events) (s', h') →
    .task (.returned i) ∈ events → (∀ event ∈ events, ¬event.Disturbs false) →
    ∀ name, h'.held name = true → name ∈ s.reach taskId r ∧ ¬s.Healthy name
  /-- After a preheat that has returned with success, when it has been removed and lost nowhere since
  the call, it is on all seed peers in its reach that were healthy at the call. -/
  placed : ∀ i n op, Preheats s n op → ∀ events s' h',
    Trace (TaskStep hostsOf update Calls) (s, h) (.task (.called i op) :: events) (s', h') →
    .task (.returned i) ∈ events → (∀ event ∈ events, ¬event.Disturbs true) →
    ∀ name ∈ s.reach taskId n, s.Healthy name → h'.held name = true
  /-- A lookup of at most as many replicas as were preheated finds seed peers that hold it. -/
  found : ∀ i (n : ℕ) op, Preheats s n op → ∀ events s' h',
    Trace (TaskStep hostsOf update Calls) (s, h) (.task (.called i op) :: events) (s', h') →
    .task (.returned i) ∈ events → (∀ event ∈ events, ¬event.Disturbs true) →
    ∀ fuel m selected, 0 < m → m ≤ n → select s' fuel taskId m = some (.ok selected) →
      ∀ host ∈ selected, h'.held host.name = true

variable {Deletes Preheats : SeedPeers crate → ℕ∞ → Holding.Operation Str → Prop} {taskId : Str}
  {r : ℕ∞}

omit [DecidableEq ι] in
theorem undisturbed_task? {aim : Bool} {events : List (TaskEvent ι α)}
    (h : ∀ event ∈ events, ¬event.Disturbs aim) {names : List Str} :
    ∀ event ∈ events.filterMap TaskEvent.task?, ∀ name ∈ names, ¬event.Disturbs aim name := by
  intro event hmem name _ hdisturbs
  obtain ⟨taskEvent, htaskEvent, heq⟩ := List.mem_filterMap.mp hmem
  exact h taskEvent htaskEvent ⟨event, name, heq, hdisturbs⟩

theorem Selects.mem_reach (hcrate : crate.Lawful) {ε : Type}
    {select : SeedPeers crate → Nat → Str → Nat → Option (Except ε (List Host))} {nobody : ε}
    {finish : List SeedPeer → Except ε (List Host)} (hselects : Selects select nobody finish)
    {s : SeedPeers crate} (hs : Builds crate s.hosts s.hashring) {fuel m : Nat} (hm : 0 < m)
    {selected : List Host} (hselect : select s fuel taskId m = some (.ok selected)) :
    selected = healthyHosts (s.replicaSeedPeers taskId m) ∧
      ∀ name, name ∈ selected.map Host.name ↔ name ∈ s.reach taskId m ∧ s.Healthy name := by
  have hhosts : s.hosts.len ≠ 0 := by
    intro hzero
    rw [hselects.select_eq, if_pos hzero] at hselect
    cases hselect
  have hfinish := hselects.eq_finish hcrate hm hhosts hselect
  have hanswer := hselects.toOption_finish (s.replicaSeedPeers taskId m)
  rw [← hfinish] at hanswer
  have hselected : selected = healthyHosts (s.replicaSeedPeers taskId m) := by
    unfold answer at hanswer
    split at hanswer
    · cases hanswer
    · exact Option.some.inj hanswer
  refine ⟨hselected, fun name => ?_⟩
  rw [hselected, SeedPeers.mem_reach_natCast hcrate hs]
  simp only [healthyHosts, List.mem_map, List.mem_filter]
  constructor
  · rintro ⟨host, ⟨seedPeer, ⟨hmem, hhealthy⟩, rfl⟩, rfl⟩
    exact ⟨⟨seedPeer, hmem, rfl⟩, seedPeer, SeedPeers.get_name_of_mem_replicas hmem, hhealthy⟩
  · rintro ⟨⟨seedPeer, hmem, rfl⟩, other, hget, hhealthy⟩
    obtain rfl := Option.some.inj ((SeedPeers.get_name_of_mem_replicas hmem).symm.trans hget)
    exact ⟨seedPeer.host, ⟨seedPeer, ⟨hmem, hhealthy⟩, rfl⟩, rfl⟩

/-- Wherever a run gets, the task is only in the reach of `r` at the start. -/
theorem Reclaiming.held_bounded (hreclaiming : Reclaiming Calls Deletes Preheats taskId r)
    (hupdate : Updates hostsOf unchanged update) {s₀ s : SeedPeers crate}
    (hs₀ : Builds crate s₀.hosts s₀.hashring) {h : Holding.State ι Str}
    {events : List (TaskEvent ι α)}
    (htrace : Trace (TaskStep hostsOf update Calls) (s₀, .new ι Str) events (s, h)) :
    Holding.Bounded (s₀.reach taskId r) h := by
  have hran := hupdate.ran htrace
  refine Holding.held_bounded hran.steps Holding.bounded_new fun i op hmem haim => ?_
  obtain ⟨s', hsame, hcall⟩ := hran.calls i op hmem
  rw [← hsame.reach_eq]
  exact hreclaiming.bounded s' op (hsame.builds hs₀) hcall haim

/-- What has returned with success has done what it aims at wherever it sent it, when nothing disturbed
it since the call. -/
theorem Updates.held_of_returned (hupdate : Updates hostsOf unchanged update)
    {s s' : SeedPeers crate} {h h' : Holding.State ι Str} {events : List (TaskEvent ι α)} {i : ι}
    {op : Holding.Operation Str}
    (htrace : Trace (TaskStep hostsOf update Calls) (s, h) (.task (.called i op) :: events) (s', h'))
    (hreturned : .task (.returned i) ∈ events) (hok : op.ok = true)
    (hundisturbed : ∀ event ∈ events, ¬event.Disturbs op.aim) :
    ∀ name ∈ op.addressed, h'.held name = op.aim :=
  Holding.held_of_returned (hupdate.ran htrace).steps
    (List.mem_filterMap.mpr ⟨_, hreturned, rfl⟩) hok (undisturbed_task? hundisturbed)

/-- **In every run, deletes reclaim what the operations place.** -/
theorem Reclaiming.reclaims (hcrate : crate.Lawful) (hupdate : Updates hostsOf unchanged update)
    {ε : Type} {select : SeedPeers crate → Nat → Str → Nat → Option (Except ε (List Host))}
    {nobody : ε} {finish : List SeedPeer → Except ε (List Host)}
    (hselects : Selects select nobody finish)
    (hreclaiming : Reclaiming Calls Deletes Preheats taskId r)
    {s₀ s : SeedPeers crate} (hs₀ : Builds crate s₀.hosts s₀.hashring) {h : Holding.State ι Str}
    {front : List (TaskEvent ι α)}
    (hfront : Trace (TaskStep hostsOf update Calls) (s₀, .new ι Str) front (s, h)) :
    Reclaims hostsOf update select Calls Deletes Preheats taskId r s h := by
  have hran := hupdate.ran hfront
  have hs : Builds crate s.hosts s.hashring := hran.names.builds hs₀
  have hplaced : ∀ i n op, Preheats s n op → ∀ events s' h',
      Trace (TaskStep hostsOf update Calls) (s, h) (.task (.called i op) :: events) (s', h') →
      .task (.returned i) ∈ events → (∀ event ∈ events, ¬event.Disturbs true) →
      ∀ name ∈ s.reach taskId n, s.Healthy name → h'.held name = true := by
    intro i n op hpreheat events s' h' htrace hreturned hundisturbed name hname hhealthy
    obtain ⟨hok, haim, haddresses, _⟩ := hreclaiming.preheats s n op hs hpreheat
    have hheld := hupdate.held_of_returned htrace hreturned hok (haim.symm ▸ hundisturbed)
    exact (hheld name ((haddresses name).mpr ⟨hname, hhealthy⟩)).trans haim
  refine ⟨fun name hheld => ?_, ?_, hplaced, ?_⟩
  · rw [hran.names.reach_eq]
    exact (hreclaiming.held_bounded hupdate hs₀ hfront).held name hheld
  · intro i n op hdelete hle events s' h' htrace hreturned hundisturbed name hheld
    obtain ⟨hok, haim, haddresses⟩ := hreclaiming.deletes s n op hs hdelete
    have hrun := Trace.append_iff.mpr ⟨_, hfront, htrace⟩
    have hname : name ∈ s.reach taskId r := by
      rw [hran.names.reach_eq]
      exact (hreclaiming.held_bounded hupdate hs₀ hrun).held name hheld
    refine ⟨hname, fun hhealthy => ?_⟩
    have hgone := hupdate.held_of_returned htrace hreturned hok (haim.symm ▸ hundisturbed) name
      ((haddresses name).mpr ⟨s.reach_mono taskId hle hname, hhealthy⟩)
    rw [hheld, haim] at hgone
    cases hgone
  · intro i n op hpreheat events s' h' htrace hreturned hundisturbed fuel m selected hm hle hselect
      host hhost
    have hsame := (hupdate.ran htrace).names
    have hmem := ((hselects.mem_reach hcrate (hsame.builds hs) hm hselect).2 host.name).mp
      (List.mem_map_of_mem hhost)
    have hreach : host.name ∈ s.reach taskId n := by
      rw [hsame.reach_eq] at hmem
      exact s.reach_mono taskId (Nat.cast_le.mpr hle) hmem.1
    exact hplaced i n op hpreheat events s' h' htrace hreturned hundisturbed _ hreach
      ((hreclaiming.preheats s n op hs hpreheat).2.2.2 (ENat.natCast_ne_top n) _ hreach)

end

/-! ### A preheat and a delete -/

section
variable {ι α : Type} [DecidableEq ι] {hostsOf : α → Hosts}
  {update : SeedPeers crate → α → List Str → SeedPeers crate}
  {Calls : SeedPeers crate → Holding.Operation Str → Prop} {s : SeedPeers crate}

theorem trace_task {h h' : Holding.State ι Str} {events : List (Holding.Event ι Str)}
    (htrace : Trace Holding.Step h events h')
    (hcalls : ∀ i op, .called i op ∈ events → Calls s op) :
    Trace (TaskStep hostsOf update Calls) (s, h) (events.map TaskEvent.task) (s, h') := by
  induction events generalizing h with
  | nil => exact congrArg (s, ·) htrace
  | cons event events ih =>
    obtain ⟨h₁, hstep, hrest⟩ := htrace
    exact ⟨(s, h₁), .task event hstep fun i op heq => hcalls i op (heq ▸ List.mem_cons_self),
      ih hrest fun i op hmem => hcalls i op (List.mem_cons_of_mem _ hmem)⟩

variable (hostsOf update) in
theorem exists_task_returned (h : Holding.State ι Str) (i : ι) {op : Holding.Operation Str}
    (hidle : h.running i = none) (hcall : Calls s op) :
    ∃ events h', Trace (TaskStep hostsOf update Calls) (s, h) (.task (.called i op) :: events)
        (s, h') ∧ .task (.returned i) ∈ events ∧ (∀ event ∈ events, ¬event.Disturbs op.aim) ∧
      h'.running = h.running := by
  obtain ⟨events, h', htrace, hreturned, halone, hrunning⟩ := Holding.exists_returned op hidle
  have hcalls : ∀ i' op', .called i' op' ∈ .called i op :: events → Calls s op' := by
    intro i' op' hmem
    rcases List.mem_cons.mp hmem with heq | hmem
    · obtain ⟨rfl, rfl⟩ := Holding.Event.called.inj heq
      exact hcall
    · rcases halone _ hmem with heq | ⟨k, heq⟩ <;> cases heq
  refine ⟨events.map .task, h', trace_task htrace hcalls, List.mem_map_of_mem hreturned, ?_,
    hrunning⟩
  rintro _ hmem ⟨event, name, htask, hdisturbs⟩
  obtain ⟨event', hevent', rfl⟩ := List.mem_map.mp hmem
  obtain rfl := Option.some.inj htask
  exact halone.undisturbed event' hevent' hdisturbs

variable (hostsOf update Calls) in
/-- The task is put on the seed peer, and then on none any more. -/
def ComesAndGoes (s : SeedPeers crate) (put remove : Holding.Operation Str) (name : Str) : Prop :=
  ∃ events events' h h',
    Trace (TaskStep hostsOf update Calls) (s, .new ℕ Str) (.task (.called 0 put) :: events) (s, h) ∧
      .task (.returned 0) ∈ events ∧ h.held name = true ∧
    Trace (TaskStep hostsOf update Calls) (s, h) (.task (.called 1 remove) :: events') (s, h') ∧
      .task (.returned 1) ∈ events' ∧ ∀ name, h'.held name = false

theorem comesAndGoes {ε : Type}
    {select : SeedPeers crate → Nat → Str → Nat → Option (Except ε (List Host))}
    {Deletes Preheats : SeedPeers crate → ℕ∞ → Holding.Operation Str → Prop} {taskId : Str} {r : ℕ∞}
    (hreclaiming : Reclaiming Calls Deletes Preheats taskId r)
    (hreclaims : ∀ events s' h,
      Trace (TaskStep hostsOf update Calls) (s, .new ℕ Str) events (s', h) →
      Reclaims hostsOf update select Calls Deletes Preheats taskId r s' h)
    (hs : Builds crate s.hosts s.hashring) (hr : r ≠ ⊤) {put remove : Holding.Operation Str}
    (hput : Calls s put) (hpreheat : Preheats s r put) (hremove : Calls s remove)
    (hdelete : Deletes s r remove) {name : Str} (hname : name ∈ put.addressed) :
    ComesAndGoes hostsOf update Calls s put remove name := by
  obtain ⟨_, haim, haddresses, hhealthy⟩ := hreclaiming.preheats s r put hs hpreheat
  obtain ⟨events, h, htrace, hreturned, hundisturbed, hrunning⟩ :=
    exists_task_returned hostsOf update (.new ℕ Str) 0 rfl hput
  obtain ⟨events', h', htrace', hreturned', hundisturbed', _⟩ :=
    exists_task_returned hostsOf update h 1 (congrFun hrunning 1) hremove
  rw [haim] at hundisturbed
  rw [(hreclaiming.deletes s r remove hs hdelete).2.1] at hundisturbed'
  refine ⟨events, events', h, h', htrace, hreturned, ?_, htrace', hreturned', fun other => ?_⟩
  · obtain ⟨hreach, hhealthyName⟩ := (haddresses name).mp hname
    exact (hreclaims [] s _ rfl).placed 0 r put hpreheat events s h htrace hreturned hundisturbed
      name hreach hhealthyName
  · -- all in reach are healthy
    refine Bool.eq_false_of_not_eq_true fun hheld => ?_
    obtain ⟨hreach, hnot⟩ := (hreclaims _ s h htrace).reclaimed 1 r remove hdelete le_rfl events' s h'
      htrace' hreturned' hundisturbed' other hheld
    exact hnot (hhealthy hr other hreach)

end

end DragonflySdk
