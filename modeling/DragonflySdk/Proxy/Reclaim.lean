import DragonflySdk.Proxy.Download
import DragonflySdk.Proxy.GoTasks
import DragonflySdk.Selector.Placement

/-!
# What deletes reclaim

A preheat and a delete run one task at each seed peer that they select, and a task makes its
attempts one after the other: they are operations on the seed peers (`Proxy.operationOn`), which
have success just when the function returns with it. What an attempt does to its seed peer is for
the seed peer: one that has success has downloaded the task, or does not have it, and one without
may have done so.

In any interleaving of preheats, gets and deletes of one task, with updates of the seed peers that
keep their names, a delete that reaches as far as the preheats and gets reclaims the task, except
from seed peers that are not healthy when it is called: these it does not call, and has success all
the same. And what was preheated is found by lookups of no more replicas (`delete_reclaims`).
-/

namespace DragonflySdk

open Foundation

variable {crate : HashRingCrate}

/-! ### Rust -/

theorem getLast?_map_range {β : Type*} (f : Nat → β) (n : Nat) :
    ((List.range (n + 1)).map f).getLast? = some (f n) := by
  rw [List.range_succ, List.map_append, List.map_singleton, List.getLast?_concat]

section
variable {crates : ProxyCrates} (hbackon : crates.backon.Lawful) (proxy : Proxy crates)

/-- The results of the attempts at the `i`-th of the seed peers, if all have an address. -/
def Proxy.attemptsAt (attempt : Nat → Str → Nat → Except Error Unit) (seedPeers : List Host)
    (i : Nat) : List Bool :=
  match seedPeers.mapM Proxy.peerAddr with
  | .error _ => []
  | .ok addrs =>
    match addrs[i]? with
    | none => []
    | some addr => (List.range (proxy.retry.run (RetryPolicy.counting (attempt i addr)) 0).1).map
        fun made => (attempt i addr made).isOk

include hbackon in
theorem getLast?_attemptsAt {attempt : Nat → Str → Nat → Except Error Unit} {finish : FinishOrder}
    {seedPeers : List Host} (hok : (proxy.runOnAll attempt finish seedPeers).isOk = true) (i : Nat)
    (hi : i < (seedPeers.map Host.name).length) :
    (proxy.attemptsAt attempt seedPeers i).getLast? = some true := by
  obtain ⟨_, hrun⟩ : ∃ value, proxy.runOnAll attempt finish seedPeers = .ok value := by
    rcases hrun : proxy.runOnAll attempt finish seedPeers with err | value
    · rw [hrun] at hok
      cases hok
    · exact ⟨value, rfl⟩
  obtain ⟨addrs, haddrs, hjoin⟩ := bind_eq_ok_iff.mp hrun
  have hlength : i < addrs.length := by
    rw [← (mapM_eq_ok_iff.mp haddrs).length_eq]
    rwa [List.length_map] at hi
  have hresult := joinAll_eq_ok_iff.mp hjoin _ (List.mem_mapIdx.mpr ⟨i, hlength, rfl⟩)
  simp only [RetryPolicy.run_counting _ hbackon] at hresult
  have hpos : 0 < proxy.retry.made (attempt i addrs[i]) := attempts_pos (by omega)
  obtain ⟨last, hlast⟩ := Nat.exists_eq_succ_of_ne_zero hpos.ne'
  rw [hlast] at hresult
  rw [Proxy.attemptsAt, haddrs]
  simp only [List.getElem?_eq_getElem hlength, RetryPolicy.run_counting _ hbackon, hlast]
  rw [getLast?_map_range]
  exact congrArg some (congrArg Except.isOk hresult)

/-- The tasks at the seed peers, as an operation on them. -/
def Proxy.operationOn (aim : Bool) (attempt : Nat → Str → Nat → Except Error Unit)
    (finish : FinishOrder) (seedPeers : List Host) : Holding.Operation Str where
  aim := aim
  addressed := seedPeers.map Host.name
  attempts := proxy.attemptsAt attempt seedPeers
  ok := (proxy.runOnAll attempt finish seedPeers).isOk
  last_ok := getLast?_attemptsAt hbackon proxy

/-- A preheat of the task that returns the result runs the operation. -/
def Proxy.Preheats (decode : List UInt8 → Option Backend) (taskId : Str) (request : PreheatRequest)
    (result : Except Error (List Host)) (op : Holding.Operation Str) : Prop :=
  ∃ (fuel : Nat) (names : List Str) (preferredLocalIp : Option IpAddr)
    (attempts : Nat → Nat → DownloadAttempt) (finish : FinishOrder)
    (selected : Except Error (List Host)) (seedPeers : List Host) (downloadRequest : Download),
    proxy.seedPeerSelector.seedPeers.hosts.Yields names ∧ request.validate = .ok () ∧
    DragonflySdk.taskId crates.id request.toTaskFields = .ok taskId ∧
    proxy.selectSeedPeers fuel names taskId request.scope request.replicas = some selected ∧
    Proxy.checkSelected request selected = .ok seedPeers ∧
    downloadTaskRequest crates preferredLocalIp request = .ok downloadRequest ∧
    proxy.preheat fuel names preferredLocalIp
      (fun i addr _ made => downloadTask decode addr (attempts i made)) finish request =
        some result ∧
    op = proxy.operationOn hbackon true
      (fun i addr made => downloadTask decode addr (attempts i made)) finish seedPeers

/-- A delete of the task that returns the result runs the operation. -/
def Proxy.Deletes (decode : List UInt8 → Option Backend) (taskId : Str) (request : DeleteRequest)
    (result : Except Error Unit) (op : Holding.Operation Str) : Prop :=
  ∃ (fuel : Nat) (names : List Str) (preferredLocalIp : Option IpAddr)
    (attempts : Nat → Nat → DeleteAttempt) (finish : FinishOrder) (seedPeers : List Host),
    proxy.seedPeerSelector.seedPeers.hosts.Yields names ∧ request.validate = .ok () ∧
    DragonflySdk.taskId crates.id request.toTaskFields = .ok taskId ∧
    proxy.selectSeedPeers fuel names taskId request.scope request.replicas =
      some (.ok seedPeers) ∧
    proxy.delete fuel names preferredLocalIp
      (fun i addr _ made => deleteTask decode addr (attempts i made)) finish request = some result ∧
    op = proxy.operationOn hbackon false
      (fun i addr made => deleteTask decode addr (attempts i made)) finish seedPeers

/-- A get of the task may have some of the seed peers it looks up download it. -/
def Proxy.Gets (taskId : Str) (request : GetRequest) (op : Holding.Operation Str) : Prop :=
  DragonflySdk.taskId crates.id request.toTaskFields = .ok taskId ∧
    0 < Proxy.replicasOf request.replicas ∧ op.aim = true ∧
    ∃ fuel selected, proxy.seedPeerSelector.seedPeers.select fuel taskId
        (Proxy.replicasOf request.replicas) = some (.ok selected) ∧
      ∀ name ∈ op.addressed, name ∈ selected.map Host.name

end

/-- How far a request reaches. -/
def reachOf (scope : Scope) (replicas : Nat) : ℕ∞ :=
  match scope with
  | .default => replicas
  | .allSeedPeers => ⊤

section
variable {crates : ProxyCrates} {hbackon : crates.backon.Lawful} {proxy : Proxy crates}
  {decode : List UInt8 → Option Backend} {taskId : Str} {op : Holding.Operation Str}

theorem Proxy.Preheats.ok_eq {request : PreheatRequest} {result : Except Error (List Host)}
    (h : proxy.Preheats hbackon decode taskId request result op) : op.ok = result.isOk := by
  obtain ⟨fuel, names, preferredLocalIp, attempts, finish, selected, seedPeers, downloadRequest, _,
    hvalid, hid, hselected, hcheck, hdownload, hresult, rfl⟩ := h
  have htaskId : (do request.validate; DragonflySdk.taskId crates.id request.toTaskFields) =
      .ok taskId := bind_eq_ok_iff.mpr ⟨(), hvalid, hid⟩
  unfold Proxy.preheat at hresult
  rw [htaskId] at hresult
  simp only [hselected, Option.map_some, hcheck, hdownload, Option.some.injEq] at hresult
  change proxy.downloadAll (fun i addr _ made => downloadTask decode addr (attempts i made)) finish
    downloadRequest seedPeers = result at hresult
  rw [downloadAll_eq] at hresult
  rw [← hresult]
  show (proxy.runOnAll (fun i addr made => downloadTask decode addr (attempts i made)) finish
    seedPeers).isOk = _
  cases proxy.runOnAll (fun i addr made => downloadTask decode addr (attempts i made)) finish
    seedPeers <;> rfl

theorem Proxy.Deletes.ok_eq {request : DeleteRequest} {result : Except Error Unit}
    (h : proxy.Deletes hbackon decode taskId request result op) : op.ok = result.isOk := by
  obtain ⟨fuel, names, preferredLocalIp, attempts, finish, seedPeers, _, hvalid, hid, hselected,
    hresult, rfl⟩ := h
  exact congrArg Except.isOk (runOnAll_of_delete hvalid hid hresult hselected)

theorem selectAll_go {s : SeedPeers crate} {names : List Str} {selected : List Host}
    (h : s.selectAll names = .ok selected) : Go.selectAll s names = .ok selected := by
  unfold SeedPeers.selectAll at h
  unfold Go.selectAll
  simp only [List.length_eq_zero_iff] at h ⊢
  split at h
  · cases h
  · rename_i hne
    rw [if_neg hne]
    exact congrArg Except.ok (Except.ok.inj h)

theorem Go.SelectsAll.addresses {s : SeedPeers crate} (hcrate : crate.Lawful)
    (hs : Builds crate s.hosts s.hashring) {selected : List Host} (h : Go.SelectsAll s selected)
    (name : Str) : name ∈ selected.map Host.name ↔ name ∈ s.reach taskId ⊤ ∧ s.Healthy name := by
  rw [SeedPeers.mem_reach_top hcrate hs, List.mem_map]
  constructor
  · rintro ⟨host, hmem, rfl⟩
    obtain ⟨seedPeer, hget, hhealthy, rfl⟩ := (h.mem_iff host).mp hmem
    exact ⟨Hosts.get_isSome_iff.mp (hget ▸ rfl), seedPeer, hget, hhealthy⟩
  · rintro ⟨_, seedPeer, hget, hhealthy⟩
    have hname := Hosts.name_of_get hget
    exact ⟨seedPeer.host, (h.mem_iff _).mpr ⟨seedPeer, hname.symm ▸ hget, hhealthy, rfl⟩, hname⟩

variable (hring : crates.ring.Lawful)
  (hs : Builds crates.ring proxy.seedPeerSelector.seedPeers.hosts
    proxy.seedPeerSelector.seedPeers.hashring)
include hring hs

theorem addresses_of_selectSeedPeers {fuel : Nat} {names : List Str}
    (hnames : proxy.seedPeerSelector.seedPeers.hosts.Yields names) {scope : Scope} {replicas : Nat}
    (hpos : scope = .default → 0 < Proxy.replicasOf replicas) {seedPeers : List Host}
    (h : proxy.selectSeedPeers fuel names taskId scope replicas = some (.ok seedPeers))
    (name : Str) : name ∈ seedPeers.map Host.name ↔
      name ∈ proxy.seedPeerSelector.seedPeers.reach taskId
          (reachOf scope (Proxy.replicasOf replicas)) ∧
        proxy.seedPeerSelector.seedPeers.Healthy name := by
  cases scope with
  | default => exact (selects_rust.mem_reach hring hs (hpos rfl) h).2 name
  | allSeedPeers =>
    exact (Go.selectAll_eq_ok hnames (selectAll_go (Option.some.inj h))).addresses hring hs name

/-- A preheat that has selected enough replicas has asked for less than `2 ^ 32`, all of them
healthy. -/
theorem healthy_of_checkSelected (hnext : crates.ring.AtMostNext) {fuel : Nat}
    {request : PreheatRequest} (hscope : request.scope = .default)
    {selected : Except Error (List Host)} {seedPeers : List Host}
    (hselect : proxy.seedPeerSelector.seedPeers.select fuel taskId
      (Proxy.replicasOf request.replicas) = some selected)
    (hcheck : Proxy.checkSelected request selected = .ok seedPeers) (hpos : 0 < request.replicas) :
    request.replicas < 2 ^ 32 ∧ ∀ name ∈
      proxy.seedPeerSelector.seedPeers.reach taskId request.replicas,
      proxy.seedPeerSelector.seedPeers.Healthy name := by
  obtain ⟨rfl, hle⟩ := (checkSelected_eq_ok_iff hscope).mp hcheck
  have hmod : Proxy.replicasOf request.replicas < 2 ^ 32 := Nat.mod_lt _ (by omega)
  have hmodPos : 0 < Proxy.replicasOf request.replicas := by
    by_contra hzero
    -- cut to 32 bits, no replicas are left: at most one vnode is looked at
    rw [Nat.eq_zero_of_not_pos hzero] at hselect
    have hone := length_select_zero_le hselect
    have hvnodes := hnext proxy.seedPeerSelector.seedPeers.hashring taskId 0
    unfold Proxy.replicasOf at hzero
    omega
  obtain ⟨hselected, _⟩ := selects_rust.mem_reach hring hs hmodPos hselect
  have hshort : seedPeers.length ≤ Proxy.replicasOf request.replicas := by
    rw [hselected, healthyHosts, List.length_map]
    exact (List.length_filter_le _ _).trans (SeedPeers.length_replicaSeedPeers_le _ _ _)
  have hlt : request.replicas < 2 ^ 32 := by omega
  have heq : Proxy.replicasOf request.replicas = request.replicas := Nat.mod_eq_of_lt hlt
  rw [heq] at hselected
  refine ⟨hlt, fun name hname => ?_⟩
  obtain ⟨seedPeer, hmem, rfl⟩ := (SeedPeers.mem_reach_natCast hring hs).mp hname
  have hreplicas := SeedPeers.length_replicaSeedPeers_le proxy.seedPeerSelector.seedPeers taskId
    request.replicas
  obtain ⟨hhealthy, _⟩ := healthyHosts_eq_map (hreplicas.trans (hselected ▸ hle))
  exact ⟨seedPeer, SeedPeers.get_name_of_mem_replicas hmem, hhealthy seedPeer hmem⟩

end

section
variable {crates : ProxyCrates} (hbackon : crates.backon.Lawful) (retry : RetryPolicy crates.backon)
  (decode : List UInt8 → Option Backend) (taskId : Str)

/-- A proxy with these seed peers calls the operation, and places the task in the reach of `r` only.
-/
def Proxy.CallsWithin (r : ℕ∞) (s : SeedPeers crates.ring) (op : Holding.Operation Str) : Prop :=
  ∃ proxy : Proxy crates, proxy.seedPeerSelector.seedPeers = s ∧ proxy.retry = retry ∧
    ((∃ request result, proxy.Preheats hbackon decode taskId request result op ∧
        reachOf request.scope request.replicas ≤ r) ∨
      (∃ request result, proxy.Deletes hbackon decode taskId request result op) ∨
      ∃ request, proxy.Gets taskId request op ∧ (Proxy.replicasOf request.replicas : ℕ∞) ≤ r)

/-- A proxy with these seed peers calls it for a preheat of reach `n` that returns with success. -/
def Proxy.PreheatsReach (s : SeedPeers crates.ring) (n : ℕ∞) (op : Holding.Operation Str) : Prop :=
  ∃ (proxy : Proxy crates) (request : PreheatRequest) (preheated : List Host),
    proxy.seedPeerSelector.seedPeers = s ∧ proxy.retry = retry ∧
    proxy.Preheats hbackon decode taskId request (.ok preheated) op ∧
    n = reachOf request.scope request.replicas

/-- A proxy with these seed peers calls it for a delete of reach `n`, a number that 32 bits hold,
that returns with success. -/
def Proxy.DeletesReach (s : SeedPeers crates.ring) (n : ℕ∞) (op : Holding.Operation Str) : Prop :=
  ∃ (proxy : Proxy crates) (request : DeleteRequest), proxy.seedPeerSelector.seedPeers = s ∧
    proxy.retry = retry ∧ proxy.Deletes hbackon decode taskId request (.ok ()) op ∧
    n = reachOf request.scope request.replicas ∧
    (request.scope = .default → request.replicas < 2 ^ 32)

variable {hbackon retry decode taskId}

theorem addresses_of_preheats (hring : crates.ring.Lawful) (hnext : crates.ring.AtMostNext)
    {proxy : Proxy crates} (hs : Builds crates.ring proxy.seedPeerSelector.seedPeers.hosts
      proxy.seedPeerSelector.seedPeers.hashring) {request : PreheatRequest}
    {result : Except Error (List Host)} {op : Holding.Operation Str}
    (h : proxy.Preheats hbackon decode taskId request result op) :
    op.aim = true ∧ proxy.seedPeerSelector.seedPeers.Addresses taskId
        (reachOf request.scope request.replicas) op ∧
      (request.scope = .default → ∀ name ∈
        proxy.seedPeerSelector.seedPeers.reach taskId request.replicas,
        proxy.seedPeerSelector.seedPeers.Healthy name) := by
  obtain ⟨fuel, names, preferredLocalIp, attempts, finish, selected, seedPeers, downloadRequest,
    hnames, hvalid, hid, hselected, hcheck, hdownload, hresult, rfl⟩ := h
  have hpos : 0 < request.replicas := validateReplicas_eq_ok.mp hvalid
  refine ⟨rfl, ?_⟩
  cases hscope : request.scope with
  | default =>
    have hselect := hselected
    rw [hscope] at hselect
    obtain ⟨hlt, hhealthy⟩ := healthy_of_checkSelected hring hs hnext hscope hselect hcheck hpos
    obtain ⟨rfl, _⟩ := (checkSelected_eq_ok_iff hscope).mp hcheck
    have heq : Proxy.replicasOf request.replicas = request.replicas := Nat.mod_eq_of_lt hlt
    refine ⟨fun name => ?_, fun _ => hhealthy⟩
    have hmem :=
      addresses_of_selectSeedPeers hring hs hnames (fun _ => heq.symm ▸ hpos) hselected name
    rwa [heq, hscope] at hmem
  | allSeedPeers =>
    refine ⟨fun name => ?_, nofun⟩
    have hok : selected = .ok seedPeers := by
      rcases selected with err | seedPeers'
      · cases hcheck
      · unfold Proxy.checkSelected at hcheck
        simp only [hscope] at hcheck
        exact hcheck
    rw [hok] at hselected
    have hmem := addresses_of_selectSeedPeers hring hs hnames (by simp [hscope]) hselected name
    rwa [hscope] at hmem

theorem addresses_of_deletes (hring : crates.ring.Lawful) {proxy : Proxy crates}
    (hs : Builds crates.ring proxy.seedPeerSelector.seedPeers.hosts
      proxy.seedPeerSelector.seedPeers.hashring) {request : DeleteRequest}
    {result : Except Error Unit} {op : Holding.Operation Str}
    (h : proxy.Deletes hbackon decode taskId request result op)
    (hlt : request.scope = .default → request.replicas < 2 ^ 32) :
    op.aim = false ∧ proxy.seedPeerSelector.seedPeers.Addresses taskId
      (reachOf request.scope request.replicas) op := by
  obtain ⟨fuel, names, preferredLocalIp, attempts, finish, seedPeers, hnames, hvalid, hid,
    hselected, hresult, rfl⟩ := h
  have hpos : 0 < request.replicas := validateReplicas_eq_ok.mp hvalid
  refine ⟨rfl, fun name => ?_⟩
  have heq : request.scope = .default → Proxy.replicasOf request.replicas = request.replicas :=
    fun hscope => Nat.mod_eq_of_lt (hlt hscope)
  have hmem := addresses_of_selectSeedPeers hring hs hnames
    (fun hscope => (heq hscope).symm ▸ hpos) hselected name
  cases hscope : request.scope with
  | default => rwa [hscope, heq hscope] at hmem
  | allSeedPeers => rwa [hscope] at hmem

theorem reclaiming_rust (hring : crates.ring.Lawful) (hnext : crates.ring.AtMostNext) (r : ℕ∞) :
    Reclaiming (Proxy.CallsWithin hbackon retry decode taskId r)
      (Proxy.DeletesReach hbackon retry decode taskId)
      (Proxy.PreheatsReach hbackon retry decode taskId) taskId r where
  bounded := by
    rintro _ op hs ⟨proxy, rfl, _, hcall⟩ haim name hmem
    rcases hcall with ⟨request, result, hpreheat, hle⟩ | ⟨request, result, hdelete⟩ | hget
    · obtain ⟨_, haddresses, _⟩ := addresses_of_preheats hring hnext hs hpreheat
      exact SeedPeers.reach_mono _ taskId hle ((haddresses name).mp hmem).1
    · obtain ⟨_, _, _, _, _, _, _, _, _, _, _, rfl⟩ := hdelete
      cases haim
    · obtain ⟨request, ⟨_, hpos, _, fuel, selected, hselect, hsub⟩, hle⟩ := hget
      have hreach := ((selects_rust.mem_reach hring hs hpos hselect).2 name).mp (hsub name hmem)
      exact SeedPeers.reach_mono _ taskId hle hreach.1
  deletes := by
    rintro _ n op hs ⟨proxy, request, rfl, _, hdelete, rfl, hlt⟩
    obtain ⟨haim, haddresses⟩ := addresses_of_deletes hring hs hdelete hlt
    exact ⟨hdelete.ok_eq, haim, haddresses⟩
  preheats := by
    rintro _ n op hs ⟨proxy, request, preheated, rfl, _, hpreheat, rfl⟩
    obtain ⟨haim, haddresses, hhealthy⟩ := addresses_of_preheats hring hnext hs hpreheat
    refine ⟨hpreheat.ok_eq, haim, haddresses, fun hne => ?_⟩
    cases hscope : request.scope with
    | default => exact hhealthy hscope
    | allSeedPeers =>
      rw [hscope] at hne
      exact absurd rfl hne

end

/-! ### Go -/

namespace Go

section
variable {backoff : ContextBackoff} (hbackoff : backoff.Lawful) (retry : ContextRetryPolicy backoff)
  {β : Type} (attempt : β → Except WrappedError Unit)

include hbackoff in
theorem last_of_callPeer {calls : PeerCalls β} {moment : Option (Nat × ContextEnd)} {addr : Str}
    (h : (callPeer retry attempt calls moment addr).2.isOk = true) :
    ∃ last, (callPeer retry attempt calls moment addr).1 = last + 1 ∧
      (attempt (calls.answers last)).isOk = true := by
  unfold callPeer at h ⊢
  rcases hdial : calls.dial with _ | err
  · rw [hdial] at h
    simp only [run_counting hbackoff] at h ⊢
    have hpos : 0 < attemptsMade retry.maxRetries (fun i => attempt (calls.answers i)) moment :=
      attempts_pos (by omega)
    obtain ⟨last, hlast⟩ := Nat.exists_eq_succ_of_ne_zero hpos.ne'
    refine ⟨last, hlast, ?_⟩
    rw [hlast, Nat.succ_sub_one] at h
    cases hattempt : attempt (calls.answers last) with
    | error err =>
      rw [hattempt] at h
      cases h
    | ok _ => rfl
  · rw [hdial] at h
    cases h

/-- The tasks at the seed peers, as an operation on them; `moments` are those at which the contexts
of the tasks end. -/
def operationOn (aim : Bool) (calls : Nat → PeerCalls β)
    (moments : Nat → Option (Nat × ContextEnd)) (seedPeers : List Host) :
    Holding.Operation Str where
  aim := aim
  addressed := seedPeers.map Host.name
  attempts i :=
    match seedPeers[i]? with
    | none => []
    | some peer => (List.range (callPeer retry attempt (calls i) (moments i) (peerAddr peer)).1).map
        fun made => (attempt ((calls i).answers made)).isOk
  ok := (seedPeers.mapIdx fun i peer =>
    (callPeer retry attempt (calls i) (moments i) (peerAddr peer)).2).all Except.isOk
  last_ok := by
    intro hok i hi
    rw [List.length_map] at hi
    have hresult := List.all_eq_true.mp hok _ (List.mem_mapIdx.mpr ⟨i, hi, rfl⟩)
    obtain ⟨last, hmade, hlast⟩ := last_of_callPeer hbackoff retry attempt hresult
    simp only [List.getElem?_eq_getElem hi, hmade]
    rw [getLast?_map_range, hlast]

/-- The tasks run in a group that returns the result. -/
def Tasks.Returns {γ : Type} (tasks : Tasks γ) (calls : Nat → PeerCalls β)
    (moments : Nat → Option (Nat × ContextEnd)) (result : Except WrappedError Unit) : Prop :=
  ∃ parent events, ∃ s : ErrGroup.State ContextEnd WrappedError,
    Trace (ErrGroup.Step tasks.seedPeers.length none ContextEnd.cancelled
        (tasks.Comes (callPeer retry attempt) calls)) (ErrGroup.State.start parent) events s ∧
    s.main = .returned result ∧ ∀ (i : Nat) (peer : Host), tasks.seedPeers[i]? = some peer →
      s.tasks[i]? = some (.left (callPeer retry attempt (calls i) (moments i) (peerAddr peer)).2)

variable {retry attempt}

theorem Tasks.Returns.ok_eq {γ : Type} {tasks : Tasks γ} {calls : Nat → PeerCalls β}
    {moments : Nat → Option (Nat × ContextEnd)} {result : Except WrappedError Unit} {aim : Bool}
    (h : tasks.Returns retry attempt calls moments result) :
    (operationOn hbackoff retry attempt aim calls moments tasks.seedPeers).ok = result.isOk := by
  obtain ⟨parent, events, s, htrace, hmain, hleft⟩ := h
  have hok := (ErrGroup.inv_of_trace htrace).ok_iff hmain
  have hresult : result.isOk = true ↔ result = .ok () := by
    rcases result with err | ⟨⟩
    · exact ⟨nofun, nofun⟩
    · exact ⟨fun _ => rfl, fun _ => rfl⟩
  rw [Bool.eq_iff_iff, hresult, hok]
  show (tasks.seedPeers.mapIdx fun i peer =>
    (callPeer retry attempt (calls i) (moments i) (peerAddr peer)).2).all Except.isOk = true ↔ _
  rw [List.all_eq_true]
  constructor
  · intro hall i hi
    have hi' := hall _ (List.mem_mapIdx.mpr ⟨i, hi, rfl⟩)
    rw [hleft i _ (List.getElem?_eq_getElem hi)]
    cases hcall :
      (callPeer retry attempt (calls i) (moments i) (peerAddr tasks.seedPeers[i])).2 with
    | error err =>
      rw [hcall] at hi'
      cases hi'
    | ok value => rfl
  · intro hall result' hmem
    obtain ⟨i, hi, rfl⟩ := List.mem_mapIdx.mp hmem
    have htask := (hleft i _ (List.getElem?_eq_getElem hi)).symm.trans (hall i hi)
    simp only [Option.some.injEq, ErrGroup.Phase.left.injEq] at htask
    rw [htask]
    rfl

end

theorem Tasks.returns_ok {β γ : Type} {backoff : ContextBackoff} (hbackoff : backoff.Lawful)
    {retry : ContextRetryPolicy backoff} {attempt : β → Except WrappedError Unit} (tasks : Tasks γ)
    {calls : Nat → PeerCalls β}
    (hall : ∀ i < tasks.seedPeers.length, Completes retry.maxRetries attempt (calls i) none) :
    tasks.Returns retry attempt calls (fun _ => none) (.ok ()) := by
  have hlimit : (none : Option Nat) ≠ some 0 := nofun
  obtain ⟨events, s, result, htrace, hmain, hparent⟩ := ErrGroup.exists_returned
    tasks.seedPeers.length ContextEnd.cancelled hlimit
    (exists_comes tasks (callPeer retry attempt) calls) none
  have hawaits := awaits_tasks retry hbackoff tasks attempt calls
  obtain rfl := hawaits.succeeds none events s result htrace hmain hparent hall
  refine ⟨none, events, s, htrace, hmain, fun i peer hpeer => ?_⟩
  have hi := (List.getElem?_eq_some_iff.mp hpeer).1
  rw [(callPeer_eq_ok_iff retry hbackoff).mpr (hall i hi)]
  exact (hawaits.ok_iff none events s _ htrace hmain).mp rfl i hi

/-- How far a request reaches. -/
def reachOf (scope : Scope) (replicas : Int) : ℕ∞ :=
  if scope = .default then replicas.toNat else ⊤

section
variable {modules : Modules} {backoff : ContextBackoff} (hbackoff : backoff.Lawful)
  (b : Option backoff.ExponentialBackOff) (p : Proxy modules) (taskId : Str)

/-- A preheat of the task that returns the result runs the operation. -/
def Proxy.Preheats (req : PreheatRequest) (result : Except WrappedError Unit)
    (op : Holding.Operation Str) : Prop :=
  ∃ (fuel : Nat) (names : List Str) (ipv4 : Str) (tasks : Tasks Download)
    (calls : Nat → PeerCalls DownloadCall) (moments : Nat → Option (Nat × ContextEnd)),
    p.seedPeerSelector.seedPeers.hosts.Yields names ∧
    p.preheatTasks fuel names ipv4 req = some (.ok tasks) ∧ tasks.id = taskId ∧
    tasks.Returns ⟨p.retry.maxRetries, b⟩ (downloadAttempt taskId) calls moments result ∧
    op = operationOn hbackoff ⟨p.retry.maxRetries, b⟩ (downloadAttempt taskId) true calls moments
      tasks.seedPeers

/-- A delete of the task that returns the result runs the operation. -/
def Proxy.Deletes (req : DeleteRequest) (result : Except WrappedError Unit)
    (op : Holding.Operation Str) : Prop :=
  ∃ (fuel : Nat) (names : List Str) (ipv4 : Str) (tasks : Tasks DeleteTaskRequest)
    (calls : Nat → PeerCalls (Option Status)) (moments : Nat → Option (Nat × ContextEnd)),
    p.seedPeerSelector.seedPeers.hosts.Yields names ∧
    p.deleteTasks fuel names ipv4 req = some (.ok tasks) ∧ tasks.id = taskId ∧
    tasks.Returns ⟨p.retry.maxRetries, b⟩ (deleteTask taskId) calls moments result ∧
    op = operationOn hbackoff ⟨p.retry.maxRetries, b⟩ (deleteTask taskId) false calls moments
      tasks.seedPeers

/-- A get of the task may have some of the seed peers it looks up download it. -/
def Proxy.Gets (req : GetRequest) (op : Holding.Operation Str) : Prop :=
  Proxy.taskId modules req = .ok taskId ∧ 0 < uint32Of req.replicas ∧ op.aim = true ∧
    ∃ fuel selected, select p.seedPeerSelector.seedPeers fuel taskId (uint32Of req.replicas) =
        some (.ok selected) ∧
      ∀ name ∈ op.addressed, name ∈ selected.map Host.name

variable {hbackoff b p taskId} {op : Holding.Operation Str}

theorem Proxy.Preheats.ok_eq {req : PreheatRequest} {result : Except WrappedError Unit}
    (h : p.Preheats hbackoff b taskId req result op) : op.ok = result.isOk := by
  obtain ⟨fuel, names, ipv4, tasks, calls, moments, _, _, _, hreturns, rfl⟩ := h
  exact hreturns.ok_eq hbackoff

theorem Proxy.Deletes.ok_eq {req : DeleteRequest} {result : Except WrappedError Unit}
    (h : p.Deletes hbackoff b taskId req result op) : op.ok = result.isOk := by
  obtain ⟨fuel, names, ipv4, tasks, calls, moments, _, _, _, hreturns, rfl⟩ := h
  exact hreturns.ok_eq hbackoff

variable (hring : modules.ring.Lawful)
  (hs : Builds modules.ring p.seedPeerSelector.seedPeers.hosts
    p.seedPeerSelector.seedPeers.hashring)
include hring hs

theorem addresses_of_selectSeedPeers {fuel : Nat} {names : List Str}
    (hnames : p.seedPeerSelector.seedPeers.hosts.Yields names) {scope : Scope} {replicas : Int}
    (hscope : scope = .default ∨ scope = .allSeedPeers)
    (hpos : scope = .default → 0 < replicas ∧ replicas < 2 ^ 32) {seedPeers : List Host}
    (h : p.selectSeedPeers fuel names taskId scope replicas = some (.ok seedPeers)) (name : Str) :
    name ∈ seedPeers.map Host.name ↔
      name ∈ p.seedPeerSelector.seedPeers.reach taskId (reachOf scope replicas) ∧
        p.seedPeerSelector.seedPeers.Healthy name := by
  unfold Proxy.selectSeedPeers at h
  rcases hscope with rfl | rfl
  · obtain ⟨hpos, hlt⟩ := hpos rfl
    have huint : uint32Of replicas = replicas.toNat := by
      unfold uint32Of
      omega
    rw [if_neg (by simp), huint] at h
    exact (selects_go.mem_reach hring hs (by omega) h).2 name
  · rw [if_pos rfl] at h
    exact (selectAll_eq_ok hnames (Option.some.inj h)).addresses hring hs name

theorem addresses_of_preheats (hnext : modules.ring.AtMostNext) {req : PreheatRequest}
    {result : Except WrappedError Unit} (h : p.Preheats hbackoff b taskId req result op) :
    op.aim = true ∧
      p.seedPeerSelector.seedPeers.Addresses taskId (reachOf req.scope req.replicas) op ∧
      (req.scope = .default → ∀ name ∈
        p.seedPeerSelector.seedPeers.reach taskId (req.replicas.toNat : ℕ∞),
        p.seedPeerSelector.seedPeers.Healthy name) := by
  obtain ⟨fuel, names, ipv4, tasks, calls, moments, hnames, htasks, rfl, _, rfl⟩ := h
  obtain ⟨hvalid, _, _, hselected, _⟩ := preheatTasks_eq_ok htasks
  obtain ⟨hpos, hscope⟩ := TaskParams.validate_eq_ok hvalid
  have hselects := preheatSelects hring hnext hnames htasks
  refine ⟨rfl, fun name => addresses_of_selectSeedPeers hring hs hnames hscope
    (fun hdefault => ⟨hpos, (hselects.replicas hdefault).2.1⟩) hselected name,
    fun hdefault name hname => ?_⟩
  obtain ⟨seedPeer, hmem, rfl⟩ := (SeedPeers.mem_reach_natCast hring hs).mp hname
  exact ⟨seedPeer, SeedPeers.get_name_of_mem_replicas hmem,
    (hselects.replicas hdefault).2.2.2 seedPeer hmem⟩

theorem addresses_of_deletes {req : DeleteRequest} {result : Except WrappedError Unit}
    (h : p.Deletes hbackoff b taskId req result op)
    (hlt : req.scope = .default → req.replicas < 2 ^ 32) :
    op.aim = false ∧
      p.seedPeerSelector.seedPeers.Addresses taskId (reachOf req.scope req.replicas) op := by
  obtain ⟨fuel, names, ipv4, tasks, calls, moments, hnames, htasks, rfl, _, rfl⟩ := h
  obtain ⟨hvalid, _, _, hselected⟩ := deleteTasks_eq_ok htasks
  obtain ⟨hpos, hscope⟩ := TaskParams.validate_eq_ok hvalid
  exact ⟨rfl, fun name => addresses_of_selectSeedPeers hring hs hnames hscope
    (fun hdefault => ⟨hpos, hlt hdefault⟩) hselected name⟩

end

section
variable {modules : Modules} {backoff : ContextBackoff} (hbackoff : backoff.Lawful)
  (retry : RetryPolicy modules.backoff) (b : Option backoff.ExponentialBackOff) (taskId : Str)

/-- A proxy with these seed peers calls the operation, and places the task in the reach of `r` only.
-/
def Proxy.CallsWithin (r : ℕ∞) (s : SeedPeers modules.ring) (op : Holding.Operation Str) : Prop :=
  ∃ p : Proxy modules, p.seedPeerSelector.seedPeers = s ∧ p.retry = retry ∧
    ((∃ req result, p.Preheats hbackoff b taskId req result op ∧
        reachOf req.scope req.replicas ≤ r) ∨
      (∃ req result, p.Deletes hbackoff b taskId req result op) ∨
      ∃ req, p.Gets taskId req op ∧ (uint32Of req.replicas : ℕ∞) ≤ r)

/-- A proxy with these seed peers calls it for a preheat of reach `n` that returns with success. -/
def Proxy.PreheatsReach (s : SeedPeers modules.ring) (n : ℕ∞) (op : Holding.Operation Str) : Prop :=
  ∃ (p : Proxy modules) (req : PreheatRequest), p.seedPeerSelector.seedPeers = s ∧ p.retry = retry ∧
    p.Preheats hbackoff b taskId req (.ok ()) op ∧ n = reachOf req.scope req.replicas

/-- A proxy with these seed peers calls it for a delete of reach `n`, a number that 32 bits hold,
that returns with success. -/
def Proxy.DeletesReach (s : SeedPeers modules.ring) (n : ℕ∞) (op : Holding.Operation Str) : Prop :=
  ∃ (p : Proxy modules) (req : DeleteRequest), p.seedPeerSelector.seedPeers = s ∧ p.retry = retry ∧
    p.Deletes hbackoff b taskId req (.ok ()) op ∧ n = reachOf req.scope req.replicas ∧
    (req.scope = .default → req.replicas < 2 ^ 32)

variable {hbackoff retry b taskId}

theorem reclaiming (hring : modules.ring.Lawful) (hnext : modules.ring.AtMostNext) (r : ℕ∞) :
    Reclaiming (Proxy.CallsWithin hbackoff retry b taskId r)
      (Proxy.DeletesReach hbackoff retry b taskId) (Proxy.PreheatsReach hbackoff retry b taskId)
      taskId r where
  bounded := by
    rintro _ op hs ⟨p, rfl, _, hcall⟩ haim name hmem
    rcases hcall with ⟨req, result, hpreheat, hle⟩ | ⟨req, result, hdelete⟩ | hget
    · obtain ⟨_, haddresses, _⟩ := addresses_of_preheats hring hs hnext hpreheat
      exact SeedPeers.reach_mono _ taskId hle ((haddresses name).mp hmem).1
    · obtain ⟨_, _, _, _, _, _, _, _, _, _, rfl⟩ := hdelete
      cases haim
    · obtain ⟨req, ⟨_, hpos, _, fuel, selected, hselect, hsub⟩, hle⟩ := hget
      have hreach := ((selects_go.mem_reach hring hs hpos hselect).2 name).mp (hsub name hmem)
      exact SeedPeers.reach_mono _ taskId hle hreach.1
  deletes := by
    rintro _ n op hs ⟨p, req, rfl, _, hdelete, rfl, hlt⟩
    obtain ⟨haim, haddresses⟩ := addresses_of_deletes hring hs hdelete hlt
    exact ⟨hdelete.ok_eq, haim, haddresses⟩
  preheats := by
    rintro _ n op hs ⟨p, req, rfl, _, hpreheat, rfl⟩
    obtain ⟨haim, haddresses, hhealthy⟩ := addresses_of_preheats hring hs hnext hpreheat
    refine ⟨hpreheat.ok_eq, haim, haddresses, fun hne => ?_⟩
    unfold reachOf at hne ⊢
    by_cases hscope : req.scope = .default
    · rw [if_pos hscope]
      exact hhealthy hscope
    · exact absurd (if_neg hscope) hne

end

end Go

/-- **Deletes reclaim what preheats and gets have placed**, in every run, in Rust and in Go. -/
theorem delete_reclaims {ι : Type} [DecidableEq ι] (crates : ProxyCrates)
    (hrust : crates.ring.Lawful ∧ crates.ring.AtMostNext) (hbackon : crates.backon.Lawful)
    (modules : Go.Modules) (hgo : modules.ring.Lawful ∧ modules.ring.AtMostNext)
    {backoff : Go.ContextBackoff} (hbackoff : backoff.Lawful) (taskId : Str) (r : ℕ∞) :
    (∀ retry decode s₀, Reachable (updateSteps crates.ring) s₀ →
      ∀ events s (h : Holding.State ι Str),
        Trace (TaskStep hostsOf SeedPeers.update
          (Proxy.CallsWithin hbackon retry decode taskId r)) (s₀, .new ι Str) events (s, h) →
        Reclaims hostsOf SeedPeers.update SeedPeers.select
          (Proxy.CallsWithin hbackon retry decode taskId r)
          (Proxy.DeletesReach hbackon retry decode taskId)
          (Proxy.PreheatsReach hbackon retry decode taskId) taskId r s h) ∧
    ∀ retry b s₀, Reachable (Go.updateSteps modules.ring) s₀ →
      ∀ events s (h : Holding.State ι Str),
        Trace (TaskStep Go.hostsOf Go.update
          (Go.Proxy.CallsWithin hbackoff retry b taskId r)) (s₀, .new ι Str) events (s, h) →
        Reclaims Go.hostsOf Go.update Go.select
          (Go.Proxy.CallsWithin hbackoff retry b taskId r)
          (Go.Proxy.DeletesReach hbackoff retry b taskId)
          (Go.Proxy.PreheatsReach hbackoff retry b taskId) taskId r s h := by
  constructor
  · intro retry decode s₀ hreachable events s h htrace
    exact (reclaiming_rust hrust.1 hrust.2 r).reclaims hrust.1 updates_rust selects_rust
      (updates_rust.builds_of_reachable hreachable) htrace
  · intro retry b s₀ hreachable events s h htrace
    exact (Go.reclaiming hgo.1 hgo.2 r).reclaims hgo.1 updates_go selects_go
      (updates_go.builds_of_reachable hreachable) htrace

/-- Reads no details from a status. -/
def noDetails (_ : List UInt8) : Option Backend := none

/-- The id of the file, by its content. -/
def exampleTaskId : Str := hexEncode (utf8 "content".toList)

/-- The preheat of one replica whose first attempt fails. -/
def examplePreheatOperation : Holding.Operation Str :=
  exampleProxy.operationOn exampleBackon_lawful true
    (fun _ addr made => downloadTask noDetails addr (exampleAttempts made)) inOrder
    [exampleHost "seed-peer-1".toList]

theorem preheats_example : exampleProxy.Preheats exampleBackon_lawful noDetails exampleTaskId
    examplePreheat (.ok [exampleHost "seed-peer-1".toList]) examplePreheatOperation := by
  refine ⟨3, exampleNames, none, fun _ => exampleAttempts, inOrder, _, _, _, ?_, rfl, ?_, rfl, rfl,
    rfl, rfl, rfl⟩
  · change exampleRust.hosts.Yields exampleNames
    rw [exampleRust, SeedPeers.update_hosts]
    exact yields_example
  · exact @taskId_content identityCrates exampleFields "content".toList rfl

/-- The delete of it, which is answered at once. -/
def exampleDeleteOperation : Holding.Operation Str :=
  exampleProxy.operationOn exampleBackon_lawful false
    (fun _ addr _ => deleteTask noDetails addr (.answered none)) inOrder
    [exampleHost "seed-peer-1".toList]

theorem deletes_example : exampleProxy.Deletes exampleBackon_lawful noDetails exampleTaskId
    ⟨exampleFields, 1, .default, 0⟩ (.ok ()) exampleDeleteOperation := by
  refine ⟨3, exampleNames, none, fun _ _ => .answered none, inOrder, _, ?_, rfl, ?_, rfl, rfl, rfl⟩
  · change exampleRust.hosts.Yields exampleNames
    rw [exampleRust, SeedPeers.update_hosts]
    exact yields_example
  · exact @taskId_content identityCrates exampleFields "content".toList rfl

namespace Go

/-- The tasks of the preheat of two replicas. -/
def examplePreheatTasks : Tasks Download :=
  ⟨examplePreheat.url, downloadTaskRequest exampleAddr examplePreheat, exampleSelected⟩

/-- Each seed peer refuses the first attempt. -/
def exampleCalls : PeerCalls DownloadCall :=
  ⟨none, fun i => if i = 0 then .refused ⟨.unavailable, [], []⟩ else .streamed 2 none⟩

theorem completes_exampleCalls :
    Completes 1 (downloadAttempt examplePreheat.url) exampleCalls none := by
  refine ⟨rfl, 1, le_rfl, rfl, fun i hi => ?_⟩
  obtain rfl : i = 0 := by omega
  exact ⟨⟨_, rfl, rfl⟩, rfl⟩

def examplePreheatOperation : Holding.Operation Str :=
  operationOn exampleContextBackoff_lawful (exampleContextPolicy 1)
    (downloadAttempt examplePreheat.url) true (fun _ => exampleCalls) (fun _ => none) exampleSelected

theorem preheats_example : twoProxy.Preheats exampleContextBackoff_lawful none examplePreheat.url
    examplePreheat (.ok ()) examplePreheatOperation :=
  ⟨3, exampleNames, exampleAddr, examplePreheatTasks, fun _ => exampleCalls, fun _ => none,
    yields_twoProxy, rfl, rfl,
    examplePreheatTasks.returns_ok exampleContextBackoff_lawful fun _ _ => completes_exampleCalls,
    rfl⟩

/-- The tasks of the delete of two replicas. -/
def exampleDeleteTasks : Tasks DeleteTaskRequest :=
  ⟨exampleDelete.url, ⟨exampleDelete.url, exampleAddr⟩, exampleSelected⟩

theorem completes_deleted :
    Completes 1 (deleteTask exampleDelete.url) ⟨none, fun _ => none⟩ none :=
  ⟨rfl, 0, Nat.zero_le 1, rfl, fun _ hi => absurd hi (Nat.not_lt_zero _)⟩

def exampleDeleteOperation : Holding.Operation Str :=
  operationOn exampleContextBackoff_lawful (exampleContextPolicy 1) (deleteTask exampleDelete.url)
    false (fun _ => ⟨none, fun _ => none⟩) (fun _ => none) exampleSelected

theorem deletes_example : twoProxy.Deletes exampleContextBackoff_lawful none examplePreheat.url
    exampleDelete (.ok ()) exampleDeleteOperation :=
  ⟨3, exampleNames, exampleAddr, exampleDeleteTasks, fun _ => ⟨none, fun _ => none⟩, fun _ => none,
    yields_twoProxy, rfl, rfl,
    exampleDeleteTasks.returns_ok exampleContextBackoff_lawful fun _ _ => completes_deleted, rfl⟩

end Go

/-- A preheat whose first attempts fail, and the delete of what it has placed. -/
theorem delete_reclaims_preheated :
    ComesAndGoes hostsOf SeedPeers.update
      (@Proxy.CallsWithin exampleCrates exampleBackon_lawful ⟨1, none⟩ noDetails exampleTaskId 1)
      exampleRust examplePreheatOperation exampleDeleteOperation "seed-peer-1".toList ∧
    ComesAndGoes Go.hostsOf Go.update
      (@Go.Proxy.CallsWithin Go.exampleModules _ Go.exampleContextBackoff_lawful ⟨1, none⟩ none
        Go.examplePreheat.url 2)
      exampleGo Go.examplePreheatOperation Go.exampleDeleteOperation "seed-peer-2".toList := by
  have hreclaims := fun taskId r => @delete_reclaims ℕ _ exampleCrates
    ⟨nameRing.lawful, nameRing.atMostNext⟩ exampleBackon_lawful Go.exampleModules
    ⟨nameRing.lawful, nameRing.atMostNext⟩ _ Go.exampleContextBackoff_lawful taskId r
  constructor
  · exact comesAndGoes (reclaiming_rust nameRing.lawful nameRing.atMostNext 1)
      ((hreclaims exampleTaskId 1).1 _ noDetails exampleRust reachable_exampleRust)
      (updates_rust.builds_of_reachable reachable_exampleRust) (ENat.natCast_ne_top 1)
      ⟨exampleProxy, rfl, rfl, .inl ⟨_, _, preheats_example, le_rfl⟩⟩
      ⟨exampleProxy, examplePreheat, _, rfl, rfl, preheats_example, rfl⟩
      ⟨exampleProxy, rfl, rfl, .inr (.inl ⟨_, _, deletes_example⟩)⟩
      ⟨exampleProxy, _, rfl, rfl, deletes_example, rfl, fun _ => by decide⟩ List.mem_cons_self
  · exact comesAndGoes (Go.reclaiming nameRing.lawful nameRing.atMostNext 2)
      ((hreclaims Go.examplePreheat.url 2).2 _ none exampleGo reachable_exampleGo)
      (updates_go.builds_of_reachable reachable_exampleGo) (ENat.natCast_ne_top 2)
      ⟨Go.twoProxy, rfl, rfl, .inl ⟨_, _, Go.preheats_example, le_rfl⟩⟩
      ⟨Go.twoProxy, Go.examplePreheat, rfl, rfl, Go.preheats_example, rfl⟩
      ⟨Go.twoProxy, rfl, rfl, .inr (.inl ⟨_, _, Go.deletes_example⟩)⟩
      ⟨Go.twoProxy, Go.exampleDelete, rfl, rfl, Go.deletes_example, rfl, fun _ => by decide⟩
      (List.mem_cons_of_mem _ List.mem_cons_self)

end DragonflySdk
