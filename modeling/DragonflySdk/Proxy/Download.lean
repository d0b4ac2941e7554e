import DragonflySdk.Proxy.Preheat

/-!
# What a preheat and a delete leave behind

The tasks of a preheat run on their own, each against one seed peer with retries of its own, and are
awaited in the order they finish, up to the first that failed. Whatever that order, a preheat
succeeds just when as many replicas as it asks for are healthy and every one of them has been
downloaded to, its response stream read to the end; when it fails after the selection, it does so
with the error of one of them (`preheat_lands_on_replicas`). A delete is the same without the count.
-/

namespace DragonflySdk

open Foundation

variable {crates : ProxyCrates}

/-! ### One attempt -/

/-- Reads the messages of a stream until it ends, and counts them. -/
def drain : (messages : Nat) → (failure : Option Status) → Nat × Except Status Unit
  | 0, none => (0, .ok ())
  | 0, some status => (0, .error status)
  | messages + 1, failure =>
    let (read, result) := drain messages failure
    (read + 1, result)

/-- What comes of an attempt to have a seed peer download. -/
inductive DownloadAttempt
  /-- the address makes no channel -/
  | invalidAddr (err : Str)
  | notConnected (err : Str)
  | refused (status : Status)
  /-- so many messages, and the status the stream then fails with, if it does -/
  | streamed (messages : Nat) (failure : Option Status)

/-- What comes of an attempt to have a seed peer delete. -/
inductive DeleteAttempt
  | invalidAddr (err : Str)
  | notConnected (err : Str)
  | answered (failure : Option Status)

/-- The error of an attempt that has no connection. -/
def connectError (addr err : Str) : Error :=
  .internal ("failed to connect to seed peer ".toList ++ addr ++ ": ".toList ++ err)

/-- Has the seed peer at `addr` download the task, reading its response to the end. -/
def downloadTask (decode : List UInt8 → Option Backend) (addr : Str) :
    DownloadAttempt → Except Error Unit
  | .invalidAddr err => .error (.invalidArgument err)
  | .notConnected err => .error (connectError addr err)
  | .refused status => .error (.fromStatus decode status)
  | .streamed messages failure => (drain messages failure).2.mapError (.fromStatus decode)

/-- Has the seed peer at `addr` delete the task. -/
def deleteTask (decode : List UInt8 → Option Backend) (addr : Str) :
    DeleteAttempt → Except Error Unit
  | .invalidAddr err => .error (.invalidArgument err)
  | .notConnected err => .error (connectError addr err)
  | .answered none => .ok ()
  | .answered (some status) =>
    if status.code = .notFound then .ok () else .error (.fromStatus decode status)

theorem drain_none (messages : Nat) : drain messages none = (messages, .ok ()) := by
  induction messages with
  | zero => rfl
  | succ messages ih => rw [drain, ih]

theorem drain_some (messages : Nat) (status : Status) :
    drain messages (some status) = (messages, .error status) := by
  induction messages with
  | zero => rfl
  | succ messages ih => rw [drain, ih]

theorem downloadTask_eq_ok {decode : List UInt8 → Option Backend} {addr : Str}
    {attempt : DownloadAttempt} :
    downloadTask decode addr attempt = .ok () ↔ ∃ messages, attempt = .streamed messages none := by
  cases attempt with
  | invalidAddr err => simp [downloadTask]
  | notConnected err => simp [downloadTask]
  | refused status => simp [downloadTask]
  | streamed messages failure =>
    cases failure with
    | none => simp [downloadTask, drain_none, Except.mapError]
    | some status => simp [downloadTask, drain_some, Except.mapError]

theorem deleteTask_eq_ok {decode : List UInt8 → Option Backend} {addr : Str}
    {attempt : DeleteAttempt} :
    deleteTask decode addr attempt = .ok () ↔ ∃ failure, attempt = .answered failure ∧
      ∀ status, failure = some status → status.code = .notFound := by
  cases attempt with
  | invalidAddr err => simp [deleteTask]
  | notConnected err => simp [deleteTask]
  | answered failure =>
    cases failure with
    | none => simp [deleteTask]
    | some status =>
      unfold deleteTask
      by_cases h : status.code = .notFound <;> simp [h]

/-! ### The tasks of all seed peers -/

/-- The task at one seed peer: how many attempts it made, and what it came to. -/
def Proxy.runAt (proxy : Proxy crates) (attempt : Nat → Str → Nat → Except Error Unit) (i : Nat)
    (peer : Host) : Nat × Except Error Unit :=
  match Proxy.peerAddr peer with
  | .error err => (0, .error err)
  | .ok addr => proxy.retry.run (RetryPolicy.counting (attempt i addr)) 0

/-- Runs the tasks of all seed peers. -/
def Proxy.runOnAll (proxy : Proxy crates) (attempt : Nat → Str → Nat → Except Error Unit)
    (finish : FinishOrder) (seedPeers : List Host) : Except Error Unit := do
  let addrs ← seedPeers.mapM Proxy.peerAddr
  joinAll finish (addrs.mapIdx fun i addr =>
    (proxy.retry.run (RetryPolicy.counting (attempt i addr)) 0).2)

/-- The request to delete a task. -/
structure DeleteTaskRequest where
  taskId : Str
  remoteIp : Option IpAddr

/-- Deletes a preheated file; `names` is what the keys of the hosts yield. -/
def Proxy.delete (proxy : Proxy crates) (fuel : Nat) (names : List Str)
    (preferredLocalIp : Option IpAddr)
    (delete : Nat → Str → DeleteTaskRequest → Nat → Except Error Unit) (finish : FinishOrder)
    (request : DeleteRequest) : Option (Except Error Unit) :=
  match (do request.validate; DragonflySdk.taskId crates.id request.toTaskFields) with
  | .error err => some (.error err)
  | .ok taskId =>
    (proxy.selectSeedPeers fuel names taskId request.scope request.replicas).map fun selected => do
      let seedPeers ← selected.mapError (.internalOf "failed to select seed peers: ".toList)
      proxy.runOnAll (fun i addr => delete i addr ⟨taskId, preferredLocalIp⟩) finish seedPeers

theorem mem_of_joinAll_eq_error {finish : FinishOrder} {results : List (Except Error Unit)}
    {err : Error} (h : joinAll finish results = .error err) : .error err ∈ results := by
  obtain ⟨i, hi, herr⟩ := exists_of_forM_eq_error h
  have hlt : i < results.length :=
    List.mem_range.mp ((finish.perm results.length).mem_iff.mp hi)
  rw [List.getD_eq_getElem _ _ hlt] at herr
  exact herr ▸ List.getElem_mem hlt

section
variable {proxy : Proxy crates} {attempt : Nat → Str → Nat → Except Error Unit}
  {finish : FinishOrder} {seedPeers : List Host}

theorem exists_peerAddr_iff {peer : Host} :
    (∃ addr, Proxy.peerAddr peer = .ok addr) ↔ (IpAddr.parse peer.ip).isSome = true := by
  unfold Proxy.peerAddr
  cases IpAddr.parse peer.ip <;> simp

theorem runOnAll_eq (hips : ∀ peer ∈ seedPeers, (IpAddr.parse peer.ip).isSome = true) :
    proxy.runOnAll attempt finish seedPeers =
      joinAll finish (seedPeers.mapIdx fun i peer => (proxy.runAt attempt i peer).2) := by
  obtain ⟨addrs, haddrs⟩ := exists_mapM_eq_ok fun peer hmem => exists_peerAddr_iff.mpr (hips peer hmem)
  have hpairs := mapM_eq_ok_iff.mp haddrs
  have hresults : (addrs.mapIdx fun i addr =>
        (proxy.retry.run (RetryPolicy.counting (attempt i addr)) 0).2) =
      seedPeers.mapIdx fun i peer => (proxy.runAt attempt i peer).2 := by
    refine List.ext_getElem (by simp [hpairs.length_eq]) fun i hi hi' => ?_
    rw [List.length_mapIdx] at hi hi'
    have haddr : Proxy.peerAddr seedPeers[i] = .ok addrs[i] := hpairs.get hi' hi
    rw [List.getElem_mapIdx, List.getElem_mapIdx, Proxy.runAt, haddr]
  rw [Proxy.runOnAll, haddrs, ← hresults]
  rfl

theorem runOnAll_eq_ok_iff (hips : ∀ peer ∈ seedPeers, (IpAddr.parse peer.ip).isSome = true) :
    proxy.runOnAll attempt finish seedPeers = .ok () ↔
      ∀ i (h : i < seedPeers.length), (proxy.runAt attempt i seedPeers[i]).2 = .ok () := by
  rw [runOnAll_eq hips, joinAll_eq_ok_iff]
  simp only [List.mem_mapIdx]
  constructor
  · exact fun h i hi => h _ ⟨i, hi, rfl⟩
  · rintro h _ ⟨i, hi, rfl⟩
    exact h i hi

theorem exists_of_runOnAll_eq_error
    (hips : ∀ peer ∈ seedPeers, (IpAddr.parse peer.ip).isSome = true) {err : Error}
    (h : proxy.runOnAll attempt finish seedPeers = .error err) :
    ∃ i, ∃ h : i < seedPeers.length, (proxy.runAt attempt i seedPeers[i]).2 = .error err := by
  rw [runOnAll_eq hips] at h
  exact List.mem_mapIdx.mp (mem_of_joinAll_eq_error h)

theorem attempt_of_runAt_eq_ok (hbackon : crates.backon.Lawful) {i : Nat} {peer : Host}
    (h : (proxy.runAt attempt i peer).2 = .ok ()) :
    ∃ addr last, (proxy.runAt attempt i peer).1 = last + 1 ∧ attempt i addr last = .ok () := by
  unfold Proxy.runAt at h ⊢
  rcases haddr : Proxy.peerAddr peer with err | addr
  · rw [haddr] at h
    cases h
  · rw [haddr] at h
    simp only [RetryPolicy.run_counting _ hbackon] at h ⊢
    have hpos : 0 < proxy.retry.made (attempt i addr) := attempts_pos (by omega)
    exact ⟨addr, _, (Nat.sub_add_cancel hpos).symm, h⟩

theorem downloadAll_eq (download : Nat → Str → Download → Nat → Except Error Unit)
    (request : Download) :
    proxy.downloadAll download finish request seedPeers =
      (proxy.runOnAll (fun i addr => download i addr request) finish seedPeers).map
        fun _ => seedPeers := by
  rcases haddrs : seedPeers.mapM Proxy.peerAddr with err | addrs
  · rw [Proxy.downloadAll, Proxy.runOnAll, haddrs]
    rfl
  · rcases hjoin : joinAll finish (addrs.mapIdx fun i addr =>
        (proxy.retry.run (RetryPolicy.counting (download i addr request)) 0).2) with err | value
    · rw [Proxy.downloadAll, Proxy.runOnAll, haddrs]
      simp only [bind, Except.bind, hjoin]
      rfl
    · obtain ⟨downloaded, hok⟩ : ∃ downloaded,
          proxy.downloadAll download finish request seedPeers = .ok downloaded :=
        ⟨_, bind_eq_ok_iff.mpr ⟨addrs, haddrs, bind_eq_ok_iff.mpr ⟨value, hjoin, rfl⟩⟩⟩
      have hrun : proxy.runOnAll (fun i addr => download i addr request) finish seedPeers = .ok value :=
        bind_eq_ok_iff.mpr ⟨addrs, haddrs, hjoin⟩
      rw [hok, downloadAll_eq_ok hok, hrun]
      rfl

end

/-! ### The seed peers selected -/

/-- Every seed peer has an address, as every listing has. -/
def SeedPeers.Addressed {crate : HashRingCrate} (s : SeedPeers crate) : Prop :=
  ∀ name seedPeer, s.hosts.get name = some seedPeer →
    (IpAddr.parse seedPeer.host.ip).isSome = true

section
variable {proxy : Proxy crates} (haddressed : proxy.seedPeerSelector.seedPeers.Addressed)
include haddressed

theorem addressed_healthyHosts {seedPeers : List SeedPeer}
    (h : ∀ seedPeer ∈ seedPeers, ∃ name,
      proxy.seedPeerSelector.seedPeers.hosts.get name = some seedPeer) :
    ∀ host ∈ healthyHosts seedPeers, (IpAddr.parse host.ip).isSome = true := by
  intro host hmem
  obtain ⟨seedPeer, hseedPeer, rfl⟩ := List.mem_map.mp hmem
  obtain ⟨name, hget⟩ := h seedPeer (List.mem_of_mem_filter hseedPeer)
  exact haddressed name seedPeer hget

theorem addressed_of_select (hring : crates.ring.Lawful)
    (hbuilds : Builds crates.ring proxy.seedPeerSelector.seedPeers.hosts
      proxy.seedPeerSelector.seedPeers.hashring)
    {fuel : Nat} {taskId : Str} {replicas : Nat} {selected : List Host}
    (h : proxy.seedPeerSelector.seedPeers.select fuel taskId replicas = some (.ok selected)) :
    ∀ host ∈ selected, (IpAddr.parse host.ip).isSome = true := by
  have hhosts : proxy.seedPeerSelector.seedPeers.hosts.len ≠ 0 := by
    intro hzero
    rw [SeedPeers.select, if_pos hzero] at h
    cases h
  obtain ⟨m, _, hfinish⟩ := (selects_rust.exists_fuel_iff hring hbuilds hhosts taskId replicas
    (.ok selected)).mp ⟨fuel, h⟩
  rw [selectHealthy_eq_ok hfinish.symm]
  exact addressed_healthyHosts haddressed fun seedPeer hmem =>
    ⟨_, SeedPeers.get_name_of_mem_replicas hmem⟩

theorem addressed_of_selectAll {names : List Str} {selected : List Host}
    (h : proxy.seedPeerSelector.seedPeers.selectAll names = .ok selected) :
    ∀ host ∈ selected, (IpAddr.parse host.ip).isSome = true := by
  unfold SeedPeers.selectAll at h
  simp only at h
  split at h
  · cases h
  · obtain rfl := Except.ok.inj h
    exact addressed_healthyHosts haddressed fun seedPeer hmem =>
      (List.mem_filterMap.mp hmem).imp fun name h => h.2

theorem addressed_of_selectSeedPeers (hring : crates.ring.Lawful)
    (hbuilds : Builds crates.ring proxy.seedPeerSelector.seedPeers.hosts
      proxy.seedPeerSelector.seedPeers.hashring)
    {fuel : Nat} {names : List Str} {taskId : Str} {scope : Scope} {replicas : Nat}
    {selected : List Host}
    (h : proxy.selectSeedPeers fuel names taskId scope replicas = some (.ok selected)) :
    ∀ host ∈ selected, (IpAddr.parse host.ip).isSome = true := by
  cases scope with
  | default => exact addressed_of_select haddressed hring hbuilds h
  | allSeedPeers => exact addressed_of_selectAll haddressed (Option.some.inj h)

end

/-! ### A preheat and a delete -/

/-- What a preheat of the task comes to, for any fuel, whose attempts at the `i`-th seed peer come
to `attempts i`. -/
structure PreheatLands (proxy : Proxy crates) (decode : List UInt8 → Option Backend)
    (attempts : Nat → Nat → DownloadAttempt) (taskId : Str) (replicas : Nat)
    (preheat : Nat → Option (Except Error (List Host))) : Prop where
  /-- It succeeds just when enough seed peers are selected, and the task succeeds at each. -/
  ok_iff : (∃ fuel preheated, preheat fuel = some (.ok preheated)) ↔
    ∃ fuel selected, proxy.seedPeerSelector.seedPeers.select fuel taskId
        (Proxy.replicasOf replicas) = some (.ok selected) ∧
      replicas ≤ selected.length ∧ ∀ i (h : i < selected.length),
        (proxy.runAt (fun i addr made => downloadTask decode addr (attempts i made)) i
          selected[i]).2 = .ok ()
  /-- It has then landed on as many seed peers as replicas, the first clockwise from the task. -/
  names_eq : ∀ fuel preheated, preheat fuel = some (.ok preheated) →
    preheated.length = replicas ∧ (preheated.map Host.name).Nodup ∧
      preheated.map Host.name = (crates.ring.walk proxy.seedPeerSelector.seedPeers.hashring
        taskId).eraseDups.take replicas
  /-- The last attempt at each has read the stream to its end. -/
  drained : ∀ fuel preheated, preheat fuel = some (.ok preheated) →
    ∀ i (h : i < preheated.length), ∃ last messages,
      (proxy.runAt (fun i addr made => downloadTask decode addr (attempts i made)) i
        preheated[i]).1 = last + 1 ∧
      attempts i last = .streamed messages none ∧ drain messages none = (messages, .ok ())
  /-- Its error, once enough are selected, is that of one of them. -/
  error_of : ∀ fuel err, preheat fuel = some (.error err) → ∀ fuel' selected,
    proxy.seedPeerSelector.seedPeers.select fuel' taskId (Proxy.replicasOf replicas) =
      some (.ok selected) → replicas ≤ selected.length → ∃ i, ∃ h : i < selected.length,
        (proxy.runAt (fun i addr made => downloadTask decode addr (attempts i made)) i
          selected[i]).2 = .error err

/-- What a delete of the task comes to, for any fuel, whose attempts at the `i`-th seed peer come to
`attempts i`. -/
structure DeleteLeaves (proxy : Proxy crates) (decode : List UInt8 → Option Backend)
    (attempts : Nat → Nat → DeleteAttempt)
    (selectSeedPeers : Nat → Option (Except Error (List Host)))
    (delete : Nat → Option (Except Error Unit)) : Prop where
  /-- It succeeds just when seed peers are selected, and the task succeeds at each. -/
  ok_iff : (∃ fuel, delete fuel = some (.ok ())) ↔
    ∃ fuel selected, selectSeedPeers fuel = some (.ok selected) ∧ ∀ i (h : i < selected.length),
      (proxy.runAt (fun i addr made => deleteTask decode addr (attempts i made)) i
        selected[i]).2 = .ok ()
  /-- The last attempt at each was answered, if only by there being no such task. -/
  answered : ∀ fuel, delete fuel = some (.ok ()) → ∀ fuel' selected,
    selectSeedPeers fuel' = some (.ok selected) → ∀ i (h : i < selected.length), ∃ last failure,
      (proxy.runAt (fun i addr made => deleteTask decode addr (attempts i made)) i
        selected[i]).1 = last + 1 ∧
      attempts i last = .answered failure ∧ ∀ status, failure = some status →
        status.code = .notFound
  /-- Its error, once some are selected, is that of one of them. -/
  error_of : ∀ fuel err, delete fuel = some (.error err) → ∀ fuel' selected,
    selectSeedPeers fuel' = some (.ok selected) → ∃ i, ∃ h : i < selected.length,
      (proxy.runAt (fun i addr made => deleteTask decode addr (attempts i made)) i
        selected[i]).2 = .error err

section preheat
variable {proxy : Proxy crates} {fuel : Nat} {names : List Str} {preferredLocalIp : Option IpAddr}
  {download : Nat → Str → Download → Nat → Except Error Unit} {finish : FinishOrder}
  {request : PreheatRequest} {taskId : Str} {downloadRequest : Download}

theorem preheat_eq (hscope : request.scope = .default) (hvalid : request.validate = .ok ())
    (hid : DragonflySdk.taskId crates.id request.toTaskFields = .ok taskId)
    (hdownload : downloadTaskRequest crates preferredLocalIp request = .ok downloadRequest) :
    proxy.preheat fuel names preferredLocalIp download finish request =
      (proxy.seedPeerSelector.seedPeers.select fuel taskId (Proxy.replicasOf request.replicas)).map
        fun selected => (Proxy.checkSelected request selected).bind
          (proxy.downloadAll download finish downloadRequest) := by
  have htaskId : (do request.validate; DragonflySdk.taskId crates.id request.toTaskFields) =
      .ok taskId := bind_eq_ok_iff.mpr ⟨(), hvalid, hid⟩
  unfold Proxy.preheat Proxy.selectSeedPeers
  rw [htaskId, hscope, hdownload]
  rfl

theorem preheat_eq_ok_iff (hscope : request.scope = .default) (hvalid : request.validate = .ok ())
    (hid : DragonflySdk.taskId crates.id request.toTaskFields = .ok taskId)
    (hdownload : downloadTaskRequest crates preferredLocalIp request = .ok downloadRequest)
    {preheated : List Host} :
    proxy.preheat fuel names preferredLocalIp download finish request = some (.ok preheated) ↔
      proxy.seedPeerSelector.seedPeers.select fuel taskId (Proxy.replicasOf request.replicas) =
          some (.ok preheated) ∧ request.replicas ≤ preheated.length ∧
        proxy.runOnAll (fun i addr => download i addr downloadRequest) finish preheated =
          .ok () := by
  rw [preheat_eq hscope hvalid hid hdownload, Option.map_eq_some_iff]
  constructor
  · intro h
    obtain ⟨selected, hselected, h⟩ := h
    obtain ⟨seedPeers, hcheck, hdownloaded⟩ := bind_eq_ok_iff.mp h
    obtain ⟨rfl, hle⟩ := (checkSelected_eq_ok_iff hscope).mp hcheck
    rw [downloadAll_eq] at hdownloaded
    obtain ⟨_, hrun, rfl⟩ := map_eq_ok_iff.mp hdownloaded
    exact ⟨hselected, hle, hrun⟩
  · intro h
    obtain ⟨hselected, hle, hrun⟩ := h
    refine ⟨_, hselected, bind_eq_ok_iff.mpr
      ⟨preheated, (checkSelected_eq_ok_iff hscope).mpr ⟨rfl, hle⟩, ?_⟩⟩
    rw [downloadAll_eq, hrun]
    rfl

theorem runOnAll_of_preheat_eq_error (hscope : request.scope = .default)
    (hvalid : request.validate = .ok ())
    (hid : DragonflySdk.taskId crates.id request.toTaskFields = .ok taskId)
    (hdownload : downloadTaskRequest crates preferredLocalIp request = .ok downloadRequest)
    {err : Error} (h : proxy.preheat fuel names preferredLocalIp download finish request =
      some (.error err)) {fuel' : Nat} {selected : List Host}
    (hselect : proxy.seedPeerSelector.seedPeers.select fuel' taskId
      (Proxy.replicasOf request.replicas) = some (.ok selected))
    (hle : request.replicas ≤ selected.length) :
    proxy.runOnAll (fun i addr => download i addr downloadRequest) finish selected =
      .error err := by
  rw [preheat_eq hscope hvalid hid hdownload] at h
  obtain ⟨selected', hselected', h⟩ := Option.map_eq_some_iff.mp h
  rw [SeedPeers.select_unique hselected' hselect,
    (checkSelected_eq_ok_iff hscope).mpr ⟨rfl, hle⟩] at h
  change proxy.downloadAll download finish downloadRequest selected = .error err at h
  rw [downloadAll_eq] at h
  exact map_eq_error_iff.mp h

end preheat

section delete
variable {proxy : Proxy crates} {fuel : Nat} {names : List Str} {preferredLocalIp : Option IpAddr}
  {delete : Nat → Str → DeleteTaskRequest → Nat → Except Error Unit} {finish : FinishOrder}
  {request : DeleteRequest} {taskId : Str}

theorem selectSeedPeers_unique {fuel' : Nat} {scope : Scope} {replicas : Nat}
    {result result' : Except Error (List Host)}
    (h : proxy.selectSeedPeers fuel names taskId scope replicas = some result)
    (h' : proxy.selectSeedPeers fuel' names taskId scope replicas = some result') :
    result = result' := by
  cases scope with
  | default => exact SeedPeers.select_unique h h'
  | allSeedPeers => exact Option.some.inj (h.symm.trans h')

theorem delete_eq (hvalid : request.validate = .ok ())
    (hid : DragonflySdk.taskId crates.id request.toTaskFields = .ok taskId) :
    proxy.delete fuel names preferredLocalIp delete finish request =
      (proxy.selectSeedPeers fuel names taskId request.scope request.replicas).map
        fun selected => (selected.mapError
            (.internalOf "failed to select seed peers: ".toList)).bind
          (proxy.runOnAll (fun i addr => delete i addr ⟨taskId, preferredLocalIp⟩) finish) := by
  have htaskId : (do request.validate; DragonflySdk.taskId crates.id request.toTaskFields) =
      .ok taskId := bind_eq_ok_iff.mpr ⟨(), hvalid, hid⟩
  unfold Proxy.delete
  rw [htaskId]
  rfl

theorem delete_eq_ok_iff (hvalid : request.validate = .ok ())
    (hid : DragonflySdk.taskId crates.id request.toTaskFields = .ok taskId) :
    proxy.delete fuel names preferredLocalIp delete finish request = some (.ok ()) ↔
      ∃ selected, proxy.selectSeedPeers fuel names taskId request.scope request.replicas =
          some (.ok selected) ∧
        proxy.runOnAll (fun i addr => delete i addr ⟨taskId, preferredLocalIp⟩) finish selected =
          .ok () := by
  rw [delete_eq hvalid hid, Option.map_eq_some_iff]
  constructor
  · intro h
    obtain ⟨selected, hselected, h⟩ := h
    obtain ⟨seedPeers, hseedPeers, hrun⟩ := bind_eq_ok_iff.mp h
    rw [mapError_eq_ok_iff] at hseedPeers
    exact ⟨seedPeers, hseedPeers ▸ hselected, hrun⟩
  · intro h
    obtain ⟨selected, hselected, hrun⟩ := h
    exact ⟨_, hselected, hrun⟩

theorem runOnAll_of_delete (hvalid : request.validate = .ok ())
    (hid : DragonflySdk.taskId crates.id request.toTaskFields = .ok taskId)
    {result : Except Error Unit}
    (h : proxy.delete fuel names preferredLocalIp delete finish request = some result)
    {fuel' : Nat} {selected : List Host}
    (hselect : proxy.selectSeedPeers fuel' names taskId request.scope request.replicas =
      some (.ok selected)) :
    proxy.runOnAll (fun i addr => delete i addr ⟨taskId, preferredLocalIp⟩) finish selected =
      result := by
  rw [delete_eq hvalid hid] at h
  obtain ⟨selected', hselected', rfl⟩ := Option.map_eq_some_iff.mp h
  rw [selectSeedPeers_unique hselected' hselect]
  rfl

end delete

section
variable (hring : crates.ring.Lawful) (hbackon : crates.backon.Lawful) {proxy : Proxy crates}
  (hreachable : Reachable (updateSteps crates.ring) proxy.seedPeerSelector.seedPeers)
  (haddressed : proxy.seedPeerSelector.seedPeers.Addressed)
  (decode : List UInt8 → Option Backend) (names : List Str) (preferredLocalIp : Option IpAddr)
  (finish : FinishOrder)
include hring hbackon hreachable haddressed

theorem preheatLands (hnext : crates.ring.AtMostNext) (attempts : Nat → Nat → DownloadAttempt)
    {request : PreheatRequest} (hvalid : request.validate = .ok ())
    (hscope : request.scope = .default) {taskId : Str}
    (hid : DragonflySdk.taskId crates.id request.toTaskFields = .ok taskId)
    {timeout : ProtoDuration} (htimeout : crates.durationTryFrom request.timeout = .ok timeout) :
    PreheatLands proxy decode attempts taskId request.replicas fun fuel =>
      proxy.preheat fuel names preferredLocalIp
        (fun i addr _ made => downloadTask decode addr (attempts i made)) finish request := by
  have hbuilds := updates_rust.builds_of_reachable hreachable
  obtain ⟨downloadRequest, hdownload⟩ : ∃ downloadRequest,
      downloadTaskRequest crates preferredLocalIp request = .ok downloadRequest := by
    rw [downloadTaskRequest, htimeout]
    exact ⟨_, rfl⟩
  refine ⟨?_, ?_, ?_, ?_⟩
  · constructor
    · intro h
      obtain ⟨fuel, preheated, hpreheat⟩ := h
      obtain ⟨hselect, hle, hrun⟩ := (preheat_eq_ok_iff hscope hvalid hid hdownload).mp hpreheat
      exact ⟨fuel, preheated, hselect, hle,
        (runOnAll_eq_ok_iff (addressed_of_select haddressed hring hbuilds hselect)).mp hrun⟩
    · intro h
      obtain ⟨fuel, selected, hselect, hle, hall⟩ := h
      refine ⟨fuel, selected, (preheat_eq_ok_iff hscope hvalid hid hdownload).mpr
        ⟨hselect, hle, ?_⟩⟩
      exact (runOnAll_eq_ok_iff (addressed_of_select haddressed hring hbuilds hselect)).mpr hall
  · intro fuel preheated hpreheat
    obtain ⟨_, _, taskId', hid', heq, hlength⟩ := preheat_eq_ok hring hnext hscope hpreheat
    obtain rfl := Except.ok.inj (hid'.symm.trans hid)
    have hnames : preheated.map Host.name = (proxy.seedPeerSelector.seedPeers.replicaSeedPeers
        taskId' request.replicas).map fun seedPeer => seedPeer.host.name := by
      rw [heq, List.map_map]
      rfl
    have hcount := length_replicaSeedPeers hring hbuilds taskId' request.replicas
    refine ⟨hlength, ?_, ?_⟩
    · rw [hnames]
      exact nodup_replicaSeedPeers hring hbuilds taskId' request.replicas
    · rw [heq, List.length_map] at hlength
      rw [hnames, map_name_replicaSeedPeers_eq hring hbuilds, ← hcount, hlength]
  · intro fuel preheated hpreheat i hi
    obtain ⟨hselect, _, hrun⟩ := (preheat_eq_ok_iff hscope hvalid hid hdownload).mp hpreheat
    obtain ⟨addr, last, hlast, hok⟩ := attempt_of_runAt_eq_ok hbackon
      ((runOnAll_eq_ok_iff (addressed_of_select haddressed hring hbuilds hselect)).mp hrun i hi)
    obtain ⟨messages, hstreamed⟩ := downloadTask_eq_ok.mp hok
    exact ⟨last, messages, hlast, hstreamed, drain_none messages⟩
  · intro fuel err hpreheat fuel' selected hselect hle
    exact exists_of_runOnAll_eq_error (addressed_of_select haddressed hring hbuilds hselect)
      (runOnAll_of_preheat_eq_error hscope hvalid hid hdownload hpreheat hselect hle)

theorem deleteLeaves (attempts : Nat → Nat → DeleteAttempt) {request : DeleteRequest}
    (hvalid : request.validate = .ok ()) {taskId : Str}
    (hid : DragonflySdk.taskId crates.id request.toTaskFields = .ok taskId) :
    DeleteLeaves proxy decode attempts
      (fun fuel => proxy.selectSeedPeers fuel names taskId request.scope request.replicas)
      fun fuel => proxy.delete fuel names preferredLocalIp
        (fun i addr _ made => deleteTask decode addr (attempts i made)) finish request := by
  have hbuilds := updates_rust.builds_of_reachable hreachable
  refine ⟨?_, ?_, ?_⟩
  · constructor
    · intro h
      obtain ⟨fuel, hdelete⟩ := h
      obtain ⟨selected, hselect, hrun⟩ := (delete_eq_ok_iff hvalid hid).mp hdelete
      exact ⟨fuel, selected, hselect, (runOnAll_eq_ok_iff
        (addressed_of_selectSeedPeers haddressed hring hbuilds hselect)).mp hrun⟩
    · intro h
      obtain ⟨fuel, selected, hselect, hall⟩ := h
      refine ⟨fuel, (delete_eq_ok_iff hvalid hid).mpr ⟨selected, hselect, ?_⟩⟩
      exact (runOnAll_eq_ok_iff
        (addressed_of_selectSeedPeers haddressed hring hbuilds hselect)).mpr hall
  · intro fuel hdelete fuel' selected hselect i hi
    have hrun := runOnAll_of_delete hvalid hid hdelete hselect
    obtain ⟨addr, last, hlast, hok⟩ := attempt_of_runAt_eq_ok hbackon ((runOnAll_eq_ok_iff
      (addressed_of_selectSeedPeers haddressed hring hbuilds hselect)).mp hrun i hi)
    obtain ⟨failure, hanswered⟩ := deleteTask_eq_ok.mp hok
    exact ⟨last, failure, hlast, hanswered⟩
  · intro fuel err hdelete fuel' selected hselect
    exact exists_of_runOnAll_eq_error
      (addressed_of_selectSeedPeers haddressed hring hbuilds hselect)
      (runOnAll_of_delete hvalid hid hdelete hselect)

end

/-- **A preheat lands on the replicas it asks for, or fails as one of them did**, and a delete leaves
all seed peers selected. -/
theorem preheat_lands_on_replicas (crates : ProxyCrates) (hring : crates.ring.Lawful)
    (hnext : crates.ring.AtMostNext) (hbackon : crates.backon.Lawful) (proxy : Proxy crates)
    (hreachable : Reachable (updateSteps crates.ring) proxy.seedPeerSelector.seedPeers)
    (haddressed : proxy.seedPeerSelector.seedPeers.Addressed)
    (decode : List UInt8 → Option Backend) (names : List Str) (preferredLocalIp : Option IpAddr)
    (finish : FinishOrder) :
    (∀ (attempts : Nat → Nat → DownloadAttempt) (request : PreheatRequest) (taskId : Str)
      (timeout : ProtoDuration), request.validate = .ok () → request.scope = .default →
      DragonflySdk.taskId crates.id request.toTaskFields = .ok taskId →
      crates.durationTryFrom request.timeout = .ok timeout →
      PreheatLands proxy decode attempts taskId request.replicas fun fuel =>
        proxy.preheat fuel names preferredLocalIp
          (fun i addr _ made => downloadTask decode addr (attempts i made)) finish request) ∧
    (∀ (attempts : Nat → Nat → DeleteAttempt) (request : DeleteRequest) (taskId : Str),
      request.validate = .ok () →
      DragonflySdk.taskId crates.id request.toTaskFields = .ok taskId →
      DeleteLeaves proxy decode attempts
        (fun fuel => proxy.selectSeedPeers fuel names taskId request.scope request.replicas)
        fun fuel => proxy.delete fuel names preferredLocalIp
          (fun i addr _ made => deleteTask decode addr (attempts i made)) finish request) := by
  constructor
  · intro attempts request taskId timeout hvalid hscope hid htimeout
    exact preheatLands hring hbackon hreachable haddressed decode names preferredLocalIp finish
      hnext attempts hvalid hscope hid htimeout
  · intro attempts request taskId hvalid hid
    exact deleteLeaves hring hbackon hreachable haddressed decode names preferredLocalIp finish
      attempts hvalid hid

theorem addressed_example : exampleProxy.seedPeerSelector.seedPeers.Addressed := by
  intro name seedPeer hget
  change exampleRust.hosts.get name = some seedPeer at hget
  rw [exampleRust, SeedPeers.update_hosts] at hget
  have hall : ∀ seedPeer ∈ exampleSeedPeers, (IpAddr.parse seedPeer.host.ip).isSome = true := by
    decide +kernel
  exact hall seedPeer (mem_of_get_hostsOf hget)

/-- No connection at first, then two messages. -/
def exampleAttempts (made : Nat) : DownloadAttempt :=
  if made = 0 then .notConnected "refused".toList else .streamed 2 none

/-- At a preheat of one replica whose first attempt fails, and a delete of what is not there. -/
theorem preheat_lands_on_replicas_one :
    (PreheatLands exampleProxy (fun _ => none) (fun _ => exampleAttempts)
      (hexEncode (utf8 "content".toList)) 1 fun fuel =>
        exampleProxy.preheat fuel exampleNames none
          (fun _ addr _ made => downloadTask (fun _ => none) addr (exampleAttempts made)) inOrder
          examplePreheat) ∧
    DeleteLeaves exampleProxy (fun _ => none) (fun _ _ => .answered (some ⟨.notFound, [], []⟩))
      (fun fuel => exampleProxy.selectSeedPeers fuel exampleNames
        (hexEncode (utf8 "content".toList)) .allSeedPeers 1)
      fun fuel => exampleProxy.delete fuel exampleNames none
        (fun _ addr _ _ => deleteTask (fun _ => none) addr
          (.answered (some ⟨.notFound, [], []⟩))) inOrder ⟨exampleFields, 1, .allSeedPeers, 0⟩ := by
  have hid : taskId exampleCrates.id exampleFields = .ok (hexEncode (utf8 "content".toList)) :=
    @taskId_content identityCrates exampleFields "content".toList rfl
  obtain ⟨hpreheat, hdelete⟩ := preheat_lands_on_replicas exampleCrates nameRing.lawful
    nameRing.atMostNext exampleBackon_lawful exampleProxy reachable_exampleRust addressed_example
    (fun _ => none) exampleNames none inOrder
  exact ⟨hpreheat (fun _ => exampleAttempts) examplePreheat _ ⟨0, 0⟩ rfl rfl hid rfl,
    hdelete (fun _ _ => .answered (some ⟨.notFound, [], []⟩))
      ⟨exampleFields, 1, .allSeedPeers, 0⟩ _ rfl hid⟩

end DragonflySdk
