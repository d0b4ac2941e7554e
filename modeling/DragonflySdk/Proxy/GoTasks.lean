import DragonflySdk.Foundation.ErrGroup
import DragonflySdk.Proxy.Preheat
import DragonflySdk.Proxy.Stream
import DragonflySdk.Proxy.StatusRetry

/-!
# Preheats and deletes in Go

`Preheat` of `preheat.go` and `Delete` of `delete.go`: the seed peers are selected, and each is
called by a task of an error group, under the context of the group and with retries of its own. A
task that fails cancels the context of the others, which then make no more attempts; all of them are
awaited.

When a preheat returns, no call to a seed peer is left over. Without an error, the response streams
of just as many seed peers as replicas have been read to the end, the first on the ring of the task,
all of them healthy; and its error is the first that was noted, of a seed peer that the group had not
cancelled (`preheat_lands`). A delete is the same but for the number of seed peers, which is the one
asked for in 32 bits only, and may be less (`delete_leaves`).
-/

namespace DragonflySdk.Go

open Foundation

/-! ### The requests -/

/-- `Scope` -/
inductive Scope
  /-- `ScopeDefault` -/
  | default
  /-- `ScopeAllSeedPeers` -/
  | allSeedPeers
  | other (scope : Str)
deriving DecidableEq, Repr

/-- An error of an invalid argument. -/
def invalidArgument (format : String) (operands : List Str) : WrappedError :=
  errorf ⟨format.toList, operands⟩ [.node (.sentinel .invalidArgument) []]

/-- An internal error. -/
def internalError (format : String) (operands : List Str) : WrappedError :=
  errorf ⟨format.toList, operands⟩ [.node (.sentinel .internal) []]

/-- Validates the scope. -/
def Scope.validate : Scope → Except WrappedError Unit
  | default | allSeedPeers => .ok ()
  | other scope => .error (invalidArgument "%w: invalid scope %q" [scope])

/-- What the requests to preheat and to delete, a file or an image, have in common. -/
structure TaskParams where
  pieceLength : Option Nat
  tag : Str
  application : Str
  filteredQueryParams : List Str
  contentForCalculatingTaskId : Str
  enableTaskIdBasedBlobDigest : Bool
  replicas : Int
  scope : Scope
  timeout : Int
deriving DecidableEq, Repr

/-- Validates the replicas and the scope. -/
def TaskParams.validate (r : TaskParams) : Except WrappedError Unit :=
  if r.replicas ≤ 0 then .error (invalidArgument "%w: replicas must be positive" [])
  else r.scope.validate

structure PreheatRequest extends TaskParams where
  url : Str
  header : Header
  priority : Option Int

structure DeleteRequest extends TaskParams where
  url : Str

def PreheatRequest.validate (r : PreheatRequest) : Except WrappedError Unit :=
  r.toTaskParams.validate

def DeleteRequest.validate (r : DeleteRequest) : Except WrappedError Unit :=
  r.toTaskParams.validate

/-- The last value wins for duplicate keys. -/
def headerToMap (header : Header) : Finmap fun _ : Str => Str :=
  header.foldl (fun m (k, v) =>
    match v.getLast? with
    | some value => m.insert k value
    | none => m) ∅

/-- `commonv2.Download`, of the standard type and always scheduled. -/
structure Download where
  url : Str
  priority : Int
  filteredQueryParams : List Str
  requestHeader : Finmap fun _ : Str => Str
  pieceLength : Option Nat
  timeout : Int
  remoteIp : Str
  enableTaskIdBasedBlobDigest : Bool
  tag : Option Str
  application : Option Str
  contentForCalculatingTaskId : Option Str

/-- What is set only when it is not empty. -/
def unlessEmpty (s : Str) : Option Str := if s ≠ [] then some s else none

/-- `commonv2.Priority_LEVEL6` -/
def priorityLevel6 : Int := 6

/-- The download task request for preheating; `ipv4` is the address of this host. -/
def downloadTaskRequest (ipv4 : Str) (req : PreheatRequest) : Download where
  url := req.url
  priority := req.priority.getD priorityLevel6
  filteredQueryParams := req.filteredQueryParams
  requestHeader := headerToMap req.header
  pieceLength := req.pieceLength
  timeout := req.timeout
  remoteIp := ipv4
  enableTaskIdBasedBlobDigest := req.enableTaskIdBasedBlobDigest
  tag := unlessEmpty req.tag
  application := unlessEmpty req.application
  contentForCalculatingTaskId := unlessEmpty req.contentForCalculatingTaskId

structure DeleteTaskRequest where
  taskId : Str
  remoteIp : Str

/-! ### The seed peers -/

/-- Selects every healthy seed peer; `names` is what ranging over the hosts yields. -/
def selectAll {crate : HashRingCrate} (s : SeedPeers crate) (names : List Str) :
    Except Str (List Host) :=
  let seedPeers := ((names.filterMap s.hosts.get).filter (·.healthy)).map (·.host)
  if seedPeers.length = 0 then .error "host not found: seed peers".toList else .ok seedPeers

/-- The address of a seed peer. -/
def peerAddr (peer : Host) : Str := joinHostPort peer.ip (toString peer.port).toList

/-- The tasks of an operation: the request that is sent, with the task id, and the seed peers. -/
structure Tasks (β : Type) where
  id : Str
  request : β
  seedPeers : List Host

namespace Proxy

variable {modules : Modules} (p : Proxy modules)

/-- The id of a task. -/
def idOf (modules : Modules) (url : Str) (r : TaskParams) : Except WrappedError Str :=
  (modules.taskIdV2 url r.pieceLength r.tag r.application r.filteredQueryParams
    r.contentForCalculatingTaskId r.enableTaskIdBasedBlobDigest).mapError fun err =>
      internalError "%w: failed to generate task id: %v" [err]

/-- Selects the seed peers the scope addresses for the task. -/
def selectSeedPeers (fuel : Nat) (names : List Str) (id : Str) (scope : Scope) (replicas : Int) :
    Option (Except Str (List Host)) :=
  if scope = .allSeedPeers then some (selectAll p.seedPeerSelector.seedPeers names)
  else select p.seedPeerSelector.seedPeers fuel id (uint32Of replicas)

/-- The seed peers a preheat calls, with the request. -/
def preheatTasks (fuel : Nat) (names : List Str) (ipv4 : Str) (req : PreheatRequest) :
    Option (Except WrappedError (Tasks Download)) :=
  match (do req.validate; idOf modules req.url req.toTaskParams) with
  | .error err => some (.error err)
  | .ok id =>
    (p.selectSeedPeers fuel names id req.scope req.replicas).map fun selected =>
      match selected with
      | .error err => .error (internalError "%w: failed to select seed peers: %v" [err])
      | .ok seedPeers =>
        if req.scope = .default ∧ (seedPeers.length : Int) < req.replicas then
          .error (internalError "%w: insufficient seed peers for %d replicas, %d available"
            [(toString req.replicas).toList, (toString seedPeers.length).toList])
        else .ok ⟨id, downloadTaskRequest ipv4 req, seedPeers⟩

/-- The seed peers a delete calls, with the request. -/
def deleteTasks (fuel : Nat) (names : List Str) (ipv4 : Str) (req : DeleteRequest) :
    Option (Except WrappedError (Tasks DeleteTaskRequest)) :=
  match (do req.validate; idOf modules req.url req.toTaskParams) with
  | .error err => some (.error err)
  | .ok id =>
    (p.selectSeedPeers fuel names id req.scope req.replicas).map fun selected =>
      match selected with
      | .error err => .error (internalError "%w: failed to select seed peers: %v" [err])
      | .ok seedPeers => .ok ⟨id, ⟨id, ipv4⟩, seedPeers⟩

end Proxy

/-! ### The calls -/

/-- What comes of a call to a seed peer to download a task. -/
inductive DownloadCall
  | refused (status : Status)
  /-- so many messages, and the status the stream then fails with, if it does -/
  | streamed (messages : Nat) (failure : Option Status)

/-- One attempt of `download`. -/
def downloadAttempt (id : Str) : DownloadCall → Except WrappedError Unit
  | .refused status => .error (downloadError id status)
  | .streamed messages failure => downloadTask id messages failure

/-- What the calls of one task come to: whether there is a client for the seed peer, and what each
attempt is answered. -/
structure PeerCalls (β : Type) where
  /-- the error of `grpc.NewClient` -/
  dial : Option Str
  answers : Nat → β

section
variable {backoff : ContextBackoff} (retry : ContextRetryPolicy backoff) {β : Type}

/-- Calls a seed peer, as `download` and `delete` do, in a context that ends during or after an
attempt, if it does. -/
def callPeer (attempt : β → Except WrappedError Unit) (calls : PeerCalls β)
    (moment : Option (Nat × ContextEnd)) (addr : Str) : Nat × Except WrappedError Unit :=
  match calls.dial with
  | some err => (0, .error (internalError "%w: failed to connect to seed peer %s: %v" [addr, err]))
  | none => retry.run (endedBy moment) (counting fun i => attempt (calls.answers i)) 0

/-- `download` -/
def download (id : Str) : PeerCalls DownloadCall → Option (Nat × ContextEnd) → Str →
    Nat × Except WrappedError Unit :=
  callPeer retry (downloadAttempt id)

/-- `delete` -/
def delete (taskId : Str) : PeerCalls (Option Status) → Option (Nat × ContextEnd) → Str →
    Nat × Except WrappedError Unit :=
  callPeer retry (deleteTask taskId)

/-- What the tasks may come to, in a context that has ended like this by then: it ended at some
moment, or the calls were over before. -/
def Tasks.Comes {γ : Type} (tasks : Tasks γ)
    (call : PeerCalls β → Option (Nat × ContextEnd) → Str → Nat × Except WrappedError Unit)
    (calls : Nat → PeerCalls β) (i : Nat) (ended : Option ContextEnd)
    (result : Except WrappedError Unit) : Prop :=
  ∃ peer, tasks.seedPeers[i]? = some peer ∧ ∃ moment : Option (Nat × ContextEnd),
    (∀ m, moment = some m → ended = some m.2) ∧ (call (calls i) moment (peerAddr peer)).2 = result

/-! ### What a task comes to -/

/-- Some attempt succeeds, and those before it are transient failures, with the context not ended. -/
def Succeeds (maxRetries : Nat) (outcomes : Nat → Except WrappedError Unit)
    (moment : Option (Nat × ContextEnd)) : Prop :=
  ∃ last ≤ maxRetries, outcomes last = .ok () ∧
    ∀ i < last, (∃ err, outcomes i = .error err ∧ Transient? err = true) ∧
      endedBy moment (i + 1) = none

/-- Retries succeed just when an attempt does that is made before the context ends. -/
theorem run_eq_ok_iff (hbackoff : backoff.Lawful) {outcomes : Nat → Except WrappedError Unit}
    {moment : Option (Nat × ContextEnd)} :
    (retry.run (endedBy moment) (counting outcomes) 0).2 = .ok () ↔
      Succeeds retry.maxRetries outcomes moment := by
  have hpos : 0 < attemptsMade retry.maxRetries outcomes moment := attempts_pos (by omega)
  have hle : attemptsMade retry.maxRetries outcomes moment ≤ 1 + retry.maxRetries := attempts_le _
  simp only [run_counting hbackoff]
  constructor
  · intro h
    refine ⟨attemptsMade retry.maxRetries outcomes moment - 1, by omega, ?_, fun i hi => ?_⟩
    · rcases houtcome : outcomes (attemptsMade retry.maxRetries outcomes moment - 1) with err | _
      · rw [houtcome] at h
        cases h
      · rfl
    · have hlt : i + 1 < attemptsMade retry.maxRetries outcomes moment := by omega
      exact retried_of_lt_attemptsMade hlt
  · rintro ⟨last, hlast, hok, hbefore⟩
    have hgoesOn : ∀ i < last, stopsAt outcomes moment i = false := by
      intro i hi
      obtain ⟨⟨err, herr, htransient⟩, hended⟩ := hbefore i hi
      rw [stopsAt_error herr, htransient, hended]
      rfl
    have hlt : last < attemptsMade retry.maxRetries outcomes moment :=
      lt_attempts_iff.mpr ⟨by omega, hgoesOn⟩
    have hmade : attemptsMade retry.maxRetries outcomes moment = last + 1 := by
      by_contra hne
      have hmore : last + 1 < attempts (stopsAt outcomes moment) (1 + retry.maxRetries) :=
        Nat.lt_of_le_of_ne hlt (Ne.symm hne)
      have hstops := (lt_attempts_iff.mp hmore).2 last (Nat.lt_succ_self last)
      rw [stopsAt, hok] at hstops
      cases hstops
    rw [hmade, Nat.add_sub_cancel, hok]
    rfl

/-- There is a client for the seed peer, and the attempts at it succeed. -/
structure Completes (maxRetries : Nat) (attempt : β → Except WrappedError Unit)
    (calls : PeerCalls β) (moment : Option (Nat × ContextEnd)) : Prop where
  dialled : calls.dial = none
  succeeds : Succeeds maxRetries (fun i => attempt (calls.answers i)) moment

theorem Completes.unended {maxRetries : Nat} {attempt : β → Except WrappedError Unit}
    {calls : PeerCalls β} {moment : Option (Nat × ContextEnd)}
    (h : Completes maxRetries attempt calls moment) : Completes maxRetries attempt calls none := by
  obtain ⟨last, hle, hok, hbefore⟩ := h.succeeds
  exact ⟨h.dialled, last, hle, hok, fun i hi => ⟨(hbefore i hi).1, rfl⟩⟩

section
variable (hbackoff : backoff.Lawful) {attempt : β → Except WrappedError Unit} {calls : PeerCalls β}
  {moment : Option (Nat × ContextEnd)} {addr : Str}
include hbackoff

theorem callPeer_eq_ok_iff : (callPeer retry attempt calls moment addr).2 = .ok () ↔
    Completes retry.maxRetries attempt calls moment := by
  unfold callPeer
  rcases hdial : calls.dial with _ | err
  · rw [run_eq_ok_iff retry hbackoff]
    exact ⟨fun h => ⟨hdial, h⟩, fun h => h.succeeds⟩
  · exact iff_of_false nofun fun h => absurd (hdial.symm.trans h.dialled) nofun

/-- **The tasks of an operation are awaited**, and each is done when its seed peer completes. -/
theorem awaits_tasks {γ : Type} (tasks : Tasks γ) (attempt : β → Except WrappedError Unit)
    (calls : Nat → PeerCalls β) :
    ErrGroup.Awaits tasks.seedPeers.length none ContextEnd.cancelled
      (tasks.Comes (callPeer retry attempt) calls)
      fun i => Completes retry.maxRetries attempt (calls i) none := by
  refine ErrGroup.awaits _ _ (by simp) ?_ ?_
  · rintro i _ ended ⟨peer, _, moment, _, hok⟩
    exact ((callPeer_eq_ok_iff retry hbackoff).mp hok).unended
  · rintro i _ result hdone ⟨peer, _, moment, hmoment, rfl⟩
    have hnone : moment = none := by
      rcases moment with _ | m
      · rfl
      · cases hmoment m rfl
    rw [hnone]
    exact (callPeer_eq_ok_iff retry hbackoff).mpr hdone

omit hbackoff in
theorem exists_comes {γ : Type} (tasks : Tasks γ)
    (call : PeerCalls β → Option (Nat × ContextEnd) → Str → Nat × Except WrappedError Unit)
    (calls : Nat → PeerCalls β) (i : Nat) (hi : i < tasks.seedPeers.length)
    (ended : Option ContextEnd) : ∃ result, tasks.Comes call calls i ended result :=
  ⟨_, _, List.getElem?_eq_getElem hi, none, nofun, rfl⟩

end

end

theorem Completes.drained {maxRetries : Nat} {id : Str} {calls : PeerCalls DownloadCall}
    {moment : Option (Nat × ContextEnd)}
    (h : Completes maxRetries (downloadAttempt id) calls moment) :
    ∃ last ≤ maxRetries, ∃ messages, calls.answers last = .streamed messages none ∧
      drain messages none = (messages, .ok ()) := by
  obtain ⟨last, hle, hok, _⟩ := h.succeeds
  change downloadAttempt id (calls.answers last) = .ok () at hok
  refine ⟨last, hle, ?_⟩
  cases hanswer : calls.answers last with
  | refused status =>
    rw [hanswer] at hok
    cases hok
  | streamed messages failure =>
    cases failure with
    | none => exact ⟨messages, rfl, drain_none messages⟩
    | some status =>
      rw [hanswer] at hok
      change (drain messages (some status)).2.mapError (downloadError id) = .ok () at hok
      rw [drain_some] at hok
      cases hok

/-- A delete that completes was answered, if only by there being no such task. -/
theorem Completes.answered {maxRetries : Nat} {taskId : Str} {calls : PeerCalls (Option Status)}
    {moment : Option (Nat × ContextEnd)}
    (h : Completes maxRetries (deleteTask taskId) calls moment) :
    ∃ last ≤ maxRetries, ∀ status, calls.answers last = some status → status.code = .notFound := by
  obtain ⟨last, hle, hok, _⟩ := h.succeeds
  change deleteTask taskId (calls.answers last) = .ok () at hok
  refine ⟨last, hle, fun status hstatus => ?_⟩
  rw [hstatus] at hok
  by_contra hcode
  change (if status.code ≠ .notFound then Except.error (deleteError taskId status) else .ok ()) =
    .ok () at hok
  rw [if_pos hcode] at hok
  cases hok

/-! ### What is selected -/

section
variable {crate : HashRingCrate} {s : SeedPeers crate} {fuel : Nat} {taskId : Str}
  {selected : List Host}

theorem selectHealthy_eq_ok {replicas : List DragonflySdk.SeedPeer}
    (h : selectHealthy replicas = .ok selected) : selected = healthyHosts replicas := by
  unfold selectHealthy at h
  simp only at h
  split at h
  · cases h
  · exact (Except.ok.inj h).symm

theorem select_eq_ok (hcrate : crate.Lawful) {n : Nat} (hn : 0 < n)
    (h : select s fuel taskId n = some (.ok selected)) :
    selected = healthyHosts (s.replicaSeedPeers taskId n) := by
  have hhosts : s.hosts.len ≠ 0 := by
    intro hzero
    rw [select, if_pos hzero] at h
    cases h
  exact selectHealthy_eq_ok (selects_go.eq_finish hcrate hn hhosts h).symm

theorem length_select_zero_le (h : select s fuel taskId 0 = some (.ok selected)) :
    selected.length ≤ (crate.vnodes s.hashring taskId 0).length := by
  unfold select at h
  by_cases hhosts : s.hosts.len = 0
  · rw [if_pos hhosts] at h
    cases h
  · rw [if_neg hhosts, Nat.zero_min] at h
    obtain ⟨found, hfound, hselected⟩ := Option.map_eq_some_iff.mp h
    obtain ⟨hfound, _⟩ := windowLoop_zero_iff.mp ⟨fuel, hfound⟩
    rw [selectHealthy_eq_ok hselected, healthyHosts, List.length_map, hfound]
    calc _ ≤ ((crate.vnodes s.hashring taskId 0).eraseDups.filterMap s.hosts.get).length :=
          List.length_filter_le _ _
      _ ≤ (crate.vnodes s.hashring taskId 0).eraseDups.length := List.length_filterMap_le _ _
      _ ≤ (crate.vnodes s.hashring taskId 0).length := length_eraseDups_le _

theorem nodup_names_replicas (s : SeedPeers crate) (taskId : Str) (n : Nat) :
    ((s.replicaSeedPeers taskId n).map fun seedPeer => seedPeer.host.name).Nodup := by
  unfold SeedPeers.replicaSeedPeers
  rw [List.map_take, SeedPeers.map_name_filterMap_get]
  exact ((nodup_eraseDups _).filter _).sublist (List.take_sublist _ _)

/-- All healthy seed peers are selected, each once. -/
structure SelectsAll (s : SeedPeers crate) (selected : List Host) : Prop where
  mem_iff : ∀ host, host ∈ selected ↔
    ∃ seedPeer, s.hosts.get host.name = some seedPeer ∧ seedPeer.healthy = true ∧
      seedPeer.host = host
  nodup : (selected.map Host.name).Nodup

theorem selectAll_eq_ok {names : List Str} (hnames : s.hosts.Yields names)
    (h : selectAll s names = .ok selected) : SelectsAll s selected := by
  have hselected : selected = ((names.filterMap s.hosts.get).filter (·.healthy)).map (·.host) := by
    unfold selectAll at h
    simp only at h
    split at h
    · cases h
    · exact (Except.ok.inj h).symm
  rw [hselected]
  constructor
  · intro host
    simp only [List.mem_map, List.mem_filter, List.mem_filterMap]
    constructor
    · rintro ⟨seedPeer, ⟨⟨name, hname, hget⟩, hhealthy⟩, rfl⟩
      exact ⟨seedPeer, (Hosts.name_of_get hget).symm ▸ hget, hhealthy, rfl⟩
    · rintro ⟨seedPeer, hget, hhealthy, rfl⟩
      refine ⟨seedPeer, ⟨⟨seedPeer.host.name, ?_, hget⟩, hhealthy⟩, rfl⟩
      rw [hnames.mem_iff, ← Hosts.get_isSome_iff, hget]
      rfl
  · rw [List.map_map]
    have hall : ((names.filterMap s.hosts.get).map fun seedPeer => seedPeer.host.name).Nodup := by
      rw [SeedPeers.map_name_filterMap_get]
      exact hnames.nodup.filter _
    exact hall.sublist (List.filter_sublist.map _)

end

/-! ### A preheat and a delete -/

section
variable {modules : Modules} {p : Proxy modules} {fuel : Nat} {names : List Str} {ipv4 : Str}

theorem TaskParams.validate_eq_ok {r : TaskParams} (h : r.validate = .ok ()) :
    0 < r.replicas ∧ (r.scope = .default ∨ r.scope = .allSeedPeers) := by
  unfold TaskParams.validate at h
  split at h
  · cases h
  · rename_i hpos
    refine ⟨by omega, ?_⟩
    cases hscope : r.scope with
    | default => exact .inl rfl
    | allSeedPeers => exact .inr rfl
    | other scope =>
      rw [hscope] at h
      cases h

theorem preheatTasks_eq_ok {req : PreheatRequest} {tasks : Tasks Download}
    (h : p.preheatTasks fuel names ipv4 req = some (.ok tasks)) :
    req.validate = .ok () ∧ Proxy.idOf modules req.url req.toTaskParams = .ok tasks.id ∧
      tasks.request = downloadTaskRequest ipv4 req ∧
      p.selectSeedPeers fuel names tasks.id req.scope req.replicas = some (.ok tasks.seedPeers) ∧
      (req.scope = .default → req.replicas ≤ tasks.seedPeers.length) := by
  unfold Proxy.preheatTasks at h
  split at h
  · cases h
  · rename_i id hid
    obtain ⟨_, hvalid, hid⟩ := bind_eq_ok_iff.mp hid
    obtain ⟨selected, hselected, h⟩ := Option.map_eq_some_iff.mp h
    rcases selected with err | seedPeers
    · cases h
    · simp only at h
      split at h
      · cases h
      · rename_i henough
        obtain rfl := Except.ok.inj h
        refine ⟨hvalid, hid, rfl, hselected, fun hscope => ?_⟩
        have hlen := fun hlt => henough ⟨hscope, hlt⟩
        exact Int.not_lt.mp hlen

theorem deleteTasks_eq_ok {req : DeleteRequest} {tasks : Tasks DeleteTaskRequest}
    (h : p.deleteTasks fuel names ipv4 req = some (.ok tasks)) :
    req.validate = .ok () ∧ Proxy.idOf modules req.url req.toTaskParams = .ok tasks.id ∧
      tasks.request = ⟨tasks.id, ipv4⟩ ∧
      p.selectSeedPeers fuel names tasks.id req.scope req.replicas =
        some (.ok tasks.seedPeers) := by
  unfold Proxy.deleteTasks at h
  split at h
  · cases h
  · rename_i id hid
    obtain ⟨_, hvalid, hid⟩ := bind_eq_ok_iff.mp hid
    obtain ⟨selected, hselected, h⟩ := Option.map_eq_some_iff.mp h
    rcases selected with err | seedPeers
    · cases h
    · obtain rfl := Except.ok.inj (Option.some.inj (congrArg some h))
      exact ⟨hvalid, hid, rfl, hselected⟩

/-- The seed peers a preheat calls: as many as replicas, the first clockwise from the task and all of
them healthy, or all that are healthy. -/
structure PreheatSelects (p : Proxy modules) (req : PreheatRequest) (tasks : Tasks Download) :
    Prop where
  id_eq : Proxy.idOf modules req.url req.toTaskParams = .ok tasks.id
  replicas : req.scope = .default → req.replicas = tasks.seedPeers.length ∧
    req.replicas < 2 ^ 32 ∧
    tasks.seedPeers = (p.seedPeerSelector.seedPeers.replicaSeedPeers tasks.id
      req.replicas.toNat).map DragonflySdk.SeedPeer.host ∧
    ∀ seedPeer ∈ p.seedPeerSelector.seedPeers.replicaSeedPeers tasks.id req.replicas.toNat,
      seedPeer.healthy = true
  all : req.scope ≠ .default → SelectsAll p.seedPeerSelector.seedPeers tasks.seedPeers
  nodup : (tasks.seedPeers.map Host.name).Nodup

theorem preheatSelects (hring : modules.ring.Lawful) (hnext : modules.ring.AtMostNext)
    (hnames : p.seedPeerSelector.seedPeers.hosts.Yields names) {req : PreheatRequest}
    {tasks : Tasks Download} (h : p.preheatTasks fuel names ipv4 req = some (.ok tasks)) :
    PreheatSelects p req tasks := by
  obtain ⟨hvalid, hid, _, hselected, henough⟩ := preheatTasks_eq_ok h
  obtain ⟨hpos, hscope⟩ := TaskParams.validate_eq_ok hvalid
  unfold Proxy.selectSeedPeers at hselected
  rcases hscope with hscope | hscope
  · rw [hscope, if_neg (by simp)] at hselected
    have hle := henough hscope
    have hlt : req.replicas < 2 ^ 32 := by
      by_contra hge
      by_cases hzero : uint32Of req.replicas = 0
      · -- cut to 32 bits, no replicas are left: at most one vnode is looked at
        rw [hzero] at hselected
        have hone := length_select_zero_le hselected
        have hvnodes := hnext p.seedPeerSelector.seedPeers.hashring tasks.id 0
        omega
      · have heq := select_eq_ok hring (Nat.pos_of_ne_zero hzero) hselected
        have hshort : tasks.seedPeers.length ≤ uint32Of req.replicas := by
          rw [heq, healthyHosts, List.length_map]
          exact (List.length_filter_le _ _).trans (SeedPeers.length_replicaSeedPeers_le _ _ _)
        unfold uint32Of at hshort
        omega
    have huint : uint32Of req.replicas = req.replicas.toNat := by
      unfold uint32Of
      omega
    rw [huint] at hselected
    have heq := select_eq_ok hring (by omega) hselected
    have hreplicas := SeedPeers.length_replicaSeedPeers_le p.seedPeerSelector.seedPeers tasks.id
      req.replicas.toNat
    have hlength : (p.seedPeerSelector.seedPeers.replicaSeedPeers tasks.id
        req.replicas.toNat).length ≤ (healthyHosts (p.seedPeerSelector.seedPeers.replicaSeedPeers
          tasks.id req.replicas.toNat)).length := by
      rw [← heq]
      omega
    obtain ⟨hhealthy, hmap⟩ := healthyHosts_eq_map hlength
    rw [hmap] at heq
    have hcount := congrArg List.length heq
    rw [List.length_map] at hcount
    refine ⟨hid, fun _ => ⟨by omega, hlt, heq, hhealthy⟩, fun hne => absurd hscope hne, ?_⟩
    rw [heq, List.map_map]
    exact nodup_names_replicas _ _ _
  · rw [hscope, if_pos rfl] at hselected
    have hall := selectAll_eq_ok hnames (Option.some.inj hselected)
    refine ⟨hid, fun hdefault => ?_, fun _ => hall, hall.nodup⟩
    rw [hscope] at hdefault
    cases hdefault

/-- The seed peers a delete calls: the healthy ones of as many replicas as are asked for in 32 bits,
or all that are healthy. -/
structure DeleteSelects (p : Proxy modules) (req : DeleteRequest)
    (tasks : Tasks DeleteTaskRequest) : Prop where
  id_eq : Proxy.idOf modules req.url req.toTaskParams = .ok tasks.id
  replicas : req.scope = .default → 0 < uint32Of req.replicas → tasks.seedPeers =
    healthyHosts (p.seedPeerSelector.seedPeers.replicaSeedPeers tasks.id (uint32Of req.replicas))
  zero : req.scope = .default → uint32Of req.replicas = 0 → tasks.seedPeers.length ≤ 1
  all : req.scope ≠ .default → SelectsAll p.seedPeerSelector.seedPeers tasks.seedPeers

theorem deleteSelects (hring : modules.ring.Lawful) (hnext : modules.ring.AtMostNext)
    (hnames : p.seedPeerSelector.seedPeers.hosts.Yields names) {req : DeleteRequest}
    {tasks : Tasks DeleteTaskRequest}
    (h : p.deleteTasks fuel names ipv4 req = some (.ok tasks)) : DeleteSelects p req tasks := by
  obtain ⟨hvalid, hid, _, hselected⟩ := deleteTasks_eq_ok h
  obtain ⟨_, hscope⟩ := TaskParams.validate_eq_ok hvalid
  unfold Proxy.selectSeedPeers at hselected
  rcases hscope with hscope | hscope
  · rw [hscope, if_neg (by simp)] at hselected
    refine ⟨hid, fun _ hpos => select_eq_ok hring hpos hselected, fun _ hzero => ?_,
      fun hne => absurd hscope hne⟩
    rw [hzero] at hselected
    exact (length_select_zero_le hselected).trans
      (hnext p.seedPeerSelector.seedPeers.hashring tasks.id 0)
  · rw [hscope, if_pos rfl] at hselected
    have hall := selectAll_eq_ok hnames (Option.some.inj hselected)
    refine ⟨hid, fun hdefault => ?_, fun hdefault => ?_, fun _ => hall⟩ <;>
    · rw [hscope] at hdefault
      cases hdefault

/-- **A preheat lands on as many healthy seed peers as replicas, and awaits all of them**: whatever
the order in which the tasks get on, and whenever the context of the caller ends. -/
theorem preheat_lands {modules : Modules} (hring : modules.ring.Lawful)
    (hnext : modules.ring.AtMostNext) {backoff : ContextBackoff} (hbackoff : backoff.Lawful)
    (p : Proxy modules) (b : Option backoff.ExponentialBackOff) (fuel : Nat) (names : List Str)
    (hnames : p.seedPeerSelector.seedPeers.hosts.Yields names) (ipv4 : Str) (req : PreheatRequest)
    (tasks : Tasks Download) (htasks : p.preheatTasks fuel names ipv4 req = some (.ok tasks))
    (calls : Nat → PeerCalls DownloadCall) :
    let retry : ContextRetryPolicy backoff := ⟨p.retry.maxRetries, b⟩
    PreheatSelects p req tasks ∧
      ErrGroup.Awaits tasks.seedPeers.length none ContextEnd.cancelled
        (tasks.Comes (download retry tasks.id) calls)
        (fun i => Completes p.retry.maxRetries (downloadAttempt tasks.id) (calls i) none) ∧
      (∀ i < tasks.seedPeers.length, ∀ ended, ∃ result,
        tasks.Comes (download retry tasks.id) calls i ended result) ∧
      (∀ i moment addr, (download retry tasks.id (calls i) moment addr).2 = .ok () ↔
        Completes p.retry.maxRetries (downloadAttempt tasks.id) (calls i) moment) ∧
      ∀ i, Completes p.retry.maxRetries (downloadAttempt tasks.id) (calls i) none →
        ∃ last ≤ p.retry.maxRetries, ∃ messages,
          (calls i).answers last = .streamed messages none ∧
            drain messages none = (messages, .ok ()) := by
  intro retry
  exact ⟨preheatSelects hring hnext hnames htasks,
    awaits_tasks retry hbackoff tasks (downloadAttempt tasks.id) calls, exists_comes tasks _ calls,
    fun i moment addr => callPeer_eq_ok_iff retry hbackoff, fun i hcompletes => hcompletes.drained⟩

/-- **A delete leaves none of the seed peers it calls with the task**, and awaits all of them. -/
theorem delete_leaves {modules : Modules} (hring : modules.ring.Lawful)
    (hnext : modules.ring.AtMostNext) {backoff : ContextBackoff} (hbackoff : backoff.Lawful)
    (p : Proxy modules) (b : Option backoff.ExponentialBackOff) (fuel : Nat) (names : List Str)
    (hnames : p.seedPeerSelector.seedPeers.hosts.Yields names) (ipv4 : Str) (req : DeleteRequest)
    (tasks : Tasks DeleteTaskRequest)
    (htasks : p.deleteTasks fuel names ipv4 req = some (.ok tasks))
    (calls : Nat → PeerCalls (Option Status)) :
    let retry : ContextRetryPolicy backoff := ⟨p.retry.maxRetries, b⟩
    DeleteSelects p req tasks ∧
      ErrGroup.Awaits tasks.seedPeers.length none ContextEnd.cancelled
        (tasks.Comes (delete retry tasks.id) calls)
        (fun i => Completes p.retry.maxRetries (deleteTask tasks.id) (calls i) none) ∧
      (∀ i < tasks.seedPeers.length, ∀ ended, ∃ result,
        tasks.Comes (delete retry tasks.id) calls i ended result) ∧
      (∀ i moment addr, (delete retry tasks.id (calls i) moment addr).2 = .ok () ↔
        Completes p.retry.maxRetries (deleteTask tasks.id) (calls i) moment) ∧
      ∀ i, Completes p.retry.maxRetries (deleteTask tasks.id) (calls i) none →
        ∃ last ≤ p.retry.maxRetries, ∀ status, (calls i).answers last = some status →
          status.code = .notFound := by
  intro retry
  exact ⟨deleteSelects hring hnext hnames htasks,
    awaits_tasks retry hbackoff tasks (deleteTask tasks.id) calls, exists_comes tasks _ calls,
    fun i moment addr => callPeer_eq_ok_iff retry hbackoff, fun i hcompletes => hcompletes.answered⟩

end

/-! ### Two seed peers -/

def exampleParams : TaskParams where
  pieceLength := none
  tag := []
  application := []
  filteredQueryParams := []
  contentForCalculatingTaskId := []
  enableTaskIdBasedBlobDigest := true
  replicas := 2
  scope := .default
  timeout := 600

def examplePreheat : PreheatRequest :=
  { exampleParams with url := "https://example.com/file".toList, header := [], priority := none }

def exampleDelete : DeleteRequest := { exampleParams with url := "https://example.com/file".toList }

def exampleAddr : Str := "127.0.0.1".toList

/-- The hosts of the two seed peers, in the order of the ring. -/
def exampleSelected : List Host :=
  [exampleHost "seed-peer-1".toList, exampleHost "seed-peer-2".toList]

theorem yields_twoProxy : twoProxy.seedPeerSelector.seedPeers.hosts.Yields exampleNames := by
  have hhosts : twoProxy.seedPeerSelector.seedPeers.hosts =
      DragonflySdk.hostsOf DragonflySdk.exampleSeedPeers :=
    exampleRust_hosts.symm.trans (SeedPeers.update_hosts _ _ _)
  rw [hhosts]
  exact yields_example

/-- At two seed peers, the first of which fails once. -/
theorem preheat_lands_two :
    PreheatSelects twoProxy examplePreheat
        ⟨examplePreheat.url, downloadTaskRequest exampleAddr examplePreheat, exampleSelected⟩ ∧
      ErrGroup.Awaits 2 none ContextEnd.cancelled
        (Tasks.Comes ⟨examplePreheat.url, downloadTaskRequest exampleAddr examplePreheat,
            exampleSelected⟩
          (download (exampleContextPolicy 1) examplePreheat.url) fun _ =>
            ⟨none, fun i => if i = 0 then .refused ⟨.unavailable, [], []⟩ else .streamed 2 none⟩)
        fun _ => Completes 1 (downloadAttempt examplePreheat.url)
          ⟨none, fun i => if i = 0 then .refused ⟨.unavailable, [], []⟩ else .streamed 2 none⟩
          none := by
  have hlands := preheat_lands nameRing.lawful nameRing.atMostNext exampleContextBackoff_lawful
    twoProxy none 3 exampleNames yields_twoProxy exampleAddr examplePreheat
    ⟨examplePreheat.url, downloadTaskRequest exampleAddr examplePreheat, exampleSelected⟩ rfl
    fun _ => ⟨none, fun i => if i = 0 then .refused ⟨.unavailable, [], []⟩ else .streamed 2 none⟩
  exact ⟨hlands.1, hlands.2.1⟩

/-- At two seed peers that do not have the task. -/
theorem delete_leaves_two :
    DeleteSelects twoProxy exampleDelete
        ⟨exampleDelete.url, ⟨exampleDelete.url, exampleAddr⟩, exampleSelected⟩ ∧
      ErrGroup.Awaits 2 none ContextEnd.cancelled
        (Tasks.Comes ⟨exampleDelete.url, (⟨exampleDelete.url, exampleAddr⟩ : DeleteTaskRequest),
            exampleSelected⟩
          (delete (exampleContextPolicy 1) exampleDelete.url) fun _ =>
            ⟨none, fun _ => some ⟨.notFound, [], []⟩⟩)
        fun _ => Completes 1 (deleteTask exampleDelete.url)
          ⟨none, fun _ => some ⟨.notFound, [], []⟩⟩ none := by
  have hleaves := delete_leaves nameRing.lawful nameRing.atMostNext exampleContextBackoff_lawful
    twoProxy none 3 exampleNames yields_twoProxy exampleAddr exampleDelete
    ⟨exampleDelete.url, ⟨exampleDelete.url, exampleAddr⟩, exampleSelected⟩ rfl
    fun _ => ⟨none, fun _ => some ⟨.notFound, [], []⟩⟩
  exact ⟨hleaves.1, hleaves.2.1⟩

end DragonflySdk.Go
