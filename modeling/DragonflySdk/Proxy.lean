import DragonflySdk.Proxy.TaskId
import DragonflySdk.Retry
import DragonflySdk.Selector

/-!
# The proxy

`Proxy` of `lib.rs`: how a preheat picks the seed peers it has download a task, and how a request
looks up the proxy endpoints of the seed peers that serve one.

Both choose the task's replicas with `select`, which counts them in 32 bits. A preheat fails unless
as many are available as it asks for; a lookup takes those that are, and skips the ejected ones.
-/

namespace DragonflySdk

open Foundation

/-- A protobuf duration. -/
structure ProtoDuration where
  seconds : Int
  nanos : Int
deriving DecidableEq, Repr

/-- The third-party code of the proxy. -/
structure ProxyCrates where
  id : IdCrates
  ring : HashRingCrate
  backon : BackonCrate
  /-- `prost_wkt_types::Duration::try_from` -/
  durationTryFrom : Duration → Except Str ProtoDuration

/-- The `Download` a seed peer is asked for, of the standard type and always scheduled. -/
structure Download where
  url : Str
  tag : Option Str
  application : Option Str
  priority : Int
  filteredQueryParams : List Str
  requestHeader : List (Str × Str)
  pieceLength : Option Nat
  timeout : ProtoDuration
  contentForCalculatingTaskId : Option Str
  remoteIp : Option IpAddr
  enableTaskIdBasedBlobDigest : Bool

/-- `Priority::Level6` -/
def priorityLevel6 : Int := 6

/-- The download task request for preheating. -/
def downloadTaskRequest (crates : ProxyCrates) (preferredLocalIp : Option IpAddr)
    (request : PreheatRequest) : Except Error Download :=
  match crates.durationTryFrom request.timeout with
  | .error err => .error (.invalidArgument ("invalid request timeout: ".toList ++ err))
  | .ok timeout => .ok
    { url := request.url
      tag := request.tag
      application := request.application
      priority := request.priority.getD priorityLevel6
      filteredQueryParams := request.filteredQueryParams
      requestHeader := headermapToHashmap request.header
      pieceLength := request.pieceLength
      timeout := timeout
      contentForCalculatingTaskId := request.contentForCalculatingTaskId
      remoteIp := preferredLocalIp
      enableTaskIdBasedBlobDigest := request.enableTaskIdBasedBlobDigest }

/-- The order in which a number of tasks finish. -/
structure FinishOrder where
  order : (tasks : Nat) → List Nat
  perm : ∀ tasks, (order tasks).Perm (List.range tasks)

/-- Waits for the tasks as they finish, up to the first that failed. -/
def joinAll (finish : FinishOrder) (results : List (Except Error Unit)) : Except Error Unit :=
  forM (finish.order results.length) fun i => results.getD i (.ok ())

structure Proxy (crates : ProxyCrates) where
  seedPeerSelector : SeedPeerSelector crates.ring
  retry : RetryPolicy crates.backon

namespace Proxy

variable {crates : ProxyCrates} (proxy : Proxy crates)

/-- `replicas as u32` -/
def replicasOf (replicas : Nat) : Nat := replicas % 2 ^ 32

/-- Selects the seed peers the scope addresses for the task; `names` is what the keys of the hosts
yield. -/
def selectSeedPeers (fuel : Nat) (names : List Str) (taskId : Str) (scope : Scope)
    (replicas : Nat) : Option (Except Error (List Host)) :=
  match scope with
  | .default => proxy.seedPeerSelector.seedPeers.select fuel taskId (replicasOf replicas)
  | .allSeedPeers => some (proxy.seedPeerSelector.seedPeers.selectAll names)

/-- What a preheat makes of the selection: too few replicas are as bad as none. -/
def checkSelected (request : PreheatRequest) (selected : Except Error (List Host)) :
    Except Error (List Host) :=
  match selected with
  | .error err => .error (.internalOf "failed to select seed peers: ".toList err)
  | .ok seedPeers =>
    if request.scope = .default ∧ seedPeers.length < request.replicas then
      .error (.internal ("insufficient seed peers for ".toList ++ request.replicas.repr.toList ++
        " replicas, ".toList ++ seedPeers.length.repr.toList ++ " available".toList))
    else .ok seedPeers

/-- The address of a seed peer's download service. -/
def peerAddr (peer : Host) : Except Error Str :=
  match IpAddr.parse peer.ip with
  | some ip => .ok (formatUrl "http".toList ip (portOf peer.port))
  | none => .error (.internal IpAddr.parseError)

/-- Has every seed peer download the task, each with retries of its own; `download i addr` is what
the attempts at the `i`-th of them come to. The tasks do not panic. -/
def downloadAll (download : Nat → Str → Download → Nat → Except Error Unit) (finish : FinishOrder)
    (request : Download) (seedPeers : List Host) : Except Error (List Host) := do
  let addrs ← seedPeers.mapM peerAddr
  let results := addrs.mapIdx fun i addr =>
    (proxy.retry.run (RetryPolicy.counting (download i addr request)) 0).2
  joinAll finish results
  return ((seedPeers.zip results).filter fun (_, result) => result.isOk).map Prod.fst

/-- Preheats a file; the result names the seed peers that have downloaded it. -/
def preheat (fuel : Nat) (names : List Str) (preferredLocalIp : Option IpAddr)
    (download : Nat → Str → Download → Nat → Except Error Unit) (finish : FinishOrder)
    (request : PreheatRequest) : Option (Except Error (List Host)) :=
  match (do request.validate; DragonflySdk.taskId crates.id request.toTaskFields) with
  | .error err => some (.error err)
  | .ok taskId =>
    (proxy.selectSeedPeers fuel names taskId request.scope request.replicas).map fun selected => do
      let seedPeers ← checkSelected request selected
      let downloadRequest ← downloadTaskRequest crates preferredLocalIp request
      proxy.downloadAll download finish downloadRequest seedPeers

/-- The same proxy after some events at its selector. -/
def after (events : List SelectorEvent) : Proxy crates :=
  { proxy with seedPeerSelector := proxy.seedPeerSelector.run events }

/-- The endpoints of the seed peers that are not ejected. -/
def liveEndpoints (now : Nat) (taskId : Str) (seedPeers : List Host) : Except Error (List Str) := do
  let endpoints ← seedPeers.mapM proxyEndpoint
  let endpoints := endpoints.filter fun endpoint =>
    !proxy.seedPeerSelector.ejections.isEjected now endpoint
  if endpoints = [] then
    .error (.internal ("seed peers of task ".toList ++ taskId ++ " are all ejected".toList))
  else .ok endpoints

/-- Looks up the proxy endpoints of the seed peers serving the request, skipping the ejected ones. -/
def lookupProxyEndpoints (fuel now : Nat) (request : GetRequest) :
    Option (Except Error (List Str)) :=
  match DragonflySdk.taskId crates.id request.toTaskFields with
  | .error err => some (.error err)
  | .ok taskId =>
    (proxy.seedPeerSelector.seedPeers.select fuel taskId (replicasOf request.replicas)).map
      fun selected => do
        let seedPeers ← selected.mapError (.internalOf "failed to select seed peers: ".toList)
        proxy.liveEndpoints now taskId seedPeers

end Proxy

end DragonflySdk
