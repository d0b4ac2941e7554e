import DragonflySdk.Request.Go
import DragonflySdk.Retry.Go
import DragonflySdk.Selector.Go

/-!
# The proxy in Go

`proxy.go`, as far as it looks up the endpoints for a request. The task id is that of the module
`idgen`.
-/

namespace DragonflySdk.Go

open Foundation

/-- The third-party code of the proxy. -/
structure Modules where
  ring : HashRingCrate
  backoff : BackoffModule
  /-- `idgen.TaskIDV2(url, pieceLength, tag, application, filteredQueryParams, content, enabled)` -/
  taskIdV2 : Str → Option Nat → Str → Str → List Str → Str → Bool → Except Str Str

structure Proxy (modules : Modules) where
  retry : RetryPolicy modules.backoff
  seedPeerSelector : SeedPeerSelector modules.ring

/-- `net.JoinHostPort` -/
def joinHostPort (host port : Str) : Str :=
  if ':' ∈ host then "[".toList ++ host ++ "]:".toList ++ port else host ++ ":".toList ++ port

/-- The endpoint of the proxy of the seed peer. -/
def proxyEndpoint (host : Host) : Str :=
  "http://".toList ++ joinHostPort host.ip (toString host.proxyPort).toList

/-- `uint32(n)` -/
def uint32Of (n : Int) : Nat := (n % 2 ^ 32).toNat

namespace Proxy

variable {modules : Modules} (p : Proxy modules)

/-- The task id of the request. -/
def taskId (modules : Modules) (req : GetRequest) : Except Error Str :=
  (modules.taskIdV2 req.url req.pieceLength req.tag req.application req.filteredQueryParams
    req.contentForCalculatingTaskId req.enableTaskIdBasedBlobDigest).mapError fun err =>
      .internal ⟨"%w: failed to generate task id: %v".toList, [err]⟩

/-- The endpoints of the seed peers that are not ejected. -/
def liveEndpoints (now : Nat) (taskId : Str) (seedPeers : List Host) : Except Error (List Str) :=
  let endpoints := (seedPeers.map proxyEndpoint).filter fun endpoint =>
    !isEjected p.seedPeerSelector.ejections now endpoint
  if endpoints.length = 0 then
    .error (.internal ⟨"%w: seed peers of task %s are all ejected".toList, [taskId]⟩)
  else .ok endpoints

/-- Looks up the proxy endpoints of the seed peers serving the request. -/
def lookupProxyEndpoints (fuel now : Nat) (req : GetRequest) : Option (Except Error (List Str)) :=
  match Proxy.taskId modules req with
  | .error err => some (.error err)
  | .ok taskId =>
    (select p.seedPeerSelector.seedPeers fuel taskId (uint32Of req.replicas)).map fun selected =>
      match selected with
      | .error err => .error (.internal ⟨"%w: failed to select seed peers: %v".toList, [err]⟩)
      | .ok seedPeers => p.liveEndpoints now taskId seedPeers

end Proxy

end DragonflySdk.Go
