import DragonflySdk.Foundation.Except
import DragonflySdk.Foundation.TaskSet
import DragonflySdk.Proxy.Download
import DragonflySdk.Proxy.PreheatImage
import DragonflySdk.Response

/-!
# Preheating and deleting an image

`Proxy::preheat_image` and `Proxy::delete_image` of `lib.rs`: both pull the manifest of the image,
and have a task for the manifest and for each of its distinct blobs, as many at once as
`concurrent_task_count` says. The tasks are those of a `JoinSet`, with permits of a `Semaphore`
(`TaskSet`).

Every target is covered within the limit, in whatever order the tasks get on; but `Semaphore::new`
panics for more permits than `Semaphore::MAX_PERMITS`, and no `validate` keeps a request from asking
for more (`image_covers_targets_iff`). The semaphore is never closed.
-/

namespace DragonflySdk

open Foundation

/-! ### The image -/

inductive RegistryAuth
  | anonymous
  | basic (username password : Str)

/-- What is called of `oci_client`. -/
structure OciCrate where
  /-- `str::parse`, to a `Reference` -/
  parseReference : Str → Except Str Reference
  /-- `Client::pull_image_manifest`: the manifest, of the platform if the image has several, and its
  digest. The platform is an os and an arch; without it, it is the current one. -/
  pullImageManifest : Option (Str × Str) → Reference → RegistryAuth →
    Except Str (OciImageManifest × Str)
  /-- `Client::auth`, for a pull -/
  auth : Reference → RegistryAuth → Except Str (Option Str)
  /-- `MIME_TYPES_DISTRIBUTION_MANIFEST` -/
  manifestTypes : List Str

/-- The platform of the `oci_client`. -/
def ociPlatform : Option Str → Except Error (Option (Str × Str))
  | none => .ok none
  | some platform =>
    match splitOnce '/' platform with
    | some (os, arch) => .ok (some (os, arch))
    | none => .error (.invalidArgument ("invalid platform format '".toList ++ platform ++
        "', expected 'os/arch' (e.g., 'linux/amd64')".toList))

/-- "Create registry authentication." -/
def registryAuth : (username password : Option Str) → RegistryAuth
  | some username, some password => .basic username password
  | _, _ => .anonymous

/-- A manifest that was pulled. -/
structure PulledImage where
  reference : Reference
  manifest : OciImageManifest
  manifestDigest : Str

namespace OciCrate
variable (oci : OciCrate)

/-- "Parse image reference", and "Pull image manifest". -/
def pullImage (platform : Option Str) (image : Str) (auth : RegistryAuth) :
    Except Error PulledImage := do
  let platform ← ociPlatform platform
  match oci.parseReference image with
  | .error err => .error (.invalidArgument ("invalid image reference: ".toList ++ err))
  | .ok reference =>
    match oci.pullImageManifest platform reference auth with
    | .error err => .error (.internal ("failed to pull image manifest: ".toList ++ err))
    | .ok (manifest, manifestDigest) => .ok ⟨reference, manifest, manifestDigest⟩

/-- "Authenticate with the registry and get a bearer token if available." -/
def token (reference : Reference) (auth : RegistryAuth) : Except Error Str :=
  match oci.auth reference auth with
  | .error err => .error (.internal ("failed to authenticate with registry: ".toList ++ err))
  | .ok none => .error (.internal "registry did not return authentication token".toList)
  | .ok (some token) => .ok token

end OciCrate

/-- A header with a value that is parsed; `what` names it in the error. -/
def insertValue (crate : HttpCrate) (name what value : Str) (header : HeaderMap) :
    Except Error HeaderMap :=
  match crate.parseValue value with
  | .error err => .error (.internal ("invalid ".toList ++ what ++ ": ".toList ++ err))
  | .ok value => .ok (HeaderMap.insert header name value)

/-! ### The targets -/

def PulledImage.urls (image : PulledImage) : List Str :=
  buildManifestUrl (resolveRegistry image.reference) image.reference.repository.toStr
      image.manifestDigest ::
    (blobDigests image.manifest).map
      (buildBlobUrl (resolveRegistry image.reference) image.reference.repository.toStr)

/-- The requests of `preheat_image`, of each target. -/
def PreheatImageRequest.targets (oci : OciCrate) (crate : HttpCrate)
    (request : PreheatImageRequest) : Except Error (List PreheatRequest) := do
  request.validate
  let auth := registryAuth request.username request.password
  let image ← oci.pullImage request.platform request.image auth
  let token ← oci.token image.reference auth
  let header ← insertValue crate "authorization".toList "auth token".toList
    ("Bearer ".toList ++ token) []
  let manifestHeader ← insertValue crate "accept".toList "accept header".toList
    (",".toList.intercalate oci.manifestTypes) header
  return request.preheatRequests image.reference image.manifestDigest image.manifest manifestHeader
    header

namespace DeleteImageRequest

/-- The request a target is deleted with. -/
def deleteRequest (request : DeleteImageRequest) (url : Str) : DeleteRequest where
  url
  pieceLength := request.pieceLength
  tag := request.tag
  application := request.application
  filteredQueryParams := request.filteredQueryParams
  contentForCalculatingTaskId := request.contentForCalculatingTaskId
  enableTaskIdBasedBlobDigest := request.enableTaskIdBasedBlobDigest
  replicas := request.replicas
  scope := request.scope
  timeout := request.timeout

/-- The requests of `delete_image`, of each target. -/
def targets (oci : OciCrate) (request : DeleteImageRequest) :
    Except Error (List DeleteRequest) := do
  request.validate
  let image ← oci.pullImage request.platform request.image
    (registryAuth request.username request.password)
  return image.urls.map request.deleteRequest

end DeleteImageRequest

/-! ### The tasks -/

/-- Where an operation starts with its targets, or ends without. -/
def startTasks {ρ : Type} (maxPermits limit : Nat) :
    Except Error (List ρ) → TaskSet.State ρ Error
  | .error err => ⟨.returned (.error err), [], 0⟩
  | .ok requests => .start maxPermits limit requests

/-- `preheat_image`, at its start. -/
def preheatImage (oci : OciCrate) (crate : HttpCrate) (maxPermits : Nat)
    (request : PreheatImageRequest) : TaskSet.State PreheatRequest Error :=
  startTasks maxPermits request.concurrentTaskCount (request.targets oci crate)

/-- `delete_image`, at its start. -/
def deleteImage (oci : OciCrate) (maxPermits : Nat) (request : DeleteImageRequest) :
    TaskSet.State DeleteRequest Error :=
  startTasks maxPermits request.concurrentTaskCount (request.targets oci)

section ends
variable {crates : ProxyCrates} (proxy : Proxy crates) (decode : List UInt8 → Option Backend)

/-- What `Proxy::preheat` may come to for a request. -/
def Proxy.PreheatEnds (request : PreheatRequest) (result : Except Error Unit) : Prop :=
  ∃ (fuel : Nat) (names : List Str) (preferredLocalIp : Option IpAddr)
    (attempts : Nat → Nat → DownloadAttempt) (finish : FinishOrder)
    (preheated : Except Error (List Host)),
    proxy.seedPeerSelector.seedPeers.hosts.Yields names ∧
    proxy.preheat fuel names preferredLocalIp
      (fun i addr _ made => downloadTask decode addr (attempts i made)) finish request =
        some preheated ∧
    result = preheated.map fun _ => ()

/-- What `Proxy::delete` may come to for a request. -/
def Proxy.DeleteEnds (request : DeleteRequest) (result : Except Error Unit) : Prop :=
  ∃ (fuel : Nat) (names : List Str) (preferredLocalIp : Option IpAddr)
    (attempts : Nat → Nat → DeleteAttempt) (finish : FinishOrder),
    proxy.seedPeerSelector.seedPeers.hosts.Yields names ∧
    proxy.delete fuel names preferredLocalIp
      (fun i addr _ made => deleteTask decode addr (attempts i made)) finish request = some result

variable (selectors : Nat → SeedPeerSelector crates.ring) (panics : Nat → Option Str)

/-- The proxy as the task of a target finds it: the selector may have changed since the start. -/
def Proxy.at (i : Nat) : Proxy crates := { proxy with seedPeerSelector := selectors i }

/-- What joining the task of a target comes to: it has panicked, with what its join error says, or
its operation has ended. -/
def TaskComes {ρ : Type} (Ends : Nat → ρ → Except Error Unit → Prop) (i : Nat) (request : ρ)
    (result : Except Error Unit) : Prop :=
  match panics i with
  | some message => result = .error (.internal message)
  | none => Ends i request result

/-- `proxy.preheat(&preheat_request)`, of each target. -/
def Proxy.Preheating : Nat → PreheatRequest → Except Error Unit → Prop :=
  TaskComes panics fun i => (proxy.at selectors i).PreheatEnds decode

/-- `proxy.delete(&delete_request)`, of each target. -/
def Proxy.Deleting : Nat → DeleteRequest → Except Error Unit → Prop :=
  TaskComes panics fun i => (proxy.at selectors i).DeleteEnds decode

end ends

section covers
variable {ρ : Type}

/-- The targets are covered within the limit, in every run of their tasks. -/
structure CoversTargets (limit : Nat) (requests : List ρ)
    (Comes : Nat → ρ → Except Error Unit → Prop) (start : TaskSet.State ρ Error) : Prop where
  /-- no more targets than the limit are in progress -/
  limited : ∀ events s, Trace (TaskSet.Step Comes) start events s → s.inProgress ≤ limit
  /-- the operation gets on until it returns, which it does after so many steps -/
  returns : ∀ events s, Trace (TaskSet.Step Comes) start events s →
    events.length ≤ 4 * requests.length + 2 ∧
      ((∃ event s', TaskSet.Step Comes s event s') ∨ ∃ result, s.main = .returned result)
  /-- a task begins the request of its target, once at most -/
  began : ∀ events s, Trace (TaskSet.Step Comes) start events s → ∀ i,
    events.filterMap (TaskSet.Event.began? i) = [] ∨ ∃ request, requests[i]? = some request ∧
      events.filterMap (TaskSet.Event.began? i) = [request]
  /-- and ends it with what comes of it -/
  ended : ∀ events s, Trace (TaskSet.Step Comes) start events s → ∀ i,
    events.filterMap (TaskSet.Event.ended? i) = [] ∨
      ∃ request result, requests[i]? = some request ∧
        events.filterMap (TaskSet.Event.ended? i) = [(request, result)] ∧ Comes i request result
  /-- the operation succeeds when every target does -/
  ok_iff : ∀ events s result, Trace (TaskSet.Step Comes) start events s →
    s.main = .returned result → (result = .ok () ↔ ∀ i request, requests[i]? = some request →
      events.filterMap (TaskSet.Event.ended? i) = [(request, .ok ())])
  /-- then every target was processed once -/
  once : ∀ events s, Trace (TaskSet.Step Comes) start events s → s.main = .returned (.ok ()) →
    ∀ i request, requests[i]? = some request →
      events.filterMap (TaskSet.Event.began? i) = [request] ∧
        events.filterMap (TaskSet.Event.ended? i) = [(request, .ok ())]
  /-- it fails with the error of a target -/
  failed : ∀ events s err, Trace (TaskSet.Step Comes) start events s →
    s.main = .returned (.error err) → ∃ i request, requests[i]? = some request ∧
      events.filterMap (TaskSet.Event.ended? i) = [(request, .error err)]

/-- **Tasks cover their targets just when there can be as many permits** as the limit says. -/
theorem coversTargets_iff {limit : Nat} (hlimit : 0 < limit) (maxPermits : Nat)
    {requests : List ρ} {Comes : Nat → ρ → Except Error Unit → Prop}
    (hends : ∀ i request, requests[i]? = some request → ∃ result, Comes i request result) :
    CoversTargets limit requests Comes (.start maxPermits limit requests) ↔
      limit ≤ maxPermits := by
  constructor
  · intro h
    by_contra hmany
    have hstart : TaskSet.State.start maxPermits limit requests =
        (⟨.panicked, [], 0⟩ : TaskSet.State ρ Error) := if_neg hmany
    obtain ⟨_, ⟨event, s', hstep⟩ | ⟨result, hreturned⟩⟩ := h.returns [] _ rfl
    · rw [hstart] at hstep
      exact TaskSet.not_step_panicked hstep
    · rw [hstart] at hreturned
      cases hreturned
  · intro hmax
    have hinv : ∀ {events s},
        Trace (TaskSet.Step Comes) (.start maxPermits limit requests) events s →
          TaskSet.Inv requests limit Comes events s :=
      fun hrun => TaskSet.inv_of_trace hmax hrun
    constructor
    · intro events s hrun
      exact Nat.le_of_add_left_le (hinv hrun).permits_eq.le
    · intro events s hrun
      exact ⟨TaskSet.length_le_of_trace hrun, (hinv hrun).returned_or_step hlimit hends⟩
    · exact fun events s hrun => (hinv hrun).began
    · exact fun events s hrun => (hinv hrun).ended
    · exact fun events s result hrun => (hinv hrun).ok_iff
    · exact fun events s hrun hmain i request => (hinv hrun).once hmain
    · exact fun events s err hrun => (hinv hrun).failed

end covers

/-! ### Targets that end -/

section
variable {crates : ProxyCrates} {proxy : Proxy crates} (decode : List UInt8 → Option Backend)
  {names : List Str} (hnames : proxy.seedPeerSelector.seedPeers.hosts.Yields names)
  (hring : crates.ring.Lawful)

include hring in
theorem exists_selectSeedPeers (names : List Str) (id : Str) (scope : Scope) {replicas : Nat}
    (hreplicas : 0 < Proxy.replicasOf replicas) :
    ∃ fuel selected, proxy.selectSeedPeers fuel names id scope replicas = some selected := by
  cases scope with
  | allSeedPeers => exact ⟨0, _, rfl⟩
  | default => exact selects_rust.exists_result hring proxy.seedPeerSelector.seedPeers id hreplicas

include hnames hring

theorem exists_preheatEnds {request : PreheatRequest}
    (hreplicas : 0 < Proxy.replicasOf request.replicas) :
    ∃ result, proxy.PreheatEnds decode request result := by
  have hends : ∃ fuel preheated, proxy.preheat fuel names none
      (fun _ addr _ _ => downloadTask decode addr (.streamed 0 none)) inOrder request =
        some preheated := by
    unfold Proxy.preheat
    rcases (do request.validate; taskId crates.id request.toTaskFields : Except Error Str)
      with err | id
    · exact ⟨0, _, rfl⟩
    · obtain ⟨fuel, selected, hselected⟩ :=
        exists_selectSeedPeers hring names id request.scope hreplicas
      exact ⟨fuel, _, Option.map_eq_some_iff.mpr ⟨selected, hselected, rfl⟩⟩
  obtain ⟨fuel, preheated, hpreheated⟩ := hends
  exact ⟨_, fuel, names, none, fun _ _ => .streamed 0 none, inOrder, preheated, hnames, hpreheated,
    rfl⟩

theorem exists_deleteEnds {request : DeleteRequest}
    (hreplicas : 0 < Proxy.replicasOf request.replicas) :
    ∃ result, proxy.DeleteEnds decode request result := by
  have hends : ∃ fuel result, proxy.delete fuel names none
      (fun _ addr _ _ => deleteTask decode addr (.answered none)) inOrder request =
        some result := by
    unfold Proxy.delete
    rcases (do request.validate; taskId crates.id request.toTaskFields : Except Error Str)
      with err | id
    · exact ⟨0, _, rfl⟩
    · obtain ⟨fuel, selected, hselected⟩ :=
        exists_selectSeedPeers hring names id request.scope hreplicas
      exact ⟨fuel, _, Option.map_eq_some_iff.mpr ⟨selected, hselected, rfl⟩⟩
  obtain ⟨fuel, result, hresult⟩ := hends
  exact ⟨result, fuel, names, none, fun _ _ => .answered none, inOrder, hnames, hresult⟩

end

/-! ### Every target -/

theorem PreheatImageRequest.validate_pos {request : PreheatImageRequest}
    (h : request.validate = .ok ()) : 0 < request.concurrentTaskCount := by
  unfold validate at h
  split at h
  · cases h
  · split at h
    · cases h
    · omega

theorem DeleteImageRequest.validate_pos {request : DeleteImageRequest}
    (h : request.validate = .ok ()) : 0 < request.concurrentTaskCount := by
  unfold validate at h
  split at h
  · cases h
  · split at h
    · cases h
    · omega

theorem PreheatImageRequest.targets_eq_ok {oci : OciCrate} {crate : HttpCrate}
    {request : PreheatImageRequest} {requests : List PreheatRequest} {image : PulledImage}
    (hpulled : oci.pullImage request.platform request.image
      (registryAuth request.username request.password) = .ok image)
    (h : request.targets oci crate = .ok requests) :
    0 < request.concurrentTaskCount ∧ (requests.map fun r => r.url) = image.urls ∧
      ∀ r ∈ requests, r.replicas = request.replicas := by
  unfold targets at h
  simp only [bind_eq_ok_iff, hpulled] at h
  obtain ⟨_, hvalid, _, himage, token, _, header, _, manifestHeader, _, hrequests⟩ := h
  obtain rfl := Except.ok.inj himage
  obtain rfl := Except.ok.inj hrequests
  refine ⟨validate_pos hvalid, ?_, fun r hmem => ?_⟩
  · simp only [preheatRequests, preheatTargets, List.map_cons, List.map_map]
    rfl
  · obtain ⟨target, _, rfl⟩ := List.mem_map.mp hmem
    rfl

theorem DeleteImageRequest.targets_eq_ok {oci : OciCrate} {request : DeleteImageRequest}
    {requests : List DeleteRequest} {image : PulledImage}
    (hpulled : oci.pullImage request.platform request.image
      (registryAuth request.username request.password) = .ok image)
    (h : request.targets oci = .ok requests) :
    0 < request.concurrentTaskCount ∧ (requests.map fun r => r.url) = image.urls ∧
      ∀ r ∈ requests, r.replicas = request.replicas := by
  unfold targets at h
  simp only [bind_eq_ok_iff, hpulled] at h
  obtain ⟨_, hvalid, _, himage, hrequests⟩ := h
  obtain rfl := Except.ok.inj himage
  obtain rfl := Except.ok.inj hrequests
  refine ⟨validate_pos hvalid, ?_, fun r hmem => ?_⟩
  · rw [List.map_map]
    exact List.map_id _
  · obtain ⟨url, _, rfl⟩ := List.mem_map.mp hmem
    rfl

theorem PulledImage.covers (image : PulledImage) :
    CoversImage (resolveRegistry image.reference) image.reference.repository.toStr
      image.manifestDigest image.manifest image.urls ∧ image.urls.Nodup := by
  have hcovers := preheatTargets_covers (resolveRegistry image.reference)
    image.reference.repository.toStr image.manifestDigest image.manifest [] []
  have hurls : (preheatTargets (resolveRegistry image.reference)
      image.reference.repository.toStr image.manifestDigest image.manifest [] []).map Prod.fst =
        image.urls := by
    unfold preheatTargets urls
    rw [List.map_cons, List.map_map]
    rfl
  rw [hurls] at hcovers
  refine ⟨hcovers, ?_⟩
  unfold urls
  rw [List.nodup_cons]
  constructor
  · intro hmem
    obtain ⟨digest, _, hsame⟩ := List.mem_map.mp hmem
    unfold buildBlobUrl buildManifestUrl ociUrl at hsame
    simp only [List.append_assoc, List.append_cancel_left_eq] at hsame
    cases hsame
  · refine (nodup_btreeSet _).map fun d d' hsame => ?_
    unfold buildBlobUrl ociUrl at hsame
    exact List.append_cancel_left hsame

/-- **Preheating and deleting an image cover every target within the limit just when a semaphore can
have as many permits**, and they address the same urls. -/
theorem image_covers_targets_iff {crates : ProxyCrates} (proxy : Proxy crates)
    (decode : List UInt8 → Option Backend) (oci : OciCrate) (crate : HttpCrate) (maxPermits : Nat)
    (image : PulledImage) (request : PreheatImageRequest) (requests : List PreheatRequest)
    (hpulled : oci.pullImage request.platform request.image
      (registryAuth request.username request.password) = .ok image)
    (htargets : request.targets oci crate = .ok requests)
    (selectors : Nat → SeedPeerSelector crates.ring) (panics : Nat → Option Str)
    (hends : ∀ i r, requests[i]? = some r →
      ∃ result, proxy.Preheating decode selectors panics i r result)
    (deleteRequest : DeleteImageRequest) (deleteRequests : List DeleteRequest)
    (hdeletePulled : oci.pullImage deleteRequest.platform deleteRequest.image
      (registryAuth deleteRequest.username deleteRequest.password) = .ok image)
    (hdeleteTargets : deleteRequest.targets oci = .ok deleteRequests)
    (deleteSelectors : Nat → SeedPeerSelector crates.ring) (deletePanics : Nat → Option Str)
    (hdeleteEnds : ∀ i r, deleteRequests[i]? = some r →
      ∃ result, proxy.Deleting decode deleteSelectors deletePanics i r result) :
    (CoversTargets request.concurrentTaskCount requests (proxy.Preheating decode selectors panics)
        (preheatImage oci crate maxPermits request) ↔
      request.concurrentTaskCount ≤ maxPermits) ∧
    (CoversTargets deleteRequest.concurrentTaskCount deleteRequests
        (proxy.Deleting decode deleteSelectors deletePanics)
        (deleteImage oci maxPermits deleteRequest) ↔
      deleteRequest.concurrentTaskCount ≤ maxPermits) ∧
    CoversImage (resolveRegistry image.reference) image.reference.repository.toStr
      image.manifestDigest image.manifest (requests.map fun r => r.url) ∧
    (requests.map fun r => r.url).Nodup ∧
    (deleteRequests.map fun r => r.url) = requests.map fun r => r.url := by
  obtain ⟨hpos, hurls, _⟩ := PreheatImageRequest.targets_eq_ok hpulled htargets
  obtain ⟨hdeletePos, hdeleteUrls, _⟩ :=
    DeleteImageRequest.targets_eq_ok hdeletePulled hdeleteTargets
  obtain ⟨hcovers, hnodup⟩ := image.covers
  unfold preheatImage deleteImage
  rw [htargets, hdeleteTargets, hurls, hdeleteUrls]
  exact ⟨coversTargets_iff hpos maxPermits hends,
    coversTargets_iff hdeletePos maxPermits hdeleteEnds, hcovers, hnodup, rfl⟩

/-- A registry of one image. -/
def exampleOci : OciCrate where
  parseReference _ := .ok exampleReference
  pullImageManifest _ _ _ := .ok (exampleManifest, exampleDigest.toStr)
  auth _ _ := .ok (some "token".toList)
  manifestTypes := ["application/vnd.oci.image.manifest.v1+json".toList]

def exampleImage : PulledImage := ⟨exampleReference, exampleManifest, exampleDigest.toStr⟩

/-- The request to delete what `exampleImageRequest` preheats. -/
def exampleDeleteImageRequest : DeleteImageRequest where
  image := "localhost/library/nginx".toList
  username := none
  password := none
  platform := none
  pieceLength := none
  tag := none
  application := none
  filteredQueryParams := ["ns".toList]
  contentForCalculatingTaskId := none
  enableTaskIdBasedBlobDigest := true
  replicas := 2
  scope := .default
  timeout := 0
  concurrentTaskCount := 4

/-- A crate that takes every value as it is. -/
def plainHttp : HttpCrate := ⟨.ok, fun _ _ => [], fun _ => []⟩

/-- The `i`-th task panics. -/
def panicsAt (i j : Nat) : Option Str := if j = i then some "cancelled".toList else none

theorem yields_exampleProxy :
    exampleProxy.seedPeerSelector.seedPeers.hosts.Yields exampleNames := by
  change exampleRust.hosts.Yields exampleNames
  rw [exampleRust, SeedPeers.update_hosts]
  exact yields_example

theorem exists_preheating_example (panics : Nat → Option Str) {request : PreheatImageRequest}
    (hreplicas : request.replicas = 2) {requests : List PreheatRequest}
    (htargets : request.targets exampleOci plainHttp = .ok requests)
    (hplatform : request.platform = none) (i : Nat) (r : PreheatRequest)
    (hr : requests[i]? = some r) : ∃ result, exampleProxy.Preheating (fun _ => none)
      (fun _ => exampleProxy.seedPeerSelector) panics i r result := by
  unfold Proxy.Preheating TaskComes
  cases panics i with
  | some message => exact ⟨_, rfl⟩
  | none =>
    refine exists_preheatEnds _ yields_exampleProxy nameRing.lawful ?_
    have hpulled : exampleOci.pullImage request.platform request.image
        (registryAuth request.username request.password) = .ok exampleImage := by
      rw [hplatform]
      rfl
    obtain ⟨_, _, hsame⟩ := PreheatImageRequest.targets_eq_ok hpulled htargets
    rw [hsame r (List.mem_of_getElem? hr), hreplicas]
    decide

theorem exists_deleting_example {requests : List DeleteRequest}
    (htargets : exampleDeleteImageRequest.targets exampleOci = .ok requests) (i : Nat)
    (r : DeleteRequest) (hr : requests[i]? = some r) :
    ∃ result, exampleProxy.Deleting (fun _ => none) (fun _ => exampleProxy.seedPeerSelector)
      (fun _ => none) i r result := by
  refine exists_deleteEnds _ yields_exampleProxy nameRing.lawful ?_
  have hpulled : exampleOci.pullImage exampleDeleteImageRequest.platform
      exampleDeleteImageRequest.image (registryAuth none none) = .ok exampleImage := rfl
  obtain ⟨_, _, hsame⟩ := DeleteImageRequest.targets_eq_ok hpulled htargets
  rw [hsame r (List.mem_of_getElem? hr)]
  decide

/-- At an image, the task of its second target panicking when it is preheated. -/
theorem image_covers_targets_iff_nginx :
    ∃ (requests : List PreheatRequest) (deleteRequests : List DeleteRequest),
      CoversTargets 4 requests (exampleProxy.Preheating (fun _ => none)
          (fun _ => exampleProxy.seedPeerSelector) (panicsAt 1))
        (preheatImage exampleOci plainHttp ((2 ^ 64 - 1) >>> 3) (exampleImageRequest none)) ∧
      CoversTargets 4 deleteRequests (exampleProxy.Deleting (fun _ => none)
          (fun _ => exampleProxy.seedPeerSelector) fun _ => none)
        (deleteImage exampleOci ((2 ^ 64 - 1) >>> 3) exampleDeleteImageRequest) := by
  obtain ⟨requests, htargets⟩ : ∃ requests,
      (exampleImageRequest none).targets exampleOci plainHttp = .ok requests := ⟨_, rfl⟩
  obtain ⟨deleteRequests, hdeleteTargets⟩ : ∃ requests,
      exampleDeleteImageRequest.targets exampleOci = .ok requests := ⟨_, rfl⟩
  have hiff := image_covers_targets_iff exampleProxy (fun _ => none) exampleOci plainHttp
    ((2 ^ 64 - 1) >>> 3) exampleImage (exampleImageRequest none) requests rfl htargets
    (fun _ => exampleProxy.seedPeerSelector) (panicsAt 1)
    (exists_preheating_example _ rfl htargets rfl) exampleDeleteImageRequest deleteRequests rfl
    hdeleteTargets (fun _ => exampleProxy.seedPeerSelector) (fun _ => none)
    (exists_deleting_example hdeleteTargets)
  exact ⟨requests, deleteRequests, hiff.1.mpr (by decide), hiff.2.1.mpr (by decide)⟩

/-- With as many permits as a `usize` can say, nothing is preheated. -/
theorem not_covers_targets : ¬ ∀ (crates : ProxyCrates) (proxy : Proxy crates)
    (decode : List UInt8 → Option Backend) (selectors : Nat → SeedPeerSelector crates.ring)
    (oci : OciCrate) (crate : HttpCrate) (request : PreheatImageRequest)
    (requests : List PreheatRequest),
    request.validate = .ok () → request.concurrentTaskCount < 2 ^ 64 →
    request.targets oci crate = .ok requests →
    (∀ i r, requests[i]? = some r →
      ∃ result, proxy.Preheating decode selectors (fun _ => none) i r result) →
    CoversTargets request.concurrentTaskCount requests
      (proxy.Preheating decode selectors fun _ => none)
      (preheatImage oci crate ((2 ^ 64 - 1) >>> 3) request) := by
  intro h
  let request : PreheatImageRequest :=
    { exampleImageRequest none with concurrentTaskCount := 2 ^ 64 - 1 }
  obtain ⟨requests, htargets⟩ : ∃ requests,
      request.targets exampleOci plainHttp = .ok requests := ⟨_, rfl⟩
  have hends := exists_preheating_example (fun _ => none) rfl htargets rfl
  have hcovers := h exampleCrates exampleProxy (fun _ => none)
    (fun _ => exampleProxy.seedPeerSelector) exampleOci plainHttp request requests rfl (by decide)
    htargets hends
  rw [preheatImage, htargets] at hcovers
  have hmany : 2 ^ 64 - 1 ≤ (2 ^ 64 - 1) >>> 3 :=
    (coversTargets_iff (by decide) ((2 ^ 64 - 1) >>> 3) hends).mp hcovers
  exact absurd hmany (by decide)

end DragonflySdk
