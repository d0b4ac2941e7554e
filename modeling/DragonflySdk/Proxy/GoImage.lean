import DragonflySdk.Oci
import DragonflySdk.Proxy.GoTasks

/-!
# Preheating and deleting an image in Go

`PreheatImage` of `preheat.go` and `DeleteImage` of `delete.go`: the image is resolved to the urls of
its manifests and blobs, and each url is preheated, or deleted, by a task of an error group, of which
no more run at once than `concurrentTaskCount`. Such a task has an error group of its own, for the
seed peers, made with the context of the outer group.

Both groups are awaited in every run: when either operation returns, no call to a seed peer is left
over; without an error, every url has been preheated or deleted; and an error is one that a url came
to before the outer group cancelled anything (`image_awaits_targets`). Preheating the manifests and
the blobs apart and deleting them together, the two address the same urls.
-/

namespace DragonflySdk.Go

open Foundation

/-! ### The targets -/

/-- What is called of the module `oci`. -/
structure OciModule where
  Reference : Type
  /-- `oci.ParseImage` -/
  parseImage : Str → Except Str Reference
  /-- `oci.Resolve(ctx, ref, WithAuth(username, password), WithPlatform(platform), ...)`, to the urls
  of the manifests and of the blobs, and the token -/
  resolve : Reference → (username password platform : Str) →
    Except Str (List Str × List Str × Str)
  /-- `distribution.ManifestMediaTypes()` -/
  manifestMediaTypes : List Str

/-- `slices.Compact`: of consecutive elements that are equal, one is left. -/
def compact : List Str → List Str
  | [] => []
  | [url] => [url]
  | url :: url' :: urls => if url = url' then compact (url' :: urls) else url :: compact (url' :: urls)

/-- Sorts the urls and removes the duplicates. -/
def uniqueURLs (urls : List Str) : List Str := compact (sortByKey textOrder urls)

structure PreheatImageRequest extends TaskParams where
  image : Str
  username : Str
  password : Str
  platform : Str
  priority : Option Int
  concurrentTaskCount : Int

structure DeleteImageRequest extends TaskParams where
  image : Str
  username : Str
  password : Str
  platform : Str
  concurrentTaskCount : Int

/-- Validates what is common to all requests, and how many tasks there are at once. -/
def validateImage (r : TaskParams) (concurrentTaskCount : Int) : Except WrappedError Unit := do
  r.validate
  if concurrentTaskCount ≤ 0 then
    .error (invalidArgument "%w: concurrent task count must be positive" [])

namespace PreheatImageRequest

def validate (r : PreheatImageRequest) : Except WrappedError Unit :=
  validateImage r.toTaskParams r.concurrentTaskCount

/-- The request for a target. -/
def preheatRequest (r : PreheatImageRequest) (target : Str × Header) : PreheatRequest :=
  { r.toTaskParams with url := target.1, header := target.2, priority := r.priority }

/-- The requests of `PreheatImage`, of each target. -/
def targets (oci : OciModule) (r : PreheatImageRequest) :
    Except WrappedError (List PreheatRequest) := do
  r.validate
  match oci.parseImage r.image with
  | .error err => .error (invalidArgument "%w: %v" [err])
  | .ok ref =>
    match oci.resolve ref r.username r.password r.platform with
    | .error err => .error (internalError "%w: %v" [err])
    | .ok (manifestURLs, blobURLs, token) =>
      if token = [] then
        .error (internalError "%w: registry did not return authentication token" [])
      else
        let header := Header.set [] "Authorization".toList token
        let manifestHeader := Header.set header "Accept".toList
          (",".toList.intercalate oci.manifestMediaTypes)
        .ok (((uniqueURLs manifestURLs).map (·, manifestHeader) ++
          (uniqueURLs blobURLs).map (·, header)).map r.preheatRequest)

end PreheatImageRequest

namespace DeleteImageRequest

def validate (r : DeleteImageRequest) : Except WrappedError Unit :=
  validateImage r.toTaskParams r.concurrentTaskCount

/-- The request for a target. -/
def deleteRequest (r : DeleteImageRequest) (url : Str) : DeleteRequest :=
  { r.toTaskParams with url }

/-- The requests of `DeleteImage`, of each target. -/
def targets (oci : OciModule) (r : DeleteImageRequest) :
    Except WrappedError (List DeleteRequest) := do
  r.validate
  match oci.parseImage r.image with
  | .error err => .error (invalidArgument "%w: %v" [err])
  | .ok ref =>
    match oci.resolve ref r.username r.password r.platform with
    | .error err => .error (internalError "%w: %v" [err])
    | .ok (manifestURLs, blobURLs, _) =>
      .ok ((uniqueURLs (manifestURLs ++ blobURLs)).map r.deleteRequest)

end DeleteImageRequest

/-! ### The urls -/

theorem mem_compact {url : Str} {urls : List Str} : url ∈ compact urls ↔ url ∈ urls := by
  fun_induction compact urls with
  | case1 => rfl
  | case2 url' => rfl
  | case3 url' urls ih =>
    rw [ih]
    simp
  | case4 url' url'' urls hne ih =>
    rw [List.mem_cons, ih, List.mem_cons (l := url'' :: urls)]

theorem nodup_compact {urls : List Str}
    (h : urls.Pairwise fun a b => textOrder a ≤ textOrder b) : (compact urls).Nodup := by
  fun_induction compact urls with
  | case1 => exact List.nodup_nil
  | case2 url' => exact List.nodup_singleton _
  | case3 url' urls ih => exact ih (List.pairwise_cons.mp h).2
  | case4 url' url'' urls hne ih =>
    obtain ⟨hfirst, hrest⟩ := List.pairwise_cons.mp h
    refine List.nodup_cons.mpr ⟨fun hmem => ?_, ih hrest⟩
    -- the next one lies between the two
    have hbetween : textOrder url'' ≤ textOrder url' := by
      rcases List.mem_cons.mp (mem_compact.mp hmem) with heq | hlater
      · exact absurd heq hne
      · exact (List.pairwise_cons.mp hrest).1 url' hlater
    exact hne (textOrder_injective (le_antisymm (hfirst url'' List.mem_cons_self) hbetween))

theorem mem_uniqueURLs {url : Str} {urls : List Str} : url ∈ uniqueURLs urls ↔ url ∈ urls := by
  rw [uniqueURLs, mem_compact, mem_sortByKey]

theorem nodup_uniqueURLs (urls : List Str) : (uniqueURLs urls).Nodup :=
  nodup_compact (sortByKey_pairwise _ _)

/-! ### Groups in groups -/

section
variable {γ : Type}

/-- What an operation may come to, in a context that has ended like this by then: an error before its
tasks start, or what comes of these in some run. -/
def Operates (tasks? : Option (Except WrappedError (Tasks γ)))
    (comes : Tasks γ → Nat → Option ContextEnd → Except WrappedError Unit → Prop)
    (ended : Option ContextEnd) (result : Except WrappedError Unit) : Prop :=
  (∃ err, tasks? = some (.error err) ∧ result = .error err) ∨
  ∃ tasks, tasks? = some (.ok tasks) ∧ ∃ parent events s, (parent = none ∨ parent = ended) ∧
    Trace (ErrGroup.Step tasks.seedPeers.length none ContextEnd.cancelled (comes tasks))
      (ErrGroup.State.start parent) events s ∧
    (s.parent = none ∨ s.parent = ended) ∧ s.main = .returned result

variable {tasksOf : Nat → Nat → Option (Except WrappedError (Tasks γ))}
  {comes : Nat → Tasks γ → Nat → Option ContextEnd → Except WrappedError Unit → Prop}
  {done : Nat → Tasks γ → Nat → Prop}

/-- **Tasks that await tasks of their own are awaited**, and so are these. -/
theorem awaits_targets (n : Nat) {limit : Option Nat} (hlimit : limit ≠ some 0)
    (hunique : ∀ i fuel fuel' tasks? tasks?', tasksOf i fuel = some tasks? →
      tasksOf i fuel' = some tasks?' → tasks? = tasks?')
    (hawaits : ∀ i tasks, ErrGroup.Awaits tasks.seedPeers.length none ContextEnd.cancelled
      (comes i tasks) (done i tasks)) :
    ErrGroup.Awaits n limit ContextEnd.cancelled
      (fun i ended result => ∃ fuel, Operates (tasksOf i fuel) (comes i) ended result)
      fun i => ∃ fuel tasks, tasksOf i fuel = some (.ok tasks) ∧
        ∀ j < tasks.seedPeers.length, done i tasks j := by
  refine ErrGroup.awaits n _ hlimit ?_ ?_
  · rintro i _ ended ⟨fuel, ⟨err, _, hfailed⟩ | ⟨tasks, htasks, parent, events, s, _, htrace, _, hmain⟩⟩
    · cases hfailed
    · exact ⟨fuel, tasks, htasks, (hawaits i tasks).done parent events s htrace hmain⟩
  · rintro i _ result ⟨fuel, tasks, htasks, hall⟩ ⟨fuel', hoperates⟩
    rcases hoperates with ⟨err, herr, _⟩ | ⟨tasks', htasks', parent, events, s, _, htrace, hparent, hmain⟩
    · cases hunique i _ _ _ _ htasks herr
    · obtain rfl := Except.ok.inj (hunique i _ _ _ _ htasks htasks')
      exact (hawaits i tasks).succeeds parent events s result htrace hmain (hparent.elim id id) hall

theorem exists_operates {tasks? : Except WrappedError (Tasks γ)}
    {comes : Tasks γ → Nat → Option ContextEnd → Except WrappedError Unit → Prop}
    (hcomes : ∀ tasks, ∀ i < tasks.seedPeers.length, ∀ ended, ∃ result,
      comes tasks i ended result) (ended : Option ContextEnd) :
    ∃ result, Operates (some tasks?) comes ended result := by
  rcases tasks? with err | tasks
  · exact ⟨_, .inl ⟨err, rfl, rfl⟩⟩
  · have hlimit : (none : Option Nat) ≠ some 0 := by simp
    obtain ⟨events, s, result, htrace, hmain, hparent⟩ := ErrGroup.exists_returned
      tasks.seedPeers.length ContextEnd.cancelled hlimit (hcomes tasks) ended
    exact ⟨result, .inr ⟨tasks, rfl, ended, events, s, .inr rfl, htrace, .inr hparent, hmain⟩⟩

end

/-! ### The selections -/

section
variable {modules : Modules}

theorem select_unique {crate : HashRingCrate} {s : SeedPeers crate} {fuel fuel' : Nat}
    {taskId : Str} {replicas : Nat} {result result' : Except Str (List Host)}
    (h : select s fuel taskId replicas = some result)
    (h' : select s fuel' taskId replicas = some result') : result = result' := by
  unfold select at h h'
  by_cases hhosts : s.hosts.len = 0
  · rw [if_pos hhosts] at h h'
    exact Option.some.inj (h.symm.trans h')
  · rw [if_neg hhosts] at h h'
    obtain ⟨found, hfound, rfl⟩ := Option.map_eq_some_iff.mp h
    obtain ⟨found', hfound', rfl⟩ := Option.map_eq_some_iff.mp h'
    rw [windowLoop_unique hfound hfound']

theorem selectSeedPeers_unique {p : Proxy modules} {fuel fuel' : Nat} {names : List Str} {id : Str}
    {scope : Scope} {replicas : Int} {result result' : Except Str (List Host)}
    (h : p.selectSeedPeers fuel names id scope replicas = some result)
    (h' : p.selectSeedPeers fuel' names id scope replicas = some result') : result = result' := by
  unfold Proxy.selectSeedPeers at h h'
  split at h
  · rw [if_pos (by assumption)] at h'
    exact Option.some.inj (h.symm.trans h')
  · rw [if_neg (by assumption)] at h'
    exact select_unique h h'

theorem preheatTasks_unique {p : Proxy modules} {fuel fuel' : Nat} {names : List Str} {ipv4 : Str}
    {req : PreheatRequest} {tasks? tasks?' : Except WrappedError (Tasks Download)}
    (h : p.preheatTasks fuel names ipv4 req = some tasks?)
    (h' : p.preheatTasks fuel' names ipv4 req = some tasks?') : tasks? = tasks?' := by
  unfold Proxy.preheatTasks at h h'
  rcases hid : (do req.validate; Proxy.idOf modules req.url req.toTaskParams :
      Except WrappedError Str) with err | id <;> rw [hid] at h h'
  · exact Option.some.inj (h.symm.trans h')
  · obtain ⟨selected, hselected, rfl⟩ := Option.map_eq_some_iff.mp h
    obtain ⟨selected', hselected', rfl⟩ := Option.map_eq_some_iff.mp h'
    rw [selectSeedPeers_unique hselected hselected']

theorem deleteTasks_unique {p : Proxy modules} {fuel fuel' : Nat} {names : List Str} {ipv4 : Str}
    {req : DeleteRequest} {tasks? tasks?' : Except WrappedError (Tasks DeleteTaskRequest)}
    (h : p.deleteTasks fuel names ipv4 req = some tasks?)
    (h' : p.deleteTasks fuel' names ipv4 req = some tasks?') : tasks? = tasks?' := by
  unfold Proxy.deleteTasks at h h'
  rcases hid : (do req.validate; Proxy.idOf modules req.url req.toTaskParams :
      Except WrappedError Str) with err | id <;> rw [hid] at h h'
  · exact Option.some.inj (h.symm.trans h')
  · obtain ⟨selected, hselected, rfl⟩ := Option.map_eq_some_iff.mp h
    obtain ⟨selected', hselected', rfl⟩ := Option.map_eq_some_iff.mp h'
    rw [selectSeedPeers_unique hselected hselected']

end

/-! ### Every target -/

/-- What is done with each target: the tasks for its request, which do not depend on the fuel, and
what an attempt at a seed peer comes to, for the task id. -/
structure Operation (ρ β γ : Type) where
  tasksFor : (i fuel : Nat) → ρ → Option (Except WrappedError (Tasks γ))
  attempt : Str → β → Except WrappedError Unit
  unique : ∀ i fuel fuel' request tasks? tasks?', tasksFor i fuel request = some tasks? →
    tasksFor i fuel' request = some tasks?' → tasks? = tasks?'

namespace Operation

variable {ρ β γ : Type} (operation : Operation ρ β γ) {backoff : ContextBackoff}
  (retry : ContextRetryPolicy backoff) (requests : List ρ) (calls : Nat → Nat → PeerCalls β)

/-- What the task of a target may come to. -/
def Comes (i : Nat) (ended : Option ContextEnd) (result : Except WrappedError Unit) : Prop :=
  ∃ fuel, Operates (requests[i]?.bind (operation.tasksFor i fuel))
    (fun tasks => tasks.Comes (callPeer retry (operation.attempt tasks.id)) (calls i)) ended result

/-- A target is done with: seed peers are selected for it as they are to be, and all of them have
done what they are called for. -/
def Done (Selects : Nat → ρ → Tasks γ → Prop) (i : Nat) : Prop :=
  ∃ request ∈ requests[i]?, ∃ fuel tasks,
    operation.tasksFor i fuel request = some (.ok tasks) ∧ Selects i request tasks ∧
    ∀ j < tasks.seedPeers.length,
      Completes retry.maxRetries (operation.attempt tasks.id) (calls i j) none

/-- **All targets are awaited.** -/
theorem awaits (hbackoff : backoff.Lawful) {limit : Option Nat} (hlimit : limit ≠ some 0)
    {Selects : Nat → ρ → Tasks γ → Prop} (hselects : ∀ i fuel request tasks,
      operation.tasksFor i fuel request = some (.ok tasks) → Selects i request tasks) :
    ErrGroup.Awaits requests.length limit ContextEnd.cancelled
      (operation.Comes retry requests calls) (operation.Done retry requests calls Selects) := by
  have hunique : ∀ i fuel fuel' tasks? tasks?',
      requests[i]?.bind (operation.tasksFor i fuel) = some tasks? →
      requests[i]?.bind (operation.tasksFor i fuel') = some tasks?' → tasks? = tasks?' := by
    intro i fuel fuel' tasks? tasks?' h h'
    obtain ⟨request, hrequest, h⟩ := Option.bind_eq_some_iff.mp h
    obtain ⟨request', hrequest', h'⟩ := Option.bind_eq_some_iff.mp h'
    obtain rfl := Option.some.inj (hrequest.symm.trans hrequest')
    exact operation.unique i _ _ _ _ _ h h'
  have hawaits := awaits_targets requests.length hlimit hunique
    (fun i tasks => awaits_tasks retry hbackoff tasks (operation.attempt tasks.id) (calls i))
  have hdone : (fun i => ∃ fuel tasks, requests[i]?.bind (operation.tasksFor i fuel) =
      some (.ok tasks) ∧ ∀ j < tasks.seedPeers.length,
        Completes retry.maxRetries (operation.attempt tasks.id) (calls i j) none) =
      operation.Done retry requests calls Selects := by
    funext i
    apply propext
    constructor
    · rintro ⟨fuel, tasks, htasks, hall⟩
      obtain ⟨request, hrequest, htasks⟩ := Option.bind_eq_some_iff.mp htasks
      exact ⟨request, hrequest, fuel, tasks, htasks, hselects i fuel request tasks htasks, hall⟩
    · rintro ⟨request, hrequest, fuel, tasks, htasks, _, hall⟩
      exact ⟨fuel, tasks, Option.bind_eq_some_iff.mpr ⟨request, hrequest, htasks⟩, hall⟩
  rw [hdone] at hawaits
  exact hawaits

theorem exists_comes {i : Nat} {request : ρ} (hrequest : requests[i]? = some request)
    (hends : ∃ fuel tasks?, operation.tasksFor i fuel request = some tasks?)
    (ended : Option ContextEnd) : ∃ result, operation.Comes retry requests calls i ended result := by
  obtain ⟨fuel, tasks?, htasks⟩ := hends
  have hcomes : ∀ tasks : Tasks γ, ∀ j < tasks.seedPeers.length, ∀ ended, ∃ result,
      tasks.Comes (callPeer retry (operation.attempt tasks.id)) (calls i) j ended result :=
    fun tasks j hj ended' => DragonflySdk.Go.exists_comes tasks _ (calls i) j hj ended'
  obtain ⟨result, hoperates⟩ := exists_operates hcomes ended
  refine ⟨result, fuel, ?_⟩
  rw [hrequest, Option.bind_some, htasks]
  exact hoperates

end Operation

section
variable {modules : Modules} (p : Proxy modules) (selectors : Nat → SeedPeerSelector modules.ring)
  (names : Nat → List Str) (ipv4 : Str)

/-- The proxy as the task of a target finds it: the selector may have changed since the start. -/
def Proxy.at (i : Nat) : Proxy modules := { p with seedPeerSelector := selectors i }

/-- `Preheat`, of each target. -/
def Proxy.preheating : Operation PreheatRequest DownloadCall Download where
  tasksFor i fuel request := (p.at selectors i).preheatTasks fuel (names i) ipv4 request
  attempt := downloadAttempt
  unique _ _ _ _ _ _ := preheatTasks_unique

/-- `Delete`, of each target. -/
def Proxy.deleting : Operation DeleteRequest (Option Status) DeleteTaskRequest where
  tasksFor i fuel request := (p.at selectors i).deleteTasks fuel (names i) ipv4 request
  attempt := deleteTask
  unique _ _ _ _ _ _ := deleteTasks_unique

end

theorem exists_selectSeedPeers {modules : Modules} (hring : modules.ring.Lawful)
    (p : Proxy modules) (names : List Str) (id : Str) (scope : Scope) {replicas : Int}
    (hreplicas : 0 < uint32Of replicas) :
    ∃ fuel selected, p.selectSeedPeers fuel names id scope replicas = some selected := by
  unfold Proxy.selectSeedPeers
  by_cases hscope : scope = .allSeedPeers
  · exact ⟨0, _, if_pos hscope⟩
  · simp only [hscope, if_false]
    exact selects_go.exists_result hring p.seedPeerSelector.seedPeers id hreplicas

theorem exists_preheatTasks {modules : Modules} (hring : modules.ring.Lawful)
    (p : Proxy modules) (names : List Str) (ipv4 : Str) {req : PreheatRequest}
    (hreplicas : 0 < uint32Of req.replicas) :
    ∃ fuel tasks?, p.preheatTasks fuel names ipv4 req = some tasks? := by
  unfold Proxy.preheatTasks
  rcases (do req.validate; Proxy.idOf modules req.url req.toTaskParams :
    Except WrappedError Str) with err | id
  · exact ⟨0, _, rfl⟩
  · obtain ⟨fuel, selected, hselected⟩ :=
      exists_selectSeedPeers hring p names id req.scope hreplicas
    exact ⟨fuel, _, Option.map_eq_some_iff.mpr ⟨selected, hselected, rfl⟩⟩

theorem exists_deleteTasks {modules : Modules} (hring : modules.ring.Lawful)
    (p : Proxy modules) (names : List Str) (ipv4 : Str) {req : DeleteRequest}
    (hreplicas : 0 < uint32Of req.replicas) :
    ∃ fuel tasks?, p.deleteTasks fuel names ipv4 req = some tasks? := by
  unfold Proxy.deleteTasks
  rcases (do req.validate; Proxy.idOf modules req.url req.toTaskParams :
    Except WrappedError Str) with err | id
  · exact ⟨0, _, rfl⟩
  · obtain ⟨fuel, selected, hselected⟩ :=
      exists_selectSeedPeers hring p names id req.scope hreplicas
    exact ⟨fuel, _, Option.map_eq_some_iff.mpr ⟨selected, hselected, rfl⟩⟩

theorem validateImage_eq_ok {r : TaskParams} {concurrentTaskCount : Int}
    (h : validateImage r concurrentTaskCount = .ok ()) :
    0 < r.replicas ∧ 0 < concurrentTaskCount := by
  unfold validateImage at h
  obtain ⟨_, hvalid, hcount⟩ := bind_eq_ok_iff.mp h
  refine ⟨(TaskParams.validate_eq_ok hvalid).1, ?_⟩
  split at hcount
  · cases hcount
  · omega

section
variable {oci : OciModule} {ref : oci.Reference} {manifestURLs blobURLs : List Str} {token : Str}

theorem PreheatImageRequest.targets_eq_ok {req : PreheatImageRequest}
    (hparse : oci.parseImage req.image = .ok ref)
    (hresolve : oci.resolve ref req.username req.password req.platform =
      .ok (manifestURLs, blobURLs, token))
    {requests : List PreheatRequest} (h : req.targets oci = .ok requests) :
    0 < req.replicas ∧ 0 < req.concurrentTaskCount ∧
      (∀ request ∈ requests, request.toTaskParams = req.toTaskParams) ∧
      (requests.map fun request => request.url) =
        uniqueURLs manifestURLs ++ uniqueURLs blobURLs := by
  unfold targets at h
  obtain ⟨_, hvalid, h⟩ := bind_eq_ok_iff.mp h
  obtain ⟨hreplicas, hcount⟩ := validateImage_eq_ok hvalid
  simp only [hparse, hresolve] at h
  by_cases htoken : token = []
  · rw [if_pos htoken] at h
    cases h
  · rw [if_neg htoken] at h
    obtain rfl := Except.ok.inj h
    refine ⟨hreplicas, hcount, fun request hmem => ?_, ?_⟩
    · obtain ⟨target, _, rfl⟩ := List.mem_map.mp hmem
      rfl
    · rw [List.map_append, List.map_append]
      simp only [List.map_map]
      congr 1 <;> exact List.map_id _

theorem DeleteImageRequest.targets_eq_ok {req : DeleteImageRequest}
    (hparse : oci.parseImage req.image = .ok ref)
    (hresolve : oci.resolve ref req.username req.password req.platform =
      .ok (manifestURLs, blobURLs, token))
    {requests : List DeleteRequest} (h : req.targets oci = .ok requests) :
    0 < req.replicas ∧ 0 < req.concurrentTaskCount ∧
      (∀ request ∈ requests, request.toTaskParams = req.toTaskParams) ∧
      (requests.map fun request => request.url) = uniqueURLs (manifestURLs ++ blobURLs) := by
  unfold targets at h
  obtain ⟨_, hvalid, h⟩ := bind_eq_ok_iff.mp h
  obtain ⟨hreplicas, hcount⟩ := validateImage_eq_ok hvalid
  simp only [hparse, hresolve] at h
  obtain rfl := Except.ok.inj h
  refine ⟨hreplicas, hcount, fun request hmem => ?_, ?_⟩
  · obtain ⟨url, _, rfl⟩ := List.mem_map.mp hmem
    rfl
  · rw [List.map_map]
    exact List.map_id _

end

/-- How the targets of an image are done with: they are awaited, within the limit; a task that is
asked for replicas that fit 32 bits comes to something; and the urls are those of the image, none of
them twice among the manifests or among the blobs. -/
structure AwaitsImage {ρ β γ : Type} {backoff : ContextBackoff} (operation : Operation ρ β γ)
    (retry : ContextRetryPolicy backoff) (Selects : Nat → ρ → Tasks γ → Prop)
    (params : TaskParams) (limit : Int) (requests : List ρ) (urls : List Str)
    (calls : Nat → Nat → PeerCalls β) (manifestURLs blobURLs : List Str) : Prop where
  awaits : ErrGroup.Awaits requests.length (some limit.toNat) ContextEnd.cancelled
    (operation.Comes retry requests calls) (operation.Done retry requests calls Selects)
  comes : params.replicas < 2 ^ 32 → ∀ i < requests.length, ∀ ended, ∃ result,
    operation.Comes retry requests calls i ended result
  mem_iff : ∀ url, url ∈ urls ↔ url ∈ manifestURLs ∨ url ∈ blobURLs
  nodup : (∀ url ∈ manifestURLs, url ∉ blobURLs) → urls.Nodup

/-- **Every target of an image is awaited**, whether it is preheated or deleted, in every run of the
tasks; and what is preheated is what is deleted. -/
theorem image_awaits_targets {modules : Modules} (hring : modules.ring.Lawful)
    (hnext : modules.ring.AtMostNext) {backoff : ContextBackoff} (hbackoff : backoff.Lawful)
    (p : Proxy modules) (b : Option backoff.ExponentialBackOff)
    (selectors : Nat → SeedPeerSelector modules.ring) (names : Nat → List Str)
    (hnames : ∀ i, (selectors i).seedPeers.hosts.Yields (names i)) (ipv4 : Str)
    (oci : OciModule) (ref : oci.Reference) (manifestURLs blobURLs : List Str) (token : Str)
    (preheat : PreheatImageRequest) (hparse : oci.parseImage preheat.image = .ok ref)
    (hresolve : oci.resolve ref preheat.username preheat.password preheat.platform =
      .ok (manifestURLs, blobURLs, token))
    (preheats : List PreheatRequest) (hpreheats : preheat.targets oci = .ok preheats)
    (downloads : Nat → Nat → PeerCalls DownloadCall)
    (delete : DeleteImageRequest) (hdeleteParse : oci.parseImage delete.image = .ok ref)
    (hdeleteResolve : oci.resolve ref delete.username delete.password delete.platform =
      .ok (manifestURLs, blobURLs, token))
    (deletes : List DeleteRequest) (hdeletes : delete.targets oci = .ok deletes)
    (removals : Nat → Nat → PeerCalls (Option Status)) :
    let retry : ContextRetryPolicy backoff := ⟨p.retry.maxRetries, b⟩
    AwaitsImage (p.preheating selectors names ipv4) retry
        (fun i request tasks => PreheatSelects (p.at selectors i) request tasks)
        preheat.toTaskParams preheat.concurrentTaskCount preheats
        (preheats.map fun request => request.url) downloads manifestURLs blobURLs ∧
      AwaitsImage (p.deleting selectors names ipv4) retry
        (fun i request tasks => DeleteSelects (p.at selectors i) request tasks)
        delete.toTaskParams delete.concurrentTaskCount deletes
        (deletes.map fun request => request.url) removals manifestURLs blobURLs := by
  intro retry
  have hfits : ∀ {replicas : Int}, 0 < replicas → replicas < 2 ^ 32 → 0 < uint32Of replicas := by
    intro replicas hpos hlt
    unfold uint32Of
    omega
  constructor
  · obtain ⟨hreplicas, hcount, hparams, hurls⟩ :=
      PreheatImageRequest.targets_eq_ok hparse hresolve hpreheats
    constructor
    · refine (p.preheating selectors names ipv4).awaits retry preheats downloads hbackoff ?_
        fun i fuel request tasks htasks => preheatSelects hring hnext (hnames i) htasks
      simp only [ne_eq, Option.some.injEq]
      omega
    · intro hlt i hi ended
      have hsame := hparams _ (List.getElem_mem hi)
      refine (p.preheating selectors names ipv4).exists_comes retry preheats downloads
        (List.getElem?_eq_getElem hi) ?_ ended
      exact exists_preheatTasks hring (p.at selectors i) (names i) ipv4
        (by rw [hsame]; exact hfits hreplicas hlt)
    · intro url
      rw [hurls, List.mem_append, mem_uniqueURLs, mem_uniqueURLs]
    · intro hdisjoint
      rw [hurls]
      refine List.nodup_append'.mpr ⟨nodup_uniqueURLs _, nodup_uniqueURLs _, fun url h h' => ?_⟩
      exact hdisjoint url (mem_uniqueURLs.mp h) (mem_uniqueURLs.mp h')
  · obtain ⟨hreplicas, hcount, hparams, hurls⟩ :=
      DeleteImageRequest.targets_eq_ok hdeleteParse hdeleteResolve hdeletes
    constructor
    · refine (p.deleting selectors names ipv4).awaits retry deletes removals hbackoff ?_
        fun i fuel request tasks htasks => deleteSelects hring hnext (hnames i) htasks
      simp only [ne_eq, Option.some.injEq]
      omega
    · intro hlt i hi ended
      have hsame := hparams _ (List.getElem_mem hi)
      refine (p.deleting selectors names ipv4).exists_comes retry deletes removals
        (List.getElem?_eq_getElem hi) ?_ ended
      exact exists_deleteTasks hring (p.at selectors i) (names i) ipv4
        (by rw [hsame]; exact hfits hreplicas hlt)
    · intro url
      rw [hurls, mem_uniqueURLs, List.mem_append]
    · intro _
      rw [hurls]
      exact nodup_uniqueURLs _

/-! ### One image -/

/-- A registry of one image, whose blob is listed twice. -/
def exampleOci : OciModule where
  Reference := Unit
  parseImage _ := .ok ()
  resolve _ _ _ _ := .ok (["https://localhost/v2/nginx/manifests/sha256:0a".toList],
    ["https://localhost/v2/nginx/blobs/sha256:0b".toList,
      "https://localhost/v2/nginx/blobs/sha256:0b".toList], "Bearer token".toList)
  manifestMediaTypes := ["application/vnd.oci.image.manifest.v1+json".toList]

def examplePreheatImage : PreheatImageRequest :=
  { exampleParams with
    image := "localhost/nginx".toList, username := [], password := [], platform := []
    priority := none, concurrentTaskCount := 4 }

def exampleDeleteImage : DeleteImageRequest :=
  { exampleParams with
    image := "localhost/nginx".toList, username := [], password := [], platform := []
    concurrentTaskCount := 4 }

/-- At an image of one manifest and one blob, the second seed peer failing for good to download. -/
theorem image_awaits_targets_nginx :
    ∃ (preheats : List PreheatRequest) (deletes : List DeleteRequest) (manifests blobs : List Str),
      AwaitsImage (twoProxy.preheating (fun _ => twoProxy.seedPeerSelector) (fun _ => exampleNames)
          exampleAddr) (exampleContextPolicy 1)
        (fun _ request tasks => PreheatSelects twoProxy request tasks) exampleParams 4 preheats
        (preheats.map fun request => request.url)
        (fun _ j => ⟨none, fun _ => if j = 1 then .refused ⟨.permissionDenied, [], []⟩
          else .streamed 1 none⟩) manifests blobs ∧
      AwaitsImage (twoProxy.deleting (fun _ => twoProxy.seedPeerSelector) (fun _ => exampleNames)
          exampleAddr) (exampleContextPolicy 1)
        (fun _ request tasks => DeleteSelects twoProxy request tasks) exampleParams 4 deletes
        (deletes.map fun request => request.url) (fun _ _ => ⟨none, fun _ => none⟩)
        manifests blobs :=
  ⟨_, _, _, _, image_awaits_targets nameRing.lawful nameRing.atMostNext
    exampleContextBackoff_lawful twoProxy none (fun _ => twoProxy.seedPeerSelector)
    (fun _ => exampleNames) (fun _ => yields_twoProxy) exampleAddr exampleOci () _ _ _
    examplePreheatImage rfl rfl _ rfl _ exampleDeleteImage rfl rfl _ rfl _⟩

end DragonflySdk.Go
