import DragonflySdk.Proxy.TaskId
import DragonflySdk.Url.Query

/-!
# The tasks of an image preheat

`Proxy::preheat_image` of `lib.rs` preheats the platform manifest and every distinct blob of an
image, each as a task of its own with the metadata of the image request.

The ids of these tasks are pairwise different as long as they are generated from the urls
(`digest_of_taskId`). The content for calculating task ids is metadata like any other to the code,
and gives all of them one id. A manifest whose url passes for that of a blob has no id at all, nor
has a url that is to be filtered and cannot be parsed (`preheatImage_taskIds_iff`).
-/

namespace DragonflySdk

open Foundation

/-! ### The targets -/

/-- The preheat targets: the platform manifest and its blobs, with the headers to fetch them. -/
def preheatTargets (registry repository manifestDigest : Str) (manifest : OciImageManifest)
    (manifestHeader header : HeaderMap) : List (Str × HeaderMap) :=
  (buildManifestUrl registry repository manifestDigest, manifestHeader) ::
    (blobDigests manifest).map fun digest => (buildBlobUrl registry repository digest, header)

namespace PreheatImageRequest

/-- The fields the task of a target is generated from. -/
def taskFields (request : PreheatImageRequest) (url : Str) : TaskFields where
  url
  pieceLength := request.pieceLength
  tag := request.tag
  application := request.application
  filteredQueryParams := request.filteredQueryParams
  contentForCalculatingTaskId := request.contentForCalculatingTaskId
  enableTaskIdBasedBlobDigest := request.enableTaskIdBasedBlobDigest

/-- The request a target is preheated with. -/
def preheatRequest (request : PreheatImageRequest) (target : Str × HeaderMap) : PreheatRequest where
  toTaskFields := request.taskFields target.1
  header := target.2
  priority := request.priority
  replicas := request.replicas
  scope := request.scope
  timeout := request.timeout

/-- The requests an image of a manifest is preheated with. -/
def preheatRequests (request : PreheatImageRequest) (reference : Reference) (manifestDigest : Str)
    (manifest : OciImageManifest) (manifestHeader header : HeaderMap) : List PreheatRequest :=
  (preheatTargets (resolveRegistry reference) reference.repository.toStr manifestDigest manifest
    manifestHeader header).map request.preheatRequest

end PreheatImageRequest

/-! ### The last segment of a url -/

/-- The url crate keeps the last segment of an `https` path when it is made of letters, digits and
colons. -/
structure UrlCrate.KeepsLastSegment (crate : UrlCrate) : Prop where
  path_eq : ∀ registry path segment : Str, ∀ base : UrlBase,
    registry ≠ [] → (∀ c ∈ registry, hostChar c = true) → (∀ c ∈ path, c ≠ '?' ∧ c ≠ '#') →
    (∀ c ∈ segment, (c.isAlphanum || c == ':') = true) →
    crate.parseBase ("https://".toList ++ registry ++ '/' :: path ++ '/' :: segment) = .ok base →
    ∃ front, base.path = front ++ '/' :: segment

/-- The two kinds of urls of an image. -/
def IsOciUrl (reference : Reference) (digest : HexDigest) (url : Str) : Prop :=
  url = buildManifestUrl (resolveRegistry reference) reference.repository.toStr digest.toStr ∨
    url = buildBlobUrl (resolveRegistry reference) reference.repository.toStr digest.toStr

theorem registryHost (reference : Reference) : RegistryHost (resolveRegistry reference) := by
  intro c hc
  have hhost := (resolveRegistry_host reference).2 c hc
  refine ⟨?_, ?_, ?_⟩ <;> rintro rfl <;> revert hhost <;> decide

theorem IsOciUrl.shape {reference : Reference} {digest : HexDigest} {url : Str}
    (h : IsOciUrl reference digest url) : ∃ path,
      url = "https://".toList ++ resolveRegistry reference ++ '/' :: path ++ '/' :: digest.toStr ∧
        ∀ c ∈ path, plainChar c = true := by
  have hrepository : ∀ c ∈ reference.repository.toStr, plainChar c = true := by
    intro c hc
    rcases of_mem_intercalate hc with ⟨component, hcomponent, hc⟩ | hc
    · exact plainChar_of (p := repositoryChar) (by decide) (by decide) (by decide)
        (reference.repository.grammar component hcomponent c hc)
    · rw [List.mem_singleton.mp hc]
      decide
  have hpath : ∀ name : Str, (name.all plainChar) = true →
      ∀ c ∈ "v2/".toList ++ reference.repository.toStr ++ name, plainChar c = true := by
    intro name hname c hc
    rcases List.mem_append.mp hc with hc | hc
    · rcases List.mem_append.mp hc with hc | hc
      · exact List.all_eq_true.mp (by decide : "v2/".toList.all plainChar = true) c hc
      · exact hrepository c hc
    · exact List.all_eq_true.mp hname c hc
  rcases h with rfl | rfl
  · refine ⟨"v2/".toList ++ reference.repository.toStr ++ "/manifests".toList, ?_,
      hpath _ (by decide)⟩
    unfold buildManifestUrl ociUrl
    simp only [List.append_assoc, List.cons_append]
    rfl
  · refine ⟨"v2/".toList ++ reference.repository.toStr ++ "/blobs".toList, ?_, hpath _ (by decide)⟩
    unfold buildBlobUrl ociUrl
    simp only [List.append_assoc, List.cons_append]
    rfl

theorem plainChar_ociUrl (reference : Reference) (digest : HexDigest) {path : Str}
    (hpath : ∀ c ∈ path, plainChar c = true) :
    ∀ c ∈ resolveRegistry reference ++ '/' :: path ++ '/' :: digest.toStr, plainChar c = true := by
  obtain ⟨_, hhost⟩ := resolveRegistry_host reference
  intro c hc
  rcases List.mem_append.mp hc with hc | hc
  · rcases List.mem_append.mp hc with hc | hc
    · exact plainChar_of (p := hostChar) (by decide) (by decide) (by decide) (hhost c hc)
    · rcases List.mem_cons.mp hc with rfl | hc
      · decide
      · exact hpath c hc
  · rcases List.mem_cons.mp hc with rfl | hc
    · decide
    · exact plainChar_of (p := fun c => c.isAlphanum || c == separator) (by decide) (by decide)
        (by decide) (digest.toStr_char c hc)

theorem not_delimiter_of_plainChar {c : Char} (h : plainChar c = true) : c ≠ '?' ∧ c ≠ '#' := by
  simp only [plainChar, Bool.and_eq_true, decide_eq_true_eq, bne_iff_ne] at h
  exact ⟨h.1.2, h.2⟩

theorem hasEmptyPath_plain {registry path : Str}
    (h : ∀ c ∈ registry ++ '/' :: path, plainChar c = true) :
    hasEmptyPath ("https://".toList ++ registry ++ '/' :: path) = false := by
  have hafter : afterFirst "://".toList ("https://".toList ++ registry ++ '/' :: path) =
      some (registry ++ '/' :: path) := by
    rw [List.append_assoc]
    rfl
  unfold hasEmptyPath
  rw [hafter]
  simp only
  rw [List.takeWhile_eq_self_iff.mpr fun c hc => ?_]
  · rw [Bool.not_eq_false', List.contains_iff_mem]
    simp
  · obtain ⟨hquestion, hhash⟩ := not_delimiter_of_plainChar (h c hc)
    rw [Bool.and_eq_true, bne_iff_ne, bne_iff_ne]
    exact ⟨hquestion, hhash⟩

/-- **The canonical form of an image url still ends in its digest.** -/
theorem filterQueryParams_ociUrl {crate : UrlCrate} (hcrate : crate.KeepsLastSegment)
    {reference : Reference} {digest : HexDigest} {url : Str} (hurl : IsOciUrl reference digest url)
    {filteredQueryParams : List Str} {final : Str}
    (h : filterQueryParams crate url filteredQueryParams = .ok final) :
    ∃ front, final = front ++ '/' :: digest.toStr := by
  obtain ⟨path, hshape, hpath⟩ := hurl.shape
  obtain ⟨hne, hhost⟩ := resolveRegistry_host reference
  have hrest := plainChar_ociUrl reference digest hpath
  have hplain : ∀ c ∈ url, plainChar c = true := by
    intro c hc
    rw [hshape, List.append_assoc, List.append_assoc] at hc
    rcases List.mem_append.mp hc with hc | hc
    · exact List.all_eq_true.mp (by decide : "https://".toList.all plainChar = true) c hc
    · exact hrest c (by rwa [List.append_assoc])
  unfold filterQueryParams at h
  split at h
  · exact ⟨_, (Except.ok.inj h).symm.trans hshape⟩
  · rw [Url.parse_plain crate hplain] at h
    cases hbase : crate.parseBase url with
    | error err =>
      rw [hbase] at h
      simp [Except.map] at h
    | ok base =>
      obtain ⟨front, hfront⟩ := hcrate.path_eq _ path digest.toStr base hne hhost
        (fun c hc => not_delimiter_of_plainChar (hpath c hc)) digest.toStr_char (hshape ▸ hbase)
      have hempty : hasEmptyPath url = false := by
        rw [hshape, List.append_assoc, List.cons_append]
        refine hasEmptyPath_plain fun c hc => hrest c ?_
        rwa [List.append_assoc, List.cons_append]
      rw [hbase] at h
      simp only [Except.map, hempty] at h
      have hfinal : base.beforePath ++ base.path = final := by
        have hok := Except.ok.inj h
        simpa [Url.toStr, Url.setQuery, Url.afterPath, canonicalQuery, queryPairs,
          formUrlencodedParse] using hok
      rw [← hfinal, hfront]
      exact ⟨base.beforePath ++ front, by rw [List.append_assoc]⟩

/-! ### Ids and digests -/

theorem eq_of_last_segment {front front' last last' : Str} (hlast : '/' ∉ last) (hlast' : '/' ∉ last')
    (h : front ++ '/' :: last = front' ++ '/' :: last') : last = last' := by
  have hsplit := congrArg (List.splitOn '/') h
  rw [List.splitOn_append_cons_self, List.splitOn_append_cons_self,
    List.splitOn_eq_singleton hlast, List.splitOn_eq_singleton hlast'] at hsplit
  exact (List.append_singleton_inj.mp hsplit).2

section ids
variable {crates : IdCrates} (hsha : Function.Injective crates.sha256)
  (hcrate : crates.url.KeepsLastSegment) (request : PreheatImageRequest)
  (hcontent : request.contentForCalculatingTaskId = none) {reference : Reference}
  {digest digest' : HexDigest} {url url' id : Str}
include hsha hcrate hcontent

/-- **An id belongs to one digest**, when no content is given. -/
theorem digest_of_taskId (hurl : IsOciUrl reference digest url)
    (hurl' : IsOciUrl reference digest' url') (halgorithm : digest.algorithm = digest'.algorithm)
    (hid : taskId crates (request.taskFields url) = .ok id)
    (hid' : taskId crates (request.taskFields url') = .ok id) : digest.toStr = digest'.toStr := by
  cases henable : request.enableTaskIdBasedBlobDigest with
  | true =>
    have hencoded : ∀ {digest : HexDigest} {url : Str}, IsOciUrl reference digest url →
        taskId crates (request.taskFields url) = .ok id → id = digest.encoded := by
      rintro digest url (hmanifest | hblob) hid
      · exact ((taskId_buildManifestUrl crates (registryHost reference) reference.repository digest
          hcontent henable hmanifest id).mp hid).1
      · have hok : taskId crates (request.taskFields url) = .ok digest.encoded :=
          taskId_buildBlobUrl crates (registryHost reference) reference.repository digest hcontent
            henable hblob
        exact Except.ok.inj (hid.symm.trans hok)
    unfold Digest.toStr
    rw [halgorithm, ← hencoded hurl hid, ← hencoded hurl' hid']
  | false =>
    -- the id is generated from the url, whose last segment is the digest
    have hurlBased : ∀ {digest : HexDigest} {url : Str}, IsOciUrl reference digest url →
        taskId crates (request.taskFields url) = .ok id → ∃ front,
          id = hexEncode (crates.sha256
            ((request.taskFields url).urlBased.hashed (front ++ '/' :: digest.toStr))) := by
      intro digest url hurl hid
      rw [taskId_eq_ok, taskIdParameter_urlBased hcontent henable, UrlBased.taskId_ok] at hid
      obtain ⟨final, hfinal, hid⟩ := hid
      obtain ⟨front, rfl⟩ := filterQueryParams_ociUrl hcrate hurl hfinal
      exact ⟨front, hid⟩
    obtain ⟨front, hfront⟩ := hurlBased hurl hid
    obtain ⟨front', hfront'⟩ := hurlBased hurl' hid'
    have htexts := (UrlBased.taskId_eq_iff hsha).mp (hfront.symm.trans hfront')
    have hlast : front ++ '/' :: digest.toStr = front' ++ '/' :: digest'.toStr :=
      List.append_cancel_right htexts
    exact eq_of_last_segment (digest.notMem_toStr (by decide)) (digest'.notMem_toStr (by decide))
      hlast

omit hsha hcrate in
theorem exists_taskId_iff (hurl : IsOciUrl reference digest url) :
    (∃ id, taskId crates (request.taskFields url) = .ok id) ↔
      if request.enableTaskIdBasedBlobDigest = true then
        url = buildManifestUrl (resolveRegistry reference) reference.repository.toStr digest.toStr →
          "blobs".toList ∉ reference.repository.components.tail
      else request.filteredQueryParams = [] ∨
        ∃ parsed, Url.parse crates.url url = .ok parsed := by
  by_cases henable : request.enableTaskIdBasedBlobDigest = true
  · rw [if_pos henable]
    by_cases hmanifest : url =
        buildManifestUrl (resolveRegistry reference) reference.repository.toStr digest.toStr
    · have hid : ∀ id, taskId crates (request.taskFields url) = .ok id ↔ id = digest.encoded ∧
          "blobs".toList ∉ reference.repository.components.tail :=
        taskId_buildManifestUrl crates (registryHost reference) reference.repository digest
          hcontent henable hmanifest
      simp only [hid, exists_eq_left]
      exact ⟨fun h _ => h, fun h => h hmanifest⟩
    · have hid : taskId crates (request.taskFields url) = .ok digest.encoded :=
        taskId_buildBlobUrl crates (registryHost reference) reference.repository digest hcontent
          henable (hurl.resolve_left hmanifest)
      exact iff_of_true ⟨_, hid⟩ fun h => absurd h hmanifest
  · have hdisable := Bool.eq_false_of_not_eq_true henable
    have hid : (∃ id, taskId crates (request.taskFields url) = .ok id) ↔ ∃ final,
        filterQueryParams crates.url url request.filteredQueryParams = .ok final := by
      have hparameter : taskIdParameter (request.taskFields url) =
          .urlBased (request.taskFields url).urlBased := taskIdParameter_urlBased hcontent hdisable
      simp only [taskId_eq_ok, hparameter, UrlBased.taskId_ok]
      constructor
      · rintro ⟨_, final, hfinal, _⟩
        exact ⟨final, hfinal⟩
      · rintro ⟨final, hfinal⟩
        exact ⟨_, final, hfinal, rfl⟩
    rw [if_neg henable, hid, exists_filterQueryParams_iff]

end ids

/-! ### The tasks of an image -/

/-- All ids are generated, and they are pairwise different. -/
def PairwiseDifferent (ids : List (Except Error Str)) : Prop :=
  (∀ id ∈ ids, ∃ text, id = .ok text) ∧ ids.Nodup

/-- What the ids of an image take: no content that all of them would be generated from, and when
they are the digests in the urls, a manifest url that is no blob url; else urls that can be parsed,
when they are filtered. -/
def TellsTasksApart (crate : UrlCrate) (request : PreheatImageRequest) (repository : Repository)
    (urls : List Str) : Prop :=
  request.contentForCalculatingTaskId = none ∧
    if request.enableTaskIdBasedBlobDigest = true then "blobs".toList ∉ repository.components.tail
    else request.filteredQueryParams = [] ∨ ∀ url ∈ urls, ∃ parsed, Url.parse crate url = .ok parsed

/-- The manifest, and every distinct digest of the config or a layer once. -/
def CoversImage (registry repository manifestDigest : Str) (manifest : OciImageManifest)
    (urls : List Str) : Prop :=
  ∃ digests : List Str, digests.Nodup ∧
    (∀ d, d ∈ digests ↔ d = manifest.config.digest ∨ ∃ layer ∈ manifest.layers, d = layer.digest) ∧
    urls = buildManifestUrl registry repository manifestDigest ::
      digests.map (buildBlobUrl registry repository)

theorem preheatTargets_covers (registry repository manifestDigest : Str)
    (manifest : OciImageManifest) (manifestHeader header : HeaderMap) :
    CoversImage registry repository manifestDigest manifest
      ((preheatTargets registry repository manifestDigest manifest manifestHeader header).map
        Prod.fst) := by
  refine ⟨blobDigests manifest, nodup_btreeSet _, fun d => ?_, ?_⟩
  · unfold blobDigests
    rw [mem_btreeSet, List.mem_cons, List.mem_map]
    simp only [eq_comm]
  · unfold preheatTargets
    rw [List.map_cons, List.map_map]
    rfl

theorem exists_hexDigests {blobs : List Str}
    (h : ∀ d ∈ blobs, ∃ digest : HexDigest, digest.algorithm = .sha256 ∧ d = digest.toStr) :
    ∃ digests : List HexDigest, blobs = digests.map (fun digest => digest.toStr) ∧
      ∀ digest ∈ digests, digest.algorithm = .sha256 := by
  induction blobs with
  | nil => exact ⟨[], rfl, nofun⟩
  | cons d blobs ih =>
    obtain ⟨⟨digest, halgorithm, rfl⟩, hrest⟩ := List.forall_mem_cons.mp h
    obtain ⟨digests, rfl, hall⟩ := ih hrest
    exact ⟨digest :: digests, rfl, List.forall_mem_cons.mpr ⟨halgorithm, hall⟩⟩

section
variable {crates : IdCrates} {request : PreheatImageRequest} {reference : Reference}
  {targets : List (HexDigest × Str)}

theorem content_eq_none_of_nodup {urls : List Str} (htwo : 1 < urls.length)
    (h : (urls.map fun url => taskId crates (request.taskFields url)).Nodup) :
    request.contentForCalculatingTaskId = none := by
  cases hcontent : request.contentForCalculatingTaskId with
  | none => rfl
  | some content =>
    -- all targets share the id of the content
    have hsame : (fun url => taskId crates (request.taskFields url)) = fun _ =>
        .ok (hexEncode (crates.sha256 (utf8 content))) := funext fun url => taskId_content hcontent
    rw [hsame, List.map_const', List.nodup_replicate] at h
    omega

variable (hcontent : request.contentForCalculatingTaskId = none)
  (htargets : ∀ target ∈ targets, IsOciUrl reference target.1 target.2)
include hcontent htargets

theorem exists_ids_iff (hmanifest : ∃ digest : HexDigest, (digest, buildManifestUrl
      (resolveRegistry reference) reference.repository.toStr digest.toStr) ∈ targets) :
    (∀ url ∈ targets.map Prod.snd, ∃ id, taskId crates (request.taskFields url) = .ok id) ↔
      if request.enableTaskIdBasedBlobDigest = true then
        "blobs".toList ∉ reference.repository.components.tail
      else request.filteredQueryParams = [] ∨
        ∀ url ∈ targets.map Prod.snd, ∃ parsed, Url.parse crates.url url = .ok parsed := by
  have hiff : ∀ target ∈ targets, _ := fun target hmem =>
    @exists_taskId_iff crates request hcontent _ _ _ (htargets target hmem)
  simp only [List.forall_mem_map]
  by_cases henable : request.enableTaskIdBasedBlobDigest = true
  · simp only [if_pos henable] at hiff ⊢
    constructor
    · intro h
      obtain ⟨digest, hmem⟩ := hmanifest
      exact (hiff _ hmem).mp (h _ hmem) rfl
    · intro hblobs target hmem
      exact (hiff target hmem).mpr fun _ => hblobs
  · simp only [if_neg henable] at hiff ⊢
    rw [forall₂_congr hiff]
    by_cases hparams : request.filteredQueryParams = []
    · simp only [hparams, true_or, implies_true]
    · simp only [hparams, false_or]

theorem nodup_ids (hsha : Function.Injective crates.sha256) (hcrate : crates.url.KeepsLastSegment)
    (halgorithm : ∀ target ∈ targets, target.1.algorithm = .sha256)
    (hdistinct : (targets.map fun target => target.1.toStr).Nodup)
    (hids : ∀ url ∈ targets.map Prod.snd, ∃ id, taskId crates (request.taskFields url) = .ok id) :
    ((targets.map Prod.snd).map fun url => taskId crates (request.taskFields url)).Nodup := by
  rw [List.map_map]
  refine List.Nodup.map_on (fun target hmem target' hmem' hsame => ?_) (.of_map _ hdistinct)
  refine List.inj_on_of_nodup_map hdistinct hmem hmem' ?_
  obtain ⟨id, hid⟩ := hids _ (List.mem_map_of_mem hmem)
  exact digest_of_taskId hsha hcrate request hcontent (htargets _ hmem) (htargets _ hmem')
    ((halgorithm _ hmem).trans (halgorithm _ hmem').symm) hid (hsame.symm.trans hid)

end

/-- **An image is preheated in one task for each target exactly when** no content is given that all
their ids would be generated from, and there is an id for each of them. -/
theorem preheatImage_taskIds_iff (crates : IdCrates) (hsha : Function.Injective crates.sha256)
    (hcrate : crates.url.KeepsLastSegment) (request : PreheatImageRequest) (reference : Reference)
    (manifestDigest : HexDigest) (hmanifestDigest : manifestDigest.algorithm = .sha256)
    (manifest : OciImageManifest)
    (hblobs : ∀ d ∈ blobDigests manifest, ∃ digest : HexDigest, digest.algorithm = .sha256 ∧
      d = digest.toStr)
    (hdifferent : manifestDigest.toStr ∉ blobDigests manifest) (manifestHeader header : HeaderMap) :
    let requests := request.preheatRequests reference manifestDigest.toStr manifest manifestHeader
      header
    CoversImage (resolveRegistry reference) reference.repository.toStr manifestDigest.toStr manifest
        (requests.map fun r => r.url) ∧
      (PairwiseDifferent (requests.map fun r => taskId crates r.toTaskFields) ↔
        TellsTasksApart crates.url request reference.repository
          (requests.map fun r => r.url)) := by
  intro requests
  have hurls : requests.map (fun r => r.url) = (preheatTargets (resolveRegistry reference)
      reference.repository.toStr manifestDigest.toStr manifest manifestHeader header).map
        Prod.fst := by
    simp only [requests, PreheatImageRequest.preheatRequests, List.map_map]
    rfl
  have hids : requests.map (fun r => taskId crates r.toTaskFields) =
      (requests.map fun r => r.url).map fun url => taskId crates (request.taskFields url) := by
    simp only [requests, PreheatImageRequest.preheatRequests, List.map_map]
    rfl
  refine ⟨?_, ?_⟩
  · rw [hurls]
    exact preheatTargets_covers _ _ _ _ _ _
  obtain ⟨digests, hdigests, hsha256⟩ := exists_hexDigests hblobs
  -- the targets with their digests
  let targets : List (HexDigest × Str) :=
    (manifestDigest, buildManifestUrl (resolveRegistry reference) reference.repository.toStr
      manifestDigest.toStr) :: digests.map fun digest =>
        (digest, buildBlobUrl (resolveRegistry reference) reference.repository.toStr digest.toStr)
  have hsnd : requests.map (fun r => r.url) = targets.map Prod.snd := by
    rw [hurls, preheatTargets, hdigests]
    simp only [targets, List.map_cons, List.map_map]
    rfl
  have hfst : targets.map (fun target => target.1.toStr) =
      manifestDigest.toStr :: blobDigests manifest := by
    simp only [targets, List.map_cons, List.map_map, hdigests]
    rfl
  have htargets : ∀ target ∈ targets,
      target.1.algorithm = .sha256 ∧ IsOciUrl reference target.1 target.2 := by
    rw [List.forall_mem_cons, List.forall_mem_map]
    exact ⟨⟨hmanifestDigest, .inl rfl⟩, fun digest hmem => ⟨hsha256 digest hmem, .inr rfl⟩⟩
  have hdistinct : (targets.map fun target => target.1.toStr).Nodup := by
    rw [hfst]
    exact List.nodup_cons.mpr ⟨hdifferent, nodup_btreeSet _⟩
  have htwo : 1 < (targets.map Prod.snd).length := by
    have hconfig : manifest.config.digest ∈ blobDigests manifest :=
      mem_btreeSet.mpr List.mem_cons_self
    have hpos := List.length_pos_of_mem hconfig
    rw [hdigests, List.length_map] at hpos
    simp only [targets, List.map_cons, List.length_cons, List.length_map]
    omega
  have hiff := fun hcontent => @exists_ids_iff crates request reference targets hcontent
    (fun target hmem => (htargets target hmem).2) ⟨manifestDigest, List.mem_cons_self⟩
  rw [hids, hsnd, PairwiseDifferent, List.forall_mem_map, TellsTasksApart]
  constructor
  · rintro ⟨hall, hnodup⟩
    have hcontent := content_eq_none_of_nodup htwo hnodup
    exact ⟨hcontent, (hiff hcontent).mp hall⟩
  · rintro ⟨hcontent, hcondition⟩
    have hall := (hiff hcontent).mpr hcondition
    exact ⟨hall, nodup_ids hcontent (fun target hmem => (htargets target hmem).2) hsha hcrate
      (fun target hmem => (htargets target hmem).1) hdistinct hall⟩

/-- A crate that takes an `https` url apart at the first slash of its path. -/
def httpsCrate : UrlCrate where
  parseBase text :=
    match stripPrefix "https://".toList text with
    | none => .error "relative URL without a base".toList
    | some rest =>
      if h : (rest.all fun c => c != '?' && c != '#') = true then
        .ok
          { scheme := "https".toList
            username := []
            password := none
            host := some (rest.takeWhile (· != '/'))
            port := none
            path := rest.dropWhile (· != '/')
            noDelimiter := by
              intro c hc
              have hall : ("https://".toList ++ rest).all (fun c => c != '?' && c != '#') = true := by
                rw [List.all_append, h]
                decide
              have hrest : c ∈ "https://".toList ++ rest := by
                rw [← List.takeWhile_append_dropWhile (p := (· != '/')) (l := rest)]
                simpa [UrlParts.beforePath, UrlParts.userinfo] using hc
              have hchar := List.all_eq_true.mp hall c hrest
              rwa [Bool.and_eq_true, bne_iff_ne, bne_iff_ne] at hchar }
      else .error "invalid international domain name".toList

theorem httpsCrate_keepsLastSegment : httpsCrate.KeepsLastSegment where
  path_eq registry path segment base _ hhost _ _ hbase := by
    have hslash : ∀ c ∈ registry, (c != '/') = true := by
      intro c hc
      have hchar := hhost c hc
      refine bne_iff_ne.mpr ?_
      rintro rfl
      revert hchar
      decide
    simp only [httpsCrate, List.append_assoc, stripPrefix_append] at hbase
    split at hbase
    · refine ⟨'/' :: path, ?_⟩
      rw [← Except.ok.inj hbase]
      simp only
      rw [List.dropWhile_append_of_pos hslash]
      rfl
    · simp at hbase

/-- An image of two layers with the same content. -/
def exampleManifest : OciImageManifest where
  config := ⟨(HexDigest.ofSha256 (List.replicate 64 'a') (by decide)).toStr⟩
  layers := [⟨(HexDigest.ofSha256 (List.replicate 64 'b') (by decide)).toStr⟩,
    ⟨(HexDigest.ofSha256 (List.replicate 64 'b') (by decide)).toStr⟩]

def exampleReference : Reference where
  registry := "localhost".toList
  repository := .ofComponents ["library".toList, "nginx".toList] (by decide)
  registry_ne_nil := by decide
  registry_host := List.all_eq_true.mp (by decide)

def exampleImageRequest (content : Option Str) : PreheatImageRequest where
  image := "localhost/library/nginx".toList
  username := none
  password := none
  platform := none
  pieceLength := none
  tag := none
  application := none
  filteredQueryParams := ["ns".toList]
  contentForCalculatingTaskId := content
  enableTaskIdBasedBlobDigest := true
  priority := none
  replicas := 2
  scope := .default
  timeout := 0
  concurrentTaskCount := 4

theorem blobDigests_exampleManifest : ∀ d ∈ blobDigests exampleManifest,
    ∃ digest : HexDigest, digest.algorithm = .sha256 ∧ d = digest.toStr := by
  intro d hd
  rcases List.mem_cons.mp (mem_btreeSet.mp hd) with rfl | hd
  · exact ⟨_, rfl, rfl⟩
  · obtain ⟨layer, hlayer, rfl⟩ := List.mem_map.mp hd
    simp only [exampleManifest, List.mem_cons, List.not_mem_nil, or_false, or_self] at hlayer
    rw [hlayer]
    exact ⟨_, rfl, rfl⟩

/-- At an image without content. -/
theorem preheatImage_taskIds_iff_nginx :
    let requests := (exampleImageRequest none).preheatRequests exampleReference exampleDigest.toStr
      exampleManifest [] []
    CoversImage (resolveRegistry exampleReference) exampleReference.repository.toStr
        exampleDigest.toStr exampleManifest (requests.map fun r => r.url) ∧
      PairwiseDifferent (requests.map fun r => taskId ⟨httpsCrate, id⟩ r.toTaskFields) := by
  obtain ⟨hcovers, hiff⟩ := preheatImage_taskIds_iff ⟨httpsCrate, id⟩ Function.injective_id
    httpsCrate_keepsLastSegment (exampleImageRequest none) exampleReference exampleDigest rfl
    exampleManifest blobDigests_exampleManifest (by decide +kernel) [] []
  exact ⟨hcovers, hiff.mpr ⟨rfl, (by decide : "blobs".toList ∉ ["nginx".toList])⟩⟩

/-- With a content, the manifest and the config are one task. -/
theorem not_preheatImage_taskIds :
    ¬ ∀ (crates : IdCrates) (request : PreheatImageRequest) (reference : Reference)
      (manifestDigest : HexDigest) (manifest : OciImageManifest),
      Function.Injective crates.sha256 → crates.url.KeepsLastSegment →
      request.validate = .ok () → manifestDigest.algorithm = .sha256 →
      (∀ d ∈ blobDigests manifest, ∃ digest : HexDigest, digest.algorithm = .sha256 ∧
        d = digest.toStr) →
      manifestDigest.toStr ∉ blobDigests manifest →
      (request.preheatRequests reference manifestDigest.toStr manifest [] []).Pairwise
        fun r r' => taskId crates r.toTaskFields ≠ taskId crates r'.toTaskFields := by
  intro h
  have hpairwise := h ⟨httpsCrate, id⟩ (exampleImageRequest (some "nginx".toList)) exampleReference
    exampleDigest exampleManifest Function.injective_id httpsCrate_keepsLastSegment rfl rfl
    blobDigests_exampleManifest (by decide +kernel)
  have hblobs : blobDigests exampleManifest ≠ [] := by decide +kernel
  obtain ⟨d, rest, hd⟩ := List.exists_cons_of_ne_nil hblobs
  rw [PreheatImageRequest.preheatRequests, preheatTargets, hd] at hpairwise
  exact (List.pairwise_cons.mp hpairwise).1 _ List.mem_cons_self rfl

end DragonflySdk
