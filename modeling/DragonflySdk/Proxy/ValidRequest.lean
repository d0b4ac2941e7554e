import DragonflySdk.Proxy.PreheatImage

/-!
# Task ids of valid requests

A request that `validate` accepts has a url that can be parsed, which is all that an id generated
from the url takes (`exists_filterQueryParams_iff`). An id taken from the digest in the url takes
a digest. A manifest url without one is left to its url; a blob url without one is not, and has no
task id at all (`taskId_ok_iff`).
-/

namespace DragonflySdk

open Foundation

/-- The digest an OCI url names. -/
def ociDigest (url : Str) : Option Digest :=
  (Digest.extractFromBlobUrl url).or (Digest.extractFromManifestUrl url)

/-- What the task id should be: that of the content when given, else the digest in the url when that
is enabled and there is one, else generated from the url. -/
def IsTaskId (crates : IdCrates) (task : TaskFields) (id : Str) : Prop :=
  match task.contentForCalculatingTaskId with
  | some content => id = hexEncode (crates.sha256 (utf8 content))
  | none =>
    match if task.enableTaskIdBasedBlobDigest then ociDigest task.url else none with
    | some digest => id = digest.encoded
    | none => generateTaskId crates (.urlBased task.urlBased) = .ok id

theorem GetRequest.exists_parse_eq_ok {crate : UrlCrate} {request : GetRequest}
    (h : request.validate crate = .ok ()) : ∃ parsed, Url.parse crate request.url = .ok parsed := by
  unfold GetRequest.validate at h
  split at h
  · simp at h
  · split at h
    · simp at h
    · rename_i parsed hparsed
      exact ⟨parsed, hparsed⟩

theorem isBlobUrl_of_extract {url : Str} {digest : Digest}
    (h : Digest.extractFromBlobUrl url = some digest) : isBlobUrl url = true := by
  obtain ⟨reference, hreference, _⟩ := Option.bind_eq_some_iff.mp h
  obtain ⟨captures, hcaptures, _⟩ := Option.bind_eq_some_iff.mp hreference
  rw [isBlobUrl, Regex.isMatch, hcaptures]
  rfl

theorem exists_urlBased_eq_ok {crates : IdCrates} {task : TaskFields} {parsed : Url}
    (h : Url.parse crates.url task.url = .ok parsed) :
    ∃ id, generateTaskId crates (.urlBased task.urlBased) = .ok id := by
  obtain ⟨canonical, hcanonical⟩ : ∃ canonical,
      filterQueryParams crates.url task.url task.filteredQueryParams = .ok canonical :=
    exists_filterQueryParams_iff.mpr (.inr ⟨parsed, h⟩)
  exact ⟨_, UrlBased.taskId_ok.mpr ⟨canonical, hcanonical, rfl⟩⟩

section digest
variable {crates : IdCrates} {task : TaskFields}
  (hcontent : task.contentForCalculatingTaskId = none)
include hcontent

theorem taskId_of_isBlobUrl (henable : task.enableTaskIdBasedBlobDigest = true)
    (hblob : isBlobUrl task.url = true) (id : Str) :
    taskId crates task = .ok id ↔
      ∃ digest, Digest.extractFromBlobUrl task.url = some digest ∧ id = digest.encoded := by
  rw [taskId_eq_ok]
  unfold taskIdParameter
  rw [hcontent, henable, hblob]
  show generateTaskId crates (.blobDigestBased task.url) = .ok id ↔ _
  rw [generateTaskId]
  cases Digest.extractFromBlobUrl task.url <;> simp [eq_comm]

theorem taskId_of_not_isBlobUrl
    (hblob : task.enableTaskIdBasedBlobDigest = true → isBlobUrl task.url = false) (id : Str) :
    taskId crates task = .ok id ↔ IsTaskId crates task id := by
  rw [taskId_eq_ok]
  unfold taskIdParameter IsTaskId
  rw [hcontent]
  simp only
  cases henable : task.enableTaskIdBasedBlobDigest with
  | false => rfl
  | true =>
    have hnoBlob : Digest.extractFromBlobUrl task.url = none := by
      rw [Option.eq_none_iff_forall_ne_some]
      intro digest hdigest
      rw [isBlobUrl_of_extract hdigest] at hblob
      simp [henable] at hblob
    rw [hblob henable, ociDigest, hnoBlob, Option.none_or]
    simp only [Bool.and_false, Bool.true_and, if_true, isManifestDigestUrl]
    rw [if_neg Bool.false_ne_true]
    cases hmanifest : Digest.extractFromManifestUrl task.url with
    | none => rfl
    | some digest =>
      simp only [Option.isSome_some, if_true, generateTaskId, hmanifest, Except.ok.injEq]
      exact eq_comm

end digest

/-- **A valid request has the task id it should have**, unless its url is taken for that of a blob
and names no digest. -/
theorem taskId_ok_iff (crates : IdCrates) (request : GetRequest)
    (hvalid : request.validate crates.url = .ok ()) :
    (∃ id, taskId crates request.toTaskFields = .ok id ∧
        IsTaskId crates request.toTaskFields id) ↔
      request.contentForCalculatingTaskId ≠ none ∨ request.enableTaskIdBasedBlobDigest = false ∨
        isBlobUrl request.url = false ∨ (Digest.extractFromBlobUrl request.url).isSome = true := by
  obtain ⟨parsed, hparsed⟩ := GetRequest.exists_parse_eq_ok hvalid
  obtain ⟨urlId, hurlId⟩ := exists_urlBased_eq_ok
    (show Url.parse crates.url request.toTaskFields.url = .ok parsed from hparsed)
  cases hcontent : request.contentForCalculatingTaskId with
  | some content =>
    refine ⟨fun _ => Or.inl (by simp), fun _ => ⟨_, taskId_content hcontent, ?_⟩⟩
    rw [IsTaskId, hcontent]
  | none =>
    by_cases hblob : request.enableTaskIdBasedBlobDigest = true ∧ isBlobUrl request.url = true
    · obtain ⟨henable, hblob⟩ := hblob
      simp only [taskId_of_isBlobUrl hcontent henable hblob, henable, hblob, ne_eq,
        not_true_eq_false, false_or, Bool.true_eq_false, Option.isSome_iff_exists]
      constructor
      · intro h
        obtain ⟨_, ⟨digest, hdigest, _⟩, _⟩ := h
        exact ⟨digest, hdigest⟩
      · intro h
        obtain ⟨digest, hdigest⟩ := h
        refine ⟨digest.encoded, ⟨digest, hdigest, rfl⟩, ?_⟩
        rw [IsTaskId, hcontent]
        simp only [henable, if_true, ociDigest, hdigest, Option.some_or]
    · have hnot : request.enableTaskIdBasedBlobDigest = true → isBlobUrl request.url = false :=
        fun henable => Bool.eq_false_of_not_eq_true fun hmatch => hblob ⟨henable, hmatch⟩
      have hright : request.enableTaskIdBasedBlobDigest = false ∨ isBlobUrl request.url = false := by
        cases henable : request.enableTaskIdBasedBlobDigest with
        | false => exact Or.inl rfl
        | true => exact Or.inr (hnot henable)
      refine ⟨fun _ => Or.inr (hright.imp_right Or.inl), fun _ => ?_⟩
      -- there is an id: that of a manifest digest, or that of the url
      have hexists : ∃ id, IsTaskId crates request.toTaskFields id := by
        unfold IsTaskId
        rw [hcontent]
        simp only
        split
        · exact ⟨_, rfl⟩
        · exact ⟨urlId, hurlId⟩
      obtain ⟨id, hid⟩ := hexists
      exact ⟨id, (taskId_of_not_isBlobUrl hcontent hnot id).mpr hid, hid⟩

/-- A request for a url, with everything else as it is by default. -/
def requestFor (url : Str) : GetRequest where
  toTaskFields := { exampleTask with url := url }
  header := []
  priority := none
  replicas := 2
  timeout := 600 * 1000000000

/-- Third-party code that takes `https` urls, with a hash that keeps its input. -/
def httpsCrates : IdCrates := ⟨httpsCrate, id⟩

/-- At a manifest by its tag, whose id is that of the url. -/
theorem taskId_ok_iff_tag :
    let request := requestFor "https://localhost:5000/v2/nginx/manifests/latest".toList
    (∃ id, taskId httpsCrates request.toTaskFields = .ok id ∧
        IsTaskId httpsCrates request.toTaskFields id) ↔
      request.contentForCalculatingTaskId ≠ none ∨ request.enableTaskIdBasedBlobDigest = false ∨
        isBlobUrl request.url = false ∨ (Digest.extractFromBlobUrl request.url).isSome = true :=
  taskId_ok_iff httpsCrates
    (requestFor "https://localhost:5000/v2/nginx/manifests/latest".toList) (by decide +kernel)

/-- A file below `/v2/` and `/blobs/` that is no blob of an image. -/
theorem not_taskId_ok :
    ¬ ∀ (crates : IdCrates) (request : GetRequest), request.validate crates.url = .ok () →
      ∃ id, taskId crates request.toTaskFields = .ok id ∧
        IsTaskId crates request.toTaskFields id := by
  intro h
  obtain ⟨id, hid, _⟩ := h httpsCrates
    (requestFor "https://localhost:5000/v2/nginx/blobs/latest".toList) (by decide +kernel)
  have herror : taskId httpsCrates
      (requestFor "https://localhost:5000/v2/nginx/blobs/latest".toList).toTaskFields =
      Except.error (.internalOf "failed to generate task id: ".toList
        (.invalidArgument "https://localhost:5000/v2/nginx/blobs/latest".toList)) := by
    decide +kernel
  rw [herror] at hid
  simp at hid

end DragonflySdk
