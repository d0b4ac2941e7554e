import DragonflySdk.IdGenerator
import DragonflySdk.Oci
import DragonflySdk.Request

/-!
# The task a request addresses

`Proxy::task_id` of `lib.rs` chooses what the id is generated from: the content when given, else the
digest in an OCI url when that is enabled, else the url and its metadata.

A blob url of an image round-trips to its digest. So does a manifest url, unless it is a blob url as
well, which is tried first and has no digest (`taskId_ociUrl_iff`).
-/

namespace DragonflySdk

open Foundation

/-- The fields of an id generated from the url and its metadata. -/
def TaskFields.urlBased (task : TaskFields) : UrlBased where
  url := task.url
  pieceLength := task.pieceLength
  tag := task.tag
  application := task.application
  filteredQueryParams := task.filteredQueryParams
  revision := none

/-- What the task id of a request is generated from. -/
def taskIdParameter (task : TaskFields) : TaskIdParameter :=
  match task.contentForCalculatingTaskId with
  | some content => .content content
  | none =>
    if task.enableTaskIdBasedBlobDigest && isBlobUrl task.url then .blobDigestBased task.url
    else if task.enableTaskIdBasedBlobDigest && isManifestDigestUrl task.url then
      .manifestDigestBased task.url
    else .urlBased task.urlBased

/-- Generates the task id of the url with the request parameters. -/
def taskId (crates : IdCrates) (task : TaskFields) : Except Error Str :=
  (generateTaskId crates (taskIdParameter task)).mapError
    (.internalOf "failed to generate task id: ".toList)

theorem taskId_eq_ok {crates : IdCrates} {task : TaskFields} {id : Str} :
    taskId crates task = .ok id ↔ generateTaskId crates (taskIdParameter task) = .ok id := by
  unfold taskId
  cases generateTaskId crates (taskIdParameter task) <;> simp [Except.mapError]

theorem taskId_content {crates : IdCrates} {task : TaskFields} {content : Str}
    (h : task.contentForCalculatingTaskId = some content) :
    taskId crates task = .ok (hexEncode (crates.sha256 (utf8 content))) := by
  rw [taskId_eq_ok, taskIdParameter, h]
  rfl

theorem taskIdParameter_urlBased {task : TaskFields}
    (hcontent : task.contentForCalculatingTaskId = none)
    (henable : task.enableTaskIdBasedBlobDigest = false) :
    taskIdParameter task = .urlBased task.urlBased := by
  unfold taskIdParameter
  rw [hcontent, henable]
  rfl

/-! ### OCI urls -/

section oci
variable (crates : IdCrates) {registry : Str} (hregistry : RegistryHost registry)
  (repository : Repository) (digest : HexDigest) {task : TaskFields}
  (hcontent : task.contentForCalculatingTaskId = none)
  (henable : task.enableTaskIdBasedBlobDigest = true)
include hregistry hcontent henable

theorem taskId_buildBlobUrl
    (hurl : task.url = buildBlobUrl registry repository.toStr digest.toStr) :
    taskId crates task = .ok digest.encoded := by
  have hblob : (task.enableTaskIdBasedBlobDigest && isBlobUrl task.url) = true := by
    rw [henable, hurl, isBlobUrl_buildBlobUrl hregistry]
    rfl
  rw [taskId_eq_ok]
  unfold taskIdParameter
  rw [hcontent]
  simp only [hblob, if_true]
  rw [generateTaskId, hurl, extractFromBlobUrl_buildBlobUrl hregistry]

theorem taskId_buildManifestUrl
    (hurl : task.url = buildManifestUrl registry repository.toStr digest.toStr) (id : Str) :
    taskId crates task = .ok id ↔
      id = digest.encoded ∧ "blobs".toList ∉ repository.components.tail := by
  rw [taskId_eq_ok, ← isBlobUrl_buildManifestUrl_iff hregistry repository digest, ← hurl]
  unfold taskIdParameter
  rw [hcontent, henable]
  simp only [Bool.true_and]
  by_cases hblob : isBlobUrl task.url = true
  · -- recognized as a blob url first, without a digest
    rw [if_pos hblob, generateTaskId, hurl, extractFromBlobUrl_buildManifestUrl hregistry]
    simp only [reduceCtorEq, false_iff, not_and, not_not]
    exact fun _ => hurl ▸ hblob
  · have hmanifest : isManifestDigestUrl task.url = true := by
      rw [isManifestDigestUrl, hurl, extractFromManifestUrl_buildManifestUrl hregistry]
      rfl
    rw [if_neg hblob, if_pos hmanifest, generateTaskId, hurl,
      extractFromManifestUrl_buildManifestUrl hregistry]
    rw [hurl] at hblob
    simp [hblob, eq_comm]

end oci

/-- **The task ids of an image's urls are its digests**, unless `blobs` is a component of the
repository after the first one. -/
theorem taskId_ociUrl_iff (crates : IdCrates) (registry : Str) (hregistry : RegistryHost registry)
    (repository : Repository) (digest : HexDigest) (task : TaskFields)
    (hcontent : task.contentForCalculatingTaskId = none)
    (henable : task.enableTaskIdBasedBlobDigest = true) :
    taskId crates { task with url := buildBlobUrl registry repository.toStr digest.toStr }
          = .ok digest.encoded ∧
        taskId crates { task with url := buildManifestUrl registry repository.toStr digest.toStr }
          = .ok digest.encoded ↔
      "blobs".toList ∉ repository.components.tail := by
  have hblob : taskId crates
      { task with url := buildBlobUrl registry repository.toStr digest.toStr } = .ok digest.encoded :=
    taskId_buildBlobUrl crates hregistry repository digest hcontent henable rfl
  have hmanifest := fun task' (h : task' =
      { task with url := buildManifestUrl registry repository.toStr digest.toStr }) =>
    @taskId_buildManifestUrl crates registry hregistry repository digest task' (h ▸ hcontent)
      (h ▸ henable) (h ▸ rfl) digest.encoded
  rw [hmanifest _ rfl]
  exact ⟨fun h => h.2.2, fun h => ⟨hblob, rfl, h⟩⟩

/-- The digest of an image layer. -/
def exampleDigest : HexDigest :=
  .ofSha256 "b2c366cce7e68013d5441c6326d5a3e1b12aeb5ed58564d0fd3fa089bc29cb6e".toList (by decide)

/-- A request for the digest of a url. -/
def exampleTask : TaskFields where
  url := []
  pieceLength := none
  tag := none
  application := none
  filteredQueryParams := []
  contentForCalculatingTaskId := none
  enableTaskIdBasedBlobDigest := true

/-- At an image of two components. -/
theorem taskId_ociUrl_iff_nginx :
    let repository : Repository := .ofComponents ["library".toList, "nginx".toList] (by decide)
    taskId identityCrates { exampleTask with
            url := buildBlobUrl "localhost:5000".toList repository.toStr exampleDigest.toStr }
          = .ok exampleDigest.encoded ∧
        taskId identityCrates { exampleTask with
            url := buildManifestUrl "localhost:5000".toList repository.toStr exampleDigest.toStr }
          = .ok exampleDigest.encoded ↔
      "blobs".toList ∉ repository.components.tail :=
  taskId_ociUrl_iff identityCrates "localhost:5000".toList (.ofAll (by decide)) _ exampleDigest
    exampleTask rfl rfl

/-- A repository with a component `blobs`: its manifest has no task id. -/
theorem not_taskId_ociUrl :
    ¬ ∀ (crates : IdCrates) (registry : Str), RegistryHost registry →
      ∀ (repository : Repository) (digest : HexDigest) (task : TaskFields),
        task.contentForCalculatingTaskId = none → task.enableTaskIdBasedBlobDigest = true →
        taskId crates { task with url := buildBlobUrl registry repository.toStr digest.toStr }
            = .ok digest.encoded ∧
          taskId crates { task with url := buildManifestUrl registry repository.toStr digest.toStr }
            = .ok digest.encoded := by
  intro h
  have hmanifest := (h identityCrates "localhost:5000".toList (.ofAll (by decide))
    (.ofComponents ["team".toList, "blobs".toList, "app".toList] (by decide)) exampleDigest
    exampleTask rfl rfl).2
  revert hmanifest
  decide +kernel

end DragonflySdk
