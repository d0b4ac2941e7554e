import DragonflySdk.Digest
import DragonflySdk.Foundation.StableSort
import Mathlib.Data.List.Dedup

/-!
# OCI urls

`oci.rs`: the urls of the blobs and the manifest of an image, and the digests of its blobs.

The urls are read back by the patterns of `Digest`. A url of a segment always gives its own reference
back (`reference_ociUrl`). A manifest url is *also* a blob url as soon as its repository has a
component `blobs` after the first one (`isBlobUrl_buildManifestUrl_iff`), and then no digest can be
extracted from it as a blob url.
-/

namespace DragonflySdk

open Foundation

/-! ### Building urls -/

/-- `https://{registry}/v2/{repository}{segment}{reference}` -/
def ociUrl (segment registry repository reference : Str) : Str :=
  "https://".toList ++ registry ++ "/v2/".toList ++ repository ++ segment ++ reference

/-- Builds the blob URL for the given registry, repository and digest. -/
def buildBlobUrl (registry repository digest : Str) : Str :=
  ociUrl "/blobs/".toList registry repository digest

/-- Builds the manifest URL for the given registry, repository and reference. -/
def buildManifestUrl (registry repository reference : Str) : Str :=
  ociUrl "/manifests/".toList registry repository reference

structure OciDescriptor where
  digest : Str

structure OciImageManifest where
  config : OciDescriptor
  layers : List OciDescriptor

/-- A `BTreeSet` of texts, as the sorted list of its elements. -/
def btreeSet (l : List Str) : List Str := sortByKey textOrder l.dedup

/-- Collects the distinct digests of the config and the layers of the manifest in sorted order. -/
def blobDigests (manifest : OciImageManifest) : List Str :=
  btreeSet (manifest.config.digest :: manifest.layers.map (·.digest))

theorem mem_btreeSet {s : Str} {l : List Str} : s ∈ btreeSet l ↔ s ∈ l := by
  rw [btreeSet, mem_sortByKey, List.mem_dedup]

theorem nodup_btreeSet (l : List Str) : (btreeSet l).Nodup :=
  (sortByKey_perm textOrder l.dedup).nodup_iff.mpr (List.nodup_dedup l)

/-! ### The grammar of repositories and digests -/

/-- A character of a component of a repository. -/
def repositoryChar (c : Char) : Bool := c.isLower || c.isDigit || c == '.' || c == '_' || c == '-'

/-- A repository name: components joined by `/`. -/
structure Repository where
  components : List Str
  grammar : ∀ component ∈ components, ∀ c ∈ component, repositoryChar c = true

/-- The repository of components in the grammar. -/
def Repository.ofComponents (components : List Str)
    (h : (components.all fun component => component.all repositoryChar) = true) : Repository where
  components
  grammar component hcomponent c hc :=
    List.all_eq_true.mp (List.all_eq_true.mp h component hcomponent) c hc

def Repository.toStr (repository : Repository) : Str := ['/'].intercalate repository.components

/-- A character of a registry host. -/
def hostChar (c : Char) : Bool :=
  c.isAlphanum || c == '.' || c == '-' || c == '_' || c == ':' || c == '[' || c == ']'

/-- `oci_client::Reference` -/
structure Reference where
  registry : Str
  repository : Repository
  registry_ne_nil : registry ≠ []
  registry_host : ∀ c ∈ registry, hostChar c = true

/-- Resolves the registry host of the image reference. -/
def resolveRegistry (reference : Reference) : Str :=
  if reference.registry = "docker.io".toList then "registry-1.docker.io".toList
  else reference.registry

theorem resolveRegistry_host (reference : Reference) :
    resolveRegistry reference ≠ [] ∧ ∀ c ∈ resolveRegistry reference, hostChar c = true := by
  unfold resolveRegistry
  split
  · exact ⟨by decide, List.all_eq_true.mp (by decide)⟩
  · exact ⟨reference.registry_ne_nil, reference.registry_host⟩

def hexChar (c : Char) : Bool :=
  c.isDigit || ('a' ≤ c && c ≤ 'f') || ('A' ≤ c && c ≤ 'F')

/-- `sha256:<64 hex>` or `sha512:<128 hex>` -/
structure HexDigest extends Digest where
  hex : ∀ c ∈ encoded, hexChar c = true
  length_eq : algorithm = .sha256 ∧ encoded.length = 64 ∨
    algorithm = .sha512 ∧ encoded.length = 128

/-- The sha256 digest of 64 hex digits. -/
def HexDigest.ofSha256 (encoded : Str)
    (h : (encoded.length == 64 && encoded.all hexChar) = true) : HexDigest where
  algorithm := .sha256
  encoded
  hex := List.all_eq_true.mp (Bool.and_eq_true_iff.mp h).2
  length_eq := .inl ⟨rfl, beq_iff_eq.mp (Bool.and_eq_true_iff.mp h).1⟩

theorem Repository.splitOn_toStr (repository : Repository) :
    ∃ first rest, repository.toStr.splitOn '/' = first :: rest ∧
      rest = repository.components.tail ∧
      ∀ part ∈ first :: rest, ∀ c ∈ part, repositoryChar c = true := by
  obtain ⟨components, grammar⟩ := repository
  have hslash : ∀ part ∈ components, '/' ∉ part := fun part hpart hmem =>
    absurd (grammar part hpart '/' hmem) (by decide)
  cases components with
  | nil => exact ⟨[], [], rfl, rfl, by simp⟩
  | cons first rest =>
    exact ⟨first, rest, List.splitOn_intercalate '/' hslash (by simp), rfl, grammar⟩

theorem repositoryChar_ne {c d : Char} (hc : repositoryChar c = true) (hd : repositoryChar d = false) :
    c ≠ d := by
  rintro rfl
  rw [hc] at hd
  simp at hd

namespace HexDigest
variable (digest : HexDigest)

theorem hexChar_ascii {c : Char} (hc : hexChar c = true) : c.toNat < 128 := by
  have hle : c ≤ 'f' := by
    simp only [hexChar, Char.isDigit, Bool.or_eq_true, Bool.and_eq_true, decide_eq_true_eq] at hc
    rcases hc with (h | h) | h
    · exact le_trans (show c ≤ '9' from h.2) (by decide)
    · exact h.2
    · exact le_trans h.2 (by decide)
  have hf : c.toNat ≤ 'f'.toNat := hle
  have : 'f'.toNat = 102 := by decide
  omega

theorem encoded_ascii : ∀ c ∈ digest.encoded, c.toNat < 128 :=
  fun c hc => hexChar_ascii (digest.hex c hc)

/-- **A supported digest is read back.** -/
theorem fromStr_toStr : Digest.fromStr digest.toStr = .ok digest.toDigest := by
  have hlength := utf8_length_of_ascii digest.encoded_ascii
  obtain ⟨⟨algorithm, encoded⟩, hhex, hlen⟩ := digest
  simp only at hlength hlen
  have hsplit : ∀ algorithm : Algorithm, separator ∉ algorithm.toStr →
      splitOnce separator (Digest.toStr ⟨algorithm, encoded⟩) = some (algorithm.toStr, encoded) :=
    fun algorithm hnot => splitOnce_append separator hnot encoded
  rcases hlen with ⟨rfl, hlen⟩ | ⟨rfl, hlen⟩
  · have hok : (utf8 encoded).length = 64 := hlength.trans hlen
    simp only [Digest.fromStr, hsplit .sha256 (by decide), hok]
    rfl
  · have hok : (utf8 encoded).length = 128 := hlength.trans hlen
    simp only [Digest.fromStr, hsplit .sha512 (by decide), hok]
    rfl

theorem toStr_ne_nil : digest.toStr ≠ [] := by
  unfold Digest.toStr
  simp

theorem toStr_char : ∀ c ∈ digest.toStr, (c.isAlphanum || c == separator) = true := by
  have hhex : ∀ n : Fin 128, hexChar (Char.ofNat n) = true → (Char.ofNat n).isAlphanum = true := by
    decide
  have hname : ∀ algorithm : Algorithm, algorithm.toStr.all Char.isAlphanum = true := by
    intro algorithm
    cases algorithm <;> decide
  intro c hc
  rcases List.mem_append.mp hc with hc | hc
  · rw [List.all_eq_true.mp (hname _) c hc]
    rfl
  · rcases List.mem_cons.mp hc with rfl | hc
    · decide
    · have hchar := digest.hex c hc
      have halphanum := hhex ⟨c.toNat, hexChar_ascii hchar⟩
      rw [Char.ofNat_toNat] at halphanum
      rw [halphanum hchar]
      rfl

theorem notMem_toStr {c : Char} (hc : (c.isAlphanum || c == separator) = false) :
    c ∉ digest.toStr := by
  intro hmem
  rw [digest.toStr_char c hmem] at hc
  simp at hc

end HexDigest

/-! ### Reading urls back -/

theorem referenceAt_of_notMem {d : Str} (hne : d ≠ []) (hd : '?' ∉ d) : referenceAt d = some d := by
  have hquery : ∀ c ∈ d, notQuery c = true := fun c hc => bne_iff_ne.mpr fun h => hd (h ▸ hc)
  rw [referenceAt, List.takeWhile_eq_self_iff.mpr hquery, List.dropWhile_eq_nil_iff.mpr hquery]
  simp [hne]

theorem lastReference_segment {name d : Str} (hname : '/' ∉ name) (hd : '/' ∉ d) (hne : d ≠ [])
    (hquery : '?' ∉ d) :
    lastReference ('/' :: name ++ ['/']) ('/' :: name ++ ['/'] ++ d) = some d := by
  have hcount : ('/' :: name ++ ['/']).count '/' = 2 := by
    simp [List.count_eq_zero_of_not_mem hname]
  have hnone : lastSuffix (referenceAfter ('/' :: name ++ ['/'])) (name ++ ['/'] ++ d) = none := by
    refine lastSuffix_eq_none fun rest hrest => ?_
    rw [referenceAfter]
    cases hstrip : stripPrefix ('/' :: name ++ ['/']) rest with
    | none => rfl
    | some t =>
      -- the segment has two slashes, a proper suffix at most one
      have hle := hrest.sublist.count_le '/'
      rw [stripPrefix_eq_some hstrip, List.count_append, hcount, List.count_append,
        List.count_append, List.count_eq_zero_of_not_mem hname,
        List.count_eq_zero_of_not_mem hd] at hle
      simp only [List.count_singleton_self, Nat.zero_add, Nat.add_zero] at hle
      omega
  unfold lastReference
  have hshape : '/' :: name ++ ['/'] ++ d = '/' :: (name ++ ['/'] ++ d) := rfl
  rw [hshape, lastSuffix, hnone, ← hshape, referenceAfter, stripPrefix_append]
  exact referenceAt_of_notMem hne hquery

theorem hasRegistry_ociUrl (registry path : Str) :
    HasRegistry ("https://".toList ++ registry ++ "/v2/".toList ++ path) :=
  ⟨"https".toList, registry, path, by simp⟩

/-- The characters a registry host does not have. -/
def RegistryHost (registry : Str) : Prop := ∀ c ∈ registry, c ≠ '/' ∧ c ≠ '?' ∧ c ≠ '\n'

theorem RegistryHost.ofAll {registry : Str}
    (h : (registry.all fun c => c != '/' && c != '?' && c != '\n') = true) :
    RegistryHost registry := by
  intro c hc
  have hchar := List.all_eq_true.mp h c hc
  simpa [and_assoc] using hchar

section oci
variable {registry : Str} (hregistry : RegistryHost registry) (repository : Repository)
  (digest : HexDigest)

theorem Repository.notMem_toStr {c : Char} (hc : repositoryChar c = false) (hslash : c ≠ '/') :
    c ∉ repository.toStr := by
  intro hmem
  rcases of_mem_intercalate hmem with ⟨component, hcomponent, hmem⟩ | hmem
  · exact repositoryChar_ne (repository.grammar component hcomponent c hmem) hc rfl
  · exact hslash (List.mem_singleton.mp hmem)

include hregistry in
theorem notMem_ociUrl (segment : Str) {c : Char} (hc : c = '?' ∨ c = '\n') (hsegment : c ∉ segment) :
    c ∉ ociUrl segment registry repository.toStr digest.toStr := by
  have hother : c ∉ "https://".toList ∧ c ∉ "/v2/".toList ∧ repositoryChar c = false ∧ c ≠ '/' ∧
      (c.isAlphanum || c == separator) = false := by
    rcases hc with rfl | rfl <;> decide +kernel
  obtain ⟨hscheme, hversion, hrepository, hslash, hdigest⟩ := hother
  have hhost : c ∉ registry := by
    intro hmem
    rcases hc with rfl | rfl
    · exact (hregistry _ hmem).2.1 rfl
    · exact (hregistry _ hmem).2.2 rfl
  have happend : ∀ {s t : Str}, c ∉ s → c ∉ t → c ∉ s ++ t := fun hs ht hmem =>
    (List.mem_append.mp hmem).elim hs ht
  unfold ociUrl
  exact happend (happend (happend (happend (happend hscheme hhost) hversion)
    (repository.notMem_toStr hrepository hslash)) hsegment) (digest.notMem_toStr hdigest)

theorem dot_of_notMem {s : Str} (hs : '\n' ∉ s) : ∀ c ∈ s, dot c = true :=
  fun _ hc => bne_iff_ne.mpr fun h => hs (h ▸ hc)

include hregistry in
/-- **A url of a segment gives its reference back.** -/
theorem reference_ociUrl (name : Str) (hname : '/' ∉ name) (hline : '\n' ∉ name) :
    reference ('/' :: name ++ ['/'])
      (ociUrl ('/' :: name ++ ['/']) registry repository.toStr digest.toStr) = some digest.toStr := by
  have hdigest : '/' ∉ digest.toStr ∧ '?' ∉ digest.toStr :=
    ⟨digest.notMem_toStr (by decide), digest.notMem_toStr (by decide)⟩
  have hdot := dot_of_notMem (notMem_ociUrl hregistry repository digest ('/' :: name ++ ['/'])
    (.inr rfl) (by simp [hline]))
  have hlast := lastReference_segment hname hdigest.1 digest.toStr_ne_nil hdigest.2
  have hwhole : lastReference ('/' :: name ++ ['/'])
      (ociUrl ('/' :: name ++ ['/']) registry repository.toStr digest.toStr) = some digest.toStr := by
    unfold ociUrl
    rw [List.append_assoc]
    exact lastSuffix_of_append hlast _
  have hsome : (reference ('/' :: name ++ ['/'])
      (ociUrl ('/' :: name ++ ['/']) registry repository.toStr digest.toStr)).isSome = true := by
    refine (reference_isSome hdot).mpr
      ⟨_, '/' :: name ++ ['/'] ++ digest.toStr, ?_, hasRegistry_ociUrl registry repository.toStr, ?_⟩
    · unfold ociUrl
      rw [List.append_assoc]
    · rw [referenceAfter, stripPrefix_append, Option.bind_some,
        referenceAt_of_notMem digest.toStr_ne_nil hdigest.2]
      rfl
  obtain ⟨e, he⟩ := Option.isSome_iff_exists.mp hsome
  rw [he, ← lastReference_of_reference hdot he, hwhole]

include hregistry in
theorem extractFromBlobUrl_buildBlobUrl :
    Digest.extractFromBlobUrl (buildBlobUrl registry repository.toStr digest.toStr)
      = some digest.toDigest := by
  have h := reference_ociUrl hregistry repository digest "blobs".toList (by decide) (by decide)
  rw [Digest.extractFromBlobUrl, blobUrlRegex, extract_eq]
  show (reference blobSegment (ociUrl blobSegment _ _ _)).bind _ = _
  rw [show blobSegment = '/' :: "blobs".toList ++ ['/'] from rfl, h, Option.bind_some,
    digest.fromStr_toStr]
  rfl

include hregistry in
theorem isBlobUrl_buildBlobUrl :
    isBlobUrl (buildBlobUrl registry repository.toStr digest.toStr) = true := by
  have hline := notMem_ociUrl hregistry repository digest blobSegment (.inr rfl) (by decide)
  have h := reference_ociUrl hregistry repository digest "blobs".toList (by decide) (by decide)
  unfold buildBlobUrl isBlobUrl blobUrlRegex
  rw [show "/blobs/".toList = blobSegment from rfl, isMatch_eq blobSegment (dot_of_notMem hline)]
  show (reference blobSegment (ociUrl blobSegment _ _ _)).isSome = _
  rw [show blobSegment = '/' :: "blobs".toList ++ ['/'] from rfl, h]
  rfl

include hregistry in
theorem extractFromManifestUrl_buildManifestUrl :
    Digest.extractFromManifestUrl (buildManifestUrl registry repository.toStr digest.toStr)
      = some digest.toDigest := by
  have h := reference_ociUrl hregistry repository digest "manifests".toList (by decide) (by decide)
  rw [Digest.extractFromManifestUrl, manifestUrlRegex, extract_eq]
  show (reference manifestSegment (ociUrl manifestSegment _ _ _)).bind _ = _
  rw [show manifestSegment = '/' :: "manifests".toList ++ ['/'] from rfl, h, Option.bind_some,
    digest.fromStr_toStr]
  rfl

/-! ### Manifest urls that are blob urls -/

theorem splitOn_buildManifestUrl (hslash : '/' ∉ registry) :
    ∃ first, (buildManifestUrl registry repository.toStr digest.toStr).splitOn '/'
      = ["https:".toList, [], registry, "v2".toList] ++
        (first :: repository.components.tail ++ ["manifests".toList, digest.toStr]) ∧
      ∀ part ∈ first :: repository.components.tail, ∀ c ∈ part, repositoryChar c = true := by
  obtain ⟨first, rest, hsplit, rfl, hchar⟩ := repository.splitOn_toStr
  refine ⟨first, ?_, hchar⟩
  have hshape : buildManifestUrl registry repository.toStr digest.toStr
      = "https:".toList ++ '/' :: ([] ++ '/' :: (registry ++ '/' :: ("v2".toList ++ '/' ::
        (repository.toStr ++ '/' :: ("manifests".toList ++ '/' :: digest.toStr))))) := by
    unfold buildManifestUrl ociUrl
    simp only [List.append_assoc]
    rfl
  have hdigest : '/' ∉ digest.toStr := digest.notMem_toStr (by decide)
  rw [hshape, List.splitOn_append_cons_self, List.splitOn_append_cons_self,
    List.splitOn_append_cons_self, List.splitOn_append_cons_self, List.splitOn_append_cons_self,
    List.splitOn_append_cons_self, hsplit, List.splitOn_eq_singleton hslash,
    List.splitOn_eq_singleton hdigest]
  rfl

theorem HasRegistry.length_splitOn {s : Str} (h : HasRegistry s) : 5 ≤ (s.splitOn '/').length := by
  obtain ⟨a, b, c, rfl⟩ := h
  have hshape : a ++ "://".toList ++ b ++ "/v2/".toList ++ c
      = a ++ ":".toList ++ '/' :: ([] ++ '/' :: (b ++ '/' :: ("v2".toList ++ '/' :: c))) := by
    simp
  have hpos : ∀ t : Str, 0 < (t.splitOn '/').length := fun t =>
    List.length_pos_of_ne_nil (List.splitOn_ne_nil '/' t)
  rw [hshape, List.splitOn_append_cons_self, List.splitOn_append_cons_self,
    List.splitOn_append_cons_self, List.splitOn_append_cons_self]
  simp only [List.length_append]
  have h₁ := hpos (a ++ ":".toList)
  have h₂ := hpos b
  have h₃ := hpos c
  have h₄ : (List.splitOn '/' []).length = 1 := rfl
  have h₅ : ("v2".toList.splitOn '/').length = 1 := rfl
  omega

/-- What follows a blob segment in a manifest url ends in the manifest part, with no colon before it;
and the segment is in the repository if a registry comes before it. -/
theorem parts_after_blobs (hslash : '/' ∉ registry) {pre rest : Str}
    (h : buildManifestUrl registry repository.toStr digest.toStr = pre ++ blobSegment ++ rest) :
    ∃ parts, rest.splitOn '/' = parts ++ ["manifests".toList, digest.toStr] ∧
      (∀ part ∈ parts, ∀ c ∈ part, repositoryChar c = true) ∧
      (5 ≤ (pre.splitOn '/').length → "blobs".toList ∈ repository.components.tail) := by
  obtain ⟨first, hsplit, hchar⟩ := splitOn_buildManifestUrl repository digest hslash
  have hparts : (buildManifestUrl registry repository.toStr digest.toStr).splitOn '/'
      = pre.splitOn '/' ++ "blobs".toList :: rest.splitOn '/' := by
    have hshape : pre ++ blobSegment ++ rest = pre ++ '/' :: ("blobs".toList ++ '/' :: rest) := by
      rw [List.append_assoc]
      rfl
    rw [h, hshape, List.splitOn_append_cons_self, List.splitOn_append_cons_self]
    rfl
  rw [hparts] at hsplit
  have hmanifests : "manifests".toList ≠ "blobs".toList := by decide
  have hdigest : digest.toStr ≠ "blobs".toList := by
    intro heq
    have hmem : separator ∈ digest.toStr := List.mem_append_right _ List.mem_cons_self
    rw [heq] at hmem
    exact absurd hmem (by decide)
  generalize pre.splitOn '/' = front at hsplit ⊢
  generalize rest.splitOn '/' = back at hsplit ⊢
  rcases List.append_eq_append_iff.mp hsplit with ⟨scheme, hfront, hback⟩ | ⟨path, hfront, hpath⟩
  · -- the segment starts at or before the repository
    cases scheme with
    | nil =>
      rw [List.nil_append, List.cons_append, List.cons.injEq] at hback
      rw [List.append_nil] at hfront
      refine ⟨_, hback.2, fun part hpart => hchar part (List.mem_cons_of_mem first hpart), ?_⟩
      intro hlen
      rw [← hfront] at hlen
      simp at hlen
    | cons part scheme =>
      obtain ⟨rfl, rfl⟩ := List.cons.inj hback
      match front, hfront with
      | [], hfront => exact absurd (List.cons.inj hfront).1 (by decide)
      | [_], hfront => exact absurd (List.cons.inj (List.cons.inj hfront).2).1 (by decide)
      | [_, _], hfront =>
        have hscheme : ["v2".toList] = scheme :=
          (List.cons.inj (List.cons.inj (List.cons.inj hfront).2).2).2
        refine ⟨scheme ++ (first :: repository.components.tail), (List.append_assoc _ _ _).symm, ?_, ?_⟩
        · intro part hpart
          rcases List.mem_append.mp hpart with hpart | hpart
          · rw [← hscheme, List.mem_singleton] at hpart
            rw [hpart]
            exact List.all_eq_true.mp (by decide)
          · exact hchar part hpart
        · intro hlen
          simp at hlen
      | [_, _, _], hfront =>
        exact absurd (List.cons.inj (List.cons.inj (List.cons.inj (List.cons.inj hfront).2).2).2).1
          (by decide)
      | _ :: _ :: _ :: _ :: front, hfront => simp at hfront
  · -- the segment is after the start of the repository
    rcases List.append_eq_append_iff.mp hpath with ⟨tail, _, htail⟩ | ⟨tail, hrepository, htail⟩
    · match tail, htail with
      | [], htail => exact absurd (List.cons.inj htail).1 hmanifests
      | [_], htail => exact absurd (List.cons.inj (List.cons.inj htail).2).1 hdigest
      | _ :: _ :: tail, htail => simp at htail
    · cases tail with
      | nil => exact absurd (List.cons.inj htail).1.symm hmanifests
      | cons part tail =>
        obtain ⟨hpart, hback⟩ := List.cons.inj htail
        refine ⟨tail, hback, fun p hp => hchar p ?_, fun hlen => ?_⟩
        · rw [hrepository]
          exact List.mem_append_right _ (List.mem_cons_of_mem part hp)
        · rw [hfront, List.length_append] at hlen
          cases path with
          | nil => simp at hlen
          | cons p path =>
            obtain ⟨_, hrest⟩ := List.cons.inj hrepository
            rw [hrest, hpart]
            exact List.mem_append_right _ List.mem_cons_self

include hregistry in
theorem notMem_buildManifestUrl {c : Char} (hc : c = '?' ∨ c = '\n') :
    c ∉ buildManifestUrl registry repository.toStr digest.toStr := by
  refine notMem_ociUrl hregistry repository digest "/manifests/".toList hc ?_
  rcases hc with rfl | rfl <;> decide

include hregistry in
/-- **A manifest url is a blob url exactly when `blobs` is a component of the repository after the
first one.** -/
theorem isBlobUrl_buildManifestUrl_iff :
    isBlobUrl (buildManifestUrl registry repository.toStr digest.toStr) = true ↔
      "blobs".toList ∈ repository.components.tail := by
  have hslash : '/' ∉ registry := fun hmem => (hregistry _ hmem).1 rfl
  have hline := notMem_buildManifestUrl hregistry repository digest (.inr rfl)
  have hquery := notMem_buildManifestUrl hregistry repository digest (.inl rfl)
  unfold isBlobUrl blobUrlRegex
  rw [isMatch_eq blobSegment (dot_of_notMem hline), reference_isSome (dot_of_notMem hline)]
  constructor
  · intro h
    obtain ⟨pre, post, hurl, hpre, hpost⟩ := h
    obtain ⟨d, hd⟩ := Option.isSome_iff_exists.mp hpost
    obtain ⟨rest, hstrip, _⟩ := Option.bind_eq_some_iff.mp hd
    rw [stripPrefix_eq_some hstrip, ← List.append_assoc] at hurl
    obtain ⟨_, _, _, hmem⟩ := parts_after_blobs repository digest hslash hurl
    exact hmem hpre.length_splitOn
  · intro hmem
    have hcomponents : ∃ front back, repository.components = front ++ "blobs".toList :: back ∧
        front ≠ [] := by
      cases hlist : repository.components with
      | nil =>
        rw [hlist] at hmem
        simp at hmem
      | cons first tail =>
        rw [hlist] at hmem
        obtain ⟨front, back, htail⟩ := List.append_of_mem hmem
        exact ⟨first :: front, back, congrArg (first :: ·) htail, by simp⟩
    obtain ⟨front, back, hlist, hfront⟩ := hcomponents
    -- the text of the repository around that component
    have htext : ∃ path, repository.toStr ++ "/manifests/".toList ++ digest.toStr
        = ['/'].intercalate front ++ blobSegment ++ path ∧ path ≠ [] := by
      unfold Repository.toStr
      rw [hlist, intercalate_append_cons '/' hfront]
      by_cases hback : back = []
      · refine ⟨"manifests/".toList ++ digest.toStr, ?_,
          List.append_ne_nil_of_left_ne_nil (by decide) _⟩
        rw [hback, List.intercalate_singleton, List.append_assoc, List.append_assoc,
          List.append_assoc]
        rfl
      · refine ⟨['/'].intercalate back ++ ("/manifests/".toList ++ digest.toStr), ?_,
          List.append_ne_nil_of_right_ne_nil _ (List.append_ne_nil_of_left_ne_nil (by decide) _)⟩
        rw [List.intercalate_cons_of_ne_nil hback,
          show blobSegment = '/' :: ("blobs".toList ++ ['/']) from rfl]
        simp only [List.append_assoc, List.cons_append, List.nil_append]
    obtain ⟨path, htext, hpath⟩ := htext
    have hurl : buildManifestUrl registry repository.toStr digest.toStr
        = "https://".toList ++ registry ++ "/v2/".toList ++ ['/'].intercalate front ++
          (blobSegment ++ path) := by
      unfold buildManifestUrl ociUrl
      rw [List.append_assoc, List.append_assoc, ← List.append_assoc repository.toStr, htext]
      simp only [List.append_assoc]
    refine ⟨_, _, hurl, hasRegistry_ociUrl registry _, ?_⟩
    have hnot : '?' ∉ path := by
      rw [hurl] at hquery
      exact fun hc => hquery (List.mem_append_right _ (List.mem_append_right _ hc))
    rw [referenceAfter, stripPrefix_append, Option.bind_some, referenceAt_of_notMem hpath hnot]
    rfl

include hregistry in
theorem extractFromBlobUrl_buildManifestUrl :
    Digest.extractFromBlobUrl (buildManifestUrl registry repository.toStr digest.toStr) = none := by
  have hslash : '/' ∉ registry := fun hmem => (hregistry _ hmem).1 rfl
  have hline := notMem_buildManifestUrl hregistry repository digest (.inr rfl)
  have hquery := notMem_buildManifestUrl hregistry repository digest (.inl rfl)
  rw [Digest.extractFromBlobUrl, blobUrlRegex, extract_eq]
  cases href : reference blobSegment (buildManifestUrl registry repository.toStr digest.toStr) with
  | none => rfl
  | some d =>
    -- the reference is all that follows the last blob segment, up to the digest of the manifest
    obtain ⟨pre, post, hurl, hpost⟩ :=
      lastSuffix_eq_some (lastReference_of_reference (dot_of_notMem hline) href)
    obtain ⟨rest, hstrip, hd⟩ := Option.bind_eq_some_iff.mp hpost
    rw [stripPrefix_eq_some hstrip, ← List.append_assoc] at hurl
    have hquery' : '?' ∉ rest := by
      rw [hurl] at hquery
      exact fun hc => hquery (List.mem_append_right _ hc)
    obtain ⟨parts, hsplit, hchar, _⟩ := parts_after_blobs repository digest hslash hurl
    obtain ⟨front, back, hrest, hfront⟩ : ∃ front back, rest = front ++ '/' :: back ∧
        separator ∉ front := by
      have hjoin : ['/'].intercalate (rest.splitOn '/') = rest := List.intercalate_splitOn '/'
      rw [hsplit] at hjoin
      cases parts with
      | nil =>
        rw [List.nil_append, List.intercalate_cons_of_ne_nil (by simp),
          List.intercalate_singleton, List.append_assoc] at hjoin
        exact ⟨"manifests".toList, digest.toStr, hjoin.symm, by decide⟩
      | cons part parts =>
        rw [List.cons_append, List.intercalate_cons_of_ne_nil (by simp), List.append_assoc] at hjoin
        refine ⟨part, _, hjoin.symm, fun hmem => ?_⟩
        exact repositoryChar_ne (hchar part List.mem_cons_self _ hmem) (by decide) rfl
    have hne : rest ≠ [] := by
      rw [hrest]
      simp
    rw [referenceAt_of_notMem hne hquery'] at hd
    rw [Option.bind_some, ← Option.some.inj hd]
    cases hparse : Digest.fromStr rest with
    | error err => rfl
    | ok parsed =>
      -- the name of an algorithm has no slash, but a slash comes before the first colon
      have htext := Digest.fromStr_eq_ok hparse
      have hname : '/' ∉ parsed.algorithm.toStr := by
        cases parsed.algorithm <;> decide
      rw [hrest, Digest.toStr] at htext
      rcases List.append_eq_append_iff.mp htext with ⟨t, ht, htail⟩ | ⟨t, ht, htail⟩
      · cases t with
        | nil => exact absurd (List.cons.inj htail).1 (by decide)
        | cons c t =>
          obtain ⟨rfl, _⟩ := List.cons.inj htail
          exact absurd (ht ▸ List.mem_append_right _ List.mem_cons_self) hname
      · cases t with
        | nil => exact absurd (List.cons.inj htail).1 (by decide)
        | cons c t =>
          obtain ⟨rfl, _⟩ := List.cons.inj htail
          exact absurd (ht ▸ List.mem_append_right _ List.mem_cons_self) hfront

end oci

end DragonflySdk
