import DragonflySdk.Digest

/-!
# The query of an OCI url

What a query can do to the digest of a url. The groups before the segment may run past the `?`, so a
segment *inside* the query counts as soon as `://` and then `/v2/` stand somewhere before it
(`CarriesReference`). Without one, the query is not seen; with one, its last reference is the one
captured (`reference_query`). `ociUrl_query_iff` says exactly which queries leave the digest alone.
-/

namespace DragonflySdk

open Foundation

variable {segment u q : Str}

/-- The query has a segment with a reference after it and a registry before it, in the url or in the
query. -/
def CarriesReference (segment u q : Str) : Prop :=
  ∃ pre post, q = pre ++ post ∧ HasRegistry (u ++ '?' :: pre) ∧
    (referenceAfter segment post).isSome = true

theorem takeWhile_notQuery {s : Str} (hs : '?' ∉ s) (t : Str) :
    (s ++ '?' :: t).takeWhile notQuery = s ∧ (s ++ '?' :: t).dropWhile notQuery = '?' :: t := by
  have hne : ∀ c ∈ s, notQuery c = true := fun c hc => bne_iff_ne.mpr fun h => hs (h ▸ hc)
  rw [List.takeWhile_append_of_pos hne, List.dropWhile_append_of_pos hne]
  simp [notQuery]

theorem referenceAt_query {s : Str} (hs : '?' ∉ s) (hq : '\n' ∉ q) :
    referenceAt (s ++ '?' :: q) = referenceAt s := by
  have hne : ∀ c ∈ s, notQuery c = true := fun c hc => bne_iff_ne.mpr fun h => hs (h ▸ hc)
  have hdot : ∀ c ∈ q, dot c = true := fun c hc => bne_iff_ne.mpr fun h => hq (h ▸ hc)
  obtain ⟨htake, hdrop⟩ := takeWhile_notQuery hs q
  rw [referenceAt, referenceAt, htake, hdrop, List.takeWhile_eq_self_iff.mpr hne,
    List.dropWhile_eq_nil_iff.mpr hne, List.all_cons, List.all_eq_true.mpr hdot]
  rfl

theorem referenceAfter_query (hsegment : '?' ∉ segment) {s : Str} (hs : '?' ∉ s) (hq : '\n' ∉ q) :
    referenceAfter segment (s ++ '?' :: q) = referenceAfter segment s := by
  rw [referenceAfter, referenceAfter]
  cases h : stripPrefix segment s with
  | some rest =>
    rw [stripPrefix_eq_some h] at hs ⊢
    rw [List.append_assoc, stripPrefix_append]
    exact referenceAt_query (fun hc => hs (List.mem_append_right _ hc)) hq
  | none =>
    cases h' : stripPrefix segment (s ++ '?' :: q) with
    | none => rfl
    | some rest =>
      -- a prefix without `?` is already a prefix of the part before the `?`
      have happ := stripPrefix_eq_some h'
      rcases List.append_eq_append_iff.mp happ with ⟨m, hm, _⟩ | ⟨m, hm, hrest⟩
      · cases m with
        | nil =>
          rw [List.append_nil] at hm
          subst hm
          have := stripPrefix_append segment []
          rw [List.append_nil, h] at this
          simp at this
        | cons c m =>
          have hc : c = '?' := by simp_all
          exact absurd (by rw [hm, hc]; simp) hsegment
      · rw [hm, stripPrefix_append] at h
        simp at h

theorem referenceAfter_query_self (hsegment : '?' ∉ segment) (hne : segment ≠ []) (t : Str) :
    referenceAfter segment ('?' :: t) = none := by
  rw [referenceAfter]
  cases h : stripPrefix segment ('?' :: t) with
  | none => rfl
  | some rest =>
    cases segment with
    | nil => exact absurd rfl hne
    | cons c segment =>
      obtain ⟨rfl, _⟩ := List.cons.inj (stripPrefix_eq_some h)
      exact absurd List.mem_cons_self hsegment

theorem dot_query (hu : '\n' ∉ u) (hq : '\n' ∉ q) : ∀ c ∈ u ++ '?' :: q, dot c = true := by
  intro c hc
  refine bne_iff_ne.mpr fun h => ?_
  subst h
  simp [hu, hq] at hc

section
variable (hsegment : '?' ∉ segment) (hne : segment ≠ []) (hu : '?' ∉ u) (hul : '\n' ∉ u)
  (hql : '\n' ∉ q)

include hul hql in
theorem reference_of_carriesReference (h : CarriesReference segment u q) :
    reference segment (u ++ '?' :: q) = lastReference segment q ∧
      (lastReference segment q).isSome = true := by
  have hdot := dot_query hul hql
  obtain ⟨pre, post, rfl, hregistry, hpost⟩ := h
  have hsome : (reference segment (u ++ '?' :: (pre ++ post))).isSome = true :=
    (reference_isSome hdot).mpr ⟨u ++ '?' :: pre, post, by simp, hregistry, hpost⟩
  obtain ⟨d, hd⟩ := Option.isSome_iff_exists.mp hsome
  have hq : (lastReference segment (pre ++ post)).isSome = true :=
    lastSuffix_isSome.mpr ⟨pre, post, rfl, hpost⟩
  obtain ⟨e, he⟩ := Option.isSome_iff_exists.mp hq
  have hwhole := lastSuffix_of_append he (u ++ ['?'])
  rw [List.append_assoc, List.singleton_append] at hwhole
  have hlast := lastReference_of_reference hdot hd
  rw [lastReference, hwhole] at hlast
  rw [hd, he, hlast]
  exact ⟨rfl, rfl⟩

include hsegment hu hql in
theorem referenceAfter_suffix_query {rest : Str} (hrest : rest <:+ u) :
    referenceAfter segment (rest ++ '?' :: q) = referenceAfter segment rest :=
  referenceAfter_query hsegment (fun hc => hu (hrest.subset hc)) hql

include hsegment hne hu hul hql

theorem reference_query_isSome (hno : ¬ CarriesReference segment u q) :
    (reference segment (u ++ '?' :: q)).isSome = true ↔ (reference segment u).isSome = true := by
  have hdotu : ∀ c ∈ u, dot c = true := fun c hc => bne_iff_ne.mpr fun h => hul (h ▸ hc)
  rw [reference_isSome (dot_query hul hql), reference_isSome hdotu]
  constructor
  · rintro ⟨pre, post, happ, hregistry, hpost⟩
    rcases List.append_eq_append_iff.mp happ with ⟨m, hm, htail⟩ | ⟨m, hm, htail⟩
    · cases m with
      | nil =>
        rw [List.nil_append] at htail
        rw [← htail, referenceAfter_query_self hsegment hne] at hpost
        simp at hpost
      | cons c m =>
        obtain ⟨rfl, rfl⟩ := List.cons.inj htail
        exact absurd ⟨m, post, rfl, hm ▸ hregistry, hpost⟩ hno
    · have hsuffix : m <:+ u := hm ▸ List.suffix_append pre m
      rw [htail, referenceAfter_suffix_query hsegment hu hql hsuffix] at hpost
      exact ⟨pre, m, hm, hregistry, hpost⟩
  · rintro ⟨pre, post, rfl, hregistry, hpost⟩
    refine ⟨pre, post ++ '?' :: q, by simp, hregistry, ?_⟩
    rw [referenceAfter_suffix_query hsegment hu hql (List.suffix_append pre post)]
    exact hpost

theorem reference_of_not_carriesReference (hno : ¬ CarriesReference segment u q) :
    reference segment (u ++ '?' :: q) = reference segment u := by
  have hdotu : ∀ c ∈ u, dot c = true := fun c hc => bne_iff_ne.mpr fun h => hul (h ▸ hc)
  have hiff := reference_query_isSome hsegment hne hu hul hql hno
  cases hv : reference segment u with
  | none =>
    rw [hv] at hiff
    exact Option.not_isSome_iff_eq_none.mp fun hsome => Bool.false_ne_true (hiff.mp hsome)
  | some d =>
    obtain ⟨e, he⟩ := Option.isSome_iff_exists.mp (hiff.mpr (by rw [hv]; rfl))
    obtain ⟨pre, post, happ, hregistry, _⟩ := (reference_isSome hdotu).mp (by rw [hv]; rfl)
    have hnone : lastSuffix (referenceAfter segment) ('?' :: q) = none := by
      refine lastSuffix_eq_none fun rest hrest => ?_
      rcases List.suffix_cons_iff.mp hrest with rfl | hrest
      · exact referenceAfter_query_self hsegment hne q
      · obtain ⟨front, hfront⟩ := hrest
        cases hr : referenceAfter segment rest with
        | none => rfl
        | some r =>
          refine absurd ⟨front, rest, hfront.symm, ?_, by rw [hr]; rfl⟩ hno
          rw [happ, List.append_assoc]
          exact hregistry.append _
    have hu' := lastReference_of_reference hdotu hv
    have hq' := lastReference_of_reference (dot_query hul hql) he
    rw [lastReference, lastSuffix_append_of_none hnone fun rest hrest =>
      referenceAfter_suffix_query hsegment hu hql hrest] at hq'
    rw [he, ← hq', ← hu', lastReference]

/-- **What a query does to the captured reference.** -/
theorem reference_query :
    (CarriesReference segment u q → reference segment (u ++ '?' :: q) = lastReference segment q ∧
      (lastReference segment q).isSome = true) ∧
    (¬ CarriesReference segment u q → reference segment (u ++ '?' :: q) = reference segment u) :=
  ⟨reference_of_carriesReference hul hql,
    reference_of_not_carriesReference hsegment hne hu hul hql⟩

end

/-! ### Queries that leave the digest alone -/

/-- The digest the last reference of a query parses to. -/
def queryDigest (segment q : Str) : Option Digest :=
  (lastReference segment q).bind fun d => (Digest.fromStr d).toOption

/-- The query does not change what the url is recognized as, nor its digest. -/
structure QueryBlind (u q : Str) : Prop where
  isBlobUrl : DragonflySdk.isBlobUrl (u ++ '?' :: q) = DragonflySdk.isBlobUrl u
  extractFromBlobUrl : Digest.extractFromBlobUrl (u ++ '?' :: q) = Digest.extractFromBlobUrl u
  isManifestDigestUrl :
    DragonflySdk.isManifestDigestUrl (u ++ '?' :: q) = DragonflySdk.isManifestDigestUrl u
  extractFromManifestUrl :
    Digest.extractFromManifestUrl (u ++ '?' :: q) = Digest.extractFromManifestUrl u

/-- A reference the query carries is one the url has anyway. -/
structure HarmlessQuery (u q : Str) : Prop where
  blob : CarriesReference blobSegment u q →
    DragonflySdk.isBlobUrl u = true ∧ queryDigest blobSegment q = Digest.extractFromBlobUrl u
  manifest : CarriesReference manifestSegment u q →
    queryDigest manifestSegment q = Digest.extractFromManifestUrl u

/-- **A query leaves the digest of an OCI url alone exactly when it carries no reference of its own,
or one that parses to the digest of the url.** -/
theorem ociUrl_query_iff (u q : Str) (hu : '?' ∉ u) (hul : '\n' ∉ u) (hql : '\n' ∉ q) :
    QueryBlind u q ↔ HarmlessQuery u q := by
  have hdot := dot_query hul hql
  have hdotu : ∀ c ∈ u, dot c = true := fun c hc => bne_iff_ne.mpr fun h => hul (h ▸ hc)
  obtain ⟨hblob, hblob'⟩ :=
    @reference_query blobSegment u q (by decide) (by decide) hu hul hql
  obtain ⟨hmanifest, hmanifest'⟩ :=
    @reference_query manifestSegment u q (by decide) (by decide) hu hul hql
  have hisBlob : ∀ {s : Str}, (∀ c ∈ s, dot c = true) →
      isBlobUrl s = (reference blobSegment s).isSome := fun h => isMatch_eq blobSegment h
  constructor
  · rintro ⟨h₁, h₂, _, h₄⟩
    refine ⟨fun hc => ?_, fun hc => ?_⟩
    · obtain ⟨hr, hsome⟩ := hblob hc
      rw [hisBlob hdot, hr, hsome] at h₁
      refine ⟨h₁.symm, ?_⟩
      rw [← h₂, Digest.extractFromBlobUrl, blobUrlRegex, extract_eq, hr, queryDigest]
    · rw [← h₄, Digest.extractFromManifestUrl, manifestUrlRegex, extract_eq, (hmanifest hc).1,
        queryDigest]
  · rintro ⟨h₁, h₂⟩
    have hm : Digest.extractFromManifestUrl (u ++ '?' :: q) = Digest.extractFromManifestUrl u := by
      by_cases hc : CarriesReference manifestSegment u q
      · rw [← h₂ hc, Digest.extractFromManifestUrl, manifestUrlRegex, extract_eq, (hmanifest hc).1,
          queryDigest]
      · rw [Digest.extractFromManifestUrl, Digest.extractFromManifestUrl, manifestUrlRegex,
          extract_eq, extract_eq, hmanifest' hc]
    refine ⟨?_, ?_, by rw [isManifestDigestUrl, isManifestDigestUrl, hm], hm⟩
    · by_cases hc : CarriesReference blobSegment u q
      · obtain ⟨hr, hsome⟩ := hblob hc
        rw [hisBlob hdot, hr, hsome, (h₁ hc).1]
      · rw [hisBlob hdot, hisBlob hdotu, hblob' hc]
    · by_cases hc : CarriesReference blobSegment u q
      · rw [← (h₁ hc).2, Digest.extractFromBlobUrl, blobUrlRegex, extract_eq, (hblob hc).1,
          queryDigest]
      · rw [Digest.extractFromBlobUrl, Digest.extractFromBlobUrl, blobUrlRegex, extract_eq,
          extract_eq, hblob' hc]

/-- At the `ns` parameter a registry mirror adds. -/
theorem ociUrl_query_iff_mirror :
    QueryBlind "http://localhost:5000/v2/myrepo/blobs/sha256:abc".toList "ns=docker.io".toList ↔
      HarmlessQuery "http://localhost:5000/v2/myrepo/blobs/sha256:abc".toList
        "ns=docker.io".toList :=
  ociUrl_query_iff _ _ (by decide) (by decide) (by decide)

/-- A query can turn any url into a blob url: here one that is not, with a digest of its choice. -/
theorem not_queryBlind :
    ¬ ∀ u q : Str, '?' ∉ u → '\n' ∉ u → '\n' ∉ q → QueryBlind u q := by
  intro h
  have hblind := h "http://example.com/file".toList
    ("x=://a/v2/r/blobs/sha256:b2c366cce7e68013d5441c6326d5a3e1" ++
      "b12aeb5ed58564d0fd3fa089bc29cb6e").toList (by decide) (by decide) (by decide)
  have hextract := hblind.extractFromBlobUrl
  revert hextract
  decide +kernel

end DragonflySdk
