import DragonflySdk.Proxy.TaskId

/-!
# Task ids that are digests

A digest is extracted from an OCI url when the part its pattern matches has a supported algorithm
before the first colon and the right number of bytes after it; which characters these are is not
looked at. It is displayed as that part of the url (`extracted_of_extract`). A task id is the hex
encoding of a hash, or the encoded part of such a digest as it stands in the url
(`extracted_taskId`).
-/

namespace DragonflySdk

open Foundation

/-- The characters of the encoded part of a digest, in the OCI grammar. -/
def encodedChar (c : Char) : Bool := c.isAlphanum || c == '=' || c == '_' || c == '-'

/-- A hex digit as `hex::encode` writes it. -/
def lowerHexChar (c : Char) : Bool := c.isDigit || ('a' ≤ c && c ≤ 'f')

/-- The length of the encoded part in bytes; that of a crc32 is any but zero. -/
def Algorithm.encodedLength : Algorithm → Option Nat
  | .crc32 => none
  | .sha256 => some 64
  | .sha512 => some 128

/-- The digest is what a url has after a segment. -/
structure Extracted (segment url : Str) (digest : Digest) : Prop where
  /-- It is displayed as what the pattern matches, -/
  matched : reference segment url = some digest.toStr
  /-- which is the part of the url up to the query or the end. -/
  url_eq : ∃ pre query, url = pre ++ segment ++ digest.toStr ++ query ∧ HasRegistry pre ∧
    QueryTail query
  encoded_ne_nil : digest.encoded ≠ []
  encoded_length : ∀ n, digest.algorithm.encodedLength = some n →
    (utf8 digest.encoded).length = n
  notQuery : '?' ∉ digest.encoded

/-! ### The matched part -/

theorem queryTail_of_matches {t : Str} {caps caps' : Captures}
    (h : (Regex.optional (.seq (.char (· == '?')) (.many dot))).Matches t caps caps') :
    QueryTail t ∧ caps' = caps := by
  rcases h with ⟨_, query, _, rfl, ⟨⟨c, rfl, hc⟩, rfl⟩, hquery, rfl⟩ | ⟨rfl, rfl⟩
  · exact ⟨Or.inr ⟨congrArg some (beq_iff_eq.mp hc), List.all_eq_true.mpr hquery⟩, rfl⟩
  · exact ⟨Or.inl rfl, rfl⟩

theorem of_reference_eq_some {segment url m : Str} (h : reference segment url = some m) :
    (∃ pre query, url = pre ++ segment ++ m ++ query ∧ HasRegistry pre ∧ QueryTail query) ∧
      '?' ∉ m := by
  obtain ⟨caps, hcaps, hget⟩ := Option.bind_eq_some_iff.mp h
  obtain ⟨scheme, _, _, rfl, ⟨_, ⟨_, rfl⟩, rfl⟩, hrest⟩ := Regex.captures_sound hcaps
  obtain ⟨_, _, _, rfl, ⟨rfl, rfl⟩, hrest⟩ := hrest
  obtain ⟨registry, _, _, rfl, ⟨_, ⟨_, rfl⟩, rfl⟩, hrest⟩ := hrest
  obtain ⟨_, _, _, rfl, ⟨rfl, rfl⟩, hrest⟩ := hrest
  obtain ⟨repository, _, _, rfl, ⟨_, ⟨_, rfl⟩, rfl⟩, hrest⟩ := hrest
  obtain ⟨_, _, _, rfl, ⟨rfl, rfl⟩, hrest⟩ := hrest
  obtain ⟨text, query, _, rfl, ⟨_, hgroup, rfl⟩, hquery⟩ := hrest
  obtain ⟨_, rest, _, rfl, ⟨⟨c, rfl, hc⟩, rfl⟩, hmany, rfl⟩ := hgroup
  obtain ⟨htail, rfl⟩ := queryTail_of_matches hquery
  obtain rfl : [c] ++ rest = m := Option.some.inj hget
  constructor
  · exact ⟨scheme ++ "://".toList ++ registry ++ "/v2/".toList ++ repository, query,
      by simp only [List.append_assoc], ⟨scheme, registry, repository, rfl⟩, htail⟩
  · intro hmem
    rcases List.mem_append.mp hmem with hmem | hmem
    · rw [← List.mem_singleton.mp hmem] at hc
      exact absurd hc (by decide)
    · exact absurd (hmany _ hmem) (by decide)

theorem of_fromStr_eq_ok {s : Str} {digest : Digest} (h : Digest.fromStr s = .ok digest) :
    digest.encoded ≠ [] ∧ ∀ n, digest.algorithm.encodedLength = some n →
      (utf8 digest.encoded).length = n := by
  have hlength : ∀ n encoded, (utf8 encoded).length = n + 1 → encoded ≠ [] := by
    rintro n _ hn rfl
    cases hn
  unfold Digest.fromStr at h
  cases hsplit : splitOnce separator s with
  | none => simp [hsplit] at h
  | some p =>
    obtain ⟨algorithm, encoded⟩ := p
    simp only [hsplit] at h
    split_ifs at h with h₁ h₂ h₃ h₄ h₅ h₆
    · rw [← Except.ok.inj h]
      exact ⟨h₂, fun n hn => by cases hn⟩
    · rw [← Except.ok.inj h]
      rw [not_not] at h₄
      exact ⟨hlength 63 _ h₄, fun n hn => h₄.trans (Option.some.inj hn)⟩
    · rw [← Except.ok.inj h]
      rw [not_not] at h₆
      exact ⟨hlength 127 _ h₆, fun n hn => h₆.trans (Option.some.inj hn)⟩

theorem extracted_of_extract {segment url : Str} {digest : Digest}
    (h : Digest.extract (ociUrlRegex segment) url = some digest) : Extracted segment url digest := by
  rw [extract_eq] at h
  obtain ⟨m, hreference, hparse⟩ := Option.bind_eq_some_iff.mp h
  have hok : Digest.fromStr m = .ok digest := by
    rcases hfrom : Digest.fromStr m with err | digest'
    · rw [hfrom] at hparse
      cases hparse
    · rw [hfrom] at hparse
      exact congrArg Except.ok (Option.some.inj hparse)
  obtain rfl := Digest.fromStr_eq_ok hok
  obtain ⟨hurl, hquery⟩ := of_reference_eq_some hreference
  obtain ⟨hne, hlength⟩ := of_fromStr_eq_ok hok
  exact ⟨hreference, hurl, hne, hlength,
    fun hmem => hquery (List.mem_append_right _ (List.mem_cons_of_mem _ hmem))⟩

/-! ### Task ids -/

theorem lowerHexChar_of_mem_hexEncode {bytes : List UInt8} {c : Char} (h : c ∈ hexEncode bytes) :
    lowerHexChar c = true := by
  have hbyte : ∀ b : UInt8, [hexDigitLower (b.toNat / 16), hexDigitLower (b.toNat % 16)].all
      lowerHexChar = true := forall_byte (by decide +kernel)
  obtain ⟨b, _, hc⟩ := List.mem_flatMap.mp h
  exact List.all_eq_true.mp (hbyte b) c hc

theorem length_hexEncode (bytes : List UInt8) : (hexEncode bytes).length = 2 * bytes.length := by
  unfold hexEncode
  induction bytes with
  | nil => rfl
  | cons b bytes ih =>
    rw [List.flatMap_cons, List.length_append, ih, List.length_cons, List.length_cons,
      List.length_cons, List.length_nil]
    omega

theorem encodedChar_of_lowerHexChar {c : Char} (h : lowerHexChar c = true) :
    encodedChar c = true := by
  have halphanum : c.isAlphanum = true := by
    simp only [lowerHexChar, Bool.or_eq_true, Bool.and_eq_true, decide_eq_true_eq] at h
    unfold Char.isAlphanum Char.isAlpha Char.isLower
    rcases h with h | ⟨ha, hf⟩
    · rw [h, Bool.or_true]
    · have hz : c ≤ 'z' := le_trans hf (by decide)
      simp only [Bool.or_eq_true, Bool.and_eq_true, decide_eq_true_eq]
      exact Or.inl (Or.inr ⟨ha, hz⟩)
  rw [encodedChar, halphanum]
  rfl

/-- Where a task id comes from: a hash, or the digest in the url of the task. -/
structure TaskIdText (task : TaskFields) (id : Str) : Prop where
  hash_or_digest : (id.length = 64 ∧ ∀ c ∈ id, lowerHexChar c = true) ∨
    ∃ digest, (Extracted blobSegment task.url digest ∨ Extracted manifestSegment task.url digest) ∧
      id = digest.encoded
  /-- A character outside the grammar of digests is one of the url's own digest. -/
  outside : (∃ c ∈ id, encodedChar c = false) → task.contentForCalculatingTaskId = none ∧
    task.enableTaskIdBasedBlobDigest = true ∧
    ∃ digest, (Extracted blobSegment task.url digest ∨ Extracted manifestSegment task.url digest) ∧
      id = digest.encoded

theorem TaskIdText.of_hash {crates : IdCrates} (hsha : ∀ bytes, (crates.sha256 bytes).length = 32)
    (task : TaskFields) (bytes : List UInt8) :
    TaskIdText task (hexEncode (crates.sha256 bytes)) where
  hash_or_digest := by
    refine Or.inl ⟨?_, fun c hc => lowerHexChar_of_mem_hexEncode hc⟩
    rw [length_hexEncode, hsha]
  outside h := by
    obtain ⟨c, hc, houtside⟩ := h
    rw [encodedChar_of_lowerHexChar (lowerHexChar_of_mem_hexEncode hc)] at houtside
    cases houtside

theorem taskIdText {crates : IdCrates} (hsha : ∀ bytes, (crates.sha256 bytes).length = 32)
    {task : TaskFields} {id : Str} (h : taskId crates task = .ok id) : TaskIdText task id := by
  rw [taskId_eq_ok] at h
  unfold taskIdParameter at h
  cases hcontent : task.contentForCalculatingTaskId with
  | some content =>
    rw [hcontent] at h
    rw [← Except.ok.inj h]
    exact TaskIdText.of_hash hsha task _
  | none =>
    rw [hcontent] at h
    simp only at h
    split at h
    · rename_i hblob
      rw [Bool.and_eq_true] at hblob
      rw [generateTaskId] at h
      split at h
      · cases h
      · rename_i digest hdigest
        rw [← Except.ok.inj h]
        have hextracted : ∃ d, (Extracted blobSegment task.url d ∨
            Extracted manifestSegment task.url d) ∧ digest.encoded = d.encoded :=
          ⟨digest, Or.inl (extracted_of_extract hdigest), rfl⟩
        exact ⟨Or.inr hextracted, fun _ => ⟨hcontent, hblob.1, hextracted⟩⟩
    · split at h
      · rename_i hmanifest
        rw [Bool.and_eq_true] at hmanifest
        rw [generateTaskId] at h
        split at h
        · cases h
        · rename_i digest hdigest
          rw [← Except.ok.inj h]
          have hextracted : ∃ d, (Extracted blobSegment task.url d ∨
              Extracted manifestSegment task.url d) ∧ digest.encoded = d.encoded :=
            ⟨digest, Or.inr (extracted_of_extract hdigest), rfl⟩
          exact ⟨Or.inr hextracted, fun _ => ⟨hcontent, hmanifest.1, hextracted⟩⟩
      · rw [generateTaskId] at h
        split at h
        · cases h
        · rw [← Except.ok.inj h]
          exact TaskIdText.of_hash hsha task _

/-- **A digest is taken from a url as it stands there**, and with it a task id. -/
theorem extracted_taskId (crates : IdCrates)
    (hsha : ∀ bytes, (crates.sha256 bytes).length = 32) :
    (∀ url digest, Digest.extractFromBlobUrl url = some digest →
      Extracted blobSegment url digest) ∧
    (∀ url digest, Digest.extractFromManifestUrl url = some digest →
      Extracted manifestSegment url digest) ∧
    ∀ task id, taskId crates task = .ok id → TaskIdText task id :=
  ⟨fun _ _ => extracted_of_extract, fun _ _ => extracted_of_extract, fun _ _ => taskIdText hsha⟩

/-- A hash of the right length. -/
def lengthHash : IdCrates := ⟨⟨fun _ => .error []⟩, fun _ => List.replicate 32 0⟩

theorem extracted_taskId_zeros :
    (∀ url digest, Digest.extractFromBlobUrl url = some digest →
      Extracted blobSegment url digest) ∧
    (∀ url digest, Digest.extractFromManifestUrl url = some digest →
      Extracted manifestSegment url digest) ∧
    ∀ task id, taskId lengthHash task = .ok id → TaskIdText task id :=
  extracted_taskId lengthHash fun _ => List.length_replicate

/-- A relative path after `crc32:` is the task id. -/
theorem not_encodedChar :
    ¬ ((∀ url digest, Digest.extractFromBlobUrl url = some digest →
        ∀ c ∈ digest.encoded, encodedChar c = true) ∨
      ∀ task id, taskId lengthHash task = .ok id → ∀ c ∈ id, c ≠ '/' ∧ c ≠ '.' ∧ c ≠ ':') := by
  let url := "https://r/v2/a/blobs/crc32:../b:c".toList
  intro h
  rcases h with h | h
  · have hchar := h url ⟨.crc32, "../b:c".toList⟩ (by decide +kernel) '/' (by decide)
    revert hchar
    decide
  · have hchar := h { exampleTask with url := url } "../b:c".toList (by decide +kernel) '/'
      (by decide)
    exact hchar.1 rfl

end DragonflySdk
