import DragonflySdk.Foundation.Regex

/-!
# Digests in OCI urls

`digest.rs`: the two url patterns, the digest they extract and the digest grammar it is parsed by.

Both patterns are `ociUrlRegex` at their own path segment, `^(.*)://(.*)/v2/(.*)SEGMENT([^?]+)(?:\?.*)?$`.
On text without a line break the pattern matches when some occurrence of the segment has `://` and
then `/v2/` before it and a reference after it, and the reference it captures is the one after the
*last* such occurrence (`reference_eq`): the greedy groups before it never change which.
-/

namespace DragonflySdk

open Foundation

/-- The separator character for digest formatting. -/
def separator : Char := ':'

/-! ### The url patterns -/

/-- `.` : any character but a line feed. -/
def dot (c : Char) : Bool := c != '\n'

/-- `[^?]` -/
def notQuery (c : Char) : Bool := c != '?'

/-- `([^?]+)(?:\?.*)?` : the reference, and the query after it. -/
def referenceRegex : Regex :=
  .seq (.group 4 (.seq (.char notQuery) (.many notQuery)))
    (.optional (.seq (.char (· == '?')) (.many dot)))

/-- `(.*)://(.*)/v2/(.*)SEGMENT([^?]+)(?:\?.*)?` -/
def ociUrlRegex (segment : Str) : Regex :=
  .seq (.group 1 (.many dot)) <| .seq (.literal "://".toList) <|
  .seq (.group 2 (.many dot)) <| .seq (.literal "/v2/".toList) <|
  .seq (.group 3 (.many dot)) <| .seq (.literal segment) referenceRegex

def blobSegment : Str := "/blobs/".toList
def manifestSegment : Str := "/manifests/".toList

/-- `BLOB_URL_REGEX` -/
def blobUrlRegex : Regex := ociUrlRegex blobSegment

/-- `MANIFEST_URL_REGEX` -/
def manifestUrlRegex : Regex := ociUrlRegex manifestSegment

/-- Checks if the url is an OCI blob url. -/
def isBlobUrl (url : Str) : Bool := blobUrlRegex.isMatch url

/-! ### Digests -/

/-- Algorithm for generating digests. -/
inductive Algorithm
  | crc32 | sha256 | sha512
deriving DecidableEq, Repr

def Algorithm.toStr : Algorithm → Str
  | .crc32 => "crc32".toList
  | .sha256 => "sha256".toList
  | .sha512 => "sha512".toList

/-- A digest value with its associated algorithm. -/
structure Digest where
  algorithm : Algorithm
  encoded : Str
deriving DecidableEq, Repr

namespace Digest

/-- `Display` -/
def toStr (d : Digest) : Str := d.algorithm.toStr ++ separator :: d.encoded

/-- `FromStr`, with the text of its error. Lengths are in bytes. -/
def fromStr (s : Str) : Except Str Digest :=
  match splitOnce separator s with
  | none => .error ("invalid digest: ".toList ++ s)
  | some (algorithm, encoded) =>
    if algorithm = "crc32".toList then
      if encoded = [] then .error ("invalid crc32 digest: ".toList ++ s)
      else .ok ⟨.crc32, encoded⟩
    else if algorithm = "sha256".toList then
      if (utf8 encoded).length ≠ 64 then
        .error ("invalid sha256 digest length: ".toList ++ (utf8 encoded).length.repr.toList ++
          ", expected 64".toList)
      else .ok ⟨.sha256, encoded⟩
    else if algorithm = "sha512".toList then
      if (utf8 encoded).length ≠ 128 then
        .error ("invalid sha512 digest length: ".toList ++ (utf8 encoded).length.repr.toList ++
          ", expected 128".toList)
      else .ok ⟨.sha512, encoded⟩
    else .error ("invalid digest algorithm: ".toList ++ algorithm)

theorem fromStr_eq_ok {s : Str} {d : Digest} (h : fromStr s = .ok d) : s = d.toStr := by
  unfold fromStr at h
  cases hsplit : splitOnce separator s with
  | none => simp [hsplit] at h
  | some p =>
    obtain ⟨algorithm, encoded⟩ := p
    obtain ⟨_, rfl⟩ := splitOnce_eq_some hsplit
    simp only [hsplit] at h
    split_ifs at h with h₁ h₂ h₃ h₄ h₅ h₆
    · rw [← Except.ok.inj h, h₁]
      rfl
    · rw [← Except.ok.inj h, h₃]
      rfl
    · rw [← Except.ok.inj h, h₅]
      rfl

/-- The reference an OCI url pattern captures, parsed as a digest. -/
def extract (regex : Regex) (url : Str) : Option Digest :=
  ((regex.captures url).bind (·.get 4)).bind fun reference => (fromStr reference).toOption

/-- Extracts the digest from an OCI blob url. -/
def extractFromBlobUrl (url : Str) : Option Digest := extract blobUrlRegex url

/-- Extracts the digest from an OCI manifest url. -/
def extractFromManifestUrl (url : Str) : Option Digest := extract manifestUrlRegex url

end Digest

/-- Checks if the url is an OCI manifest url whose reference is a digest with a supported
algorithm. -/
def isManifestDigestUrl (url : Str) : Bool := (Digest.extractFromManifestUrl url).isSome

/-! ### The captured reference -/

/-- The reference a text starts with: up to the query or the end, not empty, and no line break in
the query. -/
def referenceAt (s : Str) : Option Str :=
  if s.takeWhile notQuery ≠ [] ∧ (s.dropWhile notQuery).all dot = true then
    some (s.takeWhile notQuery)
  else none

/-- The reference after a segment at the start of a text. -/
def referenceAfter (segment s : Str) : Option Str := (stripPrefix segment s).bind referenceAt

/-- The reference after the last segment of a text that one follows. -/
def lastReference (segment s : Str) : Option Str := lastSuffix (referenceAfter segment) s

/-- `lastReference`, after the last `sep` for which there is one. -/
def lastAfter (sep : Str) (k : Str → Option Str) (s : Str) : Option Str :=
  lastSuffix (fun rest => (stripPrefix sep rest).bind k) s

/-- What the pattern captures as the reference, its other groups forgotten. -/
def reference (segment s : Str) : Option Str :=
  ((ociUrlRegex segment).captures s).bind (·.get 4)

/-- What may stand after a reference: nothing, or a query without a line break. -/
def QueryTail (s : Str) : Prop := s = [] ∨ s.head? = some '?' ∧ s.tail.all dot = true

instance (s : Str) : Decidable (QueryTail s) := inferInstanceAs (Decidable (_ ∨ _))

theorem queryTail_dropWhile (s : Str) :
    QueryTail (s.dropWhile notQuery) ↔ (s.dropWhile notQuery).all dot = true := by
  have hhead := List.head?_dropWhile_not notQuery s
  rw [QueryTail]
  cases hd : s.dropWhile notQuery with
  | nil => simp
  | cons c t =>
    rw [hd] at hhead
    have hc : c = '?' := by simpa [notQuery] using hhead
    subst hc
    simp [dot]

/-- `(?:\?.*)?$` -/
theorem query_exec {α : Type} (s : Str) (caps : Captures) (a : Captures → α) :
    (Regex.optional (.seq (.char (· == '?')) (.many dot))).exec s caps
        (fun rest caps => if rest = [] then some (a caps) else none)
      = if QueryTail s then some (a caps) else none := by
  cases s with
  | nil => rfl
  | cons c s =>
    by_cases hc : c = '?'
    · subst hc
      have hstop : ∀ d t, dot d = true →
          (if d :: t = [] then some (a caps) else none) = none := fun d t _ => if_neg (by simp)
      simp only [Regex.exec, beq_self_eq_true, if_true]
      rw [execMany_eq_dropWhile hstop]
      have hiff : QueryTail ('?' :: s) ↔ s.dropWhile dot = [] := by
        rw [List.dropWhile_eq_nil_iff, ← List.all_eq_true]
        simp only [QueryTail, List.cons_ne_nil, List.head?_cons, List.tail_cons, false_or, true_and]
      by_cases hs : s.dropWhile dot = []
      · simp [hiff, hs]
      · simp [hiff, hs]
    · have hne : ¬ QueryTail (c :: s) := by simp [QueryTail, hc]
      simp [Regex.exec, hc, hne]

/-- `([^?]+)(?:\?.*)?$` captures the reference the text starts with. -/
theorem referenceRegex_exec (s : Str) (caps : Captures) :
    referenceRegex.exec s caps (fun rest caps => if rest = [] then some (caps.get 4) else none)
      = (referenceAt s).map some := by
  rw [referenceRegex, Regex.exec, Regex.exec]
  simp only [query_exec]
  cases s with
  | nil => simp [Regex.exec, referenceAt]
  | cons c s =>
    simp only [Regex.exec]
    by_cases hc : notQuery c = true
    · have hstop : ∀ d t, notQuery d = true → ¬ QueryTail (d :: t) := by
        intro d t hd
        have : d ≠ '?' := by simpa [notQuery] using hd
        simp [QueryTail, this]
      have htake := take_sub_length_dropWhile notQuery (c :: s)
      rw [List.dropWhile_cons_of_pos hc] at htake
      rw [if_pos hc, execMany_eq_dropWhile fun d t hd => if_neg (hstop d t hd), htake, referenceAt,
        List.dropWhile_cons_of_pos hc]
      have htail := queryTail_dropWhile s
      by_cases hquery : QueryTail (s.dropWhile notQuery)
      · rw [if_pos hquery, if_pos ⟨by simp [List.takeWhile_cons_of_pos hc], htail.mp hquery⟩]
        rfl
      · rw [if_neg hquery, if_neg fun h => hquery (htail.mpr h.2)]
        rfl
    · rw [if_neg hc, referenceAt, List.takeWhile_cons_of_neg hc]
      simp

/-- **The captured reference.** Without line breaks, the pattern captures the reference after the
last segment that follows the last `/v2/` that follows the last `://`. -/
theorem captures_reference (segment : Str) {s : Str} (hs : ∀ c ∈ s, dot c = true) :
    ((ociUrlRegex segment).captures s).map (·.get 4) =
      (lastAfter "://".toList (lastAfter "/v2/".toList (lastReference segment)) s).map some := by
  have hsuffix : ∀ {rest s : Str}, rest <:+ s → (∀ c ∈ s, dot c = true) → ∀ c ∈ rest, dot c = true :=
    fun h hs c hc => hs c (h.subset hc)
  have hstrip : ∀ {l rest s : Str}, stripPrefix l s = some rest → rest <:+ s := by
    intro l rest s h
    rw [stripPrefix_eq_some h]
    exact List.suffix_append l rest
  rw [Regex.captures, Regex.exec_map]
  simp only [apply_ite (Option.map fun caps : Captures => caps.get 4), Option.map_some,
    Option.map_none]
  rw [ociUrlRegex]
  -- one group and the literal after it at a time, the innermost group last
  refine Regex.exec_group_many_seq hs (fun s₁ h₁ caps => ?_) 1 []
  rw [Regex.exec_literal_seq]
  cases hv₁ : stripPrefix "://".toList s₁ with
  | none => rfl
  | some t₁ =>
    have ht₁ := hsuffix ((hstrip hv₁).trans h₁) hs
    simp only [Option.bind_some]
    refine Regex.exec_group_many_seq ht₁ (fun s₂ h₂ caps => ?_) 2 caps
    rw [Regex.exec_literal_seq]
    cases hv₂ : stripPrefix "/v2/".toList s₂ with
    | none => rfl
    | some t₂ =>
      have ht₂ := hsuffix ((hstrip hv₂).trans h₂) ht₁
      simp only [Option.bind_some]
      refine Regex.exec_group_many_seq ht₂ (fun s₃ _ caps => ?_) 3 caps
      rw [Regex.exec_literal_seq, referenceAfter]
      cases stripPrefix segment s₃ with
      | none => rfl
      | some t₃ => exact referenceRegex_exec t₃ caps

theorem reference_eq (segment : Str) {s : Str} (hs : ∀ c ∈ s, dot c = true) :
    reference segment s
      = lastAfter "://".toList (lastAfter "/v2/".toList (lastReference segment)) s := by
  have h := captures_reference segment hs
  rw [reference]
  cases hc : (ociUrlRegex segment).captures s with
  | none =>
    rw [hc, Option.map_none] at h
    exact (Option.map_eq_none_iff.mp h.symm).symm
  | some caps =>
    rw [hc, Option.map_some] at h
    obtain ⟨d, hd, hget⟩ := Option.map_eq_some_iff.mp h.symm
    rw [Option.bind_some, hd, ← hget]

theorem isMatch_eq (segment : Str) {s : Str} (hs : ∀ c ∈ s, dot c = true) :
    (ociUrlRegex segment).isMatch s = (reference segment s).isSome := by
  have h := congrArg Option.isSome (captures_reference segment hs)
  rw [Option.isSome_map, Option.isSome_map] at h
  rw [Regex.isMatch, h, reference_eq segment hs]

theorem lastAfter_eq_some {sep s d : Str} {k : Str → Option Str} (h : lastAfter sep k s = some d) :
    ∃ pre rest, s = pre ++ sep ++ rest ∧ k rest = some d := by
  obtain ⟨pre, post, rfl, hpost⟩ := lastSuffix_eq_some h
  obtain ⟨rest, hstrip, hk⟩ := Option.bind_eq_some_iff.mp hpost
  exact ⟨pre, rest, by rw [stripPrefix_eq_some hstrip, List.append_assoc], hk⟩

theorem lastReference_of_reference {segment s d : Str} (hs : ∀ c ∈ s, dot c = true)
    (h : reference segment s = some d) : lastReference segment s = some d := by
  rw [reference_eq segment hs] at h
  obtain ⟨a, t, rfl, ht⟩ := lastAfter_eq_some h
  obtain ⟨b, u, rfl, hu⟩ := lastAfter_eq_some ht
  rw [← List.append_assoc]
  exact lastSuffix_of_append hu _

/-- `://` and then `/v2/` occur in the text. -/
def HasRegistry (s : Str) : Prop := ∃ a b c, s = a ++ "://".toList ++ b ++ "/v2/".toList ++ c

theorem HasRegistry.append {s : Str} (h : HasRegistry s) (t : Str) : HasRegistry (s ++ t) := by
  obtain ⟨a, b, c, rfl⟩ := h
  exact ⟨a, b, c ++ t, by simp⟩

/-- **When the pattern matches**: some segment has a registry before it and a reference after it. -/
theorem reference_isSome {segment s : Str} (hs : ∀ c ∈ s, dot c = true) :
    (reference segment s).isSome = true ↔
      ∃ pre post, s = pre ++ post ∧ HasRegistry pre ∧ (referenceAfter segment post).isSome = true := by
  rw [reference_eq segment hs]
  have hstep : ∀ {sep s : Str} {k : Str → Option Str}, (lastAfter sep k s).isSome = true ↔
      ∃ pre rest, s = pre ++ sep ++ rest ∧ (k rest).isSome = true := by
    intro sep s k
    constructor
    · intro h
      obtain ⟨d, hd⟩ := Option.isSome_iff_exists.mp h
      obtain ⟨pre, rest, rfl, hk⟩ := lastAfter_eq_some hd
      exact ⟨pre, rest, rfl, by rw [hk]; rfl⟩
    · rintro ⟨pre, rest, rfl, hk⟩
      refine lastSuffix_isSome.mpr ⟨pre, sep ++ rest, by simp, ?_⟩
      rw [stripPrefix_append]
      exact hk
  constructor
  · intro h
    obtain ⟨a, t, rfl, ht⟩ := hstep.mp h
    obtain ⟨b, u, rfl, hu⟩ := hstep.mp ht
    obtain ⟨c, post, rfl, hpost⟩ := lastSuffix_isSome.mp hu
    exact ⟨a ++ "://".toList ++ (b ++ "/v2/".toList ++ c), post, by simp, ⟨a, b, c, by simp⟩, hpost⟩
  · rintro ⟨pre, post, rfl, ⟨a, b, c, rfl⟩, hpost⟩
    refine hstep.mpr ⟨a, b ++ "/v2/".toList ++ (c ++ post), by simp, ?_⟩
    refine hstep.mpr ⟨b, c ++ post, rfl, ?_⟩
    exact lastSuffix_isSome.mpr ⟨c, post, rfl, hpost⟩

theorem extract_eq (segment url : Str) :
    Digest.extract (ociUrlRegex segment) url
      = (reference segment url).bind fun d => (Digest.fromStr d).toOption := rfl

end DragonflySdk
