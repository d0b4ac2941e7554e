import DragonflySdk.Digest
import DragonflySdk.Url

/-!
# Task ids

`id_generator.rs`: the id of a task, from a text given for it, from its url and metadata, or from
the digest in an OCI url.

The hasher is fed the canonical url and the metadata one after the other with nothing in between, so
what an id stands for is their concatenation (`hashed_eq`). Two tasks that share an id share
every field unless characters moved from one field to a neighbouring one (`Shifted`), and that is
exactly when they do not (`taskId_eq_iff_fields`).
-/

namespace DragonflySdk

open Foundation

/-- The third-party code a task id depends on. -/
structure IdCrates where
  url : UrlCrate
  sha256 : List UInt8 → List UInt8

/-- The fields of `TaskIDParameter::URLBased`. -/
structure UrlBased where
  url : Str
  pieceLength : Option Nat
  tag : Option Str
  application : Option Str
  filteredQueryParams : List Str
  revision : Option Str
deriving DecidableEq, Repr

inductive TaskIdParameter
  | content (content : Str)
  | urlBased (fields : UrlBased)
  | blobDigestBased (url : Str)
  | manifestDigestBased (url : Str)
deriving DecidableEq, Repr

/-- A hex digit as `hex::encode` writes it. -/
def hexDigitLower (n : Nat) : Char := if n < 10 then Char.ofNat (48 + n) else Char.ofNat (87 + n)

/-- `hex::encode` -/
def hexEncode (bytes : List UInt8) : Str :=
  bytes.flatMap fun b => [hexDigitLower (b.toNat / 16), hexDigitLower (b.toNat % 16)]

/-- `TaskType::Standard.as_str_name()` -/
def standardTaskType : Str := "STANDARD".toList

namespace UrlBased

/-- What the hasher is updated with, after the canonical url. -/
def hashed (fields : UrlBased) (finalUrl : Str) : List UInt8 :=
  utf8 finalUrl ++
  ((fields.tag.map utf8).getD [] ++
  ((fields.application.map utf8).getD [] ++
  ((fields.revision.map utf8).getD [] ++
  ((fields.pieceLength.map fun n => utf8 n.repr.toList).getD [] ++
  utf8 standardTaskType))))

end UrlBased

/-- Generates the task id. -/
def generateTaskId (crates : IdCrates) : TaskIdParameter → Except Error Str
  | .content content => .ok (hexEncode (crates.sha256 (utf8 content)))
  | .urlBased fields =>
    match filterQueryParams crates.url fields.url fields.filteredQueryParams with
    | .error err => .error err
    | .ok finalUrl => .ok (hexEncode (crates.sha256 (fields.hashed finalUrl)))
  | .blobDigestBased url =>
    match Digest.extractFromBlobUrl url with
    | none => .error (.invalidArgument url)
    | some digest => .ok digest.encoded
  | .manifestDigestBased url =>
    match Digest.extractFromManifestUrl url with
    | none => .error (.invalidArgument url)
    | some digest => .ok digest.encoded

/-! ### What an id determines -/

theorem hexByte_injective : ∀ a b : UInt8,
    hexDigitLower (a.toNat / 16) = hexDigitLower (b.toNat / 16) →
    hexDigitLower (a.toNat % 16) = hexDigitLower (b.toNat % 16) → a = b := by
  have hdigit : ∀ m n : Fin 16, hexDigitLower m = hexDigitLower n → m = n := by decide
  intro a b hhigh hlow
  have ha := a.toNat_lt
  have hb := b.toNat_lt
  have hdiv := hdigit ⟨a.toNat / 16, by omega⟩ ⟨b.toNat / 16, by omega⟩ hhigh
  have hmod := hdigit ⟨a.toNat % 16, by omega⟩ ⟨b.toNat % 16, by omega⟩ hlow
  rw [Fin.mk.injEq] at hdiv hmod
  exact UInt8.toNat_inj.mp (by omega)

theorem hexEncode_injective : Function.Injective hexEncode := by
  intro l
  induction l with
  | nil =>
    intro m h
    cases m with
    | nil => rfl
    | cons b m => simp [hexEncode] at h
  | cons a l ih =>
    intro m h
    cases m with
    | nil => simp [hexEncode] at h
    | cons b m =>
      simp only [hexEncode, List.flatMap_cons, List.cons_append, List.nil_append,
        List.cons.injEq] at h
      obtain ⟨hhigh, hlow, htail⟩ := h
      rw [hexByte_injective a b hhigh hlow, ih htail]

namespace UrlBased

/-- The piece length as it is hashed; no text without one. -/
def pieceLengthText (fields : UrlBased) : Str :=
  (fields.pieceLength.map fun n => n.repr.toList).getD []

/-- The texts an id is made of, in the order they are hashed, an absent one being empty. -/
def texts (fields : UrlBased) (finalUrl : Str) : List Str :=
  [finalUrl, fields.tag.getD [], fields.application.getD [], fields.revision.getD [],
    fields.pieceLengthText]

theorem hashed_eq (fields : UrlBased) (finalUrl : Str) :
    fields.hashed finalUrl = utf8 ((fields.texts finalUrl).flatten ++ standardTaskType) := by
  have hgetD : ∀ s : Option Str, (s.map utf8).getD [] = utf8 (s.getD []) := by
    intro s
    cases s <;> rfl
  have hpiece : (fields.pieceLength.map fun n => utf8 n.repr.toList).getD []
      = utf8 fields.pieceLengthText := by
    unfold pieceLengthText
    cases fields.pieceLength <;> rfl
  unfold hashed texts
  rw [hgetD, hgetD, hgetD, hpiece]
  simp

theorem repr_toList_injective {m n : Nat} (h : m.repr.toList = n.repr.toList) : m = n := by
  rw [Nat.toList_repr, Nat.toList_repr] at h
  rw [← @Nat.ofDigitChars_ten_toDigits m, h, Nat.ofDigitChars_ten_toDigits]

theorem pieceLengthText_inj {a b : UrlBased} :
    a.pieceLengthText = b.pieceLengthText ↔ a.pieceLength = b.pieceLength := by
  have hne : ∀ n : Nat, n.repr.toList ≠ [] := fun n hn =>
    Nat.repr_ne_empty (String.toList_inj.mp (hn.trans rfl))
  unfold pieceLengthText
  constructor
  · intro h
    cases ha : a.pieceLength with
    | none =>
      cases hb : b.pieceLength with
      | none => rfl
      | some n =>
        rw [ha, hb] at h
        exact absurd h.symm (hne n)
    | some m =>
      cases hb : b.pieceLength with
      | none =>
        rw [ha, hb] at h
        exact absurd h (hne m)
      | some n =>
        rw [ha, hb] at h
        rw [repr_toList_injective h]
  · intro h
    rw [h]

/-- The fields of two tasks agree, the canonical urls being the ones given. -/
structure Same (a b : UrlBased) (urlA urlB : Str) : Prop where
  finalUrl : urlA = urlB
  tag : a.tag.getD [] = b.tag.getD []
  application : a.application.getD [] = b.application.getD []
  revision : a.revision.getD [] = b.revision.getD []
  pieceLength : a.pieceLength = b.pieceLength

theorem same_iff {a b : UrlBased} {urlA urlB : Str} :
    Same a b urlA urlB ↔ a.texts urlA = b.texts urlB := by
  simp only [texts, List.cons.injEq, pieceLengthText_inj, and_true]
  constructor
  · intro h
    obtain ⟨hurl, htag, happlication, hrevision, hpiece⟩ := h
    exact ⟨hurl, htag, happlication, hrevision, hpiece⟩
  · intro h
    obtain ⟨hurl, htag, happlication, hrevision, hpiece⟩ := h
    exact ⟨hurl, htag, happlication, hrevision, hpiece⟩

/-- **An id stands for the concatenation of the texts.** -/
theorem taskId_eq_iff {crates : IdCrates} (hsha : Function.Injective crates.sha256) {a b : UrlBased}
    {urlA urlB : Str} : hexEncode (crates.sha256 (a.hashed urlA))
      = hexEncode (crates.sha256 (b.hashed urlB)) ↔
      (a.texts urlA).flatten = (b.texts urlB).flatten := by
  rw [hexEncode_injective.eq_iff, hsha.eq_iff, hashed_eq, hashed_eq, utf8_inj, List.append_cancel_right_eq]

theorem taskId_ok {crates : IdCrates} {fields : UrlBased} {id : Str} :
    generateTaskId crates (.urlBased fields) = .ok id ↔ ∃ finalUrl,
      filterQueryParams crates.url fields.url fields.filteredQueryParams = .ok finalUrl ∧
        id = hexEncode (crates.sha256 (fields.hashed finalUrl)) := by
  rw [generateTaskId]
  cases filterQueryParams crates.url fields.url fields.filteredQueryParams with
  | error err => simp
  | ok finalUrl => simp [eq_comm]

end UrlBased

/-! ### When ids tell tasks apart -/

/-- The same characters in a row, but some boundary between two texts at another place. -/
def Shifted (texts texts' : List Str) : Prop :=
  texts.flatten = texts'.flatten ∧ texts.map List.length ≠ texts'.map List.length

/-- **Equal ids mean equal fields exactly when no characters moved between neighbouring fields.** -/
theorem taskId_eq_iff_fields (crates : IdCrates) (hsha : Function.Injective crates.sha256)
    (a b : UrlBased) (idA idB : Str) (ha : generateTaskId crates (.urlBased a) = .ok idA)
    (hb : generateTaskId crates (.urlBased b) = .ok idB) :
    ∃ urlA urlB, filterQueryParams crates.url a.url a.filteredQueryParams = .ok urlA ∧
      filterQueryParams crates.url b.url b.filteredQueryParams = .ok urlB ∧
      ((idA = idB → UrlBased.Same a b urlA urlB) ↔ ¬ Shifted (a.texts urlA) (b.texts urlB)) := by
  obtain ⟨urlA, hurlA, rfl⟩ := UrlBased.taskId_ok.mp ha
  obtain ⟨urlB, hurlB, rfl⟩ := UrlBased.taskId_ok.mp hb
  refine ⟨urlA, urlB, hurlA, hurlB, ?_⟩
  rw [UrlBased.taskId_eq_iff hsha, UrlBased.same_iff, List.eq_iff_flatten_eq, Shifted, not_and_not_right]
  exact ⟨fun h hflat => (h hflat).2, fun h hflat => ⟨hflat, h hflat⟩⟩

/-- A task whose url is taken as it is: no parameter is filtered. -/
def plainTask (url : Str) (tag application : Option Str) : UrlBased :=
  { url, tag, application, pieceLength := none, filteredQueryParams := [], revision := none }

/-- A crate that parses no url, which plain tasks do not need, and a hash that keeps its input. -/
def identityCrates : IdCrates := ⟨⟨fun _ => .error []⟩, id⟩

/-- At one url under two tags. -/
theorem taskId_eq_iff_fields_tags :
    let a := plainTask "https://example.com".toList (some "blue".toList) none
    let b := plainTask "https://example.com".toList (some "green".toList) none
    ∃ urlA urlB, filterQueryParams identityCrates.url a.url a.filteredQueryParams = .ok urlA ∧
      filterQueryParams identityCrates.url b.url b.filteredQueryParams = .ok urlB ∧
      ((hexEncode (a.hashed a.url) = hexEncode (b.hashed b.url) → UrlBased.Same a b urlA urlB) ↔
        ¬ Shifted (a.texts urlA) (b.texts urlB)) :=
  taskId_eq_iff_fields identityCrates Function.injective_id _ _ _ _ rfl rfl

/-- The tag `ab` is the task of the tag `a` and the application `b`. -/
theorem taskId_collision :
    ¬ ∀ (crates : IdCrates) (a b : UrlBased) (id : Str), Function.Injective crates.sha256 →
      generateTaskId crates (.urlBased a) = .ok id → generateTaskId crates (.urlBased b) = .ok id →
      ∃ urlA urlB, filterQueryParams crates.url a.url a.filteredQueryParams = .ok urlA ∧
        filterQueryParams crates.url b.url b.filteredQueryParams = .ok urlB ∧
        UrlBased.Same a b urlA urlB := by
  intro h
  obtain ⟨_, _, _, _, hsame⟩ := h identityCrates
    (plainTask "https://example.com".toList (some "ab".toList) none)
    (plainTask "https://example.com".toList (some "a".toList) (some "b".toList)) _
    Function.injective_id rfl rfl
  exact absurd hsame.tag (by decide)

end DragonflySdk
