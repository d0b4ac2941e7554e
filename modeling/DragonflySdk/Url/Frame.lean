import DragonflySdk.Foundation.Except
import DragonflySdk.Url.Query

/-!
# What canonicalization leaves alone

What the url crate has percent-encoded it leaves as it is when it parses it again
(`encode_utf8PercentEncode`), so a url is read back from the text it is written as
(`Url.parse_written`): with the same base, when the crate reads bases back (`UrlCrate.Lawful`).

A canonical url has the base and the fragment of the url it is made of, unless its path is left out.
That is decided on the text of the url, by `hasEmptyPath`, which looks for a slash after the first
`://`; the crate takes backslashes for slashes and needs none before the host. So the path is lost
just when the text has no such slash and the path is not `/` (`filterQueryParams_frame_iff`).
-/

namespace DragonflySdk

open Foundation

/-! ### Reading back what was written -/

/-- `http` and `https` urls, which are all that go through the seed peer proxies. -/
def UrlParts.isHttp (p : UrlParts) : Prop := p.scheme = "http".toList ∨ p.scheme = "https".toList

/-- How the url crate reads back the bases of `http` and `https` urls. -/
structure UrlCrate.Lawful (crate : UrlCrate) : Prop where
  /-- Control characters and spaces are percent-encoded. -/
  plain : ∀ text base, crate.parseBase text = .ok base → base.isHttp →
    ∀ c ∈ base.beforePath ++ base.path, plainChar c = true
  /-- The serialization is parsed to the same url. -/
  reparse : ∀ text base, crate.parseBase text = .ok base → base.isHttp →
    crate.parseBase (base.beforePath ++ base.path) = .ok base
  /-- An empty path is parsed as `/`. -/
  emptyPath : ∀ text base, crate.parseBase text = .ok base → base.isHttp →
    ∃ base', crate.parseBase base.beforePath = .ok base' ∧
      base'.toUrlParts = { base.toUrlParts with path := "/".toList }

/-- Neither trimmed nor dropped. -/
def visible (c : Char) : Bool := 0x20 < c.toNat

theorem visible_clean {s : Str} (hs : ∀ c ∈ s, visible c = true) :
    ((s.dropWhile c0ControlOrSpace).rdropWhile c0ControlOrSpace).filter notTabOrNewline = s := by
  have hkept : ∀ l : Str, (∀ c ∈ l, visible c = true) → l.dropWhile c0ControlOrSpace = l := by
    intro l hl
    cases l with
    | nil => rfl
    | cons c l =>
      have hc := hl c List.mem_cons_self
      apply List.dropWhile_cons_of_neg
      simp only [visible, decide_eq_true_eq] at hc
      simp only [c0ControlOrSpace, decide_eq_true_eq]
      omega
  unfold List.rdropWhile
  rw [hkept s hs, hkept s.reverse fun c hc => hs c (List.mem_reverse.mp hc), List.reverse_reverse]
  apply List.filter_eq_self.mpr
  intro c hc
  have hc := hs c hc
  unfold notTabOrNewline
  rw [Bool.not_eq_true', Bool.or_eq_false_iff, Bool.or_eq_false_iff]
  simp only [beq_eq_false_iff_ne, ne_eq]
  refine ⟨⟨?_, ?_⟩, ?_⟩ <;> rintro rfl <;> revert hc <;> decide

/-- A character that percent-encoding leaves behind. -/
def written (set : UInt8 → Bool) (c : Char) : Bool := encodeChar set c == [c] && visible c

/-- What encodes a byte is written with characters that are not encoded again. -/
def Settles (set : UInt8 → Bool) : Prop := ∀ b : UInt8,
  (if set b || 128 ≤ b then percentEncodeByte b else [Char.ofNat b.toNat]).all (written set) = true

theorem settles_querySet (isSpecial : Bool) : Settles (querySet isSpecial) := by
  cases isSpecial <;> exact forall_byte (by decide +kernel)

theorem settles_fragmentSet : Settles fragmentSet := forall_byte (by decide +kernel)

theorem Settles.written {set : UInt8 → Bool} (hset : Settles set) (s : Str) :
    ∀ c ∈ utf8PercentEncode set s, DragonflySdk.written set c = true := by
  intro c hc
  obtain ⟨b, _, hb⟩ := List.mem_flatMap.mp hc
  exact List.all_eq_true.mp (hset b) c hb

theorem encode_utf8PercentEncode {set : UInt8 → Bool} (hset : Settles set) (s : Str) :
    utf8PercentEncode set (utf8PercentEncode set s) = utf8PercentEncode set s := by
  have hkept : ∀ c ∈ utf8PercentEncode set s, encodeChar set c = [c] := by
    intro c hc
    have hc := hset.written s c hc
    rw [DragonflySdk.written, Bool.and_eq_true, beq_iff_eq] at hc
    exact hc.1
  rw [utf8PercentEncode_eq_flatMap set (utf8PercentEncode set s), List.flatMap_congr hkept,
    List.flatMap_singleton']

theorem Settles.visible {set : UInt8 → Bool} (hset : Settles set) (s : Str) :
    ∀ c ∈ utf8PercentEncode set s, DragonflySdk.visible c = true := by
  intro c hc
  have hc := hset.written s c hc
  rw [DragonflySdk.written, Bool.and_eq_true] at hc
  exact hc.2

theorem hash_notMem_query (isSpecial : Bool) (s : Str) :
    '#' ∉ utf8PercentEncode (querySet isSpecial) s := by
  intro hmem
  have h := (settles_querySet isSpecial).written s '#' hmem
  revert h
  cases isSpecial <;> decide +kernel

/-- **A url that was written is parsed into its parts.** -/
theorem Url.parse_written (crate : UrlCrate) {base : Str}
    (hbase : ∀ c ∈ base, plainChar c = true) {query fragment : Option Str}
    (hquery : ∀ q, query = some q → '#' ∉ q ∧ ∀ c ∈ q, visible c = true)
    (hfragment : ∀ f, fragment = some f → ∀ c ∈ f, visible c = true) :
    Url.parse crate (base ++ (queryText query ++ fragmentText fragment)) =
      (crate.parseBase base).map fun b =>
        { base := b
          query := query.map (utf8PercentEncode (querySet b.isSpecial))
          fragment := fragment.map (utf8PercentEncode fragmentSet) } := by
  have hplain : ∀ c ∈ base, visible c = true ∧ c ≠ '?' ∧ c ≠ '#' := by
    intro c hc
    have hc := hbase c hc
    simp only [plainChar, Bool.and_eq_true, bne_iff_ne] at hc
    exact ⟨hc.1.1, hc.1.2, hc.2⟩
  have hquestion : '?' ∉ base := fun hmem => (hplain _ hmem).2.1 rfl
  have hhash : '#' ∉ base ++ queryText query := by
    intro hmem
    rcases List.mem_append.mp hmem with hmem | hmem
    · exact (hplain _ hmem).2.2 rfl
    · cases query with
      | none => cases hmem
      | some q =>
        rcases List.mem_cons.mp hmem with h | hmem
        · exact absurd h (by decide)
        · exact (hquery q rfl).1 hmem
  have hvisible : ∀ c ∈ base ++ (queryText query ++ fragmentText fragment), visible c = true := by
    intro c hc
    rw [List.mem_append, List.mem_append] at hc
    rcases hc with hc | hc | hc
    · exact (hplain c hc).1
    · cases query with
      | none => cases hc
      | some q =>
        rcases List.mem_cons.mp hc with rfl | hc
        · decide
        · exact (hquery q rfl).2 c hc
    · cases fragment with
      | none => cases hc
      | some f =>
        rcases List.mem_cons.mp hc with rfl | hc
        · decide
        · exact hfragment f rfl c hc
  unfold Url.parse
  simp only [visible_clean hvisible]
  have hbefore : cut '?' (base ++ queryText query) = (base, query) := by
    cases query with
    | none => rw [queryText, List.append_nil, cut_of_notMem hquestion]
    | some q => exact cut_append '?' hquestion q
  rw [← List.append_assoc]
  have hfront : cut '#' (base ++ queryText query ++ fragmentText fragment) =
      (base ++ queryText query, fragment) := by
    cases fragment with
    | none => rw [fragmentText, List.append_nil, cut_of_notMem hhash]
    | some f => exact cut_append '#' hhash f
  simp only [hfront, hbefore]

/-! ### The canonical url -/

theorem Url.afterPath_eq (url : Url) :
    url.afterPath = queryText url.query ++ fragmentText url.fragment := by
  unfold Url.afterPath
  cases url.query <;> cases url.fragment <;> rfl

/-- The text is that of a url which differs from `parsed` in the query only. -/
def ChangesOnlyQuery (crate : UrlCrate) (parsed : Url) (text : Str) : Prop :=
  ∃ url, Url.parse crate text = .ok url ∧ url.base.toUrlParts = parsed.base.toUrlParts ∧
    url.fragment = parsed.fragment

/-- The path of the url, `/` if it is left out. -/
def canonicalParts (url : Str) (parsed : Url) : UrlParts :=
  if hasEmptyPath url then { parsed.base.toUrlParts with path := "/".toList }
  else parsed.base.toUrlParts

section
variable {crate : UrlCrate} (hcrate : crate.Lawful) {url : Str} {parsed : Url}
  (hparse : Url.parse crate url = .ok parsed) (hhttp : parsed.base.isHttp)
include hparse

theorem of_parse_eq_ok : (∃ text, crate.parseBase text = .ok parsed.base) ∧
    ∀ f, parsed.fragment = some f → ∃ s, f = utf8PercentEncode fragmentSet s := by
  unfold Url.parse at hparse
  simp only at hparse
  obtain ⟨base, hbase, rfl⟩ := map_eq_ok_iff.mp hparse
  refine ⟨⟨_, hbase⟩, fun f hf => ?_⟩
  obtain ⟨s, _, rfl⟩ := Option.map_eq_some_iff.mp hf
  exact ⟨s, rfl⟩

include hcrate hhttp

theorem exists_parse_canonical {filteredQueryParams : List Str} (hparams : filteredQueryParams ≠ []) :
    ∃ text canonical, filterQueryParams crate url filteredQueryParams = .ok text ∧
      Url.parse crate text = .ok canonical ∧
      canonical.base.toUrlParts = canonicalParts url parsed ∧
      canonical.fragment = parsed.fragment := by
  obtain ⟨⟨text, hbase⟩, hencoded⟩ := of_parse_eq_ok hparse
  have hplain := hcrate.plain text parsed.base hbase hhttp
  -- the query that is set is percent-encoded, so it is no part of the base or the fragment
  have hquery : ∀ q, (parsed.setQuery (canonicalQuery (queryPairs (parsed.query.getD [])
      filteredQueryParams))).query = some q → '#' ∉ q ∧ ∀ c ∈ q, visible c = true := by
    intro q hq
    obtain ⟨s, _, rfl⟩ := Option.map_eq_some_iff.mp hq
    exact ⟨hash_notMem_query _ _, (settles_querySet _).visible _⟩
  have hfragment : ∀ f, parsed.fragment = some f → ∀ c ∈ f, visible c = true := by
    intro f hf
    obtain ⟨s, rfl⟩ := hencoded f hf
    exact settles_fragmentSet.visible s
  have hkept : parsed.fragment.map (utf8PercentEncode fragmentSet) = parsed.fragment := by
    cases hf : parsed.fragment with
    | none => rfl
    | some f =>
      obtain ⟨s, rfl⟩ := hencoded f hf
      rw [Option.map_some, encode_utf8PercentEncode settles_fragmentSet]
  -- so what is written after a base is parsed into the query that was set and the fragment
  have hwritten : ∀ {text : Str} {base : UrlBase}, (∀ c ∈ text, plainChar c = true) →
      crate.parseBase text = .ok base → ∃ canonical, Url.parse crate
        (text ++ (parsed.setQuery (canonicalQuery (queryPairs (parsed.query.getD [])
          filteredQueryParams))).afterPath) = .ok canonical ∧ canonical.base = base ∧
        canonical.fragment = parsed.fragment := by
    intro text base htext hbase
    rw [Url.afterPath_eq, show (parsed.setQuery _).fragment = parsed.fragment from rfl,
      Url.parse_written crate htext hquery hfragment, hbase]
    exact ⟨_, rfl, rfl, hkept⟩
  unfold filterQueryParams canonicalParts
  rw [if_neg hparams, hparse]
  simp only
  by_cases hempty : hasEmptyPath url = true
  · rw [if_pos hempty, if_pos hempty]
    obtain ⟨base', hbase', hparts⟩ := hcrate.emptyPath text parsed.base hbase hhttp
    obtain ⟨canonical, hcanonical, rfl, hsame⟩ :=
      hwritten (fun c hc => hplain c (List.mem_append_left _ hc)) hbase'
    exact ⟨_, canonical, rfl, hcanonical, hparts, hsame⟩
  · rw [if_neg hempty, if_neg hempty]
    obtain ⟨canonical, hcanonical, hbase', hsame⟩ :=
      hwritten hplain (hcrate.reparse text parsed.base hbase hhttp)
    exact ⟨_, canonical, rfl, hcanonical, congrArg UrlBase.toUrlParts hbase', hsame⟩

omit hcrate hparse hhttp in
theorem canonicalParts_eq_iff : canonicalParts url parsed = parsed.base.toUrlParts ↔
    hasEmptyPath url = false ∨ parsed.base.path = "/".toList := by
  unfold canonicalParts
  by_cases hempty : hasEmptyPath url = true
  · rw [if_pos hempty, hempty]
    constructor
    · intro h
      exact Or.inr (congrArg UrlParts.path h).symm
    · intro h
      rw [← h.resolve_left (by simp)]
  · rw [if_neg hempty]
    exact ⟨fun _ => Or.inl (Bool.eq_false_of_not_eq_true hempty), fun _ => rfl⟩

end

/-- **Canonicalization changes only the query**, unless it leaves out a path. Two urls whose paths
are kept have one canonical form only if they differ in the query alone. -/
theorem filterQueryParams_frame_iff (crate : UrlCrate) (hcrate : crate.Lawful) (url : Str)
    (parsed : Url) (hparse : Url.parse crate url = .ok parsed) (hhttp : parsed.base.isHttp)
    (filteredQueryParams : List Str) (hparams : filteredQueryParams ≠ []) :
    ((∃ text, filterQueryParams crate url filteredQueryParams = .ok text ∧
        ChangesOnlyQuery crate parsed text) ↔
      hasEmptyPath url = false ∨ parsed.base.path = "/".toList) ∧
    (hasEmptyPath url = false ∨ parsed.base.path = "/".toList →
      ∀ url' parsed' filteredQueryParams', Url.parse crate url' = .ok parsed' →
        parsed'.base.isHttp → filteredQueryParams' ≠ [] →
        hasEmptyPath url' = false ∨ parsed'.base.path = "/".toList →
        filterQueryParams crate url filteredQueryParams =
          filterQueryParams crate url' filteredQueryParams' →
        parsed.base.toUrlParts = parsed'.base.toUrlParts ∧
          parsed.fragment = parsed'.fragment) := by
  obtain ⟨text, canonical, htext, hcanonical, hparts, hfragment⟩ :=
    exists_parse_canonical hcrate hparse hhttp hparams
  constructor
  · have hkeeps : canonicalParts url parsed = parsed.base.toUrlParts ↔ _ := canonicalParts_eq_iff
    rw [← hkeeps, ← hparts]
    constructor
    · intro h
      obtain ⟨text', htext', reparsed, hreparsed, hbase, _⟩ := h
      obtain rfl := Except.ok.inj (htext.symm.trans htext')
      obtain rfl := Except.ok.inj (hcanonical.symm.trans hreparsed)
      exact hbase
    · intro h
      exact ⟨text, htext, canonical, hcanonical, h, hfragment⟩
  · intro hkeeps url' parsed' filteredQueryParams' hparse' hhttp' hparams' hkeeps' hsame
    obtain ⟨text', canonical', htext', hcanonical', hparts', hfragment'⟩ :=
      exists_parse_canonical hcrate hparse' hhttp' hparams'
    rw [htext, htext'] at hsame
    obtain rfl := Except.ok.inj hsame
    obtain rfl := Except.ok.inj (hcanonical.symm.trans hcanonical')
    rw [canonicalParts_eq_iff.mpr hkeeps] at hparts
    rw [canonicalParts_eq_iff.mpr hkeeps'] at hparts'
    exact ⟨hparts.symm.trans hparts', hfragment.symm.trans hfragment'⟩

/-! ### One host -/

/-- A path in normal form: it starts with a slash and has no backslash. -/
structure HostPath where
  path : Str
  rooted : path.head? = some '/'
  normal : path.all (fun c => plainChar c && c != '\\') = true

theorem HostPath.plain (p : HostPath) : ∀ c ∈ p.path, plainChar c = true ∧ c ≠ '\\' := by
  intro c hc
  have hchar := List.all_eq_true.mp p.normal c hc
  rwa [Bool.and_eq_true, bne_iff_ne] at hchar

/-- The base of `https://h` with a path. -/
def HostPath.base (p : HostPath) : UrlBase where
  scheme := "https".toList
  username := []
  password := none
  host := some "h".toList
  port := none
  path := p.path
  noDelimiter := by
    intro c hc
    rcases List.mem_append.mp hc with hc | hc
    · have hall : "https://h".toList.all (fun c => c != '?' && c != '#') = true := by decide
      have hchar := List.all_eq_true.mp hall c hc
      rwa [Bool.and_eq_true, bne_iff_ne, bne_iff_ne] at hchar
    · have hchar := (p.plain c hc).1
      simp only [plainChar, Bool.and_eq_true, bne_iff_ne] at hchar
      exact ⟨hchar.1.2, hchar.2⟩

def HostPath.root : HostPath := ⟨['/'], rfl, by decide⟩

/-- Reads a path, backslashes taken for slashes. -/
def HostPath.ofStr (s : Str) : Option HostPath :=
  let path := if s = [] then ['/'] else s.map fun c => if c = '\\' then '/' else c
  if h : path.head? = some '/' ∧ path.all (fun c => plainChar c && c != '\\') = true then
    some ⟨path, h.1, h.2⟩
  else none

/-- A crate that only knows the urls of `https://h`. -/
def hostCrate : UrlCrate where
  parseBase text := ((stripPrefix "https://h".toList text).bind HostPath.ofStr).elim
    (.error "invalid port number".toList) fun path => .ok path.base

theorem HostPath.ofStr_path (p : HostPath) : HostPath.ofStr p.path = some p := by
  have hne : p.path ≠ [] := by
    intro hnil
    have hrooted := p.rooted
    rw [hnil] at hrooted
    cases hrooted
  have hmap : (p.path.map fun c => if c = '\\' then '/' else c) = p.path := by
    have hself : ∀ c ∈ p.path, (if c = '\\' then '/' else c) = id c := fun c hc =>
      if_neg (p.plain c hc).2
    rw [List.map_congr_left hself, List.map_id]
  unfold HostPath.ofStr
  simp only [if_neg hne, hmap]
  rw [dif_pos ⟨p.rooted, p.normal⟩]

theorem hostCrate_parseBase (s : Str) : hostCrate.parseBase ("https://h".toList ++ s) =
    (HostPath.ofStr s).elim (.error "invalid port number".toList) fun path => .ok path.base := by
  unfold hostCrate
  simp only [stripPrefix_append, Option.bind_some]

theorem hostCrate_lawful : hostCrate.Lawful := by
  -- every base the crate parses is that of a path in normal form
  have hbase : ∀ text base, hostCrate.parseBase text = .ok base → ∃ p : HostPath, base = p.base := by
    intro text base h
    unfold hostCrate at h
    simp only at h
    rcases hpath : (stripPrefix "https://h".toList text).bind HostPath.ofStr with _ | p
    · rw [hpath] at h
      cases h
    · rw [hpath] at h
      exact ⟨p, (Except.ok.inj h).symm⟩
  have hwritten : ∀ p : HostPath, p.base.beforePath = "https://h".toList := fun _ => rfl
  constructor
  · intro text base h _ c hc
    obtain ⟨p, rfl⟩ := hbase text base h
    rcases List.mem_append.mp hc with hc | hc
    · exact List.all_eq_true.mp (by decide : "https://h".toList.all plainChar = true) c hc
    · exact (p.plain c hc).1
  · intro text base h _
    obtain ⟨p, rfl⟩ := hbase text base h
    rw [hwritten, hostCrate_parseBase, show p.base.path = p.path from rfl, p.ofStr_path]
    rfl
  · intro text base h _
    obtain ⟨p, rfl⟩ := hbase text base h
    refine ⟨HostPath.root.base, ?_, rfl⟩
    rw [hwritten, ← List.append_nil "https://h".toList, hostCrate_parseBase,
      show HostPath.ofStr [] = HostPath.ofStr HostPath.root.path from rfl, HostPath.ofStr_path]
    rfl

/-- The url of `https://h` with a path. -/
def HostPath.url (p : HostPath) : Url := ⟨p.base, none, none⟩

def exampleFile : HostPath := ⟨"/a".toList, rfl, by decide⟩

theorem parse_hostCrate (p : HostPath) {s : Str} (hs : ∀ c ∈ s, plainChar c = true)
    (hpath : HostPath.ofStr s = some p) :
    Url.parse hostCrate ("https://h".toList ++ s) = .ok p.url := by
  have hplain : ∀ c ∈ "https://h".toList ++ s, plainChar c = true := by
    intro c hc
    rcases List.mem_append.mp hc with hc | hc
    · exact List.all_eq_true.mp (by decide : "https://h".toList.all plainChar = true) c hc
    · exact hs c hc
  rw [Url.parse_plain hostCrate hplain, hostCrate_parseBase, hpath]
  rfl

/-- At a file, which keeps its path. -/
theorem filterQueryParams_frame_iff_file :
    ((∃ text, filterQueryParams hostCrate "https://h/a".toList ["x".toList] = .ok text ∧
        ChangesOnlyQuery hostCrate exampleFile.url text) ↔
      hasEmptyPath "https://h/a".toList = false ∨ exampleFile.url.base.path = "/".toList) ∧
    (hasEmptyPath "https://h/a".toList = false ∨ exampleFile.url.base.path = "/".toList →
      ∀ url' parsed' filteredQueryParams', Url.parse hostCrate url' = .ok parsed' →
        parsed'.base.isHttp → filteredQueryParams' ≠ [] →
        hasEmptyPath url' = false ∨ parsed'.base.path = "/".toList →
        filterQueryParams hostCrate "https://h/a".toList ["x".toList] =
          filterQueryParams hostCrate url' filteredQueryParams' →
        exampleFile.url.base.toUrlParts = parsed'.base.toUrlParts ∧
          exampleFile.url.fragment = parsed'.fragment) :=
  filterQueryParams_frame_iff hostCrate hostCrate_lawful "https://h/a".toList exampleFile.url
    (parse_hostCrate exampleFile (fun c hc => (exampleFile.plain c hc).1) exampleFile.ofStr_path)
    (Or.inr rfl) ["x".toList] (by decide)

/-- With a backslash before it, the path is left out: other files have the same canonical form. -/
theorem not_filterQueryParams_frame :
    ¬ ∀ (crate : UrlCrate), crate.Lawful → ∀ (url : Str) (parsed : Url),
      Url.parse crate url = .ok parsed → parsed.base.isHttp →
      ∀ (filteredQueryParams : List Str), filteredQueryParams ≠ [] →
      ∃ text, filterQueryParams crate url filteredQueryParams = .ok text ∧
        ChangesOnlyQuery crate parsed text := by
  intro h
  have hread : HostPath.ofStr "\\a".toList = some exampleFile := rfl
  have hparse : Url.parse hostCrate "https://h\\a".toList = .ok exampleFile.url :=
    parse_hostCrate exampleFile (List.all_eq_true.mp (by decide)) hread
  obtain ⟨text, htext, url, hurl, hparts, _⟩ := h hostCrate hostCrate_lawful
    "https://h\\a".toList exampleFile.url hparse (Or.inr rfl) ["x".toList] (by decide)
  obtain ⟨text', canonical, htext', hcanonical, hcanonicalParts, _⟩ := exists_parse_canonical
    hostCrate_lawful hparse (Or.inr rfl) (show ["x".toList] ≠ [] by decide)
  obtain rfl := Except.ok.inj (htext.symm.trans htext')
  obtain rfl := Except.ok.inj (hurl.symm.trans hcanonical)
  have hkept := canonicalParts_eq_iff.mp (hcanonicalParts.symm.trans hparts)
  revert hkept
  decide +kernel

end DragonflySdk
