import DragonflySdk.IdGenerator

/-!
# What a canonical url remembers

A url `base?query#fragment` whose query is printable is parsed into its three parts
(`Url.parse_append`), and the percent-encoding the parser does to the query is invisible to the form
decoder (`formUrlencodedParse_encode`). So the canonical url is the base, the fragment and the form
encoding of the parameters that are not filtered, sorted by key (`filterQueryParams_append`).

Sorting keeps the subsequence of each key and forgets the rest, and form encoding is injective: the
canonical url remembers, for each key that is not filtered, the sequence of its values, and nothing
else of the query (`filterQueryParams_eq_iff`).
-/

namespace DragonflySdk

open Foundation

/-! ### Parsing -/

/-- Printable ASCII without `#`: what a query may be made of. -/
def queryChar (c : Char) : Bool := 0x20 ≤ c.toNat && c.toNat ≤ 0x7e && c != '#'

/-- A fragment with its `#`. -/
def fragmentText : Option Str → Str
  | some fragment => '#' :: fragment
  | none => []

/-- What the parser sees of the query: spaces at the end of the text are trimmed. -/
def seenQuery (query : Str) : Option Str → Str
  | some _ => query
  | none => query.rdropWhile c0ControlOrSpace

/-- What the parser sees of the base. -/
def seenBase (base : Str) : Str := (base.dropWhile c0ControlOrSpace).filter notTabOrNewline

theorem queryChar_notTabOrNewline {s : Str} (hs : ∀ c ∈ s, queryChar c = true) :
    s.filter notTabOrNewline = s := by
  refine List.filter_eq_self.mpr fun c hc => ?_
  have hchar := hs c hc
  unfold notTabOrNewline
  rw [Bool.not_eq_true', Bool.or_eq_false_iff, Bool.or_eq_false_iff]
  simp only [beq_eq_false_iff_ne, ne_eq]
  refine ⟨⟨?_, ?_⟩, ?_⟩ <;> rintro rfl <;> revert hchar <;> decide

theorem queryChar_seenQuery {query : Str} (hq : ∀ c ∈ query, queryChar c = true)
    (fragment : Option Str) : ∀ c ∈ seenQuery query fragment, queryChar c = true := by
  cases fragment with
  | some _ => exact hq
  | none => exact fun c hc => hq c ((List.rdropWhile_prefix _ _).subset hc)

/-- A `?` with the query after it, or a `#` with the fragment after it, is never trimmed away. -/
theorem dropWhile_base {base : Str} {c : Char} (hc : c0ControlOrSpace c = false) (rest : Str) :
    (base ++ c :: rest).dropWhile c0ControlOrSpace
      = base.dropWhile c0ControlOrSpace ++ c :: rest := by
  rw [List.dropWhile_append]
  split_ifs with hb
  · rw [List.isEmpty_iff.mp hb, List.dropWhile_cons_of_neg (by simp [hc]), List.nil_append]
  · rfl

/-- **A url is parsed into its base, its query and its fragment.** -/
theorem Url.parse_append (crate : UrlCrate) {base query : Str} (hbase : '?' ∉ base ∧ '#' ∉ base)
    (hq : ∀ c ∈ query, queryChar c = true) (fragment : Option Str) :
    Url.parse crate (base ++ '?' :: (query ++ fragmentText fragment))
      = (crate.parseBase (seenBase base)).map fun b =>
        { base := b
          query := some (utf8PercentEncode (querySet b.isSpecial) (seenQuery query fragment))
          fragment := fragment.map fun f => utf8PercentEncode fragmentSet
            ((f.rdropWhile c0ControlOrSpace).filter notTabOrNewline) } := by
  have hbase' : ∀ {c : Char}, c ∉ base → c ∉ seenBase base := fun h hmem =>
    h ((List.dropWhile_suffix _).subset (List.mem_filter.mp hmem).1)
  have hseen := queryChar_seenQuery hq fragment
  have hhash : '#' ∉ seenBase base ++ '?' :: seenQuery query fragment := by
    intro hmem
    rcases List.mem_append.mp hmem with hmem | hmem
    · exact hbase' hbase.2 hmem
    · rcases List.mem_cons.mp hmem with h | hmem
      · exact absurd h (by decide)
      · have := hseen _ hmem
        revert this
        decide
  -- the text left after trimming and dropping tabs and line breaks
  have hclean : (((base ++ '?' :: (query ++ fragmentText fragment)).dropWhile
        c0ControlOrSpace).rdropWhile c0ControlOrSpace).filter notTabOrNewline
      = seenBase base ++ '?' :: seenQuery query fragment ++ fragmentText
          (fragment.map fun f => (f.rdropWhile c0ControlOrSpace).filter notTabOrNewline) := by
    rw [dropWhile_base (by decide), rdropWhile_append_cons (by decide), List.filter_append,
      List.filter_cons_of_pos (by decide), List.append_assoc, List.cons_append, ← seenBase]
    congr 2
    cases fragment with
    | none =>
      rw [fragmentText, Option.map_none, fragmentText, List.append_nil, List.append_nil]
      exact queryChar_notTabOrNewline hseen
    | some f =>
      rw [fragmentText, Option.map_some, fragmentText, rdropWhile_append_cons (by decide),
        List.filter_append, List.filter_cons_of_pos (by decide)]
      rw [queryChar_notTabOrNewline hq, seenQuery]
  unfold Url.parse
  simp only [hclean]
  cases fragment with
  | none =>
    rw [Option.map_none, fragmentText, List.append_nil, cut_of_notMem hhash]
    simp only [cut_append '?' (hbase' hbase.1)]
    rfl
  | some f =>
    rw [Option.map_some, fragmentText, cut_append '#' hhash]
    simp only [cut_append '?' (hbase' hbase.1)]
    rfl

/-- A character that the parser passes on: no space, no delimiter. -/
def plainChar (c : Char) : Bool := 0x20 < c.toNat && c != '?' && c != '#'

theorem plainChar_of {p : Char → Bool} (hlow : ∀ n : Fin 33, p (Char.ofNat n) = false)
    (hquestion : p '?' = false) (hhash : p '#' = false) {c : Char} (hc : p c = true) :
    plainChar c = true := by
  have hne : ∀ d, p d = false → c ≠ d := by
    rintro d hd rfl
    rw [hc] at hd
    simp at hd
  have hlt : 0x20 < c.toNat := by
    by_contra hle
    have hfin := hlow ⟨c.toNat, by omega⟩
    rw [Char.ofNat_toNat] at hfin
    exact hne c hfin rfl
  simp only [plainChar, Bool.and_eq_true, decide_eq_true_eq, bne_iff_ne]
  exact ⟨⟨hlt, hne '?' hquestion⟩, hne '#' hhash⟩

theorem Url.parse_plain (crate : UrlCrate) {text : Str} (h : ∀ c ∈ text, plainChar c = true) :
    Url.parse crate text
      = (crate.parseBase text).map fun base => { base, query := none, fragment := none } := by
  have hchar : ∀ c ∈ text, c0ControlOrSpace c = false ∧ notTabOrNewline c = true ∧
      c ≠ '?' ∧ c ≠ '#' := by
    intro c hc
    have hplain := h c hc
    simp only [plainChar, Bool.and_eq_true, decide_eq_true_eq, bne_iff_ne] at hplain
    obtain ⟨⟨hlt, hquestion⟩, hhash⟩ := hplain
    refine ⟨?_, ?_, hquestion, hhash⟩
    · simp only [c0ControlOrSpace, decide_eq_false_iff_not]
      omega
    · unfold notTabOrNewline
      rw [Bool.not_eq_true', Bool.or_eq_false_iff, Bool.or_eq_false_iff]
      simp only [beq_eq_false_iff_ne, ne_eq]
      refine ⟨⟨?_, ?_⟩, ?_⟩ <;> rintro rfl <;> revert hlt <;> decide
  have hnone : ∀ l : Str, (∀ c ∈ l, c0ControlOrSpace c = false) → l.dropWhile c0ControlOrSpace = l := by
    intro l hl
    cases l with
    | nil => rfl
    | cons c l =>
      exact List.dropWhile_cons_of_neg (by simp [hl c List.mem_cons_self])
  have hclean : ((text.dropWhile c0ControlOrSpace).rdropWhile c0ControlOrSpace).filter notTabOrNewline
      = text := by
    unfold List.rdropWhile
    rw [hnone text fun c hc => (hchar c hc).1,
      hnone text.reverse fun c hc => (hchar c (List.mem_reverse.mp hc)).1, List.reverse_reverse]
    exact List.filter_eq_self.mpr fun c hc => (hchar c hc).2.1
  unfold Url.parse
  simp only [hclean, cut_of_notMem fun hmem => (hchar '#' hmem).2.2.2 rfl,
    cut_of_notMem fun hmem => (hchar '?' hmem).2.2.1 rfl]
  rfl

/-! ### Reading the query -/

theorem formTransparent_querySet (isSpecial : Bool) : FormTransparent (querySet isSpecial) where
  separator := by
    simp only [separators, List.forall_mem_cons, List.not_mem_nil, false_imp_iff, implies_true]
    cases isSpecial <;> decide
  decoded := by
    cases isSpecial <;> exact forall_byte (by decide +kernel)

section encoded
variable {set : UInt8 → Bool} (hset : FormTransparent set)
include hset

theorem formSequence_encode (s : Str) : formSequence (utf8PercentEncode set s) = formSequence s := by
  have hgetD : ∀ v : Option Str, (v.map (utf8PercentEncode set)).getD []
      = utf8PercentEncode set (v.getD []) := by
    intro v
    cases v <;> rfl
  unfold formSequence
  rw [cut_utf8PercentEncode hset (by decide)]
  simp only [hgetD, formDecode_utf8PercentEncode hset]

theorem formUrlencodedParse_encode (s : Str) :
    formUrlencodedParse (utf8PercentEncode set s) = formUrlencodedParse s := by
  unfold formUrlencodedParse
  rw [splitOn_utf8PercentEncode hset (by decide), List.filter_map, List.map_map]
  have hnil : ((fun part : Str => decide (part ≠ [])) ∘ utf8PercentEncode set)
      = fun part => decide (part ≠ []) := by
    funext part
    simp only [Function.comp_apply, utf8PercentEncode_eq_nil, ne_eq]
  rw [hnil]
  exact List.map_congr_left fun part _ => formSequence_encode hset part

theorem queryPairs_encode (query : Str) (filteredQueryParams : List Str) :
    queryPairs (utf8PercentEncode set query) filteredQueryParams
      = queryPairs query filteredQueryParams := by
  unfold queryPairs
  rw [splitOn_utf8PercentEncode hset (by decide), List.filter_map, List.flatMap_map]
  have hsemicolon : ((fun part : Str => !part.contains ';') ∘ utf8PercentEncode set)
      = fun part => !part.contains ';' := by
    funext part
    simp only [Function.comp_apply, contains_utf8PercentEncode hset (by decide : ';' ∈ separators)]
  rw [hsemicolon]
  simp only [formUrlencodedParse_encode hset]

end encoded

/-! ### Writing it back -/

/-- The bytes of a parameter. -/
def pairBytes (p : Str × Str) : List UInt8 × List UInt8 := (utf8 p.1, utf8 p.2)

theorem pairBytes_injective : Function.Injective pairBytes := by
  rintro ⟨k, v⟩ ⟨k', v'⟩ h
  obtain ⟨hk, hv⟩ := Prod.mk.inj h
  exact Prod.ext (utf8_inj.mp hk) (utf8_inj.mp hv)

/-- A query with its `?`. -/
def queryText : Option Str → Str
  | some query => '?' :: query
  | none => []

/-- The order of the parameters: by key, bytewise. -/
def keyOrder (p : List UInt8 × List UInt8) : List Nat := p.1.map UInt8.toNat

/-- The form encoding of the parameters sorted by key. -/
def sortedQuery (pairs : List (List UInt8 × List UInt8)) : Option Str :=
  formEncode (sortByKey keyOrder pairs)

/-- **A sorted query stands for the subsequence of each key.** -/
theorem sortedQuery_eq_iff {l m : List (List UInt8 × List UInt8)} :
    sortedQuery l = sortedQuery m ↔
      ∀ k, l.filter (fun p => p.1 = k) = m.filter (fun p => p.1 = k) := by
  have hkey : ∀ k : List UInt8, ∀ p : List UInt8 × List UInt8,
      keyOrder p = k.map UInt8.toNat ↔ p.1 = k := fun k p =>
    (List.map_injective_iff.mpr fun a b => UInt8.toNat_inj.mp).eq_iff
  have hfilter : ∀ (k : List UInt8) (l : List (List UInt8 × List UInt8)),
      l.filter (fun p => keyOrder p = k.map UInt8.toNat) = l.filter (fun p => p.1 = k) := by
    intro k l
    simp only [hkey]
  unfold sortedQuery
  rw [formEncode_injective.eq_iff, sortByKey_eq_iff]
  constructor
  · intro h k
    rw [← hfilter, h, hfilter]
  · intro h order
    by_cases horder : ∃ k : List UInt8, k.map UInt8.toNat = order
    · obtain ⟨k, rfl⟩ := horder
      rw [hfilter, h, hfilter]
    · have hnone : ∀ l : List (List UInt8 × List UInt8),
          l.filter (fun p => keyOrder p = order) = [] := fun l =>
        List.filter_eq_nil_iff.mpr fun p _ hp => horder ⟨p.1, of_decide_eq_true hp⟩
      rw [hnone, hnone]

theorem canonicalQuery_eq (pairs : List (Str × Str)) :
    canonicalQuery pairs = sortedQuery (pairs.map pairBytes) := by
  unfold canonicalQuery sortedQuery formEncode
  rw [← map_sortByKey (fun p => textOrder p.1) pairBytes keyOrder fun _ => rfl]
  simp only [List.map_eq_nil_iff, List.map_map]
  rfl

theorem canonicalQuery_eq_iff {l m : List (Str × Str)} :
    canonicalQuery l = canonicalQuery m ↔
      ∀ k, l.filter (fun p => p.1 = k) = m.filter (fun p => p.1 = k) := by
  have hfilter : ∀ (k : Str) (l : List (Str × Str)),
      (l.map pairBytes).filter (fun p => p.1 = utf8 k)
        = (l.filter (fun p => p.1 = k)).map pairBytes := by
    intro k l
    rw [List.filter_map]
    congr 1
    refine List.filter_congr fun p _ => ?_
    simp only [Function.comp_apply, pairBytes, utf8_inj]
  rw [canonicalQuery_eq, canonicalQuery_eq, sortedQuery_eq_iff]
  constructor
  · intro h k
    have hk := h (utf8 k)
    rw [hfilter, hfilter] at hk
    exact List.map_injective_iff.mpr pairBytes_injective hk
  · intro h bytes
    by_cases hbytes : ∃ k, utf8 k = bytes
    · obtain ⟨k, rfl⟩ := hbytes
      rw [hfilter, hfilter, h]
    · have hnone : ∀ l : List (Str × Str), (l.map pairBytes).filter (fun p => p.1 = bytes) = [] := by
        intro l
        refine List.filter_eq_nil_iff.mpr fun p hp hkey => ?_
        obtain ⟨q, _, rfl⟩ := List.mem_map.mp hp
        exact hbytes ⟨q.1, of_decide_eq_true hkey⟩
      rw [hnone, hnone]

theorem encode_formEncode {isSpecial : Bool} {pairs : List (List UInt8 × List UInt8)} {q : Str}
    (h : formEncode pairs = some q) :
    utf8PercentEncode (querySet isSpecial) (q.filter notTabOrNewline) = q := by
  have htoken : ∀ b, (formEscapeByte b).all (fun c =>
      encodeChar (querySet isSpecial) c == [c] && notTabOrNewline c) = true := by
    cases isSpecial <;> exact forall_byte (by decide +kernel)
  have hchar : ∀ c ∈ q, encodeChar (querySet isSpecial) c = [c] ∧ notTabOrNewline c = true := by
    intro c hc
    rcases of_mem_formEncode h hc with rfl | rfl | ⟨b, hb⟩
    · exact ⟨encodeChar_separator (formTransparent_querySet isSpecial) '&' (by decide), by decide⟩
    · exact ⟨encodeChar_separator (formTransparent_querySet isSpecial) '=' (by decide), by decide⟩
    · simpa using List.all_eq_true.mp (htoken b) c hb
  rw [List.filter_eq_self.mpr fun c hc => (hchar c hc).2, utf8PercentEncode_eq_flatMap,
    List.flatMap_congr fun c hc => (hchar c hc).1, List.flatMap_singleton']

/-- What the parser sees of the fragment, percent-encoded. -/
def seenFragment (fragment : Option Str) : Option Str :=
  fragment.map fun f => utf8PercentEncode fragmentSet
    ((f.rdropWhile c0ControlOrSpace).filter notTabOrNewline)

/-- The canonical url up to its path. -/
def canonicalBase (url : Str) (base : UrlBase) : Str :=
  if hasEmptyPath url then base.beforePath else base.beforePath ++ base.path

/-- **The canonical form of a url in parts.** -/
theorem filterQueryParams_append (crate : UrlCrate) {base query : Str}
    (hbase : '?' ∉ base ∧ '#' ∉ base) (hq : ∀ c ∈ query, queryChar c = true) (fragment : Option Str)
    {filteredQueryParams : List Str} (hfiltered : filteredQueryParams ≠ []) :
    let url := base ++ '?' :: (query ++ fragmentText fragment)
    filterQueryParams crate url filteredQueryParams =
      match crate.parseBase (seenBase base) with
      | .error err => .error (.invalidArgument ("invalid url: ".toList ++ err))
      | .ok b => .ok (canonicalBase url b ++
          (queryText (canonicalQuery (queryPairs (seenQuery query fragment) filteredQueryParams)) ++
            fragmentText (seenFragment fragment))) := by
  intro url
  unfold filterQueryParams
  rw [if_neg hfiltered, Url.parse_append crate hbase hq]
  cases hparse : crate.parseBase (seenBase base) with
  | error err => rfl
  | ok b =>
    simp only [Except.map, Option.getD_some, queryPairs_encode (formTransparent_querySet b.isSpecial)]
    generalize hcanonical :
      canonicalQuery (queryPairs (seenQuery query fragment) filteredQueryParams) = canonical
    have hset : (canonical.map fun q =>
        utf8PercentEncode (querySet b.isSpecial) (q.filter notTabOrNewline)) = canonical := by
      cases canonical with
      | none => rfl
      | some q =>
        rw [canonicalQuery_eq] at hcanonical
        rw [Option.map_some, encode_formEncode hcanonical]
    have hafter : ∀ query fragment, Url.afterPath ⟨b, query, fragment⟩
        = queryText query ++ fragmentText fragment := by
      intro query fragment
      unfold Url.afterPath
      cases query <;> cases fragment <;> rfl
    unfold Url.setQuery Url.toStr canonicalBase
    simp only [hset, hafter, seenFragment]
    by_cases hempty : hasEmptyPath url
    · rw [if_pos hempty, if_pos hempty]
    · rw [if_neg hempty, if_neg hempty]

/-! ### The urls of one canonical form -/

theorem hasEmptyPath_append {base : Str} (hbase : '?' ∉ base ∧ '#' ∉ base)
    (hscheme : "http://".toList <+: base ∨ "https://".toList <+: base) (rest : Str) :
    hasEmptyPath (base ++ '?' :: rest) = hasEmptyPath base := by
  have hsplit : ∃ authority, authority <:+ base ∧ ∀ t, afterFirst "://".toList (base ++ t)
      = some (authority ++ t) := by
    rcases hscheme with ⟨authority, rfl⟩ | ⟨authority, rfl⟩
    · exact ⟨authority, List.suffix_append _ _, fun t => rfl⟩
    · exact ⟨authority, List.suffix_append _ _, fun t => rfl⟩
  obtain ⟨authority, hsuffix, hafter⟩ := hsplit
  have hplain : ∀ c ∈ authority, (c != '?' && c != '#') = true := by
    intro c hc
    rw [Bool.and_eq_true, bne_iff_ne, bne_iff_ne]
    exact ⟨fun h => hbase.1 (h ▸ hsuffix.subset hc), fun h => hbase.2 (h ▸ hsuffix.subset hc)⟩
  have hself := hafter []
  rw [List.append_nil, List.append_nil] at hself
  unfold hasEmptyPath
  rw [hafter, hself]
  simp only
  rw [List.takeWhile_append_of_pos hplain, List.takeWhile_cons_of_neg (by decide), List.append_nil,
    List.takeWhile_eq_self_iff.mpr hplain]

/-- The values of a key in a query, in order, as `form_urlencoded` decodes them; sequences with a
`;` are left out. -/
def decodedValues (query key : Str) : List Str :=
  ((((query.splitOn '&').filter fun segment => !segment.contains ';').flatMap
    formUrlencodedParse).filter fun p => p.1 = key).map (·.2)

theorem filter_queryPairs (query key : Str) (filteredQueryParams : List Str) :
    (queryPairs query filteredQueryParams).filter (fun p => p.1 = key) =
      if key ∈ filteredQueryParams then [] else (decodedValues query key).map (key, ·) := by
  unfold queryPairs decodedValues
  generalize ((query.splitOn '&').filter fun segment => !segment.contains ';').flatMap
    formUrlencodedParse = pairs
  induction pairs with
  | nil => simp
  | cons p pairs ih =>
    obtain ⟨k, v⟩ := p
    by_cases hk : k = key
    · subst hk
      by_cases hmem : k ∈ filteredQueryParams
      · rw [if_pos hmem] at ih ⊢
        rw [List.filter_cons_of_neg (by simpa using hmem), ih]
      · rw [if_neg hmem] at ih ⊢
        rw [List.filter_cons_of_pos (by simpa using hmem), List.filter_cons_of_pos (by simp),
          List.filter_cons_of_pos (by simp), ih]
        rfl
    · rw [List.filter_cons_of_neg (p := fun p : Str × Str => decide (p.1 = key)) (a := (k, v))
        (by simpa using hk)]
      by_cases hmem : k ∈ filteredQueryParams
      · rw [List.filter_cons_of_neg (by simpa using hmem), ih]
      · rw [List.filter_cons_of_pos (by simpa using hmem), List.filter_cons_of_neg (by simpa using hk),
          ih]

/-- Two queries have the same parameters but for the filtered ones and the order across keys. -/
def SameParameters (filteredQueryParams : List Str) (query₁ query₂ : Str) : Prop :=
  ∀ key, key ∉ filteredQueryParams → decodedValues query₁ key = decodedValues query₂ key

theorem canonicalQuery_queryPairs_iff {filteredQueryParams : List Str} {query₁ query₂ : Str} :
    canonicalQuery (queryPairs query₁ filteredQueryParams)
        = canonicalQuery (queryPairs query₂ filteredQueryParams) ↔
      SameParameters filteredQueryParams query₁ query₂ := by
  have hpair : ∀ key : Str, Function.Injective fun value : Str => (key, value) :=
    fun key a b h => (Prod.mk.inj h).2
  rw [canonicalQuery_eq_iff]
  constructor
  · intro h key hkey
    have hk := h key
    rw [filter_queryPairs, filter_queryPairs, if_neg hkey, if_neg hkey] at hk
    exact List.map_injective_iff.mpr (hpair key) hk
  · intro h key
    rw [filter_queryPairs, filter_queryPairs]
    split_ifs with hkey
    · rfl
    · rw [h key hkey]

/-- A url of a base, a query and a fragment. -/
def urlOf (base query fragment : Str) : Str := base ++ '?' :: (query ++ '#' :: fragment)

/-- **The canonical url identifies the urls that differ in filtered or reordered parameters only**,
and so does the task id. -/
theorem filterQueryParams_eq_iff (crates : IdCrates) (base fragment : Str)
    (hscheme : "http://".toList <+: base ∨ "https://".toList <+: base)
    (hbase : '?' ∉ base ∧ '#' ∉ base) (hparse : ∃ url, Url.parse crates.url (base ++ ['?']) = .ok url)
    (filteredQueryParams : List Str) (hfiltered : filteredQueryParams ≠ []) (query₁ query₂ : Str)
    (hq₁ : ∀ c ∈ query₁, queryChar c = true) (hq₂ : ∀ c ∈ query₂, queryChar c = true) :
    (∃ url₁ url₂, filterQueryParams crates.url (urlOf base query₁ fragment) filteredQueryParams
          = .ok url₁ ∧
        filterQueryParams crates.url (urlOf base query₂ fragment) filteredQueryParams = .ok url₂ ∧
        (url₁ = url₂ ↔ SameParameters filteredQueryParams query₁ query₂)) ∧
      (SameParameters filteredQueryParams query₁ query₂ → ∀ fields : UrlBased,
        fields.filteredQueryParams = filteredQueryParams →
        generateTaskId crates (.urlBased { fields with url := urlOf base query₁ fragment })
          = generateTaskId crates (.urlBased { fields with url := urlOf base query₂ fragment })) := by
  have happend := fun {query : Str} (hq : ∀ c ∈ query, queryChar c = true) =>
    filterQueryParams_append crates.url hbase hq (some fragment) hfiltered
  have hempty := fun query => hasEmptyPath_append hbase hscheme (query ++ '#' :: fragment)
  obtain ⟨b, hb⟩ : ∃ b, crates.url.parseBase (seenBase base) = .ok b := by
    obtain ⟨url, hurl⟩ := hparse
    have := Url.parse_append crates.url hbase (show ∀ c ∈ [], queryChar c = true by simp) none
    rw [fragmentText, List.append_nil, hurl] at this
    cases hb : crates.url.parseBase (seenBase base) with
    | ok b => exact ⟨b, rfl⟩
    | error err =>
      rw [hb] at this
      simp [Except.map] at this
  have hcanonical : ∀ {query : Str}, (∀ c ∈ query, queryChar c = true) →
      filterQueryParams crates.url (urlOf base query fragment) filteredQueryParams
        = .ok ((if hasEmptyPath base then b.beforePath else b.beforePath ++ b.path) ++
            (queryText (canonicalQuery (queryPairs query filteredQueryParams)) ++
              fragmentText (seenFragment (some fragment)))) := by
    intro query hq
    have h := happend hq
    rw [hb] at h
    simp only [fragmentText, canonicalBase, hempty] at h
    exact h
  have hqueryText : Function.Injective queryText := by
    intro q q' h
    cases q <;> cases q' <;> simp_all [queryText]
  refine ⟨⟨_, _, hcanonical hq₁, hcanonical hq₂, ?_⟩, fun hsame fields hfields => ?_⟩
  · rw [List.append_cancel_left_eq, List.append_cancel_right_eq, hqueryText.eq_iff,
      canonicalQuery_queryPairs_iff]
  · rw [generateTaskId, generateTaskId]
    simp only [hfields, hcanonical hq₁, hcanonical hq₂, canonicalQuery_queryPairs_iff.mpr hsame]
    rfl

/-- The base of `http://h`. -/
def exampleBase : UrlBase where
  scheme := "http".toList
  username := []
  password := none
  host := some "h".toList
  port := none
  path := "/".toList
  noDelimiter := by
    intro c hc
    have hall : "http://h/".toList.all (fun c => c != '?' && c != '#') = true := by decide
    have hchar := List.all_eq_true.mp hall c hc
    rwa [Bool.and_eq_true, bne_iff_ne, bne_iff_ne] at hchar

/-- A crate that only knows `http://h`: a space in the host is an error. -/
def exampleCrate : UrlCrate where
  parseBase text :=
    if text = "http://h".toList then .ok exampleBase
    else .error "invalid international domain name".toList

/-- Moving a parameter before one of another key. -/
theorem filterQueryParams_eq_iff_moved :
    (∃ url₁ url₂, filterQueryParams exampleCrate (urlOf "http://h".toList "a=1&b=2".toList [])
          ["x".toList] = .ok url₁ ∧
        filterQueryParams exampleCrate (urlOf "http://h".toList "b=2&a=1".toList []) ["x".toList]
          = .ok url₂ ∧
        (url₁ = url₂ ↔ SameParameters ["x".toList] "a=1&b=2".toList "b=2&a=1".toList)) ∧
      (SameParameters ["x".toList] "a=1&b=2".toList "b=2&a=1".toList → ∀ fields : UrlBased,
        fields.filteredQueryParams = ["x".toList] →
        generateTaskId ⟨exampleCrate, id⟩
            (.urlBased { fields with url := urlOf "http://h".toList "a=1&b=2".toList [] })
          = generateTaskId ⟨exampleCrate, id⟩
            (.urlBased { fields with url := urlOf "http://h".toList "b=2&a=1".toList [] })) :=
  filterQueryParams_eq_iff ⟨exampleCrate, id⟩ "http://h".toList [] (by decide) (by decide)
    ⟨_, rfl⟩ ["x".toList] (by decide) _ _
    (List.all_eq_true.mp (by decide)) (List.all_eq_true.mp (by decide))

/-- A space at the end of a base is trimmed when the base stands alone, and is part of the host, an
error, before a query. -/
theorem not_filterQueryParams_eq_iff :
    ¬ ∀ (base fragment : Str) (filteredQueryParams : List Str) (query₁ query₂ : Str),
      ("http://".toList <+: base ∨ "https://".toList <+: base) → '?' ∉ base ∧ '#' ∉ base →
      (∃ url, Url.parse exampleCrate base = .ok url) → filteredQueryParams ≠ [] →
      (∀ c ∈ query₁, queryChar c = true) → (∀ c ∈ query₂, queryChar c = true) →
      (filterQueryParams exampleCrate (urlOf base query₁ fragment) filteredQueryParams
          = filterQueryParams exampleCrate (urlOf base query₂ fragment) filteredQueryParams ↔
        SameParameters filteredQueryParams query₁ query₂) := by
  intro h
  have hiff := h "http://h ".toList [] ["x".toList] "a=1".toList "b=1".toList (by decide) (by decide)
    ⟨_, rfl⟩ (by decide) (List.all_eq_true.mp (by decide)) (List.all_eq_true.mp (by decide))
  have hsame := hiff.mp rfl "a".toList (by decide)
  revert hsame
  decide

end DragonflySdk
