import DragonflySdk.Proxy
import DragonflySdk.Url.Frame
import DragonflySdk.Url.Scheduler

/-!
# Canonicalizing a canonical url

A canonical url is written so that it is read back. The parser takes it for the url it is made of,
with the canonical query (`exists_parse_canonicalText`); each segment of that query is read, leniently
and strictly, as the parameter it was written for (`queryPairs_canonicalQuery`,
`schedulerPairs_formEncode`); and whether its path is empty is decided on it as on the url
(`hasEmptyPath_canonicalText`).

So canonicalizing it again only filters further: with `P` and then with `Q` is with `P ++ Q`. It
makes no difference how often, in which order and in how many steps parameters are filtered, nor
whether the SDK or the scheduler does it after the first time.
-/

namespace DragonflySdk

open Foundation

/-! ### Reading a canonical query -/

section reading
variable (pairs : List (List UInt8 × List UInt8))

theorem splitOn_formEncode (hne : pairs ≠ []) :
    ((formEncode pairs).getD []).splitOn '&' =
      pairs.map fun p => formEscape p.1 ++ '=' :: formEscape p.2 := by
  rw [formEncode, if_neg hne, Option.getD_some]
  refine List.splitOn_intercalate '&' ?_ (by simpa using hne)
  intro part hpart
  obtain ⟨p, _, rfl⟩ := List.mem_map.mp hpart
  exact formPair_noAmpersand p

theorem formPair_kept (p : List UInt8 × List UInt8) :
    ¬ (formEscape p.1 ++ '=' :: formEscape p.2 = [] ∨
      ';' ∈ formEscape p.1 ++ '=' :: formEscape p.2) := by
  have htoken : ∀ b, (formEscapeByte b).all (· ≠ ';') = true := by
    refine forall_byte ?_
    decide +kernel
  have hsemicolon : ∀ bytes, ';' ∉ formEscape bytes := by
    intro bytes hmem
    obtain ⟨b, _, hb⟩ := List.mem_flatMap.mp hmem
    simpa using List.all_eq_true.mp (htoken b) ';' hb
  rintro (hnil | hmem)
  · simp at hnil
  · rcases List.mem_append.mp hmem with hmem | hmem
    · exact hsemicolon _ hmem
    · rcases List.mem_cons.mp hmem with h | hmem
      · exact absurd h (by decide)
      · exact hsemicolon _ hmem

/-- **A pair is read back**, strictly. -/
theorem strictSegment_formPair (p : List UInt8 × List UInt8) :
    strictSegment (formEscape p.1 ++ '=' :: formEscape p.2) = some p := by
  have hequals : '=' ∉ formEscape p.1 := fun hmem => formEscape_noDelimiter hmem (by decide)
  unfold strictSegment
  rw [cut_append '=' hequals]
  simp only [Option.getD_some, formDecode?_formEscape]

theorem keptByScheduler_formPair (filteredQueryParams : List Str) (p : List UInt8 × List UInt8) :
    keptByScheduler filteredQueryParams (formEscape p.1 ++ '=' :: formEscape p.2) =
      if p.1 ∈ filteredQueryParams.map utf8 then none else some p := by
  unfold keptByScheduler
  rw [if_neg (formPair_kept p), strictSegment_formPair]
  by_cases hmem : p.1 ∈ filteredQueryParams.map utf8
  · rw [if_pos hmem]
    exact Option.filter_some_neg (by simpa using hmem)
  · rw [if_neg hmem]
    exact Option.filter_some_pos (by simpa using hmem)

/-- **The scheduler reads back the pairs of a query**, but for those it filters. -/
theorem schedulerPairs_formEncode (filteredQueryParams : List Str) :
    (((formEncode pairs).getD []).splitOn '&').filterMap (keptByScheduler filteredQueryParams) =
      pairs.filter fun p => p.1 ∉ filteredQueryParams.map utf8 := by
  by_cases hne : pairs = []
  · subst hne
    rfl
  · rw [splitOn_formEncode pairs hne, List.filterMap_map, ← List.filterMap_eq_filter]
    refine List.filterMap_congr fun p _ => ?_
    rw [Function.comp_apply, keptByScheduler_formPair]
    by_cases hmem : p.1 ∈ filteredQueryParams.map utf8
    · rw [if_pos hmem, Option.guard_eq_none_iff.mpr (by simpa using hmem)]
    · rw [if_neg hmem, Option.guard_eq_some_iff.mpr ⟨rfl, by simpa using hmem⟩]

end reading

theorem filter_key_sortByKey (pairs : List (Str × Str)) (k : Str) :
    (sortByKey (fun p => textOrder p.1) pairs).filter (fun p => p.1 = k) =
      pairs.filter (fun p => p.1 = k) := by
  have hkey : ∀ p : Str × Str, p.1 = k ↔ textOrder p.1 = textOrder k := fun p =>
    textOrder_injective.eq_iff.symm
  simp only [hkey]
  exact filter_sortByKey (fun p : Str × Str => textOrder p.1) (textOrder k) pairs

/-- **A canonical query is read alike** by the SDK and by the scheduler: as the parameters it was
written for, sorted, but for those that are filtered. -/
theorem queryPairs_canonicalQuery (pairs : List (Str × Str)) (filteredQueryParams : List Str) :
    queryPairs ((canonicalQuery pairs).getD []) filteredQueryParams =
        sortByKey (fun p => textOrder p.1) (pairs.filter fun p =>
          !filteredQueryParams.contains p.1) ∧
      canonicalQuery (queryPairs ((canonicalQuery pairs).getD []) filteredQueryParams) =
        schedulerQuery ((canonicalQuery pairs).getD []) filteredQueryParams := by
  have hsorted : (sortByKey (fun p => textOrder p.1) pairs).map pairBytes =
      sortByKey keyOrder (pairs.map pairBytes) :=
    map_sortByKey (fun p => textOrder p.1) pairBytes keyOrder (fun _ => rfl) pairs
  -- what the scheduler reads is valid, so the SDK reads it too
  have halike : ∀ segment ∈ ((canonicalQuery pairs).getD []).splitOn '&',
      keptBySdk filteredQueryParams segment = keptByScheduler filteredQueryParams segment := by
    intro segment hsegment
    rw [canonicalQuery_eq, sortedQuery, ← hsorted] at hsegment
    rw [← readAlike_iff]
    by_cases hne : (sortByKey (fun p => textOrder p.1) pairs).map pairBytes = []
    · rw [hne] at hsegment
      exact .inl (List.mem_singleton.mp hsegment)
    · rw [splitOn_formEncode _ hne, List.map_map] at hsegment
      obtain ⟨p, _, rfl⟩ := List.mem_map.mp hsegment
      exact .inr (.inr (.inl ⟨p.1, p.2, strictSegment_formPair (pairBytes p)⟩))
  have hread := queryPairs_eq ((canonicalQuery pairs).getD []) filteredQueryParams
  rw [List.filterMap_congr halike] at hread
  constructor
  · refine List.map_injective_iff.mpr pairBytes_injective ?_
    rw [hread, canonicalQuery_eq, sortedQuery, schedulerPairs_formEncode, ← hsorted, List.filter_map,
      ← filter_sortByKey_comm]
    congr 1
    refine List.filter_congr fun p _ => ?_
    simp only [Function.comp_apply, pairBytes, List.mem_map_of_injective utf8_injective,
      List.contains_eq_mem, decide_not]
  · rw [canonicalQuery_eq, hread, schedulerQuery]

theorem queryPairs_append (query : Str) (P Q : List Str) :
    queryPairs query (P ++ Q) = (queryPairs query P).filter fun p => !Q.contains p.1 := by
  unfold queryPairs
  rw [List.filter_filter]
  refine List.filter_congr fun p _ => ?_
  show (!(P ++ Q).contains p.1) = (!Q.contains p.1 && !P.contains p.1)
  rw [List.contains_eq_any_beq, List.any_append, ← List.contains_eq_any_beq,
    ← List.contains_eq_any_beq, Bool.not_or, Bool.and_comm]

theorem canonicalQuery_canonicalQuery (query : Str) (P Q : List Str) :
    canonicalQuery (queryPairs ((canonicalQuery (queryPairs query P)).getD []) Q) =
      canonicalQuery (queryPairs query (P ++ Q)) := by
  rw [(queryPairs_canonicalQuery _ _).1, queryPairs_append, canonicalQuery_eq_iff]
  exact filter_key_sortByKey _

/-! ### Reading a canonical url -/

/-- What else the url crate keeps to with `http` and `https` urls. -/
structure UrlCrate.Rooted (crate : UrlCrate) : Prop extends crate.Lawful where
  /-- There is a host, and no slash before the path. -/
  authority : ∀ text base, crate.parseBase text = .ok base → base.isHttp →
    ∃ host, base.host = some host ∧ '/' ∉ base.userinfo ++ host
  /-- The path starts with a slash. -/
  rooted : ∀ text base, crate.parseBase text = .ok base → base.isHttp → base.path.head? = some '/'

/-- The canonical url: up to the path as it is parsed, or without the path, then the canonical query
and the fragment. -/
def canonicalText (url : Str) (parsed : Url) (filteredQueryParams : List Str) : Str :=
  canonicalBase url parsed.base ++
    (queryText (canonicalQuery (queryPairs (parsed.query.getD []) filteredQueryParams)) ++
      fragmentText parsed.fragment)

theorem setQuery_canonicalQuery (parsed : Url) (pairs : List (Str × Str)) :
    (parsed.setQuery (canonicalQuery pairs)).query = canonicalQuery pairs := by
  show (canonicalQuery pairs).map _ = _
  cases hcanonical : canonicalQuery pairs with
  | none => rfl
  | some q =>
    rw [canonicalQuery_eq] at hcanonical
    rw [Option.map_some, encode_formEncode hcanonical]

theorem filterQueryParams_eq_canonicalText {crate : UrlCrate} {url : Str} {parsed : Url}
    (hparse : Url.parse crate url = .ok parsed) {filteredQueryParams : List Str}
    (hparams : filteredQueryParams ≠ []) :
    filterQueryParams crate url filteredQueryParams =
      .ok (canonicalText url parsed filteredQueryParams) := by
  unfold filterQueryParams canonicalText canonicalBase
  rw [if_neg hparams, hparse]
  simp only [Url.toStr, Url.afterPath_eq, setQuery_canonicalQuery]
  by_cases hempty : hasEmptyPath url = true
  · rw [if_pos hempty, if_pos hempty]
    rfl
  · rw [if_neg hempty, if_neg hempty]
    rfl

section
variable {crate : UrlCrate} (hcrate : crate.Rooted) {url : Str} {parsed : Url}
  (hparse : Url.parse crate url = .ok parsed) (hhttp : parsed.base.isHttp)
include hcrate hparse hhttp

theorem exists_authority : ∃ authority, (∀ c ∈ authority, c ≠ '/' ∧ c ≠ '?' ∧ c ≠ '#') ∧
    ∀ t, afterFirst "://".toList (parsed.base.beforePath ++ t) = some (authority ++ t) := by
  obtain ⟨⟨text, hbase⟩, _⟩ := of_parse_eq_ok hparse
  obtain ⟨host, hhost, hslash⟩ := hcrate.authority text parsed.base hbase hhttp
  have hport : ∀ port : Option Nat, '/' ∉ port.elim [] fun port => ':' :: port.repr.toList := by
    intro port hmem
    cases port with
    | none => cases hmem
    | some port =>
      rcases List.mem_cons.mp hmem with h | hmem
      · exact absurd h (by decide)
      · have hdigit := Nat.isDigit_of_mem_toDigits (by decide) (by decide)
          (Nat.toList_repr.symm ▸ hmem)
        exact absurd hdigit (by decide)
  obtain ⟨authority, hbefore, hauthority⟩ : ∃ authority, parsed.base.beforePath =
      parsed.base.scheme ++ ("://".toList ++ authority) ∧ '/' ∉ authority := by
    refine ⟨parsed.base.userinfo ++ host ++ parsed.base.port.elim [] fun port =>
      ':' :: port.repr.toList, ?_, fun hmem => ?_⟩
    · unfold UrlParts.beforePath
      rw [hhost]
      cases parsed.base.port <;> simp
    · exact (List.mem_append.mp hmem).elim hslash (hport _)
  refine ⟨authority, fun c hc => ⟨fun h => hauthority (h ▸ hc), ?_⟩, fun t => ?_⟩
  · refine parsed.base.noDelimiter c (List.mem_append_left _ ?_)
    rw [hbefore]
    exact List.mem_append_right _ (List.mem_append_right _ hc)
  · rw [hbefore, List.append_assoc, List.append_assoc]
    rcases hhttp with hscheme | hscheme <;>
    · rw [hscheme]
      rfl

/-- **The path of the canonical url is as empty as that of the url.** -/
theorem hasEmptyPath_canonicalText (filteredQueryParams : List Str) :
    hasEmptyPath (canonicalText url parsed filteredQueryParams) = hasEmptyPath url := by
  obtain ⟨⟨text, hbase⟩, _⟩ := of_parse_eq_ok hparse
  obtain ⟨authority, hplain, hafter⟩ := exists_authority hcrate hparse hhttp
  have hfront : ∀ c ∈ authority, (c != '?' && c != '#') = true := by
    intro c hc
    rw [Bool.and_eq_true, bne_iff_ne, bne_iff_ne]
    exact (hplain c hc).2
  unfold canonicalText canonicalBase
  by_cases hempty : hasEmptyPath url = true
  · rw [if_pos hempty, hempty]
    -- what comes after the authority is a query, a fragment or nothing
    have hstop : ∀ query fragment, (queryText query ++ fragmentText fragment).takeWhile
        (fun c => c != '?' && c != '#') = [] := by
      intro query fragment
      cases query <;> cases fragment <;> rfl
    unfold hasEmptyPath
    rw [hafter]
    simp only
    rw [List.takeWhile_append_of_pos hfront, hstop, List.append_nil, Bool.not_eq_true',
      ← Bool.not_eq_true, List.contains_iff_mem]
    exact fun hmem => (hplain _ hmem).1 rfl
  · rw [if_neg hempty, Bool.eq_false_of_not_eq_true hempty]
    obtain ⟨path, hpath⟩ := List.head?_eq_some_iff.mp (hcrate.rooted text parsed.base hbase hhttp)
    unfold hasEmptyPath
    rw [List.append_assoc, hafter, hpath]
    simp only
    rw [List.takeWhile_append_of_pos hfront, List.cons_append, List.takeWhile_cons_of_pos (by decide),
      Bool.not_eq_false', List.contains_iff_mem]
    exact List.mem_append_right _ List.mem_cons_self

/-- **A canonical url is parsed into the url it is made of**, with the canonical query; a path that
was left out is `/`. -/
theorem exists_parse_canonicalText {filteredQueryParams : List Str}
    (hparams : filteredQueryParams ≠ []) :
    ∃ canonical, Url.parse crate (canonicalText url parsed filteredQueryParams) = .ok canonical ∧
      canonical.base.toUrlParts = canonicalParts url parsed ∧
      canonical.query =
        canonicalQuery (queryPairs (parsed.query.getD []) filteredQueryParams) ∧
      canonical.fragment = parsed.fragment := by
  obtain ⟨text, canonical, htext, hcanonical, hparts, hfragment⟩ :=
    exists_parse_canonical hcrate.toLawful hparse hhttp hparams
  obtain rfl := Except.ok.inj ((filterQueryParams_eq_canonicalText hparse hparams).symm.trans htext)
  refine ⟨canonical, hcanonical, hparts, ?_, hfragment⟩
  obtain ⟨⟨text, hbase⟩, hencoded⟩ := of_parse_eq_ok hparse
  unfold canonicalText at hcanonical
  generalize hquery : canonicalQuery (queryPairs (parsed.query.getD []) filteredQueryParams) = query
    at hcanonical
  -- the query is percent-encoded as it is set, so the parser leaves it as it is
  have hset : ∀ isSpecial, ∀ q, query = some q →
      utf8PercentEncode (querySet isSpecial) (q.filter notTabOrNewline) = q := by
    rintro isSpecial q rfl
    rw [canonicalQuery_eq] at hquery
    exact encode_formEncode hquery
  have hplain : ∀ c ∈ canonicalBase url parsed.base, plainChar c = true := by
    intro c hc
    refine hcrate.plain text parsed.base hbase hhttp c ?_
    unfold canonicalBase at hc
    split_ifs at hc
    · exact List.mem_append_left _ hc
    · exact hc
  rw [Url.parse_written crate hplain
    (fun q hq => hset parsed.base.isSpecial q hq ▸
      ⟨hash_notMem_query _ _, (settles_querySet _).visible _⟩)
    fun f hf => (hencoded f hf).elim fun s hs => hs ▸ settles_fragmentSet.visible s] at hcanonical
  obtain ⟨base, _, rfl⟩ := map_eq_ok_iff.mp hcanonical
  cases query with
  | none => rfl
  | some q =>
    show some (utf8PercentEncode _ q) = some q
    rw [← hset base.isSpecial q rfl, encode_utf8PercentEncode (settles_querySet _)]

/-- **Canonicalizing a canonical url again** is filtering both at once. -/
theorem canonicalText_canonicalText {P : List Str} (hP : P ≠ []) (Q : List Str) :
    ∃ canonical, Url.parse crate (canonicalText url parsed P) = .ok canonical ∧
      canonicalText (canonicalText url parsed P) canonical Q = canonicalText url parsed (P ++ Q) := by
  obtain ⟨canonical, hcanonical, hparts, hquery, hfragment⟩ :=
    exists_parse_canonicalText hcrate hparse hhttp hP
  obtain ⟨⟨text, hbase⟩, _⟩ := of_parse_eq_ok hparse
  obtain ⟨host, hhost, _⟩ := hcrate.authority text parsed.base hbase hhttp
  refine ⟨canonical, hcanonical, ?_⟩
  have hsame : canonicalBase (canonicalText url parsed P) canonical.base =
      canonicalBase url parsed.base := by
    unfold canonicalBase
    rw [hasEmptyPath_canonicalText hcrate hparse hhttp]
    unfold canonicalParts at hparts
    by_cases hempty : hasEmptyPath url = true
    · rw [if_pos hempty] at hparts ⊢
      -- what is before the path does not depend on it when there is a host
      rw [if_pos hempty, hparts]
      unfold UrlParts.beforePath UrlParts.userinfo
      rw [hhost]
    · rw [if_neg hempty] at hparts ⊢
      rw [if_neg hempty, hparts]
  rw [canonicalText, hsame, hquery, hfragment, canonicalQuery_canonicalQuery, canonicalText]

end

/-! ### Round trips -/

/-- The canonical url of `parsed` and what it is read as. -/
structure ReadsBack (crate : UrlCrate) (url : Str) (parsed : Url) (filteredQueryParams : List Str)
    (text : Str) (canonical : Url) : Prop where
  parse : Url.parse crate text = .ok canonical
  /-- Scheme, user, host, port and path; a path that was left out is `/`. -/
  parts : canonical.base.toUrlParts = canonicalParts url parsed
  fragment : canonical.fragment = parsed.fragment
  /-- The parameters are those of the url that are not filtered, sorted by key. -/
  params : ∀ filtered, queryPairs (canonical.query.getD []) filtered =
    sortByKey (fun p => textOrder p.1)
      (queryPairs (parsed.query.getD []) (filteredQueryParams ++ filtered))
  /-- The scheduler makes the same of the canonical query as the SDK. -/
  scheduler : ∀ filtered, filtered ≠ [] → ∃ again,
    filterQueryParams crate text filtered = .ok again ∧
      queryPart again = schedulerQuery (canonical.query.getD []) filtered

/-- **A canonical url is read back**, by the SDK and by the scheduler alike. -/
theorem filterQueryParams_reads_back (crate : UrlCrate) (hcrate : crate.Rooted) (url : Str)
    (parsed : Url) (hparse : Url.parse crate url = .ok parsed) (hhttp : parsed.base.isHttp)
    (filteredQueryParams : List Str) (hparams : filteredQueryParams ≠ []) :
    ∃ text canonical, filterQueryParams crate url filteredQueryParams = .ok text ∧
      ReadsBack crate url parsed filteredQueryParams text canonical := by
  obtain ⟨canonical, hcanonical, hparts, hquery, hfragment⟩ :=
    exists_parse_canonicalText hcrate hparse hhttp hparams
  refine ⟨_, canonical, filterQueryParams_eq_canonicalText hparse hparams, hcanonical, hparts,
    hfragment, fun filtered => ?_, fun filtered hfiltered => ?_⟩
  · rw [hquery, (queryPairs_canonicalQuery _ filtered).1, queryPairs_append]
  · refine ⟨_, filterQueryParams_eq_canonicalText hcanonical hfiltered, ?_⟩
    have hread := (queryPairs_canonicalQuery
      (queryPairs (parsed.query.getD []) filteredQueryParams) filtered).2
    rw [← hquery] at hread
    unfold canonicalText
    rw [queryPart_append (canonicalBase_noDelimiter _ canonical.base), hread]
    intro q hq
    rw [canonicalQuery_eq] at hq
    exact (formEncode_noDelimiter hq).2

/-! ### One host -/

theorem exists_hostPath {text : Str} {base : UrlBase} (h : hostCrate.parseBase text = .ok base) :
    ∃ p : HostPath, base = p.base := by
  unfold hostCrate at h
  simp only at h
  rcases hpath : (stripPrefix "https://h".toList text).bind HostPath.ofStr with _ | p
  · rw [hpath] at h
    cases h
  · rw [hpath] at h
    exact ⟨p, (Except.ok.inj h).symm⟩

theorem hostCrate_rooted : hostCrate.Rooted where
  toLawful := hostCrate_lawful
  authority text base hbase _ := by
    obtain ⟨p, rfl⟩ := exists_hostPath hbase
    exact ⟨_, rfl, (by decide : '/' ∉ HostPath.root.base.userinfo ++ "h".toList)⟩
  rooted text base hbase _ := by
    obtain ⟨p, rfl⟩ := exists_hostPath hbase
    exact p.rooted

/-- A file with a parameter to filter. -/
def exampleFileUrl : Url := ⟨exampleFile.base, some "x=1&b=2".toList, none⟩

theorem parse_exampleFileUrl : Url.parse hostCrate "https://h/a?x=1&b=2".toList = .ok exampleFileUrl :=
  rfl

/-- At a file with a parameter to filter. -/
theorem filterQueryParams_reads_back_file :
    ∃ text canonical,
      filterQueryParams hostCrate "https://h/a?x=1&b=2".toList ["x".toList] = .ok text ∧
        ReadsBack hostCrate "https://h/a?x=1&b=2".toList exampleFileUrl ["x".toList] text canonical :=
  filterQueryParams_reads_back hostCrate hostCrate_rooted "https://h/a?x=1&b=2".toList exampleFileUrl
    parse_exampleFileUrl (Or.inr rfl) ["x".toList] (by decide)

/-! ### Filtering more than once -/

theorem queryPairs_congr {P Q : List Str} (h : ∀ param, param ∈ P ↔ param ∈ Q) (query : Str) :
    queryPairs query P = queryPairs query Q := by
  refine List.filter_congr fun p _ => ?_
  show (!P.contains p.1) = (!Q.contains p.1)
  rw [Bool.eq_iff_iff, Bool.not_eq_true', Bool.not_eq_true', ← Bool.not_eq_true, ← Bool.not_eq_true,
    List.contains_iff_mem, List.contains_iff_mem, h]

theorem filterQueryParams_congr {crate : UrlCrate} {P Q : List Str}
    (h : ∀ param, param ∈ P ↔ param ∈ Q) (url : Str) :
    filterQueryParams crate url P = filterQueryParams crate url Q := by
  have hnil : P = [] ↔ Q = [] := by
    simp only [List.eq_nil_iff_forall_not_mem, h]
  unfold filterQueryParams
  simp only [hnil, queryPairs_congr h]

/-- The task id is not read off a digest in the url. -/
def TaskFields.ByUrl (task : TaskFields) : Prop :=
  task.contentForCalculatingTaskId = none → task.enableTaskIdBasedBlobDigest = false

theorem taskId_congr {crates : IdCrates} {task : TaskFields} (htask : task.ByUrl) {text : Str}
    (h : filterQueryParams crates.url text task.filteredQueryParams =
      filterQueryParams crates.url task.url task.filteredQueryParams) :
    taskId crates { task with url := text } = taskId crates task := by
  unfold taskId
  congr 1
  by_cases hcontent : task.contentForCalculatingTaskId = none
  · have hbyUrl : taskIdParameter { task with url := text } =
        .urlBased { task.urlBased with url := text } :=
      taskIdParameter_urlBased hcontent (htask hcontent)
    rw [hbyUrl, taskIdParameter_urlBased hcontent (htask hcontent), generateTaskId, generateTaskId]
    simp only [TaskFields.urlBased, h]
    rfl
  · obtain ⟨content, hcontent⟩ := Option.ne_none_iff_exists'.mp hcontent
    simp only [taskIdParameter, hcontent]

/-- What it is to filter the parameters `P` of a url, once for all. -/
structure FiltersOnce (crates : ProxyCrates) (url : Str) (P : List Str) (text : Str) : Prop where
  /-- Filtering further is filtering both at once. -/
  again : ∀ Q, Q ≠ [] → filterQueryParams crates.id.url text Q =
    filterQueryParams crates.id.url url (P ++ Q)
  idempotent : filterQueryParams crates.id.url text P = .ok text
  anyOrder : ∀ P', (∀ param, param ∈ P' ↔ param ∈ P) →
    filterQueryParams crates.id.url url P' = .ok text
  commutes : ∀ Q text', Q ≠ [] → filterQueryParams crates.id.url url Q = .ok text' →
    filterQueryParams crates.id.url text' P = filterQueryParams crates.id.url text Q
  /-- A request that filters at least `P` may have either url: it is for the same task. -/
  taskId : ∀ task : TaskFields, task.url = url → task.ByUrl → P ⊆ task.filteredQueryParams →
    DragonflySdk.taskId crates.id { task with url := text } = DragonflySdk.taskId crates.id task
  /-- So it is sent to the same endpoints, whatever the state of the proxy. -/
  endpoints : ∀ (proxy : Proxy crates) (fuel now : Nat) (request : GetRequest), request.url = url →
    request.ByUrl → P ⊆ request.filteredQueryParams →
    proxy.lookupProxyEndpoints fuel now { request with url := text } =
      proxy.lookupProxyEndpoints fuel now request

/-- **Parameters are filtered once for all**, however often, in whichever order and in however many
steps it is done. -/
theorem filterQueryParams_once (crates : ProxyCrates) (hcrate : crates.id.url.Rooted) (url : Str)
    (parsed : Url) (hparse : Url.parse crates.id.url url = .ok parsed) (hhttp : parsed.base.isHttp)
    (P : List Str) (hP : P ≠ []) :
    ∃ text, filterQueryParams crates.id.url url P = .ok text ∧ FiltersOnce crates url P text := by
  have hagain : ∀ {P}, P ≠ [] → ∀ {text}, filterQueryParams crates.id.url url P = .ok text →
      ∀ Q, Q ≠ [] → filterQueryParams crates.id.url text Q =
        filterQueryParams crates.id.url url (P ++ Q) := by
    intro P hP text htext Q hQ
    obtain rfl := Except.ok.inj ((filterQueryParams_eq_canonicalText hparse hP).symm.trans htext)
    obtain ⟨canonical, hcanonical, hboth⟩ := canonicalText_canonicalText hcrate hparse hhttp hP Q
    rw [filterQueryParams_eq_canonicalText hcanonical hQ, hboth,
      filterQueryParams_eq_canonicalText hparse (List.append_ne_nil_of_left_ne_nil hP Q)]
  have htext := filterQueryParams_eq_canonicalText hparse hP
  -- what filters `P` too canonicalizes both urls alike
  have hsame : ∀ Q, P ⊆ Q → filterQueryParams crates.id.url (canonicalText url parsed P) Q =
      filterQueryParams crates.id.url url Q := by
    intro Q hsubset
    have hQ : Q ≠ [] := by
      rintro rfl
      exact hP (List.subset_nil.mp hsubset)
    rw [hagain hP htext Q hQ]
    refine filterQueryParams_congr (fun param => ?_) url
    rw [List.mem_append]
    exact ⟨fun h => h.elim (hsubset ·) id, Or.inr⟩
  have htaskId : ∀ task : TaskFields, task.url = url → task.ByUrl → P ⊆ task.filteredQueryParams →
      taskId crates.id { task with url := canonicalText url parsed P } = taskId crates.id task := by
    rintro task rfl htask hsubset
    exact taskId_congr htask (hsame _ hsubset)
  refine ⟨canonicalText url parsed P, htext, hagain hP htext, ?_, fun P' hP' => ?_,
    fun Q text' hQ htext' => ?_, htaskId, fun proxy fuel now request hurl hrequest hsubset => ?_⟩
  · rw [hsame P (List.Subset.refl P), htext]
  · rw [filterQueryParams_congr hP', htext]
  · rw [hagain hQ htext' P hP, hagain hP htext Q hQ]
    exact filterQueryParams_congr (fun param => by rw [List.mem_append, List.mem_append, or_comm]) url
  · unfold Proxy.lookupProxyEndpoints
    rw [show taskId crates.id _ = taskId crates.id request.toTaskFields from
      htaskId request.toTaskFields hurl hrequest hsubset]

/-- The crates of a proxy of one host. -/
def hostProxyCrates : ProxyCrates where
  id := ⟨hostCrate, id⟩
  ring := nameRing
  backon := exampleBackon
  durationTryFrom timeout := .ok ⟨timeout / 1000000000, timeout % 1000000000⟩

/-- At a file with a parameter to filter. -/
theorem filterQueryParams_once_file :
    ∃ text, filterQueryParams hostCrate "https://h/a?x=1&b=2".toList ["x".toList] = .ok text ∧
      FiltersOnce hostProxyCrates "https://h/a?x=1&b=2".toList ["x".toList] text :=
  filterQueryParams_once hostProxyCrates hostCrate_rooted "https://h/a?x=1&b=2".toList exampleFileUrl
    parse_exampleFileUrl (Or.inr rfl) ["x".toList] (by decide)

end DragonflySdk
