import DragonflySdk.Url.Query

/-!
# The scheduler's canonical query

The scheduler canonicalizes a query with Go's `url.Values`: a segment with a `%` that two hex digits
do not follow is dropped, and keys and values are byte strings (`schedulerQuery`). `filterQueryParams`
keeps such a segment, reads bytes lossily, and never sees spaces at the end of a url without a
fragment.

Both sort what they keep of the segments by key. So the two queries can be compared segment by
segment, `ReadAlike` being what makes a segment harmless, but for one coincidence that sorting hides:
a malformed segment standing in for the last one (`StandsIn`). `queryPart_eq_schedulerQuery_iff` is
the exact condition.
-/

namespace DragonflySdk

open Foundation

/-! ### The reference -/

/-- The key and the value of a segment, read strictly. -/
def strictSegment (segment : Str) : Option (List UInt8 × List UInt8) :=
  match formDecode? (utf8 (cut '=' segment).1), formDecode? (utf8 ((cut '=' segment).2.getD [])) with
  | some key, some value => some (key, value)
  | _, _ => none

/-- What the scheduler keeps of a segment. -/
def keptByScheduler (filteredQueryParams : List Str) (segment : Str) :
    Option (List UInt8 × List UInt8) :=
  if segment = [] ∨ ';' ∈ segment then none
  else (strictSegment segment).filter fun p => p.1 ∉ filteredQueryParams.map utf8

/-- The canonical form of a query, as the scheduler writes it. -/
def schedulerQuery (query : Str) (filteredQueryParams : List Str) : Option Str :=
  sortedQuery ((query.splitOn '&').filterMap (keptByScheduler filteredQueryParams))

/-- The query of a url: from the first `?` to the first `#`. -/
def queryPart (url : Str) : Option Str := (cut '?' (cut '#' url).1).2

/-! ### What the SDK keeps -/

/-- What `filterQueryParams` keeps of a segment. -/
def keptBySdk (filteredQueryParams : List Str) (segment : Str) : Option (List UInt8 × List UInt8) :=
  if segment = [] ∨ ';' ∈ segment then none
  else if (formSequence segment).1 ∈ filteredQueryParams then none
  else some (pairBytes (formSequence segment))

theorem queryPairs_eq (query : Str) (filteredQueryParams : List Str) :
    (queryPairs query filteredQueryParams).map pairBytes
      = (query.splitOn '&').filterMap (keptBySdk filteredQueryParams) := by
  have hparts : ∀ parts : List Str, (∀ part ∈ parts, '&' ∉ part) →
      (((parts.filter fun segment => !segment.contains ';').flatMap formUrlencodedParse).filter
        fun p => !filteredQueryParams.contains p.1).map pairBytes
        = parts.filterMap (keptBySdk filteredQueryParams) := by
    intro parts hparts
    induction parts with
    | nil => rfl
    | cons part parts ih =>
      have htail := ih fun p hp => hparts p (List.mem_cons_of_mem part hp)
      have hpart := hparts part List.mem_cons_self
      by_cases hsemicolon : ';' ∈ part
      · rw [List.filter_cons_of_neg (by simpa using hsemicolon), htail, List.filterMap_cons_none]
        unfold keptBySdk
        rw [if_pos (.inr hsemicolon)]
      · rw [List.filter_cons_of_pos (by simpa using hsemicolon), List.flatMap_cons,
          List.filter_append, List.map_append, htail]
        have hparse : formUrlencodedParse part = if part = [] then [] else [formSequence part] := by
          unfold formUrlencodedParse
          rw [List.splitOn_eq_singleton hpart]
          by_cases hnil : part = []
          · simp [hnil]
          · simp [hnil]
        by_cases hnil : part = []
        · rw [hparse, if_pos hnil, List.filterMap_cons_none]
          · rfl
          · unfold keptBySdk
            rw [if_pos (.inl hnil)]
        · have hnot : ¬ (part = [] ∨ ';' ∈ part) := fun h => h.elim hnil hsemicolon
          rw [hparse, if_neg hnil]
          by_cases hmem : (formSequence part).1 ∈ filteredQueryParams
          · rw [List.filter_cons_of_neg (by simpa using hmem), List.filterMap_cons_none]
            · rfl
            · unfold keptBySdk
              rw [if_neg hnot, if_pos hmem]
          · rw [List.filter_cons_of_pos (by simpa using hmem),
              List.filterMap_cons_some (b := pairBytes (formSequence part))]
            · rfl
            · unfold keptBySdk
              rw [if_neg hnot, if_neg hmem]
  exact hparts _ fun part => notMem_of_mem_splitOn

/-! ### Segment by segment -/

section segment
variable {filteredQueryParams : List Str} {segment : Str}

/-- The SDK drops the segment. -/
def DroppedBySdk (filteredQueryParams : List Str) (segment : Str) : Prop :=
  segment = [] ∨ ';' ∈ segment ∨ (formSequence segment).1 ∈ filteredQueryParams

/-- The scheduler drops the segment, as malformed or as filtered. -/
def DroppedByScheduler (filteredQueryParams : List Str) (segment : Str) : Prop :=
  segment = [] ∨ ';' ∈ segment ∨
    ∀ p, strictSegment segment = some p → p.1 ∈ filteredQueryParams.map utf8

/-- Both make the same of the segment: it is well-formed UTF-8, or dropped by both. -/
def ReadAlike (filteredQueryParams : List Str) (segment : Str) : Prop :=
  segment = [] ∨ ';' ∈ segment ∨
    (∃ key value, strictSegment segment = some (utf8 key, utf8 value)) ∨
    (formSequence segment).1 ∈ filteredQueryParams ∧
      ∀ p, strictSegment segment = some p → ValidUtf8 p.1

theorem keptBySdk_eq_none :
    keptBySdk filteredQueryParams segment = none ↔ DroppedBySdk filteredQueryParams segment := by
  unfold keptBySdk DroppedBySdk
  split_ifs with h₁ h₂
  · simp only [true_iff]
    exact h₁.imp_right .inl
  · simp [h₂]
  · simp only [false_iff, not_or]
    exact ⟨fun h => h₁ (.inl h), fun h => h₁ (.inr h), h₂⟩

theorem keptBySdk_eq_some {p : List UInt8 × List UInt8} :
    keptBySdk filteredQueryParams segment = some p ↔
      ¬ DroppedBySdk filteredQueryParams segment ∧ p = pairBytes (formSequence segment) := by
  rw [← keptBySdk_eq_none]
  unfold keptBySdk
  split_ifs <;> simp [eq_comm]

theorem keptByScheduler_eq_some {p : List UInt8 × List UInt8} :
    keptByScheduler filteredQueryParams segment = some p ↔
      (segment ≠ [] ∧ ';' ∉ segment) ∧ strictSegment segment = some p ∧
        p.1 ∉ filteredQueryParams.map utf8 := by
  unfold keptByScheduler
  split_ifs with h
  · simp only [false_iff]
    exact fun hp => h.elim hp.1.1 hp.1.2
  · rw [not_or] at h
    simp only [ne_eq, h, not_false_eq_true, and_self, true_and, Option.filter_eq_some_iff,
      decide_eq_true_eq]

theorem keptByScheduler_eq_none : keptByScheduler filteredQueryParams segment = none ↔
    DroppedByScheduler filteredQueryParams segment := by
  rw [Option.eq_none_iff_forall_ne_some, DroppedByScheduler]
  simp only [ne_eq, keptByScheduler_eq_some]
  constructor
  · intro h
    by_cases hsegment : segment = [] ∨ ';' ∈ segment
    · exact hsegment.imp_right .inl
    · rw [not_or] at hsegment
      exact .inr (.inr fun p hp => not_not.mp fun hmem => h p ⟨hsegment, hp, hmem⟩)
  · rintro (h | h | h) p ⟨⟨hne, hsemicolon⟩, hp, hmem⟩
    · exact hne h
    · exact hsemicolon h
    · exact hmem (h p hp)

theorem formSequence_of_strictSegment {p : List UInt8 × List UInt8}
    (h : strictSegment segment = some p) :
    formSequence segment = (fromUtf8Lossy p.1, fromUtf8Lossy p.2) := by
  unfold strictSegment at h
  cases hk : formDecode? (utf8 (cut '=' segment).1) with
  | none => simp [hk] at h
  | some k =>
    cases hv : formDecode? (utf8 ((cut '=' segment).2.getD [])) with
    | none => simp [hk, hv] at h
    | some v =>
      rw [hk, hv] at h
      rw [← Option.some.inj h]
      unfold formSequence
      simp only [formDecode?_eq_some hk, formDecode?_eq_some hv]

/-- Both texts of a parameter are valid. -/
def ValidPair (p : List UInt8 × List UInt8) : Prop := ValidUtf8 p.1 ∧ ValidUtf8 p.2

theorem keptBySdk_valid {p : List UInt8 × List UInt8}
    (h : keptBySdk filteredQueryParams segment = some p) : ValidPair p := by
  obtain ⟨_, rfl⟩ := keptBySdk_eq_some.mp h
  exact ⟨validUtf8_utf8 _, validUtf8_utf8 _⟩

theorem mem_map_utf8 {bytes : List UInt8} (h : ValidUtf8 bytes) :
    bytes ∈ filteredQueryParams.map utf8 ↔ fromUtf8Lossy bytes ∈ filteredQueryParams := by
  rw [← List.mem_map_of_injective utf8_injective, show utf8 (fromUtf8Lossy bytes) = bytes from h]

theorem keptBySdk_of_keptByScheduler {p : List UInt8 × List UInt8}
    (h : keptByScheduler filteredQueryParams segment = some p) (hp : ValidPair p) :
    keptBySdk filteredQueryParams segment = some p := by
  obtain ⟨⟨hne, hsemicolon⟩, hstrict, hmem⟩ := keptByScheduler_eq_some.mp h
  have hform := formSequence_of_strictSegment hstrict
  refine keptBySdk_eq_some.mpr ⟨?_, ?_⟩
  · rintro (hnil | hsemi | hfiltered)
    · exact hne hnil
    · exact hsemicolon hsemi
    · rw [hform] at hfiltered
      exact hmem ((mem_map_utf8 hp.1).mpr hfiltered)
  · rw [hform]
    exact Prod.ext hp.1.symm hp.2.symm

theorem readAlike_iff : ReadAlike filteredQueryParams segment ↔
    keptBySdk filteredQueryParams segment = keptByScheduler filteredQueryParams segment := by
  constructor
  · rintro (h | h | ⟨key, value, h⟩ | ⟨hmem, h⟩)
    · rw [keptBySdk_eq_none.mpr (.inl h), keptByScheduler_eq_none.mpr (.inl h)]
    · rw [keptBySdk_eq_none.mpr (.inr (.inl h)), keptByScheduler_eq_none.mpr (.inr (.inl h))]
    · cases hkept : keptByScheduler filteredQueryParams segment with
      | some p =>
        refine keptBySdk_of_keptByScheduler hkept ?_
        obtain rfl : (utf8 key, utf8 value) = p :=
          Option.some.inj (h.symm.trans (keptByScheduler_eq_some.mp hkept).2.1)
        exact ⟨validUtf8_utf8 _, validUtf8_utf8 _⟩
      | none =>
        rw [keptBySdk_eq_none]
        refine (keptByScheduler_eq_none.mp hkept).imp_right (Or.imp_right fun hfiltered => ?_)
        have hkey := (mem_map_utf8 (validUtf8_utf8 key)).mp (hfiltered _ h)
        rwa [formSequence_of_strictSegment h]
    · rw [keptBySdk_eq_none.mpr (.inr (.inr hmem)), eq_comm, keptByScheduler_eq_none]
      refine .inr (.inr fun p hp => ?_)
      rw [mem_map_utf8 (h p hp)]
      rwa [formSequence_of_strictSegment hp] at hmem
  · intro h
    cases hkept : keptByScheduler filteredQueryParams segment with
    | some p =>
      rw [hkept] at h
      obtain ⟨hkey, hvalue⟩ := keptBySdk_valid h
      refine .inr (.inr (.inl ⟨fromUtf8Lossy p.1, fromUtf8Lossy p.2, ?_⟩))
      rw [show utf8 (fromUtf8Lossy p.1) = p.1 from hkey,
        show utf8 (fromUtf8Lossy p.2) = p.2 from hvalue]
      exact (keptByScheduler_eq_some.mp hkept).2.1
    | none =>
      rw [hkept] at h
      rcases keptBySdk_eq_none.mp h with hnil | hsemi | hmem
      · exact .inl hnil
      · exact .inr (.inl hsemi)
      · rcases keptByScheduler_eq_none.mp hkept with hnil | hsemi | hfiltered
        · exact .inl hnil
        · exact .inr (.inl hsemi)
        · refine .inr (.inr (.inr ⟨hmem, fun p hp => ?_⟩))
          obtain ⟨key, _, hkey⟩ := List.mem_map.mp (hfiltered p hp)
          exact hkey ▸ validUtf8_utf8 key

end segment

/-! ### Spaces at the end of a url -/

/-- `n` spaces. -/
def spaces (n : Nat) : Str := List.replicate n ' '

theorem seenQuery_append {query : Str} (hq : ∀ c ∈ query, queryChar c = true)
    (fragment : Option Str) : ∃ n, query = seenQuery query fragment ++ spaces n := by
  cases fragment with
  | some _ => exact ⟨0, by rw [seenQuery, spaces, List.replicate_zero, List.append_nil]⟩
  | none =>
    refine ⟨(query.rtakeWhile c0ControlOrSpace).length, ?_⟩
    have hspace : ∀ c ∈ query.rtakeWhile c0ControlOrSpace, c = ' ' := by
      intro c hc
      have hcontrol := List.mem_rtakeWhile_imp hc
      have hchar := hq c ((List.rtakeWhile_suffix _ _).subset hc)
      simp only [c0ControlOrSpace, decide_eq_true_eq] at hcontrol
      simp only [queryChar, Bool.and_eq_true, decide_eq_true_eq] at hchar
      have hn : c.toNat = 32 := by omega
      rw [← Char.ofNat_toNat c, hn]
    rw [seenQuery, spaces, ← List.eq_replicate_of_mem hspace]
    exact List.rdropWhile_append_rtakeWhile.symm

theorem utf8_spaces (n : Nat) : utf8 (spaces n) = List.replicate n 32 := by
  induction n with
  | zero => rfl
  | succ n ih =>
    unfold spaces at *
    rw [List.replicate_succ, utf8_cons, ih, List.replicate_succ]
    rfl

theorem formDecode_append_spaces (bytes : List UInt8) (n : Nat) :
    formDecode (bytes ++ List.replicate n 32) = formDecode bytes ++ List.replicate n 32 := by
  induction n with
  | zero => simp
  | succ n ih =>
    have hlast : (bytes ++ List.replicate (n + 1) 32).map plusToSpace
        = (bytes ++ List.replicate n 32).map plusToSpace ++ [32] := by
      rw [List.replicate_succ', ← List.append_assoc, List.map_append]
      rfl
    unfold formDecode at *
    rw [hlast, percentDecode_append_space, ih, List.replicate_succ', List.append_assoc]

theorem validUtf8_of_append_spaces {bytes : List UInt8} {n : Nat}
    (h : ValidUtf8 (bytes ++ List.replicate n 32)) : ValidUtf8 bytes := by
  induction n with
  | zero => simpa using h
  | succ n ih =>
    rw [List.replicate_succ', ← List.append_assoc] at h
    exact ih (h.of_append_ascii (by decide))

theorem formDecode_spaces_ne {component : Str} {n : Nat} (hn : 0 < n) {decoded : List UInt8}
    (h : formDecode? (utf8 (component ++ spaces n)) = some decoded) :
    decoded ≠ utf8 (fromUtf8Lossy (formDecode (utf8 component))) := by
  intro heq
  have hdecoded := formDecode?_eq_some h
  rw [utf8_append, utf8_spaces, formDecode_append_spaces] at hdecoded
  have hvalid : ValidUtf8 (formDecode (utf8 component) ++ List.replicate n 32) := by
    rw [hdecoded, heq]
    exact validUtf8_utf8 _
  have hsame : utf8 (fromUtf8Lossy (formDecode (utf8 component))) = formDecode (utf8 component) :=
    validUtf8_of_append_spaces hvalid
  have hlen := congrArg List.length (hdecoded.trans (heq.trans hsame))
  rw [List.length_append, List.length_replicate] at hlen
  omega

theorem keptByScheduler_spaces_ne {filteredQueryParams : List Str} {segment : Str} {n : Nat}
    (hn : 0 < n) {p : List UInt8 × List UInt8} (h : keptBySdk filteredQueryParams segment = some p) :
    keptByScheduler filteredQueryParams (segment ++ spaces n) ≠ some p := by
  intro hscheduler
  obtain ⟨_, rfl⟩ := keptBySdk_eq_some.mp h
  have hstrict := (keptByScheduler_eq_some.mp hscheduler).2.1
  unfold strictSegment at hstrict
  split at hstrict
  · rename_i key value hkey hvalue
    obtain ⟨hk, hv⟩ := Prod.mk.inj (Option.some.inj hstrict)
    rcases cut_cases '=' segment with ⟨hnot, hcut⟩ | ⟨l, rest, hl, rfl, hcut⟩
    · have hnot' : '=' ∉ segment ++ spaces n := by
        intro hmem
        rcases List.mem_append.mp hmem with hmem | hmem
        · exact hnot hmem
        · exact absurd (List.eq_of_mem_replicate hmem) (by decide)
      rw [cut_of_notMem hnot'] at hkey
      refine formDecode_spaces_ne hn hkey ?_
      rw [hk, formSequence, hcut]
    · rw [List.append_assoc, List.cons_append, cut_append '=' hl] at hvalue
      refine formDecode_spaces_ne hn hvalue ?_
      rw [hv, formSequence, hcut]
      rfl
  · simp at hstrict

/-! ### The exact condition -/

/-- A malformed segment that the SDK reads as the parameter the scheduler reads from the last
segment, with no other value of its key in between. -/
structure StandsIn (filteredQueryParams : List Str) (segment : Str) (later : List Str) (last : Str) :
    Prop where
  malformed : strictSegment segment = none
  kept : ¬ DroppedBySdk filteredQueryParams segment
  last_kept : ¬ DroppedByScheduler filteredQueryParams last
  last_eq : strictSegment last = some (pairBytes (formSequence segment))
  same_value : ∀ s ∈ later, ¬ DroppedBySdk filteredQueryParams s →
    (formSequence s).1 = (formSequence segment).1 → formSequence s = formSequence segment

/-- The query is canonicalized as the scheduler does. When the parser trims spaces at its end, its
last segment must be dropped on both sides, or be stood in for. -/
def CanonicalizesAlike (filteredQueryParams : List Str) (query : Str) (fragment : Option Str) : Prop :=
  let seen := seenQuery query fragment
  let trimmed := query.drop seen.length
  if trimmed = [] then ∀ s ∈ seen.splitOn '&', ReadAlike filteredQueryParams s
  else ∃ init last, seen.splitOn '&' = init ++ [last] ∧ DroppedBySdk filteredQueryParams last ∧
    ((DroppedByScheduler filteredQueryParams (last ++ trimmed) ∧
        ∀ s ∈ init, ReadAlike filteredQueryParams s) ∨
      ∃ pre s post, init = pre ++ s :: post ∧
        StandsIn filteredQueryParams s post (last ++ trimmed) ∧
        ∀ t ∈ pre ++ post, ReadAlike filteredQueryParams t)

theorem standsIn_iff {filteredQueryParams : List Str} {s : Str} {later : List Str} {last : Str} :
    StandsIn filteredQueryParams s later last ↔
      ∃ p, keptBySdk filteredQueryParams s = some p ∧ keptByScheduler filteredQueryParams s = none ∧
        keptByScheduler filteredQueryParams last = some p ∧
        ∀ t ∈ later, ∀ p', keptBySdk filteredQueryParams t = some p' → p'.1 = p.1 → p' = p := by
  constructor
  · intro h
    obtain ⟨hmalformed, hkept, hlast, hlastEq, hsame⟩ := h
    refine ⟨_, keptBySdk_eq_some.mpr ⟨hkept, rfl⟩, ?_, ?_, ?_⟩
    · exact keptByScheduler_eq_none.mpr (.inr (.inr (by simp [hmalformed])))
    · cases hs : keptByScheduler filteredQueryParams last with
      | none => exact absurd (keptByScheduler_eq_none.mp hs) hlast
      | some p => rw [← hlastEq, (keptByScheduler_eq_some.mp hs).2.1]
    · intro t ht p' hp' hkey
      obtain ⟨ht', rfl⟩ := keptBySdk_eq_some.mp hp'
      rw [hsame t ht ht' (utf8_inj.mp hkey)]
  · intro h
    obtain ⟨p, hkept, hscheduler, hlast, hsame⟩ := h
    obtain ⟨hnot, rfl⟩ := keptBySdk_eq_some.mp hkept
    refine ⟨?_, hnot, ?_, (keptByScheduler_eq_some.mp hlast).2.1, fun t ht htnot hkey => ?_⟩
    · refine Option.eq_none_iff_forall_ne_some.mpr fun p hp => ?_
      rcases keptByScheduler_eq_none.mp hscheduler with hnil | hsemi | hfiltered
      · exact hnot (.inl hnil)
      · exact hnot (.inr (.inl hsemi))
      · obtain ⟨key, hkey, hbytes⟩ := List.mem_map.mp (hfiltered p hp)
        refine hnot (.inr (.inr ?_))
        rw [formSequence_of_strictSegment hp, ← hbytes, fromUtf8Lossy_utf8]
        exact hkey
    · rw [← keptByScheduler_eq_none, hlast]
      simp
    · exact pairBytes_injective
        (hsame t ht _ (keptBySdk_eq_some.mpr ⟨htnot, rfl⟩) (congrArg utf8 hkey))

theorem keptBySdk_eq_scheduler_iff {filteredQueryParams : List Str} {segments : List Str}
    {last last' : Str} (hne : ∀ p, keptBySdk filteredQueryParams last = some p →
      keptByScheduler filteredQueryParams last' ≠ some p) :
    sortedQuery ((segments ++ [last]).filterMap (keptBySdk filteredQueryParams))
        = sortedQuery ((segments ++ [last']).filterMap (keptByScheduler filteredQueryParams)) ↔
      DroppedBySdk filteredQueryParams last ∧
        ((DroppedByScheduler filteredQueryParams last' ∧
            ∀ s ∈ segments, ReadAlike filteredQueryParams s) ∨
          ∃ pre s post, segments = pre ++ s :: post ∧
            StandsIn filteredQueryParams s post last' ∧
            ∀ t ∈ pre ++ post, ReadAlike filteredQueryParams t) := by
  have hlast : ∀ (f : Str → Option (List UInt8 × List UInt8)) (s : Str),
      (segments ++ [s]).filterMap f = segments.filterMap f ++ (f s).toList := by
    intro f s
    rw [List.filterMap_append]
    cases hf : f s with
    | none => rw [List.filterMap_cons_none hf, List.filterMap_nil, Option.toList_none]
    | some p => rw [List.filterMap_cons_some hf, List.filterMap_nil, Option.toList_some]
  rw [sortedQuery_eq_iff, hlast, hlast,
    readings_filter_iff Prod.fst ValidPair (fun s _ p hp => keptBySdk_valid hp)
      (fun p hp => keptBySdk_valid hp)
      (fun s _ p hp hvalid => keptBySdk_of_keptByScheduler hp hvalid) hne,
    keptBySdk_eq_none, keptByScheduler_eq_none]
  simp only [readAlike_iff, standsIn_iff]
  refine and_congr_right fun _ => or_congr_right ?_
  constructor
  · intro h
    obtain ⟨pre, s, post, p, hsplit, hs, hs', hp, hrest, hlater⟩ := h
    exact ⟨pre, s, post, hsplit, ⟨p, hs, hs', hp, hlater⟩, hrest⟩
  · intro h
    obtain ⟨pre, s, post, hsplit, ⟨p, hs, hs', hp, hlater⟩, hrest⟩ := h
    exact ⟨pre, s, post, p, hsplit, hs, hs', hp, hrest, hlater⟩

theorem keptBySdk_eq_scheduler_iff_forall {filteredQueryParams : List Str} {segments : List Str} :
    sortedQuery (segments.filterMap (keptBySdk filteredQueryParams))
        = sortedQuery (segments.filterMap (keptByScheduler filteredQueryParams)) ↔
      ∀ s ∈ segments, ReadAlike filteredQueryParams s := by
  rw [sortedQuery_eq_iff,
    readings_filter_iff_forall Prod.fst ValidPair (fun s _ p hp => keptBySdk_valid hp)
      fun s _ p hp hvalid => keptBySdk_of_keptByScheduler hp hvalid]
  simp only [readAlike_iff]

theorem canonicalizesAlike_iff {query : Str} (hq : ∀ c ∈ query, queryChar c = true)
    (fragment : Option Str) (filteredQueryParams : List Str) :
    canonicalQuery (queryPairs (seenQuery query fragment) filteredQueryParams)
        = schedulerQuery query filteredQueryParams ↔
      CanonicalizesAlike filteredQueryParams query fragment := by
  obtain ⟨n, hn⟩ := seenQuery_append hq fragment
  generalize hseen : seenQuery query fragment = seen at hn
  have htrimmed : query.drop seen.length = spaces n := by
    rw [hn, List.drop_left]
  unfold CanonicalizesAlike schedulerQuery
  simp only [hseen, htrimmed, canonicalQuery_eq, queryPairs_eq]
  cases n with
  | zero =>
    rw [if_pos (show spaces 0 = [] from rfl), hn, spaces, List.replicate_zero, List.append_nil]
    exact keptBySdk_eq_scheduler_iff_forall
  | succ n =>
    have hamp : '&' ∉ spaces (n + 1) := fun hmem =>
      absurd (List.eq_of_mem_replicate hmem) (by decide)
    obtain ⟨init, last, hsplit, happend⟩ := splitOn_append_last '&' seen
    rw [if_neg (by simp [spaces, List.replicate_succ]), hn, happend _ hamp, hsplit,
      keptBySdk_eq_scheduler_iff fun p hp => keptByScheduler_spaces_ne (Nat.succ_pos n) hp]
    constructor
    · intro h
      exact ⟨init, last, rfl, h⟩
    · rintro ⟨init', last', heq, h⟩
      obtain ⟨rfl, rfl⟩ := List.append_singleton_inj.mp heq
      exact h

theorem canonicalBase_noDelimiter (url : Str) (b : UrlBase) :
    '?' ∉ canonicalBase url b ∧ '#' ∉ canonicalBase url b := by
  have hpart : ∀ c ∈ canonicalBase url b, c ≠ '?' ∧ c ≠ '#' := by
    intro c hc
    refine b.noDelimiter c ?_
    unfold canonicalBase at hc
    split_ifs at hc
    · exact List.mem_append_left _ hc
    · exact hc
  exact ⟨fun hmem => (hpart _ hmem).1 rfl, fun hmem => (hpart _ hmem).2 rfl⟩

theorem queryPart_append {front : Str} (hfront : '?' ∉ front ∧ '#' ∉ front) {query : Option Str}
    (hquery : ∀ q, query = some q → '#' ∉ q) (fragment : Option Str) :
    queryPart (front ++ (queryText query ++ fragmentText fragment)) = query := by
  have hhash : '#' ∉ front ++ queryText query := by
    intro hmem
    rcases List.mem_append.mp hmem with hmem | hmem
    · exact hfront.2 hmem
    · cases query with
      | none => cases hmem
      | some q =>
        rcases List.mem_cons.mp hmem with h | hmem
        · exact absurd h (by decide)
        · exact hquery q rfl hmem
  have hcut : (cut '#' (front ++ (queryText query ++ fragmentText fragment))).1
      = front ++ queryText query := by
    rw [← List.append_assoc]
    cases fragment with
    | none => rw [fragmentText, List.append_nil, cut_of_notMem hhash]
    | some f => rw [fragmentText, cut_append '#' hhash]
  unfold queryPart
  rw [hcut]
  cases query with
  | none => rw [queryText, List.append_nil, cut_of_notMem hfront.1]
  | some q => rw [queryText, cut_append '?' hfront.1]

/-- **When the canonical query is the scheduler's**: exactly when every segment is well-formed UTF-8
or dropped on both sides, and the parser trims nothing that matters. -/
theorem queryPart_eq_schedulerQuery_iff (crate : UrlCrate) (base query : Str)
    (fragment : Option Str) (filteredQueryParams : List Str) (hfiltered : filteredQueryParams ≠ [])
    (hbase : '?' ∉ base ∧ '#' ∉ base) (hq : ∀ c ∈ query, queryChar c = true) (url : Url)
    (hparse : Url.parse crate (base ++ '?' :: (query ++ fragmentText fragment)) = .ok url) :
    ∃ canonical, filterQueryParams crate (base ++ '?' :: (query ++ fragmentText fragment))
        filteredQueryParams = .ok canonical ∧
      (queryPart canonical = schedulerQuery query filteredQueryParams ↔
        CanonicalizesAlike filteredQueryParams query fragment) := by
  obtain ⟨b, hb⟩ : ∃ b, crate.parseBase (seenBase base) = .ok b := by
    rw [Url.parse_append crate hbase hq] at hparse
    cases hb : crate.parseBase (seenBase base) with
    | ok b => exact ⟨b, rfl⟩
    | error err =>
      rw [hb] at hparse
      simp [Except.map] at hparse
  have happend := filterQueryParams_append crate hbase hq fragment hfiltered
  rw [hb] at happend
  refine ⟨_, happend, ?_⟩
  rw [← canonicalizesAlike_iff hq fragment filteredQueryParams,
    queryPart_append (canonicalBase_noDelimiter _ b)]
  intro q hcanonical
  rw [canonicalQuery_eq] at hcanonical
  exact (formEncode_noDelimiter hcanonical).2

/-- At a query with a parameter to filter. -/
theorem queryPart_eq_schedulerQuery_iff_filtered :
    ∃ canonical, filterQueryParams exampleCrate "http://h?b=2&x=1&a=1".toList ["x".toList]
        = .ok canonical ∧
      (queryPart canonical = schedulerQuery "b=2&x=1&a=1".toList ["x".toList] ↔
        CanonicalizesAlike ["x".toList] "b=2&x=1&a=1".toList none) :=
  queryPart_eq_schedulerQuery_iff exampleCrate "http://h".toList "b=2&x=1&a=1".toList none
    ["x".toList] (by decide) (by decide) (List.all_eq_true.mp (by decide)) _ rfl

/-- A `%` that two hex digits do not follow: the scheduler drops the parameter, the SDK keeps it. -/
theorem not_queryPart_eq_schedulerQuery :
    ¬ ∀ (base query : Str) (fragment : Option Str) (filteredQueryParams : List Str) (url : Url),
      filteredQueryParams ≠ [] → '?' ∉ base ∧ '#' ∉ base → (∀ c ∈ query, queryChar c = true) →
      Url.parse exampleCrate (base ++ '?' :: (query ++ fragmentText fragment)) = .ok url →
      ∃ canonical, filterQueryParams exampleCrate
          (base ++ '?' :: (query ++ fragmentText fragment)) filteredQueryParams = .ok canonical ∧
        queryPart canonical = schedulerQuery query filteredQueryParams := by
  intro h
  obtain ⟨canonical, hok, hquery⟩ := h "http://h".toList "a=%zz".toList none ["x".toList] _
    (by decide) (by decide) (List.all_eq_true.mp (by decide)) rfl
  have hcanonical : filterQueryParams exampleCrate "http://h?a=%zz".toList ["x".toList]
      = .ok "http://h?a=%25zz".toList := by decide +kernel
  obtain rfl := Except.ok.inj (hcanonical.symm.trans hok)
  revert hquery
  decide +kernel

end DragonflySdk
