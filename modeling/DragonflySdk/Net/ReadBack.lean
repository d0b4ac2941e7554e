import DragonflySdk.Net
import Mathlib.Tactic.IntervalCases

/-!
# Reading back what was written

An address that is written is read as itself, whatever is written after it (`readIpv4Addr_toStr`,
`readIpv6Addr_toStr`), and so an endpoint is read as the address and the port it was written for
(`readEndpoint_formatUrl`).
-/

namespace DragonflySdk

open Foundation

namespace IpAddr

/-! ### Numbers -/

/-- No digit of a number before it goes on into the text. -/
def NoDigit (radix : Nat) (s : Str) : Prop := ∀ c, s.head? = some c → toDigit radix c = none

theorem noDigit_cons {radix : Nat} {c : Char} (h : toDigit radix c = none) (s : Str) :
    NoDigit radix (c :: s) := by
  intro c' hc'
  obtain rfl := Option.some.inj hc'
  exact h

theorem noDigit_nil (radix : Nat) : NoDigit radix [] := by
  intro c h
  cases h

theorem toDigit_digitChar {radix digit : Nat} (hradix : radix ≤ 16) (hdigit : digit < radix) :
    toDigit radix digit.digitChar = some digit := by
  have hsmall : digit < 16 := by omega
  interval_cases digit <;> exact if_pos hdigit

variable {radix : Nat}

theorem mem_toDigits (hradix : 1 < radix) {n : Nat} {c : Char} (h : c ∈ Nat.toDigits radix n) :
    ∃ digit < radix, c = digit.digitChar := by
  induction n using Nat.strong_induction_on with
  | _ n ih =>
    rw [Nat.toDigits_eq_if hradix] at h
    by_cases hn : n < radix
    · rw [if_pos hn, List.mem_singleton] at h
      exact ⟨n, hn, h⟩
    · rw [if_neg hn, List.mem_append, List.mem_singleton] at h
      rcases h with h | h
      · exact ih (n / radix) (Nat.div_lt_self (by omega) hradix) h
      · exact ⟨n % radix, Nat.mod_lt n (by omega), h⟩

theorem foldl_toDigits (hradix : 1 < radix) (hradix' : radix ≤ 16) (n : Nat) :
    ((Nat.toDigits radix n).filterMap (toDigit radix)).foldl
      (fun n digit => n * radix + digit) 0 = n := by
  induction n using Nat.strong_induction_on with
  | _ n ih =>
    rw [Nat.toDigits_eq_if hradix]
    by_cases hn : n < radix
    · rw [if_pos hn, List.filterMap_cons_some (toDigit_digitChar hradix' hn)]
      simp
    · rw [if_neg hn, List.filterMap_append, List.foldl_append,
        ih (n / radix) (Nat.div_lt_self (by omega) hradix), List.filterMap_cons_some
          (toDigit_digitChar hradix' (Nat.mod_lt n (by omega)))]
      exact Nat.div_add_mod' n radix

theorem head_toDigits (hradix : 1 < radix) {n : Nat}
    (h : (Nat.toDigits radix n).head? = some '0') : (Nat.toDigits radix n).length = 1 := by
  have hzero : n = 0 := by
    induction n using Nat.strong_induction_on with
    | _ n ih =>
      rw [Nat.toDigits_eq_if hradix] at h
      by_cases hn : n < radix
      · rw [if_pos hn] at h
        exact Nat.digitChar_eq_zero.mp (Option.some.inj h)
      · rw [if_neg hn, List.head?_append_of_ne_nil _ Nat.toDigits_ne_nil] at h
        have hdiv := ih (n / radix) (Nat.div_lt_self (by omega) hradix) h
        have hpos : 0 < n / radix := Nat.div_pos (by omega) (by omega)
        omega
  rw [hzero, Nat.toDigits_zero]
  rfl

/-- **A number that is written is read**, up to what cannot be a digit. -/
theorem readNumber_toDigits {size maxDigits : Nat} {allowZeroPrefix : Bool} (hradix : 1 < radix)
    (hradix' : radix ≤ 16) (n : Fin size) (hlength : (Nat.toDigits radix n).length ≤ maxDigits)
    {rest : Str} (hrest : NoDigit radix rest) :
    readNumber size radix maxDigits allowZeroPrefix (Nat.toDigits radix n ++ rest) =
      some (n, rest) := by
  have htext : (Nat.toDigits radix n ++ rest).takeWhile (fun c => (toDigit radix c).isSome) =
      Nat.toDigits radix n := by
    rw [List.takeWhile_append_of_pos]
    · rcases rest with _ | ⟨c, rest⟩
      · exact List.append_nil _
      · rw [List.takeWhile_cons_of_neg (by simp [hrest c rfl]), List.append_nil]
    · intro c hc
      obtain ⟨digit, hdigit, rfl⟩ := mem_toDigits hradix hc
      rw [toDigit_digitChar hradix' hdigit]
      rfl
  unfold readNumber
  simp only [htext, foldl_toDigits hradix hradix']
  rw [if_neg, if_neg, dif_pos n.isLt, List.drop_left]
  · intro h
    have hone := head_toDigits hradix h.2.1
    omega
  · rintro (h | h)
    · exact Nat.toDigits_ne_nil h
    · omega

theorem readNumber_of_noDigit {size maxDigits : Nat} {allowZeroPrefix : Bool} {s : Str}
    (h : NoDigit radix s) : readNumber size radix maxDigits allowZeroPrefix s = none := by
  have htext : s.takeWhile (fun c => (toDigit radix c).isSome) = [] := by
    rcases s with _ | ⟨c, s⟩
    · rfl
    · rw [List.takeWhile_cons_of_neg (by simp [h c rfl])]
  unfold readNumber
  rw [htext]
  exact if_pos (.inl rfl)

theorem readSeparator_cons {α : Type} (sep : Char) (index : Nat) (inner : Reader α) (s : Str) :
    readSeparator sep (index + 1) inner (sep :: s) = inner s :=
  if_pos rfl

theorem readSeparator_of_ne {α : Type} {sep c : Char} (h : c ≠ sep) (index : Nat)
    (inner : Reader α) (s : Str) : readSeparator sep (index + 1) inner (c :: s) = none :=
  if_neg h

theorem readSeparator_zero {α : Type} (sep : Char) (inner : Reader α) (s : Str) :
    readSeparator sep 0 inner s = inner s := by
  cases s with
  | nil => rfl
  | cons c s => rfl

/-! ### IPv4 addresses -/

theorem readNumber_octet (octet : Fin 256) {rest : Str} (hrest : NoDigit 10 rest) :
    readNumber 256 10 3 false (Nat.toDigits 10 octet ++ rest) = some (octet, rest) := by
  have hlength : (Nat.toDigits 10 octet.val).length ≤ 3 :=
    (Nat.length_toDigits_le_iff (by omega) (by omega)).mpr (by omega)
  exact readNumber_toDigits (by omega) (by omega) octet hlength hrest

/-- **An IPv4 address that is written is read**, up to what cannot be a digit. -/
theorem readIpv4Addr_toStr (addr : Ipv4Addr) {rest : Str} (hrest : NoDigit 10 rest) :
    readIpv4Addr (addr.toStr ++ rest) = some (addr, rest) := by
  obtain ⟨octets, hlength⟩ := addr
  obtain ⟨a, b, c, d, rfl⟩ := List.length_eq_four.mp hlength
  have htext : Ipv4Addr.toStr ⟨[a, b, c, d], hlength⟩ ++ rest =
      Nat.toDigits 10 a ++ '.' :: (Nat.toDigits 10 b ++ '.' :: (Nat.toDigits 10 c ++
        '.' :: (Nat.toDigits 10 d ++ rest))) := by
    simp [Ipv4Addr.toStr, List.intercalate, List.intersperse]
  have hdot : ∀ s : Str, NoDigit 10 ('.' :: s) := noDigit_cons rfl
  unfold readIpv4Addr
  simp only [htext, readSeparator_zero, readNumber_octet a (hdot _), Option.bind_eq_bind,
    Option.bind_some, readSeparator_cons '.' 0, readNumber_octet b (hdot _),
    readSeparator_cons '.' 1, readNumber_octet c (hdot _), readSeparator_cons '.' 2,
    readNumber_octet d hrest]
  rfl

theorem readIpv4Addr_of_noDigit {s : Str} (h : NoDigit 10 s) : readIpv4Addr s = none := by
  unfold readIpv4Addr
  simp only [readSeparator_zero, readNumber_of_noDigit h, Option.bind_eq_bind, Option.bind_none]

theorem mem_of_readNumber {size radix maxDigits : Nat} {allowZeroPrefix : Bool} {s rest : Str}
    {n : Fin size} (h : readNumber size radix maxDigits allowZeroPrefix s = some (n, rest)) {c : Char}
    (hc : c ∈ rest) : c ∈ s := by
  unfold readNumber at h
  simp only at h
  split at h
  · cases h
  · split at h
    · cases h
    · split at h
      · obtain ⟨-, rfl⟩ := Prod.mk.inj (Option.some.inj h)
        exact List.mem_of_mem_drop hc
      · cases h

theorem readIpv4Addr_of_notMem {s : Str} (h : '.' ∉ s) : readIpv4Addr s = none := by
  unfold readIpv4Addr
  simp only [readSeparator_zero, Option.bind_eq_bind]
  rcases hfirst : readNumber 256 10 3 false s with _ | ⟨first, rest⟩
  · rfl
  · have hdot : '.' ∉ rest := fun hmem => h (mem_of_readNumber hfirst hmem)
    rw [Option.bind_some]
    cases rest with
    | nil => rfl
    | cons c rest =>
      have hne : c ≠ '.' := fun heq => hdot (heq ▸ List.mem_cons_self)
      rw [readSeparator_of_ne hne 0]
      rfl

/-! ### IPv6 addresses -/

/-- The text of groups, of which the first has a colon before it unless it is the first of all. -/
def groupsText (index : Nat) : List (Fin 65536) → Str
  | [] => []
  | group :: groups =>
    (if index = 0 then [] else [':']) ++ Nat.toDigits 16 group ++ groupsText (index + 1) groups

theorem fmtSubslice_cons (group : Fin 65536) (groups : List (Fin 65536)) (index : Nat) :
    fmtSubslice (group :: groups) = Nat.toDigits 16 group ++ groupsText (index + 1) groups := by
  induction groups generalizing group index with
  | nil => simp [groupsText, fmtSubslice]
  | cons next groups ih =>
    have hnext := ih next (index + 1)
    rw [groupsText, if_neg (by omega), List.append_assoc, ← hnext]
    simp [fmtSubslice, List.intercalate]

theorem fmtSubslice_eq (segments : List (Fin 65536)) :
    fmtSubslice segments = groupsText 0 segments := by
  cases segments with
  | nil => rfl
  | cons group groups =>
    rw [fmtSubslice_cons group groups 0, groupsText, if_pos rfl]
    rfl

theorem readNumber_group (group : Fin 65536) {rest : Str} (hrest : NoDigit 16 rest) :
    readNumber 65536 16 4 true (Nat.toDigits 16 group ++ rest) = some (group, rest) := by
  have hlength : (Nat.toDigits 16 group.val).length ≤ 4 :=
    (Nat.length_toDigits_le_iff (by omega) (by omega)).mpr (by omega)
  exact readNumber_toDigits (by omega) (by omega) group hlength hrest

theorem noDigit_groupsText (index : Nat) (groups : List (Fin 65536)) {rest : Str}
    (hrest : NoDigit 16 rest) : NoDigit 16 (groupsText (index + 1) groups ++ rest) := by
  cases groups with
  | nil => exact hrest
  | cons group groups => exact noDigit_cons rfl _

/-- No further group is read. -/
def Stops (index : Nat) (rest : Str) : Prop :=
  readSeparator ':' index (readNumber 65536 16 4 true) rest = none

theorem readSeparator_group (index : Nat) (group : Fin 65536) {rest : Str}
    (hrest : NoDigit 16 rest) :
    readSeparator ':' index (readNumber 65536 16 4 true)
      ((if index = 0 then [] else [':']) ++ Nat.toDigits 16 group ++ rest) =
        some (group, rest) := by
  cases index with
  | zero => rw [if_pos rfl, List.nil_append, readSeparator_zero, readNumber_group group hrest]
  | succ index =>
    rw [if_neg (by omega), List.append_assoc, List.singleton_append, readSeparator_cons,
      readNumber_group group hrest]

theorem readSeparator_ipv4_of_notMem {s : Str} (h : '.' ∉ s) (index : Nat) :
    readSeparator ':' index readIpv4Addr s = none := by
  cases index with
  | zero => rw [readSeparator_zero, readIpv4Addr_of_notMem h]
  | succ index =>
    cases s with
    | nil => rfl
    | cons c s =>
      have hrest : readIpv4Addr s = none :=
        readIpv4Addr_of_notMem fun hmem => h (List.mem_cons_of_mem c hmem)
      by_cases hc : c = ':'
      · rw [hc, readSeparator_cons, hrest]
      · exact readSeparator_of_ne hc index _ s

/-- **The groups that are written are read**, up to where they stop. -/
theorem readGroups_groupsText (groups : List (Fin 65536)) :
    ∀ (index count : Nat) (rest : Str), '.' ∉ groupsText index groups ++ rest →
      NoDigit 16 rest → groups.length ≤ count →
      (groups.length < count → Stops (index + groups.length) rest) →
      readGroups index count (groupsText index groups ++ rest) = (groups, false, rest) := by
  have hipv4 : ∀ (index count : Nat) (s : Str), '.' ∉ s →
      (if 0 < count then readSeparator ':' index readIpv4Addr s else none) = none := by
    intro index count s hdot
    rw [readSeparator_ipv4_of_notMem hdot]
    exact ite_self _
  induction groups with
  | nil =>
    intro index count rest hdot hrest hcount hstops
    cases count with
    | zero => rfl
    | succ count =>
      have hnone : readSeparator ':' index (readNumber 65536 16 4 true) rest = none :=
        hstops (Nat.succ_pos _)
      unfold readGroups
      rw [hipv4 index count _ hdot]
      simp only [groupsText, List.nil_append, hnone]
  | cons group groups ih =>
    intro index count rest hdot hrest hcount hstops
    cases count with
    | zero => cases hcount
    | succ count =>
      rw [groupsText, List.append_assoc] at hdot ⊢
      have hdot' : '.' ∉ groupsText (index + 1) groups ++ rest :=
        fun hmem => hdot (List.mem_append_right _ hmem)
      have hread := ih (index + 1) count rest hdot' hrest (Nat.le_of_succ_le_succ hcount) (by
        intro hlt
        have hrestStops := hstops (Nat.succ_lt_succ hlt)
        rw [List.length_cons] at hrestStops
        rwa [Nat.add_right_comm])
      unfold readGroups
      rw [hipv4 index count _ hdot,
        readSeparator_group index group (noDigit_groupsText index groups hrest)]
      simp only [hread]

/-- One segment of the search for the longest run of zeros. -/
def zerosStep {α : Type} [DecidableEq α] (zero : α) (spans : Span × Span) (segment : α) (i : Nat) :
    Span × Span :=
  if segment = zero then
    let current : Span := ⟨if spans.2.len = 0 then i else spans.2.start, spans.2.len + 1⟩
    (if spans.1.len < current.len then current else spans.1, current)
  else (spans.1, ⟨0, 0⟩)

/-- The longest run and the current one, if there is one, are runs of zeros. -/
structure ZerosFound (segments : List (Fin 65536)) (spans : Span × Span) : Prop where
  longest : ∃ before after, segments = before ++ List.replicate spans.1.len 0 ++ after ∧
    before.length = spans.1.start
  current : ∃ before, segments = before ++ List.replicate spans.2.len 0 ∧
    (spans.2.len ≠ 0 → before.length = spans.2.start)

theorem ZerosFound.step {segments : List (Fin 65536)} {spans : Span × Span}
    (h : ZerosFound segments spans) (segment : Fin 65536) :
    ZerosFound (segments ++ [segment]) (zerosStep 0 spans segment segments.length) := by
  obtain ⟨longest, current⟩ := spans
  obtain ⟨⟨before, after, hlongest, hbefore⟩, ⟨first, hcurrent, hfirst⟩⟩ := h
  have hkept : ∃ before after, segments ++ [segment] =
      before ++ List.replicate longest.len 0 ++ after ∧ before.length = longest.start :=
    ⟨before, after ++ [segment], by rw [← List.append_assoc, ← hlongest], hbefore⟩
  unfold zerosStep
  by_cases hzero : segment = 0
  · simp only [if_pos hzero]
    have hnext : ∃ before, segments ++ [segment] = before ++ List.replicate (current.len + 1) 0 ∧
        before.length = if current.len = 0 then segments.length else current.start := by
      by_cases hlen : current.len = 0
      · rw [if_pos hlen, hlen, hzero]
        exact ⟨segments, rfl, rfl⟩
      · refine ⟨first, ?_, by rw [if_neg hlen, hfirst hlen]⟩
        rw [List.replicate_succ', ← List.append_assoc, ← hcurrent, hzero]
    obtain ⟨next, hrun, hstart⟩ := hnext
    refine ⟨?_, next, hrun, fun _ => hstart⟩
    by_cases hlonger : longest.len < current.len + 1
    · rw [if_pos hlonger]
      exact ⟨next, [], by rw [hrun, List.append_nil], hstart⟩
    · rw [if_neg hlonger]
      exact hkept
  · simp only [if_neg hzero]
    exact ⟨hkept, segments ++ [segment], (List.append_nil _).symm, fun h => absurd rfl h⟩

theorem exists_longestZeros (segments : List (Fin 65536)) : ∃ before after,
    segments = before ++ List.replicate (longestZeros segments).len 0 ++ after ∧
      before.length = (longestZeros segments).start := by
  have hfound : ZerosFound segments (segments.zipIdx.foldl
      (fun spans segment => zerosStep 0 spans segment.1 segment.2) (⟨0, 0⟩, ⟨0, 0⟩)) := by
    induction segments using List.reverseRecOn with
    | nil => exact ⟨⟨[], [], rfl, rfl⟩, ⟨[], rfl, fun h => absurd rfl h⟩⟩
    | append_singleton segments segment ih =>
      rw [List.zipIdx_append, List.foldl_append]
      have hstep := ih.step segment
      rwa [← Nat.zero_add segments.length] at hstep
  exact hfound.longest

theorem stops_bracket (index : Nat) (rest : Str) : Stops index (']' :: rest) := by
  cases index with
  | zero =>
    unfold Stops
    rw [readSeparator_zero]
    exact readNumber_of_noDigit (noDigit_cons rfl rest)
  | succ index => exact readSeparator_of_ne (by decide) index _ rest

theorem stops_colon (index : Nat) (rest : Str) : Stops index (':' :: ':' :: rest) := by
  have hnone : ∀ s : Str, readNumber 65536 16 4 true (':' :: s) = none :=
    fun s => readNumber_of_noDigit (noDigit_cons rfl s)
  unfold Stops
  cases index with
  | zero => rw [readSeparator_zero, hnone]
  | succ index => rw [readSeparator_cons, hnone]

theorem readIpv6Addr_of_groups {addr : Ipv6Addr} {s rest : Str} {hasIpv4 : Bool}
    (h : readGroups 0 8 s = (addr.segments, hasIpv4, rest)) : readIpv6Addr s = some (addr, rest) := by
  unfold readIpv6Addr
  split
  rename_i head hasIpv4' rest' hhead
  rw [h] at hhead
  cases hhead
  rw [dif_pos addr.length_eq]

theorem readIpv6Addr_of_zeros {addr : Ipv6Addr} {s rest rest' : Str} {hasIpv4 : Bool}
    {head tail : List (Fin 65536)} (hhead : readGroups 0 8 s = (head, false, ':' :: ':' :: rest))
    (hlength : head.length ≠ 8)
    (htail : readGroups 0 (8 - (head.length + 1)) rest = (tail, hasIpv4, rest'))
    (haddr : addr.segments = head ++ List.replicate (8 - head.length - tail.length) 0 ++ tail) :
    readIpv6Addr s = some (addr, rest') := by
  unfold readIpv6Addr
  split
  rename_i head' hasIpv4' s' hhead'
  rw [hhead] at hhead'
  cases hhead'
  rw [dif_neg hlength, if_neg Bool.false_ne_true]
  obtain ⟨segments, hsegments⟩ := addr
  obtain rfl : segments = _ := haddr
  simp only [htail]

theorem notMem_toDigits {radix : Nat} (hradix : 1 < radix) (hradix' : radix ≤ 16) {c : Char}
    (hc : toDigit radix c = none) (n : Nat) : c ∉ Nat.toDigits radix n := by
  intro h
  obtain ⟨digit, hdigit, rfl⟩ := mem_toDigits hradix h
  rw [toDigit_digitChar hradix' hdigit] at hc
  cases hc

theorem dot_notMem_groupsText (index : Nat) (groups : List (Fin 65536)) :
    '.' ∉ groupsText index groups := by
  induction groups generalizing index with
  | nil => exact List.not_mem_nil
  | cons group groups ih =>
    have hgroup : '.' ∉ Nat.toDigits 16 group := notMem_toDigits (by omega) (by omega) rfl _
    rw [groupsText, List.mem_append, List.mem_append]
    rintro ((h | h) | h)
    · split at h
      · cases h
      · cases List.mem_singleton.mp h
    · exact hgroup h
    · exact ih (index + 1) h

theorem segments_of_toIpv4Mapped {addr : Ipv6Addr} {ipv4 : Ipv4Addr}
    (h : addr.toIpv4Mapped = some ipv4) : addr.segments =
      [0, 0, 0, 0, 0, 0xffff, ipv4.toSegments.1, ipv4.toSegments.2] := by
  unfold Ipv6Addr.toIpv4Mapped at h
  split at h
  · rename_i ab cd hsegments
    obtain rfl := Option.some.inj h
    have hsplit : ∀ n : Fin 65536, (⟨n / 256 * 256 + n % 256, by omega⟩ : Fin 65536) = n :=
      fun n => Fin.ext (Nat.div_add_mod' n.val 256)
    rw [hsegments]
    simp only [Ipv4Addr.toSegments, hsplit]
  · cases h

theorem dot_notMem_groups {rest : Str} (hrest : '.' ∉ rest) (groups : List (Fin 65536)) :
    '.' ∉ groupsText 0 groups ++ ']' :: rest := by
  intro hmem
  rcases List.mem_append.mp hmem with hmem | hmem
  · exact dot_notMem_groupsText 0 groups hmem
  · rcases List.mem_cons.mp hmem with hmem | hmem
    · cases hmem
    · exact hrest hmem

theorem readIpv6Addr_around {addr : Ipv6Addr} {before after : List (Fin 65536)} {len : Nat}
    (hsegments : addr.segments = before ++ List.replicate len 0 ++ after) (hlen : 1 < len)
    {rest : Str} (hrest : '.' ∉ rest) :
    readIpv6Addr (groupsText 0 before ++ ':' :: ':' :: (groupsText 0 after ++ ']' :: rest)) =
      some (addr, ']' :: rest) := by
  have hlength := addr.length_eq
  rw [hsegments, List.length_append, List.length_append, List.length_replicate] at hlength
  have hdot := dot_notMem_groups hrest
  have htail : readGroups 0 (8 - (before.length + 1)) (groupsText 0 after ++ ']' :: rest) =
      (after, false, ']' :: rest) :=
    readGroups_groupsText after 0 _ _ (hdot after) (noDigit_cons rfl rest) (by omega)
      fun _ => stops_bracket _ rest
  have hhead : readGroups 0 8 (groupsText 0 before ++
      (':' :: ':' :: (groupsText 0 after ++ ']' :: rest))) =
        (before, false, ':' :: ':' :: (groupsText 0 after ++ ']' :: rest)) := by
    apply readGroups_groupsText
    · intro hmem
      rcases List.mem_append.mp hmem with hmem | hmem
      · exact dot_notMem_groupsText 0 before hmem
      · apply hdot after
        simpa using hmem
    · exact noDigit_cons rfl _
    · omega
    · exact fun _ => stops_colon _ _
  refine readIpv6Addr_of_zeros hhead (by omega) htail ?_
  rw [hsegments]
  congr 3
  omega

theorem readIpv6Addr_mapped {addr : Ipv6Addr} {ipv4 : Ipv4Addr}
    (hmapped : addr.toIpv4Mapped = some ipv4) (rest : Str) :
    readIpv6Addr (':' :: ':' :: (Nat.toDigits 16 (0xffff : Fin 65536) ++
      ':' :: (ipv4.toStr ++ ']' :: rest))) = some (addr, ']' :: rest) := by
  have hipv4 : readGroups 1 6 (':' :: (ipv4.toStr ++ ']' :: rest)) =
      ([ipv4.toSegments.1, ipv4.toSegments.2], true, ']' :: rest) := by
    have hpos : 0 < 5 := by omega
    unfold readGroups
    rw [if_pos hpos, readSeparator_cons, readIpv4Addr_toStr ipv4 (noDigit_cons rfl rest)]
  have htail : readGroups 0 7 (Nat.toDigits 16 (0xffff : Fin 65536) ++
      ':' :: (ipv4.toStr ++ ']' :: rest)) =
        ([0xffff, ipv4.toSegments.1, ipv4.toSegments.2], true, ']' :: rest) := by
    have hpos : 0 < 6 := by omega
    have hletter : NoDigit 10 (Nat.toDigits 16 (0xffff : Fin 65536) ++
        ':' :: (ipv4.toStr ++ ']' :: rest)) := by
      intro c hc
      obtain rfl : 'f' = c := Option.some.inj hc
      rfl
    unfold readGroups
    rw [if_pos hpos, readSeparator_zero, readSeparator_zero, readIpv4Addr_of_noDigit hletter,
      readNumber_group _ (noDigit_cons rfl _)]
    simp only [Nat.zero_add, hipv4]
  have hhead : ∀ s : Str, readGroups 0 8 (':' :: ':' :: s) = ([], false, ':' :: ':' :: s) := by
    intro s
    have hpos : 0 < 7 := by omega
    unfold readGroups
    rw [if_pos hpos, readSeparator_zero, readSeparator_zero,
      readIpv4Addr_of_noDigit (noDigit_cons rfl _), readNumber_of_noDigit (noDigit_cons rfl _)]
  exact readIpv6Addr_of_zeros (hhead _) (by decide) htail (segments_of_toIpv4Mapped hmapped)

/-- **An IPv6 address that is written in brackets is read**, up to the closing one. -/
theorem readIpv6Addr_toStr (addr : Ipv6Addr) {rest : Str} (hrest : '.' ∉ rest) :
    readIpv6Addr (addr.toStr ++ ']' :: rest) = some (addr, ']' :: rest) := by
  have hlength := addr.length_eq
  unfold Ipv6Addr.toStr
  rcases hmapped : addr.toIpv4Mapped with _ | ipv4
  · simp only [fmtSubslice_eq]
    by_cases hlen : 1 < (longestZeros addr.segments).len
    · rw [if_pos hlen]
      obtain ⟨before, after, hsegments, hbefore⟩ := exists_longestZeros addr.segments
      generalize longestZeros addr.segments = zeros at hlen hsegments hbefore ⊢
      have htake : addr.segments.take zeros.start = before := by
        rw [hsegments, ← hbefore, List.append_assoc, List.take_left]
      have hdrop : addr.segments.drop (zeros.start + zeros.len) = after := by
        rw [hsegments, ← hbefore]
        exact List.drop_left' (by simp)
      rw [htake, hdrop, List.append_assoc, List.append_assoc]
      exact readIpv6Addr_around hsegments hlen hrest
    · rw [if_neg hlen]
      apply readIpv6Addr_of_groups
      apply readGroups_groupsText
      · exact dot_notMem_groups hrest addr.segments
      · exact noDigit_cons rfl rest
      · exact hlength.le
      · intro hlt
        rw [hlength] at hlt
        omega
  · simp only [List.append_assoc]
    exact readIpv6Addr_mapped hmapped rest

/-! ### Endpoints -/

/-- Reads an endpoint, with an IPv6 address in brackets. -/
def readHost : Reader IpAddr := fun s =>
  match readIpv4Addr s with
  | some (addr, s) => some (.v4 addr, s)
  | none =>
    match s with
    | '[' :: s =>
      match readIpv6Addr s with
      | some (addr, ']' :: s) => some (.v6 addr, s)
      | _ => none
    | _ => none

end IpAddr

open IpAddr

/-- The address and the port that an endpoint is the url of. -/
def readEndpoint (endpoint : Str) : Option (IpAddr × Nat) := do
  let s ← stripPrefix "http://".toList endpoint
  let (ip, s) ← readHost s
  let (port, s) ← readSeparator ':' 1 (readNumber 65536 10 5 true) s
  if s = [] then some (ip, port.val) else none

/-- **An endpoint is read as the address and the port it is formatted of.** -/
theorem readEndpoint_formatUrl (ip : IpAddr) {port : Nat} (hport : port < 65536) :
    readEndpoint (formatUrl "http".toList ip port) = some (ip, port) := by
  have hscheme : "http".toList ++ "://".toList = "http://".toList := rfl
  have hcolon : ":".toList = [':'] := rfl
  have hbrackets : "[".toList = ['['] ∧ "]:".toList = [']', ':'] := ⟨rfl, rfl⟩
  have hlength : (Nat.toDigits 10 port).length ≤ 5 :=
    (Nat.length_toDigits_le_iff (by omega) (by omega)).mpr (by omega)
  have hnumber : readNumber 65536 10 5 true (Nat.toDigits 10 port ++ []) =
      some (⟨port, hport⟩, []) :=
    readNumber_toDigits (by omega) (by omega) ⟨port, hport⟩ hlength (noDigit_nil 10)
  rw [List.append_nil] at hnumber
  have hhost : readHost (formatSocketAddr ip port) = some (ip, ':' :: Nat.toDigits 10 port) := by
    unfold formatSocketAddr readHost
    simp only [Nat.toList_repr, hcolon, hbrackets.1, hbrackets.2, List.append_assoc,
      List.cons_append, List.nil_append]
    cases ip with
    | v4 addr =>
      simp only
      rw [readIpv4Addr_toStr addr (noDigit_cons rfl _)]
    | v6 addr =>
      have hdot : '.' ∉ ':' :: Nat.toDigits 10 port := by
        intro h
        rcases List.mem_cons.mp h with h | h
        · cases h
        · exact notMem_toDigits (by omega) (by omega) rfl _ h
      have hnone : readIpv4Addr ('[' :: (addr.toStr ++ ']' :: ':' :: Nat.toDigits 10 port)) = none :=
        readIpv4Addr_of_noDigit (noDigit_cons rfl _)
      simp only [hnone, readIpv6Addr_toStr addr hdot]
  unfold readEndpoint formatUrl
  rw [hscheme, stripPrefix_append]
  simp only [Option.bind_eq_bind, Option.bind_some, hhost, readSeparator_cons, hnumber]
  rfl

end DragonflySdk
