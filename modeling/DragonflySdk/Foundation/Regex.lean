import DragonflySdk.Foundation.Text

/-!
# Backtracking regular expressions with captures

The match a leftmost-first engine reports for a pattern `^…$`: alternatives in order, every
repetition greedy, backtracking into a shorter repetition when the rest fails. `Regex.exec` is that
search in continuation-passing style, and `Regex.captures` anchors it at both ends.

A greedy `p*` before a continuation succeeds at the *last* place the continuation does
(`execMany_eq_lastSuffix`). The value found that way only depends on the shortest suffix
(`lastSuffix_of_append`), which is what makes a chain of greedy repetitions readable: the outer ones
never change which suffix the innermost one finds.
-/

namespace DragonflySdk.Foundation

/-- A pattern: characters, greedy repetitions of a character class, groups. -/
inductive Regex
  | literal (s : Str)
  | char (p : Char → Bool)
  | many (p : Char → Bool)
  | seq (r s : Regex)
  | optional (r : Regex)
  | group (index : Nat) (r : Regex)

/-- The text each group matched, the last match of a group first. -/
abbrev Captures := List (Nat × Str)

namespace Captures

/-- The text group `index` matched. -/
def get (caps : Captures) (index : Nat) : Option Str := caps.lookup index

end Captures

variable {α β : Type}

/-- Greedy `p*`: the longest repetition for which the rest matches. -/
def execMany (p : Char → Bool) : Str → (Str → Option α) → Option α
  | [], k => k []
  | c :: s, k => if p c then (execMany p s k).orElse fun _ => k (c :: s) else k (c :: s)

/-- The backtracking search from the start of `s`. -/
def Regex.exec : Regex → Str → Captures → (Str → Captures → Option α) → Option α
  | .literal l, s, caps, k => (stripPrefix l s).bind fun rest => k rest caps
  | .char p, s, caps, k =>
    match s with
    | c :: rest => if p c then k rest caps else none
    | [] => none
  | .many p, s, caps, k => execMany p s fun rest => k rest caps
  | .seq r r', s, caps, k => r.exec s caps fun rest caps => r'.exec rest caps k
  | .optional r, s, caps, k => (r.exec s caps k).orElse fun _ => k s caps
  | .group index r, s, caps, k =>
    r.exec s caps fun rest caps => k rest ((index, s.take (s.length - rest.length)) :: caps)

/-- The captures of `^r$` in `s`. -/
def Regex.captures (r : Regex) (s : Str) : Option Captures :=
  r.exec s [] fun rest caps => if rest = [] then some caps else none

/-- `^r$` matches `s`. -/
def Regex.isMatch (r : Regex) (s : Str) : Bool := (r.captures s).isSome

/-! ### What a search finds -/

/-- The pattern matches the text, adding its groups to the captures. -/
def Regex.Matches : Regex → Str → Captures → Captures → Prop
  | .literal l, t, caps, caps' => t = l ∧ caps' = caps
  | .char p, t, caps, caps' => (∃ c, t = [c] ∧ p c = true) ∧ caps' = caps
  | .many p, t, caps, caps' => (∀ c ∈ t, p c = true) ∧ caps' = caps
  | .seq r r', t, caps, caps' =>
    ∃ t₁ t₂ caps₁, t = t₁ ++ t₂ ∧ r.Matches t₁ caps caps₁ ∧ r'.Matches t₂ caps₁ caps'
  | .optional r, t, caps, caps' => r.Matches t caps caps' ∨ t = [] ∧ caps' = caps
  | .group index r, t, caps, caps' => ∃ caps₁, r.Matches t caps caps₁ ∧ caps' = (index, t) :: caps₁

theorem execMany_sound {p : Char → Bool} {s : Str} {k : Str → Option α} {a : α}
    (h : execMany p s k = some a) :
    ∃ t rest, s = t ++ rest ∧ (∀ c ∈ t, p c = true) ∧ k rest = some a := by
  induction s with
  | nil => exact ⟨[], [], rfl, List.forall_mem_nil _, h⟩
  | cons c s ih =>
    rw [execMany] at h
    by_cases hc : p c = true
    · rw [if_pos hc] at h
      rcases hmany : execMany p s k with _ | b
      · rw [hmany] at h
        exact ⟨[], c :: s, rfl, List.forall_mem_nil _, h⟩
      · rw [hmany] at h
        obtain ⟨t, rest, rfl, ht, hk⟩ := ih (hmany.trans h)
        exact ⟨c :: t, rest, rfl, List.forall_mem_cons.mpr ⟨hc, ht⟩, hk⟩
    · rw [if_neg hc] at h
      exact ⟨[], c :: s, rfl, List.forall_mem_nil _, h⟩

theorem Regex.exec_sound {r : Regex} {s : Str} {caps : Captures} {k : Str → Captures → Option α}
    {a : α} (h : r.exec s caps k = some a) :
    ∃ t rest caps', s = t ++ rest ∧ r.Matches t caps caps' ∧ k rest caps' = some a := by
  induction r generalizing s caps k with
  | literal l =>
    obtain ⟨rest, hstrip, hk⟩ := Option.bind_eq_some_iff.mp h
    exact ⟨l, rest, caps, stripPrefix_eq_some hstrip, ⟨rfl, rfl⟩, hk⟩
  | char p =>
    cases s with
    | nil => cases h
    | cons c s =>
      simp only [exec] at h
      by_cases hc : p c = true
      · rw [if_pos hc] at h
        exact ⟨[c], s, caps, rfl, ⟨⟨c, rfl, hc⟩, rfl⟩, h⟩
      · rw [if_neg hc] at h
        cases h
  | many p =>
    obtain ⟨t, rest, hs, ht, hk⟩ := execMany_sound h
    exact ⟨t, rest, caps, hs, ⟨ht, rfl⟩, hk⟩
  | seq r r' ihr ihr' =>
    obtain ⟨t₁, rest₁, caps₁, rfl, hmatch, h⟩ := ihr h
    obtain ⟨t₂, rest, caps', rfl, hmatch', hk⟩ := ihr' h
    exact ⟨t₁ ++ t₂, rest, caps', (List.append_assoc _ _ _).symm,
      ⟨t₁, t₂, caps₁, rfl, hmatch, hmatch'⟩, hk⟩
  | optional r ih =>
    rw [exec] at h
    rcases hexec : r.exec s caps k with _ | b
    · rw [hexec] at h
      exact ⟨[], s, caps, rfl, Or.inr ⟨rfl, rfl⟩, h⟩
    · rw [hexec] at h
      obtain ⟨t, rest, caps', hs, hmatch, hk⟩ := ih (hexec.trans h)
      exact ⟨t, rest, caps', hs, Or.inl hmatch, hk⟩
  | group index r ih =>
    obtain ⟨t, rest, caps₁, rfl, hmatch, hk⟩ := ih h
    have htext : (t ++ rest).take ((t ++ rest).length - rest.length) = t := by
      rw [List.length_append, Nat.add_sub_cancel, List.take_left]
    rw [htext] at hk
    exact ⟨t, rest, (index, t) :: caps₁, rfl, ⟨caps₁, hmatch, rfl⟩, hk⟩

theorem Regex.captures_sound {r : Regex} {s : Str} {caps : Captures}
    (h : r.captures s = some caps) : r.Matches s [] caps := by
  obtain ⟨t, rest, caps', rfl, hmatch, hrest⟩ := exec_sound h
  by_cases hnil : rest = []
  · rw [if_pos hnil] at hrest
    rw [hnil, List.append_nil, ← Option.some.inj hrest]
    exact hmatch
  · rw [if_neg hnil] at hrest
    cases hrest

/-! ### What the search only uses the continuation for -/

theorem execMany_map (p : Char → Bool) (f : α → β) (s : Str) (k : Str → Option α) :
    (execMany p s k).map f = execMany p s fun rest => (k rest).map f := by
  induction s with
  | nil => rfl
  | cons c s ih =>
    rw [execMany, execMany]
    split_ifs
    · rw [← ih]
      cases execMany p s k <;> rfl
    · rfl

theorem Regex.exec_map (f : α → β) (r : Regex) (s : Str) (caps : Captures)
    (k : Str → Captures → Option α) :
    (r.exec s caps k).map f = r.exec s caps fun rest caps => (k rest caps).map f := by
  induction r generalizing s caps k with
  | literal l =>
    rw [exec, exec]
    cases stripPrefix l s <;> rfl
  | char p =>
    cases s with
    | nil => rfl
    | cons c s =>
      simp only [exec]
      split_ifs <;> rfl
  | many p => exact execMany_map p f s _
  | seq r r' ihr ihr' =>
    rw [exec, exec, ihr]
    congr 1
    funext rest caps
    exact ihr' rest caps k
  | optional r ih =>
    rw [exec, exec, ← ih]
    cases r.exec s caps k <;> rfl
  | group index r ih =>
    rw [exec, exec, ih]

/-- A repetition whose continuation needs to stop at the first character outside the class. -/
theorem execMany_eq_dropWhile {p : Char → Bool} {k : Str → Option α}
    (hk : ∀ c s, p c = true → k (c :: s) = none) (s : Str) :
    execMany p s k = k (s.dropWhile p) := by
  induction s with
  | nil => rfl
  | cons c s ih =>
    rw [execMany, List.dropWhile_cons]
    split_ifs with hc
    · rw [ih, hk c s hc]
      cases k (s.dropWhile p) <;> rfl
    · rfl

theorem take_sub_length_dropWhile (p : Char → Bool) (s : Str) :
    s.take (s.length - (s.dropWhile p).length) = s.takeWhile p := by
  have hlen := congrArg List.length (List.takeWhile_append_dropWhile (p := p) (l := s))
  rw [List.length_append] at hlen
  rw [show s.length - (s.dropWhile p).length = (s.takeWhile p).length by omega]
  exact (List.prefix_iff_eq_take.mp (List.takeWhile_prefix p)).symm

theorem Regex.exec_literal_seq (l : Str) (r : Regex) (s : Str) (caps : Captures)
    (k : Str → Captures → Option α) :
    (Regex.seq (.literal l) r).exec s caps k = (stripPrefix l s).bind fun rest => r.exec rest caps k :=
  rfl

/-! ### The last place a continuation succeeds -/

/-- The value of `k` at the shortest suffix it is defined on. -/
def lastSuffix (k : Str → Option α) : Str → Option α
  | [] => k []
  | c :: s => (lastSuffix k s).orElse fun _ => k (c :: s)

theorem execMany_eq_lastSuffix {p : Char → Bool} {s : Str} (hs : ∀ c ∈ s, p c = true)
    (k : Str → Option α) : execMany p s k = lastSuffix k s := by
  induction s with
  | nil => rfl
  | cons c s ih =>
    rw [execMany, lastSuffix, if_pos (hs c List.mem_cons_self),
      ih fun d hd => hs d (List.mem_cons_of_mem c hd)]

theorem lastSuffix_congr {k k' : Str → Option α} {s : Str} (h : ∀ rest, rest <:+ s → k rest = k' rest) :
    lastSuffix k s = lastSuffix k' s := by
  induction s with
  | nil => exact h [] (List.suffix_refl [])
  | cons c s ih =>
    rw [lastSuffix, lastSuffix, h _ (List.suffix_refl _),
      ih fun rest hrest => h rest (hrest.trans (List.suffix_cons c s))]

theorem lastSuffix_of_append {k : Str → Option α} {s : Str} {a : α} (h : lastSuffix k s = some a)
    (pre : Str) : lastSuffix k (pre ++ s) = some a := by
  induction pre with
  | nil => exact h
  | cons c pre ih =>
    rw [List.cons_append, lastSuffix, ih]
    rfl

theorem lastSuffix_eq_some {k : Str → Option α} {s : Str} {a : α} (h : lastSuffix k s = some a) :
    ∃ pre post, s = pre ++ post ∧ k post = some a := by
  induction s with
  | nil => exact ⟨[], [], rfl, h⟩
  | cons c s ih =>
    rw [lastSuffix] at h
    cases hs : lastSuffix k s with
    | some b =>
      rw [hs] at h
      obtain ⟨pre, post, rfl, hpost⟩ := ih (hs.trans h)
      exact ⟨c :: pre, post, rfl, hpost⟩
    | none =>
      rw [hs] at h
      exact ⟨[], c :: s, rfl, h⟩

theorem lastSuffix_isSome {k : Str → Option α} {s : Str} :
    (lastSuffix k s).isSome = true ↔ ∃ pre post, s = pre ++ post ∧ (k post).isSome = true := by
  constructor
  · intro h
    obtain ⟨a, ha⟩ := Option.isSome_iff_exists.mp h
    obtain ⟨pre, post, rfl, hpost⟩ := lastSuffix_eq_some ha
    exact ⟨pre, post, rfl, by rw [hpost]; rfl⟩
  · rintro ⟨pre, post, rfl, hpost⟩
    have hself : (lastSuffix k post).isSome = true := by
      cases post with
      | nil => exact hpost
      | cons c post =>
        rw [lastSuffix]
        cases lastSuffix k post with
        | some b => rfl
        | none => exact hpost
    obtain ⟨a, ha⟩ := Option.isSome_iff_exists.mp hself
    rw [lastSuffix_of_append ha]
    rfl

theorem lastSuffix_map (f : α → β) (k : Str → Option α) (s : Str) :
    lastSuffix (fun rest => (k rest).map f) s = (lastSuffix k s).map f := by
  induction s with
  | nil => rfl
  | cons c s ih =>
    rw [lastSuffix, lastSuffix, ih]
    cases lastSuffix k s <;> rfl

theorem lastSuffix_eq_none {k : Str → Option α} {s : Str} (h : ∀ rest, rest <:+ s → k rest = none) :
    lastSuffix k s = none := by
  cases hs : lastSuffix k s with
  | none => rfl
  | some a =>
    obtain ⟨pre, post, rfl, hpost⟩ := lastSuffix_eq_some hs
    rw [h post (List.suffix_append pre post)] at hpost
    simp at hpost

/-- Text after which `k` finds nothing, and that it ignores, can be cut off. -/
theorem lastSuffix_append_of_none {k : Str → Option α} {s t : Str} (ht : lastSuffix k t = none)
    (hk : ∀ rest, rest <:+ s → k (rest ++ t) = k rest) : lastSuffix k (s ++ t) = lastSuffix k s := by
  induction s with
  | nil =>
    rw [List.nil_append, ht, lastSuffix, ← hk [] (List.suffix_refl [])]
    cases hkt : k t with
    | none => rw [List.nil_append, hkt]
    | some a =>
      have : (lastSuffix k t).isSome = true := lastSuffix_isSome.mpr ⟨[], t, rfl, by rw [hkt]; rfl⟩
      rw [ht] at this
      simp at this
  | cons c s ih =>
    rw [List.cons_append, lastSuffix, lastSuffix, ← List.cons_append, hk _ (List.suffix_refl _),
      ih fun rest hrest => hk rest (hrest.trans (List.suffix_cons c s))]

/-- A group `(p*)` before a pattern whose result does not depend on the captures so far. -/
theorem Regex.exec_group_many_seq {p : Char → Bool} {s : Str} (hs : ∀ c ∈ s, p c = true) {r : Regex}
    {k : Str → Captures → Option β} {f : α → β} {g : Str → Option α}
    (hr : ∀ rest, rest <:+ s → ∀ caps, r.exec rest caps k = (g rest).map f) (index : Nat)
    (caps : Captures) :
    (Regex.seq (.group index (.many p)) r).exec s caps k = (lastSuffix g s).map f := by
  rw [exec, exec, exec, execMany_eq_lastSuffix hs, ← lastSuffix_map]
  exact lastSuffix_congr fun rest hrest => hr rest hrest _

end DragonflySdk.Foundation
