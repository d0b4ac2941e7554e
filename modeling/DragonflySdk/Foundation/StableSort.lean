import Mathlib.Data.List.Sort
import Mathlib.Tactic.Common

/-!
# Stable sorting by a key

`sortByKey key l` sorts `l` by `key` and keeps elements of one key in their order. So a sorted list
remembers, for each key, the subsequence of its elements, and nothing else:
`sortByKey_eq_iff` says that two lists sort to the same list exactly when for every key they have
the same subsequence.
-/

namespace DragonflySdk.Foundation

section sorting
variable {α κ : Type} [LinearOrder κ] (key : α → κ)

/-- The stable sort of a list by a key. -/
def sortByKey (l : List α) : List α := l.insertionSort fun a b => key a ≤ key b

@[simp] theorem sortByKey_nil : sortByKey key [] = [] := rfl

theorem sortByKey_perm (l : List α) : (sortByKey key l).Perm l := List.perm_insertionSort _ l

@[simp] theorem mem_sortByKey {a : α} {l : List α} : a ∈ sortByKey key l ↔ a ∈ l :=
  (sortByKey_perm key l).mem_iff

theorem sortByKey_pairwise (l : List α) : (sortByKey key l).Pairwise fun a b => key a ≤ key b := by
  have : Std.Total fun a b : α => key a ≤ key b := ⟨fun a b => le_total (key a) (key b)⟩
  have : IsTrans α fun a b : α => key a ≤ key b := ⟨fun _ _ _ => le_trans⟩
  exact List.pairwise_insertionSort _ l

theorem map_sortByKey {β : Type} (f : α → β) (key' : β → κ) (hkey : ∀ a, key' (f a) = key a)
    (l : List α) : (sortByKey key l).map f = sortByKey key' (l.map f) := by
  refine List.map_insertionSort _ _ f l ?_
  intro a _ b _
  rw [hkey, hkey]

variable [DecidableEq κ]

theorem filter_orderedInsert (k : κ) (a : α) (l : List α) :
    (l.orderedInsert (fun a b => key a ≤ key b) a).filter (fun b => key b = k)
      = (a :: l).filter (fun b => key b = k) := by
  induction l with
  | nil => rfl
  | cons b l ih =>
    rw [List.orderedInsert_cons]
    split_ifs with hle
    · rfl
    · rw [List.filter_cons, ih]
      by_cases ha : key a = k
      · have hb : key b ≠ k := fun hb => hle (by rw [ha, hb])
        simp [ha, hb]
      · simp [ha, List.filter_cons]

theorem filter_sortByKey (k : κ) (l : List α) :
    (sortByKey key l).filter (fun a => key a = k) = l.filter (fun a => key a = k) := by
  induction l with
  | nil => rfl
  | cons a l ih =>
    have hcons : sortByKey key (a :: l)
        = (sortByKey key l).orderedInsert (fun a b => key a ≤ key b) a := rfl
    rw [hcons, filter_orderedInsert, List.filter_cons, ih, List.filter_cons]

theorem eq_of_pairwise_of_filter_eq {l m : List α} (hl : l.Pairwise fun a b => key a ≤ key b)
    (hm : m.Pairwise fun a b => key a ≤ key b)
    (h : ∀ k, l.filter (fun a => key a = k) = m.filter (fun a => key a = k)) : l = m := by
  have hmem : ∀ a, a ∈ l ↔ a ∈ m := by
    intro a
    have hf : ∀ l : List α, a ∈ l ↔ a ∈ l.filter (fun b => key b = key a) := by simp
    rw [hf l, hf m, h]
  induction l generalizing m with
  | nil =>
    cases m with
    | nil => rfl
    | cons b m => exact absurd ((hmem b).mpr List.mem_cons_self) List.not_mem_nil
  | cons a l ih =>
    cases m with
    | nil => exact absurd ((hmem a).mp List.mem_cons_self) List.not_mem_nil
    | cons b m =>
      have hle : ∀ {x : α} {t : List α} {y : α}, (x :: t).Pairwise (fun a b => key a ≤ key b) →
          y ∈ x :: t → key x ≤ key y := by
        intro x t y hp hy
        rcases List.mem_cons.mp hy with rfl | hy
        · exact le_rfl
        · exact (List.pairwise_cons.mp hp).1 y hy
      have hab : key a = key b :=
        le_antisymm (hle hl ((hmem b).mpr List.mem_cons_self))
          (hle hm ((hmem a).mp List.mem_cons_self))
      have hhead : a = b := by
        have := h (key a)
        rw [List.filter_cons_of_pos (by simp), List.filter_cons_of_pos (by simp [hab])] at this
        exact (List.cons.inj this).1
      subst hhead
      have htail : ∀ k, l.filter (fun c => key c = k) = m.filter (fun c => key c = k) := by
        intro k
        have hk := h k
        rw [List.filter_cons, List.filter_cons] at hk
        split_ifs at hk
        · exact (List.cons.inj hk).2
        · exact hk
      rw [ih (List.pairwise_cons.mp hl).2 (List.pairwise_cons.mp hm).2 htail]
      intro c
      have hf : ∀ l : List α, c ∈ l ↔ c ∈ l.filter (fun b => key b = key c) := by simp
      rw [hf l, hf m, htail]

/-- **Two lists sort alike exactly when they have the same subsequence for every key.** -/
theorem sortByKey_eq_iff {l m : List α} :
    sortByKey key l = sortByKey key m ↔
      ∀ k, l.filter (fun a => key a = k) = m.filter (fun a => key a = k) := by
  constructor
  · intro h k
    rw [← filter_sortByKey, h, filter_sortByKey]
  · intro h
    refine eq_of_pairwise_of_filter_eq key (sortByKey_pairwise key l) (sortByKey_pairwise key m) ?_
    intro k
    rw [filter_sortByKey, filter_sortByKey, h]

theorem filter_sortByKey_comm (p : α → Bool) (l : List α) :
    (sortByKey key l).filter p = sortByKey key (l.filter p) := by
  refine eq_of_pairwise_of_filter_eq key ((sortByKey_pairwise key l).filter p)
    (sortByKey_pairwise key _) fun k => ?_
  rw [List.filter_comm, filter_sortByKey, filter_sortByKey, List.filter_comm]

end sorting

/-! ### Two readings of a list -/

section readings
variable {α β κ : Type} {f g : α → Option β} {l : List α}

theorem length_filterMap_le (h : ∀ a ∈ l, ∀ b, g a = some b → f a = some b) :
    (l.filterMap g).length ≤ (l.filterMap f).length := by
  induction l with
  | nil => exact le_rfl
  | cons a l ih =>
    have htail := ih fun c hc => h c (List.mem_cons_of_mem a hc)
    cases hg : g a with
    | some b =>
      rw [List.filterMap_cons_some hg, List.filterMap_cons_some (h a List.mem_cons_self b hg)]
      simpa using htail
    | none =>
      rw [List.filterMap_cons_none hg]
      cases hf : f a with
      | none => rwa [List.filterMap_cons_none hf]
      | some b =>
        rw [List.filterMap_cons_some hf, List.length_cons]
        omega

theorem eq_of_length_filterMap (h : ∀ a ∈ l, ∀ b, g a = some b → f a = some b)
    (hlen : (l.filterMap f).length ≤ (l.filterMap g).length) : ∀ a ∈ l, f a = g a := by
  induction l with
  | nil => simp
  | cons a l ih =>
    have htail := fun c hc => h c (List.mem_cons_of_mem a hc)
    have hle := length_filterMap_le htail
    cases hg : g a with
    | some b =>
      have hf := h a List.mem_cons_self b hg
      rw [List.filterMap_cons_some hg, List.filterMap_cons_some hf] at hlen
      refine List.forall_mem_cons.mpr ⟨hf.trans hg.symm, ih htail ?_⟩
      simpa using hlen
    | none =>
      rw [List.filterMap_cons_none hg] at hlen
      cases hf : f a with
      | none =>
        rw [List.filterMap_cons_none hf] at hlen
        exact List.forall_mem_cons.mpr ⟨hf.trans hg.symm, ih htail hlen⟩
      | some b =>
        rw [List.filterMap_cons_some hf, List.length_cons] at hlen
        omega

theorem split_of_length_filterMap (h : ∀ a ∈ l, ∀ b, g a = some b → f a = some b)
    (hlen : (l.filterMap f).length = (l.filterMap g).length + 1) :
    ∃ pre a post b, l = pre ++ a :: post ∧ f a = some b ∧ g a = none ∧
      ∀ c ∈ pre ++ post, f c = g c := by
  induction l with
  | nil => simp at hlen
  | cons a l ih =>
    have htail := fun c hc => h c (List.mem_cons_of_mem a hc)
    have hsame : f a = g a → (l.filterMap f).length = (l.filterMap g).length + 1 →
        ∃ pre c post b, a :: l = pre ++ c :: post ∧ f c = some b ∧ g c = none ∧
          ∀ d ∈ pre ++ post, f d = g d := by
      intro heq hlen
      obtain ⟨pre, c, post, b, rfl, hf, hg, hrest⟩ := ih htail hlen
      exact ⟨a :: pre, c, post, b, rfl, hf, hg, List.forall_mem_cons.mpr ⟨heq, hrest⟩⟩
    cases hg : g a with
    | some b =>
      have hf := h a List.mem_cons_self b hg
      rw [List.filterMap_cons_some hg, List.filterMap_cons_some hf] at hlen
      exact hsame (hf.trans hg.symm) (by simpa using hlen)
    | none =>
      rw [List.filterMap_cons_none hg] at hlen
      cases hf : f a with
      | none =>
        rw [List.filterMap_cons_none hf] at hlen
        exact hsame (hf.trans hg.symm) hlen
      | some b =>
        rw [List.filterMap_cons_some hf, List.length_cons] at hlen
        have hle' : (l.filterMap f).length ≤ (l.filterMap g).length := by omega
        exact ⟨[], a, l, b, rfl, hf, hg, eq_of_length_filterMap htail hle'⟩

theorem cons_eq_concat_iff {b : β} {m : List β} : b :: m = m ++ [b] ↔ ∀ c ∈ m, c = b := by
  induction m with
  | nil => simp
  | cons c m ih =>
    rw [List.cons_append, List.cons.injEq, List.forall_mem_cons]
    constructor
    · intro h
      obtain ⟨rfl, htail⟩ := h
      exact ⟨rfl, ih.mp htail⟩
    · intro h
      obtain ⟨rfl, htail⟩ := h
      exact ⟨rfl, ih.mpr htail⟩

variable [DecidableEq κ] {key : β → κ}

/-- An element moved to the end of a list, seen through the subsequence of each key. -/
theorem filter_move_iff {pre post : List β} {b : β} :
    (∀ k, (pre ++ b :: post).filter (fun c => key c = k)
        = (pre ++ post ++ [b]).filter (fun c => key c = k)) ↔
      ∀ c ∈ post, key c = key b → c = b := by
  have hstep : ∀ k, (pre ++ b :: post).filter (fun c => key c = k)
      = (pre ++ post ++ [b]).filter (fun c => key c = k) ↔
        (key b = k → ∀ c ∈ post.filter (fun c => key c = k), c = b) := by
    intro k
    rw [List.append_assoc, List.filter_append, List.filter_append, List.append_cancel_left_eq,
      List.filter_append]
    by_cases hk : key b = k
    · rw [List.filter_cons_of_pos (by simpa using hk), List.filter_cons_of_pos (by simpa using hk),
        List.filter_nil, cons_eq_concat_iff]
      simp [hk]
    · rw [List.filter_cons_of_neg (by simpa using hk), List.filter_cons_of_neg (by simpa using hk),
        List.filter_nil, List.append_nil]
      simp [hk]
  constructor
  · intro h c hc hkey
    exact (hstep (key b)).mp (h (key b)) rfl c (List.mem_filter.mpr ⟨hc, by simpa using hkey⟩)
  · intro h k
    refine (hstep k).mpr fun hk c hc => ?_
    obtain ⟨hc, hkey⟩ := List.mem_filter.mp hc
    exact h c hc ((of_decide_eq_true hkey).trans hk.symm)

variable [DecidableEq β]

theorem perm_of_filter_eq {l m : List β}
    (h : ∀ k, l.filter (fun b => key b = k) = m.filter (fun b => key b = k)) : l.Perm m := by
  refine List.perm_iff_count.mpr fun b => ?_
  have hcount : ∀ l : List β, (l.filter fun c => key c = key b).count b = l.count b :=
    fun l => List.count_filter (by simp)
  rw [← hcount l, h, hcount m]

omit [DecidableEq κ] [DecidableEq β] in
/-- Two readings that differ in one element, which only the first keeps. -/
theorem filterMap_split {pre post : List α} {a : α} {b : β} (hf : f a = some b) (hg : g a = none)
    (hrest : ∀ c ∈ pre ++ post, f c = g c) :
    (pre ++ a :: post).filterMap f = pre.filterMap f ++ b :: post.filterMap f ∧
      (pre ++ a :: post).filterMap g = pre.filterMap f ++ post.filterMap f := by
  have hpre : pre.filterMap f = pre.filterMap g :=
    List.filterMap_congr fun c hc => hrest c (List.mem_append_left _ hc)
  have hpost : post.filterMap f = post.filterMap g :=
    List.filterMap_congr fun c hc => hrest c (List.mem_append_right _ hc)
  rw [List.filterMap_append, List.filterMap_cons_some hf, List.filterMap_append,
    List.filterMap_cons_none hg, hpre, hpost]
  exact ⟨rfl, rfl⟩

section
variable {good : β → Prop} {f' g' : Option β}
  (hperm : (l.filterMap f ++ f'.toList).Perm (l.filterMap g ++ g'.toList))
include hperm

omit [DecidableEq κ] [DecidableEq β] in
theorem kept_of_perm (hgood : ∀ a ∈ l, ∀ b, f a = some b → good b)
    (hgood' : ∀ b, f' = some b → good b)
    (hkeep : ∀ a ∈ l, ∀ b, g a = some b → good b → f a = some b) :
    ∀ a ∈ l, ∀ b, g a = some b → f a = some b := by
  intro a ha b hg
  refine hkeep a ha b hg ?_
  have hmem : b ∈ l.filterMap f ++ f'.toList :=
    hperm.mem_iff.mpr (List.mem_append_left _ (List.mem_filterMap.mpr ⟨a, ha, hg⟩))
  rcases List.mem_append.mp hmem with hmem | hmem
  · obtain ⟨c, hc, hf⟩ := List.mem_filterMap.mp hmem
    exact hgood c hc b hf
  · exact hgood' b (by simpa using hmem)

variable (hle : ∀ a ∈ l, ∀ b, g a = some b → f a = some b)
include hle

omit [DecidableEq κ] [DecidableEq β] in
theorem last_eq_none (hne : ∀ b, f' = some b → g' ≠ some b) : f' = none := by
  have hlen := hperm.length_eq
  have hlen' := length_filterMap_le hle
  rw [List.length_append, List.length_append] at hlen
  cases hf' : f' with
  | none => rfl
  | some b =>
    cases hg' : g' with
    | none =>
      rw [hf', hg'] at hlen
      simp only [Option.toList_some, Option.toList_none, List.length_cons, List.length_nil] at hlen
      omega
    | some b' =>
      rw [hf', hg'] at hlen hperm
      simp only [Option.toList_some, List.length_cons, List.length_nil] at hlen
      have hsame := eq_of_length_filterMap hle (by omega)
      rw [List.filterMap_congr hsame, List.perm_append_left_iff, Option.toList_some,
        Option.toList_some, List.singleton_perm_singleton] at hperm
      exact absurd (hperm ▸ hg') (hne b hf')

end

/-- **When two readings of a list, each with a last element of its own, sort alike.** The first
reading only keeps good elements, and all good ones that the second keeps; their last elements are
never the same. Then either both keep the same, or the second one's last element is the one
that only the first keeps, from further up, and sorting cannot tell. -/
theorem readings_filter_iff (key : β → κ) (good : β → Prop) {f' g' : Option β}
    (hgood : ∀ a ∈ l, ∀ b, f a = some b → good b) (hgood' : ∀ b, f' = some b → good b)
    (hkeep : ∀ a ∈ l, ∀ b, g a = some b → good b → f a = some b)
    (hne : ∀ b, f' = some b → g' ≠ some b) :
    (∀ k, (l.filterMap f ++ f'.toList).filter (fun b => key b = k)
        = (l.filterMap g ++ g'.toList).filter (fun b => key b = k)) ↔
      f' = none ∧ ((g' = none ∧ ∀ a ∈ l, f a = g a) ∨
        ∃ pre a post b, l = pre ++ a :: post ∧ f a = some b ∧ g a = none ∧ g' = some b ∧
          (∀ c ∈ pre ++ post, f c = g c) ∧
          ∀ c ∈ post, ∀ b', f c = some b' → key b' = key b → b' = b) := by
  constructor
  · intro h
    have hperm := perm_of_filter_eq h
    have hle := kept_of_perm hperm hgood hgood' hkeep
    obtain rfl := last_eq_none hperm hle hne
    refine ⟨rfl, ?_⟩
    have hlen := hperm.length_eq
    rw [List.length_append, List.length_append] at hlen
    cases hg' : g' with
    | none =>
      rw [hg'] at hlen
      simp only [Option.toList_none, List.length_nil] at hlen
      exact .inl ⟨rfl, eq_of_length_filterMap hle (by omega)⟩
    | some b' =>
      rw [hg'] at hlen
      simp only [Option.toList_none, Option.toList_some, List.length_cons, List.length_nil] at hlen
      obtain ⟨pre, a, post, b, rfl, hf, hg, hrest⟩ := split_of_length_filterMap hle (by omega)
      obtain ⟨hsf, hsg⟩ := filterMap_split hf hg hrest
      rw [hg', hsf, hsg, Option.toList_none, Option.toList_some, List.append_nil] at hperm h
      have hb : b = b' := by
        rw [List.append_assoc, List.perm_append_left_iff] at hperm
        have hcount := (List.perm_iff_count.mp (hperm.trans (List.perm_append_singleton _ _))) b
        rw [List.count_cons_self, List.count_cons] at hcount
        split_ifs at hcount with hbb
        · exact (beq_iff_eq.mp hbb).symm
        · omega
      subst hb
      refine .inr ⟨pre, a, post, b, rfl, hf, hg, rfl, hrest, fun c hc d hd hkey => ?_⟩
      exact filter_move_iff.mp h d (List.mem_filterMap.mpr ⟨c, hc, hd⟩) hkey
  · rintro ⟨rfl, ⟨rfl, hsame⟩ | ⟨pre, a, post, b, rfl, hf, hg, rfl, hrest, hlast⟩⟩ k
    · rw [List.filterMap_congr hsame]
    · obtain ⟨hsf, hsg⟩ := filterMap_split hf hg hrest
      rw [hsf, hsg, Option.toList_none, Option.toList_some, List.append_nil]
      refine filter_move_iff.mpr (fun d hd hkey => ?_) k
      obtain ⟨c, hc, hd⟩ := List.mem_filterMap.mp hd
      exact hlast c hc d hd hkey

theorem readings_filter_iff_forall (key : β → κ) (good : β → Prop)
    (hgood : ∀ a ∈ l, ∀ b, f a = some b → good b)
    (hkeep : ∀ a ∈ l, ∀ b, g a = some b → good b → f a = some b) :
    (∀ k, (l.filterMap f).filter (fun b => key b = k) = (l.filterMap g).filter (fun b => key b = k)) ↔
      ∀ a ∈ l, f a = g a := by
  have hnone : ∀ b : β, (none : Option β) ≠ some b := by simp
  have h := readings_filter_iff key good hgood (fun b hb => absurd hb (hnone b)) hkeep
    fun b (_ : none = some b) => hnone b
  simp only [Option.toList_none, List.append_nil, true_and] at h
  rw [h]
  constructor
  · rintro (hsame | ⟨_, _, _, b, _, _, _, hb, _⟩)
    · exact hsame
    · exact absurd hb (hnone b)
  · exact .inl

end readings

end DragonflySdk.Foundation
