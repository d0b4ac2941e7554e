import Mathlib.Data.List.Basic
import Mathlib.Data.List.Infix
import Mathlib.Data.List.Perm.Subperm
import Mathlib.Tactic.Common

/-!
# Walking a ring through a growing window

A ring is seen through `get n`, which follows the walk around it for `n` steps or more. `windowLoop`
collects the first `expected` distinct values the elements are looked up to, and starts over with a
window of twice the size until it has them or has gone round the ring.

* Collecting is to erase the duplicates, look up, and cut off (`collect_nil_nil`).
* From a positive window the loop ends with the collection of the whole walk (`windowLoop_eq`).
* From window `0` it never grows, and ends in its first round or not at all
  (`windowLoop_zero_iff`).
-/

namespace DragonflySdk.Foundation

variable {α β : Type*} [BEq α] [LawfulBEq α]

/-! ### Erasing duplicates -/

theorem eraseDups_prefix {l₁ l₂ : List α} (h : l₁ <+: l₂) : l₁.eraseDups <+: l₂.eraseDups := by
  obtain ⟨t, rfl⟩ := h
  rw [List.eraseDups_append]
  exact List.prefix_append _ _

theorem eraseDups_append_of_subset {l₁ l₂ : List α} (h : l₂ ⊆ l₁) :
    (l₁ ++ l₂).eraseDups = l₁.eraseDups := by
  have hnone : l₂.removeAll l₁ = [] := by
    rw [List.removeAll, List.filter_eq_nil_iff]
    intro x hx
    simp [h hx]
  rw [List.eraseDups_append, hnone, List.eraseDups_nil, List.append_nil]

theorem nodup_eraseDups (l : List α) : l.eraseDups.Nodup := by
  induction hn : l.length using Nat.strong_induction_on generalizing l with
  | _ n ih =>
    cases l with
    | nil => simp
    | cons x xs =>
      rw [List.eraseDups_cons, List.nodup_cons]
      refine ⟨by simp, ih (xs.filter fun y => !y == x).length ?_ _ rfl⟩
      rw [← hn, List.length_cons]
      exact Nat.lt_succ_of_le (List.length_filter_le _ _)

theorem length_eraseDups_le (l : List α) : l.eraseDups.length ≤ l.length := by
  have hsubperm : l.eraseDups.Subperm l :=
    (nodup_eraseDups l).subperm fun _ hx => List.mem_eraseDups.mp hx
  exact hsubperm.length_le

theorem eraseDups_filter_notMem_cons (x : α) (seen l : List α) :
    ((l.filter (· ∉ seen)).filter fun y => !y == x) = l.filter (· ∉ x :: seen) := by
  rw [List.filter_filter]
  apply List.filter_congr
  intro y _
  by_cases hy : y = x <;> simp [hy]

omit [BEq α] [LawfulBEq α] in
theorem take_filterMap_of_isSome {f : α → Option β} {l : List α}
    (h : ∀ a ∈ l, (f a).isSome) (n : Nat) : (l.filterMap f).take n = (l.take n).filterMap f := by
  induction l generalizing n with
  | nil => simp
  | cons a l ih =>
    obtain ⟨b, hb⟩ := Option.isSome_iff_exists.mp (h a List.mem_cons_self)
    cases n with
    | zero => simp
    | succ n =>
      have htail := ih (fun c hc => h c (List.mem_cons_of_mem a hc)) n
      rw [List.filterMap_cons_some hb, List.take_succ_cons, List.take_succ_cons,
        List.filterMap_cons_some hb, htail]

/-! ### Collecting -/

/-- Looks up the elements not seen before, until `expected` values are there. -/
def collect (lookup : α → Option β) (expected : Nat) : List α → List α → List β → List β
  | [], _, found => found
  | x :: xs, seen, found =>
    if x ∈ seen then collect lookup expected xs seen found
    else
      match lookup x with
      | none => collect lookup expected xs (x :: seen) found
      | some value =>
        let found := found ++ [value]
        if found.length = expected then found
        else collect lookup expected xs (x :: seen) found

section collect
variable (lookup : α → Option β) (expected : Nat)

/-- The values of the elements not seen before. -/
def freshValues (seen l : List α) : List β :=
  (l.filter (· ∉ seen)).eraseDups.filterMap lookup

theorem freshValues_cons_of_mem {x : α} {seen : List α} (l : List α) (h : x ∈ seen) :
    freshValues lookup seen (x :: l) = freshValues lookup seen l := by
  unfold freshValues
  rw [List.filter_cons_of_neg (by simpa using h)]

theorem freshValues_cons_of_notMem {x : α} {seen : List α} (l : List α) (h : x ∉ seen) :
    freshValues lookup seen (x :: l) = (lookup x).toList ++ freshValues lookup (x :: seen) l := by
  unfold freshValues
  rw [List.filter_cons_of_pos (by simpa using h), List.eraseDups_cons,
    eraseDups_filter_notMem_cons, List.filterMap_cons]
  cases lookup x <;> rfl

theorem collect_of_lt (l seen : List α) (found : List β) (h : found.length < expected) :
    collect lookup expected l seen found =
      found ++ (freshValues lookup seen l).take (expected - found.length) := by
  induction l generalizing seen found with
  | nil => simp [collect, freshValues]
  | cons x xs ih =>
    unfold collect
    by_cases hseen : x ∈ seen
    · rw [if_pos hseen, ih seen found h, freshValues_cons_of_mem lookup xs hseen]
    · rw [if_neg hseen, freshValues_cons_of_notMem lookup xs hseen]
      cases hx : lookup x with
      | none => simpa using ih (x :: seen) found h
      | some value =>
        have hroom : expected - found.length = (expected - (found ++ [value]).length) + 1 := by
          rw [List.length_append, List.length_singleton]
          omega
        have hcut : ((some value).toList ++ freshValues lookup (x :: seen) xs).take
              (expected - found.length) =
            value :: (freshValues lookup (x :: seen) xs).take
              (expected - (found ++ [value]).length) := by
          rw [hroom]
          rfl
        rw [hcut]
        show (if (found ++ [value]).length = expected then _ else _) = _
        by_cases hfull : (found ++ [value]).length = expected
        · rw [if_pos hfull, hfull, Nat.sub_self, List.take_zero]
        · have hlt : (found ++ [value]).length < expected := by
            rw [List.length_append, List.length_singleton] at hfull ⊢
            omega
          rw [if_neg hfull, ih (x :: seen) _ hlt, List.append_assoc, List.singleton_append]

/-- Beyond `expected` nothing is cut off: the length is compared after each push only. -/
theorem collect_of_ge (l seen : List α) (found : List β) (h : expected ≤ found.length) :
    collect lookup expected l seen found = found ++ freshValues lookup seen l := by
  induction l generalizing seen found with
  | nil => simp [collect, freshValues]
  | cons x xs ih =>
    unfold collect
    by_cases hseen : x ∈ seen
    · rw [if_pos hseen, ih seen found h, freshValues_cons_of_mem lookup xs hseen]
    · rw [if_neg hseen, freshValues_cons_of_notMem lookup xs hseen]
      cases hx : lookup x with
      | none => simpa using ih (x :: seen) found h
      | some value =>
        have hge : expected < (found ++ [value]).length := by
          rw [List.length_append, List.length_singleton]
          omega
        show (if (found ++ [value]).length = expected then _ else _) = _
        rw [if_neg (Nat.ne_of_gt hge), ih (x :: seen) _ hge.le, List.append_assoc]
        rfl

theorem collect_nil_nil (l : List α) (h : 0 < expected) :
    collect lookup expected l [] [] = (l.eraseDups.filterMap lookup).take expected := by
  rw [collect_of_lt lookup expected l [] [] h]
  simp [freshValues]

theorem collect_zero (l : List α) :
    collect lookup 0 l [] [] = l.eraseDups.filterMap lookup := by
  rw [collect_of_ge lookup 0 l [] [] (Nat.zero_le _)]
  simp [freshValues]

end collect

/-! ### The walk -/

/-- `get n` follows the walk for `n` steps or a whole turn. It may go on, also into another turn. -/
structure FollowsWalk (get : Nat → List α) (walk : List α) : Prop where
  covers : ∀ n, min n walk.length ≤ (get n).length
  follows : ∀ n, ∃ turns, get n <+: (List.replicate turns walk).flatten

theorem eraseDups_turns (turns : Nat) (walk : List α) :
    (List.replicate (turns + 1) walk).flatten.eraseDups = walk.eraseDups := by
  rw [List.replicate_succ, List.flatten_cons]
  apply eraseDups_append_of_subset
  intro x hx
  obtain ⟨turn, hturn, hmem⟩ := List.mem_flatten.mp hx
  exact List.eq_of_mem_replicate hturn ▸ hmem

namespace FollowsWalk

variable {get : Nat → List α} {walk : List α}

theorem eraseDups_prefix (h : FollowsWalk get walk) (n : Nat) :
    (get n).eraseDups <+: walk.eraseDups := by
  obtain ⟨turns, hturns⟩ := h.follows n
  cases turns with
  | zero =>
    have hnil : get n = [] := List.prefix_nil.mp hturns
    simp [hnil]
  | succ turns =>
    rw [← eraseDups_turns turns walk]
    exact Foundation.eraseDups_prefix hturns

theorem eraseDups_eq (h : FollowsWalk get walk) {n : Nat} (hlen : walk.length ≤ (get n).length) :
    (get n).eraseDups = walk.eraseDups := by
  obtain ⟨turns, hturns⟩ := h.follows n
  have hwalk : walk <+: get n := by
    cases turns with
    | zero =>
      have hnil : get n = [] := List.prefix_nil.mp hturns
      have : walk = [] := List.eq_nil_of_length_eq_zero (by simpa [hnil] using hlen)
      simp [this]
    | succ turns =>
      rw [List.replicate_succ, List.flatten_cons] at hturns
      exact List.prefix_of_prefix_length_le (List.prefix_append _ _) hturns hlen
  exact (h.eraseDups_prefix n).eq_of_length_le (Foundation.eraseDups_prefix hwalk).length_le

end FollowsWalk

/-! ### The window -/

/-- Collects from `get window`, doubling the window until `expected` values are there or `len`
elements are covered. -/
def windowLoop (get : Nat → List α) (lookup : α → Option β) (expected len : Nat) :
    (fuel window : Nat) → Option (List β)
  | 0, _ => none
  | fuel + 1, window =>
    let elements := get window
    let found := collect lookup expected elements [] []
    if found.length = expected ∨ len ≤ elements.length then some found
    else windowLoop get lookup expected len fuel (window * 2)

section windowLoop
variable {get : Nat → List α} {lookup : α → Option β} {expected len : Nat}

theorem windowLoop_stop {window : Nat} (fuel : Nat)
    (h : (collect lookup expected (get window) [] []).length = expected ∨
      len ≤ (get window).length) :
    windowLoop get lookup expected len (fuel + 1) window =
      some (collect lookup expected (get window) [] []) :=
  if_pos h

theorem windowLoop_grow {window : Nat} (fuel : Nat)
    (h : ¬ ((collect lookup expected (get window) [] []).length = expected ∨
      len ≤ (get window).length)) :
    windowLoop get lookup expected len (fuel + 1) window =
      windowLoop get lookup expected len fuel (window * 2) :=
  if_neg h

theorem windowLoop_succ {fuel window : Nat} {found : List β}
    (h : windowLoop get lookup expected len fuel window = some found) :
    windowLoop get lookup expected len (fuel + 1) window = some found := by
  induction fuel generalizing window with
  | zero => simp [windowLoop] at h
  | succ fuel ih =>
    by_cases hstop : (collect lookup expected (get window) [] []).length = expected ∨
        len ≤ (get window).length
    · rw [windowLoop_stop _ hstop] at h ⊢
      exact h
    · rw [windowLoop_grow _ hstop] at h ⊢
      exact ih h

theorem windowLoop_le {fuel fuel' window : Nat} {found : List β} (hle : fuel ≤ fuel')
    (h : windowLoop get lookup expected len fuel window = some found) :
    windowLoop get lookup expected len fuel' window = some found := by
  induction hle with
  | refl => exact h
  | step _ ih => exact windowLoop_succ ih

theorem windowLoop_unique {fuel fuel' window : Nat} {found found' : List β}
    (h : windowLoop get lookup expected len fuel window = some found)
    (h' : windowLoop get lookup expected len fuel' window = some found') : found = found' := by
  have hmax := windowLoop_le (le_max_left fuel fuel') h
  rw [windowLoop_le (le_max_right fuel fuel') h'] at hmax
  exact (Option.some.inj hmax).symm

variable {walk : List α}

theorem collect_get (h : FollowsWalk get walk) (hexpected : 0 < expected) {window : Nat}
    (hstop : (collect lookup expected (get window) [] []).length = expected ∨
      walk.length ≤ (get window).length) :
    collect lookup expected (get window) [] [] =
      (walk.eraseDups.filterMap lookup).take expected := by
  rw [collect_nil_nil lookup expected _ hexpected] at hstop ⊢
  rcases hstop with hfull | hcovered
  · -- the values so far are the first ones of the whole walk, and enough of them
    obtain ⟨rest, hrest⟩ := (h.eraseDups_prefix window).filterMap lookup
    have hlen : expected ≤ ((get window).eraseDups.filterMap lookup).length := by
      rw [List.length_take] at hfull
      omega
    rw [← hrest, List.take_append_of_le_length hlen]
  · rw [h.eraseDups_eq hcovered]

/-- **The windowed walk is the walk.** -/
theorem windowLoop_eq (h : FollowsWalk get walk) (lookup : α → Option β)
    (hexpected : 0 < expected) {window : Nat} (hwindow : 0 < window) :
    ∃ fuel, windowLoop get lookup expected walk.length fuel window =
      some ((walk.eraseDups.filterMap lookup).take expected) := by
  induction hn : walk.length - window using Nat.strong_induction_on generalizing window with
  | _ n ih =>
    by_cases hstop : (collect lookup expected (get window) [] []).length = expected ∨
        walk.length ≤ (get window).length
    · exact ⟨1, by rw [windowLoop_stop 0 hstop, collect_get h hexpected hstop]⟩
    · have hshort : window < walk.length := by
        have := h.covers window
        have hlen : ¬ walk.length ≤ (get window).length := fun hle => hstop (Or.inr hle)
        omega
      obtain ⟨fuel, hfuel⟩ := ih (walk.length - window * 2) (by omega) (by omega) rfl
      exact ⟨fuel + 1, by rw [windowLoop_grow fuel hstop, hfuel]⟩

/-- **A window of `0` stays.** The loop ends only if its first round does. -/
theorem windowLoop_zero_iff {found : List β} :
    (∃ fuel, windowLoop get lookup 0 len fuel 0 = some found) ↔
      found = (get 0).eraseDups.filterMap lookup ∧ (found = [] ∨ len ≤ (get 0).length) := by
  rw [← collect_zero lookup (get 0)]
  constructor
  · intro h
    obtain ⟨fuel, hfuel⟩ := h
    induction fuel with
    | zero => simp [windowLoop] at hfuel
    | succ fuel ih =>
      by_cases hstop : (collect lookup 0 (get 0) [] []).length = 0 ∨ len ≤ (get 0).length
      · rw [windowLoop_stop fuel hstop, Option.some.injEq] at hfuel
        rw [← hfuel]
        exact ⟨rfl, hstop.imp_left List.eq_nil_of_length_eq_zero⟩
      · rw [windowLoop_grow fuel hstop] at hfuel
        exact ih hfuel
  · intro h
    obtain ⟨rfl, hstop⟩ := h
    exact ⟨1, windowLoop_stop 0 (hstop.imp_left (congrArg List.length))⟩

end windowLoop

end DragonflySdk.Foundation
