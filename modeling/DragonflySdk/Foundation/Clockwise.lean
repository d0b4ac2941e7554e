import Mathlib.Data.List.Sort
import DragonflySdk.Foundation.RingWalk

/-!
# Points on a ring

Points with owners lie on a ring, no two at one position (`Placed`). A walk clockwise from some
position meets every point once (`clockwise`). When an owner leaves, the walk meets the points of the
others as before (`Placed.clockwise_filter`), so of the first owners the others keep their order, and
at most one more comes in at the end (`take_filter_prefix`).
-/

namespace DragonflySdk.Foundation

variable {Pos α : Type*} [LinearOrder Pos]

/-- The points of `points`, in the order of their positions, no two of which are the same. -/
structure Placed (ring : List (Pos × α)) (points : Set (Pos × α)) : Prop where
  sorted : ring.Pairwise (fun p q => p.1 < q.1)
  mem_iff : ∀ p, p ∈ ring ↔ p ∈ points

/-- The owners of the points, once round the ring from `start`. -/
def clockwise (start : Pos) (ring : List (Pos × α)) : List α :=
  (ring.filter (start ≤ ·.1) ++ ring.filter (·.1 < start)).map Prod.snd

theorem clockwise_filter (start : Pos) (ring : List (Pos × α)) (p : α → Bool) :
    (clockwise start ring).filter p = clockwise start (ring.filter fun point => p point.2) := by
  unfold clockwise
  rw [List.filter_map, List.filter_append, List.filter_filter, List.filter_filter,
    List.filter_filter, List.filter_filter]
  simp only [Function.comp_apply, Bool.and_comm]

namespace Placed

variable {ring ring' : List (Pos × α)} {points points' : Set (Pos × α)}

theorem filter (h : Placed ring points) (p : α → Bool) :
    Placed (ring.filter fun point => p point.2) {point ∈ points | p point.2 = true} where
  sorted := h.sorted.filter _
  mem_iff point := by
    rw [List.mem_filter, h.mem_iff]
    rfl

theorem unique (h : Placed ring points) (h' : Placed ring' points) : ring = ring' := by
  have : Std.Irrefl fun p q : Pos × α => p.1 < q.1 := ⟨fun p => lt_irrefl p.1⟩
  have : Std.Antisymm fun p q : Pos × α => p.1 < q.1 := ⟨fun p q hpq hqp => absurd hpq hqp.asymm⟩
  exact h.sorted.eq_of_mem_iff h'.sorted fun point => by rw [h.mem_iff, h'.mem_iff]

/-- **Without some owners, the walk is that of the others.** -/
theorem clockwise_filter (h : Placed ring points) (h' : Placed ring' points') (p : α → Bool)
    (hpoints : points = {point ∈ points' | p point.2 = true}) (start : Pos) :
    clockwise start ring = (clockwise start ring').filter p := by
  subst hpoints
  rw [Foundation.clockwise_filter, h.unique (h'.filter p)]

end Placed

/-! ### The first owners -/

theorem eraseDups_filter [BEq α] [LawfulBEq α] (p : α → Bool) (l : List α) :
    (l.filter p).eraseDups = l.eraseDups.filter p := by
  induction hn : l.length using Nat.strong_induction_on generalizing l with
  | _ n ih =>
    cases l with
    | nil => simp
    | cons x xs =>
      have hlt : (xs.filter fun y => !y == x).length < n := by
        rw [← hn, List.length_cons]
        exact Nat.lt_succ_of_le (List.length_filter_le _ _)
      have htail := ih _ hlt (xs.filter fun y => !y == x) rfl
      rw [List.filter_filter] at htail
      rw [List.eraseDups_cons]
      by_cases hx : p x = true
      · rw [List.filter_cons_of_pos hx, List.filter_cons_of_pos hx, List.eraseDups_cons,
          List.filter_filter, ← htail]
        simp only [Bool.and_comm]
      · -- none of the others is equal to an element that is left out
        have hsame : xs.filter p = xs.filter fun y => p y && !y == x := by
          apply List.filter_congr
          intro y _
          by_cases hyx : y = x
          · rw [hyx, Bool.eq_false_of_not_eq_true hx, Bool.false_and]
          · simp [hyx]
        rw [List.filter_cons_of_neg hx, List.filter_cons_of_neg hx, hsame, htail]

theorem take_filter_prefix {l : List α} (p : α → Bool) {m n : Nat}
    (h : min n (l.filter p).length ≤ m) : (l.take n).filter p <+: (l.filter p).take m := by
  have hinit : (l.take n).filter p <+: l.filter p := (List.take_prefix n l).filter p
  refine List.prefix_take_iff.mpr ⟨hinit, ?_⟩
  have hlength := hinit.length_le
  have htake : ((l.take n).filter p).length ≤ n :=
    (List.length_filter_le _ _).trans (List.length_take_le n l)
  omega

end DragonflySdk.Foundation
