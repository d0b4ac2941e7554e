import DragonflySdk.Foundation.RingWalk
import DragonflySdk.Foundation.StableSort
import DragonflySdk.Foundation.Text

/-!
# The hash ring

`VNodeHashRing` of the crate `dragonfly_hashring` (and of its sibling in Go) is third-party code:
what the selector calls of it is `HashRingCrate`, and what the selector relies on is
`HashRingCrate.Lawful`. A vnode is known by the name of its node.
-/

namespace DragonflySdk

open Foundation

/-- The calls on a hash ring; in Go an empty slice stands for `none`. -/
structure HashRingCrate where
  Ring : Type
  new : Ring
  add : Ring → Str → Ring
  len : Ring → Nat
  getWithReplicas : Ring → Str → Nat → Option (List Str)

namespace HashRingCrate

variable (crate : HashRingCrate)

/-- A new ring with the names added to it. -/
def build (names : List Str) : crate.Ring := names.foldl crate.add crate.new

/-- `get_with_replicas(key, n).unwrap_or_default()` -/
def vnodes (ring : crate.Ring) (key : Str) (n : Nat) : List Str :=
  (crate.getWithReplicas ring key n).getD []

/-- The walk clockwise from the position of `key`, once round the ring. -/
def walk (ring : crate.Ring) (key : Str) : List Str :=
  (crate.vnodes ring key (crate.len ring)).take (crate.len ring)

/-- What is relied on: `get_with_replicas` follows the walk, at least as far as it is asked to or
round the ring, and the ring of a set of names has vnodes of exactly these, wherever they were
added. -/
structure Lawful : Prop where
  le_length : ∀ ring key n, min n (crate.len ring) ≤ (crate.vnodes ring key n).length
  follows : ∀ ring key n,
    ∃ turns, crate.vnodes ring key n <+: (List.replicate turns (crate.walk ring key)).flatten
  mem_walk : ∀ names : List Str, names.Nodup → ∀ key name,
    name ∈ crate.walk (crate.build names) key ↔ name ∈ names
  build_perm : ∀ names names' : List Str, names.Perm names' → names.Nodup →
    crate.build names = crate.build names'

/-- As documented: the key's node, along with the next `n`. -/
def AtMostNext : Prop := ∀ ring key n, (crate.vnodes ring key n).length ≤ n + 1

variable {crate}

namespace Lawful

theorem length_walk (h : crate.Lawful) (ring : crate.Ring) (key : Str) :
    (crate.walk ring key).length = crate.len ring := by
  have := h.le_length ring key (crate.len ring)
  rw [walk, List.length_take]
  omega

theorem followsWalk (h : crate.Lawful) (ring : crate.Ring) (key : Str) :
    FollowsWalk (crate.vnodes ring key) (crate.walk ring key) where
  covers n := by
    rw [h.length_walk]
    exact h.le_length ring key n
  follows := h.follows ring key

end Lawful

end HashRingCrate

/-! ### A ring by name -/

/-- The names in order, those from `key` on first. -/
def namesFrom (names : List Str) (key : Str) : List Str :=
  names.filter (textOrder key ≤ textOrder ·) ++ names.filter (textOrder · < textOrder key)

theorem mem_namesFrom {names : List Str} {key name : Str} :
    name ∈ namesFrom names key ↔ name ∈ names := by
  rw [namesFrom, List.mem_append, List.mem_filter, List.mem_filter, decide_eq_true_iff,
    decide_eq_true_iff, ← and_or_left, and_iff_left (le_or_gt _ _)]

theorem length_namesFrom (names : List Str) (key : Str) :
    (namesFrom names key).length = names.length := by
  have hrest : names.filter (textOrder · < textOrder key) =
      names.filter fun name => !decide (textOrder key ≤ textOrder name) := by
    apply List.filter_congr
    intro name _
    simp [← not_le]
  rw [namesFrom, List.length_append, hrest, ← List.length_eq_length_filter_add]

/-- A ring with one vnode a name, placed at the name itself. As in the crate, the key's node comes
along with the `n` nodes after it. -/
@[reducible] def nameRing : HashRingCrate where
  Ring := List Str
  new := []
  add ring name := sortByKey textOrder (name :: ring)
  len := List.length
  getWithReplicas ring key n := if ring = [] then none else some ((namesFrom ring key).take (n + 1))

namespace nameRing

theorem vnodes_eq (ring : nameRing.Ring) (key : Str) (n : Nat) :
    nameRing.vnodes ring key n = (namesFrom ring key).take (n + 1) := by
  show (if ring = [] then none else some ((namesFrom ring key).take (n + 1))).getD [] = _
  by_cases h : ring = []
  · rw [if_pos h, h]
    rfl
  · rw [if_neg h]
    rfl

theorem atMostNext : nameRing.AtMostNext := by
  intro ring key n
  rw [vnodes_eq, List.length_take]
  exact Nat.min_le_left _ _

theorem walk_eq (ring : nameRing.Ring) (key : Str) : nameRing.walk ring key = namesFrom ring key := by
  have hlen : nameRing.len ring = (namesFrom ring key).length := (length_namesFrom ring key).symm
  rw [HashRingCrate.walk, vnodes_eq, hlen, List.take_of_length_le (Nat.le_succ _), List.take_length]

theorem build_pairwise_perm (names : List Str) :
    (nameRing.build names).Pairwise (textOrder · ≤ textOrder ·) ∧
      (nameRing.build names).Perm names := by
  induction names using List.reverseRecOn with
  | nil => exact ⟨List.Pairwise.nil, List.Perm.nil⟩
  | append_singleton names name ih =>
    have hbuild : nameRing.build (names ++ [name]) =
        sortByKey textOrder (name :: nameRing.build names) := by
      simp [HashRingCrate.build, nameRing]
    rw [hbuild]
    refine ⟨sortByKey_pairwise _ _, ?_⟩
    calc (sortByKey textOrder (name :: nameRing.build names)).Perm (name :: nameRing.build names) :=
          sortByKey_perm _ _
      _ |>.Perm (name :: names) := ih.2.cons _
      _ |>.Perm (names ++ [name]) := (List.perm_append_singleton name names).symm

theorem lawful : nameRing.Lawful where
  le_length ring key n := by
    have hlen : nameRing.len ring = (namesFrom ring key).length := (length_namesFrom ring key).symm
    rw [vnodes_eq, List.length_take, hlen]
    omega
  follows ring key n := ⟨1, by
    rw [vnodes_eq, walk_eq, List.replicate_one, List.flatten_singleton]
    exact List.take_prefix _ _⟩
  mem_walk names _ key name := by
    rw [walk_eq, mem_namesFrom, (build_pairwise_perm names).2.mem_iff]
  build_perm names names' hperm _ := by
    obtain ⟨hsorted, hnames⟩ := build_pairwise_perm names
    obtain ⟨hsorted', hnames'⟩ := build_pairwise_perm names'
    refine (hnames.trans (hperm.trans hnames'.symm)).eq_of_pairwise ?_ hsorted hsorted'
    intro a b _ _ hab hba
    exact textOrder_injective (le_antisymm hab hba)

end nameRing

end DragonflySdk
